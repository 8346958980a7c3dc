import LdapTgen.LabelledRun
import LdapTgen.MppeKeys
import LdapTgen.SupplicantRounds

/-! An authentication of the supplicant, with the re-authentications that follow it: the handlers of its
event loop, and the result that is drawn from what they leave. The EAPOL machine belongs to a library;
it is given by the frames it gets and the calls it makes. There is one server, as `wpa_init_conf` has it. -/
namespace LdapTgen.SupplicantExchange
open ByteOrder LabelledRun MppeKeys RadiusAttributes RadiusAuthenticators RadiusMessage
  SupplicantRequest SupplicantRounds UserData
open RadiusClient (radiusClientMaxEntries)

/-- What `eapol_sm_get_key` gives for the two lengths. -/
structure EapolKeys where
  pmk : Option Bytes
  leap : Option Bytes

structure Callback where
  success : Bool
  keys : EapolKeys

structure Request where
  msg : RadiusMsg
  packet : Packet
  attempts : ℕ
  carries : msg.Carries packet packet.size

/-- What the EAPOL machine does when it is called: `eapol_sm_cb`, or a request by
`ieee802_1x_encapsulate_radius`, which takes an identifier first. -/
inductive Act
  | call (c : Callback)
  | getId (id : UInt8)
  | send (req : Request)

/-- What does not change: the digests, the secret of the server, the limit of the retries, and the
allocator for the messages that are read. -/
structure Conf where
  digest : Digest
  secret : Bytes
  tcRadiusRetries : ℤ
  alloc : Alloc
  gives : alloc.Gives

/-- `struct eapol_test_data`, with its user, the list of the client with its counter, the frames that the
EAPOL machine got, the number of `eapol_sm_reauth` in the loop, and the retries of the samples that they
took. -/
structure EapolTestData where
  user : User
  creditSessionAction : ℤ
  numReauths : ℤ
  authTimedOut : Bool
  accessAcceptReceived : Bool
  accessRejectReceived : Bool
  acceptNoNecessaryAvp : Bool
  lastEapRadius : Option Bytes
  authenticatorPmk : AuthenticatorPmk
  noMppeKeys : Bool
  numMppeOk : ℕ
  numMppeMismatch : ℕ
  retransmissions : ℕ
  msgs : List Request
  numMsgs : ℕ
  terminate : Bool
  frames : List Bytes
  reauths : ℕ
  samples : List ℕ

def eapolVersion : UInt8 := 2
def ieee8021xTypeEapPacket : UInt8 := 0

def eapCodeRequest : UInt8 := 1
def eapCodeFailure : UInt8 := 4
def eapTypeIdentity : UInt8 := 1

/-- A failed comparison is counted, but any Access-Accept is good enough. -/
def eapolTestComparePmk (keys : EapolKeys) (e : EapolTestData) : EapolTestData × ℤ :=
  let e := { e with noMppeKeys := true }
  let ret : ℤ := match keys.pmk with
    | some pmk =>
        if pmk ≠ e.authenticatorPmk.pmk.take pmkLen then 1
        else if e.accessAcceptReceived then 0 else 1
    | none =>
        match keys.leap with
        | some pmk =>
            if e.authenticatorPmk.len ≠ 16 then 1
            else if pmk ≠ e.authenticatorPmk.pmk.take 16 then 1
            else if e.accessAcceptReceived then 0 else 1
        | none => 1
  let ret := if e.accessAcceptReceived ∧ e.noMppeKeys then 0 else ret
  if ret ≠ 0 then ({ e with numMppeMismatch := e.numMppeMismatch + 1 }, ret)
  else if !e.noMppeKeys then ({ e with numMppeOk := e.numMppeOk + 1 }, ret)
  else (e, ret)

def eapolSmCb (e : EapolTestData) (c : Callback) : EapolTestData :=
  let e := { e with numReauths := e.numReauths - 1 }
  if e.numReauths < 0 then { e with terminate := true }
  else
    let e := (eapolTestComparePmk c.keys e).1
    { e with reauths := e.reauths + 1 }

def identifierOf (m : RadiusMsg) : UInt8 := m.bytes.getD 1 0

/-- No two requests in the list have one identifier, so that the loop never writes through the entry
that it has freed. -/
def radiusClientGetId (e : EapolTestData) (id : UInt8) : EapolTestData :=
  { e with msgs := e.msgs.filter fun r => identifierOf r.msg ≠ id }

def radiusClientListAdd (e : EapolTestData) (req : Request) : EapolTestData :=
  if e.terminate then e
  else { e with
    msgs := RadiusClient.added { req with attempts := 1 } e.numMsgs e.msgs
    numMsgs := if radiusClientMaxEntries ≤ e.numMsgs then e.numMsgs else e.numMsgs + 1 }

def act (e : EapolTestData) : Act → EapolTestData
  | .call c => eapolSmCb e c
  | .getId id => radiusClientGetId e id
  | .send req => radiusClientListAdd e req

/-- `eapol_sm_rx_eapol`: the machine gets a frame. -/
def eapolSmRxEapol (e : EapolTestData) (frame : Bytes) (acts : List Act) : EapolTestData :=
  acts.foldl act { e with frames := e.frames ++ [frame] }

def eapolFrame (eap : Bytes) : Bytes :=
  eapolVersion :: ieee8021xTypeEapPacket :: toBytes 2 eap.length ++ eap

def sendEapRequestIdentity (e : EapolTestData) (acts : List Act) : EapolTestData :=
  eapolSmRxEapol e (eapolFrame (eapCodeRequest :: 0 :: toBytes 2 5 ++ [eapTypeIdentity])) acts

def eapolSmReauth (e : EapolTestData) (acts : List Act) : EapolTestData :=
  sendEapRequestIdentity { e with
    accessAcceptReceived := false
    samples := e.samples ++ [e.retransmissions]
    retransmissions := 0 } acts

def eapolTestTimeout (e : EapolTestData) : EapolTestData :=
  { e with authTimedOut := true, terminate := true }

def ieee8021xDecapsulateRadius (e : EapolTestData) (m : RadiusMsg) (acts : List Act) :
    EapolTestData :=
  match radiusMsgGetEap m with
  | none => { e with lastEapRadius := none }
  | some eap =>
      if eap.length < 4 then e
      else
        let e := if eap.getD 0 0 = eapCodeFailure then { e with terminate := true } else e
        eapolSmRxEapol { e with lastEapRadius := some eap } (eapolFrame eap) acts

/-- Whether the message is taken; `none` when the verification leaves the buffer. -/
def taken (c : Conf) (creditSessionAction : ℤ) (m sent : RadiusMsg) : Option Bool :=
  if codeOf m = accessReject ∧ (radiusMsgGetAttr m messageAuthenticator []).1 < 0 ∧
      (radiusMsgGetAttr m eapMessage []).1 < 0 then some true
  else if creditSessionAction < 2 then
    (radiusMsgVerify c.digest m c.secret (some sent) true).map fun r => decide (r.2 = 0)
  else some true

def checkWimaxVsa (e : EapolTestData) (m : RadiusMsg) (differs : Bool) : Option EapolTestData :=
  if e.creditSessionAction = 1 ∨ e.creditSessionAction = 2 then
    (SupplicantReceive.getWimaxVsa (view m differs) e.creditSessionAction e.user).map fun (user, rc) =>
      if rc ≤ 0 then { e with user := user, acceptNoNecessaryAvp := true } else { e with user := user }
  else some e

def noteCode (c : Conf) (e : EapolTestData) (m sent : RadiusMsg) : EapolTestData :=
  if codeOf m = accessAccept then
    { e with
      accessAcceptReceived := true
      authenticatorPmk := ieee8021xGetKeys c.digest m sent c.secret e.authenticatorPmk }
  else if codeOf m = accessReject then { e with accessRejectReceived := true }
  else e

/-- `differs` is what `strcmp` says of the session ids. -/
def ieee8021xReceiveAuth (c : Conf) (e : EapolTestData) (m sent : RadiusMsg) (differs : Bool)
    (acts : List Act) : Option (EapolTestData × SupplicantReceive.RxResult) :=
  (taken c e.creditSessionAction m sent).bind fun ok =>
    if !ok then some (e, .unknown)
    else
      (if codeOf m = accessAccept then checkWimaxVsa e m differs else some e).map fun e =>
      if codeOf m ≠ accessAccept ∧ codeOf m ≠ accessReject ∧ codeOf m ≠ accessChallenge then
        (e, .unknown)
      else
        let e := ieee8021xDecapsulateRadius (noteCode c e m sent) m acts
        if (codeOf m = accessAccept ∧ e.numReauths < 0) ∨ codeOf m = accessReject then
          ({ e with terminate := true }, .queued)
        else (e, .queued)

/-- A frame that comes from the server, and what the machine does with the EAP packet in it. -/
structure Read where
  frame : Bytes
  differs : Bool
  acts : List Act

def recvBufLen : ℕ := 3000

/-- What `radius_client_receive` makes of a frame: one that fills its buffer is dropped. -/
def received (c : Conf) (frame : Bytes) : Option RadiusMsg :=
  if recvBufLen ≤ frame.length then none else radiusMsgParse c.alloc frame

def answers (m : RadiusMsg) (req : Request) : Bool := identifierOf req.msg = identifierOf m

/-- Class and State of an Access-Accept are stored before its request is looked for, and the request is
out of the list before the message is verified. -/
def radiusClientReceive (c : Conf) (e : EapolTestData) (r : Read) : Option EapolTestData :=
  match received c r.frame with
  | none => some e
  | some m =>
      (SupplicantReceive.storeAttributes (view m r.differs) e.user).bind fun user =>
        match e.msgs.find? (answers m) with
        | none => some { e with user := user }
        | some req =>
            (ieee8021xReceiveAuth c { e with
              user := user
              msgs := e.msgs.eraseP (answers m)
              numMsgs := e.numMsgs - 1 } m req.msg r.differs r.acts).map Prod.fst

/-- The timer that has expired; `due` says which requests are to be sent again. -/
inductive Timer
  | timeout
  | reauth (acts : List Act)
  | client (due : Request → Bool)
  | eapol (acts : List Act)

structure Turn where
  timer : Option Timer
  read : Option Read

def tooMany (c : Conf) (r : Request) : Bool := c.tcRadiusRetries < (r.attempts + 1 : ℕ)

/-- Where a request was sent too often, the client gives up, and the loop is told to end. -/
def radiusClientTimer (c : Conf) (e : EapolTestData) (due : Request → Bool) : EapolTestData :=
  let resent := e.msgs.filter due
  let e := { e with
    retransmissions := e.retransmissions + resent.length
    msgs := e.msgs.filterMap fun r =>
      if !due r then some r
      else if tooMany c r then none
      else some { r with attempts := r.attempts + 1 }
    numMsgs := e.numMsgs - resent.countP (tooMany c) }
  if resent.any (tooMany c) then { e with authTimedOut := true, terminate := true } else e

def onTimer (c : Conf) (e : EapolTestData) : Timer → Option EapolTestData
  | .timeout => some (eapolTestTimeout e)
  | .reauth acts =>
      if e.reauths = 0 then none else some (eapolSmReauth { e with reauths := e.reauths - 1 } acts)
  | .client due => some (radiusClientTimer c e due)
  | .eapol acts => some (acts.foldl act e)

def afterTimer (c : Conf) (e : EapolTestData) (t : Turn) : Option EapolTestData :=
  t.timer.elim (some e) (onTimer c e)

/-- One turn of `tloop_run`: the flag is looked at only before it. -/
def turn (c : Conf) (e : EapolTestData) (t : Turn) : Option EapolTestData :=
  if e.terminate then none
  else (afterTimer c e t).bind fun e => t.read.elim (some e) (radiusClientReceive c e)

inductive WaitFor
  | ack
  | rj
  deriving DecidableEq

/-- The arguments of `tSupplicant_accessRq`, and what the machine does with its first frame. -/
structure Setup where
  fasteap : Bool
  fastReauth : ℤ
  creditSessionAction : ℤ
  user : User
  acts : List Act

def Setup.numReauths (s : Setup) : ℤ := if s.fasteap then s.fastReauth else -1

def start (s : Setup) : EapolTestData :=
  sendEapRequestIdentity
    { user := s.user
      creditSessionAction := s.creditSessionAction
      numReauths := s.numReauths
      authTimedOut := false
      accessAcceptReceived := false
      accessRejectReceived := false
      acceptNoNecessaryAvp := false
      lastEapRadius := none
      authenticatorPmk := ⟨List.replicate pmkLen 0, 0⟩
      noMppeKeys := false
      numMppeOk := 0
      numMppeMismatch := 0
      retransmissions := 0
      msgs := []
      numMsgs := 0
      terminate := false
      frames := []
      reauths := 0
      samples := [] } s.acts

/-- The result of `tSupplicant_accessRq` after the loop. -/
def verdict (waitFor : WaitFor) (keys : EapolKeys) (e : EapolTestData) : ℤ :=
  let ret : ℤ := 0
  let ret := if ret = 0 ∧ e.authTimedOut then 1 else ret
  let ret := if ret = 0 ∧ e.accessRejectReceived then 1 else ret
  let ret := if ret = 0 ∧ (eapolTestComparePmk keys e).2 = 1 then 1 else ret
  let ret := if ret = 0 ∧ e.acceptNoNecessaryAvp then 1 else ret
  if ret = 1 then
    if e.authTimedOut then 1
    else if e.accessRejectReceived ∧ waitFor = .rj then 0
    else 1
  else if waitFor = .rj ∧ !e.accessRejectReceived then 1
  else ret

inductive Happening
  /-- An Access-Accept was taken, with the attributes that the session needs or without them. -/
  | accepted (necessary : Bool)
  | rejected
  /-- The EAPOL machine got an EAP-Failure. -/
  | failure
  | called
  | reauthenticated
  | resent (retransmissions : ℕ)
  | gaveUp
  | timedOut
  deriving DecidableEq

def Act.happenings : Act → List Happening
  | .call _ => [.called]
  | .getId _ => []
  | .send _ => []

def calls (acts : List Act) : List Happening := acts.flatMap Act.happenings

def necessaryAvps (creditSessionAction : ℤ) (m : RadiusMsg) : Bool :=
  (creditSessionAction ≠ 1 ∨ (radiusMsgGetWimaxVsa m vendorIdWimax wimaxAaaSessionId).isSome) ∧
    (¬ (creditSessionAction = 1 ∨ creditSessionAction = 2) ∨
      (radiusMsgGetWimaxVsa m vendorIdWimax wimaxPpaq).isSome)

def codeHappenings (creditSessionAction : ℤ) (m : RadiusMsg) : List Happening :=
  if codeOf m = accessAccept then [.accepted (necessaryAvps creditSessionAction m)]
  else if codeOf m = accessReject then [.rejected]
  else []

def eapHappenings (m : RadiusMsg) (acts : List Act) : List Happening :=
  match radiusMsgGetEap m with
  | none => []
  | some eap =>
      if eap.length < 4 then []
      else (if eap.getD 0 0 = eapCodeFailure then [.failure] else []) ++ calls acts

def authHappenings (c : Conf) (creditSessionAction : ℤ) (m sent : RadiusMsg) (acts : List Act) :
    List Happening :=
  if taken c creditSessionAction m sent = some true ∧
      (codeOf m = accessAccept ∨ codeOf m = accessReject ∨ codeOf m = accessChallenge) then
    codeHappenings creditSessionAction m ++ eapHappenings m acts
  else []

def Timer.happenings (c : Conf) (e : EapolTestData) : Timer → List Happening
  | .timeout => [.timedOut]
  | .reauth acts => .reauthenticated :: calls acts
  | .client due => .resent (e.msgs.filter due).length ::
      if (e.msgs.filter due).any (tooMany c) then [.gaveUp] else []
  | .eapol acts => calls acts

def Read.happenings (c : Conf) (e : EapolTestData) (r : Read) : List Happening :=
  match received c r.frame with
  | none => []
  | some m =>
      match e.msgs.find? (answers m) with
      | none => []
      | some req => authHappenings c e.creditSessionAction m req.msg r.acts

def Turn.happenings (c : Conf) (e : EapolTestData) (t : Turn) : List Happening :=
  t.timer.elim [] (Timer.happenings c e) ++
    (afterTimer c e t).elim [] fun e => t.read.elim [] (Read.happenings c e)

def historyFrom (c : Conf) : EapolTestData → List Turn → List Happening
  | _, [] => []
  | e, t :: ts => t.happenings c e ++ (turn c e t).elim [] fun e => historyFrom c e ts

/-- What happens in the loop, from the first frame of the machine on. -/
def history (c : Conf) (s : Setup) (ts : List Turn) : List Happening :=
  calls s.acts ++ historyFrom c (start s) ts

def AcceptedLast (hs : List Happening) : Prop :=
  ∃ before necessary after, hs = before ++ .accepted necessary :: after ∧ .reauthenticated ∉ after

/-- The loop is told to end by something else than the code of a message. -/
def Stopped (numReauths : ℤ) (hs : List Happening) : Prop :=
  .timedOut ∈ hs ∨ .gaveUp ∈ hs ∨ .failure ∈ hs ∨ (0 < hs.count .called ∧ numReauths < hs.count .called)

def Answered (numReauths : ℤ) (hs : List Happening) : Prop :=
  .rejected ∈ hs ∨ (numReauths < 0 ∧ ∃ necessary, .accepted necessary ∈ hs)

def Happening.retransmissions : Happening → ℕ
  | .resent n => n
  | _ => 0

def retransmissions (hs : List Happening) : ℕ := (hs.map Happening.retransmissions).sum

/-- The data are those after `hs`; of it, `done` was before the message that is being handled. -/
structure Reflects (numReauths credit : ℤ) (e : EapolTestData) (done hs : List Happening) : Prop where
  timedOut : e.authTimedOut = true ↔ .timedOut ∈ hs ∨ .gaveUp ∈ hs
  rejected : e.accessRejectReceived = true ↔ .rejected ∈ hs
  accepted : e.accessAcceptReceived = true ↔ AcceptedLast hs
  avps : e.acceptNoNecessaryAvp = true ↔ .accepted false ∈ hs
  calls : e.numReauths = numReauths - hs.count .called
  reauths : e.samples.length + e.reauths = min (hs.count .called) numReauths.toNat
  samples : e.samples.length = hs.count .reauthenticated
  retries : e.samples.sum + e.retransmissions = retransmissions hs
  stops : e.terminate = true ↔ Stopped numReauths hs ∨ Answered numReauths done
  credit : e.creditSessionAction = credit

/-- What a happening does to the data. -/
def noted (e : EapolTestData) : Happening → EapolTestData
  | .accepted necessary => { e with
      accessAcceptReceived := true
      acceptNoNecessaryAvp := e.acceptNoNecessaryAvp || !necessary }
  | .rejected => { e with accessRejectReceived := true }
  | .failure => { e with terminate := true }
  | .called => { e with
      numReauths := e.numReauths - 1
      terminate := if e.numReauths - 1 < 0 then true else e.terminate
      reauths := if e.numReauths - 1 < 0 then e.reauths else e.reauths + 1 }
  | .reauthenticated => { e with
      accessAcceptReceived := false
      reauths := e.reauths - 1
      samples := e.samples ++ [e.retransmissions]
      retransmissions := 0 }
  | .resent n => { e with retransmissions := e.retransmissions + n }
  | .gaveUp | .timedOut => { e with authTimedOut := true, terminate := true }

lemma acceptedLast_concat {hs : List Happening} {h : Happening} :
    AcceptedLast (hs ++ [h]) ↔
      (∃ necessary, h = .accepted necessary) ∨ (AcceptedLast hs ∧ h ≠ .reauthenticated) := by
  constructor
  · rintro ⟨before, necessary, after, heq, hnot⟩
    rcases List.eq_nil_or_concat after with rfl | ⟨after, last, rfl⟩
    · exact .inl ⟨necessary, (List.append_inj' heq rfl).2 |> List.head_eq_of_cons_eq⟩
    · rw [List.concat_eq_append] at heq hnot
      rw [← List.cons_append, ← List.append_assoc] at heq
      obtain ⟨rfl, hlast⟩ := List.append_inj' heq rfl
      obtain rfl := List.head_eq_of_cons_eq hlast
      rw [List.mem_append, not_or] at hnot
      exact .inr ⟨⟨before, necessary, after, rfl, hnot.1⟩, fun h => hnot.2 (by simp [h])⟩
  · rintro (⟨necessary, rfl⟩ | ⟨⟨before, necessary, after, rfl, hnot⟩, hne⟩)
    · exact ⟨hs, necessary, [], rfl, by simp⟩
    · refine ⟨before, necessary, after ++ [h], by simp, ?_⟩
      simp [hnot, hne.symm]

lemma comparePmk_eq (keys : EapolKeys) (e : EapolTestData) :
    ∃ mismatch, eapolTestComparePmk keys e =
      ({ e with noMppeKeys := true, numMppeMismatch := mismatch },
        if e.accessAcceptReceived then 0 else 1) := by
  cases haccept : e.accessAcceptReceived with
  | true => exact ⟨e.numMppeMismatch, by simp [eapolTestComparePmk, haccept]⟩
  | false =>
    refine ⟨e.numMppeMismatch + 1, ?_⟩
    simp only [eapolTestComparePmk, haccept]
    cases keys.pmk with
    | some pmk => simp
    | none =>
      cases keys.leap with
      | some pmk => simp
      | none => simp

section Steps
variable {numReauths credit : ℤ} {e : EapolTestData} {done hs : List Happening}

lemma Reflects.concat (h : Reflects numReauths credit e done hs) {x : Happening}
    (hx : x = .reauthenticated → e.reauths ≠ 0) :
    Reflects numReauths credit (noted e x) done (hs ++ [x]) := by
  have hcalls := h.calls
  have hreauths := h.reauths
  exact {
    timedOut := by cases x <;> simp [noted, h.timedOut]
    rejected := by cases x <;> simp [noted, h.rejected]
    accepted := by cases x <;> simp [noted, acceptedLast_concat, h.accepted]
    avps := by cases x <;> simp [noted, h.avps]
    calls := by
      cases x <;> simp [noted, hcalls]
      omega
    reauths := by
      cases x with
      | called =>
        simp only [noted, List.count_append, List.count_singleton_self]
        split_ifs <;> omega
      | reauthenticated =>
        have hpos := hx rfl
        simp [noted]
        omega
      | _ => simpa [noted] using hreauths
    samples := by cases x <;> simp [noted, h.samples]
    retries := by
      have hretries : retransmissions (hs ++ [x]) = e.samples.sum + e.retransmissions +
          x.retransmissions := by
        rw [h.retries]
        simp [retransmissions]
      rw [hretries]
      cases x <;> simp [noted, Happening.retransmissions, Nat.add_assoc]
    stops := by
      cases x with
      | called =>
        have hcount : (hs ++ [Happening.called]).count .called = hs.count .called + 1 := by simp
        simp only [noted]
        split_ifs with hneg
        · simp only [true_iff]
          exact .inl (.inr (.inr (.inr ⟨by omega, by omega⟩)))
        · -- the call leaves a re-authentication to come
          refine h.stops.trans (or_congr (or_congr (by simp) (or_congr (by simp)
            (or_congr (by simp) ?_))) Iff.rfl)
          rw [hcount]
          omega
      | _ => simp [noted, Stopped, h.stops]
    credit := by cases x <;> exact h.credit }

lemma Reflects.call (h : Reflects numReauths credit e done hs) (c : Callback) :
    Reflects numReauths credit (eapolSmCb e c) done (hs ++ [.called]) := by
  obtain ⟨mismatch, hcompare⟩ := comparePmk_eq c.keys { e with numReauths := e.numReauths - 1 }
  have hnote := h.concat (x := .called) nofun
  simp only [eapolSmCb, hcompare]
  simp only [noted] at hnote
  split_ifs at hnote ⊢ <;> exact { hnote with }

lemma Reflects.act (h : Reflects numReauths credit e done hs) (x : Act) :
    Reflects numReauths credit (SupplicantExchange.act e x) done (hs ++ x.happenings) := by
  cases x with
  | call c => exact h.call c
  | getId id =>
    rw [Act.happenings, List.append_nil]
    exact { h with }
  | send req =>
    rw [Act.happenings, List.append_nil]
    unfold SupplicantExchange.act radiusClientListAdd
    by_cases hend : e.terminate = true
    · simpa only [if_pos hend] using h
    · simp only [if_neg hend]
      exact { h with }

lemma Reflects.acts (h : Reflects numReauths credit e done hs) (acts : List Act) :
    Reflects numReauths credit (acts.foldl SupplicantExchange.act e) done
      (hs ++ SupplicantExchange.calls acts) := by
  induction acts generalizing e hs with
  | nil => simpa [SupplicantExchange.calls] using h
  | cons x acts ih =>
    have hnext := ih (h.act x)
    rw [List.append_assoc] at hnext
    exact hnext

lemma Reflects.frame (h : Reflects numReauths credit e done hs) (frame : Bytes) (acts : List Act) :
    Reflects numReauths credit (eapolSmRxEapol e frame acts) done
      (hs ++ SupplicantExchange.calls acts) := by
  have hframes : Reflects numReauths credit { e with frames := e.frames ++ [frame] } done hs := { h with }
  exact hframes.acts acts

lemma Reflects.decapsulate (h : Reflects numReauths credit e done hs) (m : RadiusMsg)
    (acts : List Act) :
    Reflects numReauths credit (ieee8021xDecapsulateRadius e m acts) done (hs ++ eapHappenings m acts) := by
  unfold ieee8021xDecapsulateRadius eapHappenings
  cases radiusMsgGetEap m with
  | none =>
    rw [List.append_nil]
    exact { h with }
  | some eap =>
    dsimp only
    split_ifs with hshort hfail
    · rw [List.append_nil]
      exact h
    · have hfailed : Reflects numReauths credit { e with terminate := true, lastEapRadius := some eap }
          done (hs ++ [.failure]) := { h.concat (x := .failure) nofun with }
      rw [← List.append_assoc]
      exact hfailed.frame _ acts
    · have hlast : Reflects numReauths credit { e with lastEapRadius := some eap } done hs := { h with }
      exact hlast.frame _ acts

lemma getWimaxVsa_le_zero_iff {c rc : ℤ} (hc : c = 1 ∨ c = 2) {m : RadiusMsg} {differs : Bool}
    {u u' : User} (h : SupplicantReceive.getWimaxVsa (view m differs) c u = some (u', rc)) :
    rc ≤ 0 ↔ necessaryAvps c m = false := by
  obtain ⟨⟨w, rc'⟩, hw, heq⟩ := Option.map_eq_some_iff.mp h
  have hrc := (congrArg Prod.snd heq).symm
  have hid : rc' = if c = 1 ∧ (radiusMsgGetWimaxVsa m vendorIdWimax wimaxAaaSessionId) = none then -1
      else 1 := by
    unfold SupplicantReceive.getAaaSessionId at hw
    split at hw
    next v hv =>
      have hsome : radiusMsgGetWimaxVsa m vendorIdWimax wimaxAaaSessionId = some v := hv
      split at hw
      · cases hw
      · simp [hsome, ← (Prod.mk.inj (Option.some.inj hw)).2]
    next hnone =>
      have hnone' : radiusMsgGetWimaxVsa m vendorIdWimax wimaxAaaSessionId = none := hnone
      simp [hnone', ← (Prod.mk.inj (Option.some.inj hw)).2]
  have hppaq : (view m differs).wimaxVsa .ppaq = radiusMsgGetWimaxVsa m vendorIdWimax wimaxPpaq := rfl
  dsimp only at hrc
  rw [hppaq] at hrc
  cases hq : radiusMsgGetWimaxVsa m vendorIdWimax wimaxPpaq <;>
    cases hi : radiusMsgGetWimaxVsa m vendorIdWimax wimaxAaaSessionId <;>
    rcases hc with rfl | rfl <;> simp [necessaryAvps, hq, hi, hid] at hrc ⊢ <;> omega

lemma checkWimaxVsa_eq {e e' : EapolTestData} {m : RadiusMsg} {differs : Bool}
    (h : checkWimaxVsa e m differs = some e') :
    e' = { e with
      user := e'.user
      acceptNoNecessaryAvp := e.acceptNoNecessaryAvp || !necessaryAvps e.creditSessionAction m } := by
  unfold checkWimaxVsa at h
  split_ifs at h with hc
  · obtain ⟨⟨user, rc⟩, hvsa, rfl⟩ := Option.map_eq_some_iff.mp h
    have hiff := getWimaxVsa_le_zero_iff hc hvsa
    dsimp only
    split_ifs with hrc
    · simp [hiff.mp hrc]
    · have htrue : necessaryAvps e.creditSessionAction m = true := by simpa [hrc] using hiff
      simp [htrue]
  · obtain rfl := Option.some.inj h
    rw [not_or] at hc
    have htrue : necessaryAvps e.creditSessionAction m = true := by simp [necessaryAvps, hc]
    simp [htrue]

lemma Reflects.code (h : Reflects numReauths credit e done hs) (c : Conf) {m : RadiusMsg}
    (sent : RadiusMsg) {differs : Bool} {e' : EapolTestData}
    (hcheck : (if codeOf m = accessAccept then checkWimaxVsa e m differs else some e) = some e') :
    Reflects numReauths credit (noteCode c e' m sent) done (hs ++ codeHappenings credit m) := by
  unfold noteCode codeHappenings
  split_ifs at hcheck ⊢ with haccept hreject
  · have hnote := h.concat (x := .accepted (necessaryAvps credit m)) nofun
    rw [checkWimaxVsa_eq hcheck, h.credit]
    exact { hnote with credit := rfl }
  · obtain rfl := Option.some.inj hcheck
    exact h.concat (x := .rejected) nofun
  · obtain rfl := Option.some.inj hcheck
    rw [List.append_nil]
    exact h

lemma eq_of_mem_calls {acts : List Act} {x : Happening} (hx : x ∈ SupplicantExchange.calls acts) :
    x = .called := by
  obtain ⟨y, -, hy⟩ := List.mem_flatMap.mp hx
  cases y with
  | call c => exact List.mem_singleton.mp hy
  | getId id => cases hy
  | send req => cases hy

lemma answered_calls (numReauths : ℤ) (hs : List Happening) (acts : List Act) :
    Answered numReauths (hs ++ SupplicantExchange.calls acts) ↔ Answered numReauths hs := by
  have hrejected : .rejected ∉ SupplicantExchange.calls acts := fun hx => nomatch eq_of_mem_calls hx
  have haccepted : ∀ necessary, .accepted necessary ∉ SupplicantExchange.calls acts :=
    fun necessary hx => nomatch eq_of_mem_calls hx
  simp [Answered, hrejected, haccepted]

lemma eq_of_mem_eapHappenings {m : RadiusMsg} {acts : List Act} {x : Happening}
    (hx : x ∈ eapHappenings m acts) : x = .failure ∨ x = .called := by
  unfold eapHappenings at hx
  cases heap : radiusMsgGetEap m with
  | none => simp [heap] at hx
  | some eap =>
    simp only [heap] at hx
    split_ifs at hx
    · cases hx
    · rcases List.mem_append.mp hx with hx | hx
      · exact .inl (List.mem_singleton.mp hx)
      · exact .inr (eq_of_mem_calls hx)
    · exact .inr (eq_of_mem_calls hx)

lemma answered_handled (numReauths credit : ℤ) (hs : List Happening) (m : RadiusMsg)
    (acts : List Act) :
    Answered numReauths (hs ++ (codeHappenings credit m ++ eapHappenings m acts)) ↔
      Answered numReauths hs ∨ codeOf m = accessReject ∨
        (numReauths < 0 ∧ codeOf m = accessAccept) := by
  have hrejected : .rejected ∉ eapHappenings m acts := fun hx => by
    simpa using eq_of_mem_eapHappenings hx
  have haccepted : ∀ necessary, .accepted necessary ∉ eapHappenings m acts := fun necessary hx => by
    simpa using eq_of_mem_eapHappenings hx
  have hne : accessAccept ≠ accessReject := by decide
  simp only [Answered, List.mem_append, hrejected, haccepted, or_false, codeHappenings]
  split_ifs with haccept hreject
  · simp only [haccept, hne, List.mem_singleton, reduceCtorEq, or_false, Happening.accepted.injEq,
      exists_or, exists_eq, or_true, and_true, false_or]
    tauto
  · simp [hreject, hne.symm]
  · simp [haccept, hreject]

lemma Reflects.handled {m : RadiusMsg} {acts : List Act}
    (h : Reflects numReauths credit e hs (hs ++ (codeHappenings credit m ++ eapHappenings m acts))) :
    Reflects numReauths credit
      (if (codeOf m = accessAccept ∧ e.numReauths < 0) ∨ codeOf m = accessReject then
        { e with terminate := true } else e)
      (hs ++ (codeHappenings credit m ++ eapHappenings m acts))
      (hs ++ (codeHappenings credit m ++ eapHappenings m acts)) := by
  have hanswered := answered_handled numReauths credit hs m acts
  generalize hs ++ (codeHappenings credit m ++ eapHappenings m acts) = now at h hanswered ⊢
  have hcalls := h.calls
  -- without re-authentications left, there was a last call or none was wanted
  have hleft : e.numReauths < 0 → Stopped numReauths now ∨ numReauths < 0 := by
    intro hneg
    rcases Nat.eq_zero_or_pos (now.count .called) with hzero | hpos
    · exact .inr (by omega)
    · exact .inl (.inr (.inr (.inr ⟨hpos, by omega⟩)))
  split_ifs with hcode
  · refine { h with stops := ?_ }
    simp only [true_iff]
    rcases hcode with ⟨haccept, hneg⟩ | hreject
    · rcases hleft hneg with hstopped | hnone
      · exact .inl hstopped
      · exact .inr (hanswered.mpr (.inr (.inr ⟨hnone, haccept⟩)))
    · exact .inr (hanswered.mpr (.inr (.inl hreject)))
  · refine { h with stops := h.stops.trans (or_congr Iff.rfl ?_) }
    rw [hanswered]
    constructor
    · exact .inl
    · rintro (hdone | hreject | ⟨hnone, haccept⟩)
      · exact hdone
      · exact absurd (.inr hreject) hcode
      · exact absurd (.inl ⟨haccept, by omega⟩) hcode

lemma Reflects.auth (h : Reflects numReauths credit e hs hs) {c : Conf} {m sent : RadiusMsg}
    {differs : Bool} {acts : List Act} {r : EapolTestData × SupplicantReceive.RxResult}
    (hauth : ieee8021xReceiveAuth c e m sent differs acts = some r) :
    Reflects numReauths credit r.1 (hs ++ authHappenings c credit m sent acts)
      (hs ++ authHappenings c credit m sent acts) := by
  obtain ⟨ok, htaken, heq⟩ := Option.bind_eq_some_iff.mp hauth
  rw [h.credit] at htaken
  unfold authHappenings
  cases ok with
  | false =>
    rw [htaken, if_neg (by simp), List.append_nil, ← Option.some.inj heq]
    exact h
  | true =>
    simp only [Bool.not_true, Bool.false_eq_true, if_false] at heq
    obtain ⟨e₁, hcheck, hr⟩ := Option.map_eq_some_iff.mp heq
    by_cases hcode : codeOf m = accessAccept ∨ codeOf m = accessReject ∨ codeOf m = accessChallenge
    · rw [if_pos ⟨htaken, hcode⟩]
      rw [if_neg (by tauto)] at hr
      have hcoded := (h.code c sent hcheck).decapsulate m acts
      rw [List.append_assoc] at hcoded
      generalize ieee8021xDecapsulateRadius _ m acts = e₂ at hr hcoded
      have hhandled := hcoded.handled
      split_ifs at hr hhandled
      · rw [← hr]
        exact hhandled
      · rw [← hr]
        exact hhandled
    · have hnot : codeOf m ≠ accessAccept := fun haccept => hcode (.inl haccept)
      rw [if_neg hnot] at hcheck
      obtain rfl := Option.some.inj hcheck
      rw [if_neg (fun hboth => hcode hboth.2), List.append_nil]
      rw [if_pos (by tauto)] at hr
      rw [← hr]
      exact h

lemma Reflects.read (h : Reflects numReauths credit e hs hs) {c : Conf} {r : Read} {e' : EapolTestData}
    (hread : radiusClientReceive c e r = some e') :
    Reflects numReauths credit e' (hs ++ r.happenings c e) (hs ++ r.happenings c e) := by
  unfold radiusClientReceive at hread
  unfold Read.happenings
  cases hmsg : received c r.frame with
  | none =>
    simp only [hmsg] at hread
    obtain rfl := Option.some.inj hread
    simpa using h
  | some m =>
    simp only [hmsg] at hread
    obtain ⟨user, -, hfound⟩ := Option.bind_eq_some_iff.mp hread
    cases hfind : e.msgs.find? (answers m) with
    | none =>
      simp only [hfind] at hfound
      obtain rfl := Option.some.inj hfound
      simp only [hfind, List.append_nil]
      exact { h with }
    | some req =>
      simp only [hfind] at hfound
      obtain ⟨res, hauth, rfl⟩ := Option.map_eq_some_iff.mp hfound
      have hleft : Reflects numReauths credit { e with
          user := user
          msgs := e.msgs.eraseP (answers m)
          numMsgs := e.numMsgs - 1 } hs hs := { h with }
      simp only [hfind, h.credit]
      exact hleft.auth hauth

lemma Reflects.client (h : Reflects numReauths credit e done hs) (c : Conf) (due : Request → Bool) :
    Reflects numReauths credit (radiusClientTimer c e due) done
      (hs ++ (Timer.client due).happenings c e) := by
  have hresent := h.concat (x := .resent (e.msgs.filter due).length) nofun
  have hlist : ∀ msgs numMsgs, Reflects numReauths credit { e with
      retransmissions := e.retransmissions + (e.msgs.filter due).length
      msgs := msgs
      numMsgs := numMsgs } done (hs ++ [.resent (e.msgs.filter due).length]) :=
    fun _ _ => { hresent with }
  simp only [radiusClientTimer, Timer.happenings]
  rw [List.append_cons]
  split_ifs
  · exact (hlist _ _).concat (x := .gaveUp) nofun
  · rw [List.append_nil]
    exact hlist _ _

lemma Reflects.timer (h : Reflects numReauths credit e done hs) {c : Conf} {x : Timer}
    {e' : EapolTestData} (htimer : onTimer c e x = some e') :
    Reflects numReauths credit e' done (hs ++ x.happenings c e) := by
  cases x with
  | timeout =>
    obtain rfl := Option.some.inj htimer
    exact h.concat (x := .timedOut) nofun
  | reauth acts =>
    simp only [onTimer] at htimer
    split_ifs at htimer with hzero
    obtain rfl := Option.some.inj htimer
    rw [Timer.happenings, List.append_cons]
    exact (h.concat (x := .reauthenticated) fun _ => hzero).frame _ acts
  | client due =>
    obtain rfl := Option.some.inj htimer
    exact h.client c due
  | eapol acts =>
    obtain rfl := Option.some.inj htimer
    exact h.acts acts

lemma answered_timer (numReauths : ℤ) (hs : List Happening) (c : Conf) (e : EapolTestData) (x : Timer) :
    Answered numReauths (hs ++ x.happenings c e) ↔ Answered numReauths hs := by
  cases x with
  | timeout => simp [Answered, Timer.happenings]
  | reauth acts =>
    rw [Timer.happenings, List.append_cons, answered_calls]
    simp [Answered]
  | client due =>
    simp only [Timer.happenings]
    split_ifs <;> simp [Answered]
  | eapol acts => exact answered_calls numReauths hs acts

lemma Reflects.turn (h : Reflects numReauths credit e hs hs) {c : Conf} {t : Turn}
    {e' : EapolTestData} (hturn : SupplicantExchange.turn c e t = some e') :
    Reflects numReauths credit e' (hs ++ t.happenings c e) (hs ++ t.happenings c e) := by
  unfold SupplicantExchange.turn at hturn
  split_ifs at hturn
  obtain ⟨e₁, htimer, hread⟩ := Option.bind_eq_some_iff.mp hturn
  have htimed : Reflects numReauths credit e₁ (hs ++ t.timer.elim [] (Timer.happenings c e))
      (hs ++ t.timer.elim [] (Timer.happenings c e)) := by
    unfold afterTimer at htimer
    cases hx : t.timer with
    | none =>
      rw [hx] at htimer
      obtain rfl := Option.some.inj htimer
      simpa using h
    | some x =>
      rw [hx] at htimer
      have hnext := h.timer htimer
      exact { hnext with stops := hnext.stops.trans (or_congr Iff.rfl (answered_timer ..).symm) }
  rw [Turn.happenings, ← List.append_assoc, htimer]
  cases hr : t.read with
  | none =>
    rw [hr] at hread
    obtain rfl := Option.some.inj hread
    simpa using htimed
  | some r =>
    rw [hr] at hread
    exact htimed.read hread

end Steps

lemma start_reflects (s : Setup) :
    Reflects s.numReauths s.creditSessionAction (start s) (calls s.acts) (calls s.acts) := by
  have hnone : Reflects s.numReauths s.creditSessionAction (start s) [] ([] ++ calls s.acts) := by
    refine Reflects.frame ?_ _ s.acts
    exact {
      timedOut := by simp
      rejected := by simp
      accepted := by simp [AcceptedLast]
      avps := by simp
      calls := by simp
      reauths := by simp
      samples := by simp
      retries := by simp [retransmissions]
      stops := by simp [Stopped, Answered]
      credit := rfl }
  rw [List.nil_append] at hnone
  refine { hnone with stops := hnone.stops.trans (or_congr Iff.rfl ?_) }
  exact (answered_calls s.numReauths [] s.acts).symm

lemma run_reflects {c : Conf} {s : Setup} {ts : List Turn} {e : EapolTestData}
    (hrun : run (turn c) (start s) ts = some e) :
    Reflects s.numReauths s.creditSessionAction e (history c s ts) (history c s ts) := by
  have hstart := start_reflects s
  rw [history]
  generalize start s = e₀ at hrun hstart
  generalize calls s.acts = hs at hstart
  induction ts generalizing e₀ hs with
  | nil =>
    obtain rfl := Option.some.inj hrun
    simpa [historyFrom] using hstart
  | cons t ts ih =>
    obtain ⟨e₁, hturn, htail⟩ := run_cons_eq_some.mp hrun
    rw [historyFrom, hturn, ← List.append_assoc]
    exact ih _ htail _ (hstart.turn hturn)

section Reading
variable {m sent : RadiusMsg} {p q : Packet} {len n : ℕ}

lemma getD_header (h : m.Carries p len) {i : ℕ} (hi : i < 4) :
    m.bytes.getD i 0 = (p.code :: p.identifier :: toBytes 2 len).getD i 0 := by
  rw [← header_of_carries h, List.getD_eq_getElem?_getD, List.getD_eq_getElem?_getD,
    List.getElem?_take_of_lt hi]

lemma codeOf_carries (h : m.Carries p len) : codeOf m = p.code := getD_header h (by decide)

lemma identifierOf_carries (h : m.Carries p len) : identifierOf m = p.identifier :=
  getD_header h (by decide)

lemma find_eq_none_iff (h : m.Holds p len) (type : UInt8) :
    (m.attrs.find? fun x => m.attrType x = type) = none ↔ ∀ x ∈ p.attrs, x.tag ≠ type := by
  have hrel := find_type h type
  have hiff : (p.attrs.find? fun x => x.tag = type) = none ↔ ∀ x ∈ p.attrs, x.tag ≠ type := by simp
  rw [← hiff]
  cases hx : m.attrs.find? fun x => m.attrType x = type with
  | none =>
    rw [hx] at hrel
    cases hy : p.attrs.find? fun x => x.tag = type with
    | none => simp
    | some y => rw [hy] at hrel; cases hrel
  | some x =>
    rw [hx] at hrel
    cases hy : p.attrs.find? fun x => x.tag = type with
    | none => rw [hy] at hrel; cases hrel
    | some y => simp

lemma getAttr_neg_iff (h : m.Holds p len) (type : UInt8) :
    (radiusMsgGetAttr m type []).1 < 0 ↔ ∀ x ∈ p.attrs, x.tag ≠ type := by
  rw [← find_eq_none_iff h]
  have hrel := find_type h type
  unfold radiusMsgGetAttr
  cases hx : m.attrs.find? fun x => m.attrType x = type with
  | none => simp
  | some x =>
    rw [hx] at hrel
    cases hy : p.attrs.find? fun e => e.tag = type with
    | none => rw [hy] at hrel; cases hrel
    | some y =>
      rw [hy] at hrel
      obtain ⟨hpoints⟩ := hrel
      have hlength := hpoints.length
      simp only [reduceCtorEq, iff_false]
      omega

lemma storeAttributes_of_ne (h : m.Holds p len)
    (hne : ∀ x ∈ p.attrs, x.tag ≠ classAttr ∧ x.tag ≠ stateAttr) (differs : Bool) (u : User) :
    SupplicantReceive.storeAttributes (view m differs) u = some u := by
  have hclass : (view m differs).attr .classAttr = none :=
    Option.map_eq_none_iff.mpr ((find_eq_none_iff h _).mpr fun x hx => (hne x hx).1)
  have hstate : (view m differs).attr .stateAttr = none :=
    Option.map_eq_none_iff.mpr ((find_eq_none_iff h _).mpr fun x hx => (hne x hx).2)
  unfold SupplicantReceive.storeAttributes
  split_ifs
  · rw [SupplicantReceive.storeClass_of_none (by simp [hclass]), Option.bind_some,
      SupplicantReceive.storeState_of_none (by simp [hstate])]
  · rfl

structure Exempt (p : Packet) : Prop where
  code : p.code = accessReject
  mac : ∀ x ∈ p.attrs, x.tag ≠ messageAuthenticator
  eap : ∀ x ∈ p.attrs, x.tag ≠ eapMessage

lemma taken_iff (c : Conf) (credit : ℤ) (hmac : MacsFit p) (h : m.Holds p p.size)
    (hsent : sent.Carries q n) :
    ∃ ok, taken c credit m sent = some ok ∧
      (ok = true ↔ Exempt p ∨ 2 ≤ credit ∨
        Authentic c.digest c.secret q.authenticator q.authenticator_length p) := by
  unfold taken
  split_ifs with hexempt hcredit
  · refine ⟨true, rfl, ?_⟩
    rw [codeOf_carries h.toCarries, getAttr_neg_iff h, getAttr_neg_iff h] at hexempt
    simp only [true_iff]
    exact .inl ⟨hexempt.1, hexempt.2.1, hexempt.2.2⟩
  · obtain ⟨rc, hverify, hiff⟩ := verify_spec c.digest c.secret hmac h hsent
    refine ⟨decide (rc = 0), by rw [hverify]; rfl, ?_⟩
    rw [codeOf_carries h.toCarries, getAttr_neg_iff h, getAttr_neg_iff h] at hexempt
    rw [decide_eq_true_iff, hiff]
    constructor
    · exact fun hauth => .inr (.inr hauth)
    · rintro (hex | hle | hauth)
      · exact absurd ⟨hex.code, hex.mac, hex.eap⟩ hexempt
      · omega
      · exact hauth
  · exact ⟨true, rfl, by simp [Int.not_lt.mp hcredit]⟩

end Reading

section Results
variable {c : Conf} {s : Setup} {ts : List Turn} {e : EapolTestData}

lemma verdict_eq_zero_iff (waitFor : WaitFor) (keys : EapolKeys) (e : EapolTestData) :
    verdict waitFor keys e = 0 ↔ ¬ e.authTimedOut = true ∧
      match waitFor with
      | .ack => e.accessAcceptReceived = true ∧ ¬ e.accessRejectReceived = true ∧
          ¬ e.acceptNoNecessaryAvp = true
      | .rj => e.accessRejectReceived = true := by
  obtain ⟨mismatch, hcompare⟩ := comparePmk_eq keys e
  simp only [verdict, hcompare]
  cases e.authTimedOut <;> cases e.accessRejectReceived <;> cases e.accessAcceptReceived <;>
    cases e.acceptNoNecessaryAvp <;> cases waitFor <;> simp

/-- The result of an authentication, whatever the keys are: without a timeout, and when the client never
gives up, it is good for an Access-Accept after the last re-authentication, if no Access-Reject and no
Access-Accept without the attributes of the session came at any time. Where an Access-Reject is waited
for, one is enough. -/
theorem verdict_iff (hrun : run (turn c) (start s) ts = some e) (waitFor : WaitFor) (keys : EapolKeys) :
    verdict waitFor keys e = 0 ↔
      .timedOut ∉ history c s ts ∧ .gaveUp ∉ history c s ts ∧
      match waitFor with
      | .ack => AcceptedLast (history c s ts) ∧ .rejected ∉ history c s ts ∧
          .accepted false ∉ history c s ts
      | .rj => .rejected ∈ history c s ts := by
  have h := run_reflects hrun
  rw [← and_assoc, ← not_or, ← h.timedOut, ← h.accepted, ← h.rejected, ← h.avps]
  exact verdict_eq_zero_iff waitFor keys e

def zeroConf : Conf := ⟨zeroDigest, [], 3, fixedAlloc, fixedAlloc_gives⟩

def zeroRequest : Request :=
  ⟨setLength (fixedMsg accessRequest), emptyPacket accessRequest 7, 0,
    setLength_carries (new_carries (fixedMsg_new accessRequest))⟩

lemma answers_zeroRequest {m : RadiusMsg} (h : identifierOf m = 7) (attempts : ℕ) :
    answers m { zeroRequest with attempts := attempts } = true := by
  rw [answers, h, identifierOf_carries zeroRequest.carries]
  rfl

def oneRequest : Setup := ⟨false, 0, 0, bareUser, [.getId 7, .send zeroRequest]⟩

def textRead : Read := ⟨textAccept.wire textAccept.size, false, []⟩

def resentThenRead : Turn := ⟨some (.client fun _ => true), some textRead⟩

lemma resentThenRead_accepted : ∃ e, run (turn zeroConf) (start oneRequest) [resentThenRead] = some e ∧
    e.retransmissions = 1 ∧ verdict .ack ⟨none, none⟩ e = 0 := by
  obtain ⟨m, hparse, h⟩ := parse_wire fixedAlloc_gives textAccept [] (by decide)
  rw [List.append_nil] at hparse
  have hreceived : received zeroConf textRead.frame = some m := by
    rw [received, if_neg (by decide)]
    exact hparse
  have hcode : codeOf m = accessAccept := codeOf_carries h.toCarries
  have htaken : taken zeroConf 0 m zeroRequest.msg = some true := by
    have hmac : MacsFit textAccept :=
      show ∀ x ∈ textAccept.attrs, x.tag = messageAuthenticator → x.body.length = md5MacLen by decide
    obtain ⟨ok, htaken, hiff⟩ := taken_iff zeroConf 0 hmac h zeroRequest.carries
    rw [htaken, hiff.mpr (.inr (.inr ⟨⟨_, rfl, rfl⟩, rfl⟩))]
  have hget : radiusMsgGetEap m = none := by
    rw [getEap_eq h]
    rfl
  have hauth : ∀ e : EapolTestData, e.creditSessionAction = 0 → e.numReauths = -1 →
      ieee8021xReceiveAuth zeroConf e m zeroRequest.msg false [] = some ({ e with
        accessAcceptReceived := true
        authenticatorPmk := ieee8021xGetKeys zeroDigest m zeroRequest.msg [] e.authenticatorPmk
        lastEapRadius := none
        terminate := true }, .queued) := by
    intro e hcredit hreauths
    simp [ieee8021xReceiveAuth, hcredit, htaken, hcode, checkWimaxVsa, noteCode,
      ieee8021xDecapsulateRadius, hget, hreauths]
    rfl
  have hread : ∃ e, radiusClientReceive zeroConf (radiusClientTimer zeroConf (start oneRequest)
      fun _ => true) textRead = some e ∧ e.retransmissions = 1 ∧ e.authTimedOut = false ∧
      e.accessRejectReceived = false ∧ e.accessAcceptReceived = true ∧
      e.acceptNoNecessaryAvp = false := by
    simp only [radiusClientReceive, hreceived]
    rw [storeAttributes_of_ne h (show ∀ x ∈ textAccept.attrs, _ by decide), Option.bind_some]
    have hmsgs : (radiusClientTimer zeroConf (start oneRequest) fun _ => true).msgs =
        [{ zeroRequest with attempts := 2 }] := rfl
    rw [hmsgs, List.find?_cons_of_pos (answers_zeroRequest (identifierOf_carries h.toCarries) 2)]
    simp only [textRead]
    rw [hauth _ rfl rfl]
    exact ⟨_, rfl, rfl, rfl, rfl, rfl, rfl⟩
  obtain ⟨e, he, hretries, htimedOut, hreject, haccept, havps⟩ := hread
  refine ⟨e, ?_, hretries, (verdict_eq_zero_iff ..).mpr (by simp [htimedOut, hreject, haccept, havps])⟩
  rw [run, turn, if_neg (by decide)]
  exact (Option.bind_some ..).trans (congrArg (fun o => o.bind some) he)

theorem resent_and_accepted : ∃ e,
    run (turn zeroConf) (start oneRequest) [resentThenRead] = some e ∧
      verdict .ack ⟨none, none⟩ e = 0 ∧ .gaveUp ∉ history zeroConf oneRequest [resentThenRead] ∧
      AcceptedLast (history zeroConf oneRequest [resentThenRead]) := by
  obtain ⟨e, hrun, -, hgood⟩ := resentThenRead_accepted
  obtain ⟨-, hgaveUp, haccept, -⟩ := (verdict_iff hrun .ack ⟨none, none⟩).mp hgood
  exact ⟨e, hrun, hgood, hgaveUp, haccept⟩

end Results

end LdapTgen.SupplicantExchange
