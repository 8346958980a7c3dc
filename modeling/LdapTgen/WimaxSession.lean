import LdapTgen.AccessIdentifiers
import LdapTgen.SupplicantReceive

/-! The WiMAX session of a user over an access request, made by `tRadius_accessRq` or by the supplicant.
The server's behaviour and the calls of the libraries are given by their results. Copies that overflow
a local array have no result. -/
namespace LdapTgen.WimaxSession
open UserData AccessIdentifiers

inductive WaitFor
  | ack
  | reject
  deriving DecidableEq, Repr

inductive ReplyCode
  | ack
  | reject
  | other
  deriving DecidableEq, Repr

/-- The reply of the server. `terminateAction` says that it has the value RADIUS-Request, and `differs`
that `strcmp` finds the AAA-Session-ID different from the stored one. -/
structure Reply where
  code : ReplyCode
  classAttr : Option (List UInt8)
  terminateAction : Bool
  state : Option (List UInt8)
  aaaSessionId : Option (List UInt8)
  differs : Bool
  ppaq : Option (List UInt8)

/-- An access request of a scenario, with the results of `rad_alloc` and `rad_http_encode`, whether the
user has the result of a command, and what `send_packet` or `sendrecv_eap` gives. -/
structure Request where
  authType : AuthType
  waitFor : WaitFor
  creditSessionAction : ℤ
  relocation : Bool
  alloc : Bool
  cmdRes : Bool
  httpEncode : Bool
  rc : ℤ
  rep : Option Reply

/-- The types for which `tRadius_accessRq` has a case. -/
def supported : AuthType → Bool
  | .sipChap | .digest | .otp | .pap | .eapSim | .eapAka => true
  | _ => false

/-- `copyVSAAttrValue` into an array of `size` characters, followed by a text of `suffix` ones. -/
def hexFits (size suffix : ℕ) (bytes : List UInt8) : Bool := 2 + 2 * bytes.length + suffix < size

/-- Whether `putWimaxVSA` gives attributes. -/
def putWimaxVSA (u : User) (creditSessionAction : ℤ) : Option Bool :=
  if creditSessionAction = 2 ∨ creditSessionAction = 3 then
    if u.ppaq.bytes.length ≠ 0 then
      if hexFits 128 6 u.ppaq.bytes then some true else none
    else some false
  else some true

def putAuthType (r : Request) (u : User) : Option Bool :=
  match r.authType with
  | .sipChap | .otp | .pap => some true
  | .digest => some r.httpEncode
  | .eapSim | .eapAka => putWimaxVSA u r.creditSessionAction
  | .none | .proprietary | .gppAka | .eapTtls | .eapTls => some false

/-- Whether the packet can be built; otherwise `tRadius_accessRq` returns -1 at once. -/
def buildRequest (r : Request) (u : User) : Option Bool :=
  if r.alloc = false then some false
  else if u.aaaSessionId.bytes.length ≠ 0 ∧ hexFits 32 0 u.aaaSessionId.bytes = false then none
  else if u.aaaSessionId.bytes.length = 0 ∧ (r.relocation ∨ 2 ≤ r.creditSessionAction) then some false
  else if r.waitFor = .ack ∧ r.authType = .otp ∧ r.cmdRes = false then none
  else putAuthType r u

/-- The AAA-Session-ID of a reply; a different one is traced with the help of an array of 32. -/
def storeAAASessionId (rep : Reply) (u : User) : Option User :=
  match rep.aaaSessionId with
  | none => some { u with aaaSessionId := .empty }
  | some v =>
      if u.aaaSessionId.bytes.length ≠ 0 ∧ rep.differs ∧ 32 < v.length then none
      else some { u with aaaSessionId := .ofBytes v }

def storeReply (r : Request) (rep : Reply) (u : User) : Option (User × ℤ) := do
  let prepaid : Bool := r.creditSessionAction = 1 ∨ r.creditSessionAction = 2
  let rc : ℤ := if rep.classAttr = none ∧ r.creditSessionAction = 0 then 1 else 0
  let u := u.setClassAttrib r.relocation (.ofBytes (rep.classAttr.getD []))
  let u := u.setStateAttrib r.relocation
    (.ofBytes (if rep.terminateAction then rep.state.getD [] else []))
  let u ← storeAAASessionId rep u
  let rc := if rep.aaaSessionId = none ∧ prepaid then 1 else rc
  if prepaid then
    some ({ u with ppaq := .ofBytes (rep.ppaq.getD []) }, if rep.ppaq = none then 1 else rc)
  else some (u, rc)

def treatReply (r : Request) (u : User) : Option (User × ℤ) :=
  match r.rep with
  | none => some (u.clearSession, r.rc)
  | some rep =>
      let u := if r.rc ≠ 0 ∨ rep.code = .reject then u.clearSession else u
      if r.rc ≠ 0 then some (u, r.rc)
      else match r.waitFor, rep.code with
        | .ack, .ack => storeReply r rep u
        | .reject, .reject => some (u, 0)
        | _, _ => some (u, 1)

def accessRq (r : Request) (u : User) : Option (User × ℤ) := do
  if ← buildRequest r u then
    let (u, rc) ← treatReply r u
    some (if r.creditSessionAction = 3 then u.clearSession else u, rc)
  else some (u, -1)

/-- The packet is built: there is a session id, short enough for the array that it is copied to, and
what the authentication type needs is there. -/
def Built (r : Request) (u : User) : Prop :=
  r.alloc ∧ u.aaaSessionId.bytes.length ≠ 0 ∧ u.aaaSessionId.bytes.length ≤ 14 ∧
    (r.authType = .otp → r.waitFor = .ack → r.cmdRes) ∧ (r.authType = .digest → r.httpEncode) ∧
    (r.authType = .eapSim ∨ r.authType = .eapAka →
      u.ppaq.bytes.length ≠ 0 ∧ u.ppaq.bytes.length ≤ 59)

/-- The session id of an awaited success is not longer than the array that it is traced from, or it is
not traced. -/
def Readable (r : Request) : Prop :=
  ∀ rep, r.rep = some rep → r.rc = 0 → r.waitFor = .ack → rep.code = .ack → rep.differs →
    ∀ v, rep.aaaSessionId = some v → v.length ≤ 32

section Termination
variable {r : Request} {u : User}

lemma buildRequest_of_empty (h3 : r.creditSessionAction = 3)
    (hz : u.aaaSessionId.bytes.length = 0) : buildRequest r u = some false := by
  cases halloc : r.alloc <;> simp [buildRequest, halloc, hz, h3]

lemma putAuthType_true_iff (h3 : r.creditSessionAction = 3) (hs : supported r.authType) :
    putAuthType r u = some true ↔ (r.authType = .digest → r.httpEncode) ∧
      (r.authType = .eapSim ∨ r.authType = .eapAka →
        u.ppaq.bytes.length ≠ 0 ∧ u.ppaq.bytes.length ≤ 59) := by
  have hvsa : putWimaxVSA u 3 = some true ↔
      u.ppaq.bytes.length ≠ 0 ∧ u.ppaq.bytes.length ≤ 59 := by
    by_cases hz : u.ppaq.bytes.length = 0
    · simp [putWimaxVSA, hz]
    · simp only [putWimaxVSA, hexFits]
      simp [hz]
      omega
  cases htype : r.authType <;> simp [htype, supported] at hs <;>
    simp [putAuthType, htype, h3, hvsa]

lemma buildRequest_true_iff (h3 : r.creditSessionAction = 3) (hs : supported r.authType) :
    buildRequest r u = some true ↔ Built r u := by
  by_cases hz : u.aaaSessionId.bytes.length = 0
  · rw [buildRequest_of_empty h3 hz]
    simp [Built, hz]
  have hfits : hexFits 32 0 u.aaaSessionId.bytes = true ↔ u.aaaSessionId.bytes.length ≤ 14 := by
    simp only [hexFits, decide_eq_true_eq]
    omega
  cases halloc : r.alloc with
  | false => simp [buildRequest, halloc, Built]
  | true =>
    by_cases hlong : u.aaaSessionId.bytes.length ≤ 14
    · have hbuild : buildRequest r u = if r.waitFor = .ack ∧ r.authType = .otp ∧ r.cmdRes = false
          then none else putAuthType r u := by
        simp only [buildRequest, halloc, hfits.mpr hlong, hz]
        simp
      rw [hbuild]
      split
      next hotp => simp [Built, hotp.1, hotp.2.1, hotp.2.2]
      next hotp =>
        have hcmd : r.authType = .otp → r.waitFor = .ack → r.cmdRes = true := by
          intro htype hwait
          by_contra hres
          exact hotp ⟨hwait, htype, by simpa using hres⟩
        rw [putAuthType_true_iff h3 hs]
        exact ⟨fun h => ⟨halloc, hz, hlong, hcmd, h⟩, fun h => h.2.2.2.2⟩
    · have hno : hexFits 32 0 u.aaaSessionId.bytes = false := by
        rw [Bool.eq_false_iff]
        exact mt hfits.mp hlong
      simp [buildRequest, halloc, hz, hno, Built, hlong]

lemma storeAAASessionId_isSome_iff {rep : Reply} (hz : u.aaaSessionId.bytes.length ≠ 0) :
    (storeAAASessionId rep u).isSome ↔
      (rep.differs → ∀ v, rep.aaaSessionId = some v → v.length ≤ 32) := by
  cases hid : rep.aaaSessionId with
  | none => simp [storeAAASessionId, hid]
  | some v =>
    by_cases hbad : rep.differs ∧ 32 < v.length
    · rw [storeAAASessionId, hid]
      simp only [if_pos (And.intro hz hbad), Option.isSome_none, Bool.false_eq_true, false_iff]
      exact fun h => absurd (h hbad.1 v rfl) (by omega)
    · rw [storeAAASessionId, hid]
      simp only [if_neg (fun h => hbad (And.right h)), Option.isSome_some, true_iff]
      rintro hd w ⟨rfl⟩
      by_contra hlong
      exact hbad ⟨hd, by omega⟩

lemma storeReply_isSome_iff {rep : Reply} (h3 : r.creditSessionAction = 3)
    (hz : u.aaaSessionId.bytes.length ≠ 0) : (storeReply r rep u).isSome ↔
      (rep.differs → ∀ v, rep.aaaSessionId = some v → v.length ≤ 32) := by
  rw [← storeAAASessionId_isSome_iff (u := (u.setClassAttrib r.relocation
    (.ofBytes (rep.classAttr.getD []))).setStateAttrib r.relocation
    (.ofBytes (if rep.terminateAction then rep.state.getD [] else []))) hz]
  simp only [storeReply, h3, Option.bind_eq_bind]
  cases storeAAASessionId rep _ <;> simp

lemma treatReply_isSome_iff (h3 : r.creditSessionAction = 3)
    (hz : u.aaaSessionId.bytes.length ≠ 0) : (treatReply r u).isSome ↔ Readable r := by
  cases hrep : r.rep with
  | none => simp [treatReply, hrep, Readable]
  | some rep =>
    by_cases hrc : r.rc = 0
    · cases hwait : r.waitFor with
      | ack =>
        cases hcode : rep.code with
        | ack => simp [treatReply, hrep, hrc, hwait, hcode, Readable, storeReply_isSome_iff h3 hz]
        | reject => simp [treatReply, hrep, hrc, hwait, hcode, Readable]
        | other => simp [treatReply, hrep, hrc, hwait, hcode, Readable]
      | reject => cases hcode : rep.code <;> simp [treatReply, hrep, hrc, hwait, hcode, Readable]
    · simp [treatReply, hrep, hrc, Readable]

lemma accessRq_cleared_iff (h3 : r.creditSessionAction = 3) (hs : supported r.authType) :
    (∃ u' rc, accessRq r u = some (u', rc) ∧ u'.Cleared) ↔
      (Built r u ∧ Readable r) ∨ u.Cleared := by
  have hreturn : buildRequest r u = some false → accessRq r u = some (u, -1) := by
    intro h
    simp [accessRq, h]
  by_cases hz : u.aaaSessionId.bytes.length = 0
  · -- the session id is missing: the call returns at once
    rw [hreturn (buildRequest_of_empty h3 hz)]
    simp [Built, hz]
  have hnot : ¬ u.Cleared := fun h => hz h.1
  by_cases hb : Built r u
  · have hsent : accessRq r u = (treatReply r u).map fun p => (p.1.clearSession, p.2) := by
      simp only [accessRq, (buildRequest_true_iff h3 hs).mpr hb, h3, Option.bind_eq_bind,
        Option.bind_some, if_true, Option.map_eq_bind]
      rfl
    rw [hsent, or_iff_left hnot, and_iff_right hb, ← treatReply_isSome_iff h3 hz]
    cases htreat : treatReply r u with
    | none => simp
    | some p => exact iff_of_true ⟨_, _, rfl, p.1.clearSession_cleared⟩ rfl
  · have hfail := mt (buildRequest_true_iff h3 hs).mp hb
    rw [iff_false_intro hnot, or_false, iff_false_intro hb, false_and, iff_false]
    rintro ⟨u', rc, haccess, hclear⟩
    cases hbuild : buildRequest r u with
    | none => simp [accessRq, hbuild] at haccess
    | some sent =>
      cases sent with
      | true => exact hfail hbuild
      | false =>
        rw [hreturn hbuild, Option.some.injEq, Prod.mk.injEq] at haccess
        exact hnot (haccess.1 ▸ hclear)

end Termination

section Supplicant
open SupplicantReceive RadiusClient
variable {verify : Msg → Entry → Bool} {msgType : RadiusType} {m : Msg} {s t : Supplicant}

lemma receive_session (h3 : s.creditSessionAction = 3)
    (h : SupplicantReceive.radiusClientReceive verify msgType (some m) s = some t) :
    t.user.aaaSessionId = s.user.aaaSessionId ∧ t.user.ppaq = s.user.ppaq := by
  obtain ⟨u, hu, hdispatch⟩ := Option.bind_eq_some_iff.mp h
  have hframe := storeAttributes_frame hu
  have hauth : ∀ verified, (receiveAuth 3 verified m u).map Prod.fst = some u := by
    intro verified
    simp only [receiveAuth]
    split_ifs <;> first | rfl | omega
  have huser : t.user = u := by
    simp only [dispatch] at hdispatch
    split at hdispatch
    · rw [← Option.some.inj hdispatch]
    · obtain ⟨client, -, hclient⟩ := Option.bind_eq_some_iff.mp hdispatch
      obtain ⟨user, huser, ht⟩ := Option.bind_eq_some_iff.mp hclient
      have hsame : (if msgType = .auth then some u else some u) = some user := by
        rw [← huser, ← hauth, ← h3]
        rfl
      rw [← Option.some.inj ht]
      simpa using hsame.symm
  rw [huser]
  exact hframe

end Supplicant

/-- A Termination ends the WiMAX session in `tRadius_accessRq` exactly if the packet is built and its
reply can be read, or there was no session. In the supplicant an Access-Accept leaves the session as it
was. -/
theorem termination_clears_iff (r : Request) (u : User) (h3 : r.creditSessionAction = 3)
    (hs : supported r.authType) :
    ((∃ u' rc, accessRq r u = some (u', rc) ∧ u'.Cleared) ↔ (Built r u ∧ Readable r) ∨ u.Cleared) ∧
    ∀ verify msgType m (s t : SupplicantReceive.Supplicant), m.code = .accessAccept →
      s.creditSessionAction = 3 →
      SupplicantReceive.radiusClientReceive verify msgType (some m) s = some t →
      (t.user.Cleared ↔ s.user.Cleared) := by
  refine ⟨accessRq_cleared_iff h3 hs, fun verify msgType m s t _ h3 h => ?_⟩
  obtain ⟨haaa, hppaq⟩ := receive_session h3 h
  rw [User.Cleared, haaa, hppaq, User.Cleared]

def termination (authType : AuthType) : Request :=
  ⟨authType, .ack, 3, false, true, false, false, 0, some ⟨.ack, none, false, none, none, false, none⟩⟩

def withSessionId : User := ⟨fun _ => .empty, fun _ => .empty, .ofBytes [1], .empty⟩

theorem pap_termination_clears :
    ∃ u' rc, accessRq (termination .pap) withSessionId = some (u', rc) ∧ u'.Cleared := by
  refine (termination_clears_iff (termination .pap) withSessionId rfl rfl).1.mpr (Or.inl ⟨?_, ?_⟩)
  · simp [Built, termination, withSessionId, Field.ofBytes]
  · rintro rep ⟨rfl⟩ - - - hd
    cases hd

/-- Without PPAQ a Termination with EAP-SIM returns before anything is sent, and the session id stays.
In the supplicant it stays behind an Access-Accept too. -/
theorem session_survives_termination :
    accessRq (termination .eapSim) withSessionId = some (withSessionId, -1) ∧
      ¬ withSessionId.Cleared ∧
      ∃ c t, RadiusClient.radiusClientListAdd ⟨5, 3, [[]], []⟩ ⟨none, 0, .auth⟩ true 100 100 100000000
          (RadiusClient.Client.init []) = some c ∧
        SupplicantReceive.radiusClientReceive (fun _ _ => true) .auth
          (some (SupplicantReceive.withClass .accessAccept)) ⟨c, withSessionId, some 3⟩ = some t ∧
        RadiusClient.pending t.client = [] ∧ ¬ t.user.Cleared :=
  ⟨rfl, fun h => absurd h.1 (by decide), _, _, rfl, rfl, rfl, fun h => absurd h.1 (by decide)⟩

end LdapTgen.WimaxSession
