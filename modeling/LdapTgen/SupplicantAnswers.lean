import LdapTgen.SupplicantExchange

/-! Which answers have an effect on an authentication, and how the EAP packets get through. -/
namespace LdapTgen.SupplicantAnswers
open ByteOrder LabelledRun RadiusAttributes RadiusAuthenticators RadiusMessage SupplicantExchange
  SupplicantRequest SupplicantRounds Tlv

section Forged
variable {c : Conf}

lemma received_eq_some {frame : Bytes} {m : RadiusMsg} (h : received c frame = some m) :
    ∃ (p : Packet) (rest : Bytes), frame = p.wire p.size ++ rest ∧ m.Holds p p.size := by
  unfold received at h
  split_ifs at h
  obtain ⟨p, rest, -, hframe, hm⟩ := (parse_exact c.gives frame).1 m h
  exact ⟨p, rest, hframe, hm⟩

lemma received_wire {p : Packet} {r : Bytes} (hshort : (p.wire p.size ++ r).length < recvBufLen) :
    ∃ m, received c (p.wire p.size ++ r) = some m ∧ m.Holds p p.size := by
  have hlen : (p.wire p.size ++ r).length = p.size + r.length := by
    rw [List.length_append, Packet.length_wire]
  rw [received, if_neg (Nat.not_le.mpr hshort)]
  rw [hlen, recvBufLen] at hshort
  exact parse_wire c.gives p r (by omega)

/-- An answer to a request that the server did not send, or that was changed on the way. -/
structure Forged (c : Conf) (p : Packet) (req : Request) : Prop where
  mac : MacsFit p
  authentic : ¬ Authentic c.digest c.secret req.packet.authenticator req.packet.authenticator_length p
  exempt : ¬ Exempt p

/-- In this turn comes an answer with the code to a request of the list, and it is not forged. -/
def Answers (c : Conf) (code : UInt8) (e : EapolTestData) (t : Turn) : Prop :=
  ∃ (e₁ : EapolTestData) (r : Read) (p : Packet) (rest : Bytes) (req : Request),
    afterTimer c e t = some e₁ ∧ t.read = some r ∧ r.frame = p.wire p.size ++ rest ∧ p.code = code ∧
    req ∈ e₁.msgs ∧ req.packet.identifier = p.identifier ∧ ¬ Forged c p req

lemma not_forged_of_taken {m : RadiusMsg} {p : Packet} {req : Request} {credit : ℤ} (hcredit : credit < 2)
    (h : m.Holds p p.size) (htaken : taken c credit m req.msg = some true) : ¬ Forged c p req := by
  intro hforged
  obtain ⟨ok, hok, hiff⟩ := taken_iff c credit hforged.mac h req.carries
  obtain rfl : ok = true := Option.some.inj (hok.symm.trans htaken)
  rcases hiff.mp rfl with hex | hle | hauth
  · exact hforged.exempt hex
  · omega
  · exact hforged.authentic hauth

lemma answers_of_read {credit : ℤ} (hcredit : credit < 2) {e : EapolTestData} {t : Turn} {x : Happening}
    {code : UInt8} (hx : ∀ m, x ∈ codeHappenings credit m → codeOf m = code)
    (hcalled : x ≠ .called) (hfailure : x ≠ .failure) {e₁ : EapolTestData}
    (htimer : afterTimer c e t = some e₁) (hkept : e₁.creditSessionAction = credit)
    {r : Read} (hr : t.read = some r) (hmem : x ∈ r.happenings c e₁) : Answers c code e t := by
  unfold Read.happenings at hmem
  cases hmsg : received c r.frame with
  | none => simp [hmsg] at hmem
  | some m =>
    simp only [hmsg] at hmem
    cases hfind : e₁.msgs.find? (answers m) with
    | none => simp [hfind] at hmem
    | some req =>
      simp only [hfind, authHappenings, hkept] at hmem
      split_ifs at hmem with htaken
      · obtain ⟨p, rest, hframe, hm⟩ := received_eq_some hmsg
        have hid : identifierOf req.msg = identifierOf m := by simpa [answers] using List.find?_some hfind
        rw [identifierOf_carries req.carries, identifierOf_carries hm.toCarries] at hid
        have hcode : codeOf m = code := by
          rcases List.mem_append.mp hmem with hmem | hmem
          · exact hx m hmem
          · rcases eq_of_mem_eapHappenings hmem with h | h
            · exact absurd h hfailure
            · exact absurd h hcalled
        rw [codeOf_carries hm.toCarries] at hcode
        exact ⟨e₁, r, p, rest, req, htimer, hr, hframe, hcode, List.mem_of_find?_eq_some hfind, hid,
          not_forged_of_taken hcredit hm htaken.1⟩
      · cases hmem

lemma answers_of_turn {numReauths credit : ℤ} (hcredit : credit < 2) {e : EapolTestData}
    {hs : List Happening} (he : Reflects numReauths credit e hs hs) {t : Turn} {x : Happening}
    {code : UInt8} (hx : ∀ m, x ∈ codeHappenings credit m → codeOf m = code)
    (hkind : x = .rejected ∨ ∃ necessary, x = .accepted necessary) (hmem : x ∈ t.happenings c e) :
    Answers c code e t := by
  have htimerless : ∀ y : Timer, x ∉ y.happenings c e := by
    intro y hy
    have hnot : ¬ Answered (-1) (y.happenings c e) := by
      have hiff := answered_timer (-1) [] c e y
      rw [List.nil_append] at hiff
      rw [hiff]
      simp [Answered]
    rcases hkind with rfl | ⟨necessary, rfl⟩
    · exact hnot (.inl hy)
    · exact hnot (.inr ⟨by decide, necessary, hy⟩)
  rcases List.mem_append.mp hmem with hmem | hmem
  · cases hy : t.timer with
    | none => simp [hy] at hmem
    | some y =>
      rw [hy] at hmem
      exact absurd hmem (htimerless y)
  · cases hafter : afterTimer c e t with
    | none => simp [hafter] at hmem
    | some e₁ =>
      rw [hafter] at hmem
      have hkept : e₁.creditSessionAction = credit := by
        unfold afterTimer at hafter
        cases hy : t.timer with
        | none =>
          rw [hy] at hafter
          exact Option.some.inj hafter ▸ he.credit
        | some y =>
          rw [hy] at hafter
          exact (he.timer hafter).credit
      cases hr : t.read with
      | none => simp [hr] at hmem
      | some r =>
        rw [hr] at hmem
        refine answers_of_read hcredit hx ?_ ?_ hafter hkept hr hmem
        · rcases hkind with rfl | ⟨necessary, rfl⟩ <;> simp
        · rcases hkind with rfl | ⟨necessary, rfl⟩ <;> simp

lemma code_of_accepted {credit : ℤ} {necessary : Bool} {m : RadiusMsg}
    (h : .accepted necessary ∈ codeHappenings credit m) : codeOf m = accessAccept := by
  unfold codeHappenings at h
  split_ifs at h with haccept
  · exact haccept
  · simp at h
  · cases h

lemma code_of_rejected {credit : ℤ} {m : RadiusMsg} (h : .rejected ∈ codeHappenings credit m) :
    codeOf m = accessReject := by
  unfold codeHappenings at h
  split_ifs at h with haccept hreject
  · simp at h
  · exact hreject
  · cases h

lemma acceptedLast_append {hs xs : List Happening} (h : AcceptedLast (hs ++ xs)) :
    (∃ necessary, .accepted necessary ∈ xs) ∨ (AcceptedLast hs ∧ .reauthenticated ∉ xs) := by
  induction xs using List.reverseRecOn with
  | nil => exact .inr ⟨by simpa using h, by simp⟩
  | append_singleton xs x ih =>
    rw [← List.append_assoc, acceptedLast_concat] at h
    rcases h with ⟨necessary, rfl⟩ | ⟨hlast, hne⟩
    · exact .inl ⟨necessary, by simp⟩
    · rcases ih hlast with ⟨necessary, hmem⟩ | ⟨hlast, hnot⟩
      · exact .inl ⟨necessary, List.mem_append_left _ hmem⟩
      · refine .inr ⟨hlast, ?_⟩
        rw [List.mem_append, List.mem_singleton, not_or]
        exact ⟨hnot, fun heq => hne heq.symm⟩

def Turn.Keeps (t : Turn) : Prop := ∀ acts, t.timer ≠ some (.reauth acts)

lemma keeps_of_notMem {e : EapolTestData} {t : Turn} (h : .reauthenticated ∉ t.happenings c e) :
    Turn.Keeps t := by
  intro acts ht
  refine h (List.mem_append_left _ ?_)
  rw [ht]
  exact List.mem_cons_self

section Runs
variable {s : Setup} {ts : List Turn} {e : EapolTestData}

lemma exists_accept (hcredit : s.creditSessionAction < 2) (hrun : run (turn c) (start s) ts = some e)
    (haccept : e.accessAcceptReceived = true) :
    ∃ before t after e₁, ts = before ++ t :: after ∧ run (turn c) (start s) before = some e₁ ∧
      Answers c accessAccept e₁ t ∧ ∀ u ∈ after, Turn.Keeps u := by
  have hstart : ¬ (start s).accessAcceptReceived = true := by
    rw [(start_reflects s).accepted]
    rintro ⟨before, necessary, after, heq, -⟩
    have hmem : .accepted necessary ∈ SupplicantExchange.calls s.acts := by simp [heq]
    cases eq_of_mem_calls hmem
  refine exists_cause (P := fun e => e.accessAcceptReceived = true) hstart ?_ hrun haccept
  intro before e₁ t e₂ hbefore hturn hflag
  have hreflects := run_reflects hbefore
  rw [(hreflects.turn hturn).accepted] at hflag
  rcases acceptedLast_append hflag with ⟨necessary, hmem⟩ | ⟨hlast, hnot⟩
  · exact .inl (answers_of_turn hcredit hreflects (fun m => code_of_accepted) (.inr ⟨_, rfl⟩) hmem)
  · exact .inr ⟨hreflects.accepted.mpr hlast, keeps_of_notMem hnot⟩

lemma exists_reject (hcredit : s.creditSessionAction < 2) (hrun : run (turn c) (start s) ts = some e)
    (hreject : e.accessRejectReceived = true) :
    ∃ before t after e₁, ts = before ++ t :: after ∧ run (turn c) (start s) before = some e₁ ∧
      Answers c accessReject e₁ t := by
  have hstart : ¬ (start s).accessRejectReceived = true := by
    rw [(start_reflects s).rejected]
    intro hmem
    cases eq_of_mem_calls hmem
  obtain ⟨before, t, after, e₁, hts, hbefore, hanswers, -⟩ := exists_cause
    (P := fun e => e.accessRejectReceived = true) (R := fun _ => True) hstart
    (fun before e₁ t e₂ hbefore hturn hflag => by
      have hreflects := run_reflects hbefore
      rw [(hreflects.turn hturn).rejected] at hflag
      rcases List.mem_append.mp hflag with hmem | hmem
      · exact .inr ⟨hreflects.rejected.mpr hmem, trivial⟩
      · exact .inl (answers_of_turn hcredit hreflects (fun m => code_of_rejected) (.inl rfl) hmem))
    hrun hreject
  exact ⟨before, t, after, e₁, hts, hbefore, hanswers⟩

end Runs

end Forged

section Delivery
variable (c : Conf) {a srv b : Alloc} {m r r₁ sent : RadiusMsg} {p q : Packet} {len n : ℕ}

lemma act_eap (e : EapolTestData) (x : Act) :
    (act e x).frames = e.frames ∧ (act e x).lastEapRadius = e.lastEapRadius := by
  cases x with
  | call k =>
    obtain ⟨mismatch, hcompare⟩ := comparePmk_eq k.keys { e with numReauths := e.numReauths - 1 }
    simp only [act, eapolSmCb, hcompare]
    split_ifs <;> exact ⟨rfl, rfl⟩
  | getId id => exact ⟨rfl, rfl⟩
  | send req =>
    simp only [act, radiusClientListAdd]
    split_ifs <;> exact ⟨rfl, rfl⟩

lemma foldl_act_eap (acts : List Act) (e : EapolTestData) :
    (acts.foldl act e).frames = e.frames ∧ (acts.foldl act e).lastEapRadius = e.lastEapRadius := by
  induction acts generalizing e with
  | nil => exact ⟨rfl, rfl⟩
  | cons x acts ih =>
    rw [List.foldl_cons, (ih _).1, (ih _).2]
    exact act_eap e x

lemma decapsulate_eap {eap : Bytes} (heap : radiusMsgGetEap m = some eap) (hlen : 4 ≤ eap.length)
    (e : EapolTestData) (acts : List Act) :
    (ieee8021xDecapsulateRadius e m acts).frames = e.frames ++ [eapolFrame eap] ∧
      (ieee8021xDecapsulateRadius e m acts).lastEapRadius = some eap := by
  simp only [ieee8021xDecapsulateRadius, heap, if_neg (Nat.not_lt.mpr hlen), eapolSmRxEapol]
  have hacts := foldl_act_eap acts
  constructor
  · rw [(hacts _).1]
    split_ifs <;> rfl
  · rw [(hacts _).2]

lemma noteCode_frames (e : EapolTestData) (m sent : RadiusMsg) : (noteCode c e m sent).frames = e.frames := by
  unfold noteCode
  split_ifs <;> rfl

lemma checkWimaxVsa_frames (hnone : radiusMsgGetWimaxVsa m vendorIdWimax wimaxAaaSessionId = none)
    (e : EapolTestData) (differs : Bool) :
    ∃ e', checkWimaxVsa e m differs = some e' ∧ e'.frames = e.frames := by
  cases hcheck : checkWimaxVsa e m differs with
  | some e' =>
    refine ⟨e', rfl, ?_⟩
    rw [checkWimaxVsa_eq hcheck]
  | none =>
    unfold checkWimaxVsa at hcheck
    split_ifs at hcheck
    rw [Option.map_eq_none_iff, SupplicantReceive.getWimaxVsa_eq_none_iff] at hcheck
    obtain ⟨-, -, v, hv, -⟩ := hcheck
    have hv' : radiusMsgGetWimaxVsa m vendorIdWimax wimaxAaaSessionId = some v := hv
    rw [hnone] at hv'
    cases hv'

/-- What the server puts into a reply that carries nothing but an EAP packet. -/
structure EapReply (p : Packet) (eap : Bytes) : Prop where
  code : p.code = accessAccept ∨ p.code = accessReject ∨ p.code = accessChallenge
  types : ∀ x ∈ p.attrs, x.tag = eapMessage ∨ x.tag = messageAuthenticator
  macs : MacsFit p
  length : 4 ≤ eap.length
  content : eapOf (avps p.attrs) = eap

lemma receiveAuth_eap {eap : Bytes} (h : m.Holds p p.size) (hp : EapReply p eap)
    (hsent : sent.Carries q n)
    (hauth : Authentic c.digest c.secret q.authenticator q.authenticator_length p)
    (e : EapolTestData) (differs : Bool) (acts : List Act) :
    ∃ e', ieee8021xReceiveAuth c e m sent differs acts = some (e', .queued) ∧
      e'.frames = e.frames ++ [eapolFrame eap] ∧ e'.lastEapRadius = some eap := by
  obtain ⟨ok, htaken, hiff⟩ := taken_iff c e.creditSessionAction hp.macs h hsent
  rw [hiff.mpr (.inr (.inr hauth))] at htaken
  have hsession : radiusMsgGetWimaxVsa m vendorIdWimax wimaxAaaSessionId = none := by
    rw [radiusMsgGetWimaxVsa, radiusMsgGetVendorAttr, findSome_read h, findVendor_of_ne]
    intro v hv
    obtain ⟨x, hx, rfl⟩ := List.mem_map.mp hv
    dsimp only
    rcases hp.types x hx with htag | htag <;> rw [htag] <;> decide
  have hget : radiusMsgGetEap m = some eap := by
    have hlen := hp.length
    have hne : eap ≠ [] := List.ne_nil_of_length_pos (by omega)
    rw [getEap_eq h, hp.content, if_neg hne]
  obtain ⟨e₁, hcheck, hframes⟩ : ∃ e₁, (if codeOf m = accessAccept then checkWimaxVsa e m differs
      else some e) = some e₁ ∧ e₁.frames = e.frames := by
    split_ifs
    · exact checkWimaxVsa_frames hsession e differs
    · exact ⟨e, rfl, rfl⟩
  have hcode : ¬ (codeOf m ≠ accessAccept ∧ codeOf m ≠ accessReject ∧ codeOf m ≠ accessChallenge) := by
    have := hp.code
    rw [codeOf_carries h.toCarries]
    tauto
  have hdec := decapsulate_eap hget hp.length (noteCode c e₁ m sent) acts
  rw [noteCode_frames, hframes] at hdec
  simp only [ieee8021xReceiveAuth, htaken, Option.bind_some, Bool.not_true, Bool.false_eq_true, if_false,
    hcheck, Option.map_some, if_neg hcode]
  generalize ieee8021xDecapsulateRadius _ m acts = e₂ at hdec ⊢
  split_ifs
  · exact ⟨_, rfl, hdec⟩
  · exact ⟨_, rfl, hdec⟩

lemma eapReply_of_avps {reqAuth answer : Bytes} (hreq : reqAuth.length = 16)
    (hcode : p.code = accessAccept ∨ p.code = accessReject ∨ p.code = accessChallenge)
    (hanswer : 4 ≤ answer.length) (hes : avps p.attrs = eapAvps answer) :
    (∀ x ∈ p.attrs, x.tag ≠ messageAuthenticator) ∧
      EapReply (reply c.digest c.secret reqAuth hreq p) answer := by
  have htype : ∀ x ∈ p.attrs, x.tag = eapMessage := by
    intro x hx
    have hmem : (x.tag, x.body) ∈ eapAvps answer := by
      rw [← hes]
      exact List.mem_map.mpr ⟨x, hx, rfl⟩
    exact type_of_mem_eapAvps hmem
  have hnomac : ∀ x ∈ p.attrs, x.tag ≠ messageAuthenticator := by
    intro x hx
    rw [htype x hx]
    decide
  obtain ⟨mac, hattrs, htag, -⟩ := reply_attrs c.digest c.secret hreq p
  have hmac : eapOf (avps [mac]) = [] := by
    refine eapOf_of_ne fun v hv => ?_
    rw [List.mem_singleton.mp hv]
    dsimp only
    rw [htag]
    decide
  refine ⟨hnomac, hcode, fun x hx => ?_,
    reply_mac c.digest c.secret hreq fun x hx hxtag => absurd hxtag (hnomac x hx), hanswer, ?_⟩
  · rw [hattrs, List.mem_append, List.mem_singleton] at hx
    rcases hx with hx | rfl
    · exact .inl (htype x hx)
    · exact .inr htag
  · rw [hattrs, avps, List.map_append, ← avps, ← avps, eapOf_append, hmac, List.append_nil, hes]
    exact eapOf_eapAvps answer

lemma eap_delivered (hgives : srv.Gives) {code identifier : UInt8} {answer : Bytes}
    (hnew : radiusMsgNew srv code identifier = some r)
    (hcode : code = accessAccept ∨ code = accessReject ∨ code = accessChallenge)
    (hanswer : 4 ≤ answer.length) (hadd : radiusMsgAddEap srv false r answer = (r₁, true))
    (hsize : r₁.bufUsed + 18 < 2 ^ 16) (hsent : sent.Carries q n) :
    ∃ r₂, radiusMsgFinishSrv c.digest srv r₁ c.secret (authenticatorOf sent) = (r₂, 0) ∧
      ∀ (e : EapolTestData) (req : Request) (differs : Bool) (acts : List Act),
        e.msgs.find? (fun x => identifierOf x.msg = identifier) = some req → req.msg = sent →
        if recvBufLen ≤ r₁.bufUsed + 18 then
          radiusClientReceive c e ⟨usedBytes r₂, differs, acts⟩ = some e
        else ∃ e', radiusClientReceive c e ⟨usedBytes r₂, differs, acts⟩ = some e' ∧
          e'.frames = e.frames ++ [eapolFrame answer] ∧ e'.lastEapRadius = some answer := by
  have hadds : addAttrs srv r (eapAvps answer) = some r₁ := by
    rw [← checked_addEap, hadd]
    rfl
  obtain ⟨es, hes, h₁⟩ := addAttrs_carries (new_carries hnew) hadds
  set p₁ : Packet :=
    { emptyPacket code identifier with attrs := (emptyPacket code identifier).attrs ++ es } with hp₁
  have hreq := q.authenticator_length
  obtain ⟨r₂, hfinish, h₂⟩ := finishSrv_carries c.digest c.secret hgives h₁ hreq
  have hused := h₁.used
  have hreply := size_reply c.digest c.secret (p := p₁) hreq
  rw [if_neg (by omega), ← authenticatorOf_carries hsent] at hfinish
  refine ⟨r₂, hfinish, fun e req differs acts hfind hmsg => ?_⟩
  rw [usedBytes_of_carries h₂, hused, ← hreply]
  set p₂ := reply c.digest c.secret q.authenticator hreq p₁ with hp₂
  split_ifs with hfull
  · have hdropped : received c (p₂.wire p₂.size) = none := by
      rw [received, if_pos (by rwa [Packet.length_wire])]
    simp only [radiusClientReceive, hdropped]
  · obtain ⟨m, hm, h⟩ := received_wire (c := c) (p := p₂) (r := [])
      (by rwa [List.append_nil, Packet.length_wire, ← Nat.not_le])
    rw [List.append_nil] at hm
    obtain ⟨hnomac, hp⟩ := eapReply_of_avps c (p := p₁) hreq hcode hanswer hes
    have hfound : e.msgs.find? (answers m) = some req := by
      have hid : identifierOf m = identifier := identifierOf_carries h.toCarries
      rw [← hfind, ← hid]
      rfl
    have hstore : ∀ x ∈ p₂.attrs, x.tag ≠ classAttr ∧ x.tag ≠ stateAttr := by
      intro x hx
      rcases hp.types x hx with hx | hx <;> rw [hx] <;> decide
    obtain ⟨e', hauth, heap⟩ := receiveAuth_eap c h hp hsent
      (reply_authentic c.digest c.secret hreq hnomac)
      { e with msgs := e.msgs.eraseP (answers m), numMsgs := e.numMsgs - 1 } differs acts
    refine ⟨e', ?_, heap⟩
    simp only [radiusClientReceive, hm, storeAttributes_of_ne h hstore, Option.bind_some, hfound, hmsg]
    rw [hauth]
    rfl

/-- One round of the exchange. The server reads the EAP packet of the request and finishes its answer
with the authenticator that it has read. While the request is in the list, the packet of the answer reaches
the EAPOL machine, or the answer has 3000 octets or more, and the client drops it. -/
theorem eap_exchanged (hgives : a.Gives) (hsrv : srv.Gives) (hb : b.Gives) {identifier code : UInt8}
    {authenticator eap answer : Bytes} {e₀ e₁ : EapolTest} {conf : Ssid}
    (hauth : authenticator.length = 16)
    (henc : ieee8021xEncapsulateRadius a false identifier authenticator e₀ eap conf =
      some (e₁, some m)) (hsize : m.bufUsed + 18 < 2 ^ 16)
    (hservice : conf.servicetype ≠ some serviceTypeAuthorizeOnly) (heap : eap ≠ [])
    (hnew : radiusMsgNew srv code identifier = some r)
    (hcode : code = accessAccept ∨ code = accessReject ∨ code = accessChallenge)
    (hanswer : 4 ≤ answer.length) (hadd : radiusMsgAddEap srv false r answer = (r₁, true))
    (hsize' : r₁.bufUsed + 18 < 2 ^ 16) :
    ∃ m' r₂, radiusMsgParse b (sentBytes c.digest a m c.secret) = some m' ∧
      radiusMsgVerifyMsgAuth c.digest m' c.secret none = some (m', 0) ∧
      radiusMsgGetEap m' = some eap ∧
      radiusMsgFinishSrv c.digest srv r₁ c.secret (authenticatorOf m') = (r₂, 0) ∧
      ∀ (e : EapolTestData) (req : Request) (differs : Bool) (acts : List Act),
        e.msgs.find? (fun x => identifierOf x.msg = identifier) = some req →
        req.msg = (radiusMsgFinish c.digest a m (some c.secret)).1 →
        if 3000 ≤ r₁.bufUsed + 18 then
          radiusClientReceive c e ⟨usedBytes r₂, differs, acts⟩ = some e
        else ∃ e', radiusClientReceive c e ⟨usedBytes r₂, differs, acts⟩ = some e' ∧
          e'.frames = e.frames ++ [eapolFrame answer] ∧ e'.lastEapRadius = some answer := by
  obtain ⟨m', servicetype, hst, hparse, hverify, hget, -, q, hm', -, hsent⟩ :=
    request_read_back c.digest c.secret hgives hb hauth henc hsize
  have hsame : authenticatorOf m' = authenticatorOf (radiusMsgFinish c.digest a m (some c.secret)).1 := by
    rw [authenticatorOf_carries hm'.toCarries, authenticatorOf_carries hsent]
  obtain ⟨r₂, hfinish, hreceive⟩ := eap_delivered c hsrv hnew hcode hanswer hadd hsize' hsent
  have hread : radiusMsgGetEap m' = some eap := by
    rw [hget, if_neg]
    rintro (rfl | hnil)
    · exact hservice hst
    · exact heap hnil
  refine ⟨m', r₂, hparse, hverify, hread, ?_, hreceive⟩
  rw [hsame]
  exact hfinish

def framedSsid : Ssid := { ttlsSsid with servicetype := some serviceTypeFramed }

theorem short_eap_exchanged : ∃ m m' r₁ r₂ e e',
    ieee8021xEncapsulateRadius fixedAlloc false 7 (List.replicate 16 0) bareTest [2, 1, 0, 4] framedSsid =
        some (prepared bareTest 7 [2, 1, 0, 4] framedSsid, some m) ∧
      radiusMsgParse fixedAlloc (sentBytes zeroDigest fixedAlloc m []) = some m' ∧
      radiusMsgGetEap m' = some [2, 1, 0, 4] ∧
      radiusMsgAddEap fixedAlloc false (fixedMsg accessChallenge) [1, 2, 0, 4] = (r₁, true) ∧
      radiusMsgFinishSrv zeroDigest fixedAlloc r₁ [] (authenticatorOf m') = (r₂, 0) ∧
      radiusClientReceive zeroConf e ⟨usedBytes r₂, false, []⟩ = some e' ∧
      e'.frames = e.frames ++ [eapolFrame [1, 2, 0, 4]] := by
  obtain ⟨m, henc, hused⟩ := encapsulate_of_fit fixedAlloc_gives
    (show (List.replicate 16 (0 : UInt8)).length = 16 from List.length_replicate)
    (show framedSsid.servicetype = some serviceTypeFramed from rfl)
    (show ∀ v ∈ requestAvps (prepared bareTest 7 [2, 1, 0, 4] framedSsid) [2, 1, 0, 4] framedSsid
      serviceTypeFramed, v.2.length ≤ radiusMaxAttrLen by decide +kernel)
  have hsize : m.bufUsed + 18 < 2 ^ 16 := by
    rw [hused]
    decide +kernel
  obtain ⟨r₁, hr₁, hused₁⟩ := addAttrs_of_fit fixedAlloc_gives
    (new_carries (fixedMsg_new accessChallenge))
    (show ∀ v ∈ eapAvps [1, 2, 0, 4], v.2.length ≤ radiusMaxAttrLen by decide +kernel)
  have hlen : r₁.bufUsed + 18 < 3000 := by
    rw [hused₁]
    decide +kernel
  have hadd : radiusMsgAddEap fixedAlloc false (fixedMsg accessChallenge) [1, 2, 0, 4] = (r₁, true) := by
    rw [← checked_addEap, checked] at hr₁
    split_ifs at hr₁ with htrue
    exact Prod.ext (Option.some.inj hr₁) htrue
  obtain ⟨m', r₂, hparse, -, hget, hfinish, hreceive⟩ := eap_exchanged zeroConf fixedAlloc_gives
    fixedAlloc_gives fixedAlloc_gives List.length_replicate henc hsize (by decide) (by decide)
    (fixedMsg_new accessChallenge) (.inr (.inr rfl)) (by decide) hadd (by omega)
  obtain ⟨-, -, -, -, -, -, -, q, -, hid, hsent⟩ := request_read_back zeroDigest [] fixedAlloc_gives
    fixedAlloc_gives List.length_replicate henc hsize
  have hfind : ({ start oneRequest with msgs := [⟨_, q, 1, hsent⟩] } : EapolTestData).msgs.find?
      (fun x => identifierOf x.msg = 7) = some ⟨_, q, 1, hsent⟩ :=
    List.find?_cons_of_pos (by simp [identifierOf_carries hsent, hid])
  have hanswered := hreceive _ _ false [] hfind rfl
  rw [if_neg (by omega)] at hanswered
  obtain ⟨e', he', hframes, -⟩ := hanswered
  exact ⟨m, m', r₁, r₂, _, e', henc, hparse, hget, hadd, hfinish, he', hframes⟩

end Delivery

end LdapTgen.SupplicantAnswers
