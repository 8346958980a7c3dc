import LdapTgen.FastReauth

/-! The responses of subtype challenge. The MAC is checked before EAP-SIM or EAP-AKA answers a challenge,
and the AUTN of EAP-AKA is compared, but no handler misses AT_RAND, a message that is passed over leaves the
response before it, and a packet without a subtype is encoded as an EAP-AKA challenge. -/
namespace LdapTgen.ChallengeResponse
open EapClient FastReauth

def IsChallenge (t : Subtype) : Prop := t = .challenge ∨ t = .akaChallenge

/-- The request was checked by `process_eap_challenge`, with the keys that it leaves, and has what a
challenge must have. -/
structure SimVerified (lib : Libeap) (req : Request) (r : Client × Option (Handler × Bool)) : Prop where
  called : r.2 = some (.challenge, true)
  rand : req.rand ≠ none
  mac : req.mac ≠ none
  check : lib.eapsimCheckmac req r.1.keys.kAut r.1.keys.nonceMt = true

def AutnMatches (req : Request) (x : Client) : Prop :=
  ∃ autnvp autn, req.autn = some autnvp ∧ x.rep.akaAutn = some autn ∧
    autn.bytes 0 16 = autnvp.bytes 2 16

structure AkaVerified (lib : Libeap) (req : Request) (x : Client) (r : Client × Option (Handler × Bool)) :
    Prop where
  called : r.2 = some (.akaChallenge, true)
  rand : req.rand ≠ none
  mac : req.mac ≠ none
  autn : AutnMatches req x
  check : lib.eapsimCheckmac req r.1.keys.kAut [] = true

/-- The response `r` is a challenge only for a message that was verified. -/
def OnlyVerified (verified : Prop) (r : Client × Option (Handler × Bool)) : Prop :=
  ∀ t, r.1.rep.message = some t → IsChallenge t → verified

/-- The message is passed over, and the packet has the response to a challenge before it. -/
def LeftChallenge (req : Request) (x : Client) : Prop :=
  (req.eapId = none ∨ req.subtype = none) ∧ ∃ t, x.rep.message = some t ∧ IsChallenge t

/-- An EAP-SIM challenge without AT_RAND, with a MAC that is right for the keys of the card. -/
structure SimBlind (lib : Libeap) (flags : Flags) (req : Request) (x : Client) : Prop where
  asks : req.AsksChallenge
  state : x.rep.simState = some .start
  echallenge : flags.echallenge = false
  keys : ∃ k, challengeKeys lib req x = some k ∧ lib.eapsimCheckmac req k.kAut k.nonceMt = true
  rand : req.rand = none

/-- A version list that `process_eap_start` takes, and no two requests for an identity. -/
def Request.StartOk (req : Request) : Prop :=
  ∃ versions, req.versionList = some versions ∧ 4 ≤ versions.length ∧
    versions.short 0 + 2 < versions.length ∧ req.idReqClash = false

/-- An EAP-SIM start that is refused, for the packet of an EAP-AKA user. -/
structure StartRefused (flags : Flags) (req : Request) (x : Client) : Prop where
  eapId : req.eapId ≠ none
  subtype : req.subtype = some .start
  estart : flags.estart = false
  refused : ¬ Request.StartOk req
  aka : x.rep.eapType = some pwEapAka

/-- The keys that `process_eap_aka_challenge` derives, unless it returns before. -/
def akaChallengeKeys (lib : Libeap) (req : Request) (reported : Bool) (x : Client) : Option Keys :=
  match req.mac, req.autn with
  | some _, some autnvp =>
      if req.halfEncrypted then none
      else
        match x.rep.akaAutn, x.rep.akaRes, x.rep.akaIk, x.rep.akaCk, x.rep.userName with
        | some autn, some res, some ik, some ck, some name =>
            if autn.bytes 0 16 ≠ autnvp.bytes 2 16 ∨ (x.rep.akaAuts.isSome ∧ reported = false) then none
            else
              let keys := { x.keys with
                identity := name
                autn := autn.bytes 0 16
                res := res.bytes 0 16
                ik := ik.bytes 0 16
                ck := ck.bytes 0 16 }
              let derived := lib.eapakaCalculateKeys keys
              some { keys with kAut := derived.1, kEncr := derived.2 }
        | _, _, _, _, _ => none
  | _, _ => none

/-- An EAP-AKA challenge without AT_RAND, with the AUTN of the card and a MAC that is right for its keys. -/
structure AkaBlind (lib : Libeap) (flags : Flags) (req : Request) (input : Input) (x : Client) : Prop where
  eapId : req.eapId ≠ none
  subtype : req.subtype = some .akaChallenge
  state : x.rep.simState ≠ some .init
  echallenge : flags.echallenge = false
  keys : ∃ k, akaChallengeKeys lib req input.reported x = some k ∧
    lib.eapsimCheckmac req k.kAut [] = true
  rand : req.rand = none

section Handlers
variable {lib : Libeap} {req : Request} {input : Input} {x : Client}

lemma start_subtype (req : Request) (nonce : Bytes) (x : Client) :
    ((processEapStart req nonce x).2.rep.subtype = none ∧ ¬ Request.StartOk req) ∨
      (processEapStart req nonce x).2.rep.subtype = some .start ∧ Request.StartOk req := by
  cases hv : req.versionList with
  | none => simp [processEapStart, hv, cleanresp, Request.StartOk]
  | some v =>
    simp only [processEapStart, hv]
    split_ifs with hshort hlong hclash
    · exact .inl ⟨rfl, by simp [Request.StartOk, hv, hshort]⟩
    · exact .inl ⟨rfl, by simp [Request.StartOk, hv, hlong]⟩
    · exact .inl ⟨rfl, by simp [Request.StartOk, hv, hclash]⟩
    · have hok : Request.StartOk req := ⟨v, hv, by omega, by omega, by simpa using hclash⟩
      right
      split <;> exact ⟨rfl, hok⟩

lemma akaIdentity_subtype (req : Request) (x : Client) :
    (processEapAkaIdentity req x).2.rep.subtype = some .clientError ∨
      (processEapAkaIdentity req x).2.rep.subtype = some .akaIdentity := by
  simp only [processEapAkaIdentity]
  split_ifs
  · exact .inl rfl
  · right
    split <;> rfl

lemma challenge_true (h : (processEapChallenge lib req x).1 = true) :
    (processEapChallenge lib req x).2.rep.subtype = some .challenge ∧ req.mac ≠ none ∧
      lib.eapsimCheckmac req (processEapChallenge lib req x).2.keys.kAut
        (processEapChallenge lib req x).2.keys.nonceMt = true ∧
      (processEapChallenge lib req x).2.frId =
        nextReauthId lib (processEapChallenge lib req x).2.keys.kEncr 0 req := by
  cases hk : challengeKeys lib req x with
  | none =>
    rw [(challenge_without_keys hk).1] at h
    cases h
  | some k =>
    have hmac : req.mac ≠ none := by
      intro hnone
      simp [challengeKeys, hnone] at hk
    rw [challenge_with_keys hk] at h ⊢
    split_ifs at h ⊢ with hcheck
    exact ⟨rfl, hmac, hcheck, rfl⟩

lemma akaChallenge_with_keys {reported : Bool} {k : Keys}
    (hk : akaChallengeKeys lib req reported x = some k) :
    processEapAkaChallenge lib req reported x =
      if lib.eapsimCheckmac req k.kAut [] then
        let y := ({ x with keys := k } : Client).respondAs .akaChallenge
        (true, { y with
          rep := { y.rep with akaAutn := none }
          frId := nextReauthId lib k.kEncr 0 req })
      else (false, { x with keys := k }) := by
  unfold akaChallengeKeys at hk
  split at hk
  · split_ifs at hk with hhalf
    split at hk
    · split_ifs at hk with hbad
      obtain ⟨hsame, hauts⟩ := not_or.mp hbad
      cases hk
      cases hau : x.rep.akaAuts with
      | none => simp_all [processEapAkaChallenge, Client.respondAs]
      | some auts =>
        have hrep : reported = true := by simpa [hau] using hauts
        simp_all [processEapAkaChallenge, Client.respondAs]
    · cases hk
  · cases hk

lemma akaChallenge_without_keys {reported : Bool} (hnone : akaChallengeKeys lib req reported x = none) :
    (processEapAkaChallenge lib req reported x).1 = false ∨
      (processEapAkaChallenge lib req reported x).2.rep.subtype = some .akaAuthenticationReject ∨
      (processEapAkaChallenge lib req reported x).2.rep.subtype = some .akaSynchronizationFailure := by
  unfold akaChallengeKeys at hnone
  unfold processEapAkaChallenge
  split at hnone
  · split_ifs at hnone with hhalf
    · simp [*]
    · split at hnone
      · split_ifs at hnone with hbad
        rcases hbad with hne | ⟨hauts, hrep⟩
        · simp [*, processEapAkaAuthenticationReject, Client.respondAs]
        · obtain ⟨auts, hau⟩ := Option.isSome_iff_exists.mp hauts
          by_cases hne : (x.rep.akaAutn.map fun a => a.bytes 0 16) = req.autn.map fun a => a.bytes 2 16
          · simp_all [processEapAkaSynchronizationFailure, Client.respondAs]
          · simp_all [processEapAkaAuthenticationReject, Client.respondAs]
      · simp_all [processEapAkaAuthenticationReject, Client.respondAs]
  · simp [*]

lemma akaKeys_matches {reported : Bool} {k : Keys} (hk : akaChallengeKeys lib req reported x = some k) :
    req.mac ≠ none ∧ AutnMatches req x := by
  unfold akaChallengeKeys at hk
  split at hk
  · next mac autnvp hmac hautnvp =>
    split_ifs at hk
    split at hk
    · next autn _ _ _ _ hautn _ _ _ _ =>
      split_ifs at hk with hbad
      exact ⟨by simp [hmac], autnvp, autn, hautnvp, hautn, not_not.mp (not_or.mp hbad).1⟩
    · cases hk
  · cases hk

lemma akaChallenge_true {reported : Bool} {r : Result}
    (hres : processEapAkaChallenge lib req reported x = r) (hr : r.1 = true) :
    r.2.rep.subtype = some .akaAuthenticationReject ∨
      r.2.rep.subtype = some .akaSynchronizationFailure ∨
      r.2.rep.subtype = some .akaChallenge ∧ (req.mac ≠ none ∧ AutnMatches req x) ∧
        (∃ k, akaChallengeKeys lib req reported x = some k ∧ r.2.keys = k ∧
          lib.eapsimCheckmac req k.kAut [] = true) ∧
        r.2.frId = nextReauthId lib r.2.keys.kEncr 0 req := by
  subst hres
  cases hk : akaChallengeKeys lib req reported x with
  | none =>
    rcases akaChallenge_without_keys hk with hfalse | hsub | hsub
    · rw [hfalse] at hr
      cases hr
    · exact .inl hsub
    · exact .inr (.inl hsub)
  | some k =>
    rw [akaChallenge_with_keys hk] at hr ⊢
    split_ifs at hr ⊢ with hcheck
    exact .inr (.inr ⟨rfl, akaKeys_matches hk, ⟨k, rfl, rfl, hcheck⟩, rfl⟩)

lemma reauth_true (h : (processEapReauth lib req x).1 = true) :
    (processEapReauth lib req x).2.rep.subtype = some .reauth ∧
      (processEapReauth lib req x).2.frId =
        nextReauthId lib (processEapReauth lib req x).2.keys.kEncr 24 req := by
  simp only [processEapReauth] at h ⊢
  split_ifs at h ⊢
  exact ⟨rfl, rfl⟩

lemma answer_reported {h : Handler} (hrep : h.reportsError)
    (hr : (h.process lib req input x).1 = false) :
    (h.answer lib req input x).2.rep.subtype = some .clientError := by
  simp [Handler.answer, hr, hrep, processEapClienterror, Client.respondAs]

lemma answer_eq_process {h : Handler}
    (hr : (h.process lib req input x).1 = true ∨ h.reportsError = false) :
    h.answer lib req input x = h.process lib req input x := by
  have hif : (!(h.process lib req input x).1 && h.reportsError) = false := by
    rcases hr with hr | hr <;> simp [hr]
  simp only [Handler.answer, hif, Bool.false_eq_true, if_false]

def challengeOf : Handler → Option Subtype
  | .challenge => some .challenge
  | .akaChallenge => some .akaChallenge
  | _ => none

/-- Only a start that is refused leaves the packet without a subtype, and only a challenge that is answered
with that of one. -/
lemma answer_subtype (lib : Libeap) (req : Request) (input : Input) (x : Client) (h : Handler) :
    ((h.answer lib req input x).2.rep.subtype = none ∧ h = .start ∧ ¬ Request.StartOk req) ∨
      ∃ t, (h.answer lib req input x).2.rep.subtype = some t ∧
        (IsChallenge t → (h.process lib req input x).1 = true ∧ challengeOf h = some t) := by
  by_cases hfail : (h.process lib req input x).1 = false ∧ h.reportsError = true
  · exact .inr ⟨_, answer_reported hfail.2 hfail.1, by simp [IsChallenge]⟩
  have hresult : h.reportsError = true → (h.process lib req input x).1 = true := fun hrep =>
    Bool.eq_true_of_not_eq_false fun hr => hfail ⟨hr, hrep⟩
  rw [answer_eq_process (by cases hrep : h.reportsError <;> simp [hresult, hrep])]
  cases h with
  | start =>
    rcases start_subtype req input.nonce x with ⟨hnone, hbad⟩ | ⟨hsome, -⟩
    · exact .inl ⟨hnone, rfl, hbad⟩
    · exact .inr ⟨_, hsome, by simp [IsChallenge]⟩
  | notification => exact .inr ⟨_, rfl, by simp [IsChallenge]⟩
  | clientError => exact .inr ⟨_, rfl, by simp [IsChallenge]⟩
  | akaIdentity =>
    rcases akaIdentity_subtype req x with hsome | hsome
    · exact .inr ⟨_, hsome, by simp [IsChallenge]⟩
    · exact .inr ⟨_, hsome, by simp [IsChallenge]⟩
  | reauth => exact .inr ⟨_, (reauth_true (hresult rfl)).1, by simp [IsChallenge]⟩
  | challenge => exact .inr ⟨_, (challenge_true (hresult rfl)).1, fun _ => ⟨hresult rfl, rfl⟩⟩
  | akaChallenge =>
    rcases akaChallenge_true rfl (hresult rfl) with hsome | hsome | ⟨hsome, -⟩
    · exact .inr ⟨_, hsome, by simp [IsChallenge]⟩
    · exact .inr ⟨_, hsome, by simp [IsChallenge]⟩
    · exact .inr ⟨_, hsome, fun _ => ⟨hresult rfl, rfl⟩⟩

end Handlers

section Respond
variable {lib : Libeap} {handler : ClientState → Subtype → Handler} {first : ClientState}
  {req : Request} {input : Input} {x : Client} {t u : Subtype} {h : Handler}

lemma start_eapType (req : Request) (nonce : Bytes) (x : Client) :
    (processEapStart req nonce x).2.rep.eapType = x.rep.eapType := by
  cases hv : req.versionList with
  | none => simp [processEapStart, hv, cleanresp]
  | some v =>
    simp only [processEapStart, hv]
    split_ifs
    · rfl
    · rfl
    · rfl
    · split <;> rfl

lemma respond_message_skip (hskip : req.eapId = none ∨ req.subtype = none) :
    (respond lib handler first req input x).1.rep.message = x.rep.message := by
  by_cases hid : req.eapId = none
  · simp [respond, hid]
  · have hu : req.subtype = none := hskip.resolve_left hid
    simp [respond, hid, hu]

lemma respond_message (hid : req.eapId ≠ none) (hu : req.subtype = some u)
    (hh : handler (x.rep.simState.getD first) u = h) {a : Result}
    (ha : h.answer lib req input (x.inState (x.rep.simState.getD first)) = a) :
    (respond lib handler first req input x).1.rep.message = some (a.2.rep.subtype.getD
        (if a.2.rep.eapType = some pwEapAka then .akaChallenge else .start)) ∧
      (respond lib handler first req input x).1.keys = a.2.keys ∧
      (respond lib handler first req input x).2 = some (h, a.1) := by
  rw [respond_call hid hu hh ha]
  exact ⟨rfl, rfl, rfl⟩

structure Answered (lib : Libeap) (req : Request) (input : Input) (x : Client) (h : Handler) (t : Subtype)
    (r : Client × Option (Handler × Bool)) : Prop where
  handler : challengeOf h = some t
  result : (h.process lib req input x).1 = true
  subtype : (h.process lib req input x).2.rep.subtype = some t
  called : r.2 = some (h, true)
  keys : r.1.keys = (h.process lib req input x).2.keys

/-- A challenge in the response to a message that is not passed over is that of the handler, or the encoder
made it of a start that was refused. -/
lemma respond_challenge (ht : IsChallenge t) (hid : req.eapId ≠ none) (hu : req.subtype = some u)
    (hh : handler (x.rep.simState.getD first) u = h)
    (hmessage : (respond lib handler first req input x).1.rep.message = some t) :
    (h = .start ∧ ¬ Request.StartOk req ∧ x.rep.eapType = some pwEapAka) ∨
      Answered lib req input (x.inState (x.rep.simState.getD first)) h t
        (respond lib handler first req input x) := by
  obtain ⟨hencoded, hkeys, hcalled⟩ := @respond_message lib handler first req input x u h hid hu hh _ rfl
  rw [hmessage, Option.some_inj] at hencoded
  rcases answer_subtype lib req input (x.inState (x.rep.simState.getD first)) h with
    ⟨hsub, rfl, hbad⟩ | ⟨s, hsub, hchallenge⟩
  · refine .inl ⟨rfl, hbad, ?_⟩
    rw [hsub, Option.getD_none, answer_eq_process (.inr rfl)] at hencoded
    split_ifs at hencoded with haka
    · exact (start_eapType req input.nonce (x.inState (x.rep.simState.getD first))).symm.trans haka
    · rcases ht with rfl | rfl <;> cases hencoded
  · rw [hsub, Option.getD_some] at hencoded
    subst hencoded
    obtain ⟨hr, hof⟩ := hchallenge ht
    rw [answer_eq_process (.inl hr)] at hsub hkeys hcalled
    rw [hr] at hcalled
    exact .inr ⟨hof, hr, hsub, hcalled, hkeys⟩

lemma not_leftChallenge {P : Prop} (hP : P → (respond lib handler first req input x).2 ≠ none)
    (honly : OnlyVerified P (respond lib handler first req input x)) : ¬ LeftChallenge req x := by
  rintro ⟨hskip, t, hmessage, ht⟩
  exact hP (honly t ((respond_message_skip hskip).trans hmessage) ht)
    (respond_skip lib handler first input x hskip).1

end Respond

section Conditions
variable {lib : Libeap} {flags : Flags} {req : Request} {input : Input} {x : Client} {u : Subtype}

lemma simHandler_start_iff {state : ClientState} :
    simHandler flags state u = .start ↔ flags.estart = false ∧ u = .start := by
  fun_cases simHandler flags state u
  case case11 => cases state <;> simp_all
  all_goals simp_all

lemma akaHandler_challenge_iff {state : ClientState} :
    akaHandler flags state u = .akaChallenge ↔
      flags.echallenge = false ∧ state = .start ∧ u = .akaChallenge := by
  fun_cases akaHandler flags state u <;> simp_all

lemma akaHandler_ne (flags : Flags) (u : Subtype) (state : ClientState) :
    akaHandler flags state u ≠ .start ∧ akaHandler flags state u ≠ .challenge := by
  fun_cases akaHandler flags state u <;> simp

lemma SimBlind.message (hblind : SimBlind lib flags req x) :
    (respondEapSim lib flags req input x).1.rep.message = some .challenge := by
  obtain ⟨k, hk, hcheck⟩ := hblind.keys
  have hproc : (Handler.process lib req input (x.inState (x.rep.simState.getD .init)) .challenge).1 = true ∧
      (Handler.process lib req input (x.inState (x.rep.simState.getD .init)) .challenge).2.rep.subtype =
        some .challenge := by
    have heq := challenge_with_keys (x := x.inState (x.rep.simState.getD .init)) hk
    simp only [Handler.process]
    rw [heq, if_pos hcheck]
    exact ⟨rfl, rfl⟩
  have hhandler : simHandler flags (x.rep.simState.getD .init) .challenge = .challenge :=
    simHandler_challenge_iff.mpr ⟨hblind.echallenge, by rw [hblind.state]; rfl, rfl⟩
  refine (respond_message hblind.asks.1 hblind.asks.2 hhandler
    (answer_eq_process (.inl hproc.1))).1.trans ?_
  rw [hproc.2]
  rfl

lemma StartRefused.message (hrefused : StartRefused flags req x) (lib : Libeap) (input : Input) :
    (respondEapSim lib flags req input x).1.rep.message = some .akaChallenge ∧
      (respondEapSim lib flags req input x).2 ≠ some (.challenge, true) := by
  have hhandler : simHandler flags (x.rep.simState.getD .init) .start = .start :=
    simHandler_start_iff.mpr ⟨hrefused.estart, rfl⟩
  obtain ⟨hmessage, -, hcalled⟩ := @respond_message lib _ _ req input x _ _ hrefused.eapId
    hrefused.subtype hhandler _ (answer_eq_process (.inr rfl))
  constructor
  · refine hmessage.trans ?_
    have hsub : (Handler.process lib req input (x.inState (x.rep.simState.getD .init)) .start).2.rep.subtype =
        none := ((start_subtype req input.nonce _).resolve_right fun h => hrefused.refused h.2).1
    have htype : (Handler.process lib req input
        (x.inState (x.rep.simState.getD .init)) .start).2.rep.eapType = some pwEapAka :=
      (start_eapType req input.nonce _).trans hrefused.aka
    rw [hsub, htype]
    rfl
  · rw [show (respondEapSim lib flags req input x).2 = _ from hcalled]
    simp

lemma AkaBlind.message (hblind : AkaBlind lib flags req input x) :
    (respondEapAka lib flags req input x).1.rep.message = some .akaChallenge := by
  obtain ⟨k, hk, hcheck⟩ := hblind.keys
  have hproc : (Handler.process lib req input (x.inState (x.rep.simState.getD .start)) .akaChallenge).1 =
        true ∧
      (Handler.process lib req input (x.inState (x.rep.simState.getD .start))
        .akaChallenge).2.rep.subtype = some .akaChallenge := by
    have heq := akaChallenge_with_keys (x := x.inState (x.rep.simState.getD .start)) hk
    simp only [Handler.process]
    rw [heq, if_pos hcheck]
    exact ⟨rfl, rfl⟩
  have hstate : x.rep.simState.getD .start = .start := by
    rcases hs : x.rep.simState with _ | _ | _
    · rfl
    · exact absurd hs hblind.state
    · rfl
  have hhandler : akaHandler flags (x.rep.simState.getD .start) .akaChallenge = .akaChallenge :=
    akaHandler_challenge_iff.mpr ⟨hblind.echallenge, hstate, rfl⟩
  refine (respond_message hblind.eapId hblind.subtype hhandler
    (answer_eq_process (.inl hproc.1))).1.trans ?_
  rw [hproc.2]
  rfl

lemma simVerified_of_answered {t : Subtype} (hid : req.eapId ≠ none) (hu : req.subtype = some u)
    (h : Answered lib req input (x.inState (x.rep.simState.getD .init))
      (simHandler flags (x.rep.simState.getD .init) u) t (respondEapSim lib flags req input x))
    (hseen : ¬ SimBlind lib flags req x) : SimVerified lib req (respondEapSim lib flags req input x) := by
  have hhandler : simHandler flags (x.rep.simState.getD .init) u = .challenge := by
    have hof := h.handler
    have hne := (simHandler_ne_aka flags (x.rep.simState.getD .init) u).2
    cases hs : simHandler flags (x.rep.simState.getD .init) u <;> simp_all [challengeOf]
  obtain ⟨hflag, hstate, rfl⟩ := simHandler_challenge_iff.mp hhandler
  have hresult := h.result
  have hkeys := h.keys
  rw [hhandler] at hresult hkeys
  obtain ⟨-, hmac, hcheck, -⟩ := challenge_true hresult
  refine ⟨by rw [h.called, hhandler], fun hrand => hseen ⟨⟨hid, hu⟩, ?_, hflag, ?_, hrand⟩, hmac, ?_⟩
  · cases hs : x.rep.simState with
    | none => simp [hs] at hstate
    | some state => simpa [hs] using hstate
  · cases hk : challengeKeys lib req x with
    | none =>
      have hfalse := (challenge_without_keys (x := x.inState (x.rep.simState.getD .init)) hk).1
      cases hfalse.symm.trans hresult
    | some k =>
      have heq := challenge_with_keys (x := x.inState (x.rep.simState.getD .init)) hk
      refine ⟨k, rfl, ?_⟩
      by_contra hwrong
      simp only [Handler.process] at hresult
      rw [heq, if_neg hwrong] at hresult
      cases hresult
  · rw [hkeys]
    exact hcheck

lemma akaVerified_of_answered {t : Subtype} (hid : req.eapId ≠ none) (hu : req.subtype = some u)
    (h : Answered lib req input (x.inState (x.rep.simState.getD .start))
      (akaHandler flags (x.rep.simState.getD .start) u) t (respondEapAka lib flags req input x))
    (hseen : ¬ AkaBlind lib flags req input x) :
    AkaVerified lib req x (respondEapAka lib flags req input x) := by
  have hof := h.handler
  have hhandler : akaHandler flags (x.rep.simState.getD .start) u = .akaChallenge := by
    have hne := (akaHandler_ne flags u (x.rep.simState.getD .start)).2
    cases hs : akaHandler flags (x.rep.simState.getD .start) u <;> simp_all [challengeOf]
  obtain ⟨hflag, hstate, rfl⟩ := akaHandler_challenge_iff.mp hhandler
  have hresult := h.result
  have hsub := h.subtype
  have hkeys := h.keys
  rw [hhandler] at hof hresult hsub hkeys
  cases hof
  rcases akaChallenge_true rfl hresult with hreject | hsync | ⟨-, ⟨hmac, hautn⟩, ⟨k, hk, hleft, hcheck⟩, -⟩
  · cases hreject.symm.trans hsub
  · cases hsync.symm.trans hsub
  refine ⟨by rw [h.called, hhandler],
    fun hrand => hseen ⟨hid, hu, ?_, hflag, ⟨k, hk, hcheck⟩, hrand⟩, hmac, hautn, ?_⟩
  · intro hinit
    rw [hinit] at hstate
    cases hstate
  · rw [hkeys, show (Handler.process lib req input _ .akaChallenge).2.keys = k from hleft]
    exact hcheck

end Conditions

/-- EAP-SIM answers with a challenge only to a verified one exactly if no message is passed over behind the
response to a challenge, no challenge with the right MAC is without AT_RAND, and no start that is refused
comes for a packet of EAP-AKA. For EAP-AKA the first two are enough. -/
theorem challenge_response_iff (lib : Libeap) (flags : Flags) (req : Request) (input : Input)
    (x : Client) :
    (OnlyVerified (SimVerified lib req (respondEapSim lib flags req input x))
        (respondEapSim lib flags req input x) ↔
      ¬ LeftChallenge req x ∧ ¬ SimBlind lib flags req x ∧ ¬ StartRefused flags req x) ∧
    (OnlyVerified (AkaVerified lib req x (respondEapAka lib flags req input x))
        (respondEapAka lib flags req input x) ↔
      ¬ LeftChallenge req x ∧ ¬ AkaBlind lib flags req input x) := by
  constructor
  · constructor
    · intro honly
      refine ⟨not_leftChallenge (fun h => by rw [show (respond _ _ _ _ _ _).2 = _ from h.called]; simp) honly,
        fun hblind => ?_, fun hrefused => ?_⟩
      · exact (honly _ hblind.message (.inl rfl)).rand hblind.rand
      · obtain ⟨hmessage, hcalled⟩ := hrefused.message lib input
        exact hcalled (honly _ hmessage (.inr rfl)).called
    · rintro ⟨hleft, hseen, hrefused⟩ t hmessage ht
      rcases message_cases (req, input) with hskip | ⟨u, hid, hu⟩
      · exact absurd ⟨hskip, t, (respond_message_skip hskip).symm.trans hmessage, ht⟩ hleft
      · rcases respond_challenge ht hid hu rfl hmessage with ⟨hstart, hbad, haka⟩ | hanswered
        · obtain ⟨hflag, rfl⟩ := simHandler_start_iff.mp hstart
          exact absurd ⟨hid, hu, hflag, hbad, haka⟩ hrefused
        · exact simVerified_of_answered hid hu hanswered hseen
  · constructor
    · intro honly
      refine ⟨not_leftChallenge (fun h => by rw [show (respond _ _ _ _ _ _).2 = _ from h.called]; simp) honly,
        fun hblind => ?_⟩
      exact (honly _ hblind.message (.inr rfl)).rand hblind.rand
    · rintro ⟨hleft, hseen⟩ t hmessage ht
      rcases message_cases (req, input) with hskip | ⟨u, hid, hu⟩
      · exact absurd ⟨hskip, t, (respond_message_skip hskip).symm.trans hmessage, ht⟩ hleft
      · rcases respond_challenge ht hid hu rfl hmessage with ⟨hstart, -, -⟩ | hanswered
        · exact absurd hstart (akaHandler_ne _ _ _).1
        · exact akaVerified_of_answered hid hu hanswered hseen

/-- A challenge with a MAC and without AT_RAND is answered. A message without subtype leaves the answer to
the challenge before it. A start without versions is answered with an EAP-AKA challenge for a user of
EAP-AKA. -/
theorem challenge_without_rand_answered :
    (respondEapSim trustingLib noFlags { plainRequest .challenge with rand := none } ⟨[], false⟩
        ⟨{ cardResponse with simState := some .start }, oldKeys, []⟩).1.rep.message = some .challenge ∧
      (respondEapSim trustingLib noFlags { plainRequest .challenge with subtype := none } ⟨[], false⟩
        ⟨{ cardResponse with message := some .challenge }, oldKeys, []⟩).1.rep.message =
          some .challenge ∧
      (respondEapSim trustingLib noFlags (plainRequest .start) ⟨[], false⟩
        ⟨{ cardResponse with eapType := some pwEapAka }, oldKeys, []⟩).1.rep.message =
          some .akaChallenge :=
  ⟨rfl, rfl, rfl⟩

end LdapTgen.ChallengeResponse
