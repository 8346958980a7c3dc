import LdapTgen.EapExchange

/-! The data of a fast re-authentication that an EAP-SIM exchange leaves with its user: the identity
read last, and the keys at the end. `process_eap_challenge` derives its keys before it checks the MAC,
and the identity survives the messages that fail. -/
namespace LdapTgen.FastReauth
open EapClient LabelledRun

structure FastAuth where
  kAut : Bytes
  kEncr : Bytes
  frId : Option Bytes
  deriving DecidableEq

def cstr (b : Bytes) : Bytes := b.takeWhile (· ≠ 0)

def tUserGetFastAuthData (data : FastAuth) (keys : Keys) : Keys :=
  match data.frId with
  | none => keys
  | some _ => { keys with kAut := data.kAut, kEncr := data.kEncr }

def tUserSetFastAuthData (data : FastAuth) (keys : Keys) (frId : Bytes) : FastAuth :=
  if cstr frId ≠ [] then ⟨keys.kAut, keys.kEncr, some (cstr frId)⟩ else { data with frId := none }

/-- A message of the server, with what the client takes from outside when it is processed. -/
structure Message where
  req : Request
  input : Input
  flags : Flags

def readsIdentity : Handler → Bool
  | .challenge | .reauth | .akaChallenge => true
  | _ => false

structure Carrier where
  req : Request
  kAut : Bytes
  kEncr : Bytes

structure Tracked where
  exchange : Exchange
  carrier : Option Carrier

def Tracked.client (s : Tracked) : Client := s.exchange.client

/-- The beginning of `sendrecv_eap`; `keys` is what is in memory. -/
def start (data : FastAuth) (rep : Response) (keys : Keys) : Tracked :=
  ⟨.init rep (tUserGetFastAuthData data keys), none⟩

def nextCarrier (old : Option Carrier) (req : Request) (r : Client × Option (Handler × Bool)) :
    Option Carrier :=
  match r.2 with
  | some (h, true) => if readsIdentity h then some ⟨req, r.1.keys.kAut, r.1.keys.kEncr⟩ else old
  | _ => old

/-- One turn of the loop of `sendrecv_eap` on an EAP-SIM message. -/
def step (lib : Libeap) (s : Tracked) (m : Message) : Option Tracked :=
  let r := respondEapSim lib m.flags m.req m.input s.client
  some ⟨s.exchange.again r, nextCarrier s.carrier m.req r⟩

/-- The normal end of `sendrecv_eap`. -/
def finish (data : FastAuth) (s : Tracked) : FastAuth :=
  tUserSetFastAuthData data s.client.keys s.client.frId

def Consistent (data : FastAuth) (s : Tracked) : Prop :=
  (finish data s).frId ≠ none →
    ∃ c, s.carrier = some c ∧ (finish data s).kAut = c.kAut ∧ (finish data s).kEncr = c.kEncr

/-- The message was verified under `kAut`, and the identity was decrypted from it under `kEncr`. -/
def Carried (lib : Libeap) (s : Tracked) : Prop :=
  ∀ c, s.carrier = some c → (∃ nonce, lib.eapsimCheckmac c.req c.kAut nonce = true) ∧
    ∃ offset, s.client.frId = nextReauthId lib c.kEncr offset c.req

/-- The keys that `process_eap_challenge` derives, unless it returns before. -/
def challengeKeys (lib : Libeap) (req : Request) (x : Client) : Option Keys :=
  if req.mac = none ∨ req.halfEncrypted then none
  else
    match x.rep.sres1, x.rep.sres2, x.rep.sres3, x.rep.kc1, x.rep.kc2, x.rep.kc3 with
    | some sres1, some sres2, some sres3, some kc1, some kc2, some kc3 =>
        let keys := { x.keys with
          sres := [sres1.bytes 0 4, sres2.bytes 0 4, sres3.bytes 0 4]
          kc := [kc1.bytes 0 8, kc2.bytes 0 8, kc3.bytes 0 8] }
        let derived := lib.eapsimCalculateKeys keys
        some { keys with kAut := derived.1, kEncr := derived.2 }
    | _, _, _, _, _, _ => none

/-- The keys change under an identity only as far as a challenge with a wrong MAC derives the same
ones. -/
def Undisturbed (lib : Libeap) (s : Tracked) (m : Message) : Prop :=
  cstr s.client.frId ≠ [] → m.req.AsksChallenge → s.client.rep.simState = some .start →
    m.flags.echallenge = false → ∀ k, challengeKeys lib m.req s.client = some k →
      lib.eapsimCheckmac m.req k.kAut k.nonceMt = false →
        k.kAut = s.client.keys.kAut ∧ k.kEncr = s.client.keys.kEncr

/-- What a message may change of the client as far as the end of the exchange is concerned. -/
structure Auth where
  kAut : Bytes
  kEncr : Bytes
  frId : Bytes

def auth (x : Client) : Auth := ⟨x.keys.kAut, x.keys.kEncr, x.frId⟩

inductive Effect (lib : Libeap) (req : Request) (x : Client) : Handler → Bool → Auth → Prop
  | kept {h : Handler} {r : Bool} (hquiet : (r && readsIdentity h) = false)
      (hkeys : h = .challenge → challengeKeys lib req x = none) : Effect lib req x h r (auth x)
  | read {h : Handler} {kAut kEncr : Bytes} (nonce : Bytes) (offset : ℕ) (hreads : readsIdentity h)
      (hmac : lib.eapsimCheckmac req kAut nonce = true)
      (hkeys : h = .challenge → ∀ k, challengeKeys lib req x = some k →
        lib.eapsimCheckmac req k.kAut k.nonceMt = true) :
      Effect lib req x h true ⟨kAut, kEncr, nextReauthId lib kEncr offset req⟩
  | refused {k : Keys} (hk : challengeKeys lib req x = some k)
      (hmac : lib.eapsimCheckmac req k.kAut k.nonceMt = false) :
      Effect lib req x .challenge false ⟨k.kAut, k.kEncr, x.frId⟩

section Handlers
variable {lib : Libeap} {req : Request} {input : Input} {x y : Client}

lemma challenge_without_keys (hnone : challengeKeys lib req x = none) :
    (processEapChallenge lib req x).1 = false ∧ auth (processEapChallenge lib req x).2 = auth x := by
  simp only [processEapChallenge]
  split_ifs with hmac hhalf
  · exact ⟨rfl, rfl⟩
  · exact ⟨rfl, rfl⟩
  · split
    · split
      · simp [challengeKeys, *] at hnone
      · exact ⟨rfl, rfl⟩
    · exact ⟨rfl, rfl⟩

lemma challenge_with_keys {k : Keys} (hk : challengeKeys lib req x = some k) :
    processEapChallenge lib req x =
      if lib.eapsimCheckmac req k.kAut k.nonceMt then
        (true, { x.respondAs .challenge with keys := k, frId := nextReauthId lib k.kEncr 0 req })
      else (false, { x with keys := k }) := by
  simp only [challengeKeys] at hk
  split_ifs at hk with hbad
  obtain ⟨hmac, hhalf⟩ := not_or.mp hbad
  split at hk
  · cases hk
    simp [processEapChallenge, Client.respondAs, *]
  · cases hk

lemma auth_start (nonce : Bytes) : auth (processEapStart req nonce x).2 = auth x := by
  cases hv : req.versionList with
  | none => simp [processEapStart, hv, auth]
  | some v =>
    simp only [processEapStart, hv]
    split_ifs
    · rfl
    · rfl
    · rfl
    · split <;> rfl

lemma effect_challenge :
    Effect lib req x .challenge (processEapChallenge lib req x).1
      (auth (processEapChallenge lib req x).2) := by
  cases hk : challengeKeys lib req x with
  | none =>
    obtain ⟨hr, hsame⟩ := challenge_without_keys hk
    rw [hr, hsame]
    exact .kept rfl fun _ => hk
  | some k =>
    rw [challenge_with_keys hk]
    split_ifs with hmac
    · refine .read k.nonceMt 0 rfl hmac fun _ k' hk' => ?_
      obtain rfl : k = k' := Option.some.inj (hk.symm.trans hk')
      exact hmac
    · exact .refused hk (by simpa using hmac)

lemma effect_reauth :
    Effect lib req x .reauth (processEapReauth lib req x).1 (auth (processEapReauth lib req x).2) := by
  simp only [processEapReauth]
  split_ifs with hnone hhalf hmac
  · exact .kept rfl (by simp)
  · exact .kept rfl (by simp)
  · exact .read [] 24 rfl hmac (by simp)
  · exact .kept rfl (by simp)

lemma answer_auth (lib : Libeap) (req : Request) (input : Input) (x : Client) (h : Handler) :
    (h.answer lib req input x).1 = (h.process lib req input x).1 ∧
      auth (h.answer lib req input x).2 = auth (h.process lib req input x).2 := by
  simp only [Handler.answer]
  split_ifs
  · exact ⟨rfl, rfl⟩
  · exact ⟨rfl, rfl⟩

lemma effect_answer {flags : Flags} {state : ClientState} {u : Subtype} {h : Handler}
    (hh : simHandler flags state u = h) :
    Effect lib req x h (h.answer lib req input x).1 (auth (h.answer lib req input x).2) := by
  obtain ⟨hr, ha⟩ := answer_auth lib req input x h
  rw [hr, ha]
  cases h with
  | start =>
    rw [show auth (Handler.process lib req input x .start).2 = auth x from auth_start input.nonce]
    exact .kept (by simp [readsIdentity]) (by simp)
  | challenge => exact effect_challenge
  | notification => exact .kept rfl (by simp)
  | reauth => exact effect_reauth
  | clientError => exact .kept rfl (by simp)
  | akaIdentity => exact absurd hh (simHandler_ne_aka flags state u).1
  | akaChallenge => exact absurd hh (simHandler_ne_aka flags state u).2

lemma Effect.of_inState {state : ClientState} {h : Handler} {r : Bool} {a : Auth}
    (heffect : Effect lib req (x.inState state) h r a) : Effect lib req x h r a := by
  cases heffect with
  | kept hquiet hkeys => exact .kept hquiet hkeys
  | read nonce offset hreads hmac hkeys => exact .read nonce offset hreads hmac hkeys
  | refused hk hmac => exact .refused hk hmac

end Handlers

section Steps
variable {lib : Libeap} {data : FastAuth} {s t : Tracked} {m : Message}

lemma step_effect (ht : step lib s m = some t) :
    ((m.req.eapId = none ∨ m.req.subtype = none) ∧ auth t.client = auth s.client ∧
        t.carrier = s.carrier) ∨
      ∃ u h r, m.req.eapId ≠ none ∧ m.req.subtype = some u ∧
        simHandler m.flags (s.client.rep.simState.getD .init) u = h ∧
        Effect lib m.req s.client h r (auth t.client) ∧
        t.carrier = if r && readsIdentity h then
          some ⟨m.req, (auth t.client).kAut, (auth t.client).kEncr⟩ else s.carrier := by
  cases ht
  rcases message_cases (m.req, m.input) with hskip | ⟨u, hid, hu⟩
  · left
    refine ⟨hskip, ?_⟩
    by_cases hid : m.req.eapId = none
    · simp [respondEapSim, respond, hid, nextCarrier, Exchange.again, Tracked.client, auth]
    · have hu : m.req.subtype = none := hskip.resolve_left hid
      simp [respondEapSim, respond, hid, hu, nextCarrier, Exchange.again, Tracked.client, auth]
  · right
    let x := s.client.inState (s.client.rep.simState.getD .init)
    let h := simHandler m.flags (s.client.rep.simState.getD .init) u
    have hresp : respondEapSim lib m.flags m.req m.input s.client =
        ((h.answer lib m.req m.input x).2.encoded.inState (.ofResult (h.answer lib m.req m.input x).1),
          some (h, (h.answer lib m.req m.input x).1)) := respond_call hid hu rfl rfl
    refine ⟨u, h, (h.answer lib m.req m.input x).1, hid, hu, rfl, ?_, ?_⟩
    · rw [hresp]
      exact Effect.of_inState (effect_answer rfl)
    · rw [hresp]
      cases (h.answer lib m.req m.input x).1 with
      | false => rfl
      | true => rfl

def Paired (carrier : Option Carrier) (a : Auth) : Prop :=
  cstr a.frId ≠ [] → ∃ c, carrier = some c ∧ a.kAut = c.kAut ∧ a.kEncr = c.kEncr

lemma consistent_iff : Consistent data s ↔ Paired s.carrier (auth s.client) := by
  by_cases hid : cstr s.client.frId = []
  · simp [Consistent, Paired, auth, finish, tUserSetFastAuthData, hid]
  · simp [Consistent, Paired, auth, finish, tUserSetFastAuthData, hid]

lemma undisturbed_of_skip (hskip : m.req.eapId = none ∨ m.req.subtype = none) :
    Undisturbed lib s m := by
  rintro - ⟨hid, hu⟩
  rcases hskip with hnone | hnone
  · exact absurd hnone hid
  · exact absurd (hnone.symm.trans hu) (by simp)

lemma undisturbed_iff {u : Subtype} {h : Handler} (hid : m.req.eapId ≠ none)
    (hu : m.req.subtype = some u)
    (hh : simHandler m.flags (s.client.rep.simState.getD .init) u = h) :
    Undisturbed lib s m ↔ (cstr s.client.frId ≠ [] → h = .challenge →
      ∀ k, challengeKeys lib m.req s.client = some k →
        lib.eapsimCheckmac m.req k.kAut k.nonceMt = false →
          k.kAut = s.client.keys.kAut ∧ k.kEncr = s.client.keys.kEncr) := by
  have hstate : s.client.rep.simState.getD .init = .start ↔ s.client.rep.simState = some .start := by
    cases s.client.rep.simState <;> simp
  rw [← hh, simHandler_challenge_iff, hstate]
  constructor
  · rintro hund hfr ⟨hflag, hstart, rfl⟩
    exact hund hfr ⟨hid, hu⟩ hstart hflag
  · rintro hcall hfr ⟨-, hask⟩ hstart hflag
    exact hcall hfr ⟨hflag, hstart, Option.some.inj (hu.symm.trans hask)⟩

lemma consistent_step_iff (hs : Consistent data s) (ht : step lib s m = some t) :
    Consistent data t ↔ Undisturbed lib s m := by
  rw [consistent_iff] at hs ⊢
  rcases step_effect ht with ⟨hskip, hauth, hcarrier⟩ | ⟨u, h, r, hid, hu, hh, heffect, hcarrier⟩
  · rw [hauth, hcarrier]
    exact iff_of_true hs (undisturbed_of_skip hskip)
  · rw [undisturbed_iff hid hu hh]
    generalize auth t.client = a at heffect hcarrier ⊢
    cases heffect with
    | kept hquiet hkeys =>
      rw [hquiet, if_neg (by simp)] at hcarrier
      rw [hcarrier]
      refine iff_of_true hs fun _ hchal k hk => ?_
      rw [hkeys hchal] at hk
      cases hk
    | read nonce offset hreads hmac hkeys =>
      rw [hreads, if_pos (by simp)] at hcarrier
      refine iff_of_true (fun _ => ⟨_, hcarrier, rfl, rfl⟩) fun _ hchal k hk hbad => ?_
      rw [hkeys hchal k hk] at hbad
      cases hbad
    | refused hk hmac =>
      -- the identity is still that of the carrier, the keys are those of this challenge
      rw [if_neg (by simp)] at hcarrier
      rw [hcarrier]
      constructor
      · intro hpaired hfr _ k' hk' _
        obtain rfl := Option.some.inj (hk.symm.trans hk')
        obtain ⟨c, hc, hkAut, hkEncr⟩ := hpaired hfr
        obtain ⟨c', hc', hkAut', hkEncr'⟩ := hs hfr
        obtain rfl : c = c' := Option.some.inj (hc.symm.trans hc')
        exact ⟨hkAut.trans hkAut'.symm, hkEncr.trans hkEncr'.symm⟩
      · intro hsame hfr
        obtain ⟨hkAut, hkEncr⟩ := hsame hfr rfl _ hk hmac
        obtain ⟨c, hc, hkAut', hkEncr'⟩ := hs hfr
        exact ⟨c, hc, hkAut.trans hkAut', hkEncr.trans hkEncr'⟩

lemma Carried.step (hs : Carried lib s) (ht : step lib s m = some t) : Carried lib t := by
  intro c hc
  rcases step_effect ht with ⟨-, hauth, hcarrier⟩ | ⟨u, h, r, -, -, -, heffect, hcarrier⟩
  · obtain ⟨hverified, offset, hid⟩ := hs c (hcarrier.symm.trans hc)
    exact ⟨hverified, offset, (congrArg Auth.frId hauth).trans hid⟩
  · change _ ∧ ∃ offset, (auth t.client).frId = _
    generalize auth t.client = a at heffect hcarrier ⊢
    cases heffect with
    | kept hquiet _ =>
      rw [hquiet, if_neg (by simp)] at hcarrier
      exact hs c (hcarrier.symm.trans hc)
    | read nonce offset hreads hmac _ =>
      rw [hreads, if_pos (by simp)] at hcarrier
      obtain rfl := Option.some.inj (hcarrier.symm.trans hc)
      exact ⟨⟨nonce, hmac⟩, offset, rfl⟩
    | refused _ _ =>
      rw [if_neg (by simp)] at hcarrier
      exact hs c (hcarrier.symm.trans hc)

end Steps

/-- Over any EAP-SIM messages, identity and keys are stored together wherever the exchange ends
exactly if no message disturbs them. The message that is kept as their carrier was verified under its
keys and carried the identity. -/
theorem stored_together_iff (lib : Libeap) (data : FastAuth) (rep : Response) (keys : Keys)
    (ms : List Message) :
    (Always (step lib) (Consistent data) (start data rep keys) ms ↔
        Guarded (step lib) (Undisturbed lib) (start data rep keys) ms) ∧
      Always (step lib) (Carried lib) (start data rep keys) ms := by
  constructor
  · have hinit : Consistent data (start data rep keys) := by
      simp [consistent_iff, Paired, auth, start, Tracked.client, Exchange.init, cstr]
    exact always_iff_guarded (fun s m _ _ => ⟨_, rfl⟩) (fun s m t hs ht => consistent_step_iff hs ht)
      hinit ms
  · exact always_of_step (fun _ hs => hs) (fun s m t hs ht => hs.step ht)
      (fun c hc => by simp [start] at hc) ms

/-- The keys are the nonce, the MAC is right under the key 1, and an identity is in every message. -/
def nonceLib : Libeap where
  eapsimCalculateKeys keys := (keys.nonceMt, keys.nonceMt)
  eapakaCalculateKeys _ := ([], [])
  eapsimCheckmac _ kAut _ := kAut = [1]
  eapsimAesdecrypt _ _ _ i := [133, 2, 0, 1, 65].getD i 0

def startRequest : Request :=
  { plainRequest .start with versionList := some ⟨4, fun _ => 0, by decide⟩ }

def encryptedChallenge : Request :=
  { plainRequest .challenge with encrData := some .zero, iv := some .zero }

/-- The second challenge fails under the key 2, with which the identity of the first is stored. -/
theorem identity_with_later_keys :
    ∃ s, run (step nonceLib) (start ⟨[], [], none⟩ cardResponse oldKeys)
        [⟨startRequest, ⟨[1], false⟩, noFlags⟩, ⟨encryptedChallenge, ⟨[], false⟩, noFlags⟩,
          ⟨startRequest, ⟨[2], false⟩, noFlags⟩, ⟨encryptedChallenge, ⟨[], false⟩, noFlags⟩] = some s ∧
      s.exchange.calls = [(.start, true), (.challenge, true), (.start, true), (.challenge, false)] ∧
      s.carrier.map Carrier.kAut = some [1] ∧
      finish ⟨[], [], none⟩ s = ⟨[2], [2], some [65]⟩ :=
  ⟨_, rfl, by decide, by decide, by decide⟩

end LdapTgen.FastReauth
