import LdapTgen.EapClient
import LdapTgen.LabelledRun

/-! The handlers that an EAP-SIM exchange calls. The state of the client is the result of the handler
called last, so that a challenge is processed behind any handler that returned 1. -/
namespace LdapTgen.EapClient
open LabelledRun

section Respond
variable {lib : Libeap} {handler : ClientState → Subtype → Handler} {first : ClientState}
  {req : Request} {input : Input} {x : Client}

lemma respond_skip (lib : Libeap) (handler : ClientState → Subtype → Handler) (first : ClientState)
    (input : Input) (x : Client) (h : req.eapId = none ∨ req.subtype = none) :
    (respond lib handler first req input x).2 = none ∧
      (respond lib handler first req input x).1.rep.simState.getD first = x.rep.simState.getD first ∧
      (respond lib handler first req input x).1.rep.userName = x.rep.userName ∧
      (respond lib handler first req input x).1.keys = x.keys := by
  by_cases hid : req.eapId = none
  · simp [respond, hid]
  · have ht : req.subtype = none := h.resolve_left hid
    simp [respond, hid, ht]

def Client.inState (x : Client) (state : ClientState) : Client :=
  { x with rep := { x.rep with simState := some state } }

def Client.encoded (x : Client) : Client := { x with rep := mapEapsimTypes x.rep }

lemma respond_call {t : Subtype} {h : Handler} {r : Bool} {y : Client} (hid : req.eapId ≠ none)
    (ht : req.subtype = some t) (hh : handler (x.rep.simState.getD first) t = h)
    (hans : h.answer lib req input (x.inState (x.rep.simState.getD first)) = (r, y)) :
    respond lib handler first req input x = (y.encoded.inState (.ofResult r), some (h, r)) := by
  subst hh
  simp only [Client.inState] at hans
  simp [respond, hid, ht, hans, Client.inState, Client.encoded]

end Respond

section Order
variable {calls : List (Handler × Bool)}

/-- `process_eap_challenge` is called only behind a `process_eap_start` that returned 1. -/
def InOrder (calls : List (Handler × Bool)) : Prop :=
  ∀ before r after, calls = before ++ (.challenge, r) :: after → (.start, true) ∈ before

lemma inOrder_concat {h : Handler} {r : Bool} :
    InOrder (calls ++ [(h, r)]) ↔ InOrder calls ∧ (h = .challenge → (.start, true) ∈ calls) := by
  constructor
  · intro hall
    refine ⟨fun before r' after heq => hall before r' (after ++ [(h, r)]) (by simp [heq]), ?_⟩
    rintro rfl
    exact hall calls r [] rfl
  · rintro ⟨hcalls, hlast⟩ before r' after heq
    rcases List.eq_nil_or_concat after with rfl | ⟨after, c, rfl⟩
    · obtain ⟨rfl, hc⟩ := List.append_inj' heq rfl
      cases hc
      exact hlast rfl
    · have hsplit : calls ++ [(h, r)] = (before ++ (.challenge, r') :: after) ++ [c] := by
        simpa using heq
      exact hcalls before r' after (List.append_inj' hsplit rfl).1

end Order

lemma simHandler_ne_aka (flags : Flags) (state : ClientState) (u : Subtype) :
    simHandler flags state u ≠ .akaIdentity ∧ simHandler flags state u ≠ .akaChallenge := by
  fun_cases simHandler flags state u <;> simp

lemma simHandler_challenge_iff {flags : Flags} {state : ClientState} {u : Subtype} :
    simHandler flags state u = .challenge ↔
      flags.echallenge = false ∧ state = .start ∧ u = .challenge := by
  fun_cases simHandler flags state u <;> simp_all

def noFlags : Flags := ⟨false, false⟩

lemma simHandler_eq_challenge {state : ClientState} {t : Subtype} :
    simHandler noFlags state t = .challenge ↔ state = .start ∧ t = .challenge := by
  simp [simHandler_challenge_iff, noFlags]

def receive (lib : Libeap) (s : Exchange) (m : Request × Input) : Option Exchange :=
  some (s.sim lib noFlags m.1 m.2)

/-- A challenge that `respond_eap_sim` does not pass over. -/
def Request.AsksChallenge (req : Request) : Prop := req.eapId ≠ none ∧ req.subtype = some .challenge

/-- A challenge comes behind a start that returned 1, or before any other call, or right behind a
handler that returned 0. -/
def Expected (s : Exchange) (m : Request × Input) : Prop :=
  m.1.AsksChallenge → (.start, true) ∈ s.calls ∨ ∀ c ∈ s.calls.getLast?, c.2 = false

def StateOfLast (s : Exchange) : Prop :=
  s.client.rep.simState.getD .init = s.calls.getLast?.elim .init fun c => .ofResult c.2

section Steps
variable {lib : Libeap} {s t : Exchange} {m : Request × Input}

lemma receive_skip (lib : Libeap) (s : Exchange) (h : m.1.eapId = none ∨ m.1.subtype = none) :
    (s.sim lib noFlags m.1 m.2).calls = s.calls ∧
      (s.sim lib noFlags m.1 m.2).client.rep.simState.getD .init =
        s.client.rep.simState.getD .init := by
  obtain ⟨hcall, hstate, -, -⟩ := respond_skip lib (simHandler noFlags) .init m.2 s.client h
  exact ⟨by simp [Exchange.sim, Exchange.again, respondEapSim, hcall], hstate⟩

lemma receive_call (lib : Libeap) (s : Exchange) {u : Subtype} (hid : m.1.eapId ≠ none)
    (hu : m.1.subtype = some u) :
    ∃ h r y, simHandler noFlags (s.client.rep.simState.getD .init) u = h ∧
      h.answer lib m.1 m.2 (s.client.inState (s.client.rep.simState.getD .init)) = (r, y) ∧
      s.sim lib noFlags m.1 m.2 = s.again (y.encoded.inState (.ofResult r), some (h, r)) := by
  refine ⟨_, _, _, rfl, rfl, ?_⟩
  rw [Exchange.sim, respondEapSim, respond_call hid hu rfl rfl]

lemma message_cases (m : Request × Input) :
    (m.1.eapId = none ∨ m.1.subtype = none) ∨ ∃ u, m.1.eapId ≠ none ∧ m.1.subtype = some u := by
  cases hu : m.1.subtype with
  | none => exact Or.inl (Or.inr rfl)
  | some u =>
    by_cases hid : m.1.eapId = none
    · exact Or.inl (Or.inl hid)
    · exact Or.inr ⟨u, hid, rfl⟩

lemma StateOfLast.receive (h : StateOfLast s) (ht : receive lib s m = some t) : StateOfLast t := by
  cases ht
  rcases message_cases m with hskip | ⟨u, hid, hu⟩
  · obtain ⟨hcalls, hstate⟩ := receive_skip lib s hskip
    rw [StateOfLast, hcalls, hstate]
    exact h
  · obtain ⟨h, r, y, -, -, hsim⟩ := receive_call lib s hid hu
    simp [StateOfLast, hsim, Exchange.again, Client.inState]

lemma StateOfLast.start_iff (h : StateOfLast s) :
    s.client.rep.simState.getD .init = .start ↔ ¬ ∀ c ∈ s.calls.getLast?, c.2 = false := by
  rw [h]
  cases s.calls.getLast? with
  | none => simp
  | some c => cases hc : c.2 <;> simp [ClientState.ofResult, hc]

lemma inOrder_receive_iff (h : StateOfLast s) (hs : InOrder s.calls) (ht : receive lib s m = some t) :
    InOrder t.calls ↔ Expected s m := by
  cases ht
  rcases message_cases m with hskip | ⟨u, hid, hu⟩
  · obtain ⟨hcalls, -⟩ := receive_skip lib s hskip
    rw [hcalls]
    refine ⟨fun _ hask => ?_, fun _ => hs⟩
    rcases hskip with hid | hu
    · exact absurd hid hask.1
    · exact absurd (hu.symm.trans hask.2) (by simp)
  · obtain ⟨f, r, y, rfl, -, hsim⟩ := receive_call lib s hid hu
    have hcalls : (s.sim lib noFlags m.1 m.2).calls =
        s.calls ++ [(simHandler noFlags (s.client.rep.simState.getD .init) u, r)] := by
      rw [hsim]
      rfl
    rw [hcalls, inOrder_concat, simHandler_eq_challenge, h.start_iff]
    constructor
    · rintro ⟨-, hlast⟩ hask
      have huc : u = .challenge := Option.some.inj (hu.symm.trans hask.2)
      by_cases hzero : ∀ c ∈ s.calls.getLast?, c.2 = false
      · exact Or.inr hzero
      · exact Or.inl (hlast ⟨hzero, huc⟩)
    · intro hexp
      refine ⟨hs, ?_⟩
      rintro ⟨hstart, rfl⟩
      exact (hexp ⟨hid, hu⟩).resolve_right hstart

end Steps

/-- Nonce, version list and identity come from the messages `ms` and the user of the exchange. -/
structure Seeded (ms : List (Request × Input)) (x : Client) : Prop where
  nonce : ∃ m ∈ ms, x.keys.nonceMt = m.2.nonce
  versions : ∃ m ∈ ms, ∃ v, m.1.versionList = some v ∧ x.keys.versionList = v.bytes 2 (v.short 0)
  identity : x.rep.userName = some x.keys.identity

section Keys
variable {lib : Libeap} {ms : List (Request × Input)} {m : Request × Input} {x : Client}

lemma Seeded.of_eq {y : Client} (h : Seeded ms x) (hnonce : y.keys.nonceMt = x.keys.nonceMt)
    (hversions : y.keys.versionList = x.keys.versionList)
    (hidentity : y.keys.identity = x.keys.identity) (hname : y.rep.userName = x.rep.userName) :
    Seeded ms y :=
  ⟨hnonce ▸ h.nonce, hversions ▸ h.versions, by rw [hname, hidentity, h.identity]⟩

lemma Seeded.start (h : Seeded ms x) (hm : m ∈ ms) : Seeded ms (processEapStart m.1 m.2.nonce x).2 := by
  cases hv : m.1.versionList with
  | none =>
    simp only [processEapStart, hv]
    exact h.of_eq rfl rfl rfl rfl
  | some v =>
    simp only [processEapStart, hv]
    split_ifs
    · exact h.of_eq rfl rfl rfl rfl
    · exact h.of_eq rfl rfl rfl rfl
    · exact ⟨h.nonce, ⟨m, hm, v, hv, rfl⟩, h.identity⟩
    · simp only [Client.respondAs, cleanresp, h.identity]
      exact ⟨⟨m, hm, rfl⟩, ⟨m, hm, v, hv, rfl⟩, rfl⟩

lemma seeded_of_start (hm : m ∈ ms) (hok : (processEapStart m.1 m.2.nonce x).1 = true) :
    Seeded ms (processEapStart m.1 m.2.nonce x).2 := by
  cases hv : m.1.versionList with
  | none => simp [processEapStart, hv] at hok
  | some v =>
    simp only [processEapStart, hv] at hok ⊢
    split_ifs at hok ⊢
    cases hname : x.rep.userName with
    | none => simp [Client.respondAs, cleanresp, hname] at hok
    | some name =>
      simp only [Client.respondAs, cleanresp, hname]
      exact ⟨⟨m, hm, rfl⟩, ⟨m, hm, v, hv, rfl⟩, rfl⟩

lemma Seeded.process {h : Handler} {state : ClientState} {u : Subtype} (hx : Seeded ms x) (hm : m ∈ ms)
    (hh : simHandler noFlags state u = h) : Seeded ms (h.process lib m.1 m.2 x).2 := by
  cases h with
  | start => exact hx.start hm
  | challenge =>
    simp only [Handler.process, processEapChallenge]
    split_ifs
    · exact hx
    · exact hx
    · split
      · split
        · split <;> exact hx.of_eq rfl rfl rfl rfl
        · exact hx.of_eq rfl rfl rfl rfl
      · exact hx
  | notification => exact hx.of_eq rfl rfl rfl rfl
  | reauth =>
    simp only [Handler.process, processEapReauth]
    split_ifs <;> exact hx.of_eq rfl rfl rfl rfl
  | clientError => exact hx.of_eq rfl rfl rfl rfl
  | akaIdentity => exact absurd hh (simHandler_ne_aka noFlags state u).1
  | akaChallenge => exact absurd hh (simHandler_ne_aka noFlags state u).2

lemma Seeded.answer {h : Handler} {r : Bool} {y : Client}
    (hy : Seeded ms (h.process lib m.1 m.2 x).2) (hans : h.answer lib m.1 m.2 x = (r, y)) :
    Seeded ms y := by
  obtain rfl : (h.answer lib m.1 m.2 x).2 = y := by rw [hans]
  simp only [Handler.answer]
  split_ifs
  · exact hy.of_eq rfl rfl rfl rfl
  · exact hy

lemma seeded_receive {s t : Exchange} (hs : (.start, true) ∈ s.calls → Seeded ms s.client) (hm : m ∈ ms)
    (ht : receive lib s m = some t) (hstart : (.start, true) ∈ t.calls) : Seeded ms t.client := by
  cases ht
  rcases message_cases m with hskip | ⟨u, hid, hu⟩
  · obtain ⟨hcalls, -⟩ := receive_skip lib s hskip
    obtain ⟨-, -, hname, hkeys⟩ := respond_skip lib (simHandler noFlags) .init m.2
      s.client hskip
    rw [hcalls] at hstart
    exact (hs hstart).of_eq (congrArg Keys.nonceMt hkeys) (congrArg Keys.versionList hkeys)
      (congrArg Keys.identity hkeys) hname
  · obtain ⟨f, r, y, hf, hans, hsim⟩ := receive_call lib s hid hu
    rw [hsim] at hstart ⊢
    have hy : Seeded ms y := by
      rcases List.mem_append.mp hstart with hbefore | hnow
      · have hx : Seeded ms (s.client.inState (s.client.rep.simState.getD .init)) :=
          (hs hbefore).of_eq rfl rfl rfl rfl
        exact (hx.process hm hf).answer hans
      · obtain ⟨rfl, rfl⟩ : .start = f ∧ true = r := by simpa using hnow
        have hproc : processEapStart m.1 m.2.nonce
            (s.client.inState (s.client.rep.simState.getD .init)) = (true, y) := by
          simpa [Handler.answer, Handler.process, Handler.reportsError] using hans
        have := seeded_of_start hm (congrArg Prod.fst hproc)
        rwa [hproc] at this
    exact hy.of_eq rfl rfl rfl rfl

end Keys

/-- Over any messages of the server, challenges are processed only behind a start exactly if each
challenge is expected; behind a start, the inputs of the key derivation come from the exchange. -/
theorem challenges_behind_start (lib : Libeap) (rep : Response) (keys : Keys)
    (ms : List (Request × Input)) :
    (Always (receive lib) (fun s => InOrder s.calls) (Exchange.init rep keys) ms ↔
        Guarded (receive lib) Expected (Exchange.init rep keys) ms) ∧
      ∀ s, run (receive lib) (Exchange.init rep keys) ms = some s →
        (.start, true) ∈ s.calls → Seeded ms s.client := by
  constructor
  · have hinit : StateOfLast (Exchange.init rep keys) := rfl
    refine always_iff_guarded_of_invariant (I := StateOfLast) (fun s m t hs ht => hs.receive ht)
      (fun s m _ _ _ => ⟨_, rfl⟩) (fun s m t hs hord ht => inOrder_receive_iff hs hord ht) hinit ?_ ms
    intro before r after heq
    cases before <;> simp [Exchange.init] at heq
  · intro s hrun
    have hmem : Guarded (receive lib) (fun _ m => m ∈ ms) (Exchange.init rep keys) ms :=
      guarded_of_forall (fun m hm _ => hm) _
    refine run_invariant (I := fun s => (.start, true) ∈ s.calls → Seeded ms s.client)
      (fun s m t hs hm ht => seeded_receive hs hm ht) ?_ hmem hrun
    simp [Exchange.init]

def Octets.zero : Octets := ⟨0, fun _ => 0, Nat.zero_le 254⟩

def plainRequest (subtype : Subtype) : Request :=
  ⟨some 1, some subtype, none, false, false, false, some .zero, some .zero, none, none, none⟩

def cardResponse : Response :=
  ⟨0, some [], none, none, some .zero, some .zero, some .zero, some .zero, some .zero, some .zero,
    none, none, none, none, none, none, none⟩

def trustingLib : Libeap := ⟨fun _ => ([], []), fun _ => ([], []), fun _ _ _ => true, fun _ _ _ _ => 0⟩

def oldKeys : Keys := ⟨[], [42], [], [], [], 0, [], [], [], [], [], [], []⟩

/-- The nonce of the key derivation is what was in memory. -/
theorem challenge_behind_notification :
    ∃ s, run (receive trustingLib) (Exchange.init cardResponse oldKeys)
        [(plainRequest .notification, ⟨[], false⟩), (plainRequest .challenge, ⟨[], false⟩)] = some s ∧
      s.calls = [(.notification, true), (.challenge, true)] ∧ s.client.keys.nonceMt = [42] :=
  ⟨_, rfl, rfl, rfl⟩

end LdapTgen.EapClient
