import LdapTgen.EapClient
import LdapTgen.LabelledRun

/-! The identifiers of Access-Requests. `tRadius_accessRq` reserves a block of them on a counter that
the workers share, and `sendrecv_eap` counts on from the first one for as long as the server asks. -/
namespace LdapTgen.AccessIdentifiers
open LabelledRun EapClient

inductive AuthType
  | none
  | proprietary
  | sipChap
  | gppAka
  | digest
  | pap
  | eapSim
  | otp
  | eapTtls
  | eapAka
  | eapTls
  deriving DecidableEq, Repr

/-- The identifiers that `tRadius_accessRq` reserves. -/
def reserved : AuthType → ℕ
  | .eapSim => 4
  | .eapAka => 3
  | .eapTtls | .eapTls => 6
  | _ => 1

structure Access where
  authType : AuthType
  first : UInt8
  exchange : Exchange
  ended : Bool

def identifierAt (first : UInt8) (i : ℕ) : UInt8 := first + UInt8.ofNat i

def Access.block (a : Access) : List UInt8 :=
  (List.range (reserved a.authType)).map (identifierAt a.first)

structure Workers where
  id : UInt8
  accesses : List Access

/-- The steps of the workers, in any order: the locked part of `tRadius_accessRq`, followed by the first
packet when the attributes can be built, and what `send_packet` gives to the call of `sendrecv_eap`
number `k`: an EAP-SIM message, an EAP-AKA message or the end. -/
inductive Label
  | accessRq (authType : AuthType) (creditSessionAction : ℤ) (built : Bool) (rep : Response)
      (keys : Keys)
  | sim (k : ℕ) (req : Request) (input : Input)
  | aka (k : ℕ) (req : Request) (input : Input)
  | last (k : ℕ)

def update (s : Workers) (k : ℕ) (f : Access → Access) : Option Workers :=
  match s.accesses[k]? with
  | none => none
  | some a => if a.ended then none else some { s with accesses := s.accesses.set k (f a) }

def step (lib : Libeap) (flags : Flags) (s : Workers) : Label → Option Workers
  | .accessRq authType creditSessionAction built rep keys =>
      some
        { id := s.id + UInt8.ofNat (reserved authType)
          accesses :=
            if built ∧ (authType = .eapSim ∨ authType = .eapAka) ∧ creditSessionAction < 2 then
              s.accesses ++
                [⟨authType, s.id, Exchange.init { rep with id := s.id.toNat } keys, false⟩]
            else s.accesses }
  | .sim k req input => update s k fun a => { a with exchange := a.exchange.sim lib flags req input }
  | .aka k req input => update s k fun a => { a with exchange := a.exchange.aka lib flags req input }
  | .last k => update s k fun a => { a with ended := true }

def start : Workers := ⟨0, []⟩

/-- Each exchange stays in its block, so that exchanges with disjoint blocks share no identifier. -/
def Confined (s : Workers) : Prop :=
  (∀ a ∈ s.accesses, a.exchange.sent ⊆ a.block) ∧
    ∀ a ∈ s.accesses, ∀ b ∈ s.accesses, a.block.Disjoint b.block →
      a.exchange.sent.Disjoint b.exchange.sent

lemma confined_iff {s : Workers} : Confined s ↔ ∀ a ∈ s.accesses, a.exchange.sent ⊆ a.block := by
  refine ⟨fun h => h.1, fun h => ⟨h, fun a ha b hb hdisj id hida hidb => ?_⟩⟩
  exact hdisj (h a ha hida) (h b hb hidb)

def Fits (s : Workers) : Label → Prop
  | .sim k _ _ | .aka k _ _ =>
      ∀ a, s.accesses[k]? = some a → a.ended = false → a.exchange.sent.length < reserved a.authType
  | .accessRq _ _ _ _ _ | .last _ => True

section Packet
variable {lib : Libeap} {req : Request} {input : Input} {x : Client}

lemma process_id (h : Handler) : (h.process lib req input x).2.rep.id = x.rep.id := by
  cases h with
  | start =>
    simp only [Handler.process, processEapStart]
    split
    · rfl
    · split_ifs
      · rfl
      · rfl
      · rfl
      · split <;> rfl
  | challenge =>
    simp only [Handler.process, processEapChallenge]
    split_ifs
    · rfl
    · rfl
    · split
      · split
        · split <;> rfl
        · rfl
      · rfl
  | reauth =>
    simp only [Handler.process, processEapReauth]
    split_ifs <;> rfl
  | akaIdentity =>
    simp only [Handler.process, processEapAkaIdentity]
    split_ifs
    · rfl
    · split <;> rfl
  | akaChallenge =>
    simp only [Handler.process, processEapAkaChallenge]
    split
    · split
      · rfl
      · split
        · split
          · rfl
          · split
            · rfl
            · split <;> rfl
        · rfl
    · rfl
  | notification | clientError => rfl

lemma respond_id {handler : ClientState → Subtype → Handler} {first : ClientState} :
    (respond lib handler first req input x).1.rep.id = x.rep.id := by
  unfold respond
  split_ifs
  · rfl
  · split
    · rfl
    · simp only [Handler.answer]
      split_ifs <;> exact process_id _

end Packet

section Sent
variable {a : Access} {n : ℕ}

structure Consecutive (a : Access) (n : ℕ) : Prop where
  sent : a.exchange.sent = (List.range n).map (identifierAt a.first)
  id : a.exchange.client.rep.id + 1 = a.first.toNat + n

lemma identifierAt_inj {first : UInt8} {i j : ℕ} (hi : i < 256) (hj : j < 256)
    (h : identifierAt first i = identifierAt first j) : i = j := by
  have hij : UInt8.ofNat i = UInt8.ofNat j := add_left_cancel h
  have hval := congrArg UInt8.toNat hij
  simpa [Nat.mod_eq_of_lt hi, Nat.mod_eq_of_lt hj] using hval

lemma reserved_le (authType : AuthType) : reserved authType ≤ 6 := by
  cases authType <;> simp [reserved]

lemma Consecutive.subset_iff (h : Consecutive a n) :
    a.exchange.sent ⊆ a.block ↔ n ≤ reserved a.authType := by
  rw [h.sent, Access.block]
  constructor
  · intro hsub
    by_contra hlt
    have hmem : identifierAt a.first (reserved a.authType) ∈
        (List.range n).map (identifierAt a.first) :=
      List.mem_map_of_mem (List.mem_range.mpr (by omega))
    obtain ⟨i, hi, heq⟩ := List.mem_map.mp (hsub hmem)
    have hlt' := List.mem_range.mp hi
    have hle := reserved_le a.authType
    have := identifierAt_inj (by omega) (by omega) heq
    omega
  · intro hle id hid
    obtain ⟨i, hi, rfl⟩ := List.mem_map.mp hid
    exact List.mem_map_of_mem (List.mem_range.mpr ((List.mem_range.mp hi).trans_le hle))

lemma consecutive_init {authType : AuthType} {first : UInt8} {rep : Response} {keys : Keys} :
    Consecutive ⟨authType, first, Exchange.init { rep with id := first.toNat } keys, false⟩ 1 :=
  ⟨by simp [Exchange.init, identifierAt], rfl⟩

lemma Consecutive.again {r : Client × Option (Handler × Bool)} (h : Consecutive a n)
    (hid : r.1.rep.id = a.exchange.client.rep.id) :
    Consecutive { a with exchange := a.exchange.again r } (n + 1) where
  sent := by
    have hnext : UInt8.ofNat (r.1.rep.id + 1) = identifierAt a.first n := by
      rw [hid, h.id, UInt8.ofNat_add, UInt8.ofNat_toNat]
      rfl
    simp [Exchange.again, h.sent, hnext, List.range_succ]
  id := by
    have := h.id
    simp only [Exchange.again, hid]
    omega

end Sent

section Steps
variable {lib : Libeap} {flags : Flags} {s t : Workers} {e : Label}

def Counted (s : Workers) : Prop := ∀ a ∈ s.accesses, Consecutive a a.exchange.sent.length

lemma Consecutive.length_eq {a : Access} {n : ℕ} (h : Consecutive a n) :
    a.exchange.sent.length = n := by
  rw [h.sent]
  simp

lemma Consecutive.counted {a : Access} {n : ℕ} (h : Consecutive a n) :
    Consecutive a a.exchange.sent.length := h.length_eq ▸ h

lemma update_eq_some {k : ℕ} {f : Access → Access} :
    update s k f = some t ↔ ∃ a, s.accesses[k]? = some a ∧ a.ended = false ∧
      { s with accesses := s.accesses.set k (f a) } = t := by
  unfold update
  cases s.accesses[k]? with
  | none => simp
  | some a => cases ha : a.ended <;> simp [ha]

lemma update_forall {P : Access → Prop} {k : ℕ} {a b : Access} (hk : s.accesses[k]? = some a)
    (hs : ∀ c ∈ s.accesses, P c) : (∀ c ∈ s.accesses.set k b, P c) ↔ P b := by
  constructor
  · intro h
    obtain ⟨hlt, -⟩ := List.getElem?_eq_some_iff.mp hk
    exact h b (List.mem_set hlt b)
  · intro hb c hc
    rcases List.mem_or_eq_of_mem_set hc with hold | rfl
    · exact hs c hold
    · exact hb

lemma Consecutive.sim {a : Access} {n : ℕ} (h : Consecutive a n) (req : Request) (input : Input) :
    Consecutive { a with exchange := a.exchange.sim lib flags req input } (n + 1) :=
  h.again respond_id

lemma Consecutive.aka {a : Access} {n : ℕ} (h : Consecutive a n) (req : Request) (input : Input) :
    Consecutive { a with exchange := a.exchange.aka lib flags req input } (n + 1) :=
  h.again respond_id

lemma Counted.step (hs : Counted s) (ht : step lib flags s e = some t) : Counted t := by
  cases e with
  | accessRq authType creditSessionAction built rep keys =>
    cases ht
    intro a ha
    simp only at ha
    split_ifs at ha
    · rcases List.mem_append.mp ha with hold | hnew
      · exact hs a hold
      · cases List.mem_singleton.mp hnew
        exact consecutive_init.counted
    · exact hs a ha
  | sim k req input =>
    obtain ⟨a, hk, -, rfl⟩ := update_eq_some.mp ht
    exact (update_forall hk hs).mpr ((hs a (List.mem_of_getElem? hk)).sim req input).counted
  | aka k req input =>
    obtain ⟨a, hk, -, rfl⟩ := update_eq_some.mp ht
    exact (update_forall hk hs).mpr ((hs a (List.mem_of_getElem? hk)).aka req input).counted
  | last k =>
    obtain ⟨a, hk, -, rfl⟩ := update_eq_some.mp ht
    have ha := hs a (List.mem_of_getElem? hk)
    exact (update_forall hk hs).mpr ⟨ha.sent, ha.id⟩

lemma confined_update {k n : ℕ} {a b : Access} (hk : s.accesses[k]? = some a) (hconf : Confined s)
    (hb : Consecutive b n) :
    Confined { s with accesses := s.accesses.set k b } ↔ n ≤ reserved b.authType := by
  rw [confined_iff, update_forall hk (confined_iff.mp hconf), hb.subset_iff]

lemma confined_step_iff (hs : Counted s) (hconf : Confined s) (ht : step lib flags s e = some t) :
    Confined t ↔ Fits s e := by
  cases e with
  | accessRq authType creditSessionAction built rep keys =>
    cases ht
    refine ⟨fun _ => trivial, fun _ => confined_iff.mpr fun a ha => ?_⟩
    simp only at ha
    split_ifs at ha
    · rcases List.mem_append.mp ha with hold | hnew
      · exact hconf.1 a hold
      · cases List.mem_singleton.mp hnew
        refine consecutive_init.subset_iff.mpr ?_
        cases authType <;> simp [reserved]
    · exact hconf.1 a ha
  | sim k req input =>
    obtain ⟨a, hk, hgo, rfl⟩ := update_eq_some.mp ht
    rw [confined_update hk hconf ((hs a (List.mem_of_getElem? hk)).sim req input)]
    simp [Fits, hk, hgo]
  | aka k req input =>
    obtain ⟨a, hk, hgo, rfl⟩ := update_eq_some.mp ht
    rw [confined_update hk hconf ((hs a (List.mem_of_getElem? hk)).aka req input)]
    simp [Fits, hk, hgo]
  | last k =>
    obtain ⟨a, hk, -, rfl⟩ := update_eq_some.mp ht
    have ha := hs a (List.mem_of_getElem? hk)
    have hend : Consecutive { a with ended := true } a.exchange.sent.length := ⟨ha.sent, ha.id⟩
    refine ⟨fun _ => trivial, fun _ => ?_⟩
    exact (confined_update hk hconf hend).mpr
      (ha.subset_iff.mp (hconf.1 a (List.mem_of_getElem? hk)))

lemma step_defined (h : ¬ Fits s e) : ∃ t, step lib flags s e = some t := by
  cases e with
  | accessRq _ _ _ _ _ | last _ => exact absurd trivial h
  | sim k _ _ | aka k _ _ =>
    obtain ⟨a, hk, hgo, -⟩ : ∃ a, s.accesses[k]? = some a ∧ a.ended = false ∧
        reserved a.authType ≤ a.exchange.sent.length := by
      simpa [Fits] using h
    exact ⟨_, update_eq_some.mpr ⟨a, hk, hgo, rfl⟩⟩

end Steps

/-- Along any interleaving of the workers and any behaviour of the server, every exchange stays in its
block exactly if no message comes to an exchange whose block is used up: an EAP-SIM exchange gets at
most three messages, an EAP-AKA exchange at most two. -/
theorem blocks_kept_iff (lib : Libeap) (flags : Flags) (es : List Label) :
    Always (step lib flags) Confined start es ↔ Guarded (step lib flags) Fits start es := by
  refine always_iff_guarded_of_invariant (I := Counted) (fun s e t hs ht => hs.step ht)
    (fun s e _ _ h => step_defined h) (fun s e t hs hconf ht => confined_step_iff hs hconf ht)
    ?_ ?_ es
  · simp [Counted, start]
  · simp [Confined, start]

def anyRequest : Request :=
  ⟨none, none, none, false, false, false, none, none, none, none, none⟩

def anyResponse : Response :=
  ⟨0, none, none, none, none, none, none, none, none, none, none, none, none, none, none, none, none⟩

def anyKeys : Keys := ⟨[], [], [], [], [], 0, [], [], [], [], [], [], []⟩

def anyLib : Libeap := ⟨fun _ => ([], []), fun _ => ([], []), fun _ _ _ => false, fun _ _ _ _ => 0⟩

/-- Two EAP-SIM exchanges, to the first of which the server sends four messages. -/
def fourMessages : List Label :=
  [.accessRq .eapSim 0 true anyResponse anyKeys, .accessRq .eapSim 0 true anyResponse anyKeys,
    .sim 0 anyRequest ⟨[], false⟩, .sim 0 anyRequest ⟨[], false⟩, .sim 0 anyRequest ⟨[], false⟩,
    .sim 0 anyRequest ⟨[], false⟩]

/-- The blocks are disjoint, and both exchanges use the identifier 4. -/
theorem identifier_of_next_block :
    ∃ s, run (step anyLib ⟨false, false⟩) start fourMessages = some s ∧
      s.accesses.map (·.block) = [[0, 1, 2, 3], [4, 5, 6, 7]] ∧
      s.accesses.map (·.exchange.sent) = [[0, 1, 2, 3, 4], [4]] :=
  ⟨_, rfl, rfl, rfl⟩

end LdapTgen.AccessIdentifiers
