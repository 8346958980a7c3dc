import LdapTgen.LabelledRun

/-! The identifiers of RADIUS messages. Each client takes them from a block of its own; the blocks come
from the counter `ident`, which all clients share under `identMutex`. -/
namespace LdapTgen.RadiusIdentifiers
open LabelledRun

def nextIdent (ident : UInt8) : UInt8 :=
  let ident := ident + 6
  if ident = 252 then 0 else ident

def blockOver (nextRadiusIdentifier : UInt8) : Prop :=
  nextRadiusIdentifier = 0 ∨ nextRadiusIdentifier % 6 = 5

instance (n : UInt8) : Decidable (blockOver n) := inferInstanceAs (Decidable (_ ∨ _))

/-- The locked part of `radius_client_get_id`: the identifier, the client's counter and `ident`. -/
def takeId (nextRadiusIdentifier ident : UInt8) : UInt8 × UInt8 × UInt8 :=
  if blockOver nextRadiusIdentifier then (ident, ident + 1, nextIdent ident)
  else (nextRadiusIdentifier, nextRadiusIdentifier + 1, ident)

/-- All clients, with the starts of the blocks in the order of their allocation, the number of the
block last allocated to each client, and the identifiers handed out, each with the number of the block
its client had then. -/
structure Clients (ι : Type) where
  ident : UInt8
  nextRadiusIdentifier : ι → UInt8
  blocks : List UInt8
  block : ι → Option ℕ
  handed : List (ℕ × UInt8)

variable {ι : Type} [DecidableEq ι]

/-- `radius_client_get_id` called by the client `i`. -/
def getId (s : Clients ι) (i : ι) : Option (Clients ι) :=
  let (id, next, ident) := takeId (s.nextRadiusIdentifier i) s.ident
  let newBlock := blockOver (s.nextRadiusIdentifier i)
  let block := if newBlock then some s.blocks.length else s.block i
  some
    { ident := ident
      nextRadiusIdentifier := Function.update s.nextRadiusIdentifier i next
      blocks := if newBlock then s.blocks ++ [s.ident] else s.blocks
      block := Function.update s.block i block
      handed := s.handed ++ block.toList.map fun b => (b, id) }

def start : Clients ι := ⟨0, fun _ => 0, [], fun _ => none, []⟩

def base (b : ℕ) : ℕ := 6 * (b % 42)

lemma base_le (b : ℕ) : base b ≤ 246 := by
  unfold base
  omega

lemma base_inj {b c o p : ℕ} (ho : o < 5) (hp : p < 5) (hbc : b < c + 42) (hcb : c < b + 42)
    (h : base b + o = base c + p) : b = c := by
  unfold base at h
  omega

lemma nextIdent_base {ident : UInt8} {b : ℕ} (h : ident.toNat = base b) :
    (nextIdent ident).toNat = base (b + 1) := by
  have hadd : (ident + 6).toNat = base b + 6 := by
    have := base_le b
    rw [UInt8.toNat_add, h]
    simp only [UInt8.reduceToNat]
    omega
  by_cases hend : ident + 6 = 252
  · have hval : base b + 6 = 252 := by
      rw [← hadd, hend]
      rfl
    simp only [nextIdent, hend, if_true, base, UInt8.toNat_zero] at hval ⊢
    omega
  · have hval : base b + 6 ≠ 252 := by
      intro hval
      exact hend (UInt8.toNat_inj.mp (hadd.trans hval))
    simp only [nextIdent, hend, if_false, hadd, base] at hval ⊢
    omega

lemma toNat_succ {n : UInt8} {k : ℕ} (h : n.toNat = k) (hk : k < 255) : (n + 1).toNat = k + 1 := by
  rw [UInt8.toNat_add, h]
  simp only [UInt8.reduceToNat]
  omega

lemma blockOver_iff {n : UInt8} {b k : ℕ} (h : n.toNat = base b + k) (hpos : 0 < k) (hk : k ≤ 5) :
    blockOver n ↔ k = 5 := by
  have hmod : n % 6 = 5 ↔ k = 5 := by
    rw [← UInt8.toNat_inj, UInt8.toNat_mod, h]
    simp only [UInt8.reduceToNat, base]
    omega
  have hzero : n ≠ 0 := by
    rintro rfl
    rw [UInt8.toNat_zero] at h
    omega
  simp [blockOver, hzero, hmod]

/-- A client without a block has handed out nothing; the counter of any other one stands in its own
block, behind all that was handed out of it. -/
structure Allocated (s : Clients ι) : Prop where
  ident_eq : s.ident.toNat = base s.blocks.length
  block_start : ∀ b, (h : b < s.blocks.length) → s.blocks[b].toNat = base b
  unused : ∀ i, s.block i = none → s.nextRadiusIdentifier i = 0
  counter : ∀ i b, s.block i = some b → b < s.blocks.length ∧
    ∃ k, 0 < k ∧ k ≤ 5 ∧ (s.nextRadiusIdentifier i).toNat = base b + k ∧
      ∀ id, (b, id) ∈ s.handed → id.toNat < base b + k
  owner : ∀ i j b, s.block i = some b → s.block j = some b → i = j
  handed_mem : ∀ b id, (b, id) ∈ s.handed → b < s.blocks.length ∧
    base b ≤ id.toNat ∧ id.toNat < base b + 5
  handed_nodup : s.handed.Nodup

omit [DecidableEq ι] in
lemma allocated_start : Allocated (start (ι := ι)) where
  ident_eq := rfl
  block_start := by
    intro b h
    exact absurd h (Nat.not_lt_zero b)
  unused := fun _ _ => rfl
  counter := by
    intro i b h
    cases h
  owner := by
    intro i j b h
    cases h
  handed_mem := by
    intro b id h
    cases h
  handed_nodup := List.nodup_nil

section Handed
variable {s : Clients ι}

omit [DecidableEq ι] in
lemma Allocated.notMem_next (h : Allocated s) (id : UInt8) : (s.blocks.length, id) ∉ s.handed :=
  fun hmem => lt_irrefl _ (h.handed_mem _ _ hmem).1

omit [DecidableEq ι] in
lemma Allocated.block_ne_next (h : Allocated s) (i : ι) : s.block i ≠ some s.blocks.length :=
  fun hi => lt_irrefl _ (h.counter i _ hi).1

lemma mem_handed_append {handed : List (ℕ × UInt8)} {b c : ℕ} {id x : UInt8} :
    (b, id) ∈ handed ++ [(c, x)] ↔ (b, id) ∈ handed ∨ b = c ∧ id = x := by
  simp

omit [DecidableEq ι] in
lemma Allocated.nodup_append (h : Allocated s) {r : ℕ × UInt8} (hr : r ∉ s.handed) :
    (s.handed ++ [r]).Nodup := by
  rw [← List.concat_eq_append]
  exact h.handed_nodup.concat hr

omit [DecidableEq ι] in
lemma Allocated.counter_append (h : Allocated s) {j : ι} {b c : ℕ} {x : UInt8}
    (hj : s.block j = some b) (hbc : b ≠ c) :
    ∃ k, 0 < k ∧ k ≤ 5 ∧ (s.nextRadiusIdentifier j).toNat = base b + k ∧
      ∀ id, (b, id) ∈ s.handed ++ [(c, x)] → id.toNat < base b + k := by
  obtain ⟨-, k, hpos, hk, hnext, hbelow⟩ := h.counter j b hj
  refine ⟨k, hpos, hk, hnext, fun id hid => ?_⟩
  rcases mem_handed_append.mp hid with hold | ⟨rfl, -⟩
  · exact hbelow id hold
  · exact absurd rfl hbc

end Handed

lemma Allocated.newBlock {s : Clients ι} {i : ι} (h : Allocated s) :
    Allocated
      { ident := nextIdent s.ident
        nextRadiusIdentifier := Function.update s.nextRadiusIdentifier i (s.ident + 1)
        blocks := s.blocks ++ [s.ident]
        block := Function.update s.block i (some s.blocks.length)
        handed := s.handed ++ [(s.blocks.length, s.ident)] } where
  ident_eq := by
    rw [List.length_append]
    exact nextIdent_base h.ident_eq
  block_start := by
    intro b hb
    rw [List.length_append, List.length_singleton] at hb
    by_cases hlast : b < s.blocks.length
    · rw [List.getElem_append_left hlast]
      exact h.block_start b hlast
    · obtain rfl : b = s.blocks.length := by omega
      simpa using h.ident_eq
  unused := by
    intro j hj
    by_cases hji : j = i
    · simp [hji] at hj
    · simp only [Function.update_of_ne hji] at hj ⊢
      exact h.unused j hj
  counter := by
    intro j b hj
    rw [List.length_append, List.length_singleton]
    by_cases hji : j = i
    · obtain rfl : s.blocks.length = b := by simpa [hji] using hj
      refine ⟨by omega, 1, by omega, by omega, ?_, fun id hid => ?_⟩
      · have := base_le s.blocks.length
        simpa [hji] using toNat_succ h.ident_eq (by omega)
      · rcases mem_handed_append.mp hid with hold | ⟨-, rfl⟩
        · exact absurd hold (h.notMem_next id)
        · rw [h.ident_eq]
          omega
    · simp only [Function.update_of_ne hji] at hj ⊢
      have hb := (h.counter j b hj).1
      exact ⟨by omega, h.counter_append hj (by omega)⟩
  owner := by
    intro j k b hj hk
    by_cases hji : j = i <;> by_cases hki : k = i
    · rw [hji, hki]
    · obtain rfl : s.blocks.length = b := by simpa [hji] using hj
      exact absurd (by simpa [hki] using hk) (h.block_ne_next k)
    · obtain rfl : s.blocks.length = b := by simpa [hki] using hk
      exact absurd (by simpa [hji] using hj) (h.block_ne_next j)
    · simp only [Function.update_of_ne hji, Function.update_of_ne hki] at hj hk
      exact h.owner j k b hj hk
  handed_mem := by
    intro b id hid
    rw [List.length_append, List.length_singleton]
    rcases mem_handed_append.mp hid with hold | ⟨rfl, rfl⟩
    · obtain ⟨hb, hle, hlt⟩ := h.handed_mem b id hold
      exact ⟨by omega, hle, hlt⟩
    · rw [h.ident_eq]
      exact ⟨by omega, le_rfl, by omega⟩
  handed_nodup := h.nodup_append (h.notMem_next s.ident)

lemma Allocated.sameBlock {s : Clients ι} {i : ι} {b : ℕ} (h : Allocated s)
    (hblock : s.block i = some b) (hin : ¬ blockOver (s.nextRadiusIdentifier i)) :
    Allocated { s with
      nextRadiusIdentifier :=
        Function.update s.nextRadiusIdentifier i (s.nextRadiusIdentifier i + 1)
      handed := s.handed ++ [(b, s.nextRadiusIdentifier i)] } := by
  obtain ⟨hb, k, hpos, hk, hnext, hbelow⟩ := h.counter i b hblock
  have hk5 : k ≠ 5 := fun h5 => hin ((blockOver_iff hnext hpos hk).mpr h5)
  have hbase := base_le b
  have hfresh : (b, s.nextRadiusIdentifier i) ∉ s.handed := by
    intro hmem
    have := hbelow _ hmem
    omega
  exact
    { ident_eq := h.ident_eq
      block_start := h.block_start
      unused := by
        intro j hj
        have hji : j ≠ i := by
          rintro rfl
          rw [hblock] at hj
          cases hj
        simpa [hji] using h.unused j hj
      counter := by
        intro j c hj
        by_cases hji : j = i
        · obtain rfl : b = c := by simpa [hji, hblock] using hj
          refine ⟨hb, k + 1, by omega, by omega, ?_, fun id hid => ?_⟩
          · simp only [hji, Function.update_self]
            rw [toNat_succ hnext (by omega), Nat.add_assoc]
          · rcases mem_handed_append.mp hid with hold | ⟨-, rfl⟩
            · have := hbelow id hold
              omega
            · omega
        · have hcb : c ≠ b := by
            rintro rfl
            exact hji (h.owner j i c hj hblock)
          simp only [Function.update_of_ne hji]
          exact ⟨(h.counter j c hj).1, h.counter_append hj hcb⟩
      owner := h.owner
      handed_mem := by
        intro c id hid
        rcases mem_handed_append.mp hid with hold | ⟨rfl, rfl⟩
        · exact h.handed_mem c id hold
        · exact ⟨hb, by omega, by omega⟩
      handed_nodup := h.nodup_append hfresh }

lemma Allocated.getId {s t : Clients ι} {i : ι} (h : Allocated s) (ht : getId s i = some t) :
    Allocated t := by
  by_cases hnew : blockOver (s.nextRadiusIdentifier i)
  · have hget : some t = some
        { ident := nextIdent s.ident
          nextRadiusIdentifier := Function.update s.nextRadiusIdentifier i (s.ident + 1)
          blocks := s.blocks ++ [s.ident]
          block := Function.update s.block i (some s.blocks.length)
          handed := s.handed ++ [(s.blocks.length, s.ident)] } := by
      rw [← ht]
      simp [RadiusIdentifiers.getId, takeId, hnew]
    rw [Option.some.inj hget]
    exact h.newBlock
  · cases hblock : s.block i with
    | none => exact absurd (Or.inl (h.unused i hblock)) hnew
    | some b =>
      have hkeep : Function.update s.block i (some b) = s.block := by
        rw [← hblock, Function.update_eq_self]
      have hget : some t = some { s with
          nextRadiusIdentifier :=
            Function.update s.nextRadiusIdentifier i (s.nextRadiusIdentifier i + 1)
          handed := s.handed ++ [(b, s.nextRadiusIdentifier i)] } := by
        rw [← ht]
        simp [RadiusIdentifiers.getId, takeId, hnew, hblock, hkeep]
      rw [Option.some.inj hget]
      exact h.sameBlock hblock hnew

/-- Whatever the clients and the order of their calls: `ident` is a multiple of 6 below 252, each
identifier is one of the first five of the block its client had, and the identifiers out of 42 blocks
allocated one after the other differ. -/
theorem identifiers_apart (calls : List ι) (s : Clients ι) (h : run getId start calls = some s) :
    (6 ∣ s.ident.toNat ∧ s.ident.toNat < 252) ∧
      (∀ b id, (b, id) ∈ s.handed → ∃ first, s.blocks[b]? = some first ∧
        first.toNat ≤ id.toNat ∧ id.toNat < first.toNat + 5) ∧
      ∀ k, ((s.handed.filter fun r => k ≤ r.1 ∧ r.1 < k + 42).map Prod.snd).Nodup := by
  have hs : Allocated s := run_preserves (fun _ _ _ hI ht => hI.getId ht) allocated_start h
  refine ⟨?_, ?_, fun k => ?_⟩
  · have := base_le s.blocks.length
    rw [hs.ident_eq]
    exact ⟨⟨_, rfl⟩, by omega⟩
  · intro b id hid
    obtain ⟨hb, hle, hlt⟩ := hs.handed_mem b id hid
    refine ⟨s.blocks[b], List.getElem?_eq_getElem hb, ?_⟩
    rw [hs.block_start b hb]
    exact ⟨hle, hlt⟩
  · refine (hs.handed_nodup.filter _).map_on ?_
    rintro ⟨b, id⟩ hb ⟨c, id'⟩ hc (rfl : id = id')
    simp only [List.mem_filter, decide_eq_true_eq] at hb hc
    obtain ⟨-, hble, hblt⟩ := hs.handed_mem b id hb.1
    obtain ⟨-, hcle, hclt⟩ := hs.handed_mem c id hc.1
    have hbc : b = c := base_inj (o := id.toNat - base b) (p := id.toNat - base c) (by omega) (by omega)
      (by omega) (by omega) (by omega)
    rw [hbc]

/-- The sixth call of a client opens a second block, behind the one of the other client. -/
theorem identifiers_of_two_clients : ∃ s,
    run getId start [true, true, true, false, true, true, true] = some s ∧
      s.handed = [(0, 0), (0, 1), (0, 2), (1, 6), (0, 3), (0, 4), (2, 12)] ∧
      ∀ k, ((s.handed.filter fun r => k ≤ r.1 ∧ r.1 < k + 42).map Prod.snd).Nodup :=
  ⟨_, rfl, rfl, (identifiers_apart [true, true, true, false, true, true, true] _ rfl).2.2⟩

end LdapTgen.RadiusIdentifiers
