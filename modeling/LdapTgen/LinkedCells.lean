import Mathlib

/-! Singly linked lists in a heap of cells, and the loops of C programs that walk over them with the
cell before the current one at hand. A read or a write of a cell that is not allocated has no result. -/
namespace LdapTgen.LinkedCells

variable {β σ : Type}

structure Cell (β : Type) where
  next : Option ℕ
  val : β

/-- The allocated cells by address, none of them at `fresh` or above, so that no walk over distinct
cells is longer than `fresh`. Addresses are not used twice. -/
structure Heap (β : Type) where
  cell : ℕ → Option (Cell β)
  fresh : ℕ
  bound : ∀ a, fresh ≤ a → cell a = none

namespace Heap

def empty : Heap β := ⟨fun _ => none, 0, fun _ _ => rfl⟩

lemma bound_update (h : Heap β) {a : ℕ} {c : Cell β} (hc : h.cell a = some c) (d : Option (Cell β)) :
    ∀ b, h.fresh ≤ b → Function.update h.cell a d b = none := by
  intro b hb
  have hne : b ≠ a := by
    rintro rfl
    rw [h.bound b hb] at hc
    cases hc
  rw [Function.update_of_ne hne]
  exact h.bound b hb

lemma bound_alloc (h : Heap β) (d : Option (Cell β)) :
    ∀ b, h.fresh + 1 ≤ b → Function.update h.cell h.fresh d b = none := by
  intro b hb
  rw [Function.update_of_ne (by omega)]
  exact h.bound b (by omega)

def alloc (h : Heap β) (c : Cell β) : ℕ × Heap β :=
  (h.fresh, ⟨Function.update h.cell h.fresh (some c), h.fresh + 1, h.bound_alloc _⟩)

def modify (h : Heap β) (a : ℕ) (f : Cell β → Option (Cell β)) : Option (Heap β) :=
  match hc : h.cell a with
  | none => none
  | some c => some ⟨Function.update h.cell a (f c), h.fresh, h.bound_update hc _⟩

def setNext (h : Heap β) (a : ℕ) (n : Option ℕ) : Option (Heap β) :=
  h.modify a fun c => some { c with next := n }

def setVal (h : Heap β) (a : ℕ) (v : β) : Option (Heap β) :=
  h.modify a fun c => some { c with val := v }

def free (h : Heap β) (a : ℕ) : Option (Heap β) :=
  h.modify a fun _ => none

end Heap

def chain (h : Heap β) : ℕ → Option ℕ → Option (List β)
  | _, none => some []
  | 0, some _ => none
  | n + 1, some a => do
      let c ← h.cell a
      some (c.val :: (← chain h n c.next))

/-- The cell `entry` is taken out of the list that starts at `head`, behind the cell `prev`. -/
def unlink (h : Heap β) (head prev : Option ℕ) (entry : ℕ) : Option (Heap β × Option ℕ) := do
  let c ← h.cell entry
  match prev with
  | some q => some (← h.setNext q c.next, head)
  | none => some (h, c.next)

/-- Each value is visited, and may be changed by it; the cells whose visit says so are unlinked and
freed. -/
def sweepLoop (visit : σ → β → Option (σ × β × Bool)) :
    ℕ → Heap β → Option ℕ → Option ℕ → Option ℕ → σ → Option (Heap β × Option ℕ × σ)
  | _, h, head, _, none, s => some (h, head, s)
  | 0, _, _, _, some _, _ => none
  | n + 1, h, head, prev, some entry, s => do
      let c ← h.cell entry
      let (s, v, removed) ← visit s c.val
      let h ← h.setVal entry v
      if removed then
        let (h, head) ← unlink h head prev entry
        let h ← h.free entry
        sweepLoop visit n h head prev c.next s
      else sweepLoop visit n h head (some entry) c.next s

def sweep (visit : σ → β → Option (σ × β × Bool)) (h : Heap β) (head : Option ℕ) (s : σ) :
    Option (Heap β × Option ℕ × σ) :=
  sweepLoop visit h.fresh h head none head s

/-- The first cell whose value satisfies `p`, with the one before it. -/
def search (p : β → Bool) (h : Heap β) :
    ℕ → Option ℕ → Option ℕ → Option (Option ℕ × Option ℕ)
  | _, prev, none => some (prev, none)
  | 0, _, some _ => none
  | n + 1, prev, some entry => do
      let c ← h.cell entry
      if p c.val then some (prev, some entry) else search p h n (some entry) c.next

/-- The first cell whose value satisfies `p` is unlinked and freed. -/
def removeFirst (p : β → Bool) (h : Heap β) (head : Option ℕ) :
    Option (Heap β × Option ℕ × Bool) := do
  let (prev, found) ← search p h h.fresh none head
  match found with
  | none => some (h, head, false)
  | some entry =>
      let (h, head) ← unlink h head prev entry
      let h ← h.free entry
      some (h, head, true)

/-- The last cell of the list at `entry`, with the one before it. -/
def lastLoop (h : Heap β) : ℕ → Option ℕ → ℕ → Option (Option ℕ × ℕ)
  | 0, _, _ => none
  | n + 1, prev, entry => do
      let c ← h.cell entry
      match c.next with
      | none => some (prev, entry)
      | some next => lastLoop h n (some entry) next

def dropLast (h : Heap β) (entry : ℕ) : Option (Heap β) := do
  let (prev, last) ← lastLoop h h.fresh none entry
  match prev with
  | none => some h
  | some q =>
      let h ← h.setNext q none
      h.free last

def freeLoop : ℕ → Heap β → Option ℕ → Option (Heap β)
  | _, h, none => some h
  | 0, _, some _ => none
  | n + 1, h, some entry => do
      let c ← h.cell entry
      let h ← h.free entry
      freeLoop n h c.next

/-- The cells from `p` to `q` are at the addresses of `l` and hold its values. -/
def Seg (h : Heap β) : Option ℕ → List (ℕ × β) → Option ℕ → Prop
  | p, [], q => p = q
  | p, x :: l, q => p = some x.1 ∧ ∃ n, h.cell x.1 = some ⟨n, x.2⟩ ∧ Seg h n l q

/-- The list that starts at `head` holds the values `vs`, in distinct cells. -/
def Holds (h : Heap β) (head : Option ℕ) (vs : List β) : Prop :=
  ∃ l : List (ℕ × β), Seg h head l none ∧ (l.map Prod.fst).Nodup ∧ l.map Prod.snd = vs

def sweepList (visit : σ → β → Option (σ × β × Bool)) : σ → List β → Option (List β × σ)
  | s, [] => some ([], s)
  | s, v :: vs => do
      let (s, v, removed) ← visit s v
      let (vs, s) ← sweepList visit s vs
      some (if removed then vs else v :: vs, s)

section Heaps
variable {h h' : Heap β} {a : ℕ} {c : Cell β} {f : Cell β → Option (Cell β)}

lemma modify_of_cell (hc : h.cell a = some c) : ∃ h', h.modify a f = some h' ∧
    h'.cell = Function.update h.cell a (f c) ∧ h'.fresh = h.fresh := by
  unfold Heap.modify
  split
  · simp_all
  · rename_i d hd
    obtain rfl : c = d := Option.some.inj (hc.symm.trans hd)
    exact ⟨_, rfl, rfl, rfl⟩

lemma modify_of_none (hc : h.cell a = none) : h.modify a f = none := by
  unfold Heap.modify
  split
  · rfl
  · simp_all

lemma lt_fresh (hc : h.cell a = some c) : a < h.fresh := by
  by_contra hlt
  rw [h.bound a (by omega)] at hc
  cases hc

end Heaps

section Segments
variable {h h' : Heap β} {p q r : Option ℕ} {l m : List (ℕ × β)} {x : ℕ × β} {n : Option ℕ}

lemma Seg.congr (hl : Seg h p l q) (hsame : ∀ x ∈ l, h'.cell x.1 = h.cell x.1) : Seg h' p l q := by
  induction l generalizing p with
  | nil => exact hl
  | cons x l ih =>
    obtain ⟨hp, n, hc, hrest⟩ := hl
    refine ⟨hp, n, ?_, ih hrest fun y hy => hsame y (List.mem_cons_of_mem x hy)⟩
    rw [hsame x List.mem_cons_self, hc]

lemma Seg.update (hl : Seg h p l q) {a : ℕ} {d : Option (Cell β)}
    (hcell : h'.cell = Function.update h.cell a d) (ha : a ∉ l.map Prod.fst) : Seg h' p l q := by
  refine hl.congr fun x hx => ?_
  rw [hcell, Function.update_of_ne]
  rintro rfl
  exact ha (List.mem_map_of_mem hx)

lemma seg_append : Seg h p (l ++ m) q ↔ ∃ r, Seg h p l r ∧ Seg h r m q := by
  induction l generalizing p with
  | nil => simp [Seg]
  | cons x l ih =>
    simp only [List.cons_append, Seg, ih]
    constructor
    · rintro ⟨hp, n, hc, r, hl, hm⟩
      exact ⟨r, ⟨hp, n, hc, hl⟩, hm⟩
    · rintro ⟨r, ⟨hp, n, hc, hl⟩, hm⟩
      exact ⟨hp, n, hc, r, hl, hm⟩

lemma seg_snoc : Seg h p (l ++ [x]) q ↔ Seg h p l (some x.1) ∧ h.cell x.1 = some ⟨q, x.2⟩ := by
  rw [seg_append]
  simp only [Seg]
  constructor
  · rintro ⟨r, hl, rfl, n, hc, rfl⟩
    exact ⟨hl, hc⟩
  · rintro ⟨hl, hc⟩
    exact ⟨_, hl, rfl, q, hc, rfl⟩

lemma Seg.cell (hl : Seg h p l q) (hx : x ∈ l) : ∃ n, h.cell x.1 = some ⟨n, x.2⟩ := by
  induction l generalizing p with
  | nil => cases hx
  | cons y l ih =>
    obtain ⟨_, n, hc, hrest⟩ := hl
    rcases List.mem_cons.mp hx with rfl | hx
    · exact ⟨n, hc⟩
    · exact ih hrest hx

lemma Seg.length_le (hl : Seg h p l q) (hnodup : (l.map Prod.fst).Nodup) : l.length ≤ h.fresh := by
  have hsub : l.map Prod.fst ⊆ List.range h.fresh := by
    intro a ha
    obtain ⟨x, hx, rfl⟩ := List.mem_map.mp ha
    obtain ⟨n, hc⟩ := hl.cell hx
    exact List.mem_range.mpr (lt_fresh hc)
  have hle := (hnodup.subperm hsub).length_le
  rwa [List.length_map, List.length_range] at hle

lemma Seg.redirect (hl : Seg h p (l ++ [x]) q) (hx : x.1 ∉ l.map Prod.fst)
    (hcell : h'.cell = Function.update h.cell x.1 (some ⟨n, x.2⟩)) : Seg h' p (l ++ [x]) n := by
  obtain ⟨hl, -⟩ := seg_snoc.mp hl
  refine seg_snoc.mpr ⟨hl.update hcell hx, ?_⟩
  rw [hcell, Function.update_self]

lemma chain_of_seg {k : ℕ} (hl : Seg h p l none) (hk : l.length ≤ k) :
    chain h k p = some (l.map Prod.snd) := by
  induction l generalizing p k with
  | nil =>
    obtain rfl : p = none := hl
    cases k <;> rfl
  | cons x l ih =>
    obtain ⟨rfl, n, hc, hrest⟩ := hl
    cases k with
    | zero => simp at hk
    | succ k => simp [chain, hc, ih hrest (by simpa using hk)]

end Segments

section Unlink
variable {h : Heap β} {head n : Option ℕ} {done : List (ℕ × β)} {a : ℕ} {v : β}

lemma unlink_of_seg (hdone : Seg h head done (some a)) (hc : h.cell a = some ⟨n, v⟩)
    (hnodup : (done.map Prod.fst).Nodup) :
    ∃ h' head', unlink h head (done.getLast?.map Prod.fst) a = some (h', head') ∧
      Seg h' head' done n ∧ h'.fresh = h.fresh ∧ ∀ b ∉ done.map Prod.fst, h'.cell b = h.cell b := by
  rcases List.eq_nil_or_concat done with rfl | ⟨l, x, rfl⟩
  · exact ⟨h, n, by simp [unlink, hc], rfl, rfl, fun _ _ => rfl⟩
  · rw [List.concat_eq_append] at hdone hnodup ⊢
    obtain ⟨-, hx⟩ := seg_snoc.mp hdone
    obtain ⟨h', hset, hcell, hfresh⟩ :=
      modify_of_cell (f := fun c => some { c with next := n }) hx
    have hxl : x.1 ∉ l.map Prod.fst := by
      rw [List.map_append, List.nodup_append] at hnodup
      exact fun hmem => hnodup.2.2 x.1 hmem x.1 (by simp) rfl
    refine ⟨h', head, ?_, hdone.redirect hxl hcell, hfresh, fun b hb => ?_⟩
    · simp [unlink, hc, Heap.setNext, hset]
    · rw [hcell, Function.update_of_ne]
      rintro rfl
      exact hb (by simp)

end Unlink

section Sweep
variable {visit : σ → β → Option (σ × β × Bool)}

lemma sweepList_cons {s t : σ} {v w : β} {removed : Bool} (hvisit : visit s v = some (t, w, removed))
    (vs : List β) : sweepList visit s (v :: vs) =
      (sweepList visit t vs).map fun r => (if removed then r.1 else w :: r.1, r.2) := by
  simp [sweepList, hvisit, Option.map_eq_bind]

lemma sweepList_cons_none {s : σ} {v : β} (hvisit : visit s v = none) (vs : List β) :
    sweepList visit s (v :: vs) = none := by
  simp [sweepList, hvisit]

lemma setVal_of_cell {h : Heap β} {a : ℕ} {n : Option ℕ} {v w : β} (hc : h.cell a = some ⟨n, v⟩) :
    ∃ h', h.setVal a w = some h' ∧ h'.cell = Function.update h.cell a (some ⟨n, w⟩) :=
  let ⟨h', hset, hcell, _⟩ := modify_of_cell (f := fun c => some { c with val := w }) hc
  ⟨h', hset, hcell⟩

lemma notMem_of_nodup {as bs : List ℕ} {a : ℕ} (h : (as ++ a :: bs).Nodup) : a ∉ as ∧ a ∉ bs := by
  obtain ⟨-, hcons, hdis⟩ := List.nodup_append.mp h
  exact ⟨fun ha => hdis a ha a (by simp) rfl, (List.nodup_cons.mp hcons).1⟩

lemma unlink_free {h : Heap β} {head n : Option ℕ} {done l : List (ℕ × β)} {a : ℕ} {v : β}
    (hdone : Seg h head done (some a)) (hc : h.cell a = some ⟨n, v⟩) (hl : Seg h n l none)
    (hnodup : (done.map Prod.fst ++ a :: l.map Prod.fst).Nodup) :
    ∃ h₁ h₂ head', unlink h head (done.getLast?.map Prod.fst) a = some (h₁, head') ∧
      h₁.free a = some h₂ ∧ h₂.cell a = none ∧ Seg h₂ head' done n ∧ Seg h₂ n l none := by
  obtain ⟨had, hal⟩ := notMem_of_nodup hnodup
  obtain ⟨hnd, -, hdis⟩ := List.nodup_append.mp hnodup
  obtain ⟨h₁, head', hun, hseg, -, hframe⟩ := unlink_of_seg hdone hc hnd
  have hc₁ : h₁.cell a = some ⟨n, v⟩ := by rw [hframe a had, hc]
  have hl₁ : Seg h₁ n l none := hl.congr fun x hx => hframe x.1 fun hmem =>
    hdis x.1 hmem x.1 (List.mem_cons_of_mem a (List.mem_map_of_mem hx)) rfl
  obtain ⟨h₂, hfree, hcell, -⟩ := modify_of_cell (f := fun _ => none) hc₁
  exact ⟨h₁, h₂, head', hun, hfree, by rw [hcell, Function.update_self], hseg.update hcell had,
    hl₁.update hcell hal⟩

/-- A list of `done` and, behind it, some of the cells at `as`, with the values `vs`. -/
def Remains (h : Heap β) (head : Option ℕ) (done : List (ℕ × β)) (as : List ℕ) (vs : List β) : Prop :=
  ∃ l, Seg h head (done ++ l) none ∧ (l.map Prod.fst).Sublist as ∧ l.map Prod.snd = vs

section Remains
variable {h : Heap β} {head : Option ℕ} {done : List (ℕ × β)} {as : List ℕ} {vs : List β}

lemma remains_nil (hdone : Seg h head done none) : Remains h head done [] [] :=
  ⟨[], by simpa using hdone, List.Sublist.refl _, rfl⟩

lemma Remains.skip (hr : Remains h head done as vs) (a : ℕ) : Remains h head done (a :: as) vs := by
  obtain ⟨l, hseg, hsub, hvals⟩ := hr
  exact ⟨l, hseg, hsub.cons a, hvals⟩

lemma Remains.keep {x : ℕ × β} (hr : Remains h head (done ++ [x]) as vs) :
    Remains h head done (x.1 :: as) (x.2 :: vs) := by
  obtain ⟨l, hseg, hsub, hvals⟩ := hr
  exact ⟨x :: l, by simpa using hseg, hsub.cons_cons x.1, by simp [hvals]⟩

lemma Remains.holds (hr : Remains h head [] as vs) (hnodup : as.Nodup) : Holds h head vs := by
  obtain ⟨l, hseg, hsub, hvals⟩ := hr
  exact ⟨l, hseg, hnodup.sublist hsub, hvals⟩

end Remains

section Turn
variable {h : Heap β} {head n : Option ℕ} {done l : List (ℕ × β)} {a : ℕ} {v w : β} {s t : σ}

lemma sweepLoop_removed (hvisit : visit s v = some (t, w, true)) (hdone : Seg h head done (some a))
    (hc : h.cell a = some ⟨n, v⟩) (hl : Seg h n l none)
    (hnodup : (done.map Prod.fst ++ a :: l.map Prod.fst).Nodup) :
    ∃ h' head', (∀ k, sweepLoop visit (k + 1) h head (done.getLast?.map Prod.fst) (some a) s =
        sweepLoop visit k h' head' (done.getLast?.map Prod.fst) n t) ∧
      Seg h' head' done n ∧ Seg h' n l none := by
  obtain ⟨had, hal⟩ := notMem_of_nodup hnodup
  obtain ⟨h₁, hset, hcell⟩ := setVal_of_cell (w := w) hc
  have hc₁ : h₁.cell a = some ⟨n, w⟩ := by rw [hcell, Function.update_self]
  obtain ⟨h₂, h₃, head', hun, hfree, -, hdone₃, hl₃⟩ :=
    unlink_free (hdone.update hcell had) hc₁ (hl.update hcell hal) hnodup
  exact ⟨h₃, head', fun k => by simp [sweepLoop, hc, hvisit, hset, hun, hfree], hdone₃, hl₃⟩

lemma sweepLoop_kept (hvisit : visit s v = some (t, w, false)) (hdone : Seg h head done (some a))
    (hc : h.cell a = some ⟨n, v⟩) (hl : Seg h n l none)
    (hnodup : (done.map Prod.fst ++ a :: l.map Prod.fst).Nodup) :
    ∃ h', (∀ k prev, sweepLoop visit (k + 1) h head prev (some a) s =
        sweepLoop visit k h' head ((done ++ [(a, w)]).getLast?.map Prod.fst) n t) ∧
      Seg h' head (done ++ [(a, w)]) n ∧ Seg h' n l none := by
  obtain ⟨had, hal⟩ := notMem_of_nodup hnodup
  obtain ⟨h₁, hset, hcell⟩ := setVal_of_cell (w := w) hc
  have hc₁ : h₁.cell a = some ⟨n, w⟩ := by rw [hcell, Function.update_self]
  exact ⟨h₁, fun k prev => by simp [sweepLoop, hc, hvisit, hset],
    seg_snoc.mpr ⟨hdone.update hcell had, hc₁⟩, hl.update hcell hal⟩

end Turn

lemma sweepLoop_of_seg {l done : List (ℕ × β)} {k : ℕ} {h : Heap β} {head entry : Option ℕ} {s : σ}
    (hk : l.length ≤ k) (hdone : Seg h head done entry) (hl : Seg h entry l none)
    (hnodup : (done.map Prod.fst ++ l.map Prod.fst).Nodup) :
    (∀ vs t, sweepList visit s (l.map Prod.snd) = some (vs, t) →
      ∃ h' head', sweepLoop visit k h head (done.getLast?.map Prod.fst) entry s = some (h', head', t) ∧
        Remains h' head' done (l.map Prod.fst) vs) ∧
    (sweepList visit s (l.map Prod.snd) = none →
      sweepLoop visit k h head (done.getLast?.map Prod.fst) entry s = none) := by
  induction l generalizing done k h head entry s with
  | nil =>
    obtain rfl : entry = none := hl
    refine ⟨fun vs t heq => ?_, fun heq => by cases heq⟩
    cases heq
    exact ⟨h, head, by cases k <;> rfl, remains_nil hdone⟩
  | cons x l ih =>
    obtain ⟨rfl, n, hc, hrest⟩ := hl
    obtain ⟨k, rfl⟩ : ∃ j, k = j + 1 := ⟨k - 1, by simp at hk; omega⟩
    have hkl : l.length ≤ k := by simpa using hk
    rw [List.map_cons] at hnodup
    cases hvisit : visit s x.2 with
    | none => simp [sweepList_cons_none hvisit, sweepLoop, hc, hvisit]
    | some r =>
      obtain ⟨t, w, removed⟩ := r
      rw [List.map_cons, sweepList_cons hvisit]
      cases removed with
      | true =>
        obtain ⟨h', head', hloop, hdone', hrest'⟩ := sweepLoop_removed hvisit hdone hc hrest hnodup
        obtain ⟨hsome, hnone⟩ := ih (s := t) hkl hdone' hrest'
          (List.Nodup.sublist (List.Sublist.append_left (List.sublist_cons_self _ _) _) hnodup)
        rw [hloop]
        refine ⟨fun vs u heq => ?_, fun heq => hnone (by simpa using heq)⟩
        obtain ⟨h'', head'', hres, hremains⟩ := hsome vs u (by simpa using heq)
        exact ⟨h'', head'', hres, hremains.skip x.1⟩
      | false =>
        obtain ⟨h', hloop, hdone', hrest'⟩ := sweepLoop_kept hvisit hdone hc hrest hnodup
        obtain ⟨hsome, hnone⟩ := ih (s := t) hkl hdone' hrest' (by simpa using hnodup)
        rw [hloop]
        refine ⟨fun vs u heq => ?_, fun heq => hnone (by simpa using heq)⟩
        obtain ⟨⟨us, u'⟩, heq', hpair⟩ := Option.map_eq_some_iff.mp heq
        cases hpair
        obtain ⟨h'', head'', hres, hremains⟩ := hsome us _ heq'
        exact ⟨h'', head'', hres, hremains.keep⟩

end Sweep

section Walks
variable {h : Heap β} {entry : Option ℕ} {l m done : List (ℕ × β)} {x : ℕ × β} {k a : ℕ} {p : β → Bool}

lemma search_none (hl : Seg h entry l none) (hk : l.length ≤ k) (hp : ∀ y ∈ l, p y.2 = false)
    (prev : Option ℕ) : ∃ prev', search p h k prev entry = some (prev', none) := by
  induction l generalizing k entry prev with
  | nil =>
    obtain rfl : entry = none := hl
    exact ⟨prev, by cases k <;> rfl⟩
  | cons y l ih =>
    obtain ⟨rfl, n, hc, hrest⟩ := hl
    obtain ⟨k, rfl⟩ : ∃ j, k = j + 1 := ⟨k - 1, by simp at hk; omega⟩
    obtain ⟨prev', hsearch⟩ := ih hrest (by simpa using hk)
      (fun z hz => hp z (List.mem_cons_of_mem y hz)) (some y.1)
    exact ⟨prev', by simp [search, hc, hp y List.mem_cons_self, hsearch]⟩

lemma search_some (done : List (ℕ × β)) (hl : Seg h entry (l ++ x :: m) none)
    (hk : (l ++ x :: m).length ≤ k) (hp : ∀ y ∈ l, p y.2 = false) (hx : p x.2) :
    search p h k (done.getLast?.map Prod.fst) entry =
      some ((done ++ l).getLast?.map Prod.fst, some x.1) := by
  obtain ⟨k, rfl⟩ : ∃ j, k = j + 1 := ⟨k - 1, by simp at hk; omega⟩
  induction l generalizing k entry done with
  | nil =>
    obtain ⟨rfl, n, hc, -⟩ := hl
    simp [search, hc, hx]
  | cons y l ih =>
    obtain ⟨rfl, n, hc, hrest⟩ := hl
    obtain ⟨k, rfl⟩ : ∃ j, k = j + 1 := ⟨k - 1, by simp at hk; omega⟩
    have hsearch := ih (done ++ [y]) hrest (fun z hz => hp z (List.mem_cons_of_mem y hz)) k
      (by simpa using hk)
    rw [search]
    simpa [hc, hp y List.mem_cons_self] using hsearch

lemma lastLoop_of_seg (done : List (ℕ × β)) (hl : Seg h (some a) (l ++ [x]) none)
    (hk : (l ++ [x]).length ≤ k) :
    lastLoop h k (done.getLast?.map Prod.fst) a = some ((done ++ l).getLast?.map Prod.fst, x.1) := by
  obtain ⟨k, rfl⟩ : ∃ j, k = j + 1 := ⟨k - 1, by simp at hk; omega⟩
  induction l generalizing k a done with
  | nil =>
    obtain ⟨ha, n, hc, hn⟩ := hl
    obtain rfl : a = x.1 := Option.some.inj ha
    obtain rfl : n = none := hn
    simp [lastLoop, hc]
  | cons y l ih =>
    obtain ⟨ha, n, hc, hrest⟩ := hl
    obtain rfl : a = y.1 := Option.some.inj ha
    obtain ⟨b, rfl⟩ : ∃ b, n = some b := by
      cases l with
      | nil => exact ⟨_, hrest.1⟩
      | cons z l => exact ⟨_, hrest.1⟩
    obtain ⟨k, rfl⟩ : ∃ j, k = j + 1 := ⟨k - 1, by simp at hk; omega⟩
    have hlast := ih (done ++ [y]) hrest k (by simpa using hk)
    rw [lastLoop]
    simpa [hc] using hlast

lemma freeLoop_of_seg (hl : Seg h entry l none) (hnodup : (l.map Prod.fst).Nodup)
    (hk : l.length ≤ k) : ∃ h', freeLoop k h entry = some h' := by
  induction l generalizing k h entry with
  | nil =>
    obtain rfl : entry = none := hl
    exact ⟨h, by cases k <;> rfl⟩
  | cons y l ih =>
    obtain ⟨rfl, n, hc, hrest⟩ := hl
    obtain ⟨k, rfl⟩ : ∃ j, k = j + 1 := ⟨k - 1, by simp at hk; omega⟩
    obtain ⟨hy, hnl⟩ := List.nodup_cons.mp hnodup
    obtain ⟨h₁, hfree, hcell, -⟩ := modify_of_cell (f := fun _ => none) hc
    obtain ⟨h', hloop⟩ := ih (hrest.update hcell hy) hnl (by simpa using hk)
    exact ⟨h', by simp [freeLoop, hc, Heap.free, hfree, hloop]⟩

end Walks

section Lists
variable {h : Heap β} {head : Option ℕ} {vs : List β}

lemma holds_empty (h : Heap β) : Holds h none [] := ⟨[], rfl, List.nodup_nil, rfl⟩

lemma Holds.chain (hh : Holds h head vs) : chain h h.fresh head = some vs := by
  obtain ⟨l, hl, hnodup, rfl⟩ := hh
  exact chain_of_seg hl (hl.length_le hnodup)

lemma Holds.nil_iff (hh : Holds h head vs) : head = none ↔ vs = [] := by
  obtain ⟨l, hl, -, rfl⟩ := hh
  cases l with
  | nil => simpa [Seg] using hl
  | cons x l => simp [hl.1]

lemma Holds.push (hh : Holds h head vs) (v : β) :
    Holds (h.alloc ⟨head, v⟩).2 (some (h.alloc ⟨head, v⟩).1) (v :: vs) := by
  obtain ⟨l, hl, hnodup, rfl⟩ := hh
  have hnew : h.fresh ∉ l.map Prod.fst := by
    intro hmem
    obtain ⟨x, hx, hfresh⟩ := List.mem_map.mp hmem
    obtain ⟨n, hc⟩ := hl.cell hx
    exact absurd (lt_fresh hc) (by omega)
  refine ⟨(h.fresh, v) :: l, ⟨rfl, head, by simp [Heap.alloc], hl.update rfl hnew⟩, ?_, rfl⟩
  exact List.nodup_cons.mpr ⟨hnew, hnodup⟩

lemma Holds.sweep (hh : Holds h head vs) {visit : σ → β → Option (σ × β × Bool)} {s : σ} :
    (∀ ws t, sweepList visit s vs = some (ws, t) →
      ∃ h' head', sweep visit h head s = some (h', head', t) ∧ Holds h' head' ws) ∧
    (sweepList visit s vs = none → sweep visit h head s = none) := by
  obtain ⟨l, hl, hnodup, rfl⟩ := hh
  have hstart : Seg h head [] head := rfl
  obtain ⟨hsome, hnone⟩ := sweepLoop_of_seg (s := s) (hl.length_le hnodup) hstart hl
    (by simpa using hnodup)
  refine ⟨fun ws t heq => ?_, hnone⟩
  obtain ⟨h', head', hres, hremains⟩ := hsome ws t heq
  exact ⟨h', head', hres, hremains.holds hnodup⟩

lemma Holds.removeFirst (hh : Holds h head vs) (p : β → Bool) :
    ∃ h' head', removeFirst p h head = some (h', head', vs.any p) ∧ Holds h' head' (vs.eraseP p) := by
  obtain ⟨l, hl, hnodup, rfl⟩ := hh
  have hlen := hl.length_le hnodup
  by_cases hany : ∃ x ∈ l, p x.2
  · obtain ⟨x, hx, hpx⟩ := hany
    obtain ⟨y, l₁, l₂, hbefore, hpy, rfl, herase⟩ :=
      List.exists_of_eraseP (p := fun x : ℕ × β => p x.2) hx hpx
    have hsearch := search_some (x := y) [] hl hlen (by simpa using hbefore) hpy
    obtain ⟨r, hl₁, rfl, n, hc, hl₂⟩ := seg_append.mp hl
    obtain ⟨h₁, h₂, head', hun, hfree, -, hseg₁, hseg₂⟩ :=
      unlink_free hl₁ hc hl₂ (by simpa using hnodup)
    refine ⟨h₂, head', ?_, l₁ ++ l₂, seg_append.mpr ⟨n, hseg₁, hseg₂⟩, ?_, ?_⟩
    · simp only [List.getLast?_nil, Option.map_none, List.nil_append] at hsearch
      simp [LinkedCells.removeFirst, hsearch, hun, hfree, hpy]
    · have hsub := List.Sublist.append_left (List.sublist_cons_self y l₂) l₁
      exact hnodup.sublist (hsub.map _)
    · rw [List.eraseP_map, ← herase]
      rfl
  · have hnone : ∀ x ∈ l, p x.2 = false := by simpa using hany
    obtain ⟨prev, hsearch⟩ := search_none hl hlen hnone none
    refine ⟨h, head, ?_, l, hl, hnodup, ?_⟩
    · have hfalse : (l.map Prod.snd).any p = false := by simpa using hnone
      simp [LinkedCells.removeFirst, hsearch, hfalse]
    · rw [List.eraseP_of_forall_not]
      intro v hv
      obtain ⟨x, hx, rfl⟩ := List.mem_map.mp hv
      simp [hnone x hx]

lemma Holds.dropLast {a : ℕ} {v : β} (hh : Holds h (some a) (v :: vs)) :
    ∃ h', dropLast h a = some h' ∧
      Holds h' (some a) (if vs = [] then [v] else (v :: vs).dropLast) := by
  obtain ⟨l, hl, hnodup, hvals⟩ := hh
  have hlen := hl.length_le hnodup
  rcases List.eq_nil_or_concat l with rfl | ⟨m, x, rfl⟩
  · cases hvals
  · rw [List.concat_eq_append] at hl hnodup hvals hlen
    have hlast := lastLoop_of_seg [] hl hlen
    rw [List.getLast?_nil, Option.map_none, List.nil_append] at hlast
    rcases List.eq_nil_or_concat m with rfl | ⟨m, y, rfl⟩
    · obtain ⟨rfl, rfl⟩ : x.2 = v ∧ vs = [] := by simpa using hvals
      exact ⟨h, by simp [LinkedCells.dropLast, hlast], [x], by simpa using hl, by simp, by simp⟩
    · rw [List.concat_eq_append] at hl hnodup hvals hlast
      obtain ⟨hm, hx⟩ := seg_snoc.mp hl
      obtain ⟨h₁, h₂, head', hun, hfree, -, hseg, -⟩ :=
        unlink_free (l := []) hm hx rfl (by simpa using hnodup)
      obtain ⟨hset, rfl⟩ : h.setNext y.1 none = some h₁ ∧ some a = head' := by
        simpa [unlink, hx, Option.bind_eq_some_iff] using hun
      have hne : vs ≠ [] := by
        rintro rfl
        simpa using congrArg List.length hvals
      refine ⟨h₂, by simp [LinkedCells.dropLast, hlast, hset, hfree], m ++ [y], hseg, ?_, ?_⟩
      · exact hnodup.sublist (List.Sublist.map _ (List.sublist_append_left _ _))
      · rw [if_neg hne, ← hvals]
        simp

lemma Holds.freeLoop (hh : Holds h head vs) : ∃ h', freeLoop h.fresh h head = some h' := by
  obtain ⟨l, hl, hnodup, -⟩ := hh
  exact freeLoop_of_seg hl hnodup (hl.length_le hnodup)

end Lists

end LdapTgen.LinkedCells
