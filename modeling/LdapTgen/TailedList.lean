import Mathlib

/-! Singly linked lists in a heap whose first cell also points to the last one. A heap operation on
an address without a cell has no result. -/
namespace LdapTgen.TailedList

variable {β : Type}

structure Cell (β : Type) where
  next : Option ℕ
  last : ℕ
  val : β

/-- Cells by address, and the number of allocated ones, which bounds every walk. -/
structure Heap (β : Type) where
  cell : ℕ → Option (Cell β)
  size : ℕ

namespace Heap

def empty : Heap β := ⟨fun _ => none, 0⟩

def alloc (h : Heap β) (a : ℕ) (c : Cell β) : Heap β :=
  ⟨Function.update h.cell a (some c), h.size + 1⟩

def free (h : Heap β) (a : ℕ) : Option (Heap β) :=
  (h.cell a).map fun _ => ⟨Function.update h.cell a none, h.size - 1⟩

def modify (h : Heap β) (a : ℕ) (f : Cell β → Cell β) : Option (Heap β) :=
  (h.cell a).map fun c => ⟨Function.update h.cell a (some (f c)), h.size⟩

def setNext (h : Heap β) (a : ℕ) (n : Option ℕ) : Option (Heap β) :=
  h.modify a fun c => { c with next := n }

def setLast (h : Heap β) (a b : ℕ) : Option (Heap β) :=
  h.modify a fun c => { c with last := b }

end Heap

/-- Links cell `a`, whose next field is empty, at the end of the list that starts at `head`. -/
def append (h : Heap β) (head : Option ℕ) (a : ℕ) : Option (Heap β × Option ℕ) :=
  match head with
  | some f => do
      let c ← h.cell f
      let h ← h.setNext c.last (some a)
      let h ← h.setLast f a
      return (h, some f)
  | none => do
      let h ← h.setLast a a
      return (h, some a)

/-- Walks from `curr` to the first cell that satisfies `p`; gives it with its predecessor, or
nothing at the end of the list. -/
def search (h : Heap β) (p : β → Bool) :
    ℕ → Option ℕ → Option ℕ → Option (Option (Option ℕ × ℕ))
  | _, _, none => some none
  | 0, _, some _ => none
  | n + 1, pred, some a => do
      let c ← h.cell a
      if p c.val then return some (pred, a) else search h p n (some a) c.next

def chain (h : Heap β) : ℕ → Option ℕ → List β
  | _, none => []
  | 0, some _ => []
  | n + 1, some a =>
      match h.cell a with
      | none => []
      | some c => c.val :: chain h n c.next

/-- Takes cell `curr`, with predecessor `pred`, out of the list that starts at `first`. -/
def unlink (h : Heap β) (first : ℕ) (pred : Option ℕ) (curr : ℕ) :
    Option (Heap β × Option ℕ) := do
  let f ← h.cell first
  let c ← h.cell curr
  if curr = first then
    match c.next with
    | some n => return (← h.setLast n f.last, some n)
    | none => return (h, none)
  else if curr = f.last then
    let q ← pred
    let h ← h.setLast first q
    return (← h.setNext q none, some first)
  else
    let q ← pred
    return (← h.setNext q c.next, some first)

/-- The cells from `p` to `q` are at the addresses of `l` and hold its values. -/
def Seg (h : Heap β) : Option ℕ → List (ℕ × β) → Option ℕ → Prop
  | p, [], q => p = q
  | p, x :: l, q => p = some x.1 ∧ ∃ c, h.cell x.1 = some c ∧ c.val = x.2 ∧ Seg h c.next l q

/-- A whole list, with distinct cells, whose first cell points to the last one. -/
structure IsList (h : Heap β) (head : Option ℕ) (l : List (ℕ × β)) : Prop where
  seg : Seg h head l none
  nodup : (l.map Prod.fst).Nodup
  last : ∀ a c, head = some a → h.cell a = some c → l.getLast?.map Prod.fst = some c.last

lemma modify_of_cell {h : Heap β} {a : ℕ} {c : Cell β} (hc : h.cell a = some c)
    (f : Cell β → Cell β) :
    h.modify a f = some ⟨Function.update h.cell a (some (f c)), h.size⟩ := by
  simp [Heap.modify, hc]

section Segments
variable {h h' : Heap β} {p q : Option ℕ} {l : List (ℕ × β)}

lemma Seg.congr (hl : Seg h p l q)
    (hsame : ∀ x ∈ l, ∀ c, h.cell x.1 = some c →
      ∃ c', h'.cell x.1 = some c' ∧ c'.next = c.next ∧ c'.val = c.val) : Seg h' p l q := by
  induction l generalizing p with
  | nil => exact hl
  | cons x l ih =>
    obtain ⟨hp, c, hc, hv, hrest⟩ := hl
    obtain ⟨c', hc', hn, hv'⟩ := hsame x List.mem_cons_self c hc
    refine ⟨hp, c', hc', hv'.trans hv, ?_⟩
    rw [hn]
    exact ih hrest fun y hy => hsame y (List.mem_cons_of_mem _ hy)

lemma Seg.frame (hl : Seg h p l q) (hsame : ∀ x ∈ l, h'.cell x.1 = h.cell x.1) :
    Seg h' p l q :=
  hl.congr fun x hx c hc => ⟨c, by rw [hsame x hx, hc], rfl, rfl⟩

lemma seg_append {l₁ l₂ : List (ℕ × β)} :
    Seg h p (l₁ ++ l₂) q ↔ ∃ r, Seg h p l₁ r ∧ Seg h r l₂ q := by
  induction l₁ generalizing p with
  | nil => simp [Seg]
  | cons x l ih =>
    simp only [List.cons_append, Seg, ih]
    constructor
    · rintro ⟨hp, c, hc, hv, r, h1, h2⟩
      exact ⟨r, ⟨hp, c, hc, hv, h1⟩, h2⟩
    · rintro ⟨r, ⟨hp, c, hc, hv, h1⟩, h2⟩
      exact ⟨hp, c, hc, hv, r, h1, h2⟩

lemma seg_snoc {x : ℕ × β} :
    Seg h p (l ++ [x]) q ↔
      Seg h p l (some x.1) ∧ ∃ c, h.cell x.1 = some c ∧ c.val = x.2 ∧ c.next = q := by
  rw [seg_append]
  simp only [Seg]
  constructor
  · rintro ⟨r, h1, rfl, hc⟩
    exact ⟨h1, hc⟩
  · rintro ⟨h1, hc⟩
    exact ⟨_, h1, rfl, hc⟩

lemma Seg.cell {x : ℕ × β} (hl : Seg h p l q) (hx : x ∈ l) :
    ∃ c, h.cell x.1 = some c ∧ c.val = x.2 := by
  induction l generalizing p with
  | nil => simp at hx
  | cons y l ih =>
    obtain ⟨_, c, hc, hv, hrest⟩ := hl
    rcases List.mem_cons.mp hx with rfl | hx
    · exact ⟨c, hc, hv⟩
    · exact ih hrest hx

end Segments

section Updates
variable {h : Heap β} {p q : Option ℕ} {l : List (ℕ × β)} {a : ℕ} {c : Cell β}

lemma Seg.setLast (hl : Seg h p l q) (hc : h.cell a = some c) (b : ℕ) :
    Seg ⟨Function.update h.cell a (some { c with last := b }), h.size⟩ p l q := by
  refine hl.congr fun x _ d hd => ?_
  by_cases hx : x.1 = a
  · have hcd : c = d := by rw [hx, hc] at hd; exact Option.some_inj.mp hd
    exact ⟨{ c with last := b }, by simp [hx], by rw [hcd], by rw [hcd]⟩
  · exact ⟨d, by simp [hx, hd], rfl, rfl⟩

lemma Seg.update (hl : Seg h p l q) (ha : a ∉ l.map Prod.fst) (d : Option (Cell β)) (n : ℕ) :
    Seg ⟨Function.update h.cell a d, n⟩ p l q := by
  refine hl.frame fun x hx => Function.update_of_ne ?_ _ _
  rintro rfl
  exact ha (List.mem_map_of_mem hx)

lemma Seg.redirect {x : ℕ × β} {n : Option ℕ} (hl : Seg h p (l ++ [x]) q)
    (hx : x.1 ∉ l.map Prod.fst) (hc : h.cell x.1 = some c) :
    Seg ⟨Function.update h.cell x.1 (some { c with next := n }), h.size⟩ p (l ++ [x]) n := by
  obtain ⟨hl, d, hd, hv, _⟩ := seg_snoc.mp hl
  have hcd : c = d := Option.some_inj.mp (hc.symm.trans hd)
  exact seg_snoc.mpr ⟨hl.update hx _ _, { c with next := n }, by simp, by rw [hcd]; exact hv, rfl⟩

end Updates

section Search
variable {h : Heap β} {p : β → Bool}

lemma chain_eq {l : List (ℕ × β)} {p : Option ℕ} {n : ℕ} (hl : Seg h p l none)
    (hn : l.length ≤ n) : chain h n p = l.map Prod.snd := by
  induction l generalizing p n with
  | nil =>
    have hp : p = none := hl
    subst hp
    cases n <;> rfl
  | cons x l ih =>
    obtain ⟨rfl, c, hc, hv, hrest⟩ := hl
    cases n with
    | zero => cases hn
    | succ n =>
      simp only [chain, hc, List.map_cons, hv]
      rw [ih hrest (Nat.le_of_succ_le_succ hn)]

lemma search_none {l : List (ℕ × β)} {head : Option ℕ} {n : ℕ} (pred : Option ℕ)
    (hl : Seg h head l none) (hp : ∀ x ∈ l, p x.2 = false) (hn : l.length ≤ n) :
    search h p n pred head = some none := by
  induction l generalizing head pred n with
  | nil =>
    cases (show head = none from hl)
    cases n <;> rfl
  | cons x l ih =>
    obtain ⟨rfl, c, hc, hv, hrest⟩ := hl
    obtain ⟨n, rfl⟩ := Nat.exists_eq_succ_of_ne_zero (Nat.ne_of_gt (Nat.zero_lt_of_lt hn))
    have hx : p c.val = false := by rw [hv]; exact hp x List.mem_cons_self
    simp only [search, hc, Option.bind_eq_bind, Option.bind_some, hx]
    exact ih _ hrest (fun y hy => hp y (List.mem_cons_of_mem _ hy)) (Nat.le_of_succ_le_succ hn)

lemma search_found {l₁ l₂ : List (ℕ × β)} {x : ℕ × β} {head : Option ℕ} {n : ℕ} (pred : Option ℕ)
    (hl : Seg h head (l₁ ++ x :: l₂) none) (hp : ∀ y ∈ l₁, p y.2 = false) (hx : p x.2 = true)
    (hn : l₁.length < n) :
    search h p n pred head = some (some ((l₁.getLast?.map Prod.fst).or pred, x.1)) := by
  induction l₁ generalizing head pred n with
  | nil =>
    obtain ⟨rfl, c, hc, hv, _⟩ := hl
    obtain ⟨n, rfl⟩ := Nat.exists_eq_succ_of_ne_zero (Nat.ne_of_gt hn)
    simp [search, hc, hv, hx]
  | cons y l ih =>
    obtain ⟨rfl, c, hc, hv, hrest⟩ := hl
    obtain ⟨n, rfl⟩ := Nat.exists_eq_succ_of_ne_zero (Nat.ne_of_gt (Nat.zero_lt_of_lt hn))
    have hy : p c.val = false := by rw [hv]; exact hp y List.mem_cons_self
    have hrec := ih (some y.1) hrest (fun z hz => hp z (List.mem_cons_of_mem _ hz))
      (Nat.lt_of_succ_lt_succ hn)
    simp only [search, hc, Option.bind_eq_bind, Option.bind_some, hy]
    rw [List.getLast?_cons]
    cases hlast : l.getLast? <;> simpa [hlast] using hrec

end Search

section Lists
variable {h : Heap β} {head : Option ℕ} {l : List (ℕ × β)}

lemma isList_nil (h : Heap β) : IsList h none [] := ⟨rfl, List.nodup_nil, nofun⟩

lemma IsList.frame {h' : Heap β} (hl : IsList h head l)
    (hsame : ∀ a ∈ l.map Prod.fst, h'.cell a = h.cell a) : IsList h' head l where
  seg := hl.seg.frame fun x hx => hsame x.1 (List.mem_map_of_mem hx)
  nodup := hl.nodup
  last := by
    intro a c ha hc
    cases l with
    | nil => exact absurd (ha.symm.trans hl.seg) nofun
    | cons x l =>
      have hax : a = x.1 := Option.some_inj.mp (ha.symm.trans hl.seg.1)
      rw [hsame a (by simp [hax])] at hc
      exact hl.last a c ha hc

lemma IsList.first {first : ℕ} (hl : IsList h (some first) l) :
    ∃ v l', l = (first, v) :: l' ∧ ∃ c, h.cell first = some c ∧
      l.getLast?.map Prod.fst = some c.last := by
  cases l with
  | nil => exact absurd hl.seg nofun
  | cons x l =>
    obtain ⟨hx, c, hc, _⟩ := hl.seg
    obtain rfl : first = x.1 := Option.some_inj.mp hx
    exact ⟨x.2, l, rfl, c, hc, hl.last _ c rfl hc⟩

lemma last_written {a b : ℕ} {c : Cell β} {n : ℕ} (hlast : l.getLast?.map Prod.fst = some b) :
    ∀ a' d, some a = some a' →
      (⟨Function.update h.cell a (some { c with last := b }), n⟩ : Heap β).cell a' = some d →
      l.getLast?.map Prod.fst = some d.last := by
  rintro a' d ⟨rfl⟩ hd
  simp only [Function.update_self, Option.some.injEq] at hd
  rw [hlast, ← hd]

lemma notMem_init {k : List (ℕ × β)} {q : ℕ × β} (h : ((k ++ [q]).map Prod.fst).Nodup) :
    q.1 ∉ k.map Prod.fst := by
  rw [List.map_append, List.nodup_append'] at h
  exact fun hmem => h.2.2 hmem (by simp)

lemma IsList.join {f r z : ℕ} {l₁ l₂ : List (ℕ × β)} (hl₁ : IsList h (some f) l₁)
    (hl₂ : Seg h (some r) l₂ none) (hnodup : (l₂.map Prod.fst).Nodup)
    (hd : (l₁.map Prod.fst).Disjoint (l₂.map Prod.fst)) (hlast : l₂.getLast?.map Prod.fst = some z) :
    ∃ cf h₁ h₂, h.cell f = some cf ∧ h.setNext cf.last (some r) = some h₁ ∧
      h₁.setLast f z = some h₂ ∧ IsList h₂ (some f) (l₁ ++ l₂) ∧
      (∀ b, b ∉ l₁.map Prod.fst → h₁.cell b = h.cell b ∧ h₂.cell b = h.cell b) ∧
      h₂.size = h.size := by
  obtain ⟨v, l', hcons, cf, hf, hlast₁⟩ := hl₁.first
  have hfirst : f ∈ l₁.map Prod.fst := by simp [hcons]
  obtain rfl | ⟨k, x, rfl⟩ := List.eq_nil_or_concat' l₁
  · simp at hcons
  have hx : cf.last = x.1 := by simpa [eq_comm] using hlast₁
  obtain ⟨cx, hcx, _⟩ := hl₁.seg.cell (show x ∈ k ++ [x] by simp)
  have hx₂ : x.1 ∉ l₂.map Prod.fst := hd (by simp)
  let h₁ : Heap β := ⟨Function.update h.cell x.1 (some { cx with next := some r }), h.size⟩
  -- the redirected cell may be the first one
  obtain ⟨f₁, hf₁⟩ : ∃ f₁, h₁.cell f = some f₁ := by
    by_cases he : f = x.1
    · exact ⟨_, by rw [he]; exact Function.update_self ..⟩
    · exact ⟨cf, by rw [← hf]; exact Function.update_of_ne he _ _⟩
  have hseg : Seg h₁ (some f) (k ++ [x] ++ l₂) none :=
    seg_append.mpr ⟨some r, hl₁.seg.redirect (notMem_init hl₁.nodup) hcx, hl₂.update hx₂ _ _⟩
  refine ⟨cf, h₁, ⟨Function.update h₁.cell f (some { f₁ with last := z }), h.size⟩, hf, ?_,
    modify_of_cell hf₁ _, ⟨hseg.setLast hf₁ _, ?_, last_written ?_⟩, ?_, rfl⟩
  · rw [hx]
    exact modify_of_cell hcx _
  · rw [List.map_append, List.nodup_append']
    exact ⟨hl₁.nodup, hnodup, hd⟩
  · rw [List.getLast?_append, Option.map_or, hlast, Option.some_or]
  · intro b hb
    have hbx : b ≠ x.1 := by rintro rfl; simp at hb
    have hbf : b ≠ f := by rintro rfl; exact hb hfirst
    simp [h₁, hbx, hbf]

lemma append_spec {a : ℕ} {c : Cell β} (hl : IsList h head l) (hc : h.cell a = some c)
    (hn : c.next = none) (ha : a ∉ l.map Prod.fst) :
    ∃ h' head', append h head a = some (h', head') ∧ IsList h' head' (l ++ [(a, c.val)]) ∧
      (∀ b, b ∉ l.map Prod.fst → b ≠ a → h'.cell b = h.cell b) ∧ h'.size = h.size := by
  cases head with
  | none =>
    have hnil : l = [] := by
      cases l with
      | nil => rfl
      | cons x l => exact absurd hl.seg.1 nofun
    subst hnil
    refine ⟨⟨Function.update h.cell a (some { c with last := a }), h.size⟩, some a, ?_, ?_, ?_, rfl⟩
    · simp [append, Heap.setLast, modify_of_cell hc]
    · exact ⟨⟨rfl, { c with last := a }, by simp, rfl, hn⟩, by simp, last_written rfl⟩
    · intro b _ hb
      exact Function.update_of_ne hb _ _
  | some first =>
    have hseg : Seg h (some a) [(a, c.val)] none := ⟨rfl, c, hc, rfl, hn⟩
    obtain ⟨cf, h₁, h₂, hf, hnext, hlast, hjoined, hframe, hsize⟩ :=
      hl.join (z := a) hseg (by simp) (by simpa using ha) rfl
    exact ⟨h₂, some first, by simp [append, hf, hnext, hlast], hjoined, fun b hb _ => (hframe b hb).2,
      hsize⟩

lemma splice_spec {f r : ℕ} {l₁ l₂ : List (ℕ × β)} (hl₁ : IsList h (some f) l₁)
    (hl₂ : IsList h (some r) l₂) (hd : (l₁.map Prod.fst).Disjoint (l₂.map Prod.fst)) :
    ∃ cf h₁ cr h₂, h.cell f = some cf ∧ h.setNext cf.last (some r) = some h₁ ∧
      h₁.cell r = some cr ∧ h₁.setLast f cr.last = some h₂ ∧ IsList h₂ (some f) (l₁ ++ l₂) := by
  obtain ⟨w, m, hcons, cr, hr, hlast⟩ := hl₂.first
  obtain ⟨cf, h₁, h₂, hf, hnext, hset, hjoined, hframe, -⟩ :=
    hl₁.join hl₂.seg hl₂.nodup hd hlast
  have hr₁ : r ∉ l₁.map Prod.fst := fun hmem => hd hmem (by simp [hcons])
  exact ⟨cf, h₁, cr, h₂, hf, hnext, (hframe r hr₁).1.trans hr, hset, hjoined⟩

lemma unlink_first {a : ℕ} {v : β} (hl : IsList h (some a) ((a, v) :: l)) :
    ∃ h' head', unlink h a none a = some (h', head') ∧ IsList h' head' l ∧
      (∃ c, h'.cell a = some c ∧ c.val = v) ∧
      (∀ b, b ∉ l.map Prod.fst → h'.cell b = h.cell b) ∧ h'.size = h.size := by
  obtain ⟨_, c, hc, hv, hrest⟩ := hl.seg
  have hlast := hl.last a c rfl hc
  have hnodup := hl.nodup
  rw [List.map_cons, List.nodup_cons] at hnodup
  cases l with
  | nil =>
    have hn : c.next = none := hrest
    exact ⟨h, none, by simp [unlink, hc, hn], isList_nil h, ⟨c, hc, hv⟩, fun _ _ => rfl, rfl⟩
  | cons x l =>
    obtain ⟨hn, d, hd, hdv, htail⟩ := hrest
    have hax : a ≠ x.1 := by rintro rfl; simp at hnodup
    refine ⟨⟨Function.update h.cell x.1 (some { d with last := c.last }), h.size⟩, some x.1,
      ?_, ⟨?_, hnodup.2, last_written (by simpa using hlast)⟩, ⟨c, ?_, hv⟩, ?_, rfl⟩
    · simp [unlink, hc, hn, Heap.setLast, modify_of_cell hd]
    · exact (show Seg h (some x.1) (x :: l) none from ⟨rfl, d, hd, hdv, htail⟩).setLast hd _
    · simp [hax, hc]
    · intro b hb
      exact Function.update_of_ne (by rintro rfl; simp at hb) _ _

lemma last_kept {a q : ℕ} {c f : Cell β} {n : Option ℕ} {m : ℕ} (hf : h.cell a = some f)
    (hq : h.cell q = some c) (hlast : l.getLast?.map Prod.fst = some f.last) :
    ∀ a' d, some a = some a' →
      (⟨Function.update h.cell q (some { c with next := n }), m⟩ : Heap β).cell a' = some d →
      l.getLast?.map Prod.fst = some d.last := by
  rintro a' d ⟨rfl⟩ hd
  rw [hlast]
  by_cases he : a = q
  · subst he
    have hcf : c = f := Option.some_inj.mp (hq.symm.trans hf)
    simp only [Function.update_self, Option.some.injEq] at hd
    simp [← hd, hcf]
  · simp only [Function.update_of_ne he, hf, Option.some.injEq] at hd
    rw [hd]

/-- What surrounds the cell of `x`, with predecessor `q`, in a list. -/
structure Around (h : Heap β) (first : ℕ) (k l₂ : List (ℕ × β)) (q x : ℕ × β) (c : Cell β) :
    Prop where
  cell : h.cell x.1 = some c
  val : c.val = x.2
  front : Seg h (some first) (k ++ [q]) (some x.1)
  back : Seg h c.next l₂ none
  head : first ∈ (k ++ [q]).map Prod.fst
  apart : x.1 ∉ (k ++ [q]).map Prod.fst
  before : q.1 ∉ k.map Prod.fst
  after : q.1 ∉ l₂.map Prod.fst
  nodup : ((k ++ [q] ++ l₂).map Prod.fst).Nodup

section Unlinking
variable {k l₂ : List (ℕ × β)} {q x : ℕ × β} {first : ℕ} {c f : Cell β}

lemma IsList.around (hl : IsList h (some first) (k ++ [q] ++ x :: l₂)) :
    ∃ c, Around h first k l₂ q x c := by
  obtain ⟨r, hfront, rfl, c, hc, hv, hrest⟩ := seg_append.mp hl.seg
  have hhead : first ∈ (k ++ [q]).map Prod.fst := by
    cases k with
    | nil => simpa using hfront.1
    | cons y k => simpa using Or.inl hfront.1
  have hnodup := hl.nodup
  rw [List.map_append, List.nodup_append', List.map_cons, List.nodup_cons] at hnodup
  obtain ⟨hnd₁, ⟨_, hnd₂⟩, hdisj⟩ := hnodup
  have hnd : ((k ++ [q] ++ l₂).map Prod.fst).Nodup := by
    rw [List.map_append, List.nodup_append']
    exact ⟨hnd₁, hnd₂, fun b h₁ h₂ => hdisj h₁ (List.mem_cons_of_mem _ h₂)⟩
  exact ⟨c, hc, hv, hfront, hrest, hhead, fun hmem => hdisj hmem (by simp), notMem_init hnd₁,
    fun hmem => hdisj (show q.1 ∈ _ by simp) (List.mem_cons_of_mem _ hmem), hnd⟩

lemma Around.ne_head (ha : Around h first k l₂ q x c) : x.1 ≠ first := by
  rintro he
  exact ha.apart (he ▸ ha.head)

lemma Around.ne_pred (ha : Around h first k l₂ q x c) : x.1 ≠ q.1 := by
  intro he
  apply ha.apart
  simp [he]

lemma unlink_last (ha : Around h first k [] q x c) (hf : h.cell first = some f)
    (hend : x.1 = f.last) :
    ∃ h' head', unlink h first (some q.1) x.1 = some (h', head') ∧ IsList h' head' (k ++ [q]) ∧
      (∃ c, h'.cell x.1 = some c ∧ c.val = x.2) ∧
      (∀ b, b ∉ (k ++ [q]).map Prod.fst → h'.cell b = h.cell b) ∧ h'.size = h.size := by
  let h₁ : Heap β := ⟨Function.update h.cell first (some { f with last := q.1 }), h.size⟩
  have hf₁ : h₁.cell first = some { f with last := q.1 } := Function.update_self ..
  obtain ⟨cq, hcq, _⟩ := ha.front.cell (show q ∈ k ++ [q] by simp)
  obtain ⟨d, hd⟩ : ∃ d, h₁.cell q.1 = some d := by
    by_cases he : q.1 = first
    · exact ⟨_, by rw [he]; exact hf₁⟩
    · exact ⟨cq, by rw [← hcq]; exact Function.update_of_ne he _ _⟩
  refine ⟨⟨Function.update h₁.cell q.1 (some { d with next := none }), h.size⟩, some first,
    ?_, ⟨?_, by simpa using ha.nodup, ?_⟩, ⟨c, ?_, ha.val⟩, ?_, rfl⟩
  · simp only [unlink, hf, ha.cell, Option.bind_eq_bind, Option.bind_some, if_neg ha.ne_head,
      if_pos hend, Heap.setLast, modify_of_cell hf, Heap.setNext]
    rw [modify_of_cell hd]
    rfl
  · exact (ha.front.setLast hf q.1).redirect ha.before hd
  · exact last_kept hf₁ hd (by simp)
  · simp [h₁, ha.ne_head, ha.ne_pred, ha.cell]
  · intro b hb
    have hbf : b ≠ first := by rintro rfl; exact hb ha.head
    have hbq : b ≠ q.1 := by rintro rfl; simp at hb
    simp [h₁, hbf, hbq]

lemma unlink_middle (ha : Around h first k l₂ q x c) (hf : h.cell first = some f)
    (hend : x.1 ≠ f.last) (hlast : (k ++ [q] ++ l₂).getLast?.map Prod.fst = some f.last) :
    ∃ h' head', unlink h first (some q.1) x.1 = some (h', head') ∧
      IsList h' head' (k ++ [q] ++ l₂) ∧ (∃ c, h'.cell x.1 = some c ∧ c.val = x.2) ∧
      (∀ b, b ∉ (k ++ [q] ++ l₂).map Prod.fst → h'.cell b = h.cell b) ∧ h'.size = h.size := by
  obtain ⟨cq, hcq, _⟩ := ha.front.cell (show q ∈ k ++ [q] by simp)
  refine ⟨⟨Function.update h.cell q.1 (some { cq with next := c.next }), h.size⟩, some first,
    ?_, ⟨?_, ha.nodup, last_kept hf hcq hlast⟩, ⟨c, ?_, ha.val⟩, ?_, rfl⟩
  · simp [unlink, hf, ha.cell, ha.ne_head, hend, Heap.setNext, modify_of_cell hcq]
  · exact seg_append.mpr ⟨c.next, ha.front.redirect ha.before hcq, ha.back.update ha.after _ _⟩
  · simp [ha.ne_pred, ha.cell]
  · intro b hb
    exact Function.update_of_ne (by rintro rfl; simp at hb) _ _

lemma unlink_later (hl : IsList h (some first) (k ++ [q] ++ x :: l₂)) :
    ∃ h' head', unlink h first (some q.1) x.1 = some (h', head') ∧
      IsList h' head' (k ++ [q] ++ l₂) ∧ (∃ c, h'.cell x.1 = some c ∧ c.val = x.2) ∧
      (∀ b, b ∉ (k ++ [q] ++ l₂).map Prod.fst → h'.cell b = h.cell b) ∧ h'.size = h.size := by
  obtain ⟨v, l', _, f, hf, hlast⟩ := hl.first
  obtain ⟨c, ha⟩ := hl.around
  obtain rfl | ⟨m, z, rfl⟩ := List.eq_nil_or_concat' l₂
  · rw [List.getLast?_concat] at hlast
    simpa using unlink_last ha hf (by simpa using hlast)
  · rw [show k ++ [q] ++ x :: (m ++ [z]) = k ++ [q] ++ x :: m ++ [z] by simp,
      List.getLast?_concat] at hlast
    have hnodup := hl.nodup
    refine unlink_middle ha hf (fun hend => ?_) ?_
    · have hz : z.1 = x.1 := by rw [hend]; simpa using hlast
      simp [List.nodup_append', hz] at hnodup
    · rw [← List.append_assoc, List.getLast?_concat, hlast]

end Unlinking

lemma unlink_spec {l₁ l₂ : List (ℕ × β)} {x : ℕ × β} {first : ℕ}
    (hl : IsList h (some first) (l₁ ++ x :: l₂)) :
    ∃ h' head', unlink h first (l₁.getLast?.map Prod.fst) x.1 = some (h', head') ∧
      IsList h' head' (l₁ ++ l₂) ∧ (∃ c, h'.cell x.1 = some c ∧ c.val = x.2) ∧
      (∀ b, b ∉ (l₁ ++ l₂).map Prod.fst → h'.cell b = h.cell b) ∧ h'.size = h.size := by
  obtain rfl | ⟨k, q, rfl⟩ := List.eq_nil_or_concat' l₁
  · obtain rfl : first = x.1 := Option.some_inj.mp hl.seg.1
    exact unlink_first hl
  · rw [List.getLast?_concat]
    exact unlink_later hl

end Lists

end LdapTgen.TailedList
