import LdapTgen.LinkedCells

/-! Linked lists beside cells that are allocated and in no list, as a cell that was taken off the list and
is not yet freed. The operations on the list leave those cells alone. -/
namespace LdapTgen.LinkedCells

variable {β σ : Type}

/-- The cell `a` is linked in before the first one whose value satisfies `p`, or behind the last one. -/
def linkBefore (p : β → Bool) (h : Heap β) (head : Option ℕ) (a : ℕ) : Option (Heap β × Option ℕ) :=
  match head with
  | none => some (h, some a)
  | some _ => do
      let (prev, _) ← search p h h.fresh none head
      match prev with
      | none => some (← h.setNext a head, some a)
      | some q =>
          let c ← h.cell q
          let h ← h.setNext a c.next
          some (← h.setNext q (some a), head)

def insertBefore (p : β → Bool) (v : β) (h : Heap β) (head : Option ℕ) :
    Option (Heap β × Option ℕ) :=
  let (a, h) := h.alloc ⟨none, v⟩
  linkBefore p h head a

/-- The list that starts at `head` holds the values `vs`, and the cells at `as` are allocated beside it. -/
def HoldsBeside (h : Heap β) (head : Option ℕ) (vs : List β) (as : List ℕ) : Prop :=
  ∃ l : List (ℕ × β), Seg h head l none ∧ (l.map Prod.fst ++ as).Nodup ∧ l.map Prod.snd = vs ∧
    ∀ a ∈ as, (h.cell a).isSome

section Beside
variable {h h' : Heap β} {head : Option ℕ} {vs : List β} {as : List ℕ} {a : ℕ} {v : β}

lemma HoldsBeside.holds (hh : HoldsBeside h head vs as) : Holds h head vs := by
  obtain ⟨l, hl, hnodup, hvals, -⟩ := hh
  exact ⟨l, hl, (List.nodup_append.mp hnodup).1, hvals⟩

lemma holdsBeside_empty (h : Heap β) : HoldsBeside h none [] [] := ⟨[], rfl, List.nodup_nil, rfl, by simp⟩

lemma HoldsBeside.takeFirst (hh : HoldsBeside h (some a) (v :: vs) as) :
    ∃ n, h.cell a = some ⟨n, v⟩ ∧ HoldsBeside h n vs (a :: as) := by
  obtain ⟨l, hl, hnodup, hvals, has⟩ := hh
  cases l with
  | nil => cases hvals
  | cons x l =>
    obtain ⟨hx, n, hc, hrest⟩ := hl
    obtain rfl : a = x.1 := Option.some.inj hx
    obtain ⟨rfl, rfl⟩ : x.2 = v ∧ l.map Prod.snd = vs := by simpa using hvals
    refine ⟨n, hc, l, hrest, ?_, rfl, ?_⟩
    · exact (List.perm_middle.nodup_iff).mpr (by simpa using hnodup)
    · intro b hb
      rcases List.mem_cons.mp hb with rfl | hb
      · rw [hc]
        rfl
      · exact has b hb

lemma isSome_update {d : Option (Cell β)} (hcell : h'.cell = Function.update h.cell a d) (ha : a ∉ as)
    (has : ∀ b ∈ as, (h.cell b).isSome) : ∀ b ∈ as, (h'.cell b).isSome := by
  intro b hb
  have hba : b ≠ a := by
    rintro rfl
    exact ha hb
  rw [hcell, Function.update_of_ne hba]
  exact has b hb

lemma HoldsBeside.free (hh : HoldsBeside h head vs (a :: as)) :
    ∃ h', h.free a = some h' ∧ HoldsBeside h' head vs as := by
  obtain ⟨l, hl, hnodup, hvals, has⟩ := hh
  obtain ⟨c, hc⟩ := Option.isSome_iff_exists.mp (has a List.mem_cons_self)
  obtain ⟨h', hfree, hcell, -⟩ := modify_of_cell (f := fun _ => none) hc
  obtain ⟨hal, haas⟩ := notMem_of_nodup hnodup
  refine ⟨h', hfree, l, hl.update hcell hal, ?_, hvals, ?_⟩
  · exact hnodup.sublist (List.Sublist.append_left (List.sublist_cons_self _ _) _)
  · exact isSome_update hcell haas fun b hb => has b (List.mem_cons_of_mem a hb)

end Beside

section Search
variable {h : Heap β} {entry : Option ℕ} {l : List (ℕ × β)} {k : ℕ} {p : β → Bool}

lemma search_of_seg (done : List (ℕ × β)) (hl : Seg h entry l none) (hk : l.length ≤ k) :
    ∃ found, search p h k (done.getLast?.map Prod.fst) entry =
      some ((done ++ l.takeWhile (!p ·.2)).getLast?.map Prod.fst, found) := by
  induction l generalizing k entry done with
  | nil =>
    obtain rfl : entry = none := hl
    exact ⟨none, by cases k <;> simp [search]⟩
  | cons x l ih =>
    obtain ⟨rfl, n, hc, hrest⟩ := hl
    obtain ⟨k, rfl⟩ : ∃ j, k = j + 1 := ⟨k - 1, by simp at hk; omega⟩
    cases hp : p x.2 with
    | true => exact ⟨some x.1, by simp [search, hc, hp]⟩
    | false =>
      obtain ⟨found, hsearch⟩ := ih (done ++ [x]) hrest (by simpa using hk)
      refine ⟨found, ?_⟩
      rw [search]
      simpa [hc, hp] using hsearch

end Search

section Insert
variable {h : Heap β} {head : Option ℕ} {vs : List β} {as : List ℕ} {p : β → Bool}

variable {a : ℕ} {v : β} {l m : List (ℕ × β)} {x : ℕ × β} {o : Option ℕ}

lemma link_first (hm : Seg h head m none) (ham : a ∉ m.map Prod.fst) (ha : h.cell a = some ⟨o, v⟩) :
    ∃ h', h.setNext a head = some h' ∧ Seg h' (some a) ((a, v) :: m) none ∧
      ∀ b, b ≠ a → h'.cell b = h.cell b := by
  obtain ⟨h', hset, hcell, -⟩ := modify_of_cell (f := fun c => some { c with next := head }) ha
  have ha' : h'.cell a = some ⟨head, v⟩ := by rw [hcell, Function.update_self]
  refine ⟨h', hset, ⟨rfl, head, ha', hm.update hcell ham⟩, fun b hb => ?_⟩
  rw [hcell, Function.update_of_ne hb]

lemma link_behind (hl : Seg h head (l ++ [x] ++ m) none)
    (hnodup : ((l ++ [x]).map Prod.fst ++ a :: m.map Prod.fst).Nodup) (ha : h.cell a = some ⟨o, v⟩) :
    ∃ c h₁ h₂, h.cell x.1 = some c ∧ h.setNext a c.next = some h₁ ∧
      h₁.setNext x.1 (some a) = some h₂ ∧ Seg h₂ head (l ++ [x] ++ (a, v) :: m) none ∧
      ∀ b, b ≠ a → b ≠ x.1 → h₂.cell b = h.cell b := by
  obtain ⟨hal, ham⟩ := notMem_of_nodup hnodup
  obtain ⟨hnl, -, hdis⟩ := List.nodup_append.mp hnodup
  obtain ⟨r, hseg, hrest⟩ := seg_append.mp hl
  obtain ⟨h₁, hset, hnew, hframe⟩ := link_first hrest ham ha
  have hseg₁ : Seg h₁ head (l ++ [x]) r := hseg.congr fun y hy =>
    hframe y.1 fun hya => hal (hya ▸ List.mem_map_of_mem hy)
  have hxl : x.1 ∉ l.map Prod.fst := by
    rw [List.map_append, List.map_singleton] at hnl
    exact (notMem_of_nodup hnl).1
  have hxnew : x.1 ∉ ((a, v) :: m).map Prod.fst := fun hmem => hdis x.1 (by simp) x.1 hmem rfl
  obtain ⟨h₂, hset₂, hcell₂, -⟩ :=
    modify_of_cell (f := fun c => some { c with next := some a }) (seg_snoc.mp hseg₁).2
  refine ⟨_, h₁, h₂, (seg_snoc.mp hseg).2, hset, hset₂, ?_, fun b hba hbx => ?_⟩
  · exact seg_append.mpr ⟨some a, hseg₁.redirect hxl hcell₂, hnew.update hcell₂ hxnew⟩
  · rw [hcell₂, Function.update_of_ne hbx, hframe b hba]

lemma link_between (hl : Seg h head (l ++ m) none)
    (hnodup : (l.map Prod.fst ++ a :: m.map Prod.fst).Nodup) (ha : h.cell a = some ⟨o, v⟩) :
    ∃ h' head', (match l.getLast?.map Prod.fst with
        | none => (h.setNext a head).bind fun h => some (h, some a)
        | some q => (h.cell q).bind fun c => (h.setNext a c.next).bind fun h =>
            (h.setNext q (some a)).bind fun h => some (h, head)) = some (h', head') ∧
      Seg h' head' (l ++ (a, v) :: m) none ∧
      ∀ b ∉ a :: l.map Prod.fst, h'.cell b = h.cell b := by
  rcases List.eq_nil_or_concat l with rfl | ⟨l, x, rfl⟩
  · obtain ⟨h', hset, hseg, hframe⟩ := link_first hl (notMem_of_nodup hnodup).2 ha
    refine ⟨h', some a, by simp [hset], hseg, fun b hb => hframe b fun hba => hb (by simp [hba])⟩
  · rw [List.concat_eq_append] at *
    obtain ⟨c, h₁, h₂, hx, hset, hset₂, hseg, hframe⟩ := link_behind hl hnodup ha
    refine ⟨h₂, head, by simp [hx, hset, hset₂], hseg, fun b hb => ?_⟩
    exact hframe b (fun hba => hb (by simp [hba])) fun hbx => hb (by simp [hbx])

def insertValue (p : β → Bool) (v : β) (vs : List β) : List β :=
  vs.takeWhile (!p ·) ++ v :: vs.dropWhile (!p ·)

lemma insertValue_perm (p : β → Bool) (v : β) (vs : List β) : (insertValue p v vs).Perm (v :: vs) := by
  have hsplit : vs.takeWhile (!p ·) ++ vs.dropWhile (!p ·) = vs := List.takeWhile_append_dropWhile
  conv_rhs => rw [← hsplit]
  exact List.perm_middle

lemma mem_insertValue {u v : β} : u ∈ insertValue p v vs ↔ u = v ∨ u ∈ vs := by
  rw [(insertValue_perm p v vs).mem_iff, List.mem_cons]

lemma insertValue_map (l : List (ℕ × β)) (a : ℕ) (v : β) :
    (insertValue (p ·.2) (a, v) l).map Prod.snd = insertValue p v (l.map Prod.snd) := by
  rw [insertValue, insertValue, List.takeWhile_map, List.dropWhile_map, List.map_append, List.map_cons]
  rfl

lemma pairwise_insertValue {R : β → β → Prop} {v : β} (hvs : vs.Pairwise R)
    (hbefore : ∀ u ∈ vs, p u = false → R u v) (hafter : ∀ u ∈ vs, p u = true → R v u)
    (hup : ∀ u w, R u w → p u = true → p w = true) : (insertValue p v vs).Pairwise R := by
  rw [← List.takeWhile_append_dropWhile (p := (!p ·)) (l := vs)] at hvs
  obtain ⟨hfst, hsnd, hcross⟩ := List.pairwise_append.mp hvs
  have htake : ∀ u ∈ vs.takeWhile (!p ·), R u v := fun u hu =>
    hbefore u ((List.takeWhile_sublist _).subset hu) (by simpa using List.mem_takeWhile_imp hu)
  have hall : ∀ u ∈ vs.dropWhile (!p ·), p u = true := by
    cases hdrop : vs.dropWhile (!p ·) with
    | nil => simp
    | cons w ws =>
      rw [hdrop] at hsnd
      have hw : p w = true := by
        have := List.head_dropWhile_not (!p ·) (l := vs) (by simp [hdrop])
        simpa [hdrop] using this
      intro u hu
      rcases List.mem_cons.mp hu with rfl | hu
      · exact hw
      · exact hup w u (List.rel_of_pairwise_cons hsnd hu) hw
  have hdrop : ∀ u ∈ vs.dropWhile (!p ·), R v u := fun u hu =>
    hafter u ((List.dropWhile_sublist _).subset hu) (hall u hu)
  refine List.pairwise_append.mpr ⟨hfst, List.pairwise_cons.mpr ⟨hdrop, hsnd⟩, ?_⟩
  intro u hu w hw
  rcases List.mem_cons.mp hw with rfl | hw
  · exact htake u hu
  · exact hcross u hu w hw

lemma HoldsBeside.linkBefore {a : ℕ} {v : β} (hh : HoldsBeside h head vs (a :: as))
    (ha : h.cell a = some ⟨none, v⟩) (p : β → Bool) :
    ∃ h' head', LinkedCells.linkBefore p h head a = some (h', head') ∧
      HoldsBeside h' head' (insertValue p v vs) as := by
  obtain ⟨l, hl, hnodup, rfl, has⟩ := hh
  have hrest := fun b hb => has b (List.mem_cons_of_mem a hb)
  obtain ⟨hal, haas⟩ := notMem_of_nodup hnodup
  cases head with
  | none =>
    have hnil : l = [] := by
      cases l with
      | nil => rfl
      | cons x l => cases hl.1
    subst hnil
    exact ⟨h, some a, rfl, [(a, v)], ⟨rfl, none, ha, rfl⟩, by simpa using hnodup, rfl, hrest⟩
  | some b =>
    have hlen : l.length ≤ h.fresh := hl.length_le (List.nodup_append.mp hnodup).1
    have hsplit : l.takeWhile (!p ·.2) ++ l.dropWhile (!p ·.2) = l := List.takeWhile_append_dropWhile
    have hperm : ((insertValue (p ·.2) (a, v) l).map Prod.fst ++ as).Perm (l.map Prod.fst ++ a :: as) :=
      (((insertValue_perm _ _ l).map Prod.fst).append_right as).trans List.perm_middle.symm
    have hnew := hperm.nodup_iff.mpr hnodup
    obtain ⟨found, hsearch⟩ := search_of_seg (p := p) [] hl hlen
    obtain ⟨h', head', hlink, hseg, hframe⟩ := link_between (hsplit.symm ▸ hl)
      (by simpa [insertValue] using (List.nodup_append.mp hnew).1) ha
    refine ⟨h', head', ?_, _, hseg, hnew, insertValue_map l a v, ?_⟩
    · rw [List.getLast?_nil, Option.map_none, List.nil_append] at hsearch
      simp only [LinkedCells.linkBefore, hsearch, Option.bind_eq_bind, Option.bind_some]
      exact hlink
    · intro c hc
      rw [hframe c]
      · exact hrest c hc
      · rw [List.mem_cons, not_or]
        refine ⟨fun hca => haas (hca ▸ hc), fun hmem => ?_⟩
        have hcl := ((List.takeWhile_sublist _).map Prod.fst).subset hmem
        exact (List.nodup_append.mp hnodup).2.2 c hcl c (List.mem_cons_of_mem a hc) rfl

lemma HoldsBeside.alloc (hh : HoldsBeside h head vs as) (c : Cell β) :
    HoldsBeside (h.alloc c).2 head vs ((h.alloc c).1 :: as) := by
  obtain ⟨l, hl, hnodup, rfl, has⟩ := hh
  have hcell : (h.alloc c).2.cell = Function.update h.cell h.fresh (some c) := rfl
  have hlist : h.fresh ∉ l.map Prod.fst := by
    intro hmem
    obtain ⟨x, hx, heq⟩ := List.mem_map.mp hmem
    obtain ⟨n, hc⟩ := hl.cell hx
    exact absurd (lt_fresh hc) (by omega)
  have hbeside : h.fresh ∉ as := by
    intro hmem
    obtain ⟨d, hd⟩ := Option.isSome_iff_exists.mp (has _ hmem)
    exact absurd (lt_fresh hd) (lt_irrefl _)
  refine ⟨l, hl.update hcell hlist, ?_, rfl, ?_⟩
  · refine List.perm_middle.nodup_iff.mpr (List.nodup_cons.mpr ⟨?_, hnodup⟩)
    rw [List.mem_append, not_or]
    exact ⟨hlist, hbeside⟩
  · intro b hb
    rcases List.mem_cons.mp hb with rfl | hb
    · simp [Heap.alloc]
    · exact isSome_update hcell hbeside has b hb

lemma HoldsBeside.insertBefore (hh : HoldsBeside h head vs as) (p : β → Bool) (v : β) :
    ∃ h' head', LinkedCells.insertBefore p v h head = some (h', head') ∧
      HoldsBeside h' head' (insertValue p v vs) as :=
  (hh.alloc ⟨none, v⟩).linkBefore (by simp [Heap.alloc]) p

end Insert

section Sweep
variable {visit : σ → β → Option (σ × β × Bool)} {h h' : Heap β} {head head' prev n : Option ℕ} {a b : ℕ}
  {v : β} {s t : σ} {k : ℕ} {l : List (ℕ × β)}

lemma modify_frame {f : Cell β → Option (Cell β)} (hm : h.modify a f = some h') (hb : b ≠ a) :
    h'.cell b = h.cell b := by
  cases hc : h.cell a with
  | none =>
    rw [modify_of_none hc] at hm
    cases hm
  | some c =>
    obtain ⟨h₁, hmod, hcell, -⟩ := modify_of_cell (f := f) hc
    obtain rfl : h₁ = h' := Option.some.inj (hmod.symm.trans hm)
    rw [hcell, Function.update_of_ne hb]

lemma unlink_frame (hu : unlink h head prev a = some (h', head')) (hb : some b ≠ prev) :
    h'.cell b = h.cell b := by
  simp only [unlink, Option.bind_eq_bind, Option.bind_eq_some_iff] at hu
  obtain ⟨c, -, hu⟩ := hu
  cases prev with
  | none =>
    cases hu
    rfl
  | some q =>
    simp only [Option.bind_eq_some_iff, Option.some.injEq, Prod.mk.injEq] at hu
    obtain ⟨h₁, hset, rfl, -⟩ := hu
    exact modify_frame hset fun hbq => hb (congrArg some hbq)

lemma sweepLoop_turn {r : Heap β × Option ℕ × σ} (hc : h.cell a = some ⟨n, v⟩)
    (hr : sweepLoop visit (k + 1) h head prev (some a) s = some r) :
    ∃ h₁ head₁ prev₁ s₁, sweepLoop visit k h₁ head₁ prev₁ n s₁ = some r ∧
      (prev₁ = prev ∨ prev₁ = some a) ∧ ∀ b, b ≠ a → some b ≠ prev → h₁.cell b = h.cell b := by
  simp only [sweepLoop, hc, Option.bind_eq_bind, Option.bind_some, Option.bind_eq_some_iff] at hr
  obtain ⟨⟨s₁, w, removed⟩, -, h₁, hset, hr⟩ := hr
  cases removed with
  | false =>
    refine ⟨h₁, head, some a, s₁, by simpa using hr, .inr rfl, fun b hb _ => ?_⟩
    exact modify_frame hset hb
  | true =>
    simp only [if_true, Option.bind_eq_some_iff] at hr
    obtain ⟨⟨h₂, head₂⟩, hun, h₃, hfree, hr⟩ := hr
    refine ⟨h₃, head₂, prev, s₁, hr, .inl rfl, fun b hb hbp => ?_⟩
    rw [modify_frame hfree hb, unlink_frame hun hbp, modify_frame hset hb]

lemma sweepLoop_frame {r : Heap β × Option ℕ × σ} (hl : Seg h n l none) (hnodup : (l.map Prod.fst).Nodup)
    (hprev : ∀ x ∈ l, some x.1 ≠ prev) (hr : sweepLoop visit k h head prev n s = some r)
    (hb : b ∉ l.map Prod.fst) (hbp : some b ≠ prev) : r.1.cell b = h.cell b := by
  induction l generalizing k h head prev n s with
  | nil =>
    obtain rfl : n = none := hl
    cases k <;> cases hr <;> rfl
  | cons x l ih =>
    obtain ⟨rfl, m, hc, hrest⟩ := hl
    obtain ⟨hx, hnl⟩ := List.nodup_cons.mp hnodup
    rw [List.map_cons, List.mem_cons, not_or] at hb
    cases k with
    | zero => cases hr
    | succ k =>
      obtain ⟨h₁, head₁, prev₁, s₁, hloop, hor, hsame⟩ := sweepLoop_turn hc hr
      have hne : ∀ y ∈ l, y.1 ≠ x.1 := by
        rintro y hy heq
        exact hx (heq ▸ List.mem_map_of_mem hy)
      have hseg : Seg h₁ m l none := hrest.congr fun y hy =>
        hsame y.1 (hne y hy) (hprev y (List.mem_cons_of_mem x hy))
      rw [ih hseg hnl ?_ hloop hb.2 ?_, hsame b hb.1 hbp]
      · intro y hy
        rcases hor with rfl | rfl
        · exact hprev y (List.mem_cons_of_mem x hy)
        · exact fun heq => hne y hy (Option.some.inj heq)
      · rcases hor with rfl | rfl
        · exact hbp
        · exact fun heq => hb.1 (Option.some.inj heq)

lemma HoldsBeside.sweep {vs ws : List β} {as : List ℕ} (hh : HoldsBeside h head vs as)
    (hlist : sweepList visit s vs = some (ws, t)) :
    ∃ h' head', LinkedCells.sweep visit h head s = some (h', head', t) ∧ HoldsBeside h' head' ws as := by
  obtain ⟨l, hl, hnodup, rfl, has⟩ := hh
  obtain ⟨hnl, -, hdis⟩ := List.nodup_append.mp hnodup
  have hstart : Seg h head [] head := rfl
  obtain ⟨h', head', hres, m, hm, hsub, hvals⟩ :=
    (sweepLoop_of_seg (s := s) (hl.length_le hnl) hstart hl (by simpa using hnl)).1 ws t hlist
  refine ⟨h', head', hres, m, hm, hnodup.sublist (List.Sublist.append_right hsub as), hvals, ?_⟩
  intro a ha
  have hal : a ∉ l.map Prod.fst := fun hmem => hdis a hmem a ha rfl
  rw [sweepLoop_frame hl hnl (by simp) hres hal (by simp)]
  exact has a ha

end Sweep

end LdapTgen.LinkedCells
