import Mathlib

/-! Text hidden block by block: each block is combined with a key, the key of the first block is given
and that of a later one is a function of the hidden block before it. -/
namespace LdapTgen.ChainedBlocks

variable {α : Type*} (op : α → α → α) (f : List α → List α) (n : ℕ)

def hide (key l : List α) : List α :=
  if 0 < n ∧ l ≠ [] then
    List.zipWith op (l.take n) key ++ hide (f (List.zipWith op (l.take n) key)) (l.drop n)
  else []
termination_by l.length
decreasing_by
  rename_i h
  have hpos := List.length_pos_iff.mpr h.2
  rw [List.length_drop]
  omega

def unhide (key l : List α) : List α :=
  if 0 < n ∧ l ≠ [] then List.zipWith op (l.take n) key ++ unhide (f (l.take n)) (l.drop n) else []
termination_by l.length
decreasing_by
  rename_i h
  have hpos := List.length_pos_iff.mpr h.2
  rw [List.length_drop]
  omega

def nextKey (key hidden : List α) : List α :=
  if hidden = [] then key else f (hidden.drop (hidden.length - n))

@[simp] lemma hide_nil (key : List α) : hide op f n key [] = [] := by
  rw [hide, if_neg (by simp)]

@[simp] lemma unhide_nil (key : List α) : unhide op f n key [] = [] := by
  rw [unhide, if_neg (by simp)]

@[simp] lemma nextKey_nil (key : List α) : nextKey f n key [] = key := if_pos rfl

variable {op f n} {key b l m : List α}

lemma hide_block (hn : 0 < n) (hb : b.length = n) (l : List α) :
    hide op f n key (b ++ l) =
      List.zipWith op b key ++ hide op f n (f (List.zipWith op b key)) l := by
  have hne : b ++ l ≠ [] := List.append_ne_nil_of_left_ne_nil (List.ne_nil_of_length_pos (by omega)) l
  rw [hide, if_pos ⟨hn, hne⟩, List.take_left' hb, List.drop_left' hb]

lemma unhide_block (hn : 0 < n) (hb : b.length = n) (l : List α) :
    unhide op f n key (b ++ l) = List.zipWith op b key ++ unhide op f n (f b) l := by
  have hne : b ++ l ≠ [] := List.append_ne_nil_of_left_ne_nil (List.ne_nil_of_length_pos (by omega)) l
  rw [unhide, if_pos ⟨hn, hne⟩, List.take_left' hb, List.drop_left' hb]

lemma unhide_last (hn : 0 < n) (hl : l.length ≤ n) :
    unhide op f n key l = List.zipWith op l key := by
  rcases eq_or_ne l [] with rfl | hne
  · rw [unhide_nil, List.zipWith_nil_left]
  · rw [unhide, if_pos ⟨hn, hne⟩, List.take_of_length_le hl, List.drop_of_length_le hl, unhide_nil,
      List.append_nil]

section Keys
variable (hf : ∀ c, (f c).length = n)
include hf

lemma length_hide (hn : 0 < n) (hkey : key.length = n) (l : List α) :
    (hide op f n key l).length = l.length := by
  fun_induction hide op f n key l with
  | case1 key l h ih =>
    rw [List.length_append, ih (hf _), List.length_zipWith, List.length_take, List.length_drop, hkey]
    omega
  | case2 key l h =>
    rw [not_and, not_not] at h
    rw [h hn, List.length_nil]

lemma length_unhide (hn : 0 < n) (hkey : key.length = n) (l : List α) :
    (unhide op f n key l).length = l.length := by
  fun_induction unhide op f n key l with
  | case1 key l h ih =>
    rw [List.length_append, ih (hf _), List.length_zipWith, List.length_take, List.length_drop, hkey]
    omega
  | case2 key l h =>
    rw [not_and, not_not] at h
    rw [h hn, List.length_nil]

lemma length_nextKey (hkey : key.length = n) (hidden : List α) :
    (nextKey f n key hidden).length = n := by
  rw [nextKey]
  split_ifs
  · exact hkey
  · exact hf _

omit hf in
lemma nextKey_block (hn : 0 < n) (hb : b.length = n) (hm : n ∣ m.length) :
    nextKey f n key (b ++ m) = nextKey f n (f b) m := by
  rcases eq_or_ne m [] with rfl | hne
  · have hb' : b ≠ [] := List.ne_nil_of_length_pos (by omega)
    rw [List.append_nil, nextKey_nil, nextKey, if_neg hb', hb, Nat.sub_self, List.drop_zero]
  · have hle : n ≤ m.length := Nat.le_of_dvd (List.length_pos_iff.mpr hne) hm
    rw [nextKey, nextKey, if_neg hne, if_neg (List.append_ne_nil_of_right_ne_nil b hne),
      List.length_append, hb, show n + m.length - n = n + (m.length - n) by omega, ← List.drop_drop,
      List.drop_left' hb]

lemma unhide_hide (hop : ∀ a k, op (op a k) k = a) (hn : 0 < n) (hkey : key.length = n) (l : List α) :
    unhide op f n key (hide op f n key l) = l := by
  have hzip : ∀ {b k : List α}, b.length ≤ k.length →
      List.zipWith op (List.zipWith op b k) k = b := by
    intro b k h
    induction b generalizing k with
    | nil => rfl
    | cons a b ih =>
      cases k with
      | nil => simp at h
      | cons x k =>
        rw [List.zipWith_cons_cons, List.zipWith_cons_cons, hop, ih (by simpa using h)]
  fun_induction hide op f n key l with
  | case1 key l h ih =>
    rcases Nat.lt_or_ge l.length n with hlt | hge
    · -- the last block
      rw [List.drop_of_length_le hlt.le, hide_nil, List.append_nil, List.take_of_length_le hlt.le,
        unhide_last hn (by rw [List.length_zipWith]; omega), hzip (by omega)]
    · have htake : (l.take n).length = n := List.length_take_of_le hge
      rw [unhide_block hn (by rw [List.length_zipWith]; omega), hzip (by omega), ih (hf _),
        List.take_append_drop]
  | case2 key l h =>
    rw [not_and, not_not] at h
    rw [h hn, unhide_nil]

end Keys

@[elab_as_elim]
lemma blocks_induction {motive : (l : List α) → n ∣ l.length → Prop}
    (nil : ∀ h, motive [] h)
    (block : ∀ b l, b.length = n → ∀ (hl : n ∣ l.length) h, motive l hl → motive (b ++ l) h)
    (l : List α) (hl : n ∣ l.length) : motive l hl := by
  obtain ⟨k, hk⟩ := id hl
  induction k generalizing l with
  | zero =>
    obtain rfl : l = [] := List.length_eq_zero_iff.mp (by simpa using hk)
    exact nil hl
  | succ k ih =>
    rw [Nat.mul_succ] at hk
    have hdrop : (l.drop n).length = n * k := by
      rw [List.length_drop]
      omega
    have hcut := block (l.take n) (l.drop n) (List.length_take_of_le (by omega)) ⟨k, hdrop⟩
      ((List.take_append_drop n l).symm ▸ hl) (ih _ ⟨k, hdrop⟩ hdrop)
    simpa only [List.take_append_drop] using hcut

lemma hide_append (hf : ∀ c, (f c).length = n) (hn : 0 < n) (hkey : key.length = n)
    (hm : n ∣ m.length) (l : List α) : hide op f n key (m ++ l) =
      hide op f n key m ++ hide op f n (nextKey f n key (hide op f n key m)) l := by
  induction m, hm using blocks_induction generalizing key with
  | nil h => rw [List.nil_append, hide_nil, nextKey_nil, List.nil_append]
  | block b m hb hm h ih =>
    have hzip : (List.zipWith op b key).length = n := by
      rw [List.length_zipWith]
      omega
    rw [List.append_assoc, hide_block hn hb, hide_block hn hb, ih (hf _), List.append_assoc,
      nextKey_block hn hzip (by rwa [length_hide hf hn (hf _)])]

lemma unhide_append (hn : 0 < n) (hm : n ∣ m.length) (l : List α) :
    unhide op f n key (m ++ l) =
      unhide op f n key m ++ unhide op f n (nextKey f n key m) l := by
  induction m, hm using blocks_induction generalizing key with
  | nil h => rw [List.nil_append, unhide_nil, nextKey_nil, List.nil_append]
  | block b m hb hm h ih =>
    rw [List.append_assoc, unhide_block hn hb, unhide_block hn hb, ih, List.append_assoc,
      nextKey_block hn hb hm]

end LdapTgen.ChainedBlocks
