import Mathlib

/-! A list cut into pieces of a given length, the last of which may be shorter. -/
namespace LdapTgen.Pieces

variable {α : Type*} {n : ℕ} {l : List α}

def pieces (n : ℕ) (l : List α) : List (List α) :=
  if 0 < n ∧ l ≠ [] then l.take n :: pieces n (l.drop n) else []
termination_by l.length
decreasing_by
  rename_i h
  have hpos := List.length_pos_iff.mpr h.2
  rw [List.length_drop]
  omega

@[simp] lemma pieces_nil (n : ℕ) : pieces n ([] : List α) = [] := by
  rw [pieces, if_neg (by simp)]

lemma pieces_cons (hn : 0 < n) (hl : l ≠ []) : pieces n l = l.take n :: pieces n (l.drop n) := by
  rw [pieces, if_pos ⟨hn, hl⟩]

lemma flatten_pieces (hn : 0 < n) (l : List α) : (pieces n l).flatten = l := by
  fun_induction pieces n l with
  | case1 l h ih => rw [List.flatten_cons, ih, List.take_append_drop]
  | case2 l h =>
    rw [not_and, not_not] at h
    rw [h hn, List.flatten_nil]

end LdapTgen.Pieces
