import Mathlib

/-! Replacement of words in a text. The text is read from left to right; each word that is found is
replaced, and the text is read on behind it. -/
namespace LdapTgen.Replacement

section Words
variable {α : Type} [DecidableEq α] (ws : List (List α))

def wordAt (t : List α) : Option (List α) := ws.find? (·.isPrefixOf t)

/-- The text with each word replaced by `v`, the first `k` characters left out. -/
def replaceAll (v : List α) : ℕ → List α → List α
  | _, [] => []
  | k + 1, _ :: t => replaceAll v k t
  | 0, c :: t =>
      match wordAt ws (c :: t) with
      | some w => v ++ replaceAll v (w.length - 1) t
      | none => c :: replaceAll v 0 t

def found : ℕ → List α → List (List α)
  | _, [] => []
  | k + 1, _ :: t => found k t
  | 0, c :: t =>
      match wordAt ws (c :: t) with
      | some w => w :: found (w.length - 1) t
      | none => found 0 t

def Clean (t : List α) : Prop := ∀ w ∈ ws, ¬ w <:+: t

instance decidableClean (t : List α) : Decidable (Clean ws t) :=
  inferInstanceAs (Decidable (∀ w ∈ ws, ¬ w <:+: t))

variable {ws} {v s t w : List α}

omit [DecidableEq α] in
lemma Clean.of_infix (h : Clean ws t) (hs : s <:+: t) : Clean ws s :=
  fun w hw hin => h w hw (hin.trans hs)

lemma wordAt_eq_some (h : wordAt ws t = some w) : w ∈ ws ∧ w <+: t := by
  rw [wordAt] at h
  have hp := List.find?_some h
  exact ⟨List.mem_of_find?_eq_some h, List.isPrefixOf_iff_prefix.mp hp⟩

lemma wordAt_eq_none : wordAt ws t = none ↔ ∀ w ∈ ws, ¬ w <+: t := by
  simp [wordAt, List.find?_eq_none]

lemma replaceAll_drop (k : ℕ) (t : List α) :
    replaceAll ws v k t = replaceAll ws v 0 (t.drop k) := by
  induction k generalizing t with
  | zero => simp
  | succ k ih =>
    cases t with
    | nil => simp [replaceAll]
    | cons c t => rw [replaceAll, ih, List.drop_succ_cons]

lemma found_drop (k : ℕ) (t : List α) : found ws k t = found ws 0 (t.drop k) := by
  induction k generalizing t with
  | zero => simp
  | succ k ih =>
    cases t with
    | nil => simp [found]
    | cons c t => rw [found, ih, List.drop_succ_cons]

lemma Clean.wordAt_eq (h : Clean ws t) : wordAt ws t = none :=
  wordAt_eq_none.mpr fun w hw hp => h w hw hp.isInfix

lemma Clean.replaceAll_eq (h : Clean ws t) : replaceAll ws v 0 t = t ∧ found ws 0 t = [] := by
  induction t with
  | nil => exact ⟨rfl, rfl⟩
  | cons c t ih =>
    obtain ⟨hr, hf⟩ := ih (h.of_infix (List.suffix_cons c t).isInfix)
    simp [replaceAll, found, h.wordAt_eq, hr, hf]

lemma exists_first (hne : [] ∉ ws) (h : ¬ Clean ws t) : ∃ a b, ∃ w ∈ ws, t = a ++ (w ++ b) ∧
    (∀ v, replaceAll ws v 0 t = a ++ (v ++ replaceAll ws v 0 b)) ∧
    found ws 0 t = w :: found ws 0 b ∧
    ∀ a' b', ∀ w' ∈ ws, t = a' ++ (w' ++ b') → a.length ≤ a'.length := by
  induction t with
  | nil =>
    refine absurd (fun w hw hin => hne ?_) h
    rwa [List.infix_nil.mp hin] at hw
  | cons c t ih =>
    cases hword : wordAt ws (c :: t) with
    | some w =>
      obtain ⟨hw, b, hb⟩ := wordAt_eq_some hword
      have hwne : w ≠ [] := fun h => hne (h ▸ hw)
      have hdrop : t.drop (w.length - 1) = b := by
        obtain ⟨d, w', rfl⟩ := List.exists_cons_of_ne_nil hwne
        rw [List.cons_append, List.cons.injEq] at hb
        simp [← hb.2]
      refine ⟨[], b, w, hw, hb.symm, fun v => ?_, ?_, fun a' b' w' _ _ => Nat.zero_le _⟩
      · rw [replaceAll, hword, List.nil_append]
        simp only
        rw [replaceAll_drop, hdrop]
      · rw [found, hword]
        simp only
        rw [found_drop, hdrop]
    | none =>
      have hnot := wordAt_eq_none.mp hword
      have ht : ¬ Clean ws t := by
        intro hclean
        refine h fun w hw hin => ?_
        rcases List.infix_cons_iff.mp hin with hp | hin
        · exact hnot w hw hp
        · exact hclean w hw hin
      obtain ⟨a, b, w, hw, hab, hrep, hfound, hmin⟩ := ih ht
      refine ⟨c :: a, b, w, hw, by simp [hab], fun v => ?_, ?_, fun a' b' w' hw' hab' => ?_⟩
      · simp [replaceAll, hword, hrep v]
      · simp [found, hword, hfound]
      · cases a' with
        | nil => exact absurd ⟨b', hab'.symm⟩ (hnot w' hw')
        | cons d a' =>
          rw [List.cons_append, List.cons.injEq] at hab'
          exact Nat.succ_le_succ (hmin a' b' w' hw' hab'.2)

lemma found_eq_nil (hne : [] ∉ ws) : found ws 0 t = [] ↔ Clean ws t := by
  constructor
  · intro h
    by_contra hclean
    obtain ⟨a, b, w, -, -, -, hfound, -⟩ := exists_first hne hclean
    simp [hfound] at h
  · exact fun h => (h.replaceAll_eq (v := [])).2

lemma infix_of_found {l : List (List α)} (hne : [] ∉ ws) (h : found ws 0 t = w :: l) : w <:+: t := by
  have hnot : ¬ Clean ws t := fun hc => by simp [(found_eq_nil hne).mpr hc] at h
  obtain ⟨a, b, w', -, hab, -, hfound, -⟩ := exists_first hne hnot
  rw [hfound, List.cons.injEq] at h
  exact ⟨a, b, by rw [hab, ← h.1, List.append_assoc]⟩

lemma eq_replaceAll_iff (hne : [] ∉ ws) (h : Clean ws (replaceAll ws v 0 t)) :
    t = replaceAll ws v 0 t ↔ found ws 0 t = [] := by
  rw [found_eq_nil hne]
  constructor
  · intro heq
    rwa [heq]
  · intro hclean
    exact hclean.replaceAll_eq.1.symm

omit [DecidableEq α] in
lemma mem_of_append_eq {x : α} {r q : List α} (hw : w ≠ []) (h : v ++ x :: r = w ++ (v ++ q)) :
    x ∈ w := by
  induction hn : v.length using Nat.strong_induction_on generalizing v with
  | _ n ih =>
    by_cases hlt : v.length < w.length
    · have hget : (v ++ x :: r)[v.length]? = some x := by simp
      rw [h, List.getElem?_append_left hlt] at hget
      exact List.mem_of_getElem? hget
    · have hpre : w <+: v :=
        List.prefix_of_prefix_length_le ⟨v ++ q, h.symm⟩ (List.prefix_append v (x :: r)) (by omega)
      obtain ⟨y, rfl⟩ := hpre
      have hpos := List.length_pos_iff.mpr hw
      rw [List.append_assoc] at h
      have hrest := List.append_cancel_left h
      rw [List.append_assoc] at hrest
      refine ih y.length ?_ (v := y) ?_ rfl
      · simp at hn
        omega
      · exact hrest

end Words

end LdapTgen.Replacement
