import Mathlib

/-! Items that pass through the hands of workers. Where a worker is tells which item it works on, and
the item tells whether the worker has it in its hands. An item is in the hands of one worker at most;
what is true of it then depends on where the worker is, and a loose item satisfies a condition of its
own. -/
namespace LdapTgen.Custody
variable {K W P I : Type*}

structure Rules (K W P I : Type*) where
  key : P → Option K
  Claims : P → I → Prop
  Held : W → K → P → I → Prop
  Loose : K → I → Prop

def Has (R : Rules K W P I) (item : K → I) (pc : W → P) (w : W) (k : K) : Prop :=
  R.key (pc w) = some k ∧ R.Claims (pc w) (item k)

structure Keeps (R : Rules K W P I) (item : K → I) (pc : W → P) : Prop where
  one : ∀ w w' k, Has R item pc w k → Has R item pc w' k → w = w'
  held : ∀ w k, Has R item pc w k → R.Held w k (pc w) (item k)
  loose : ∀ k, (∀ w, ¬ Has R item pc w k) → R.Loose k (item k)

variable {R : Rules K W P I} {item : K → I} {pc : W → P}

theorem Keeps.items (h : Keeps R item pc) {item' : K → I}
    (hitem : ∀ k, item' k = item k ∨ (∀ w, ¬ Has R item pc w k) ∧
      (∀ w, R.key (pc w) = some k → ¬ R.Claims (pc w) (item' k)) ∧ R.Loose k (item' k)) :
    Keeps R item' pc := by
  have hhas : ∀ w k, Has R item' pc w k → item' k = item k ∧ Has R item pc w k := by
    intro w k hw
    rcases hitem k with hsame | ⟨_, hafter, _⟩
    · exact ⟨hsame, hw.1, hsame ▸ hw.2⟩
    · exact absurd hw.2 (hafter w hw.1)
  refine ⟨fun w w' k hw hw' => h.one w w' k (hhas w k hw).2 (hhas w' k hw').2, fun w k hw => ?_,
    fun k hno => ?_⟩
  · obtain ⟨hsame, hw⟩ := hhas w k hw
    rw [hsame]
    exact h.held w k hw
  · rcases hitem k with hsame | ⟨_, _, hloose⟩
    · rw [hsame]
      exact h.loose k fun w hw => hno w ⟨hw.1, hsame ▸ hw.2⟩
    · exact hloose

section Update
variable [DecidableEq K] [DecidableEq W] {w : W} {k : K} {i : I} {p : P}

lemma has_update_of_ne {w' : W} {k' : K} (hw : w' ≠ w) (hk : k' ≠ k) :
    Has R (Function.update item k i) (Function.update pc w p) w' k' ↔ Has R item pc w' k' := by
  simp [Has, hw, hk]

/-- A worker that has no item but `k` in its hands, if any, works on `k`, which no other worker
has. -/
theorem Keeps.update (h : Keeps R item pc) (hfrom : ∀ j, Has R item pc w j → j = k)
    (hbefore : ∀ w', w' ≠ w → ¬ Has R item pc w' k)
    (hafter : ∀ w', w' ≠ w → R.key (pc w') = some k → ¬ R.Claims (pc w') i)
    (hto : ∀ j, R.key p = some j → j = k)
    (hheld : R.key p = some k → R.Claims p i → R.Held w k p i)
    (hloose : (R.key p = some k → ¬ R.Claims p i) → R.Loose k i) :
    Keeps R (Function.update item k i) (Function.update pc w p) := by
  -- After the step `w` can have no item but `k`, and no other worker has `k`.
  have hself : ∀ j, Has R (Function.update item k i) (Function.update pc w p) w j →
      j = k ∧ R.key p = some k ∧ R.Claims p i := by
    rintro j ⟨hkey, hclaims⟩
    rw [Function.update_self] at hkey hclaims
    obtain rfl := hto j hkey
    rw [Function.update_self] at hclaims
    exact ⟨rfl, hkey, hclaims⟩
  have hother : ∀ w', w' ≠ w → ∀ j,
      Has R (Function.update item k i) (Function.update pc w p) w' j →
      j ≠ k ∧ Has R item pc w' j := by
    intro w' hw j hj
    have hne : j ≠ k := by
      rintro rfl
      rw [Has, Function.update_of_ne hw, Function.update_self] at hj
      exact hafter w' hw hj.1 hj.2
    exact ⟨hne, (has_update_of_ne hw hne).mp hj⟩
  refine ⟨fun w₁ w₂ j h₁ h₂ => ?_, fun w' j hj => ?_, fun j hno => ?_⟩
  · by_cases hw₁ : w₁ = w
    · subst hw₁
      by_contra hne
      exact (hother w₂ (Ne.symm hne) j h₂).1 (hself j h₁).1
    · by_cases hw₂ : w₂ = w
      · subst hw₂
        exact absurd (hself j h₂).1 (hother w₁ hw₁ j h₁).1
      · exact h.one w₁ w₂ j (hother w₁ hw₁ j h₁).2 (hother w₂ hw₂ j h₂).2
  · by_cases hw : w' = w
    · subst hw
      obtain ⟨rfl, hkey, hclaims⟩ := hself j hj
      rw [Function.update_self, Function.update_self]
      exact hheld hkey hclaims
    · obtain ⟨hne, hj⟩ := hother w' hw j hj
      rw [Function.update_of_ne hw, Function.update_of_ne hne]
      exact h.held w' j hj
  · by_cases hjk : j = k
    · subst hjk
      rw [Function.update_self]
      exact hloose fun hkey hclaims =>
        hno w ⟨by rwa [Function.update_self], by rwa [Function.update_self, Function.update_self]⟩
    · rw [Function.update_of_ne hjk]
      refine h.loose j fun w' hj => ?_
      by_cases hw : w' = w
      · subst hw
        exact hjk (hfrom j hj)
      · exact hno w' ((has_update_of_ne hw hjk).mpr hj)

omit [DecidableEq K] in
theorem Keeps.goto (h : Keeps R item pc) (hfrom : ∀ j, ¬ Has R item pc w j)
    (hto : ∀ j, R.key p = some j → ¬ R.Claims p (item j)) :
    Keeps R item (Function.update pc w p) := by
  have hhas : ∀ w' j, Has R item (Function.update pc w p) w' j ↔ Has R item pc w' j := by
    intro w' j
    by_cases hw : w' = w
    · subst hw
      refine ⟨fun hj => ?_, fun hj => absurd hj (hfrom j)⟩
      rw [Has, Function.update_self] at hj
      exact absurd hj.2 (hto j hj.1)
    · simp [Has, hw]
  refine ⟨fun w₁ w₂ j h₁ h₂ => h.one w₁ w₂ j ((hhas w₁ j).mp h₁) ((hhas w₂ j).mp h₂),
    fun w' j hj => ?_, fun j hno => h.loose j fun w' hj => hno w' ((hhas w' j).mpr hj)⟩
  have hw : w' ≠ w := by
    rintro rfl
    exact hfrom j ((hhas w' j).mp hj)
  rw [Function.update_of_ne hw]
  exact h.held w' j ((hhas w' j).mp hj)

omit [DecidableEq W] in
theorem Keeps.refresh (h : Keeps R item pc)
    (hclaims : ∀ w, R.key (pc w) = some k → (R.Claims (pc w) i ↔ R.Claims (pc w) (item k)))
    (hheld : ∀ w, Has R item pc w k → R.Held w k (pc w) i)
    (hloose : R.Loose k (item k) → R.Loose k i) : Keeps R (Function.update item k i) pc := by
  have hhas : ∀ w j, Has R (Function.update item k i) pc w j ↔ Has R item pc w j := by
    intro w j
    by_cases hj : j = k
    · subst hj
      rw [Has, Has, Function.update_self]
      exact and_congr_right (hclaims w)
    · simp [Has, hj]
  refine ⟨fun w₁ w₂ j h₁ h₂ => h.one w₁ w₂ j ((hhas w₁ j).mp h₁) ((hhas w₂ j).mp h₂),
    fun w j hj => ?_, fun j hno => ?_⟩
  · have hw := (hhas w j).mp hj
    by_cases hjk : j = k
    · subst hjk
      rw [Function.update_self]
      exact hheld w hw
    · rw [Function.update_of_ne hjk]
      exact h.held w j hw
  · have hl := h.loose j fun w hw => hno w ((hhas w j).mpr hw)
    by_cases hjk : j = k
    · subst hjk
      rw [Function.update_self]
      exact hloose hl
    · rw [Function.update_of_ne hjk]
      exact hl

end Update

end LdapTgen.Custody
