import LdapTgen.Rotation
import LdapTgen.UserTable

/-! What the circular search of `tUserCheckExclusion` finds. The search walks around the population by
steps of `min + 1` places: the step to the next index adds one, and the first index of the population is
added again after the remainder. -/
namespace LdapTgen.UserSearch
open Rotation UserTable
variable {tab : ℕ → TUser} {now : ℤ} {nb min initial : ℕ} {r : ℤ}

def Eligible (now : ℤ) (u : TUser) : Prop :=
  u.exeState = .idle ∧ tUserGetExclusion u ≤ now - u.lastTime

instance (now : ℤ) (u : TUser) : Decidable (Eligible now u) := by
  unfold Eligible
  infer_instance

lemma busy_eq_false_iff {u : TUser} : busy now u = false ↔ Eligible now u := by
  simp [busy, Eligible]

lemma visited_eq_walk (k : ℕ) :
    visited nb min initial k = walk nb (min + 1) (initial - min) k + min := rfl

lemma visited_mem (hnb : 0 < nb) (k : ℕ) :
    min ≤ visited nb min initial k ∧ visited nb min initial k < min + nb := by
  have hwalk : walk nb (min + 1) (initial - min) k < nb := walk_lt hnb k
  rw [visited_eq_walk]
  omega

lemma searchFree_cases {fuel k : ℕ}
    (h : searchFree tab now nb min initial fuel (visited nb min initial k) = some r) :
    ∃ m, (∀ j < m, ¬ Eligible now (tab (visited nb min initial (k + j)))) ∧
      ((r = -1 ∧ 0 < m ∧ visited nb min initial (k + m) = initial) ∨
        (r = visited nb min initial (k + m) ∧ Eligible now (tab (visited nb min initial (k + m))))) := by
  induction fuel generalizing k with
  | zero => simp [searchFree] at h
  | succ fuel ih =>
    simp only [searchFree, visited_succ] at h
    split_ifs at h with hbusy hback
    · have hfirst : ¬ Eligible now (tab (visited nb min initial k)) := by
        rw [← busy_eq_false_iff, hbusy]
        simp
      refine ⟨1, fun j hj => ?_, .inl ⟨(Option.some.inj h).symm, Nat.one_pos, hback⟩⟩
      rwa [Nat.lt_one_iff.mp hj]
    · have hfirst : ¬ Eligible now (tab (visited nb min initial k)) := by
        rw [← busy_eq_false_iff, hbusy]
        simp
      obtain ⟨m, hpassed, hend⟩ := ih h
      rw [Nat.add_right_comm, Nat.add_assoc] at hend
      refine ⟨m + 1, fun j hj => ?_, hend.imp (And.imp_right (And.imp_left fun _ => m.succ_pos)) id⟩
      cases j with
      | zero => exact hfirst
      | succ j =>
        have hj' := hpassed j (Nat.lt_of_succ_lt_succ hj)
        rwa [Nat.add_right_comm, Nat.add_assoc] at hj'
    · refine ⟨0, fun j hj => absurd hj (Nat.not_lt_zero j), .inr ⟨(Option.some.inj h).symm, ?_⟩⟩
      exact busy_eq_false_iff.mp (by simpa using hbusy)

lemma tUserCheckExclusion_cases (hlo : min ≤ initial) (hhi : initial < min + nb)
    (h : tUserCheckExclusion tab now initial nb min = some r) :
    (tUserGetExclusion (tab initial) = 0 ∧ r = initial) ∨
      ∃ m, (∀ j < m, ¬ Eligible now (tab (visited nb min initial j))) ∧
        ((r = -1 ∧ 0 < m ∧ visited nb min initial m = initial) ∨
          (r = visited nb min initial m ∧ Eligible now (tab (visited nb min initial m)))) := by
  unfold tUserCheckExclusion at h
  split_ifs at h with hdelay
  · have hfirst : searchFree tab now nb min initial nb (visited nb min initial 0) = some r := by
      rwa [visited_zero hlo hhi]
    obtain ⟨m, hpassed, hend⟩ := searchFree_cases hfirst
    simp only [Nat.zero_add] at hpassed hend
    exact .inr ⟨m, hpassed, hend⟩
  · exact .inl ⟨not_not.mp hdelay, (Option.some.inj h).symm⟩

/-- The search ends within `nb` tests (the fuel of `tUserCheckExclusion`). It answers -1 or a user of the
population, and a user with an exclusion delay only after the delay. -/
theorem search_sound (tab : ℕ → TUser) (now : ℤ) {nb min i : ℕ} (hlo : min ≤ i) (hhi : i < min + nb) :
    ∃ r, tUserCheckExclusion tab now i nb min = some r ∧
      (r = -1 ∨ ∃ u : ℕ, r = u ∧ min ≤ u ∧ u < min + nb ∧
        (0 < tUserGetExclusion (tab u) → (tab u).exeState = .idle ∧
          tUserGetExclusion (tab u) ≤ now - (tab u).lastTime)) := by
  obtain ⟨r, hr⟩ := tUserCheckExclusion_terminates tab now hlo hhi
  refine ⟨r, hr, ?_⟩
  rcases tUserCheckExclusion_cases hlo hhi hr with ⟨hdelay, rfl⟩ | ⟨m, -, ⟨rfl, -⟩ | ⟨rfl, hfree⟩⟩
  · exact .inr ⟨i, rfl, hlo, hhi, fun hpos => absurd hdelay hpos.ne'⟩
  · exact .inl rfl
  · have hmem : min ≤ visited nb min i m ∧ visited nb min i m < min + nb :=
      visited_mem (by omega) m
    exact .inr ⟨_, rfl, hmem.1, hmem.2, fun _ => hfree⟩

def thirdFree (u : ℕ) : TUser :=
  if u = 1 then ⟨.running, 0, some ⟨5, 1, 3⟩⟩
  else if u = 2 then ⟨.idle, 8, some ⟨5, 1, 3⟩⟩
  else ⟨.idle, 1, some ⟨5, 1, 3⟩⟩

theorem search_from_second_user :
    tUserCheckExclusion thirdFree 10 2 3 1 = some 3 ∧
    ∃ r, tUserCheckExclusion thirdFree 10 2 3 1 = some r ∧
      (r = -1 ∨ ∃ u : ℕ, r = u ∧ 1 ≤ u ∧ u < 1 + 3 ∧
        (0 < tUserGetExclusion (thirdFree u) → (thirdFree u).exeState = .idle ∧
          tUserGetExclusion (thirdFree u) ≤ 10 - (thirdFree u).lastTime)) :=
  ⟨by decide, search_sound thirdFree 10 (by decide) (by decide)⟩

lemma none_eligible_of_coprime (hlo : min ≤ initial) (hhi : initial < min + nb)
    (hcop : (min + 1).Coprime nb)
    (h : tUserCheckExclusion tab now initial nb min = some (-1)) {u : ℕ} (hmin : min ≤ u)
    (hmax : u < min + nb) : ¬ Eligible now (tab u) := by
  rcases tUserCheckExclusion_cases hlo hhi h with ⟨-, hfirst⟩ | ⟨m, hpassed, hend⟩
  · omega
  · have hback : 0 < m ∧ visited nb min initial m = initial := by
      rcases hend with ⟨-, hback⟩ | ⟨hfound, -⟩
      · exact hback
      · omega
    -- the walk is back at its start, so the turn is complete
    have hturn : nb ≤ m := by
      have hstart := hback.2.trans (visited_zero hlo hhi).symm
      exact le_of_walk_eq hcop hback.1 (Nat.add_right_cancel hstart)
    obtain ⟨k, hk, hwalk⟩ := exists_walk_eq (a := initial - min) hcop (show u - min < nb by omega)
    have hu : visited nb min initial k = u := by
      rw [visited_eq_walk, hwalk]
      omega
    have hpast := hpassed k (hk.trans_le hturn)
    rwa [hu] at hpast

lemma visited_ne_next (hcop : ¬ (min + 1).Coprime nb) (k : ℕ) :
    visited nb min initial k ≠ (initial - min + 1) % nb + min := by
  intro h
  exact walk_ne_succ hcop k (Nat.add_right_cancel h)

def onlyFree (free u : ℕ) : TUser :=
  if u = free then ⟨.idle, 0, none⟩ else ⟨.running, 0, some ⟨1, 0, 0⟩⟩

lemma eligible_onlyFree (free u : ℕ) : Eligible 0 (onlyFree free u) ↔ u = free := by
  unfold onlyFree
  split_ifs with h <;> simp [Eligible, tUserGetExclusion, h]

lemma search_misses {nb min i free : ℕ} (hlo : min ≤ i) (hhi : i < min + nb)
    (hfree : ∀ k, visited nb min i k ≠ free) :
    tUserCheckExclusion (onlyFree free) 0 i nb min = some (-1) := by
  obtain ⟨r, hr⟩ := tUserCheckExclusion_terminates (onlyFree free) 0 hlo hhi
  rw [hr]
  have hi : i ≠ free := by
    rw [← visited_zero hlo hhi]
    exact hfree 0
  rcases tUserCheckExclusion_cases hlo hhi hr with ⟨hdelay, -⟩ | ⟨m, -, ⟨rfl, -⟩ | ⟨-, heligible⟩⟩
  · simp [onlyFree, hi, tUserGetExclusion] at hdelay
  · rfl
  · exact absurd ((eligible_onlyFree free _).mp heligible) (hfree m)

/-- From any start the answer -1 means that nobody is eligible, exactly if the step of the search and the
size of the population are coprime. -/
theorem search_complete_iff {nb min i : ℕ} (hlo : min ≤ i) (hhi : i < min + nb) :
    (∀ (tab : ℕ → TUser) (now : ℤ), tUserCheckExclusion tab now i nb min = some (-1) →
        ∀ u, min ≤ u → u < min + nb →
          ¬ ((tab u).exeState = .idle ∧ tUserGetExclusion (tab u) ≤ now - (tab u).lastTime)) ↔
      (min + 1).Coprime nb := by
  constructor
  · intro hcomplete
    by_contra hcop
    have hmod : (i - min + 1) % nb < nb := Nat.mod_lt _ (by omega)
    have hnone := search_misses hlo hhi (visited_ne_next hcop)
    exact hcomplete _ 0 hnone _ (Nat.le_add_left min _) (by omega)
      ((eligible_onlyFree _ _).mpr rfl)
  · intro hcop tab now hnone u hmin hmax
    exact none_eligible_of_coprime hlo hhi hcop hnone hmin hmax

/-- Three users behind the first one: the step is two places. -/
theorem three_users_searched :
    (1 + 1).Coprime 3 ∧
      ∀ (tab : ℕ → TUser) (now : ℤ), tUserCheckExclusion tab now 2 3 1 = some (-1) →
        ∀ u, 1 ≤ u → u < 1 + 3 →
          ¬ ((tab u).exeState = .idle ∧ tUserGetExclusion (tab u) ≤ now - (tab u).lastTime) :=
  ⟨by decide, (search_complete_iff (by decide) (by decide)).mpr (by decide)⟩

/-- Two users behind the first one: the step is two places as well, so that the search is back at its
start at once and does not see that the other user is free. -/
theorem second_of_two_not_found :
    tUserCheckExclusion (onlyFree 2) 0 1 2 1 = some (-1) ∧
      (onlyFree 2 2).exeState = .idle ∧
      tUserGetExclusion (onlyFree 2 2) ≤ 0 - (onlyFree 2 2).lastTime := by
  decide

end LdapTgen.UserSearch
