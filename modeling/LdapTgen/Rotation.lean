import Mathlib

/-! Walks around a circle of `n` places by equal steps of `d` places. A walk meets every place within
one turn exactly if the step and the circle are coprime, whatever place it starts from. -/
namespace LdapTgen.Rotation
variable {n d a : ℕ}

def walk (n d a k : ℕ) : ℕ := (a + k * d) % n

lemma walk_lt (hn : 0 < n) (k : ℕ) : walk n d a k < n := Nat.mod_lt _ hn

lemma walk_injOn (hd : d.Coprime n) : Set.InjOn (walk n d a) (Finset.range n) := by
  intro j hj k hk h
  have hmul : j * d ≡ k * d [MOD n] := Nat.ModEq.add_left_cancel' a h
  have hmod : j ≡ k [MOD n] := Nat.ModEq.cancel_right_of_coprime hd.symm hmul
  exact hmod.eq_of_lt_of_lt (Finset.mem_range.mp hj) (Finset.mem_range.mp hk)

lemma exists_walk_eq (hd : d.Coprime n) {r : ℕ} (hr : r < n) : ∃ k < n, walk n d a k = r := by
  have hmaps : ∀ k ∈ Finset.range n, walk n d a k ∈ Finset.range n := fun k _ =>
    Finset.mem_range.mpr (walk_lt (Nat.zero_lt_of_lt hr) k)
  obtain ⟨k, hk, h⟩ := Finset.surjOn_of_injOn_of_card_le _ hmaps (walk_injOn hd) le_rfl
    (Finset.mem_coe.mpr (Finset.mem_range.mpr hr))
  exact ⟨k, Finset.mem_range.mp hk, h⟩

lemma le_of_walk_eq (hd : d.Coprime n) {k : ℕ} (hk : 0 < k) (h : walk n d a k = walk n d a 0) :
    n ≤ k := by
  have hmul : k * d ≡ 0 * d [MOD n] := Nat.ModEq.add_left_cancel' a h
  have hmod : k ≡ 0 [MOD n] := Nat.ModEq.cancel_right_of_coprime hd.symm hmul
  exact Nat.le_of_dvd hk ((Nat.modEq_zero_iff_dvd).mp hmod)

lemma walk_modEq_start {g : ℕ} (hgd : g ∣ d) (hgn : g ∣ n) (k : ℕ) : walk n d a k ≡ a [MOD g] := by
  have hturn : walk n d a k ≡ a + k * d [MOD g] := (Nat.mod_modEq _ n).of_dvd hgn
  have hstep : k * d ≡ 0 [MOD g] := (Nat.modEq_zero_iff_dvd).mpr (Dvd.dvd.mul_left hgd k)
  exact hturn.trans (Nat.ModEq.add_left a hstep)

lemma walk_ne_succ (hd : ¬ d.Coprime n) (k : ℕ) : walk n d a k ≠ (a + 1) % n := by
  intro h
  have hgn : d.gcd n ∣ n := Nat.gcd_dvd_right d n
  have hstart := walk_modEq_start (a := a) (Nat.gcd_dvd_left d n) hgn k
  have hnext : (a + 1) % n ≡ a + 1 [MOD d.gcd n] := (Nat.mod_modEq _ n).of_dvd hgn
  rw [h] at hstart
  have hone : 0 ≡ 1 [MOD d.gcd n] := Nat.ModEq.add_left_cancel' a (hstart.symm.trans hnext)
  exact hd (Nat.dvd_one.mp ((Nat.modEq_zero_iff_dvd).mp hone.symm))

theorem covers_iff (hn : 0 < n) : (∀ r < n, ∃ k, walk n d a k = r) ↔ d.Coprime n := by
  constructor
  · intro h
    by_contra hd
    obtain ⟨k, hk⟩ := h _ (Nat.mod_lt (a + 1) hn)
    exact walk_ne_succ hd k hk
  · intro hd r hr
    obtain ⟨k, -, hk⟩ := exists_walk_eq hd hr
    exact ⟨k, hk⟩

theorem turn_perm_iff (hn : 0 < n) :
    ((List.range n).map (walk n d a)).Perm (List.range n) ↔ d.Coprime n := by
  constructor
  · intro h
    refine (covers_iff (a := a) hn).mp fun r hr => ?_
    obtain ⟨k, -, hk⟩ := List.mem_map.mp (h.mem_iff.mpr (List.mem_range.mpr hr))
    exact ⟨k, hk⟩
  · intro hd
    have hnodup : ((List.range n).map (walk n d a)).Nodup :=
      List.nodup_range.map_on fun j hj k hk => walk_injOn hd
        (Finset.mem_coe.mpr (Finset.mem_range.mpr (List.mem_range.mp hj)))
        (Finset.mem_coe.mpr (Finset.mem_range.mpr (List.mem_range.mp hk)))
    refine (List.perm_ext_iff_of_nodup hnodup List.nodup_range).mpr fun r => ?_
    rw [List.mem_map, List.mem_range]
    constructor
    · rintro ⟨k, -, rfl⟩
      exact walk_lt hn k
    · intro hr
      obtain ⟨k, hk, h⟩ := exists_walk_eq hd hr
      exact ⟨k, List.mem_range.mpr hk, h⟩

end LdapTgen.Rotation
