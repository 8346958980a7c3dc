import LdapTgen.AccountingAbort
import LdapTgen.GenericControls

/-! The users that an Accounting-On/Off aborts, against the users whose requests name the same NAS.
The loop goes through the indexes of one remainder modulo the number of NAS; the attribute also
depends on the parity of the index, and its number stops at 255. -/
namespace LdapTgen.NasSweep
open LabelledRun AccountingAbort LdapControls

/-- The names of the NAS are built on one of two bases, according to the relocation flag. -/
structure NasConf extends conf : AccountingAbort.Conf where
  nbNas_pos : 0 < tcRadiusNbNas
  tcRadiusNasIdBase : Bool → Text
  tcRadiusNasIpAddBase : Bool → Text

inductive NasAttr
  | nasIdentifier (nasIdString : Text)
  | nasIPAddress (nasIdString : Text)
  deriving DecidableEq, Repr

/-- `temp`, the number of the NAS of a user. -/
def nasNumber (c : NasConf) (userId : ℕ) : ℕ := min 255 (userId % c.tcRadiusNbNas + 1)

def nasAttr (c : NasConf) (relocation : Bool) (userId : ℕ) : NasAttr :=
  if userId % 2 ≠ 0 then
    .nasIdentifier (c.tcRadiusNasIdBase relocation ++ printInt (nasNumber c userId))
  else .nasIPAddress (c.tcRadiusNasIpAddBase relocation ++ printInt (nasNumber c userId))

/-- The users that the loop aborts from index `uid` on. An index that does not fit turns negative, and
`tUserAbort` is called outside the table. -/
def abortedFrom (c : NasConf) (uid : ℕ) : Option (List ℕ) :=
  if uid < c.tcUserNb then
    if uid + c.tcRadiusNbNas < 2 ^ 31 then (abortedFrom c (uid + c.tcRadiusNbNas)).map (uid :: ·)
    else none
  else some []
termination_by c.tcUserNb - uid
decreasing_by
  have := c.nbNas_pos
  omega

/-- The users on which `tUserAbort` is called when a user sends Accounting-On or Accounting-Off. -/
def aborted (c : NasConf) (userId : ℕ) : Option (List ℕ) := abortedFrom c (userId % c.tcRadiusNbNas)

section Sweep
variable {c : NasConf}

lemma mem_abortedFrom {v uid : ℕ} {uids : List ℕ} (h : abortedFrom c uid = some uids) :
    v ∈ uids ↔ v < c.tcUserNb ∧ uid ≤ v ∧ v % c.tcRadiusNbNas = uid % c.tcRadiusNbNas := by
  fun_induction abortedFrom c uid generalizing uids with
  | case1 uid hlt hfits ih =>
    obtain ⟨uids, hrest, rfl⟩ := Option.map_eq_some_iff.mp h
    rw [List.mem_cons, ih hrest, Nat.add_mod_right]
    constructor
    · rintro (rfl | ⟨hv, hle, hmod⟩)
      · exact ⟨hlt, Nat.le_refl _, rfl⟩
      · exact ⟨hv, Nat.le_trans (Nat.le_add_right _ _) hle, hmod⟩
    · rintro ⟨hv, hle, hmod⟩
      by_cases he : v = uid
      · exact Or.inl he
      · -- the next index of the same remainder is one stride further
        have hdvd : c.tcRadiusNbNas ∣ v - uid := (Nat.modEq_iff_dvd' hle).mp hmod.symm
        have hstride := Nat.le_of_dvd (by omega) hdvd
        exact Or.inr ⟨hv, by omega, hmod⟩
  | case2 uid hlt hfits => cases h
  | case3 uid hge =>
    cases h
    simp only [List.not_mem_nil, false_iff]
    omega

lemma mem_aborted {u v : ℕ} {uids : List ℕ} (h : aborted c u = some uids) :
    v ∈ uids ↔ v < c.tcUserNb ∧ v % c.tcRadiusNbNas = u % c.tcRadiusNbNas := by
  rw [mem_abortedFrom h, Nat.mod_mod]
  constructor
  · rintro ⟨hv, _, hmod⟩
    exact ⟨hv, hmod⟩
  · rintro ⟨hv, hmod⟩
    exact ⟨hv, hmod ▸ Nat.mod_le v _, hmod⟩

lemma abortedFrom_isSome (hfit : c.tcUserNb + c.tcRadiusNbNas ≤ 2 ^ 31) (uid : ℕ) :
    ∃ uids, abortedFrom c uid = some uids := by
  fun_induction abortedFrom c uid with
  | case1 uid hlt hfits ih =>
    obtain ⟨uids, hrest⟩ := ih
    exact ⟨uid :: uids, by rw [hrest, Option.map_some]⟩
  | case2 uid hlt hfits => omega
  | case3 uid hge => exact ⟨[], rfl⟩

lemma fits_of_abortedFrom {v uid : ℕ} {uids : List ℕ} (h : abortedFrom c uid = some uids) (hv : v ∈ uids) :
    v + c.tcRadiusNbNas < 2 ^ 31 := by
  fun_induction abortedFrom c uid generalizing uids with
  | case1 uid hlt hfits ih =>
    obtain ⟨uids, hrest, rfl⟩ := Option.map_eq_some_iff.mp h
    rcases List.mem_cons.mp hv with rfl | hv
    · exact hfits
    · exact ih hrest hv
  | case2 uid hlt hfits => cases h
  | case3 uid hge =>
    cases h
    cases hv

end Sweep

section Attributes
variable {c : NasConf}

lemma printInt_injective : Function.Injective fun n : ℕ => printInt n := by
  intro m n h
  have hvalue := congrArg digitsValue (show Nat.toDigits 10 m = Nat.toDigits 10 n from h)
  rw [digitsValue_toDigits, digitsValue_toDigits] at hvalue
  exact Int.ofNat_inj.mp hvalue

lemma nasAttr_eq_iff {relocation : Bool} {u v : ℕ} :
    nasAttr c relocation v = nasAttr c relocation u ↔
      v % 2 = u % 2 ∧ nasNumber c v = nasNumber c u := by
  rcases Nat.mod_two_eq_zero_or_one u with hu | hu <;>
    rcases Nat.mod_two_eq_zero_or_one v with hv | hv <;>
    simp [nasAttr, hu, hv, printInt_injective.eq_iff]

lemma mod_nbNas_mod_two {u : ℕ} (hu : u < c.tcUserNb)
    (heven : 2 ∣ c.tcRadiusNbNas ∨ c.tcUserNb ≤ c.tcRadiusNbNas) :
    u % c.tcRadiusNbNas % 2 = u % 2 := by
  rcases heven with h | h
  · exact Nat.mod_mod_of_dvd u h
  · rw [Nat.mod_eq_of_lt (Nat.lt_of_lt_of_le hu h)]

/-- With at most 256 NAS, or 256 users, the numbers of two users of one parity coincide only when
their remainders do, if the remainder determines the parity or is the index itself. -/
lemma mod_eq_of_nasNumber_eq {u v : ℕ} (hu : u < c.tcUserNb) (hv : v < c.tcUserNb)
    (heven : 2 ∣ c.tcRadiusNbNas ∨ c.tcUserNb ≤ c.tcRadiusNbNas)
    (hcap : c.tcRadiusNbNas ≤ 256 ∨ c.tcUserNb ≤ 256) (hpar : v % 2 = u % 2)
    (hnum : nasNumber c v = nasNumber c u) : v % c.tcRadiusNbNas = u % c.tcRadiusNbNas := by
  have hpos := c.nbNas_pos
  have hun := Nat.mod_lt u hpos
  have hvn := Nat.mod_lt v hpos
  have hu2 := Nat.mod_le u c.tcRadiusNbNas
  have hv2 := Nat.mod_le v c.tcRadiusNbNas
  have hpu := mod_nbNas_mod_two hu heven
  have hpv := mod_nbNas_mod_two hv heven
  simp only [nasNumber] at hnum
  omega

lemma mod_two_of_mod_eq {u v : ℕ} (hu : u < c.tcUserNb) (hv : v < c.tcUserNb)
    (heven : 2 ∣ c.tcRadiusNbNas ∨ c.tcUserNb ≤ c.tcRadiusNbNas)
    (hmod : v % c.tcRadiusNbNas = u % c.tcRadiusNbNas) : v % 2 = u % 2 := by
  rw [← mod_nbNas_mod_two hv heven, ← mod_nbNas_mod_two hu heven, hmod]

end Attributes

/-- Each user aborts exactly the users whose requests name the same NAS as its own. -/
def SweepsNas (c : NasConf) (relocation : Bool) : Prop :=
  ∀ u < c.tcUserNb, ∃ uids, aborted c u = some uids ∧
    ∀ v < c.tcUserNb, v ∈ uids ↔ nasAttr c relocation v = nasAttr c relocation u

section Necessary
variable {c : NasConf} {relocation : Bool}

lemma SweepsNas.even (h : SweepsNas c relocation) :
    2 ∣ c.tcRadiusNbNas ∨ c.tcUserNb ≤ c.tcRadiusNbNas := by
  by_contra hodd
  obtain ⟨hndvd, hlt⟩ := not_or.mp hodd
  obtain ⟨uids, huids, hsame⟩ := h 0 (by omega)
  have hmem : c.tcRadiusNbNas ∈ uids := (mem_aborted huids).mpr ⟨by omega, by simp⟩
  have hpar := (nasAttr_eq_iff.mp ((hsame _ (by omega)).mp hmem)).1
  omega

lemma SweepsNas.capped (h : SweepsNas c relocation) : c.tcRadiusNbNas ≤ 256 ∨ c.tcUserNb ≤ 256 := by
  by_contra hbig
  obtain ⟨hnas, husers⟩ := not_or.mp hbig
  obtain ⟨uids, huids, hsame⟩ := h 254 (by omega)
  have h254 : 254 % c.tcRadiusNbNas = 254 := Nat.mod_eq_of_lt (by omega)
  have h256 : 256 % c.tcRadiusNbNas = 256 := Nat.mod_eq_of_lt (by omega)
  have hattr : nasAttr c relocation 256 = nasAttr c relocation 254 :=
    nasAttr_eq_iff.mpr ⟨rfl, by simp [nasNumber, h254, h256]⟩
  have hmod := ((mem_aborted huids).mp ((hsame 256 (by omega)).mpr hattr)).2
  omega

lemma SweepsNas.fits (h : SweepsNas c relocation) :
    c.tcUserNb = 0 ∨ c.tcUserNb + c.tcRadiusNbNas ≤ 2 ^ 31 := by
  rcases Nat.eq_zero_or_pos c.tcUserNb with hzero | hpos
  · exact .inl hzero
  · obtain ⟨uids, huids, hsame⟩ := h (c.tcUserNb - 1) (by omega)
    have hlast := fits_of_abortedFrom huids ((hsame _ (by omega)).mpr rfl)
    omega

end Necessary

/-- The users aborted are those of the NAS exactly when no remainder has users of both parities, no two
NAS have users beyond the number 255, and no index of the loop leaves the range of `int`. -/
theorem sweeps_nas_iff (c : NasConf) (relocation : Bool) :
    SweepsNas c relocation ↔
      (2 ∣ c.tcRadiusNbNas ∨ c.tcUserNb ≤ c.tcRadiusNbNas) ∧
        (c.tcRadiusNbNas ≤ 256 ∨ c.tcUserNb ≤ 256) ∧
        (c.tcUserNb = 0 ∨ c.tcUserNb + c.tcRadiusNbNas ≤ 2 ^ 31) := by
  constructor
  · intro h
    exact ⟨h.even, h.capped, h.fits⟩
  · rintro ⟨heven, hcap, hfits⟩ u hu
    obtain ⟨uids, huids⟩ := abortedFrom_isSome (hfits.resolve_left (by omega)) (u % c.tcRadiusNbNas)
    refine ⟨uids, huids, fun v hv => ?_⟩
    rw [mem_aborted huids, nasAttr_eq_iff]
    constructor
    · rintro ⟨_, hmod⟩
      exact ⟨mod_two_of_mod_eq hu hv heven hmod, by rw [nasNumber, nasNumber, hmod]⟩
    · rintro ⟨hpar, hnum⟩
      exact ⟨hv, mod_eq_of_nasNumber_eq hu hv heven hcap hpar hnum⟩

/-- Two users and one NAS, with the names that `tUserPopulInit` gives: the first user aborts the
second, whose requests name the NAS by its identifier and not by its address. -/
theorem other_nas_aborted :
    ¬ SweepsNas ⟨⟨⟨2, 0⟩, 1⟩, Nat.one_pos,
      fun relocation => (if relocation then "WAC_Popul_1_" else "NAS_Popul_1_").toList,
      fun relocation => (if relocation then "127.1.1." else "127.0.0.").toList⟩ false := by
  intro h
  obtain ⟨uids, huids, hsame⟩ := h 0 (by decide)
  have hattr := (hsame 1 (by decide)).mp ((mem_aborted huids).mpr ⟨by decide, by decide⟩)
  exact absurd (nasAttr_eq_iff.mp hattr).1 (by decide)

end LdapTgen.NasSweep
