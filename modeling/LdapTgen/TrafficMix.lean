import LdapTgen.MachineInt
import LdapTgen.ScenarioLoad

/-! The mix of the traffic: `tSceRegister` gives a scenario the next entries of `sceOccurenceTab`, as many
as its rate, and `tSceGet` draws among the hundred entries. Nothing is printed instead of registered
(`tcTrafficInfo` is not set). -/
namespace LdapTgen.TrafficMix
open MachineInt ScenarioLoad

def maxSce : ℕ := 32

/-- `tSce`, without its counters. -/
structure Sce where
  name : List Char
  action : List Action
  exclusion : ℤ
  populMin : ℤ
  populNb : ℤ

/-- The tables and the static variables of `tSceRegister`. An entry of `sceOccurenceTab` names a scenario
by its place in `tsceTab`; what is written to `tsceTab` at `maxSce` or behind is outside the table. -/
structure Registry where
  index : ℕ
  sceId : ℕ
  tsceTab : ℕ → Option Sce
  sceOccurenceTab : ℕ → Option ℕ
  tUserCurrentIndex : ℤ

def start : Registry := ⟨0, 0, fun _ => none, fun _ => none, 0⟩

/-- What a registration meets: whether there is memory, the result of `tUserInit` for the population of
the scenario, and the index of the next user behind it. -/
structure Outcome where
  malloc : Bool
  tUserInit : ℤ
  userIndex : ℤ

/-- The loop that fills `count` entries from `index` on. -/
def occupy (sceId index count : ℕ) (tab : ℕ → Option ℕ) : ℕ → Option ℕ :=
  (List.range count).foldl (fun tab k => Function.update tab (index + k) (some sceId)) tab

/-- The end of `tSceRegister`, with the bound of its loop. -/
def enter (sce : Sce) (bound : ℤ) (reg : Registry) : Registry :=
  let count := (bound - reg.index).toNat
  { reg with
    tsceTab := Function.update reg.tsceTab reg.sceId (some sce)
    sceId := reg.sceId + 1
    sceOccurenceTab := occupy reg.sceId reg.index count reg.sceOccurenceTab
    index := reg.index + count }

/-- The new state and the return code. The population of the scenario is only loaded if no other one was
given on the command line. -/
def tSceRegister (tcPopulation : Bool) (o : Outcome) (r : Registration) (reg : Registry) : Registry × ℤ :=
  let bound := int32 (reg.index + r.rate)
  let name := r.description.take 127
  if bound > 100 then (reg, 1)
  else if o.malloc = false then (reg, 1)
  else if tcPopulation then (enter ⟨name, r.actTab, r.exclusion, 0, 0⟩ bound reg, 0)
  else
    let loaded := { reg with tUserCurrentIndex := o.userIndex }
    if o.tUserInit ≠ 0 then (loaded, 1)
    else
      let populNb := o.userIndex - reg.tUserCurrentIndex
      (enter ⟨name, r.actTab, r.exclusion, reg.tUserCurrentIndex, populNb⟩ bound loaded, 0)

def tsceRegisterCheck (reg : Registry) : ℤ :=
  if (List.range 100).all fun i => (reg.sceOccurenceTab i).isSome then 0 else 1

def tSceGet (reg : Registry) (rand : ℕ) : Option ℕ := reg.sceOccurenceTab (rand % 100)

section Register
variable {tcPopulation : Bool} {o : Outcome} {r : Registration} {reg t : Registry} {sceId index count : ℕ}
  {tab : ℕ → Option ℕ} {rc : ℤ}

lemma occupy_apply (i : ℕ) :
    occupy sceId index count tab i = if index ≤ i ∧ i < index + count then some sceId else tab i := by
  unfold occupy
  induction count with
  | zero =>
    rw [if_neg (by omega)]
    rfl
  | succ count ih =>
    rw [List.range_succ, List.foldl_append, List.foldl_cons, List.foldl_nil]
    by_cases hi : i = index + count
    · rw [hi, Function.update_self, if_pos (by omega)]
    · rw [Function.update_of_ne hi, ih]
      congr 1
      apply propext
      omega

structure Entered (r : Registration) (reg t : Registry) : Prop where
  bound : int32 (reg.index + r.rate) ≤ 100
  tsceTab : ∃ sce, sce.action = r.actTab ∧
    t.tsceTab = Function.update reg.tsceTab reg.sceId (some sce)
  sceId : t.sceId = reg.sceId + 1
  entries : t.sceOccurenceTab = occupy reg.sceId reg.index
    (int32 (reg.index + r.rate) - reg.index).toNat reg.sceOccurenceTab
  index : t.index = reg.index + (int32 (reg.index + r.rate) - reg.index).toNat

lemma tSceRegister_cases (h : tSceRegister tcPopulation o r reg = (t, rc)) :
    (rc = 0 ∧ Entered r reg t) ∨ (rc = 1 ∧ ∃ u, t = { reg with tUserCurrentIndex := u }) := by
  simp only [tSceRegister] at h
  split_ifs at h with hbound hmalloc hpopulation hinit
  · cases h
    exact .inr ⟨rfl, _, rfl⟩
  · cases h
    exact .inr ⟨rfl, _, rfl⟩
  · cases h
    exact .inl ⟨rfl, not_lt.mp hbound, ⟨_, rfl, rfl⟩, rfl, rfl, rfl⟩
  · cases h
    exact .inr ⟨rfl, _, rfl⟩
  · cases h
    exact .inl ⟨rfl, not_lt.mp hbound, ⟨_, rfl, rfl⟩, rfl, rfl, rfl⟩

end Register

structure History where
  reg : Registry
  rates : List ℤ

def register (tcPopulation : Bool) (s : History) (e : Outcome × Registration) : History :=
  let result := tSceRegister tcPopulation e.1 e.2 s.reg
  ⟨result.1, if result.2 = 0 then s.rates ++ [e.2.rate] else s.rates⟩

def registerAll (tcPopulation : Bool) (es : List (Outcome × Registration)) : History :=
  es.foldl (register tcPopulation) ⟨start, []⟩

def entries (reg : Registry) (k : ℕ) : ℕ :=
  ((Finset.range 100).filter fun i => reg.sceOccurenceTab i = some k).card

def residues (reg : Registry) (k : ℕ) : ℕ :=
  ((Finset.range 100).filter fun rand => tSceGet reg rand = some k).card

/-- The mix of the traffic is what the rates say, and no scenario was written outside of `tsceTab`. -/
structure Mix (s : History) : Prop where
  inside : s.reg.sceId ≤ maxSce
  entries : ∀ k r, s.rates[k]? = some r → (entries s.reg k : ℤ) = r
  residues : ∀ k r, s.rates[k]? = some r → (residues s.reg k : ℤ) = r
  full : ∀ i < 100, ∃ k, s.reg.sceOccurenceTab i = some k

/-- The entries that a rate is given: none for a rate that is only accepted because its sum with the
index overflows. -/
def share (rate : ℤ) : ℕ := if rate ≤ 100 then rate.toNat else 0

structure Segments (s : History) : Prop where
  index : s.reg.index = (s.rates.map share).sum
  index_le : s.reg.index ≤ 100
  sceId : s.reg.sceId = s.rates.length
  written : ∀ i, (s.reg.tsceTab i).isSome ↔ i < s.rates.length
  free : ∀ i, s.reg.index ≤ i → s.reg.sceOccurenceTab i = none
  owners : ∀ i k, s.reg.sceOccurenceTab i = some k → k < s.rates.length
  entries : ∀ k r, s.rates[k]? = some r → entries s.reg k = share r

section Segments
variable {tcPopulation : Bool} {s : History} {e : Outcome × Registration}

lemma segments_start : Segments ⟨start, []⟩ where
  index := rfl
  index_le := by decide
  sceId := rfl
  written := by simp [start]
  free _ _ := rfl
  owners := by simp [start]
  entries := by simp

lemma segment_length {index : ℕ} {rate : ℤ} (hindex : index ≤ 100) (hrate : FitsInt32 rate)
    (hbound : int32 (index + rate) ≤ 100) :
    (int32 (index + rate) - index).toNat = share rate ∧ index + share rate ≤ 100 := by
  obtain ⟨hlo, hhi⟩ := hrate
  unfold share
  rcases int32_cases (x := index + rate) (by omega) (by omega) with ⟨-, h⟩ | ⟨hover, h⟩ | ⟨hless, -⟩
  · rw [h] at hbound ⊢
    rw [if_pos (by omega)]
    omega
  · rw [h, if_neg (by omega)]
    omega
  · omega

lemma entries_new {reg t : Registry} {count : ℕ}
    (htab : t.sceOccurenceTab = occupy reg.sceId reg.index count reg.sceOccurenceTab)
    (hcount : reg.index + count ≤ 100) (howners : ∀ i, reg.sceOccurenceTab i ≠ some reg.sceId) :
    entries t reg.sceId = count := by
  have hsegment : ((Finset.range 100).filter fun i => t.sceOccurenceTab i = some reg.sceId) =
      Finset.Ico reg.index (reg.index + count) := by
    ext i
    rw [Finset.mem_filter, Finset.mem_range, Finset.mem_Ico, htab, occupy_apply]
    split_ifs with hi
    · simp only [and_true]
      omega
    · simp only [howners, and_false, hi]
  rw [entries, hsegment, Nat.card_Ico, Nat.add_sub_cancel_left]

lemma entries_old {reg t : Registry} {count k : ℕ}
    (htab : t.sceOccurenceTab = occupy reg.sceId reg.index count reg.sceOccurenceTab)
    (hfree : ∀ i, reg.index ≤ i → reg.sceOccurenceTab i = none) (hk : k ≠ reg.sceId) :
    entries t k = entries reg k := by
  have hsame : ∀ i ∈ Finset.range 100,
      t.sceOccurenceTab i = some k ↔ reg.sceOccurenceTab i = some k := by
    intro i _
    rw [htab, occupy_apply]
    split_ifs with hi
    · rw [hfree i hi.1]
      simp [hk.symm]
    · rfl
  rw [entries, entries, Finset.filter_congr hsame]

lemma Segments.sceId_notMem (hs : Segments s) (i : ℕ) : s.reg.sceOccurenceTab i ≠ some s.reg.sceId := by
  intro hi
  have hlt := hs.owners i _ hi
  rw [hs.sceId] at hlt
  omega

lemma Segments.entries_entered (hs : Segments s) {r : Registration} {t : Registry}
    (htab : t.sceOccurenceTab = occupy s.reg.sceId s.reg.index (share r.rate) s.reg.sceOccurenceTab)
    (hle : s.reg.index + share r.rate ≤ 100) {k : ℕ} {rate : ℤ}
    (hk : (s.rates ++ [r.rate])[k]? = some rate) : TrafficMix.entries t k = share rate := by
  rcases Nat.lt_or_ge k s.rates.length with hlt | hge
  · rw [List.getElem?_append_left hlt] at hk
    rw [entries_old htab hs.free (by rw [hs.sceId]; omega)]
    exact hs.entries k rate hk
  · rw [List.getElem?_append_right hge, List.getElem?_singleton] at hk
    split_ifs at hk with hlast
    cases hk
    obtain rfl : k = s.reg.sceId := by
      rw [hs.sceId]
      omega
    exact entries_new htab hle hs.sceId_notMem

lemma Segments.entered (hs : Segments s) {r : Registration} {t : Registry} (hrate : FitsInt32 r.rate)
    (h : Entered r s.reg t) : Segments ⟨t, s.rates ++ [r.rate]⟩ := by
  obtain ⟨hcount, hle⟩ := segment_length hs.index_le hrate h.bound
  have htab := h.entries
  have hindex := h.index
  rw [hcount] at htab hindex
  have hlength : (s.rates ++ [r.rate]).length = s.rates.length + 1 := List.length_append
  constructor
  · simp only [hindex, hs.index, List.map_append, List.map_cons, List.map_nil, List.sum_append,
      List.sum_cons, List.sum_nil, Nat.add_zero]
  · simp only [hindex]
    exact hle
  · rw [hlength, ← hs.sceId]
    exact h.sceId
  · intro i
    obtain ⟨sce, -, hsce⟩ := h.tsceTab
    have hold := hs.written i
    simp only [hsce, hs.sceId, hlength]
    by_cases hi : i = s.rates.length
    · simp [hi]
    · rw [Function.update_of_ne hi, hold]
      omega
  · intro i hi
    simp only [hindex] at hi
    simp only [htab, occupy_apply]
    rw [if_neg (by omega)]
    exact hs.free i (by omega)
  · intro i k hk
    simp only [htab, occupy_apply] at hk
    rw [hlength]
    split_ifs at hk with hi
    · have hlast := hs.sceId
      cases hk
      omega
    · exact Nat.lt_succ_of_lt (hs.owners i k hk)
  · intro k rate hk
    exact hs.entries_entered htab hle hk

lemma Segments.register (hs : Segments s) (hrate : FitsInt32 e.2.rate) :
    Segments (register tcPopulation s e) := by
  unfold TrafficMix.register
  cases hresult : tSceRegister tcPopulation e.1 e.2 s.reg with
  | mk t rc =>
    rcases tSceRegister_cases hresult with ⟨rfl, hentered⟩ | ⟨rfl, u, rfl⟩
    · exact hs.entered hrate hentered
    · exact ⟨hs.index, hs.index_le, hs.sceId, hs.written, hs.free, hs.owners, hs.entries⟩

lemma segments_registerAll {es : List (Outcome × Registration)} (hrates : ∀ e ∈ es, FitsInt32 e.2.rate) :
    Segments (registerAll tcPopulation es) :=
  List.foldlRecOn es _ segments_start fun _ hs e he => hs.register (hrates e he)

lemma rates_registerAll (es : List (Outcome × Registration)) :
    ∀ r ∈ (registerAll tcPopulation es).rates, ∃ e ∈ es, e.2.rate = r := by
  refine List.foldlRecOn (motive := fun s : History => ∀ r ∈ s.rates, ∃ e ∈ es, e.2.rate = r) es _
    (by simp) ?_
  intro s hs e he r hr
  simp only [TrafficMix.register] at hr
  split_ifs at hr with hrc
  · rcases List.mem_append.mp hr with hr | hr
    · exact hs r hr
    · exact ⟨e, he, (List.mem_singleton.mp hr).symm⟩
  · exact hs r hr

end Segments

lemma residues_eq (reg : Registry) (k : ℕ) : residues reg k = entries reg k := by
  have hsame : ∀ i ∈ Finset.range 100,
      tSceGet reg i = some k ↔ reg.sceOccurenceTab i = some k := by
    intro i hi
    rw [tSceGet, Nat.mod_eq_of_lt (Finset.mem_range.mp hi)]
  rw [residues, entries, Finset.filter_congr hsame]

lemma tsceRegisterCheck_eq_zero {reg : Registry} :
    tsceRegisterCheck reg = 0 ↔ ∀ i < 100, ∃ k, reg.sceOccurenceTab i = some k := by
  unfold tsceRegisterCheck
  split_ifs with hall
  · simpa [Option.isSome_iff_exists] using hall
  · simpa [Option.isSome_iff_exists] using hall

/-- After the check the mix is what the rates say exactly if the scenarios fit in `tsceTab` and no rate was
accepted through an overflow. A registration that is refused changes no entry. -/
theorem traffic_mix_iff (tcPopulation : Bool) (es : List (Outcome × Registration))
    (hrates : ∀ e ∈ es, 0 ≤ e.2.rate ∧ e.2.rate < 2 ^ 31)
    (hcheck : tsceRegisterCheck (registerAll tcPopulation es).reg = 0) :
    (Mix (registerAll tcPopulation es) ↔ (registerAll tcPopulation es).rates.length ≤ maxSce ∧
      ∀ r ∈ (registerAll tcPopulation es).rates, r ≤ 100) ∧
    ∀ o r reg t, tSceRegister tcPopulation o r reg = (t, 1) →
      t.sceOccurenceTab = reg.sceOccurenceTab := by
  have hsegments : Segments (registerAll tcPopulation es) :=
    segments_registerAll fun e he => ⟨by have := (hrates e he).1; omega, (hrates e he).2⟩
  have hnonneg : ∀ r ∈ (registerAll tcPopulation es).rates, 0 ≤ r := by
    intro r hr
    obtain ⟨e, he, rfl⟩ := rates_registerAll es r hr
    exact (hrates e he).1
  constructor
  · constructor
    · intro hmix
      refine ⟨hsegments.sceId ▸ hmix.inside, fun r hr => ?_⟩
      obtain ⟨k, hk⟩ := List.mem_iff_getElem?.mp hr
      have hentries := hmix.entries k r hk
      rw [hsegments.entries k r hk, share] at hentries
      split_ifs at hentries with hle
      · exact hle
      · omega
    · rintro ⟨hroom, hsmall⟩
      have hshare : ∀ k r, (registerAll tcPopulation es).rates[k]? = some r →
          (entries (registerAll tcPopulation es).reg k : ℤ) = r := by
        intro k r hk
        have hr := List.mem_of_getElem? hk
        have h0 := hnonneg r hr
        rw [hsegments.entries k r hk, share, if_pos (hsmall r hr)]
        omega
      refine ⟨hsegments.sceId ▸ hroom, hshare, fun k r hk => ?_, tsceRegisterCheck_eq_zero.mp hcheck⟩
      rw [residues_eq]
      exact hshare k r hk
  · intro o r reg t h
    rcases tSceRegister_cases h with ⟨hrc, -⟩ | ⟨-, u, rfl⟩
    · cases hrc
    · rfl

def ofRate (rate : ℤ) : Outcome × Registration :=
  (⟨true, 0, 0⟩, ⟨"s".toList, [], rate, 0, []⟩)

theorem thirty_and_seventy : Mix (registerAll true [ofRate 30, ofRate 70]) :=
  ((traffic_mix_iff true [ofRate 30, ofRate 70] (by decide) (by decide)).1).mpr (by decide)

/-- The sum of the second rate with the index overflows: the scenario is accepted and never drawn. -/
theorem largest_rate_accepted :
    (registerAll true [ofRate 30, ofRate 2147483647, ofRate 70]).rates = [30, 2147483647, 70] ∧
      tsceRegisterCheck (registerAll true [ofRate 30, ofRate 2147483647, ofRate 70]).reg = 0 ∧
      entries (registerAll true [ofRate 30, ofRate 2147483647, ofRate 70]).reg 1 = 0 := by
  decide

end LdapTgen.TrafficMix
