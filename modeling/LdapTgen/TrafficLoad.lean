import LdapTgen.TrafficMix

/-! Loading the traffic of a section of the ini file: the scenarios are read and registered one after the
other, until a rate is missing. Nothing bounds their number, while `tsceTab` has `MAXSCE` places. -/
namespace LdapTgen.TrafficLoad
open MachineInt Profile ScenarioLoad TrafficMix

def trafficSection (idx : ℕ) : List Char := "Trafic_".toList ++ Nat.toDigits 10 idx

def rateKey (isce : ℕ) : List Char := "rate".toList ++ Nat.toDigits 10 isce

def scenarioKey (isce : ℕ) : List Char := "scenario".toList ++ Nat.toDigits 10 isce

/-- What the loading takes from its surroundings: the ini file, the population given on the command line,
what the registration of each scenario meets, and a bound for the numbers of the actions. -/
structure Env where
  host : Host
  ini : List Char
  tcPopulation : Bool
  outcomes : ℕ → Outcome
  actionFuel : ℕ

/-- `tSceRegister` for the scenario of this number. -/
def registering (env : Env) (isce : ℕ) (r : Registration) (s : History) : History × ℤ :=
  (register env.tcPopulation s (env.outcomes isce, r),
    (tSceRegister env.tcPopulation (env.outcomes isce) r s.reg).2)

/-- The loop over the numbered scenarios, for at most `fuel` turns. -/
def loadScenarios (env : Env) (sect : List Char) :
    ℕ → ℕ → Cache → History → ℤ → Except Fault (Cache × History × ℤ)
  | 0, _, _, _, _ => .error .unfinished
  | fuel + 1, isce, cache, s, rc => do
      let (cache, rate) ← profileGetInt env.host cache env.ini sect (rateKey isce) (-1)
      if rate = -1 then .ok (cache, s, rc)
      else
        let (cache, sectionSce) ← profileGetString env.host cache env.ini sect (scenarioKey isce) [] 128
        let (cache, s, status) ←
          tSceLoadScenario (registering env isce) env.host env.ini env.actionFuel cache sectionSce rate s
        loadScenarios env sect fuel (isce + 1) cache s (rc + status)

def tSceLoadTraffic (env : Env) (fuel idx : ℕ) (cache : Cache) :
    Except Fault (Cache × History × ℤ) := do
  let (cache, description) ←
    profileGetString env.host cache env.ini (trafficSection idx) "description".toList [] 256
  if description = [] then .ok (cache, ⟨start, []⟩, 1)
  else loadScenarios env (trafficSection idx) fuel 1 cache ⟨start, []⟩ 0

def rateOf (env : Env) (sect : List Char) (isce : ℕ) : Except Fault ℤ :=
  fresh fun cache => profileGetInt env.host cache env.ini sect (rateKey isce) (-1)

def scenarioOf (env : Env) (sect : List Char) (isce : ℕ) (rate : ℤ) :
    Except Fault (Option Registration) := do
  let sectionSce ← fresh fun cache => profileGetString env.host cache env.ini sect (scenarioKey isce) [] 128
  fresh fun cache => readScenario env.host env.ini env.actionFuel cache sectionSce rate

/-- There is memory for the scenario, and its population can be loaded if it is asked for. -/
def Ready (env : Env) (isce : ℕ) : Prop :=
  (env.outcomes isce).malloc = true ∧ (env.tcPopulation = true ∨ (env.outcomes isce).tUserInit = 0)

instance (env : Env) (isce : ℕ) : Decidable (Ready env isce) := instDecidableAnd

/-- The rate that the file has under a number, if the scenario there can be read and is ready. -/
def offeredRate (env : Env) (sect : List Char) (isce : ℕ) : Option ℤ :=
  match rateOf env sect isce with
  | .error _ => none
  | .ok rate =>
      match scenarioOf env sect isce rate with
      | .ok (some _) => if Ready env isce then some rate else none
      | _ => none

/-- The rates offered from a number on, up to the first number without a rate. -/
def offeredFrom (env : Env) (sect : List Char) (fuel isce : ℕ) : List ℤ :=
  ((List.range' isce fuel).takeWhile (rateOf env sect · ≠ .ok (-1))).filterMap (offeredRate env sect)

/-- The rates that the file offers in a traffic, none if the traffic has no description. -/
def offered (env : Env) (fuel idx : ℕ) : List ℤ :=
  if (fresh fun cache => profileGetString env.host cache env.ini (trafficSection idx)
      "description".toList [] 256) = .ok [] then []
  else offeredFrom env (trafficSection idx) fuel 1

/-- How many of the rates are taken, each one that still goes into the hundred entries as the addition of
`int` has it, when `index` entries are occupied. -/
def accepted : ℕ → List ℤ → ℕ
  | _, [] => 0
  | index, rate :: rates =>
      if int32 (index + rate) ≤ 100 then accepted (index + share rate) rates + 1
      else accepted index rates

section Load
variable {env : Env} {sect : List Char} {fuel isce : ℕ} {cache after : Cache} {s t : History} {rc rc' : ℤ}

lemma readScenario_rate {h : Host} {ini sceName : List Char} {rate : ℤ} {r : Registration}
    (hload : readScenario h ini fuel cache sceName rate = .ok (after, some r)) : r.rate = rate := by
  obtain ⟨⟨cache, description⟩, -, hload⟩ := bind_eq_ok hload
  simp only at hload
  split_ifs at hload
  · cases hload
  · obtain ⟨⟨cache, exclusion⟩, -, hload⟩ := bind_eq_ok hload
    obtain ⟨⟨cache, population⟩, -, hload⟩ := bind_eq_ok hload
    obtain ⟨⟨cache, actTab⟩, -, hload⟩ := bind_eq_ok hload
    simp only [Except.ok.injEq, Prod.mk.injEq, Option.map_eq_some_iff] at hload
    obtain ⟨-, actions, -, rfl⟩ := hload
    rfl

lemma profileGetInt_fits {h : Host} {ini key : List Char} {defvalue n : ℤ} (hdef : FitsInt32 defvalue)
    (hget : profileGetInt h cache ini sect key defvalue = .ok (after, n)) : FitsInt32 n := by
  obtain ⟨⟨cache, found, value⟩, -, hget⟩ := bind_eq_ok hget
  simp only at hget
  split_ifs at hget
  · cases hget
    exact int32_fits _
  · cases hget
    exact int32_fits _
  · cases hget
    exact hdef

lemma tSceLoadScenario_ok {σ : Type} {register : Registration → σ → σ × ℤ} {h : Host}
    {ini sceName : List Char} {rate status : ℤ} {s t : σ}
    (hload : tSceLoadScenario register h ini fuel cache sceName rate s = .ok (after, t, status)) :
    (readScenario h ini fuel cache sceName rate = .ok (after, none) ∧ t = s ∧ status = 1) ∨
      ∃ r, readScenario h ini fuel cache sceName rate = .ok (after, some r) ∧ r.rate = rate ∧
        register r s = (t, status) := by
  obtain ⟨⟨cache', registration⟩, hread, hload⟩ := bind_eq_ok hload
  cases registration with
  | none =>
    cases hload
    exact .inl ⟨hread, rfl, rfl⟩
  | some r =>
    obtain ⟨rfl, hstatus⟩ := Prod.mk.inj (Except.ok.inj hload)
    exact .inr ⟨r, hread, readScenario_rate hread, hstatus⟩

lemma tSceRegister_eq_zero_iff (tcPopulation : Bool) (o : Outcome) (r : Registration) (reg : Registry) :
    (tSceRegister tcPopulation o r reg).2 = 0 ↔ int32 (reg.index + r.rate) ≤ 100 ∧ o.malloc = true ∧
      (tcPopulation = true ∨ o.tUserInit = 0) := by
  simp only [tSceRegister]
  split_ifs with hbound hmalloc hpopulation hinit
  · simp [hbound]
  · simp [hmalloc]
  · simp [not_lt.mp hbound, Bool.not_eq_false _ ▸ hmalloc, hpopulation]
  · simp [hpopulation, hinit]
  · simp [not_lt.mp hbound, Bool.not_eq_false _ ▸ hmalloc, not_not.mp hinit]

lemma accepted_register (hs : Segments s) {r : Registration} (hrate : FitsInt32 r.rate) (rates : List ℤ) :
    (registering env isce r s).1.rates.length +
        accepted (registering env isce r s).1.reg.index rates =
      s.rates.length + accepted s.reg.index (if Ready env isce then r.rate :: rates else rates) := by
  obtain ⟨o, ho⟩ : ∃ o, o = env.outcomes isce := ⟨_, rfl⟩
  have hsegments : Segments (register env.tcPopulation s (o, r)) := hs.register hrate
  have hindex := hsegments.index
  have hzero := tSceRegister_eq_zero_iff env.tcPopulation o r s.reg
  simp only [registering, Ready, ← ho, hindex]
  by_cases hrc : (tSceRegister env.tcPopulation o r s.reg).2 = 0
  · obtain ⟨hbound, hready⟩ := hzero.mp hrc
    simp only [register, hrc, if_pos, hready, true_and, accepted, hbound, List.length_append,
      List.map_append, List.sum_append, ← hs.index]
    simp
    omega
  · have hsame : (register env.tcPopulation s (o, r)).rates = s.rates := if_neg hrc
    rw [hsame, ← hs.index]
    congr 1
    split_ifs with hready
    · rw [accepted, if_neg fun hbound => hrc (hzero.mpr ⟨hbound, hready⟩)]
    · rfl

lemma offeredFrom_stop (hrate : rateOf env sect isce = .ok (-1)) :
    offeredFrom env sect (fuel + 1) isce = [] := by
  simp [offeredFrom, List.range'_succ, hrate]

lemma offeredFrom_next {rate : ℤ} (hrate : rateOf env sect isce = .ok rate) (hne : rate ≠ -1) :
    offeredFrom env sect (fuel + 1) isce =
      (offeredRate env sect isce).toList ++ offeredFrom env sect fuel (isce + 1) := by
  rw [offeredFrom, List.range'_succ, List.takeWhile_cons_of_pos (by simp [hrate, hne]),
    List.filterMap_cons, offeredFrom]
  cases offeredRate env sect isce <;> rfl

lemma loadScenarios_accepted (hs : Segments s) (hv : cache.Valid env.host)
    (hload : loadScenarios env sect fuel isce cache s rc = .ok (after, t, rc')) :
    Segments t ∧ t.rates.length = s.rates.length + accepted s.reg.index (offeredFrom env sect fuel isce) := by
  induction fuel generalizing isce cache s rc with
  | zero => cases hload
  | succ fuel ih =>
    obtain ⟨⟨cache₁, rate⟩, hget, hload⟩ := bind_eq_ok hload
    obtain ⟨hv₁, hrate : rateOf env sect isce = _⟩ :=
      (cacheFree_profileGetInt env.ini sect (rateKey isce) (-1)).ok hv hget
    have hfits := profileGetInt_fits ⟨by decide, by decide⟩ hget
    simp only at hload
    split_ifs at hload with hstop
    · cases hload
      rw [hstop] at hrate
      rw [offeredFrom_stop hrate]
      exact ⟨hs, rfl⟩
    · obtain ⟨⟨cache₂, sectionSce⟩, hname, hload⟩ := bind_eq_ok hload
      obtain ⟨hv₂, hname⟩ := (cacheFree_profileGetString env.ini sect (scenarioKey isce) [] 128).ok hv₁ hname
      obtain ⟨⟨cache₃, s', status⟩, hscenario, hnext⟩ := bind_eq_ok hload
      have hfree := cacheFree_readScenario (h := env.host) env.ini env.actionFuel sectionSce rate
      rw [offeredFrom_next hrate hstop]
      rcases tSceLoadScenario_ok hscenario with ⟨hread, rfl, -⟩ | ⟨r, hread, rfl, hreg⟩
      · obtain ⟨hv₃, hread⟩ := hfree.ok hv₂ hread
        have hoffer : offeredRate env sect isce = none := by
          simp only [offeredRate, hrate, scenarioOf, hname, ok_bind, hread]
        rw [hoffer]
        exact ih hs hv₃ hnext
      · obtain ⟨hv₃, hread⟩ := hfree.ok hv₂ hread
        have hoffer : offeredRate env sect isce = if Ready env isce then some r.rate else none := by
          simp only [offeredRate, hrate, scenarioOf, hname, ok_bind, hread]
        have hcount := @accepted_register env isce _ hs _ hfits (offeredFrom env sect fuel (isce + 1))
        obtain rfl : s' = (registering env isce r s).1 := (congrArg Prod.fst hreg).symm
        obtain ⟨hsegments, hlength⟩ := ih (hs.register hfits) hv₃ hnext
        refine ⟨hsegments, hlength.trans (hcount.trans ?_)⟩
        rw [hoffer]
        split_ifs <;> rfl

lemma tSceLoadTraffic_accepted {idx : ℕ} (hv : cache.Valid env.host)
    (hload : tSceLoadTraffic env fuel idx cache = .ok (after, t, rc)) :
    Segments t ∧ t.rates.length = accepted 0 (offered env fuel idx) := by
  obtain ⟨⟨cache₁, description⟩, hget, hload⟩ := bind_eq_ok hload
  obtain ⟨hv₁, hdescription⟩ :=
    (cacheFree_profileGetString env.ini (trafficSection idx) "description".toList [] 256).ok hv hget
  rw [offered, hdescription]
  simp only at hload
  split_ifs at hload with hnone
  · cases hload
    simp [hnone, segments_start, accepted]
  · obtain ⟨hsegments, hlength⟩ := loadScenarios_accepted segments_start hv₁ hload
    refine ⟨hsegments, ?_⟩
    rw [if_neg (by simpa using hnone), hlength]
    exact Nat.zero_add _

end Load

lemma accepted_le_of_rates {rates : List ℤ} (hrates : ∀ r ∈ rates, 4 ≤ r ∧ r + 100 < 2 ^ 31) {index : ℕ}
    (hindex : index ≤ 100) : 4 * accepted index rates ≤ 100 - index := by
  induction rates generalizing index with
  | nil => simp [accepted]
  | cons rate rates ih =>
    have hrest : ∀ r ∈ rates, 4 ≤ r ∧ r + 100 < 2 ^ 31 := fun r hr => hrates r (List.mem_cons_of_mem _ hr)
    obtain ⟨hlo, hhi⟩ := hrates rate (List.mem_cons_self ..)
    rw [accepted, int32_of_fits ⟨by omega, by omega⟩]
    split_ifs with hbound
    · have hshare : share rate = rate.toNat := if_pos (by omega)
      have hle := @ih hrest (index + share rate) (by omega)
      omega
    · exact ih hrest hindex

/-- The scenarios of a traffic are all written inside of `tsceTab` exactly if the rates of the file are such
that no more than `MAXSCE` of them are taken. Rates of at least 4 whose addition does not overflow ensure
it. -/
theorem scenario_table_iff (env : Env) (fuel idx : ℕ) (cache after : Cache) (hv : cache.Valid env.host)
    (s : History) (rc : ℤ) (hload : tSceLoadTraffic env fuel idx cache = .ok (after, s, rc)) :
    ((∀ i, (s.reg.tsceTab i).isSome → i < maxSce) ↔ accepted 0 (offered env fuel idx) ≤ maxSce) ∧
      ((∀ r ∈ offered env fuel idx, 4 ≤ r ∧ r + 100 < 2 ^ 31) →
        accepted 0 (offered env fuel idx) ≤ maxSce) := by
  obtain ⟨hs, hlength⟩ := tSceLoadTraffic_accepted hv hload
  refine ⟨?_, fun hrates => ?_⟩
  · simp only [hs.written, hlength]
    constructor
    · intro hinside
      by_contra hmore
      exact absurd (hinside maxSce (not_le.mp hmore)) (lt_irrefl maxSce)
    · intro hroom i hi
      exact hi.trans_le hroom
  · have hle := accepted_le_of_rates hrates (Nat.zero_le 100)
    rw [maxSce]
    omega

/-- A file with a scenario that has a description only, and a traffic of `n` such scenarios. -/
def trafficOf (n : ℕ) (rate : List Char) : List Char :=
  "[S]\ndescription=s\n[Trafic_1]\ndescription=t\n".toList ++
    (List.range n).flatMap fun i =>
      rateKey (i + 1) ++ '=' :: rate ++ '\n' :: scenarioKey (i + 1) ++ "=S\n".toList

def envOf (text : List Char) : Env where
  host := ⟨fun _ => some text, ⟨id, fun _ => 0, fun _ => 0⟩, 0⟩
  ini := "x.ini".toList
  tcPopulation := true
  outcomes := fun _ => ⟨true, 0, 0⟩
  actionFuel := 1

lemma two_scenarios_loaded : (tSceLoadTraffic (envOf (trafficOf 2 "50".toList)) 3 1 ⟨none, none⟩).map
    (fun r => r.2.2) = .ok 0 := by
  decide +kernel

theorem two_scenarios_inside :
    ∃ after s, tSceLoadTraffic (envOf (trafficOf 2 "50".toList)) 3 1 ⟨none, none⟩ = .ok (after, s, 0) ∧
      offered (envOf (trafficOf 2 "50".toList)) 3 1 = [50, 50] ∧
      ∀ i, (s.reg.tsceTab i).isSome → i < maxSce := by
  have hoffered : offered (envOf (trafficOf 2 "50".toList)) 3 1 = [50, 50] := by decide +kernel
  obtain ⟨⟨after, s, rc⟩, hload, rfl⟩ := map_eq_ok two_scenarios_loaded
  refine ⟨after, s, hload, hoffered, ?_⟩
  refine (scenario_table_iff _ _ _ _ after valid_start s _ hload).1.mpr ?_
  rw [hoffered]
  decide

/-- Thirty-three scenarios of three entries each are accepted, the last one behind the table. -/
theorem thirty_three_scenarios :
    (tSceLoadTraffic (envOf (trafficOf 33 "3".toList)) 34 1 ⟨none, none⟩).map
      (fun r => (r.2.1.rates, (r.2.1.reg.tsceTab maxSce).isSome, r.2.2)) =
        .ok (List.replicate 33 3, true, 0) := by
  decide +kernel

end LdapTgen.TrafficLoad
