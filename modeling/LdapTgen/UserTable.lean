import LdapTgen.LabelledRun

/-! User reservation of tuser.c: the circular search for a free user, the pick-up policies and
the release. Times are values of `time(NULL)`, random draws are values of `rand()`. -/
namespace LdapTgen.UserTable
open LabelledRun

inductive ExeState
  | idle
  | running
  | abort
  deriving DecidableEq, Repr

structure TSce where
  exclusion : ℤ
  populMin : ℕ
  populNb : ℕ
  deriving DecidableEq, Repr

structure TUser where
  exeState : ExeState
  lastTime : ℤ
  lastSce : Option TSce
  deriving DecidableEq, Repr

def tUserGetExclusion (u : TUser) : ℤ :=
  match u.lastSce with
  | some sce => sce.exclusion
  | none => 0

/-- The loop condition of the search: the user is not free, or not for long enough. -/
def busy (now : ℤ) (u : TUser) : Bool :=
  u.exeState ≠ .idle || now - u.lastTime < tUserGetExclusion u

/-- The search loop of `tUserCheckExclusion`. A full turn answers -1; `none` is a loop still
running when the fuel is spent. -/
def searchFree (tab : ℕ → TUser) (now : ℤ) (nbPopul minPopul initial : ℕ) : ℕ → ℕ → Option ℤ
  | 0, _ => none
  | fuel + 1, i =>
      if busy now (tab i) then
        if (i + 1) % nbPopul + minPopul = initial then some (-1)
        else searchFree tab now nbPopul minPopul initial fuel ((i + 1) % nbPopul + minPopul)
      else some i

/-- A first candidate without exclusion delay is taken without looking at its state. -/
def tUserCheckExclusion (tab : ℕ → TUser) (now : ℤ) (userIndex nbPopul minPopul : ℕ) : Option ℤ :=
  if tUserGetExclusion (tab userIndex) ≠ 0 then
    searchFree tab now nbPopul minPopul userIndex nbPopul userIndex
  else some userIndex

structure Conf where
  tcUserNb : ℕ
  tcUserGetPolicy : ℤ
  deriving DecidableEq, Repr

structure State where
  tab : ℕ → TUser
  tUseri : ℤ

def population (c : Conf) (sce : Option TSce) : ℕ × ℕ :=
  match sce with
  | some sce => if sce.populNb ≠ 0 then (sce.populMin, sce.populNb) else (0, c.tcUserNb)
  | none => (0, c.tcUserNb)

/-- Where the search of a call starts: drawn under policy 0, next to the last index under
policy 2 (which keeps the static index at -1 or above). `none`: remainder by zero. -/
def startIndex (c : Conf) (s : State) (sce : Option TSce) (rand : ℕ) : Option ℕ :=
  let (min, nb) := population c sce
  if nb = 0 then none
  else if c.tcUserGetPolicy = 0 then some (rand % nb + min)
  else some ((s.tUseri + 1).toNat % nb + min)

/-- The new value of the static index. Under policy 1 the end of the table is marked by -2. -/
def nextIndex (c : Conf) (sce : Option TSce) (rand : ℕ) (now : ℤ) (s : State) : Option ℤ :=
  if c.tcUserGetPolicy = 0 ∨ c.tcUserGetPolicy = 2 then
    (startIndex c s sce rand).bind fun i =>
      tUserCheckExclusion s.tab now i (population c sce).2 (population c sce).1
  else if c.tcUserGetPolicy = 1 then
    some (if s.tUseri = -2 then -2 else if s.tUseri + 1 ≥ c.tcUserNb then -2 else s.tUseri + 1)
  else some c.tcUserGetPolicy

def reserve (sce : Option TSce) (u : ℕ) (s : State) : State :=
  { s with tab := Function.update s.tab u { s.tab u with exeState := .running, lastSce := sce } }

/-- One reservation, made under the table's mutex: the new state and the user, or no user. -/
def tUserGetRandomly (c : Conf) (sce : Option TSce) (rand : ℕ) (now : ℤ) (s : State) :
    Option (State × Option ℕ) :=
  (nextIndex c sce rand now s).map fun i =>
    if i < 0 then ({ s with tUseri := i }, none)
    else (reserve sce i.toNat { s with tUseri := i }, some i.toNat)

def tUserFree (u : ℕ) (now : ℤ) (s : State) : State :=
  { s with tab := Function.update s.tab u { s.tab u with exeState := .idle, lastTime := now } }

def tUserAbort (u : ℕ) (now : ℤ) (s : State) : State :=
  { s with tab := Function.update s.tab u { s.tab u with exeState := .abort, lastTime := now } }

def tUserIsAborted (u : ℕ) (s : State) : Bool := (s.tab u).exeState = .abort

def visited (nb min initial k : ℕ) : ℕ := (initial - min + k * (min + 1)) % nb + min

lemma visited_zero {nb min initial : ℕ} (hlo : min ≤ initial) (hhi : initial < min + nb) :
    visited nb min initial 0 = initial := by
  simp only [visited, Nat.zero_mul, Nat.add_zero]
  rw [Nat.mod_eq_of_lt (by omega)]
  omega

lemma visited_succ (nb min initial k : ℕ) :
    (visited nb min initial k + 1) % nb + min = visited nb min initial (k + 1) := by
  simp only [visited, Nat.add_assoc, Nat.mod_add_mod, Nat.add_mul, Nat.one_mul]

lemma visited_turn {nb min initial : ℕ} (hlo : min ≤ initial) (hhi : initial < min + nb) :
    visited nb min initial nb = initial := by
  rw [visited, Nat.add_mul_mod_self_left, Nat.mod_eq_of_lt (by omega)]
  omega

theorem searchFree_terminates {nb min initial : ℕ} (tab : ℕ → TUser) (now : ℤ)
    (hlo : min ≤ initial) (hhi : initial < min + nb) {fuel k : ℕ} (hf : fuel ≠ 0)
    (hk : fuel + k = nb) :
    ∃ r, searchFree tab now nb min initial fuel (visited nb min initial k) = some r := by
  induction fuel generalizing k with
  | zero => exact absurd rfl hf
  | succ fuel ih =>
    simp only [searchFree, visited_succ]
    split_ifs with hb hi
    · exact ⟨_, rfl⟩
    · have hf' : fuel ≠ 0 := by
        rintro rfl
        rw [show k + 1 = nb by omega] at hi
        exact hi (visited_turn hlo hhi)
      exact ih hf' (by omega)
    · exact ⟨_, rfl⟩

theorem tUserCheckExclusion_terminates {nb min i : ℕ} (tab : ℕ → TUser) (now : ℤ)
    (hlo : min ≤ i) (hhi : i < min + nb) : ∃ r, tUserCheckExclusion tab now i nb min = some r := by
  unfold tUserCheckExclusion
  split_ifs with h
  · have hs := searchFree_terminates tab now hlo hhi (show nb ≠ 0 by omega) (Nat.add_zero nb)
    rwa [visited_zero hlo hhi] at hs
  · exact ⟨_, rfl⟩

lemma searchFree_free {tab : ℕ → TUser} {now : ℤ} {nb min initial fuel i : ℕ} {r : ℤ}
    (h : searchFree tab now nb min initial fuel i = some r) :
    r = -1 ∨ ∃ j : ℕ, r = j ∧ busy now (tab j) = false := by
  induction fuel generalizing i with
  | zero => simp [searchFree] at h
  | succ fuel ih =>
    simp only [searchFree] at h
    split_ifs at h with hb hi
    · exact .inl (Option.some.inj h).symm
    · exact ih h
    · exact .inr ⟨i, (Option.some.inj h).symm, by simpa using hb⟩

lemma idle_of_not_busy {now : ℤ} {u : TUser} (h : busy now u = false) : u.exeState = .idle := by
  simp only [busy, Bool.or_eq_false_iff, decide_eq_false_iff_not, not_not] at h
  exact h.1

lemma tUserCheckExclusion_idle {tab : ℕ → TUser} {now : ℤ} {i nb min : ℕ} {r : ℤ}
    (h : tUserCheckExclusion tab now i nb min = some r) (hr : 0 ≤ r) :
    (tUserGetExclusion (tab i) = 0 ∧ r = i) ∨ (tab r.toNat).exeState = .idle := by
  unfold tUserCheckExclusion at h
  split_ifs at h with he
  · rcases searchFree_free h with hn | ⟨j, rfl, hj⟩
    · omega
    · exact .inr (idle_of_not_busy hj)
  · exact .inl ⟨not_not.mp he, (Option.some.inj h).symm⟩

inductive Call
  | get (sce : Option TSce) (rand : ℕ) (now : ℤ)
  | free (user : ℕ) (now : ℤ)

structure Pool where
  sys : State
  held : List ℕ

def call (c : Conf) (p : Pool) : Call → Option Pool
  | .get sce rand now => (tUserGetRandomly c sce rand now p.sys).map fun r =>
      ⟨r.1, r.2.toList ++ p.held⟩
  | .free u now => some ⟨tUserFree u now p.sys, p.held.filter (· ≠ u)⟩

def Fresh (c : Conf) (p : Pool) : Call → Prop
  | .get sce rand now => ∀ s u, tUserGetRandomly c sce rand now p.sys = some (s, some u) → u ∉ p.held
  | .free _ _ => True

/-- The search does not start at a reserved user whose last scenario has no exclusion delay. -/
def StartsFree (c : Conf) (p : Pool) : Call → Prop
  | .get sce rand _ => ∀ i, startIndex c p.sys sce rand = some i →
      ¬ (i ∈ p.held ∧ tUserGetExclusion (p.sys.tab i) = 0)
  | .free _ _ => True

def Marked (p : Pool) : Prop := ∀ u ∈ p.held, (p.sys.tab u).exeState ≠ .idle

lemma tUserGetRandomly_cases {c : Conf} {sce : Option TSce} {rand : ℕ} {now : ℤ} {s : State}
    {r : State × Option ℕ} (h : tUserGetRandomly c sce rand now s = some r) :
    ∃ i, nextIndex c sce rand now s = some i ∧
      ((i < 0 ∧ r = ({ s with tUseri := i }, none)) ∨
       (0 ≤ i ∧ r = (reserve sce i.toNat { s with tUseri := i }, some i.toNat))) := by
  obtain ⟨i, hi, hr⟩ := Option.map_eq_some_iff.mp h
  refine ⟨i, hi, ?_⟩
  split_ifs at hr with hneg
  · exact .inl ⟨hneg, hr.symm⟩
  · exact .inr ⟨not_lt.mp hneg, hr.symm⟩

lemma call_marked {c : Conf} {p q : Pool} {e : Call} (hp : Marked p) (h : call c p e = some q) :
    Marked q := by
  cases e with
  | get sce rand now =>
    obtain ⟨r, hr, rfl⟩ := Option.map_eq_some_iff.mp h
    obtain ⟨i, _, ⟨_, rfl⟩ | ⟨_, rfl⟩⟩ := tUserGetRandomly_cases hr
    · simpa [Marked] using hp
    · intro u hu
      by_cases he : u = i.toNat
      · simp [he, reserve]
      · have hm : u ∈ p.held := by simpa [he] using hu
        simpa [reserve, Function.update, he] using hp u hm
  | free u now =>
    simp only [call, Option.some.injEq] at h
    subst h
    intro v hv
    obtain ⟨hm, hne⟩ := List.mem_filter.mp hv
    have hne' : v ≠ u := by simpa using hne
    simpa [tUserFree, Function.update, hne'] using hp v hm

section policies
variable {c : Conf} (hpol : c.tcUserGetPolicy = 0 ∨ c.tcUserGetPolicy = 2)
include hpol

lemma returned_user {sce : Option TSce} {rand : ℕ} {now : ℤ} {s s' : State} {u : ℕ}
    (h : tUserGetRandomly c sce rand now s = some (s', some u)) :
    ∃ i, startIndex c s sce rand = some i ∧
      ((tUserGetExclusion (s.tab i) = 0 ∧ u = i) ∨ (s.tab u).exeState = .idle) := by
  obtain ⟨r, hr, ⟨_, he⟩ | ⟨hpos, he⟩⟩ := tUserGetRandomly_cases h
  · simp at he
  · obtain rfl : u = r.toNat := by simpa using congrArg Prod.snd he
    simp only [nextIndex, hpol, if_true, Option.bind_eq_some_iff] at hr
    obtain ⟨i, hi, hc⟩ := hr
    refine ⟨i, hi, ?_⟩
    rcases tUserCheckExclusion_idle hc hpos with ⟨he0, rfl⟩ | hidle
    · exact .inl ⟨he0, by simp⟩
    · exact .inr hidle

lemma blind_user {sce : Option TSce} {rand i : ℕ} (now : ℤ) {s : State}
    (hi : startIndex c s sce rand = some i) (he : tUserGetExclusion (s.tab i) = 0) :
    ∃ s', tUserGetRandomly c sce rand now s = some (s', some i) := by
  have hn : nextIndex c sce rand now s = some (i : ℤ) := by
    simp [nextIndex, hpol, hi, tUserCheckExclusion, he]
  simp [tUserGetRandomly, hn, not_lt.mpr (Int.natCast_nonneg i)]

lemma fresh_iff_startsFree {p : Pool} (hp : Marked p) (e : Call) :
    Fresh c p e ↔ StartsFree c p e := by
  cases e with
  | get sce rand now =>
    constructor
    · rintro hf i hi ⟨hm, he⟩
      obtain ⟨s', hs'⟩ := blind_user hpol now hi he
      exact hf s' i hs' hm
    · intro hs s' u hu hm
      obtain ⟨i, hi, ⟨he, rfl⟩ | hidle⟩ := returned_user hpol hu
      · exact hs u hi ⟨hm, he⟩
      · exact hp u hm hidle
  | free u now => exact Iff.rfl

/-- The calls of any number of workers never hand out a reserved user exactly when none of their
searches starts at a reserved user without exclusion delay. -/
theorem tUserGetRandomly_exclusive_iff (s : State) (calls : List Call) :
    Guarded (call c) (Fresh c) ⟨s, []⟩ calls ↔ Guarded (call c) (StartsFree c) ⟨s, []⟩ calls :=
  guarded_congr (I := Marked) (fun _ _ _ hp _ h => call_marked hp h)
    (fun _ e hp => fresh_iff_startsFree hpol hp e) (fun u hu => by simp at hu) calls

end policies

/-- The table that `tUserPopulFillIn` leaves: every user idle, no scenario run yet. -/
def idleTable : State := ⟨fun _ => ⟨.idle, 0, none⟩, -1⟩

/-- One user and a scenario without exclusion delay: two calls with no release in between are both
answered user 0, under either policy. -/
theorem reserved_twice_without_delay :
    ¬ Guarded (call ⟨1, 0⟩) (Fresh ⟨1, 0⟩) ⟨idleTable, []⟩
      [.get (some ⟨0, 0, 1⟩) 0 0, .get (some ⟨0, 0, 1⟩) 0 0] ∧
    ¬ Guarded (call ⟨1, 2⟩) (Fresh ⟨1, 2⟩) ⟨idleTable, []⟩
      [.get (some ⟨0, 0, 1⟩) 0 0, .get (some ⟨0, 0, 1⟩) 0 0] := by
  constructor <;>
    simp [Guarded, Fresh, call, tUserGetRandomly, nextIndex, startIndex, population,
      tUserCheckExclusion, tUserGetExclusion, reserve, idleTable]

/-- Two users without exclusion delay, the first released before it comes round again. -/
theorem reserved_in_turn :
    Guarded (call ⟨2, 2⟩) (Fresh ⟨2, 2⟩) ⟨idleTable, []⟩
      [.get (some ⟨0, 0, 2⟩) 0 0, .get (some ⟨0, 0, 2⟩) 0 0, .free 0 1,
        .get (some ⟨0, 0, 2⟩) 0 1] := by
  rw [tUserGetRandomly_exclusive_iff (.inr rfl)]
  simp [Guarded, StartsFree, call, tUserGetRandomly, nextIndex, startIndex, population,
    tUserCheckExclusion, tUserGetExclusion, reserve, idleTable, tUserFree]

end LdapTgen.UserTable
