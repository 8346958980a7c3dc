import LdapTgen.LabelledRun
import LdapTgen.TimerWheel

/-! The timetable under the threads that use it: any number of callers of `tTimerSetUserToSleep` and
`tTimerGetUserToResume`, the thread that runs `tTimerTopTU`, and `tTimerClose`. A label is one section
under `tTimerMutex`, or the tests that `tTimerSetUserToSleep` makes before it takes the mutex. The
numbers in the table name the accepted insertions, in the order of their acceptance. -/
namespace LdapTgen.TimerThreads
open LabelledRun TimerWheel
variable {C : Type*}

/-- Where the thread inside `tTimerTopTU` is: before a call of `tTimerGetUserToResume`, before the
tests and before the insertion of `tTimerSetUserToSleep`, or before the index moves on. -/
inductive Top
  | idle
  | loop
  | hold (k : ℕ)
  | insert (k delay : ℕ)
  | index
  deriving DecidableEq, Repr

/-- `callers` holds the arguments of the calls of `tTimerSetUserToSleep` that wait for the mutex,
`accepted` the contexts accepted so far, `handedOut` the insertions returned to other callers than
`tTimerTopTU`. -/
structure State (C : Type*) where
  wheel : Wheel
  callers : ℕ → Option (C × ℕ)
  top : Top
  accepted : List C
  handedOut : List ℕ

def start : State C := ⟨tTimerInit, fun _ => none, .idle, [], []⟩

inductive Label (C : Type*)
  | sleepTests (t : ℕ) (aCtx : Option C) (nbTimeUnit : ℕ)
  | sleepInsert (t : ℕ)
  | resume
  | topStart
  | topGet
  | topTests
  | topInsert
  | topIndex
  | close

/-- The tests of `tTimerSetUserToSleep`; a refused call returns at once. -/
def stepSleepTests (n t : ℕ) (aCtx : Option C) (nbTimeUnit : ℕ) (s : State C) : State C :=
  match aCtx, sleepDelay n nbTimeUnit s.wheel with
  | some x, some delay => { s with callers := Function.update s.callers t (some (x, delay)) }
  | _, _ => s

/-- The new element is named by the number of elements accepted before it. -/
def stepSleepInsert (n t : ℕ) (s : State C) (x : C) (delay : ℕ) : State C :=
  { s with
    wheel := insertSleep n s.accepted.length delay s.wheel
    callers := Function.update s.callers t none
    accepted := s.accepted ++ [x] }

def stepResume (s : State C) : State C :=
  match tTimerGetUserToResume s.wheel with
  | (_, none) => s
  | (w, some k) => { s with wheel := w, handedOut := k :: s.handedOut }

/-- The call of `tTimerGetUserToResume` in the loop of `tTimerTopTU`, which ends with a null
context. -/
def stepTopGet (s : State C) : State C :=
  match tTimerGetUserToResume s.wheel with
  | (_, none) => { s with top := .index }
  | (w, some k) => { s with wheel := w, top := .hold k }

def stepTopTests (n k : ℕ) (s : State C) : State C :=
  match sleepDelay n 1 s.wheel with
  | none => { s with top := .index }
  | some delay => { s with top := .insert k delay }

def step (n : ℕ) (s : State C) : Label C → Option (State C)
  | .sleepTests t aCtx nbTimeUnit =>
      if s.callers t = none then some (stepSleepTests n t aCtx nbTimeUnit s) else none
  | .sleepInsert t => (s.callers t).map fun a => stepSleepInsert n t s a.1 a.2
  | .resume => some (stepResume s)
  | .topStart =>
      if s.top = .idle then some (if s.wheel.tableClosed then s else { s with top := .loop })
      else none
  | .topGet => if s.top = .loop then some (stepTopGet s) else none
  | .topTests =>
      match s.top with
      | .hold k => some (stepTopTests n k s)
      | _ => none
  | .topInsert =>
      match s.top with
      | .insert k delay => some { s with wheel := insertSleep n k delay s.wheel, top := .loop }
      | _ => none
  | .topIndex => if s.top = .index then some { s with wheel := topIndex n s.wheel, top := .idle } else none
  | .close => some { s with wheel := tTimerClose n s.wheel }

inductive Move (n : ℕ) (s : State C) : Label C → State C → Prop
  | sleepTests {t nbTimeUnit : ℕ} {aCtx : Option C} (hcaller : s.callers t = none) :
      Move n s (.sleepTests t aCtx nbTimeUnit) (stepSleepTests n t aCtx nbTimeUnit s)
  | sleepInsert {t delay : ℕ} {x : C} (hcaller : s.callers t = some (x, delay)) :
      Move n s (.sleepInsert t) (stepSleepInsert n t s x delay)
  | resume : Move n s .resume (stepResume s)
  | closedStart (htop : s.top = .idle) (hclosed : s.wheel.tableClosed = true) :
      Move n s .topStart s
  | topStart (htop : s.top = .idle) (hopen : s.wheel.tableClosed = false) :
      Move n s .topStart { s with top := .loop }
  | topGet (htop : s.top = .loop) : Move n s .topGet (stepTopGet s)
  | topTests {k : ℕ} (htop : s.top = .hold k) : Move n s .topTests (stepTopTests n k s)
  | topInsert {k delay : ℕ} (htop : s.top = .insert k delay) :
      Move n s .topInsert { s with wheel := insertSleep n k delay s.wheel, top := .loop }
  | topIndex (htop : s.top = .index) :
      Move n s .topIndex { s with wheel := topIndex n s.wheel, top := .idle }
  | close : Move n s .close { s with wheel := tTimerClose n s.wheel }

lemma step_move {n : ℕ} {s t : State C} {e : Label C} (hs : step n s e = some t) : Move n s e t := by
  cases e with
  | sleepTests u aCtx nb =>
    simp only [step, Option.ite_none_right_eq_some, Option.some.injEq] at hs
    obtain ⟨hcaller, rfl⟩ := hs
    exact .sleepTests hcaller
  | sleepInsert u =>
    obtain ⟨a, hcaller, rfl⟩ := Option.map_eq_some_iff.mp hs
    exact .sleepInsert hcaller
  | resume =>
    obtain rfl := Option.some.inj hs
    exact .resume
  | topStart =>
    simp only [step, Option.ite_none_right_eq_some, Option.some.injEq] at hs
    obtain ⟨htop, rfl⟩ := hs
    split
    · rename_i hclosed
      exact .closedStart htop hclosed
    · rename_i hopen
      exact .topStart htop (Bool.eq_false_of_not_eq_true hopen)
  | topGet =>
    simp only [step, Option.ite_none_right_eq_some, Option.some.injEq] at hs
    obtain ⟨htop, rfl⟩ := hs
    exact .topGet htop
  | topTests =>
    simp only [step] at hs
    split at hs
    · rename_i k htop
      obtain rfl := Option.some.inj hs
      exact .topTests htop
    · cases hs
  | topInsert =>
    simp only [step] at hs
    split at hs
    · rename_i k delay htop
      obtain rfl := Option.some.inj hs
      exact .topInsert htop
    · cases hs
  | topIndex =>
    simp only [step, Option.ite_none_right_eq_some, Option.some.injEq] at hs
    obtain ⟨htop, rfl⟩ := hs
    exact .topIndex htop
  | close =>
    obtain rfl := Option.some.inj hs
    exact .close

def inHands (top : Top) (k : ℕ) : ℕ :=
  match top with
  | .hold j => if j = k then 1 else 0
  | .insert j _ => if j = k then 1 else 0
  | _ => 0

/-- Number of places where an insertion is: elements of the slots, and the hands of `tTimerTopTU`. -/
def places (n : ℕ) (s : State C) (k : ℕ) : ℕ := onWheel n s.wheel k + inHands s.top k

/-- Every accepted insertion that was not handed out is in exactly one place, and none is handed out
twice. -/
def Conserved (n : ℕ) (s : State C) : Prop :=
  ∀ k < s.accepted.length, (k ∉ s.handedOut → places n s k = 1) ∧ s.handedOut.count k ≤ 1

/-- The invariant behind it counts the insertions already handed out as a further place. -/
structure Account (n : ℕ) (s : State C) : Prop where
  index : s.wheel.currentIndex < n
  once : ∀ k, places n s k + s.handedOut.count k = if k < s.accepted.length then 1 else 0

section Steps
variable {n : ℕ} {s t : State C}

lemma Account.conserved (h : Account n s) : Conserved n s := by
  intro k hk
  have hone := h.once k
  rw [if_pos hk] at hone
  constructor
  · intro hout
    rw [List.count_eq_zero_of_not_mem hout] at hone
    exact hone
  · omega

lemma account_start (hn : 2 ≤ n) : Account n (start : State C) where
  index := by
    simp only [start, tTimerInit]
    omega
  once k := by simp [places, start, tTimerInit, onWheel, inHands]

lemma Account.move (h : Account n s) (hindex : t.wheel.currentIndex < n)
    (hp : ∀ k, places n t k = places n s k) (ho : t.handedOut = s.handedOut)
    (ha : t.accepted = s.accepted) : Account n t where
  index := hindex
  once k := by
    rw [hp, ho, ha]
    exact h.once k

lemma stepSleepTests_account {u : ℕ} {aCtx : Option C} {nb : ℕ} (h : Account n s) :
    Account n (stepSleepTests n u aCtx nb s) := by
  unfold stepSleepTests
  split
  · exact h.move h.index (fun _ => rfl) rfl rfl
  · exact h

lemma stepSleepInsert_account {u delay : ℕ} {x : C} (h : Account n s) :
    Account n (stepSleepInsert n u s x delay) where
  index := h.index
  once k := by
    have hk := h.once k
    have hpos : 0 < n := Nat.lt_of_le_of_lt (Nat.zero_le _) h.index
    simp only [places, stepSleepInsert, onWheel_insertSleep hpos, List.length_append,
      List.length_singleton] at hk ⊢
    split_ifs at hk ⊢ <;> omega

lemma get_some {w w' : Wheel} {k : ℕ} (hi : w.currentIndex < n)
    (hget : tTimerGetUserToResume w = (w', some k)) :
    w'.currentIndex = w.currentIndex ∧
      ∀ j, onWheel n w' j + (if k = j then 1 else 0) = onWheel n w j := by
  have hsnd : (tTimerGetUserToResume w).2 = some k := by rw [hget]
  have hfst : (tTimerGetUserToResume w).1 = w' := by rw [hget]
  constructor
  · rw [← hfst]
    unfold tTimerGetUserToResume
    split <;> rfl
  · intro j
    rw [← hfst]
    exact onWheel_tTimerGetUserToResume hi hsnd j

lemma stepResume_account (h : Account n s) : Account n (stepResume s) := by
  unfold stepResume
  split
  · exact h
  · rename_i w k hget
    obtain ⟨hindex, hout⟩ := get_some h.index hget
    constructor
    · exact hindex.trans_lt h.index
    · intro j
      have hj := h.once j
      have hjout := hout j
      simp only [places, List.count_cons, beq_iff_eq] at hj ⊢
      omega

lemma stepTopGet_account (htop : s.top = .loop) (h : Account n s) : Account n (stepTopGet s) := by
  unfold stepTopGet
  split
  · exact h.move h.index (fun k => by simp [places, htop, inHands]) rfl rfl
  · rename_i w k hget
    obtain ⟨hindex, hout⟩ := get_some h.index hget
    refine h.move (hindex.trans_lt h.index) (fun j => ?_) rfl rfl
    simp only [places, htop, inHands]
    exact hout j

lemma stepTopTests_account {k : ℕ} (hn : 2 ≤ n) (htop : s.top = .hold k) (h : Account n s) :
    Account n (stepTopTests n k s) := by
  unfold stepTopTests
  split
  · rename_i hrefused
    simp only [sleepDelay, if_neg (show ¬ n ≤ 1 by omega)] at hrefused
    cases hrefused
  · exact h.move h.index (fun j => by simp [places, htop, inHands]) rfl rfl

lemma topInsert_account {k delay : ℕ} (htop : s.top = .insert k delay) (h : Account n s) :
    Account n { s with wheel := insertSleep n k delay s.wheel, top := .loop } := by
  have hpos : 0 < n := Nat.lt_of_le_of_lt (Nat.zero_le _) h.index
  refine h.move h.index (fun j => ?_) rfl rfl
  simp only [places, htop, inHands, onWheel_insertSleep hpos]
  omega

lemma topIndex_account (htop : s.top = .index) (h : Account n s) :
    Account n { s with wheel := topIndex n s.wheel, top := .idle } := by
  have hpos : 0 < n := Nat.lt_of_le_of_lt (Nat.zero_le _) h.index
  exact h.move (Nat.mod_lt _ hpos) (fun j => by simp [places, htop, inHands, topIndex, onWheel]) rfl rfl

lemma close_account (h : Account n s) :
    Account n { s with wheel := tTimerClose n s.wheel } := by
  have hpos : 0 < n := Nat.lt_of_le_of_lt (Nat.zero_le _) h.index
  exact h.move hpos (fun j => by simp only [places, onWheel_tTimerClose hpos]) rfl rfl

lemma step_account (hn : 2 ≤ n) {e : Label C} (h : Account n s) (hs : step n s e = some t) :
    Account n t := by
  cases step_move hs with
  | sleepTests _ => exact stepSleepTests_account h
  | sleepInsert _ => exact stepSleepInsert_account h
  | resume => exact stepResume_account h
  | closedStart _ _ => exact h
  | topStart htop _ => exact h.move h.index (fun k => by simp [places, htop, inHands]) rfl rfl
  | topGet htop => exact stepTopGet_account htop h
  | topTests htop => exact stepTopTests_account hn htop h
  | topInsert htop => exact topInsert_account htop h
  | topIndex htop => exact topIndex_account htop h
  | close => exact close_account h

end Steps

/-- From `tTimerInit` on, whatever the threads do, no accepted insertion is lost or duplicated. -/
theorem timer_conserved {n : ℕ} (hn : 2 ≤ n) (es : List (Label C)) :
    Always (step n) (Conserved n) start es :=
  always_of_step (fun _ h => h.conserved) (fun _ _ _ h hs => step_account hn h hs)
    (account_start hn) es

/-- A context is held by `tTimerTopTU` while the table is closed and is handed out afterwards. -/
def closedMeanwhile : List (Label ℕ) :=
  [.sleepTests 0 (some 7) 0, .sleepInsert 0, .topStart, .topGet, .close, .resume, .topTests,
    .topInsert, .resume]

theorem held_context_handed_out :
    (run (step 2) start closedMeanwhile).map (fun s => (s.accepted, s.handedOut)) = some ([7], [0]) ∧
      Always (step 2) (Conserved 2) start closedMeanwhile :=
  ⟨by decide, timer_conserved (by decide) closedMeanwhile⟩

end LdapTgen.TimerThreads
