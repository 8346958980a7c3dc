import LdapTgen.LabelledRun

/-! Rate regulation: the worker threads inside `tStatRegulation` against the broadcast and the reset
that the stat thread makes each second. A label is one section under `schedulingMutex`, from its
acquisition to its release by `pthread_cond_wait` or at the end of the call, which returns with it. -/
namespace LdapTgen.RateRegulation
open LabelledRun

inductive TThreadState
  | suspend
  | running
  | ending
  | finished
  | ending2
  deriving DecidableEq, Repr

/-- A thread is outside `tStatRegulation`, blocked on `schedulingCond`, or woken and about to take
the mutex again. -/
inductive Pc
  | outside
  | waiting
  | woken
  deriving DecidableEq, Repr

inductive StatPc
  | broadcast
  | reset
  deriving DecidableEq, Repr

/-- `returned` counts the calls of running threads that returned since the last reset. -/
structure State where
  tstatRequestPerSecondSent : ℕ
  tstatRequestPerSecondWanted : ℤ
  threadState : ℕ → TThreadState
  pc : ℕ → Pc
  stat : StatPc
  returned : ℕ

def start (tcNbOfRequestPerSecond : ℤ) (threadState : ℕ → TThreadState) : State :=
  ⟨0, tcNbOfRequestPerSecond, threadState, fun _ => .outside, .broadcast, 0⟩

inductive Label
  | regulate (t : ℕ)
  | wake (t : ℕ)
  | again (t : ℕ)
  | setState (t : ℕ) (v : TThreadState)
  | broadcast
  | reset (wanted : ℤ)

/-- The test of the loop. The wanted rate, an `int`, is converted to `unsigned long`. -/
def Exhausted (s : State) : Prop :=
  (s.tstatRequestPerSecondWanted % 2 ^ 64).toNat ≤ s.tstatRequestPerSecondSent

instance (s : State) : Decidable (Exhausted s) := inferInstanceAs (Decidable (_ ≤ _))

/-- The loop of a running thread that holds the mutex: wait, or go on and return. -/
def loopTest (t : ℕ) (s : State) : State :=
  if Exhausted s then { s with pc := Function.update s.pc t .waiting }
  else
    { s with
      tstatRequestPerSecondSent := s.tstatRequestPerSecondSent + 1
      pc := Function.update s.pc t .outside
      returned := s.returned + 1 }

/-- Threads in another state than running are counted as sent but not regulated. A blocked thread
may be woken at any time, by the broadcast or spuriously. -/
def step (s : State) : Label → Option State
  | .regulate t =>
      if s.pc t = .outside then
        if s.threadState t = .running then some (loopTest t s)
        else some { s with tstatRequestPerSecondSent := s.tstatRequestPerSecondSent + 1 }
      else none
  | .wake t => if s.pc t = .waiting then some { s with pc := Function.update s.pc t .woken } else none
  | .again t => if s.pc t = .woken then some (loopTest t s) else none
  | .setState t v => some { s with threadState := Function.update s.threadState t v }
  | .broadcast =>
      if s.stat = .broadcast then
        some { s with pc := fun t => if s.pc t = .waiting then .woken else s.pc t, stat := .reset }
      else none
  | .reset wanted =>
      if s.stat = .reset then
        some { s with
          tstatRequestPerSecondSent := 0
          tstatRequestPerSecondWanted := wanted
          stat := .broadcast
          returned := 0 }
      else none

def Regulated (s : State) : Prop := (s.returned : ℤ) ≤ s.tstatRequestPerSecondWanted

def NonNeg (_ : State) : Label → Prop
  | .reset wanted => 0 ≤ wanted
  | _ => True

/-- A running call that returns is also counted as sent, and it found fewer sent than wanted. -/
structure Metered (s : State) : Prop where
  sent : s.returned ≤ s.tstatRequestPerSecondSent
  wanted : Regulated s

section Steps
variable {s t : State}

lemma not_exhausted (h : ¬ Exhausted s) (hw : 0 ≤ s.tstatRequestPerSecondWanted) :
    (s.tstatRequestPerSecondSent : ℤ) < s.tstatRequestPerSecondWanted := by
  unfold Exhausted at h
  omega

lemma loopTest_metered (h : Metered s) (u : ℕ) : Metered (loopTest u s) := by
  have hsent := h.sent
  have hwanted := h.wanted
  unfold Regulated at hwanted
  unfold loopTest
  split_ifs with hex
  · exact ⟨hsent, hwanted⟩
  · have hlt := not_exhausted hex (by omega)
    constructor
    · simp only
      omega
    · simp only [Regulated]
      omega

lemma step_metered {e : Label} (h : Metered s) (hg : NonNeg s e) (hs : step s e = some t) :
    Metered t := by
  cases e with
  | regulate u =>
    simp only [step, Option.ite_none_right_eq_some] at hs
    obtain ⟨_, hs⟩ := hs
    split_ifs at hs
    · obtain rfl := Option.some.inj hs
      exact loopTest_metered h u
    · obtain rfl := Option.some.inj hs
      exact ⟨h.sent.trans (Nat.le_succ _), h.wanted⟩
  | wake u =>
    simp only [step, Option.ite_none_right_eq_some, Option.some.injEq] at hs
    obtain ⟨_, rfl⟩ := hs
    exact ⟨h.sent, h.wanted⟩
  | again u =>
    simp only [step, Option.ite_none_right_eq_some, Option.some.injEq] at hs
    obtain ⟨_, rfl⟩ := hs
    exact loopTest_metered h u
  | setState u v =>
    obtain rfl := Option.some.inj hs
    exact ⟨h.sent, h.wanted⟩
  | broadcast =>
    simp only [step, Option.ite_none_right_eq_some, Option.some.injEq] at hs
    obtain ⟨_, rfl⟩ := hs
    exact ⟨h.sent, h.wanted⟩
  | reset wanted =>
    simp only [step, Option.ite_none_right_eq_some, Option.some.injEq] at hs
    obtain ⟨_, rfl⟩ := hs
    exact ⟨le_rfl, hg⟩

end Steps

/-- Whatever the number of threads and the order of their calls, wake-ups and resets, at most the
wanted number of calls of running threads return between two resets. -/
theorem rate_regulated {W : ℤ} (hW : 0 ≤ W) (threadState : ℕ → TThreadState) (es : List Label)
    (hes : ∀ w, .reset w ∈ es → 0 ≤ w) : Always step Regulated (start W threadState) es := by
  have hguard : Guarded step NonNeg (start W threadState) es := by
    refine guarded_of_forall (fun e he s => ?_) _
    cases e with
    | reset w => exact hes w he
    | _ => trivial
  exact always_of_invariant (fun _ h => h.wanted) (fun _ _ _ h hg hs => step_metered h hg hs)
    ⟨le_rfl, hW⟩ hguard

/-- Two running threads at one request a second: the second waits, and its late wake-up competes
with a new call of the first in the next period. -/
def lateWakeUp : List Label :=
  [.regulate 0, .regulate 1, .broadcast, .reset 1, .regulate 0, .again 1]

theorem late_wake_up_waits :
    (run step (start 1 fun _ => .running) lateWakeUp).map (fun s => (s.returned, s.pc 1)) =
        some (1, .waiting) ∧
      Always step Regulated (start 1 fun _ => .running) lateWakeUp :=
  ⟨by decide, rate_regulated (by decide) _ _ (by simp [lateWakeUp])⟩

end LdapTgen.RateRegulation
