import LdapTgen.LabelledRun

/-! The load server: `main` accepts clients and hands each socket to a waiting worker thread, which it
wakes by its condition variable. Neither side looks at the state again under the mutex, and a signal
that finds nobody waiting is lost. -/
namespace LdapTgen.LoadServer
open LabelledRun

def nbWthreads : ℕ := 10

/-- `WT_STATE_WAIT` and `WT_STATE_ACTIVE` -/
inductive WtState
  | wait
  | active
  deriving DecidableEq, Repr

/-- The next thing a worker does in `childWork`. `waiting` is inside `pthread_cond_wait`, `woken` at
its return. -/
inductive Pc
  | lock
  | wait
  | waiting
  | woken
  | serve
  | close
  | clear
  | finish
  deriving DecidableEq, Repr

/-- `struct WT` with the place where its thread is. The mutex is left out: no other thread takes it. -/
structure Worker where
  state : WtState
  socket : ℕ
  pc : Pc
  deriving DecidableEq, Repr

/-- The next thing `main` does, with the client's socket and the index `i` of its loop. -/
inductive MainPc
  | accept
  | find (sockClient i : ℕ)
  | store (sockClient i : ℕ)
  | activate (i : ℕ)
  | signal (i : ℕ)
  | exited
  deriving DecidableEq, Repr

structure State where
  main : MainPc
  workerThreads : ℕ → Worker

def start : State := ⟨.accept, fun _ => ⟨.wait, 0, .lock⟩⟩

/-- A worker's steps. `serve` is one turn of its inner loop, after which it goes on or breaks off;
`pthread_cond_wait` may also return without a signal. -/
inductive WorkerLabel
  | lock
  | wait
  | wakeUp
  | unlock
  | serve (goesOn : Bool)
  | close
  | clear
  | finish
  deriving DecidableEq, Repr

def WorkerLabel.pc : WorkerLabel → Pc
  | .lock => .lock
  | .wait => .wait
  | .wakeUp => .waiting
  | .unlock => .woken
  | .serve _ => .serve
  | .close => .close
  | .clear => .clear
  | .finish => .finish

def WorkerLabel.effect (w : Worker) : WorkerLabel → Worker
  | .lock => { w with pc := .wait }
  | .wait => { w with pc := .waiting }
  | .wakeUp => { w with pc := .woken }
  | .unlock => { w with pc := .serve }
  | .serve goesOn => { w with pc := if goesOn then .serve else .close }
  | .close => { w with pc := .clear }
  | .clear => { w with socket := 0, pc := .finish }
  | .finish => { w with state := .wait, pc := .lock }

def childWork (w : Worker) (e : WorkerLabel) : Option Worker :=
  if w.pc = e.pc then some (e.effect w) else none

inductive Label
  | accept (sockClient : ℕ)
  | find
  | store
  | activate
  | signal
  | worker (i : ℕ) (e : WorkerLabel)
  deriving DecidableEq, Repr

def setWorker (s : State) (i : ℕ) (w : Worker) : State :=
  { s with workerThreads := Function.update s.workerThreads i w }

def condSignal (w : Worker) : Worker := if w.pc = .waiting then { w with pc := .woken } else w

/-- After `exit` no thread does anything. -/
def step (s : State) : Label → Option State
  | .accept sockClient =>
      if s.main = .accept then some { s with main := .find sockClient 0 } else none
  | .find =>
      match s.main with
      | .find sockClient i =>
          if i = nbWthreads then some { s with main := .exited }
          else if (s.workerThreads i).state = .wait then some { s with main := .store sockClient i }
          else some { s with main := .find sockClient (i + 1) }
      | _ => none
  | .store =>
      match s.main with
      | .store sockClient i =>
          some { setWorker s i { s.workerThreads i with socket := sockClient } with
            main := .activate i }
      | _ => none
  | .activate =>
      match s.main with
      | .activate i =>
          some { setWorker s i { s.workerThreads i with state := .active } with main := .signal i }
      | _ => none
  | .signal =>
      match s.main with
      | .signal i => some { setWorker s i (condSignal (s.workerThreads i)) with main := .accept }
      | _ => none
  | .worker i e =>
      if s.main ≠ .exited ∧ i < nbWthreads then
        (childWork (s.workerThreads i) e).map (setWorker s i)
      else none

/-- Marked active for a client, but blocked in `pthread_cond_wait` or about to enter it. -/
structure Asleep (w : Worker) : Prop where
  state : w.state = .active
  socket : w.socket ≠ 0
  pc : w.pc = .lock ∨ w.pc = .wait ∨ w.pc = .waiting

def MainPc.willSignal (i : ℕ) : MainPc → Prop
  | .store _ j | .activate j | .signal j => j = i
  | .accept | .find _ _ | .exited => False

def Forgotten (s : State) (i : ℕ) : Prop := Asleep (s.workerThreads i) ∧ ¬ s.main.willSignal i

def Remembered (s : State) : Prop := ∀ i, ¬ Forgotten s i

/-- A signal does not come before the worker, active for a client, has entered its wait. -/
def Heard (s : State) : Label → Prop
  | .signal => ∀ i, s.main = .signal i → Asleep (s.workerThreads i) → (s.workerThreads i).pc = .waiting
  | _ => True

section Steps
variable {s t : State}

lemma childWork_asleep {w w' : Worker} {e : WorkerLabel} (h : childWork w e = some w')
    (ha : Asleep w') : Asleep w := by
  simp only [childWork, Option.ite_none_right_eq_some, Option.some.injEq] at h
  obtain ⟨hpc, rfl⟩ := h
  obtain ⟨hstate, hsocket, hasleep⟩ := ha
  cases e with
  | lock => exact ⟨hstate, hsocket, .inl hpc⟩
  | wait => exact ⟨hstate, hsocket, .inr (.inl hpc)⟩
  | wakeUp => simp [WorkerLabel.effect] at hasleep
  | unlock => simp [WorkerLabel.effect] at hasleep
  | serve goesOn => cases goesOn <;> simp [WorkerLabel.effect] at hasleep
  | close => simp [WorkerLabel.effect] at hasleep
  | clear => exact absurd rfl hsocket
  | finish => cases hstate

lemma condSignal_asleep {w : Worker} :
    Asleep (condSignal w) ↔ Asleep w ∧ w.pc ≠ .waiting := by
  unfold condSignal
  split
  · rename_i hpc
    constructor
    · intro h
      simpa using h.pc
    · exact fun h => absurd hpc h.2
  · rename_i hpc
    exact ⟨fun h => ⟨h, hpc⟩, fun h => h.1⟩

lemma Remembered.setWorker {i : ℕ} {w : Worker} (h : Remembered s)
    (ht : t.workerThreads = Function.update s.workerThreads i w)
    (hmain : ∀ j, j ≠ i → s.main.willSignal j → t.main.willSignal j)
    (hi : ¬ (Asleep w ∧ ¬ t.main.willSignal i)) : Remembered t := by
  rintro j ⟨hasleep, hsignal⟩
  rw [ht] at hasleep
  by_cases hj : j = i
  · rw [hj, Function.update_self] at hasleep
    exact hi ⟨hasleep, hj ▸ hsignal⟩
  · rw [Function.update_of_ne hj] at hasleep
    exact h j ⟨hasleep, fun hs => hsignal (hmain j hj hs)⟩

lemma Remembered.main (h : Remembered s) {pc : MainPc}
    (hpc : ∀ j, s.main.willSignal j → pc.willSignal j) : Remembered { s with main := pc } :=
  fun j hj => h j ⟨hj.1, fun hs => hj.2 (hpc j hs)⟩

lemma Remembered.hand {i : ℕ} {w : Worker} {pc : MainPc} (h : Remembered s)
    (hmain : ∀ j, s.main.willSignal j → j = i) (hi : Asleep w → pc.willSignal i) :
    Remembered { LoadServer.setWorker s i w with main := pc } :=
  h.setWorker rfl (fun j hj hsig => absurd (hmain j hsig) hj) fun hw => hw.2 (hi hw.1)

lemma Remembered.prepare (h : Remembered s) {e : Label} (hs : step s e = some t)
    (he : e ≠ .signal) (hw : ∀ i e', e ≠ .worker i e') : Remembered t := by
  cases e with
  | accept sockClient =>
    simp only [step, Option.ite_none_right_eq_some, Option.some.injEq] at hs
    obtain ⟨hmain, rfl⟩ := hs
    exact h.main (by simp [hmain, MainPc.willSignal])
  | find =>
    simp only [step] at hs
    split at hs
    · rename_i sockClient i hmain
      have hnone : ∀ j, ¬ s.main.willSignal j := by simp [hmain, MainPc.willSignal]
      split_ifs at hs
      all_goals
        obtain rfl := Option.some.inj hs
        exact h.main fun j hj => absurd hj (hnone j)
    · cases hs
  | store =>
    simp only [step] at hs
    split at hs
    · rename_i sockClient i hmain
      obtain rfl := Option.some.inj hs
      exact h.hand (by simp [hmain, MainPc.willSignal, eq_comm]) fun _ => rfl
    · cases hs
  | activate =>
    simp only [step] at hs
    split at hs
    · rename_i i hmain
      obtain rfl := Option.some.inj hs
      exact h.hand (by simp [hmain, MainPc.willSignal, eq_comm]) fun _ => rfl
    · cases hs
  | signal => exact absurd rfl he
  | worker i e' => exact absurd rfl (hw i e')

lemma signal_remembered (h : Remembered s) (hs : step s .signal = some t) :
    Remembered t ↔ Heard s .signal := by
  simp only [step] at hs
  split at hs
  · rename_i i hmain
    obtain rfl := Option.some.inj hs
    constructor
    · intro ht j hj hasleep
      obtain rfl : i = j := MainPc.signal.inj (hmain.symm.trans hj)
      by_contra hpc
      refine ht i ⟨?_, fun hsig => hsig⟩
      simp only [LoadServer.setWorker, Function.update_self]
      exact condSignal_asleep.mpr ⟨hasleep, hpc⟩
    · intro hheard
      refine h.hand (by simp [hmain, MainPc.willSignal, eq_comm]) fun hsignalled => ?_
      obtain ⟨hasleep, hpc⟩ := condSignal_asleep.mp hsignalled
      exact absurd (hheard i hmain hasleep) hpc
  · cases hs

lemma Remembered.worker {i : ℕ} {e : WorkerLabel} (h : Remembered s)
    (hs : step s (.worker i e) = some t) : Remembered t := by
  simp only [step, Option.ite_none_right_eq_some, Option.map_eq_some_iff] at hs
  obtain ⟨-, w, hw, rfl⟩ := hs
  exact h.setWorker rfl (fun j _ hsig => hsig) fun hi => h i ⟨childWork_asleep hw hi.1, hi.2⟩

lemma step_remembered (h : Remembered s) {e : Label} (hs : step s e = some t) :
    Remembered t ↔ Heard s e := by
  cases e with
  | signal => exact signal_remembered h hs
  | worker i e => exact ⟨fun _ => trivial, fun _ => h.worker hs⟩
  | accept | find | store | activate =>
    exact ⟨fun _ => trivial, fun _ => h.prepare hs (by simp) (by simp)⟩

end Steps

lemma remembered_start : Remembered start := fun _ h => absurd h.1.state nofun

/-- Along any clients and any interleaving of `main` and the workers, no client is forgotten exactly
if no signal comes to an active worker that has not entered its wait. -/
theorem remembered_iff_heard (es : List Label) :
    Always step Remembered start es ↔ Guarded step Heard start es := by
  refine always_iff_guarded (fun s e _ hmiss => ?_) (fun s e t h hs => step_remembered h hs)
    remembered_start es
  cases e with
  | signal =>
    simp only [Heard, not_forall] at hmiss
    obtain ⟨i, hmain, -⟩ := hmiss
    exact Option.isSome_iff_exists.mp (by simp [step, hmain])
  | accept | find | store | activate | worker => exact absurd trivial hmiss

/-- The first client is handed to the first worker before that worker waits. -/
theorem first_client_forgotten :
    ∃ s, run step start [.accept 4, .find, .store, .activate, .signal, .worker 0 .lock,
      .worker 0 .wait] = some s ∧ Forgotten s 0 ∧ (s.workerThreads 0).pc = .waiting :=
  ⟨_, rfl, ⟨⟨rfl, by decide, .inr (.inr rfl)⟩, fun h => h⟩, rfl⟩

end LdapTgen.LoadServer
