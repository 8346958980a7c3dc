import Mathlib

/-! The circular timetable of ttimer.c, one definition for each section under `tTimerMutex`. The
contexts are named by numbers; `n` is the size of the table. -/
namespace LdapTgen.TimerWheel

structure Wheel where
  tTimerCircularTable : ℕ → List ℕ
  currentIndex : ℕ
  tableClosed : Bool

def tTimerInit : Wheel := ⟨fun _ => [], 0, false⟩

def setSlot (w : Wheel) (i : ℕ) (l : List ℕ) : Wheel :=
  { w with tTimerCircularTable := Function.update w.tTimerCircularTable i l }

def tTimerGetUserToResume (w : Wheel) : Wheel × Option ℕ :=
  match w.tTimerCircularTable w.currentIndex with
  | [] => (w, none)
  | k :: l => (setSlot w w.currentIndex l, some k)

/-- `tTimerSetUserToSleep` before it takes the mutex: the delay, if it is accepted. -/
def sleepDelay (n nbTimeUnit : ℕ) (w : Wheel) : Option ℕ :=
  if n ≤ nbTimeUnit then none else some (if w.tableClosed then 0 else nbTimeUnit)

/-- `tTimerSetUserToSleep` under the mutex. -/
def insertSleep (n k delay : ℕ) (w : Wheel) : Wheel :=
  let resumeIndex := (w.currentIndex + delay) % n
  setSlot w resumeIndex (k :: w.tTimerCircularTable resumeIndex)

/-- The end of `tTimerTopTU`. -/
def topIndex (n : ℕ) (w : Wheel) : Wheel :=
  { w with currentIndex := (w.currentIndex + 1) % n }

/-- All contexts, each put in front of those found before, from the last slot to the first. -/
def gather (n : ℕ) (w : Wheel) : List ℕ :=
  (List.range n).reverse.foldl
    (fun firstElem i => (w.tTimerCircularTable i).foldl (fun f k => k :: f) firstElem) []

def tTimerClose (n : ℕ) (w : Wheel) : Wheel :=
  ⟨fun i => if i = 0 then gather n w else [], 0, true⟩

def onWheel (n : ℕ) (w : Wheel) (k : ℕ) : ℕ :=
  ∑ i ∈ Finset.range n, (w.tTimerCircularTable i).count k

section Counting
variable {n : ℕ} {w : Wheel}

lemma onWheel_setSlot {i : ℕ} (hi : i < n) (l : List ℕ) (k : ℕ) :
    onWheel n (setSlot w i l) k + (w.tTimerCircularTable i).count k =
      onWheel n w k + l.count k := by
  have hmem : i ∈ Finset.range n := Finset.mem_range.mpr hi
  have hrest : ∑ x ∈ (Finset.range n).erase i,
      (Function.update w.tTimerCircularTable i l x).count k =
      ∑ x ∈ (Finset.range n).erase i, (w.tTimerCircularTable x).count k := by
    refine Finset.sum_congr rfl fun x hx => ?_
    rw [Function.update_of_ne (Finset.ne_of_mem_erase hx)]
  simp only [onWheel, setSlot]
  rw [← Finset.add_sum_erase _ _ hmem, ← Finset.add_sum_erase _ _ hmem, hrest,
    Function.update_self]
  omega

lemma onWheel_insertSleep (hn : 0 < n) (k delay j : ℕ) :
    onWheel n (insertSleep n k delay w) j = onWheel n w j + if k = j then 1 else 0 := by
  have h := onWheel_setSlot (w := w) (Nat.mod_lt (w.currentIndex + delay) hn)
    (k :: w.tTimerCircularTable ((w.currentIndex + delay) % n)) j
  rw [List.count_cons] at h
  simp only [insertSleep, beq_iff_eq] at h ⊢
  omega

lemma onWheel_pos {i k : ℕ} (hi : i < n) (hk : k ∈ w.tTimerCircularTable i) : 0 < onWheel n w k :=
  (List.count_pos_iff.mpr hk).trans_le
    (Finset.single_le_sum (f := fun i => (w.tTimerCircularTable i).count k)
      (fun _ _ => Nat.zero_le _) (Finset.mem_range.mpr hi))

lemma tTimerGetUserToResume_none (h : (tTimerGetUserToResume w).2 = none) :
    (tTimerGetUserToResume w).1 = w ∧ w.tTimerCircularTable w.currentIndex = [] := by
  unfold tTimerGetUserToResume at h ⊢
  cases hc : w.tTimerCircularTable w.currentIndex with
  | nil => simp
  | cons k l => simp [hc] at h

lemma onWheel_tTimerGetUserToResume (hi : w.currentIndex < n) {k : ℕ}
    (h : (tTimerGetUserToResume w).2 = some k) (j : ℕ) :
    onWheel n (tTimerGetUserToResume w).1 j + (if k = j then 1 else 0) = onWheel n w j := by
  unfold tTimerGetUserToResume at h ⊢
  cases hc : w.tTimerCircularTable w.currentIndex with
  | nil => simp [hc] at h
  | cons x l =>
    simp only [hc, Option.some.injEq] at h ⊢
    subst h
    have hset := onWheel_setSlot (w := w) hi l j
    rw [hc, List.count_cons] at hset
    simp only [beq_iff_eq] at hset
    omega

lemma count_gatherSlot (l f : List ℕ) (j : ℕ) :
    (l.foldl (fun f k => k :: f) f).count j = l.count j + f.count j := by
  induction l generalizing f with
  | nil => simp
  | cons x l ih =>
    rw [List.foldl_cons, ih, List.count_cons, List.count_cons]
    omega

lemma count_gather (j : ℕ) : (gather n w).count j = onWheel n w j := by
  have hfold : ∀ (is : List ℕ) (f : List ℕ),
      (is.foldl (fun f i => (w.tTimerCircularTable i).foldl (fun f k => k :: f) f) f).count j =
        (is.map fun i => (w.tTimerCircularTable i).count j).sum + f.count j := by
    intro is
    induction is with
    | nil => simp
    | cons i is ih =>
      intro f
      rw [List.foldl_cons, ih, count_gatherSlot, List.map_cons, List.sum_cons]
      omega
  rw [gather, hfold, List.count_nil, Nat.add_zero, List.map_reverse, List.sum_reverse]
  exact (Multiset.sum_coe _).symm

lemma onWheel_tTimerClose (hn : 0 < n) (j : ℕ) :
    onWheel n (tTimerClose n w) j = onWheel n w j := by
  rw [← count_gather (w := w)]
  simp only [onWheel, tTimerClose]
  rw [Finset.sum_eq_single 0]
  · simp
  · intro i _ hi
    simp [hi]
  · intro h
    exact absurd (Finset.mem_range.mpr hn) h

end Counting

end LdapTgen.TimerWheel
