import LdapTgen.TimerClosing

/-! The order in which a closed timetable hands its contexts out. `tTimerClose` moves the slots to the
first one in the order of their numbers, which is the order of the remaining delays only if the slots in
use do not go round the end of the table. -/
namespace LdapTgen.TimerOrder
open LabelledRun TimerWheel TimerThreads TimerClosing
variable {C : Type*} {n : ℕ} {w : Wheel}

/-- The contexts that `m` successive calls of `tTimerGetUserToResume` hand out. -/
def handOut : ℕ → Wheel → List ℕ
  | 0, _ => []
  | m + 1, w =>
      match tTimerGetUserToResume w with
      | (_, none) => []
      | (v, some k) => k :: handOut m v

def remaining (n : ℕ) (w : Wheel) (i : ℕ) : ℕ := (i + n - w.currentIndex) % n

/-- Contexts come in the order of the remaining delays that they have in this table. -/
def InDelayOrder (n : ℕ) (w : Wheel) (ks : List ℕ) : Prop :=
  ks.Pairwise fun j k => ∀ a < n, ∀ b < n, j ∈ w.tTimerCircularTable a → k ∈ w.tTimerCircularTable b →
    remaining n w a ≤ remaining n w b

/-- The slots in use are all before the current index, or all from it on. -/
def OneSided (n : ℕ) (w : Wheel) : Prop :=
  (∀ i < n, i < w.currentIndex → w.tTimerCircularTable i = []) ∨
    (∀ i < n, w.currentIndex ≤ i → w.tTimerCircularTable i = [])

lemma gather_eq (n : ℕ) (w : Wheel) :
    gather n w = (List.range n).flatMap fun i => (w.tTimerCircularTable i).reverse := by
  rw [gather, List.foldl_reverse]
  induction List.range n with
  | nil => rfl
  | cons i is ih => rw [List.foldr_cons, ih, List.foldl_flip_cons_eq_append', List.flatMap_cons]

lemma handOut_eq (m : ℕ) {l : List ℕ} (hl : w.tTimerCircularTable w.currentIndex = l) :
    handOut m w = l.take m := by
  induction m generalizing w l with
  | zero => rfl
  | succ m ih =>
    cases l with
    | nil => simp [handOut, tTimerGetUserToResume, hl]
    | cons k l =>
      have hrest := ih (w := setSlot w w.currentIndex l) (Function.update_self _ _ _)
      simp [handOut, tTimerGetUserToResume, hl, hrest]

lemma handOut_close (m n : ℕ) (w : Wheel) : handOut m (tTimerClose n w) = (gather n w).take m :=
  handOut_eq m rfl

lemma handOut_inDelayOrder_iff :
    (∀ m, InDelayOrder n w (handOut m (tTimerClose n w))) ↔ InDelayOrder n w (gather n w) := by
  constructor
  · intro h
    have hall := h (gather n w).length
    rwa [handOut_close, List.take_length] at hall
  · intro h m
    rw [handOut_close]
    exact h.sublist (List.take_sublist m _)

lemma remaining_before {i : ℕ} (hindex : w.currentIndex < n) (hi : i < w.currentIndex) :
    remaining n w i = i + n - w.currentIndex := Nat.mod_eq_of_lt (by omega)

lemma remaining_from {i : ℕ} (hi : w.currentIndex ≤ i) (hn : i < n) :
    remaining n w i = i - w.currentIndex := by
  rw [remaining, Nat.sub_add_comm hi, Nat.add_mod_right, Nat.mod_eq_of_lt (by omega)]

lemma remaining_le_iff (hindex : w.currentIndex < n) {a b : ℕ} (hab : a < b) (hb : b < n) :
    remaining n w a ≤ remaining n w b ↔ ¬ (a < w.currentIndex ∧ w.currentIndex ≤ b) := by
  rcases Nat.lt_or_ge a w.currentIndex with ha | ha
  · rcases Nat.lt_or_ge b w.currentIndex with hb' | hb'
    · rw [remaining_before hindex ha, remaining_before hindex hb']
      omega
    · rw [remaining_before hindex ha, remaining_from hb' hb]
      omega
  · rw [remaining_from ha (hab.trans hb), remaining_from (ha.trans hab.le) hb]
    omega

def Apart (n : ℕ) (w : Wheel) : Prop :=
  ∀ k, ∀ a < n, ∀ b < n, k ∈ w.tTimerCircularTable a → k ∈ w.tTimerCircularTable b → a = b

lemma apart_of_onWheel (h : ∀ k, onWheel n w k ≤ 1) : Apart n w := by
  intro k a ha b hb hka hkb
  by_contra hab
  have hlt : (w.tTimerCircularTable a).count k < onWheel n w k :=
    Finset.single_lt_sum (f := fun i => (w.tTimerCircularTable i).count k) (Ne.symm hab)
      (Finset.mem_range.mpr ha) (Finset.mem_range.mpr hb) (List.count_pos_iff.mpr hkb)
      (fun _ _ _ => Nat.zero_le _)
  have hpos : 0 < (w.tTimerCircularTable a).count k := List.count_pos_iff.mpr hka
  have hone := h k
  omega

lemma gather_inDelayOrder_iff (hapart : Apart n w) :
    InDelayOrder n w (gather n w) ↔ ∀ a b, a < b → b < n → w.tTimerCircularTable a ≠ [] →
      w.tTimerCircularTable b ≠ [] → remaining n w a ≤ remaining n w b := by
  rw [InDelayOrder, gather_eq, List.pairwise_flatMap]
  constructor
  · rintro ⟨-, h⟩ a b hab hb ha' hb'
    obtain ⟨j, hj⟩ := List.exists_mem_of_ne_nil _ ha'
    obtain ⟨k, hk⟩ := List.exists_mem_of_ne_nil _ hb'
    have hpair := List.pairwise_iff_getElem.mp h a b (by simpa using hab.trans hb) (by simpa using hb) hab
    simp only [List.getElem_range] at hpair
    exact hpair j (List.mem_reverse.mpr hj) k (List.mem_reverse.mpr hk) a (hab.trans hb) b hb hj hk
  · intro h
    constructor
    · -- two contexts of one slot have the same delay
      intro i hi
      refine List.pairwise_of_forall_mem_list fun j hj k hk a ha b hb hja hkb => ?_
      have hin := List.mem_range.mp hi
      rw [hapart j a ha i hin hja (List.mem_reverse.mp hj), hapart k b hb i hin hkb (List.mem_reverse.mp hk)]
    · refine List.pairwise_lt_range.imp_of_mem fun {i i'} hi hi' hlt j hj k hk a ha b hb hja hkb => ?_
      have hji := List.mem_reverse.mp hj
      have hki := List.mem_reverse.mp hk
      have hin := List.mem_range.mp hi'
      rw [hapart j a ha i (List.mem_range.mp hi) hja hji, hapart k b hb i' hin hkb hki]
      exact h i i' hlt hin (List.ne_nil_of_mem hji) (List.ne_nil_of_mem hki)

lemma oneSided_iff (hindex : w.currentIndex < n) :
    (∀ a b, a < b → b < n → w.tTimerCircularTable a ≠ [] → w.tTimerCircularTable b ≠ [] →
      remaining n w a ≤ remaining n w b) ↔ OneSided n w := by
  constructor
  · intro h
    by_contra hboth
    simp only [OneSided, not_or, not_forall] at hboth
    obtain ⟨⟨a, ha, hai, ha'⟩, b, hb, hbi, hb'⟩ := hboth
    have hab : a < b := hai.trans_le hbi
    exact (remaining_le_iff hindex hab hb).mp (h a b hab hb ha' hb') ⟨hai, hbi⟩
  · intro h a b hab hb ha' hb'
    refine (remaining_le_iff hindex hab hb).mpr ?_
    rintro ⟨hai, hbi⟩
    rcases h with hbefore | hfrom
    · exact ha' (hbefore a (hab.trans hb) hai)
    · exact hb' (hfrom b hb hbi)

lemma apart_of_run (hn : 1 ≤ n) {es : List (Label C)} {s : State C}
    (hr : run (step n) start es = some s) : Apart n s.wheel := by
  rcases Nat.eq_or_lt_of_le hn with rfl | hn
  · intro k a ha b hb _ _
    omega
  · have haccount : Account n s := run_preserves (fun _ _ _ => step_account hn) (account_start hn) hr
    refine apart_of_onWheel fun k => ?_
    have hone := haccount.once k
    rw [places] at hone
    split_ifs at hone <;> omega

/-- Closing a reachable timetable respects the order of the remaining delays exactly if the slots in use
are on one side of the current index. -/
theorem close_in_order_iff {n : ℕ} (hn : 1 ≤ n) (es : List (Label C)) {s : State C}
    (hr : run (step n) start es = some s) :
    (∀ m, InDelayOrder n s.wheel (handOut m (tTimerClose n s.wheel))) ↔ OneSided n s.wheel := by
  have hindex : s.wheel.currentIndex < n :=
    run_preserves (I := fun t => t.wheel.currentIndex < n) (fun _ _ _ => step_index) hn hr
  rw [handOut_inDelayOrder_iff, gather_inDelayOrder_iff (apart_of_run hn hr), oneSided_iff hindex]

/-- A context sleeps for one time unit, the time unit passes, and another one sleeps for one more. -/
def sleepTickSleep : List (Label ℕ) :=
  [.sleepTests 0 (some 7) 1, .sleepInsert 0, .topStart, .topGet, .topIndex, .sleepTests 0 (some 8) 1,
    .sleepInsert 0]

/-- Before the time unit has passed there is one slot in use. -/
theorem first_sleeper_in_order :
    ∃ s, run (step 2) start (sleepTickSleep.take 2) = some s ∧
      ∀ m, InDelayOrder 2 s.wheel (handOut m (tTimerClose 2 s.wheel)) := by
  refine ⟨_, rfl, (close_in_order_iff (by decide) (sleepTickSleep.take 2) rfl).mpr (.inl fun i _ hi => ?_)⟩
  exact absurd hi (Nat.not_lt_zero i)

/-- The second one comes out first, although the first one is due already. -/
theorem later_context_first :
    ∃ s, run (step 2) start sleepTickSleep = some s ∧ s.wheel.tableClosed = false ∧
      s.wheel.tTimerCircularTable 0 = [1] ∧ remaining 2 s.wheel 0 = 1 ∧
      s.wheel.tTimerCircularTable 1 = [0] ∧ remaining 2 s.wheel 1 = 0 ∧
      handOut 2 (tTimerClose 2 s.wheel) = [1, 0] := by
  refine ⟨_, rfl, rfl, ?_⟩
  decide

end LdapTgen.TimerOrder
