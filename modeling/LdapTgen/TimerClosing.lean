import LdapTgen.TimerDelays

/-! What calls that are in progress do to a closed timetable. A call of `tTimerSetUserToSleep` that
made its tests before `tTimerClose` still inserts with its delay, and `tTimerTopTU` goes on behind
its test of `tableClosed`: it moves the index away from the slot where all contexts are, and its loop
puts each context back where it takes it from. -/
namespace LdapTgen.TimerClosing
open LabelledRun TimerWheel TimerThreads TimerDelays
variable {C : Type*}

def AllDue (n : ℕ) (s : State C) : Prop :=
  ∀ i < n, i ≠ s.wheel.currentIndex → s.wheel.tTimerCircularTable i = []

structure Quiet (s : State C) : Prop where
  top : s.top = .idle
  callers : ∀ u, s.callers u = none

def close (n : ℕ) (s : State C) : State C := { s with wheel := tTimerClose n s.wheel }

/-- `tTimerTopTU` is not in progress, and no call waits for the mutex with a delay. -/
structure NoneAhead (s : State C) : Prop where
  top : s.top = .idle
  callers : ∀ u x d, s.callers u = some (x, d) → d = 0

section Reachable
variable {n : ℕ} {s t : State C}

/-- What holds in every state: the index and the delays are within the table, and the callers are
finitely many. -/
structure Within (n : ℕ) (s : State C) : Prop where
  index : s.wheel.currentIndex < n
  delay : ∀ u x d, s.callers u = some (x, d) → d < n
  finite : ∃ us : List ℕ, ∀ u b, s.callers u = some b → u ∈ us

lemma Within.of_eq (h : Within n s) (hindex : t.wheel.currentIndex < n)
    (hcallers : t.callers = s.callers) : Within n t where
  index := hindex
  delay := hcallers ▸ h.delay
  finite := hcallers ▸ h.finite

lemma within_start (hn : 2 ≤ n) : Within n (start : State C) where
  index := by
    simp only [start, tTimerInit]
    omega
  delay := by simp [start]
  finite := ⟨[], by simp [start]⟩

lemma sleepDelay_lt {nb delay : ℕ} {w : Wheel} (h : sleepDelay n nb w = some delay) :
    delay < n ∧ (w.tableClosed = true → delay = 0) := by
  unfold sleepDelay at h
  split at h
  · cases h
  · obtain rfl := Option.some.inj h
    split
    · exact ⟨by omega, fun _ => rfl⟩
    · rename_i hopen
      exact ⟨by omega, fun hclosed => absurd hclosed hopen⟩

lemma callers_added {u v : ℕ} {a b : C × ℕ}
    (h : Function.update s.callers u (some a) v = some b) : v = u ∧ a = b ∨ s.callers v = some b := by
  by_cases huv : v = u
  · rw [huv, Function.update_self, Option.some.injEq] at h
    exact .inl ⟨huv, h⟩
  · rw [Function.update_of_ne huv] at h
    exact .inr h

lemma callers_removed {u v : ℕ} {b : C × ℕ} (h : Function.update s.callers u none v = some b) :
    s.callers v = some b := by
  by_cases huv : v = u
  · rw [huv, Function.update_self] at h
    cases h
  · rwa [Function.update_of_ne huv] at h

lemma stepSleepTests_within {u nb : ℕ} {aCtx : Option C} (h : Within n s) :
    Within n (stepSleepTests n u aCtx nb s) := by
  unfold stepSleepTests
  split
  · rename_i x delay hdelay
    obtain ⟨us, hus⟩ := h.finite
    refine ⟨h.index, fun v y d hv => ?_, u :: us, fun v b hv => ?_⟩
    · obtain ⟨-, hb⟩ | hv := callers_added hv
      · cases hb
        exact (sleepDelay_lt hdelay).1
      · exact h.delay v y d hv
    · obtain ⟨rfl, -⟩ | hv := callers_added hv
      · exact List.mem_cons_self
      · exact List.mem_cons_of_mem u (hus v b hv)
  · exact h

lemma stepSleepInsert_within {u delay : ℕ} {x : C} (h : Within n s) :
    Within n (stepSleepInsert n u s x delay) where
  index := h.index
  delay v y d hv := h.delay v y d (callers_removed hv)
  finite := by
    obtain ⟨us, hus⟩ := h.finite
    exact ⟨us, fun v b hv => hus v b (callers_removed hv)⟩

lemma get_index (w : Wheel) : (tTimerGetUserToResume w).1.currentIndex = w.currentIndex := by
  unfold tTimerGetUserToResume
  split <;> rfl

lemma get_other {w : Wheel} {i : ℕ} (hi : i ≠ w.currentIndex) :
    (tTimerGetUserToResume w).1.tTimerCircularTable i = w.tTimerCircularTable i := by
  unfold tTimerGetUserToResume
  split
  · rfl
  · exact Function.update_of_ne hi _ _

lemma get_closed (w : Wheel) : (tTimerGetUserToResume w).1.tableClosed = w.tableClosed := by
  unfold tTimerGetUserToResume
  split <;> rfl

lemma stepResume_eq (s : State C) : ∃ l, stepResume s =
    { s with wheel := (tTimerGetUserToResume s.wheel).1, handedOut := l } := by
  unfold stepResume
  split
  · rename_i w hget
    have hsame := (tTimerGetUserToResume_none (w := s.wheel) (by rw [hget])).1
    exact ⟨s.handedOut, by rw [hsame]⟩
  · rename_i w k hget
    exact ⟨k :: s.handedOut, by rw [hget]⟩

lemma stepTopGet_eq (s : State C) : ∃ top, stepTopGet s =
    { s with wheel := (tTimerGetUserToResume s.wheel).1, top := top } := by
  unfold stepTopGet
  split
  · rename_i w hget
    have hsame := (tTimerGetUserToResume_none (w := s.wheel) (by rw [hget])).1
    exact ⟨.index, by rw [hsame]⟩
  · rename_i w k hget
    exact ⟨.hold k, by rw [hget]⟩

lemma stepTopTests_eq (n k : ℕ) (s : State C) : ∃ top, stepTopTests n k s = { s with top := top } := by
  unfold stepTopTests
  split
  · exact ⟨.index, rfl⟩
  · rename_i delay _
    exact ⟨.insert k delay, rfl⟩

lemma step_index {e : Label C} (h : s.wheel.currentIndex < n) (hs : step n s e = some t) :
    t.wheel.currentIndex < n := by
  have hpos : 0 < n := Nat.zero_lt_of_lt h
  cases step_move hs with
  | sleepTests _ =>
    unfold stepSleepTests
    split <;> exact h
  | sleepInsert _ => exact h
  | resume =>
    obtain ⟨l, hl⟩ := stepResume_eq s
    rw [hl]
    exact (get_index s.wheel).trans_lt h
  | closedStart _ _ => exact h
  | topStart _ _ => exact h
  | topGet _ =>
    obtain ⟨top, htop⟩ := stepTopGet_eq s
    rw [htop]
    exact (get_index s.wheel).trans_lt h
  | topTests _ =>
    rename_i k _
    obtain ⟨top, htop⟩ := stepTopTests_eq n k s
    rw [htop]
    exact h
  | topInsert _ => exact h
  | topIndex _ => exact Nat.mod_lt _ hpos
  | close => exact hpos

lemma step_within {e : Label C} (h : Within n s) (hs : step n s e = some t) : Within n t := by
  have hindex := step_index h.index hs
  cases step_move hs with
  | sleepTests _ => exact stepSleepTests_within h
  | sleepInsert _ => exact stepSleepInsert_within h
  | resume =>
    obtain ⟨l, hl⟩ := stepResume_eq s
    exact h.of_eq hindex (by rw [hl])
  | closedStart _ _ => exact h
  | topStart _ _ => exact h.of_eq hindex rfl
  | topGet _ =>
    obtain ⟨top, htop⟩ := stepTopGet_eq s
    exact h.of_eq hindex (by rw [htop])
  | topTests _ =>
    rename_i k _
    obtain ⟨top, htop⟩ := stepTopTests_eq n k s
    exact h.of_eq hindex (by rw [htop])
  | topInsert _ => exact h.of_eq hindex rfl
  | topIndex _ => exact h.of_eq hindex rfl
  | close => exact h.of_eq hindex rfl

end Reachable

section Closed
variable {n : ℕ} {s t : State C}

/-- The closed table when nothing is in progress that moves contexts or the index. -/
structure Settled (n : ℕ) (s : State C) : Prop where
  closed : s.wheel.tableClosed = true
  index : s.wheel.currentIndex < n
  ahead : NoneAhead s
  due : AllDue n s

lemma settled_close (hn : 0 < n) (h : NoneAhead s) : Settled n (close n s) where
  closed := rfl
  index := hn
  ahead := ⟨h.top, h.callers⟩
  due i _ hi := by
    simp only [close, tTimerClose] at hi ⊢
    rw [if_neg hi]

lemma Settled.sleepTests {u nb : ℕ} {aCtx : Option C} (h : Settled n s) :
    Settled n (stepSleepTests n u aCtx nb s) := by
  unfold stepSleepTests
  split
  · rename_i x delay hdelay
    refine ⟨h.closed, h.index, ⟨h.ahead.top, fun v y d hv => ?_⟩, h.due⟩
    obtain ⟨-, hb⟩ | hv := callers_added hv
    · cases hb
      exact (sleepDelay_lt hdelay).2 h.closed
    · exact h.ahead.callers v y d hv
  · exact h

lemma Settled.sleepInsert {u delay : ℕ} {x : C} (h : Settled n s)
    (hcaller : s.callers u = some (x, delay)) : Settled n (stepSleepInsert n u s x delay) where
  closed := h.closed
  index := h.index
  ahead := ⟨h.ahead.top, fun v y d hv => h.ahead.callers v y d (callers_removed hv)⟩
  due i hi hne := by
    have hdelay := h.ahead.callers u x delay hcaller
    have hslot : (s.wheel.currentIndex + delay) % n = s.wheel.currentIndex := by
      rw [hdelay, Nat.add_zero, Nat.mod_eq_of_lt h.index]
    have hold : i ≠ (s.wheel.currentIndex + delay) % n := by rwa [hslot]
    simp only [stepSleepInsert, insertSleep, setSlot]
    rw [Function.update_of_ne hold]
    exact h.due i hi hne

lemma Settled.resume (h : Settled n s) : Settled n (stepResume s) := by
  obtain ⟨l, hl⟩ := stepResume_eq s
  rw [hl]
  refine ⟨(get_closed s.wheel).trans h.closed, (get_index s.wheel).trans_lt h.index,
    ⟨h.ahead.top, h.ahead.callers⟩, fun i hi hne => ?_⟩
  have hne' : i ≠ s.wheel.currentIndex := by rwa [← get_index s.wheel]
  exact (get_other hne').trans (h.due i hi hne')

lemma settled_step {e : Label C} (h : Settled n s) (hs : step n s e = some t) : Settled n t := by
  have hidle : ∀ {top : Top}, s.top = top → top = .idle := fun htop => htop.symm.trans h.ahead.top
  cases step_move hs with
  | sleepTests _ => exact h.sleepTests
  | sleepInsert hcaller => exact h.sleepInsert hcaller
  | resume => exact h.resume
  | closedStart _ _ => exact h
  | topStart _ hopen => exact absurd (hopen.symm.trans h.closed) nofun
  | topGet htop => exact absurd (hidle htop) nofun
  | topTests htop => exact absurd (hidle htop) nofun
  | topInsert htop => exact absurd (hidle htop) nofun
  | topIndex htop => exact absurd (hidle htop) nofun
  | close => exact settled_close (Nat.zero_lt_of_lt h.index) h.ahead

theorem due_from_close (hn : 0 < n) (h : NoneAhead s) (es : List (Label C)) :
    Always (step n) (AllDue n) (close n s) es :=
  always_of_step (fun _ h => h.due) (fun _ _ _ h hs => settled_step h hs) (settled_close hn h) es

end Closed

section Ending
variable {n : ℕ} {s t u : State C}

/-- The threads can get from one state to the other without closing the table. -/
def Leads (n : ℕ) (s t : State C) : Prop := ∃ es, .close ∉ es ∧ run (step n) s es = some t

lemma Leads.refl (n : ℕ) (s : State C) : Leads n s s := ⟨[], by simp, rfl⟩

lemma Leads.trans (h : Leads n s t) (h' : Leads n t u) : Leads n s u := by
  obtain ⟨es, hes, hrun⟩ := h
  obtain ⟨fs, hfs, hrun'⟩ := h'
  refine ⟨es ++ fs, by simp [hes, hfs], ?_⟩
  rw [run_append, hrun]
  exact hrun'

lemma Leads.step {e : Label C} (hs : step n s e = some t) (he : e ≠ .close) (h : Leads n t u) :
    Leads n s u := by
  obtain ⟨es, hes, hrun⟩ := h
  refine ⟨e :: es, ?_, run_cons_eq_some.mpr ⟨t, hs, hrun⟩⟩
  simp [hes, he.symm]

/-- The thread inside `tTimerTopTU` has left its loop, and the rest is as before. -/
structure Drained (s t : State C) : Prop where
  top : t.top = .index
  callers : t.callers = s.callers
  index : t.wheel.currentIndex = s.wheel.currentIndex

lemma Drained.of_eq (h : Drained t u) (hcallers : t.callers = s.callers)
    (hindex : t.wheel.currentIndex = s.wheel.currentIndex) : Drained s u :=
  ⟨h.top, h.callers.trans hcallers, h.index.trans hindex⟩

lemma drained_of_loop (htop : s.top = .loop) : ∃ t, Leads n s t ∧ Drained s t := by
  generalize hl : s.wheel.tTimerCircularTable s.wheel.currentIndex = l
  induction l generalizing s with
  | nil =>
    refine ⟨{ s with top := .index }, .step (e := .topGet) ?_ (by simp) (.refl n _), rfl, rfl, rfl⟩
    simp [TimerThreads.step, htop, stepTopGet, tTimerGetUserToResume, hl]
  | cons k l ih =>
    let s' : State C := { s with
      wheel := setSlot s.wheel s.wheel.currentIndex l, handedOut := k :: s.handedOut }
    have hstep : TimerThreads.step n s .resume = some s' := by
      simp [TimerThreads.step, stepResume, tTimerGetUserToResume, hl, s']
    obtain ⟨t, hlead, hdrained⟩ := ih (s := s') htop (by simp [s', setSlot])
    exact ⟨t, .step hstep (by simp) hlead, hdrained.of_eq rfl rfl⟩

lemma drained_of_insert {k delay : ℕ} (htop : s.top = .insert k delay) :
    ∃ t, Leads n s t ∧ Drained s t := by
  let s' : State C := { s with wheel := insertSleep n k delay s.wheel, top := .loop }
  have hstep : TimerThreads.step n s .topInsert = some s' := by simp [TimerThreads.step, htop, s']
  obtain ⟨t, hlead, hdrained⟩ := drained_of_loop (n := n) (s := s') rfl
  exact ⟨t, .step hstep (by simp) hlead, hdrained.of_eq rfl rfl⟩

lemma exists_drained (htop : s.top ≠ .idle) : ∃ t, Leads n s t ∧ Drained s t := by
  cases hs : s.top with
  | idle => exact absurd hs htop
  | loop => exact drained_of_loop hs
  | hold k =>
    have hstep : TimerThreads.step n s .topTests = some (stepTopTests n k s) := by
      simp [TimerThreads.step, hs]
    cases hdelay : sleepDelay n 1 s.wheel with
    | none =>
      have hnext : stepTopTests n k s = { s with top := .index } := by simp [stepTopTests, hdelay]
      rw [hnext] at hstep
      exact ⟨_, .step hstep (by simp) (.refl n _), rfl, rfl, rfl⟩
    | some delay =>
      have hnext : stepTopTests n k s = { s with top := .insert k delay } := by
        simp [stepTopTests, hdelay]
      rw [hnext] at hstep
      obtain ⟨t, hlead, hdrained⟩ :=
        drained_of_insert (n := n) (s := { s with top := .insert k delay }) rfl
      exact ⟨t, .step hstep (by simp) hlead, hdrained.of_eq rfl rfl⟩
  | insert k delay => exact drained_of_insert hs
  | index => exact ⟨s, .refl n s, hs, rfl, rfl⟩

/-- All waiting callers have inserted their contexts, and none was taken out. -/
structure Flushed (n : ℕ) (s t : State C) : Prop where
  callers : ∀ u, t.callers u = none
  top : t.top = s.top
  index : t.wheel.currentIndex = s.wheel.currentIndex
  kept : ∀ i, s.wheel.tTimerCircularTable i ≠ [] → t.wheel.tTimerCircularTable i ≠ []
  inserted : ∀ u x d, s.callers u = some (x, d) →
    t.wheel.tTimerCircularTable ((s.wheel.currentIndex + d) % n) ≠ []

lemma insertSleep_ne_nil {k delay : ℕ} {w : Wheel} {i : ℕ}
    (h : i = (w.currentIndex + delay) % n ∨ w.tTimerCircularTable i ≠ []) :
    (insertSleep n k delay w).tTimerCircularTable i ≠ [] := by
  simp only [insertSleep, setSlot]
  by_cases hi : i = (w.currentIndex + delay) % n
  · rw [hi, Function.update_self]
    exact List.cons_ne_nil _ _
  · rw [Function.update_of_ne hi]
    exact h.resolve_left hi

lemma exists_flushed (us : List ℕ) (hus : ∀ u b, s.callers u = some b → u ∈ us) :
    ∃ t, Leads n s t ∧ Flushed n s t := by
  induction us generalizing s with
  | nil =>
    have hnone : ∀ u, s.callers u = none := fun u =>
      Option.eq_none_iff_forall_ne_some.mpr fun b hb => absurd (hus u b hb) List.not_mem_nil
    refine ⟨s, .refl n s, hnone, rfl, rfl, fun _ h => h, fun u x d hu => ?_⟩
    rw [hnone u] at hu
    cases hu
  | cons v us ih =>
    cases hv : s.callers v with
    | none =>
      refine ih fun u b hu => (List.mem_cons.mp (hus u b hu)).resolve_left ?_
      rintro rfl
      rw [hv] at hu
      cases hu
    | some a =>
      obtain ⟨x, d⟩ := a
      have hstep : TimerThreads.step n s (.sleepInsert v) = some (stepSleepInsert n v s x d) := by
        simp [TimerThreads.step, hv]
      obtain ⟨t, hlead, ht⟩ := ih (s := stepSleepInsert n v s x d) fun u b hu => by
        refine (List.mem_cons.mp (hus u b (callers_removed hu))).resolve_left ?_
        rintro rfl
        simp [stepSleepInsert] at hu
      refine ⟨t, .step hstep (by simp) hlead, ht.callers, ht.top, ht.index, fun i hi => ?_,
        fun u y d' hu => ?_⟩
      · exact ht.kept i (insertSleep_ne_nil (.inr hi))
      · by_cases huv : u = v
        · rw [huv, hv] at hu
          cases hu
          exact ht.kept _ (insertSleep_ne_nil (.inl rfl))
        · refine ht.inserted u y d' ?_
          simp only [stepSleepInsert]
          rwa [Function.update_of_ne huv]

lemma add_mod_ne {i d : ℕ} (hi : i < n) (hd : d < n) (hpos : d ≠ 0) : (i + d) % n ≠ i := by
  rw [index_add hi hd]
  split_ifs <;> omega

lemma exists_idle (hw : Within n s) : ∃ t, Leads n s t ∧ t.top = .idle ∧ t.callers = s.callers ∧
    t.wheel.currentIndex < n := by
  by_cases htop : s.top = .idle
  · exact ⟨s, .refl n s, htop, rfl, hw.index⟩
  · obtain ⟨t, hlead, ht⟩ := exists_drained (n := n) htop
    let t' : State C := { t with wheel := topIndex n t.wheel, top := .idle }
    have hstep : TimerThreads.step n t .topIndex = some t' := by
      simp [TimerThreads.step, ht.top, t']
    exact ⟨t', hlead.trans (.step hstep (by simp) (.refl n t')), rfl, ht.callers,
      Nat.mod_lt _ (Nat.zero_lt_of_lt hw.index)⟩

lemma not_due_of_caller (hw : Within n s) {v d : ℕ} {x : C} (hv : s.callers v = some (x, d))
    (hd : d ≠ 0) : ∃ t, Leads n s t ∧ Quiet t ∧ ¬ AllDue n t := by
  obtain ⟨t, hlead, htop, hcallers, hindex⟩ := exists_idle hw
  obtain ⟨us, hus⟩ := hw.finite
  obtain ⟨t', hlead', ht'⟩ := exists_flushed (n := n) (s := t) us (by rwa [hcallers])
  refine ⟨t', hlead.trans hlead', ⟨ht'.top.trans htop, ht'.callers⟩, fun hdue => ?_⟩
  refine ht'.inserted v x d (by rwa [hcallers]) (hdue _ (Nat.mod_lt _ (Nat.zero_lt_of_lt hindex)) ?_)
  rw [ht'.index]
  exact add_mod_ne hindex (hw.delay v x d hv) hd

lemma not_due_of_top [Nonempty C] (hn : 2 ≤ n) (hw : Within n s) (htop : s.top ≠ .idle) :
    ∃ t, Leads n s t ∧ Quiet t ∧ ¬ AllDue n t := by
  obtain ⟨x⟩ := ‹Nonempty C›
  obtain ⟨us, hus⟩ := hw.finite
  obtain ⟨v, hv⟩ := Infinite.exists_notMem_finset us.toFinset
  obtain ⟨t, hlead, ht⟩ := exists_drained (n := n) htop
  have hfree : t.callers v = none := by
    rw [ht.callers]
    refine Option.eq_none_iff_forall_ne_some.mpr fun b hb => hv ?_
    exact List.mem_toFinset.mpr (hus v b hb)
  have hdelay : sleepDelay n 0 t.wheel = some 0 := by
    simp [sleepDelay, show n ≠ 0 by omega]
  let t₁ : State C := { t with callers := Function.update t.callers v (some (x, 0)) }
  have hstep₁ : TimerThreads.step n t (.sleepTests v (some x) 0) = some t₁ := by
    simp [TimerThreads.step, hfree, stepSleepTests, hdelay, t₁]
  let t₂ : State C := stepSleepInsert n v t₁ x 0
  have hstep₂ : TimerThreads.step n t₁ (.sleepInsert v) = some t₂ := by
    simp [TimerThreads.step, t₁, t₂]
  let t₃ : State C := { t₂ with wheel := topIndex n t₂.wheel, top := .idle }
  have hstep₃ : TimerThreads.step n t₂ .topIndex = some t₃ := by
    simp [TimerThreads.step, t₃, t₂, t₁, stepSleepInsert, ht.top]
  have hcallers : t₃.callers = t.callers := by
    simp only [t₃, t₂, t₁, stepSleepInsert]
    rw [Function.update_idem, ← hfree, Function.update_eq_self]
  obtain ⟨t₄, hlead₄, ht₄⟩ := exists_flushed (n := n) (s := t₃) us (by rwa [hcallers, ht.callers])
  have hinserted : Leads n t t₄ :=
    .step hstep₁ (by simp) (.step hstep₂ (by simp) (.step hstep₃ (by simp) hlead₄))
  refine ⟨t₄, hlead.trans hinserted, ⟨ht₄.top, ht₄.callers⟩, fun hdue => ?_⟩
  have hindex : t.wheel.currentIndex < n := by rw [ht.index]; exact hw.index
  refine ht₄.kept t.wheel.currentIndex ?_ (hdue _ hindex ?_)
  · refine insertSleep_ne_nil (.inl ?_)
    simp only [t₁, Nat.add_zero, Nat.mod_eq_of_lt hindex]
  · rw [ht₄.index]
    exact (next_ne hn hindex).symm

end Ending

/-- After `tTimerClose` every context is due whenever no call is in progress, whatever the threads
do, exactly if it ran while no `tTimerTopTU` was in progress and no call of `tTimerSetUserToSleep`
with a delay waited for the mutex. -/
theorem due_after_close_iff [Nonempty C] {n : ℕ} (hn : 2 ≤ n) {es : List (Label C)} {s : State C}
    (hs : run (step n) start es = some s) :
    (∀ fs t, .close ∉ fs → run (step n) (close n s) fs = some t → Quiet t → AllDue n t) ↔
      NoneAhead s := by
  constructor
  · intro hdue
    by_contra hnot
    have hw : Within n (close n s) :=
      step_within (e := .close) (run_preserves (fun _ _ _ => step_within) (within_start hn) hs) rfl
    obtain ⟨t, ⟨fs, hfs, hrun⟩, hquiet, hbad⟩ : ∃ t, Leads n (close n s) t ∧ Quiet t ∧ ¬ AllDue n t := by
      by_cases htop : s.top = .idle
      · obtain ⟨v, x, d, hv, hd⟩ : ∃ v x d, s.callers v = some (x, d) ∧ d ≠ 0 := by
          by_contra hall
          push Not at hall
          exact hnot ⟨htop, hall⟩
        exact not_due_of_caller hw hv hd
      · exact not_due_of_top hn hw htop
    exact hbad (hdue fs t hfs hrun hquiet)
  · intro hahead fs t _ hrun _
    exact always_iff_reached.mp (due_from_close (by omega) hahead fs) fs (List.prefix_refl fs) t hrun

def asleep : State ℕ := stepSleepInsert 2 0 (stepSleepTests 2 0 (some 7) 1 start) 7 1

theorem asleep_due_after_close : NoneAhead asleep ∧
    ∀ fs t, .close ∉ fs → run (step 2) (close 2 asleep) fs = some t → Quiet t → AllDue 2 t := by
  have hahead : NoneAhead asleep := by
    refine ⟨rfl, fun u x d hu => ?_⟩
    have hu' := callers_removed hu
    obtain ⟨rfl, -⟩ | hu' := callers_added hu'
    · simp [asleep, stepSleepInsert] at hu
    · cases hu'
  have hrun : run (step 2) start [.sleepTests 0 (some 7) 1, .sleepInsert 0] = some asleep := rfl
  exact ⟨hahead, (due_after_close_iff (by decide) hrun).mpr hahead⟩

/-- A call that made its tests before the table was closed inserts its context one slot ahead. -/
theorem sleeper_behind_close :
    ∃ t, run (step 2) (start : State ℕ) [.sleepTests 0 (some 7) 1, .close, .sleepInsert 0] = some t ∧
      Quiet t ∧ ¬ AllDue 2 t := by
  refine ⟨_, rfl, ⟨rfl, fun u => ?_⟩, fun hdue => ?_⟩
  · simp [stepSleepInsert, stepSleepTests, sleepDelay, start, tTimerInit]
  · exact absurd (hdue 1 (by decide) (by decide)) (by decide)

def InLoop : Top → Prop
  | .idle | .index => False
  | .loop | .hold _ | .insert _ _ => True

instance (top : Top) : Decidable (InLoop top) := by
  cases top <;> simp only [InLoop] <;> infer_instance

/-- The next section of the loop, when no other thread does anything (`turn_step`). -/
def turn (n : ℕ) (s : State C) : State C :=
  match s.top with
  | .loop => stepTopGet s
  | .hold k => stepTopTests n k s
  | .insert k delay => { s with wheel := insertSleep n k delay s.wheel, top := .loop }
  | .idle | .index => s

def Finishes (n : ℕ) (s : State C) : Prop := ∃ m, ¬ InLoop ((turn n)^[m] s).top

/-- The table is closed, and the loop has a context in its hands that it puts into the current slot,
or finds one there. -/
def Caught (n : ℕ) (s : State C) : Prop :=
  s.wheel.tableClosed = true ∧
    match s.top with
    | .loop => s.wheel.tTimerCircularTable s.wheel.currentIndex ≠ []
    | .hold _ => True
    | .insert _ delay => delay % n = 0 ∨ s.wheel.tTimerCircularTable s.wheel.currentIndex ≠ []
    | .idle | .index => False

section Loop
variable {n : ℕ} {s : State C}

lemma turn_step (h : InLoop s.top) : ∃ e, step n s e = some (turn n s) := by
  cases hs : s.top with
  | idle => simp [InLoop, hs] at h
  | loop => exact ⟨.topGet, by simp [step, turn, hs]⟩
  | hold k => exact ⟨.topTests, by simp [step, turn, hs]⟩
  | insert k delay => exact ⟨.topInsert, by simp [step, turn, hs]⟩
  | index => simp [InLoop, hs] at h

lemma Caught.inLoop (h : Caught n s) : InLoop s.top := by
  cases hs : s.top <;> simp [Caught, InLoop, hs] at h ⊢

lemma turn_loop_cons {k : ℕ} {l : List ℕ} (htop : s.top = .loop)
    (hl : s.wheel.tTimerCircularTable s.wheel.currentIndex = k :: l) :
    turn n s = { s with wheel := setSlot s.wheel s.wheel.currentIndex l, top := .hold k } := by
  simp [turn, htop, stepTopGet, tTimerGetUserToResume, hl]

lemma turn_loop_nil (htop : s.top = .loop)
    (hl : s.wheel.tTimerCircularTable s.wheel.currentIndex = []) :
    turn n s = { s with top := .index } := by
  simp [turn, htop, stepTopGet, tTimerGetUserToResume, hl]

lemma turn_hold {k : ℕ} (hn : 2 ≤ n) (htop : s.top = .hold k) :
    turn n s = { s with top := .insert k (if s.wheel.tableClosed then 0 else 1) } := by
  simp [turn, htop, stepTopTests, sleepDelay, show ¬ n ≤ 1 by omega]

lemma turn_insert {k delay : ℕ} (htop : s.top = .insert k delay) :
    turn n s = { s with wheel := insertSleep n k delay s.wheel, top := .loop } := by
  simp [turn, htop]

lemma slot_of_dvd {delay : ℕ} (hi : s.wheel.currentIndex < n) (hd : delay % n = 0) :
    (s.wheel.currentIndex + delay) % n = s.wheel.currentIndex := by
  rw [Nat.add_mod, hd, Nat.add_zero, Nat.mod_mod, Nat.mod_eq_of_lt hi]

lemma slot_of_not_dvd {delay : ℕ} (hi : s.wheel.currentIndex < n) (hd : delay % n ≠ 0) :
    (s.wheel.currentIndex + delay) % n ≠ s.wheel.currentIndex := by
  rw [← Nat.add_mod_mod]
  exact add_mod_ne hi (Nat.mod_lt _ (Nat.zero_lt_of_lt hi)) hd

lemma Caught.turn (hn : 2 ≤ n) (hi : s.wheel.currentIndex < n) (h : Caught n s) :
    Caught n (turn n s) ∧ (turn n s).wheel.currentIndex < n := by
  obtain ⟨hclosed, hcase⟩ := h
  cases hs : s.top with
  | idle => simp [hs] at hcase
  | loop =>
    simp only [hs] at hcase
    obtain ⟨k, l, hl⟩ := List.exists_cons_of_ne_nil hcase
    rw [turn_loop_cons hs hl]
    exact ⟨⟨hclosed, trivial⟩, hi⟩
  | hold k =>
    rw [turn_hold hn hs]
    exact ⟨⟨hclosed, .inl (by simp [hclosed])⟩, hi⟩
  | insert k delay =>
    simp only [hs] at hcase
    rw [turn_insert hs]
    refine ⟨⟨hclosed, insertSleep_ne_nil (hcase.imp_left fun hd => ?_)⟩, hi⟩
    exact (slot_of_dvd hi hd).symm
  | index => simp [hs] at hcase

lemma Caught.not_finishes (hn : 2 ≤ n) (hi : s.wheel.currentIndex < n) (h : Caught n s) :
    ¬ Finishes n s := by
  rintro ⟨m, hm⟩
  have hall : Caught n ((TimerClosing.turn n)^[m] s) ∧
      ((TimerClosing.turn n)^[m] s).wheel.currentIndex < n :=
    Function.Iterate.rec (fun u : State C => Caught n u ∧ u.wheel.currentIndex < n) ⟨h, hi⟩
      (fun u hu => hu.1.turn hn hu.2) m
  exact hm hall.1.inLoop

lemma Finishes.of_turn (h : Finishes n (turn n s)) : Finishes n s := by
  obtain ⟨m, hm⟩ := h
  exact ⟨m + 1, by rwa [Function.iterate_succ_apply]⟩

lemma finishes_of_not_inLoop (h : ¬ InLoop s.top) : Finishes n s := ⟨0, h⟩

lemma finishes_of_nil (htop : s.top = .loop)
    (hl : s.wheel.tTimerCircularTable s.wheel.currentIndex = []) : Finishes n s := by
  refine Finishes.of_turn (finishes_of_not_inLoop ?_)
  rw [turn_loop_nil htop hl]
  exact fun h => h

def work (n : ℕ) (s : State C) : ℕ :=
  let length := (s.wheel.tTimerCircularTable s.wheel.currentIndex).length
  match s.top with
  | .loop => 3 * length + 1
  | .hold _ => 3 * length + 3
  | .insert _ delay => if delay % n = 0 then 3 * length + 5 else 3 * length + 2
  | .idle | .index => 0

lemma work_turn (hn : 2 ≤ n) (hi : s.wheel.currentIndex < n) (ho : s.wheel.tableClosed = false)
    (h : InLoop s.top) : work n (turn n s) < work n s ∧ (turn n s).wheel.currentIndex < n ∧
      (turn n s).wheel.tableClosed = false := by
  cases hs : s.top with
  | idle => simp [InLoop, hs] at h
  | loop =>
    cases hl : s.wheel.tTimerCircularTable s.wheel.currentIndex with
    | nil =>
      rw [turn_loop_nil hs hl]
      exact ⟨by simp [work, hs], hi, ho⟩
    | cons k l =>
      rw [turn_loop_cons hs hl]
      refine ⟨?_, hi, ho⟩
      simp only [work, hs, hl, setSlot, Function.update_self, List.length_cons]
      omega
  | hold k =>
    rw [turn_hold hn hs]
    refine ⟨?_, hi, ho⟩
    have hone : 1 % n ≠ 0 := by rw [Nat.mod_eq_of_lt (by omega)]; exact one_ne_zero
    simp [work, hs, ho, hone]
  | insert k delay =>
    rw [turn_insert hs]
    refine ⟨?_, hi, ho⟩
    simp only [work, hs, insertSleep, setSlot]
    split_ifs with hd
    · rw [slot_of_dvd hi hd, Function.update_self, List.length_cons]
      omega
    · rw [Function.update_of_ne (slot_of_not_dvd hi hd).symm]
      omega
  | index => simp [InLoop, hs] at h

lemma finishes_of_open (hn : 2 ≤ n) (hi : s.wheel.currentIndex < n)
    (ho : s.wheel.tableClosed = false) : Finishes n s := by
  induction hm : work n s using Nat.strongRecOn generalizing s with
  | ind m ih =>
    by_cases hin : InLoop s.top
    · obtain ⟨hless, hi', ho'⟩ := work_turn hn hi ho hin
      exact Finishes.of_turn (ih _ (hm ▸ hless) hi' ho' rfl)
    · exact finishes_of_not_inLoop hin

lemma finishes_of_not_caught (hi : s.wheel.currentIndex < n) (hc : s.wheel.tableClosed = true)
    (h : ¬ Caught n s) : Finishes n s := by
  cases hs : s.top with
  | idle => exact finishes_of_not_inLoop (by simp [hs, InLoop])
  | loop => exact finishes_of_nil hs (by simpa [Caught, hc, hs] using h)
  | hold k => exact absurd ⟨hc, by simp [hs]⟩ h
  | insert k delay =>
    obtain ⟨hd, hl⟩ : delay % n ≠ 0 ∧ s.wheel.tTimerCircularTable s.wheel.currentIndex = [] := by
      simpa [Caught, hc, hs] using h
    refine Finishes.of_turn (finishes_of_nil ?_ ?_)
    · rw [turn_insert hs]
    · rw [turn_insert hs]
      simp only [insertSleep, setSlot]
      rwa [Function.update_of_ne (slot_of_not_dvd hi hd).symm]
  | index => exact finishes_of_not_inLoop (by simp [hs, InLoop])

end Loop

/-- Whatever the table holds and whatever the threads have done, the loop of `tTimerTopTU`, left to
itself, ends exactly if it is not caught: an open table is drained, but in a closed one a context that
the loop has in its hands or finds in the current slot comes back there each time. -/
theorem loop_finishes_iff {n : ℕ} (hn : 2 ≤ n) {s₀ s : State C} (hi : s₀.wheel.currentIndex < n)
    {es : List (Label C)} (hs : run (step n) s₀ es = some s) : Finishes n s ↔ ¬ Caught n s := by
  have hindex : s.wheel.currentIndex < n :=
    run_preserves (I := fun u : State C => u.wheel.currentIndex < n) (fun _ _ _ => step_index) hi hs
  constructor
  · intro hfin hcaught
    exact hcaught.not_finishes hn hindex hfin
  · intro hnot
    cases hc : s.wheel.tableClosed with
    | true => exact finishes_of_not_caught hindex hc hnot
    | false => exact finishes_of_open hn hindex hc

def oneDue : List (Label ℕ) := [.sleepTests 0 (some 7) 0, .sleepInsert 0, .topStart]

theorem tick_of_one_context :
    ∃ s, run (step 2) start oneDue = some s ∧ s.top = .loop ∧ Finishes 2 s := by
  have hrun : run (step 2) start oneDue = some
      { stepSleepInsert 2 0 (stepSleepTests 2 0 (some 7) 0 start) 7 0 with top := .loop } := rfl
  refine ⟨_, hrun, rfl, (loop_finishes_iff (by decide) (by decide) hrun).mpr ?_⟩
  exact fun h => absurd h.1 (by decide)

/-- The table is closed when the loop has begun: the loop does not end. -/
theorem tick_caught_by_close :
    ∃ s, run (step 2) start (oneDue ++ [.close]) = some s ∧ ∀ m, InLoop ((turn 2)^[m] s).top := by
  refine ⟨_, rfl, fun m => ?_⟩
  by_contra hm
  refine Caught.not_finishes (n := 2) (by decide) (by decide) ?_ ⟨m, hm⟩
  exact ⟨rfl, show ([0] : List ℕ) ≠ [] by decide⟩

end LdapTgen.TimerClosing
