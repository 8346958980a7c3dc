import LdapTgen.AsyncMoves

/-! The closing sequence. `main` leaves when every worker has counted itself out, and a worker does so
when it has found the current slot of the timetable empty and then reads `ENDING2`. Whether contexts
are left behind depends on where the other threads are when `main` closes the timetable. -/
namespace LdapTgen.Shutdown
open LabelledRun LdapLists TimerWheel AsyncSystem

/-- A context of an unfinished scenario, in the timetable or in the hands of the stat thread. -/
def Suspended (c : Conf) (s : State) (k : ℕ) : Prop :=
  (0 < onWheel c.tableSize s.wheel k ∨ s.topTU = .holding k ∨ ∃ delay, s.topTU = .inserting k delay) ∧
    ∃ x, s.ctx k = some x ∧ (x.action = .wait ∨ x.req ≠ none)

def CleanExit (c : Conf) (s : State) : Prop := s.main = .left → ∀ k, ¬ Suspended c s k

def pendingDelay : Pc → ℕ
  | .insert _ _ delay => delay
  | _ => 0

/-- At the call of `tTimerClose` the stat thread is outside of `tTimerTopTU`, no worker is about to
insert a context with a delay, and if there are contexts, some worker is not between its look at the
timetable and the tests of its state. -/
def Ready (c : Conf) (s : State) : Prop :=
  s.topTU = .idle ∧ (∀ w < c.tcWThreadNb, pendingDelay (s.pc w) = 0) ∧
    ((∀ i < c.tableSize, s.wheel.tTimerCircularTable i = []) ∨
      ∃ w < c.tcWThreadNb, s.pc w ≠ .noTimer ∧ s.pc w ≠ .notEnding)

def closesTable (c : Conf) (s : State) : Label → Bool
  | .main => match s.main with
    | .ending i => decide (c.tcWThreadNb ≤ i)
    | _ => false
  | _ => false

def ReadyToClose (c : Conf) (s : State) (e : Label) : Prop := closesTable c s e = true → Ready c s

instance (c : Conf) (s : State) : Decidable (Ready c s) := inferInstanceAs (Decidable (_ ∧ _ ∧ _))

instance (c : Conf) (s : State) (e : Label) : Decidable (ReadyToClose c s e) :=
  inferInstanceAs (Decidable (_ → _))

/-- The worker has found the timetable empty and may leave without another look at it. -/
def leaving : Pc → Bool
  | .noTimer | .notEnding | .closing | .closed | .finished => true
  | _ => false

def plain : Pc → Bool
  | .insert .. => false
  | p => !leaving p

def gone : Pc → Bool
  | .closing | .closed | .finished => true
  | _ => false

def counted : Pc → Bool
  | .closed | .finished => true
  | _ => false

structure View where
  wheel : Wheel
  topTU : TopPc
  main : MainPc
  nbSessionsClosed : ℕ
  threadState : ℕ → ThreadState
  pc : ℕ → Pc

def view (s : State) : View :=
  ⟨s.wheel, s.topTU, s.main, s.nbSessionsClosed, s.threadState, s.pc⟩

def nbCounted (c : Conf) (pc : ℕ → Pc) : ℕ :=
  ((Finset.range c.tcWThreadNb).filter fun w => counted (pc w) = true).card

/-- After `tTimerClose` every context is due, and as long as there are some a worker will look. -/
structure Shut (c : Conf) (x : View) : Prop where
  index : x.wheel.currentIndex = 0
  due : ∀ i, i ≠ 0 → x.wheel.tTimerCircularTable i = []
  idle : x.topTU = .idle
  delays : ∀ w < c.tcWThreadNb, pendingDelay (x.pc w) = 0
  watched : x.wheel.tTimerCircularTable 0 ≠ [] → ∃ w < c.tcWThreadNb, leaving (x.pc w) = false

structure Inv (c : Conf) (x : View) : Prop where
  phase : x.wheel.tableClosed = false ↔ x.main = .running ∨ ∃ i, x.main = .ending i
  states : x.wheel.tableClosed = false → ∀ w, x.threadState w ≠ .ending2
  stay : x.wheel.tableClosed = false → ∀ w, gone (x.pc w) = false
  count : x.nbSessionsClosed = nbCounted c x.pc
  enough : x.main = .left → c.tcWThreadNb ≤ x.nbSessionsClosed
  shut : x.wheel.tableClosed = true → Shut c x

lemma leaving_of_counted {p : Pc} (h : counted p = true) : leaving p = true := by
  cases p <;> first | rfl | cases h

lemma gone_of_counted {p : Pc} (h : counted p = true) : gone p = true := by
  cases p <;> first | rfl | cases h

lemma leaving_of_gone {p : Pc} (h : gone p = true) : leaving p = true := by
  cases p <;> first | rfl | cases h

section Count
variable {c : Conf} {pc : ℕ → Pc} {w : ℕ} {p : Pc}

lemma nbCounted_update (h : counted p = counted (pc w)) :
    nbCounted c (Function.update pc w p) = nbCounted c pc := by
  unfold nbCounted
  congr 1
  refine Finset.filter_congr fun v _ => ?_
  by_cases hv : v = w
  · subst hv
    rw [Function.update_self, h]
  · rw [Function.update_of_ne hv]

lemma nbCounted_succ (hw : w < c.tcWThreadNb) (hp : counted p = true)
    (hpc : counted (pc w) = false) :
    nbCounted c (Function.update pc w p) = nbCounted c pc + 1 := by
  have hins : (Finset.range c.tcWThreadNb).filter
      (fun v => counted (Function.update pc w p v) = true) =
      insert w ((Finset.range c.tcWThreadNb).filter fun v => counted (pc v) = true) := by
    ext v
    by_cases hv : v = w
    · subst hv
      simp [hp, hw]
    · simp [hv]
  unfold nbCounted
  rw [hins, Finset.card_insert_of_notMem (by simp [hpc])]

lemma counted_of_all (h : c.tcWThreadNb ≤ nbCounted c pc) (hw : w < c.tcWThreadNb) :
    counted (pc w) = true := by
  have hall := Finset.filter_card_eq (s := Finset.range c.tcWThreadNb)
    (p := fun v => counted (pc v) = true)
    (le_antisymm (Finset.card_filter_le _ _) (by simpa [nbCounted] using h))
  exact hall w (Finset.mem_range.mpr hw)

end Count

section Steps
variable {c : Conf} {x : View} {w : ℕ} {p : Pc}

/-- A worker goes on. It may only get closer to leaving from where it was leaving already, or with an
empty slot before it. -/
lemma Inv.goto (h : Inv c x) (hw : w < c.tcWThreadNb) (hcount : counted p = counted (x.pc w))
    (hstay : x.wheel.tableClosed = false → gone p = false)
    (hdelay : x.wheel.tableClosed = true → pendingDelay p = 0)
    (hlook : leaving p = true →
      leaving (x.pc w) = true ∨ x.wheel.tTimerCircularTable x.wheel.currentIndex = []) :
    Inv c { x with pc := Function.update x.pc w p } := by
  refine ⟨h.phase, h.states, ?_, ?_, h.enough, ?_⟩
  · intro hopen v
    by_cases hv : v = w
    · subst hv
      simpa using hstay hopen
    · simpa [hv] using h.stay hopen v
  · exact h.count.trans (nbCounted_update hcount).symm
  · intro hclosed
    have hshut := h.shut hclosed
    refine ⟨hshut.index, hshut.due, hshut.idle, ?_, ?_⟩
    · intro v hv
      by_cases hvw : v = w
      · subst hvw
        simpa using hdelay hclosed
      · simpa [hvw] using hshut.delays v hv
    · intro hne
      -- Either `w` itself will look, or it was not the one that others relied upon.
      by_cases hp : leaving p = true
      · rcases hlook hp with hfrom | hempty
        · obtain ⟨v, hvlt, hv⟩ := hshut.watched hne
          have hvw : v ≠ w := by
            rintro rfl
            rw [hfrom] at hv
            cases hv
          exact ⟨v, hvlt, by simpa [hvw] using hv⟩
        · rw [hshut.index] at hempty
          exact absurd hempty hne
      · exact ⟨w, hw, by simpa using hp⟩

lemma Inv.act (h : Inv c x) (hw : w < c.tcWThreadNb) (hfrom : counted (x.pc w) = false)
    (hto : leaving p = false)
    (hdelay : x.wheel.tableClosed = true → pendingDelay p = 0) :
    Inv c { x with pc := Function.update x.pc w p } := by
  have hgone : gone p = false := by
    by_contra hg
    simp [leaving_of_gone (by simpa using hg)] at hto
  have hcount : counted p = false := by
    by_contra hc
    simp [gone_of_counted (by simpa using hc)] at hgone
  refine h.goto hw (hcount.trans hfrom.symm) (fun _ => hgone) hdelay fun hp => ?_
  rw [hto] at hp
  cases hp

lemma Inv.plain (h : Inv c x) (hw : w < c.tcWThreadNb) (hfrom : counted (x.pc w) = false)
    (hto : plain p = true) : Inv c { x with pc := Function.update x.pc w p } := by
  refine h.act hw hfrom ?_ fun _ => ?_
  · cases p <;> first | rfl | cases hto
  · cases p <;> first | rfl | cases hto

lemma Inv.setWheel (h : Inv c x) (hw : w < c.tcWThreadNb) (hlook : leaving (x.pc w) = false)
    {v : Wheel} (hclosed : v.tableClosed = x.wheel.tableClosed)
    (hindex : v.currentIndex = x.wheel.currentIndex)
    (hdue : x.wheel.tableClosed = true → ∀ i, i ≠ 0 → v.tTimerCircularTable i = []) :
    Inv c { x with wheel := v } := by
  refine ⟨?_, ?_, ?_, h.count, h.enough, ?_⟩
  · simpa [hclosed] using h.phase
  · simpa [hclosed] using h.states
  · simpa [hclosed] using h.stay
  · intro hv
    have hx : x.wheel.tableClosed = true := hclosed ▸ hv
    have hshut := h.shut hx
    exact ⟨hindex.trans hshut.index, hdue hx, hshut.idle, hshut.delays, fun _ => ⟨w, hw, hlook⟩⟩

lemma Inv.setTop (h : Inv c x) (hopen : x.wheel.tableClosed = false) {v : Wheel}
    (hv : v.tableClosed = false) (q : TopPc) : Inv c { x with wheel := v, topTU := q } := by
  refine ⟨?_, ?_, ?_, h.count, h.enough, ?_⟩
  · simpa [hv, hopen] using h.phase
  · exact fun _ => h.states hopen
  · exact fun _ => h.stay hopen
  · intro hclosed
    rw [hv] at hclosed
    cases hclosed

lemma Inv.setMain (h : Inv c x) {m : MainPc} {st : ℕ → ThreadState}
    (hphase : x.wheel.tableClosed = false ↔ m = .running ∨ ∃ i, m = .ending i)
    (hstates : x.wheel.tableClosed = false → ∀ w, st w ≠ .ending2)
    (henough : m = .left → c.tcWThreadNb ≤ x.nbSessionsClosed) :
    Inv c { x with main := m, threadState := st } := by
  refine ⟨hphase, hstates, h.stay, h.count, henough, fun hclosed => ?_⟩
  have hshut := h.shut hclosed
  exact ⟨hshut.index, hshut.due, hshut.idle, hshut.delays, hshut.watched⟩

lemma setSlot_due {v : Wheel} (hdue : ∀ i, i ≠ 0 → v.tTimerCircularTable i = []) (l : List ℕ)
    (i : ℕ) (hi : i ≠ 0) : (setSlot v 0 l).tTimerCircularTable i = [] := by
  simp [setSlot, hi, hdue i hi]

end Steps

section Moves
variable {c : Conf} {s t : State} {w : ℕ} {i : Input}

lemma plain_afterSleep (k : ℕ) (job : Job) : plain (afterSleep k job) = true := by
  cases job <;> rfl

lemma plain_afterAction (rc : ℤ) : plain (afterAction c rc) = true := by
  rcases afterAction_cases (c := c) rc with h | h <;> rw [h] <;> rfl

lemma prepareSend_view {u : State} {k r : ℕ} {sctrl : Ctrls}
    (h : prepareSend c w s k r sctrl = some u) : view u = view s := by
  obtain ⟨q, _, _, rfl⟩ := prepareSend_some h
  rfl

lemma sleepDelay_closed {n nb delay : ℕ} {v : Wheel} (hv : v.tableClosed = true)
    (h : sleepDelay n nb v = some delay) : delay = 0 := by
  unfold sleepDelay at h
  split_ifs at h
  simpa using h.symm

lemma pop_inv (h : Inv c (view s)) (hw : w < c.tcWThreadNb) (k : ℕ) (hpc : s.pc w = .noResp) :
    Inv c (view ({ s with wheel := (tTimerGetUserToResume s.wheel).1 }.goto w (.gotTimer k))) := by
  have hwheel : Inv c { view s with wheel := (tTimerGetUserToResume s.wheel).1 } := by
    refine h.setWheel hw (congrArg leaving hpc) ?_ ?_ ?_
    · unfold tTimerGetUserToResume
      split <;> rfl
    · unfold tTimerGetUserToResume
      split <;> rfl
    · intro hclosed
      have hshut := h.shut hclosed
      have hindex : s.wheel.currentIndex = 0 := hshut.index
      unfold tTimerGetUserToResume
      split
      · exact hshut.due
      · rw [hindex]
        exact setSlot_due hshut.due _
  exact hwheel.plain hw (congrArg counted hpc) rfl

lemma insert_inv (h : Inv c (view s)) (hw : w < c.tcWThreadNb) {k delay : ℕ} {job : Job}
    (hpc : s.pc w = .insert k job delay) :
    Inv c (view ({ s with wheel := insertSleep c.tableSize k delay s.wheel }.goto w
      (afterSleep k job))) := by
  have hwheel : Inv c { view s with wheel := insertSleep c.tableSize k delay s.wheel } := by
    refine h.setWheel hw (congrArg leaving hpc) rfl rfl fun hclosed => ?_
    have hshut := h.shut hclosed
    have hindex : s.wheel.currentIndex = 0 := hshut.index
    have hdelay : delay = 0 := (congrArg pendingDelay hpc).symm.trans (hshut.delays w hw)
    have hslot : (s.wheel.currentIndex + delay) % c.tableSize = 0 := by
      rw [hindex, hdelay]
      exact Nat.zero_mod _
    unfold insertSleep
    simp only [hslot]
    exact setSlot_due hshut.due _
  exact hwheel.plain hw (congrArg counted hpc) (plain_afterSleep k job)

lemma close_inv (h : Inv c (view s)) (hw : w < c.tcWThreadNb) (hpc : s.pc w = .closing) :
    Inv c (view ({ s with nbSessionsClosed := s.nbSessionsClosed + 1 }.goto w .closed)) := by
  have hclosed : s.wheel.tableClosed = true := by
    by_contra hopen
    have hgone : gone (s.pc w) = false := h.stay (Bool.eq_false_of_not_eq_true hopen) w
    rw [hpc] at hgone
    cases hgone
  have hcount : s.nbSessionsClosed = nbCounted c s.pc := h.count
  have hnot : s.wheel.tableClosed ≠ false := by simp [hclosed]
  refine ⟨h.phase, fun hopen => absurd hopen hnot, fun hopen => absurd hopen hnot, ?_, ?_,
    fun _ => ?_⟩
  · exact (congrArg (· + 1) hcount).trans
      (nbCounted_succ (p := .closed) hw rfl (congrArg counted hpc)).symm
  · exact fun hleft => (h.enough hleft).trans (Nat.le_succ _)
  · have hshut := h.shut hclosed
    refine ⟨hshut.index, hshut.due, hshut.idle, fun v hv => ?_, fun hne => ?_⟩
    · by_cases hvw : v = w
      · simp [view, State.goto, hvw, pendingDelay]
      · simpa [view, State.goto, hvw] using hshut.delays v hv
    · obtain ⟨v, hvlt, hv⟩ := hshut.watched hne
      have hvw : v ≠ w := by
        rintro rfl
        simp [view, hpc, leaving] at hv
      exact ⟨v, hvlt, by simpa [view, State.goto, hvw] using hv⟩

lemma finish_inv (h : Inv c (view s)) (hw : w < c.tcWThreadNb) (hpc : s.pc w = .closed) :
    Inv c (view ({ s with threadState := Function.update s.threadState w .finished }.goto w
      .finished)) := by
  have hstate : Inv c { view s with threadState := Function.update s.threadState w .finished } := by
    refine h.setMain h.phase (fun hopen v => ?_) h.enough
    by_cases hv : v = w
    · simp [hv]
    · simpa [hv, view] using h.states hopen v
  refine hstate.goto hw (congrArg counted hpc).symm ?_ ?_ ?_
  · intro hopen
    have hgone : gone (s.pc w) = false := h.stay hopen w
    rw [hpc] at hgone
    cases hgone
  · exact fun _ => rfl
  · intro _
    exact .inl (congrArg leaving hpc)

theorem worker_inv (h : Inv c (view s)) (hw : w < c.tcWThreadNb) (hm : WorkerMove c w s i t) :
    Inv c (view t) := by
  have hplain : ∀ {p q}, s.pc w = p → counted p = false → plain q = true →
      Inv c { view s with pc := Function.update (view s).pc w q } := fun hpc hp hq =>
    h.plain hw ((congrArg counted hpc).trans hp) hq
  cases hm with
  | response hpc | noResponse hpc | readResp hpc | readStray hpc | markResp hpc | wake hpc
  | expire hpc | discard hpc | markTimeout hpc | lookAgain hpc | newScenario hpc | startSearch hpc
  | startWait hpc | nullLd hpc | newReq hpc | removeRequest hpc | treat hpc | freeTimeout hpc =>
    exact hplain hpc rfl rfl
  | pop hpc => exact pop_inv h hw _ hpc
  | noPop hpc hempty =>
    exact h.goto hw (congrArg counted hpc).symm (fun _ => rfl) (fun _ => rfl) fun _ => .inr hempty
  | notEnding hpc =>
    exact h.goto hw (congrArg counted hpc).symm (fun _ => rfl) (fun _ => rfl)
      fun _ => .inl (congrArg leaving hpc)
  | leave hpc he =>
    exact h.goto hw (congrArg counted hpc).symm (fun hopen => absurd he (h.states hopen w))
      (fun _ => rfl) fun _ => .inl (congrArg leaving hpc)
  | close hpc => exact close_inv h hw hpc
  | finish hpc => exact finish_inv h hw hpc
  | other hpc hp =>
    refine hplain hpc rfl ?_
    rcases hp with rfl | rfl <;> rfl
  | setSleep hpc hd =>
    refine h.act hw (congrArg counted hpc) rfl fun hclosed => ?_
    exact sleepDelay_closed hclosed hd
  | refuseSleep hpc => exact hplain hpc rfl (plain_afterSleep _ _)
  | insert hpc => exact insert_inv h hw hpc
  | sent hpc hu =>
    have hview := hplain hpc rfl (q := .top) rfl
    rw [← prepareSend_view hu] at hview
    exact hview
  | @sendError k _ _ _ rc hpc hu =>
    have hview := hplain hpc rfl (q := .sendFailed k rc) rfl
    rw [← prepareSend_view hu] at hview
    exact hview
  | failed hpc | freeReq hpc => exact hplain hpc rfl (plain_afterAction _)

lemma markPending_view {heap : TailedList.Heap Entry} {myerrno : ℤ} {n : ℕ} {a : Option ℕ}
    (h : markPending heap myerrno n a s = some t) : view t = view s :=
  markPending_invariant (P := fun u => view u = view s) (fun _ _ _ _ _ hu _ _ _ _ => hu) h rfl

theorem topTU_inv (h : Inv c (view s)) (hm : stepTopTU c s = some t) : Inv c (view t) := by
  have hopen : s.topTU ≠ .idle → s.wheel.tableClosed = false := by
    intro hne
    by_contra hclosed
    exact hne (h.shut (Bool.eq_true_of_not_eq_false hclosed)).idle
  unfold stepTopTU at hm
  cases hp : s.topTU with simp only [hp] at hm
  | idle =>
    cases Option.some.inj hm
    by_cases hc : s.wheel.tableClosed = true
    · have hsame : view { s with topTU := if s.wheel.tableClosed then .idle else .draining } =
          view s := by simp [view, hc, hp]
      rw [hsame]
      exact h
    · exact h.setTop (Bool.eq_false_of_not_eq_true hc) (Bool.eq_false_of_not_eq_true hc) _
  | draining =>
    cases Option.some.inj hm
    have ho := hopen (by simp [hp])
    refine h.setTop ho ?_ _
    unfold tTimerGetUserToResume
    split <;> exact ho
  | holding k =>
    cases Option.some.inj hm
    have ho := hopen (by simp [hp])
    exact h.setTop ho ho _
  | inserting k delay =>
    cases Option.some.inj hm
    have ho := hopen (by simp [hp])
    exact h.setTop (v := insertSleep c.tableSize k delay s.wheel) ho ho _
  | advancing =>
    cases Option.some.inj hm
    have ho := hopen (by simp [hp])
    exact h.setTop (v := topIndex c.tableSize s.wheel) ho ho _

lemma gather_eq_nil {n : ℕ} {v : Wheel} (h : ∀ i < n, v.tTimerCircularTable i = []) :
    gather n v = [] := by
  refine List.eq_nil_iff_forall_not_mem.mpr fun k hk => ?_
  have hpos := List.count_pos_iff.mpr hk
  have hzero : onWheel n v k = 0 :=
    Finset.sum_eq_zero fun i hi => by rw [h i (Finset.mem_range.mp hi), List.count_nil]
  rw [count_gather, hzero] at hpos
  exact absurd hpos (lt_irrefl 0)

lemma shut_of_ready (h : Inv c (view s)) (hopen : s.wheel.tableClosed = false) (hready : Ready c s) :
    Shut c (view { s with wheel := tTimerClose c.tableSize s.wheel, main := .ending2 0 }) := by
  obtain ⟨hidle, hdelays, hlook⟩ := hready
  refine ⟨rfl, fun i hi => by simp [view, tTimerClose, hi], hidle, hdelays, fun hne => ?_⟩
  rcases hlook with hempty | ⟨w, hw, hn, hnn⟩
  · exact absurd (gather_eq_nil hempty) (by simpa [view, tTimerClose] using hne)
  · refine ⟨w, hw, ?_⟩
    have hgone : gone (s.pc w) = false := h.stay hopen w
    show leaving (s.pc w) = false
    cases hp : s.pc w <;> simp_all [leaving, gone]

theorem main_inv (h : Inv c (view s)) (hg : ReadyToClose c s .main) (hm : stepMain c s = some t) :
    Inv c (view t) := by
  have hphase : s.wheel.tableClosed = false ↔ s.main = .running ∨ ∃ i, s.main = .ending i := h.phase
  unfold stepMain at hm
  cases hp : s.main with simp only [hp] at hm hphase
  | running =>
    cases Option.some.inj hm
    exact h.setMain (by simpa [view] using hphase) h.states fun hleft => by cases hleft
  | ending j =>
    have hopen : s.wheel.tableClosed = false := by simpa using hphase
    split_ifs at hm with hj
    · cases Option.some.inj hm
      refine h.setMain (by simpa [view] using hopen) (fun _ v => ?_) fun hleft => by cases hleft
      by_cases hv : v = j
      · simp [hv]
      · simpa [hv, view] using h.states hopen v
    · cases Option.some.inj hm
      have hready : Ready c s := hg (by simp [closesTable, hp, Nat.le_of_not_lt hj])
      exact ⟨by simp [view, tTimerClose], by simp [view, tTimerClose], by simp [view, tTimerClose],
        h.count, by simp [view], fun _ => shut_of_ready h hopen hready⟩
  | ending2 j =>
    have hnot : s.wheel.tableClosed ≠ false := by simpa using hphase
    split_ifs at hm with hj
    · cases Option.some.inj hm
      exact h.setMain (by simpa [view] using hnot) (fun hopen => absurd hopen hnot)
        fun hleft => by cases hleft
    · cases Option.some.inj hm
      exact h.setMain (by simpa [view] using hnot) h.states fun hleft => by cases hleft
  | waiting =>
    have hnot : s.wheel.tableClosed ≠ false := by simpa using hphase
    cases Option.some.inj hm
    by_cases henough : c.tcWThreadNb ≤ s.nbSessionsClosed
    · rw [if_pos henough]
      exact h.setMain (by simpa [view] using hnot) h.states fun _ => henough
    · rw [if_neg henough]
      exact h.setMain (by simpa [view] using hnot) h.states fun hleft => by cases hleft
  | left => cases hm

theorem step_inv {e : Label} (h : Inv c (view s)) (hg : ReadyToClose c s e)
    (hs : step c s e = some t) : Inv c (view t) := by
  cases step_move hs with
  | worker hw hm => exact worker_inv h hw hm
  | unknown | delivered | otherError => exact h
  | restart he hu =>
    have hview := markPending_view hu
    exact (congrArg (Inv c) hview).mpr h
  | topTU hm => exact topTU_inv h hm
  | main hm => exact main_inv h hg hm

lemma init_inv : Inv c (view init) := by
  refine ⟨by simp [view, init, tTimerInit], by simp [view, init], by simp [view, init, gone], ?_,
    by simp [view, init], by simp [view, init, tTimerInit]⟩
  simp [view, init, nbCounted, counted]

lemma Inv.cleanExit (h : Inv c (view s)) : CleanExit c s := by
  rintro hleft k ⟨hk, _⟩
  have hphase : s.wheel.tableClosed = false ↔ s.main = .running ∨ ∃ i, s.main = .ending i := h.phase
  have hclosed : s.wheel.tableClosed = true := by
    by_contra hopen
    simpa [hleft] using hphase.mp (Bool.eq_false_of_not_eq_true hopen)
  have hshut : Shut c (view s) := h.shut hclosed
  have hidle : s.topTU = .idle := hshut.idle
  have hall : c.tcWThreadNb ≤ nbCounted c s.pc := h.count ▸ h.enough hleft
  have hzero : s.wheel.tTimerCircularTable 0 = [] := by
    by_contra hne
    obtain ⟨w, hw, hl⟩ := hshut.watched hne
    have hleaving : leaving (s.pc w) = true := leaving_of_counted (counted_of_all hall hw)
    exact absurd hleaving (Bool.eq_false_iff.mp hl)
  have hempty : ∀ i, s.wheel.tTimerCircularTable i = [] := by
    intro i
    by_cases hi : i = 0
    · rw [hi, hzero]
    · exact hshut.due i hi
  simp [hidle, onWheel, hempty] at hk

end Moves

/-- In every run in which `tTimerClose` is called in a state that is ready for it, no scenario is
suspended when `main` has left. -/
theorem clean_exit (c : Conf) (es : List Label) (hg : Guarded (step c) (ReadyToClose c) init es) :
    Always (step c) (CleanExit c) init es :=
  always_of_invariant (I := fun s => Inv c (view s)) (fun _ h => h.cleanExit)
    (fun _ _ _ h hg hs => step_inv h hg hs) init_inv hg

/-- The labels of a run in which one worker puts a scenario to sleep, goes on for `n` steps while the
program runs, and after the closing sequence for `m` steps. -/
def closingRun (n m : ℕ) : List Label :=
  let go := Label.worker 0 .tau
  List.replicate 4 go ++ .worker 0 (.wait 3 none) :: List.replicate n go ++ List.replicate 5 .main ++
    List.replicate m go

/-- The worker finds the current slot empty before the closing sequence, and then reads `ENDING2`
without another look. -/
theorem sleeping_scenario_left_behind :
    ∃ s, run (step ⟨1, 1, 400, 5, false⟩) init (closingRun 4 3 ++ [.main]) = some s ∧
      s.main = .left ∧ Suspended ⟨1, 1, 400, 5, false⟩ s 0 := by
  have hrun : (run (step ⟨1, 1, 400, 5, false⟩) init (closingRun 4 3 ++ [.main])).map
      (fun s => (s.main, s.wheel.tTimerCircularTable 0, s.ctx 0)) =
      some (.left, [0], some ⟨.wait, none⟩) := by decide +kernel
  obtain ⟨s, hs, hv⟩ := Option.map_eq_some_iff.mp hrun
  simp only [Prod.mk.injEq] at hv
  obtain ⟨hmain, hslot, hctx⟩ := hv
  exact ⟨s, hs, hmain, .inl (onWheel_pos (i := 0) (by decide) (by simp [hslot])), _, hctx, .inl rfl⟩

/-- The worker looks at the timetable after the closing sequence and resumes the scenario. -/
theorem sleeping_scenario_resumed :
    ∃ s, run (step ⟨1, 1, 400, 5, false⟩) init (closingRun 2 3 ++
        Label.worker 0 .endSce :: List.replicate 5 (.worker 0 .tau) ++ [.main]) = some s ∧
      s.main = .left ∧ ∀ k, ¬ Suspended ⟨1, 1, 400, 5, false⟩ s k := by
  have hrun : (run (step ⟨1, 1, 400, 5, false⟩) init (closingRun 2 3 ++
      Label.worker 0 .endSce :: List.replicate 5 (.worker 0 .tau) ++ [.main])).map State.main =
      some .left := by decide +kernel
  obtain ⟨s, hs, hmain⟩ := Option.map_eq_some_iff.mp hrun
  have hclean := clean_exit ⟨1, 1, 400, 5, false⟩ (closingRun 2 3 ++
    Label.worker 0 .endSce :: List.replicate 5 (.worker 0 .tau) ++ [.main]) (by decide +kernel)
  exact ⟨s, hs, hmain, always_iff_reached.mp hclean _ List.prefix_rfl s hs hmain⟩

end LdapTgen.Shutdown
