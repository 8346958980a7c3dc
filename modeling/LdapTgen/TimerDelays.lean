import LdapTgen.TimerThreads

/-! How long a context sleeps: sequences of complete calls of `tTimerSetUserToSleep`,
`tTimerGetUserToResume` and `tTimerTopTU` on an open timetable. Each call is a run of the sections of
the threads, with nothing in between. -/
namespace LdapTgen.TimerDelays
open LabelledRun TimerWheel TimerThreads
variable {C : Type*}

def tTimerSetUserToSleep (n k nbTimeUnit : ℕ) (w : Wheel) : Option Wheel :=
  (sleepDelay n nbTimeUnit w).map fun delay => insertSleep n k delay w

/-- The loop of `tTimerTopTU`, given up after `fuel` turns. -/
def topLoop (n : ℕ) : ℕ → Wheel → Option Wheel
  | 0, _ => none
  | fuel + 1, w =>
      match tTimerGetUserToResume w with
      | (w, none) => some w
      | (w, some k) =>
          match tTimerSetUserToSleep n k 1 w with
          | none => some w
          | some w => topLoop n fuel w

/-- One turn for each context of the current slot, and the one that finds the slot empty. -/
def tTimerTopTU (n : ℕ) (w : Wheel) : Option Wheel :=
  if w.tableClosed then some w
  else (topLoop n ((w.tTimerCircularTable w.currentIndex).length + 1) w).map (topIndex n)

inductive Call (C : Type*)
  | sleep (aCtx : Option C) (nbTimeUnit : ℕ)
  | resume
  | topTU

def exec (n : ℕ) (s : State C) : Call C → Option (State C)
  | .sleep none _ => some s
  | .sleep (some x) nbTimeUnit =>
      match tTimerSetUserToSleep n s.accepted.length nbTimeUnit s.wheel with
      | none => some s
      | some w => some { s with wheel := w, accepted := s.accepted ++ [x] }
  | .resume => some (stepResume s)
  | .topTU => (tTimerTopTU n s.wheel).map fun w => { s with wheel := w }

def ticks : List (Call C) → ℕ
  | [] => 0
  | .topTU :: es => ticks es + 1
  | _ :: es => ticks es

section Sections
variable {n : ℕ} {s t : State C}

lemma topLoop_run {fuel : ℕ} {w : Wheel} (htop : s.top = .loop)
    (h : topLoop n fuel s.wheel = some w) :
    ∃ es, run (step n) s es = some { s with wheel := w, top := .index } := by
  induction fuel generalizing s with
  | zero => cases h
  | succ fuel ih =>
    obtain ⟨⟨w', o⟩, hget⟩ : ∃ r, tTimerGetUserToResume s.wheel = r := ⟨_, rfl⟩
    cases o with
    | none =>
      simp only [topLoop, hget, Option.some.injEq] at h
      have hsame := (tTimerGetUserToResume_none (w := s.wheel) (by rw [hget])).1
      rw [hget] at hsame
      have hw : w = s.wheel := h.symm.trans hsame
      refine ⟨[.topGet], ?_⟩
      simp [run, step, htop, stepTopGet, hget, hw]
    | some k =>
      cases hset : sleepDelay n 1 w' with
      | none =>
        simp only [topLoop, hget, tTimerSetUserToSleep, hset, Option.map_none,
          Option.some.injEq] at h
        subst h
        refine ⟨[.topGet, .topTests], ?_⟩
        simp [run, step, htop, stepTopGet, hget, stepTopTests, hset]
      | some delay =>
        simp only [topLoop, hget, tTimerSetUserToSleep, hset, Option.map_some] at h
        obtain ⟨es, hes⟩ := ih (s := { s with wheel := insertSleep n k delay w', top := .loop }) rfl h
        refine ⟨[.topGet, .topTests, .topInsert] ++ es, ?_⟩
        rw [run_append]
        simpa [run, step, htop, stepTopGet, hget, stepTopTests, hset] using hes

structure Calm (s : State C) : Prop where
  top : s.top = .idle
  callers : ∀ t, s.callers t = none
  opened : s.wheel.tableClosed = false

theorem exec_run (hs : Calm s) {e : Call C} (h : exec n s e = some t) :
    ∃ es, run (step n) s es = some t := by
  cases e with
  | sleep aCtx nb =>
    cases aCtx with
    | none =>
      obtain rfl := Option.some.inj h
      exact ⟨[], rfl⟩
    | some x =>
      cases hd : sleepDelay n nb s.wheel with
      | none =>
        simp only [exec, tTimerSetUserToSleep, hd, Option.map_none, Option.some.injEq] at h
        exact ⟨[], by rw [← h]; rfl⟩
      | some delay =>
        simp only [exec, tTimerSetUserToSleep, hd, Option.map_some, Option.some.injEq] at h
        refine ⟨[.sleepTests 0 (some x) nb, .sleepInsert 0], ?_⟩
        have hback : Function.update (Function.update s.callers 0 (some (x, delay))) 0 none =
            s.callers := by
          rw [Function.update_idem, ← hs.callers 0, Function.update_eq_self]
        simp [run, step, hs.callers, stepSleepTests, hd, stepSleepInsert, hback, ← h]
  | resume => exact ⟨[.resume], by simpa [run, step, exec] using h⟩
  | topTU =>
    simp only [exec, tTimerTopTU, hs.opened, Bool.false_eq_true, if_false, Option.map_map,
      Option.map_eq_some_iff] at h
    obtain ⟨w, hw, rfl⟩ := h
    obtain ⟨es, hes⟩ := topLoop_run (s := { s with top := .loop }) rfl hw
    refine ⟨.topStart :: es ++ [.topIndex], ?_⟩
    rw [run_append]
    simp [run, step, hs.top, hs.opened, hes]

end Sections

section Ticks
variable {n : ℕ} {w : Wheel}

lemma index_add {i r : ℕ} (hi : i < n) (hr : r < n) :
    (i + r) % n = if i + r < n then i + r else i + r - n := by
  split_ifs with h
  · exact Nat.mod_eq_of_lt h
  · rw [Nat.mod_eq_sub_mod (by omega)]
    exact Nat.mod_eq_of_lt (by omega)

lemma next_ne (hn : 2 ≤ n) {i : ℕ} (hi : i < n) : (i + 1) % n ≠ i := by
  rw [index_add hi (by omega)]
  split_ifs <;> omega

def pushed (n : ℕ) (w : Wheel) : Wheel :=
  let next := (w.currentIndex + 1) % n
  setSlot (setSlot w next ((w.tTimerCircularTable w.currentIndex).reverse ++
    w.tTimerCircularTable next)) w.currentIndex []

lemma topLoop_turn (hn : 2 ≤ n) (ho : w.tableClosed = false) {fuel k : ℕ} {l : List ℕ}
    (hl : w.tTimerCircularTable w.currentIndex = k :: l) :
    topLoop n (fuel + 1) w = topLoop n fuel (insertSleep n k 1 (setSlot w w.currentIndex l)) := by
  have hdelay : sleepDelay n 1 (setSlot w w.currentIndex l) = some 1 := by
    simp [sleepDelay, setSlot, ho, show ¬ n ≤ 1 by omega]
  simp [topLoop, tTimerGetUserToResume, hl, tTimerSetUserToSleep, hdelay]

lemma pushed_nil (hl : w.tTimerCircularTable w.currentIndex = []) : pushed n w = w := by
  simp only [pushed, setSlot, hl, List.reverse_nil, List.nil_append, Function.update_eq_self]
  rw [← hl, Function.update_eq_self]

lemma pushed_cons {k : ℕ} {l : List ℕ} (hnext : (w.currentIndex + 1) % n ≠ w.currentIndex)
    (hl : w.tTimerCircularTable w.currentIndex = k :: l) :
    pushed n (insertSleep n k 1 (setSlot w w.currentIndex l)) = pushed n w := by
  simp only [pushed, insertSleep, setSlot, hl, Wheel.mk.injEq, and_true]
  funext i
  by_cases hi : i = w.currentIndex
  · simp [hi]
  · by_cases hj : i = (w.currentIndex + 1) % n
    · subst hj
      simp [hi, hnext.symm]
    · simp [hi, hj]

lemma topLoop_eq (hn : 2 ≤ n) (hi : w.currentIndex < n) (ho : w.tableClosed = false) {l : List ℕ}
    (hl : w.tTimerCircularTable w.currentIndex = l) :
    topLoop n (l.length + 1) w = some (pushed n w) := by
  have hnext := next_ne hn hi
  induction l generalizing w with
  | nil => simp [topLoop, tTimerGetUserToResume, hl, pushed_nil hl]
  | cons k l ih =>
    rw [List.length_cons, topLoop_turn hn ho hl, ← pushed_cons hnext hl]
    refine ih (w := insertSleep n k 1 (setSlot w w.currentIndex l)) hi ho ?_ hnext
    simp [insertSleep, setSlot, hnext.symm]

lemma tTimerTopTU_eq (hn : 2 ≤ n) (hi : w.currentIndex < n) (ho : w.tableClosed = false) :
    tTimerTopTU n w = some (topIndex n (pushed n w)) := by
  simp [tTimerTopTU, ho, topLoop_eq hn hi ho rfl]

/-- The insertion is one element of the table, in the slot that is `r` ahead of the current one. -/
structure SleepsIn (n : ℕ) (w : Wheel) (k r : ℕ) : Prop where
  here : (w.tTimerCircularTable ((w.currentIndex + r) % n)).count k = 1
  elsewhere : ∀ i < n, i ≠ (w.currentIndex + r) % n → k ∉ w.tTimerCircularTable i

variable {k r : ℕ}

lemma SleepsIn.mem_current (h : SleepsIn n w k 0) (hi : w.currentIndex < n) :
    k ∈ w.tTimerCircularTable w.currentIndex := by
  have hcount := h.here
  rw [Nat.add_zero, Nat.mod_eq_of_lt hi] at hcount
  exact List.count_pos_iff.mp (by omega)

lemma SleepsIn.eq_zero (h : SleepsIn n w k r) (hi : w.currentIndex < n) (hr : r < n)
    (hk : k ∈ w.tTimerCircularTable w.currentIndex) : r = 0 := by
  by_contra hne
  apply h.elsewhere w.currentIndex hi _ hk
  rw [index_add hi hr]
  split_ifs <;> omega

lemma sleepsIn_insert (hnew : onWheel n w k = 0) (hn : 0 < n) (delay : ℕ) :
    SleepsIn n (insertSleep n k delay w) k delay := by
  have hzero : ∀ i < n, (w.tTimerCircularTable i).count k = 0 := by
    intro i hi
    exact (Finset.sum_eq_zero_iff.mp hnew) i (Finset.mem_range.mpr hi)
  constructor
  · simp [insertSleep, setSlot, hzero _ (Nat.mod_lt (w.currentIndex + delay) hn)]
  · intro i hi hne
    simp only [insertSleep, setSlot] at hne ⊢
    rw [Function.update_of_ne hne]
    exact List.count_eq_zero.mp (hzero i hi)

lemma SleepsIn.setSlot (h : SleepsIn n w k r) {j : ℕ} {l : List ℕ}
    (hl : l.count k = (w.tTimerCircularTable j).count k) : SleepsIn n (setSlot w j l) k r := by
  have hcount : ∀ i, ((TimerWheel.setSlot w j l).tTimerCircularTable i).count k =
      (w.tTimerCircularTable i).count k := by
    intro i
    by_cases he : i = j
    · subst he
      simpa [TimerWheel.setSlot] using hl
    · simp [TimerWheel.setSlot, he]
  constructor
  · exact (hcount _).trans h.here
  · intro i hi hne
    rw [← List.count_eq_zero, hcount i, List.count_eq_zero]
    exact h.elsewhere i hi hne

lemma SleepsIn.insert (h : SleepsIn n w k r) {j : ℕ} (hj : j ≠ k) (delay : ℕ) :
    SleepsIn n (insertSleep n j delay w) k r :=
  h.setSlot (List.count_cons_of_ne hj)

lemma get_cons {w w' : Wheel} {j : ℕ} (hget : tTimerGetUserToResume w = (w', some j)) :
    ∃ l, w.tTimerCircularTable w.currentIndex = j :: l ∧ w' = setSlot w w.currentIndex l := by
  unfold tTimerGetUserToResume at hget
  split at hget
  · simp at hget
  · rename_i x l hl
    simp only [Prod.mk.injEq, Option.some.injEq] at hget
    obtain ⟨rfl, rfl⟩ := hget
    exact ⟨l, hl, rfl⟩

lemma SleepsIn.get (h : SleepsIn n w k r) {j : ℕ} {w' : Wheel} (hj : j ≠ k)
    (hget : tTimerGetUserToResume w = (w', some j)) : SleepsIn n w' k r := by
  obtain ⟨l, hl, rfl⟩ := get_cons hget
  apply h.setSlot
  rw [hl, List.count_cons_of_ne hj]

lemma count_pushed (w : Wheel) (k i : ℕ) :
    ((pushed n w).tTimerCircularTable i).count k =
      if i = w.currentIndex then 0
      else (w.tTimerCircularTable i).count k +
        if i = (w.currentIndex + 1) % n then (w.tTimerCircularTable w.currentIndex).count k else 0 := by
  simp only [pushed, TimerWheel.setSlot]
  split_ifs with hcur hnext
  · subst hcur
    simp
  · rw [Function.update_of_ne hcur, hnext, Function.update_self, List.count_append,
      List.count_reverse, Nat.add_comm]
  · rw [Function.update_of_ne hcur, Function.update_of_ne hnext, Nat.add_zero]

lemma SleepsIn.tick_current (h : SleepsIn n w k 0) (hn : 2 ≤ n) (hi : w.currentIndex < n) :
    SleepsIn n (topIndex n (pushed n w)) k 0 := by
  have hhere := h.here
  have helse := h.elsewhere
  rw [Nat.add_zero, Nat.mod_eq_of_lt hi] at hhere helse
  have hmod : (w.currentIndex + 1) % n < n := Nat.mod_lt _ (by omega)
  have hnext := next_ne hn hi
  have hslot : ((topIndex n (pushed n w)).currentIndex + 0) % n = (w.currentIndex + 1) % n :=
    Nat.mod_eq_of_lt hmod
  constructor
  · have hzero := List.count_eq_zero.mpr (helse _ hmod hnext)
    rw [hslot]
    exact (count_pushed w k _).trans (by rw [if_neg hnext, if_pos rfl, hzero, hhere])
  · intro i hin hne
    rw [hslot] at hne
    apply List.count_eq_zero.mp
    refine (count_pushed w k i).trans ?_
    split_ifs with hcur
    · rfl
    · exact List.count_eq_zero.mpr (helse i hin hcur)

lemma SleepsIn.tick_ahead (h : SleepsIn n w k (r + 1)) (hi : w.currentIndex < n)
    (hr : r + 1 < n) : SleepsIn n (topIndex n (pushed n w)) k r := by
  have hslot : ((topIndex n (pushed n w)).currentIndex + r) % n = (w.currentIndex + (r + 1)) % n := by
    change ((w.currentIndex + 1) % n + r) % n = _
    rw [Nat.mod_add_mod, Nat.add_assoc, Nat.add_comm 1 r]
  have hne : (w.currentIndex + (r + 1)) % n ≠ w.currentIndex := by
    rw [index_add hi hr]
    split_ifs <;> omega
  have hzero := List.count_eq_zero.mpr (h.elsewhere _ hi hne.symm)
  constructor
  · rw [hslot]
    exact (count_pushed w k _).trans (by rw [if_neg hne, hzero, h.here, ite_self])
  · intro i hin hne'
    rw [hslot] at hne'
    apply List.count_eq_zero.mp
    refine (count_pushed w k i).trans ?_
    rw [hzero, ite_self, List.count_eq_zero.mpr (h.elsewhere i hin hne'), ite_self]

lemma SleepsIn.tick (h : SleepsIn n w k r) (hn : 2 ≤ n) (hi : w.currentIndex < n) (hr : r < n) :
    SleepsIn n (topIndex n (pushed n w)) k (r - 1) := by
  cases r with
  | zero => exact h.tick_current hn hi
  | succ r => exact h.tick_ahead hi hr

end Ticks

section Calls
variable {n k d : ℕ} {s t : State C} {x : C}

lemma stepResume_cases (s : State C) : stepResume s = s ∨
    ∃ w j, tTimerGetUserToResume s.wheel = (w, some j) ∧
      stepResume s = { s with wheel := w, handedOut := j :: s.handedOut } := by
  unfold stepResume
  split
  · exact .inl rfl
  · rename_i w j hget
    exact .inr ⟨w, j, hget, rfl⟩

lemma stepResume_calm (hs : Calm s) : Calm (stepResume s) := by
  rcases stepResume_cases s with hsame | ⟨w, j, hget, hout⟩
  · rw [hsame]
    exact hs
  · obtain ⟨l, _, rfl⟩ := get_cons hget
    rw [hout]
    exact ⟨hs.top, hs.callers, hs.opened⟩

lemma exec_calm (hn : 2 ≤ n) (hs : Calm s) (ha : Account n s) (e : Call C) :
    ∃ t, exec n s e = some t ∧ Calm t ∧ Account n t := by
  have hacc : ∀ t, exec n s e = some t → Account n t := by
    intro t ht
    obtain ⟨es, hes⟩ := exec_run hs ht
    exact run_preserves (fun _ _ _ h hs => step_account hn h hs) ha hes
  have hcalm : ∃ t, exec n s e = some t ∧ Calm t := by
    cases e with
    | sleep aCtx nb =>
      cases aCtx with
      | none => exact ⟨s, rfl, hs⟩
      | some x =>
        simp only [exec, tTimerSetUserToSleep]
        cases sleepDelay n nb s.wheel with
        | none => exact ⟨s, rfl, hs⟩
        | some delay => exact ⟨_, rfl, hs.top, hs.callers, hs.opened⟩
    | resume => exact ⟨_, rfl, stepResume_calm hs⟩
    | topTU =>
      rw [exec, tTimerTopTU_eq hn ha.index hs.opened]
      exact ⟨_, rfl, hs.top, hs.callers, hs.opened⟩
  obtain ⟨t, ht, hct⟩ := hcalm
  exact ⟨t, ht, hct, hacc t ht⟩

/-- Insertion `k`, of context `x` with delay `d`, after `m` further ticks. -/
structure Delayed (n k d : ℕ) (x : C) (m : ℕ) (s : State C) : Prop where
  calm : Calm s
  account : Account n s
  context : s.accepted[k]? = some x
  waits : k ∉ s.handedOut → SleepsIn n s.wheel k (d - m)
  due : k ∈ s.handedOut → d ≤ m

lemma Delayed.lt {m : ℕ} (h : Delayed n k d x m s) : k < s.accepted.length :=
  (List.getElem?_eq_some_iff.mp h.context).1

lemma stepResume_delayed (hd : d < n) {m : ℕ} (h : Delayed n k d x m s) :
    Delayed n k d x m (stepResume s) := by
  rcases stepResume_cases s with hsame | ⟨w, j, hget, hout⟩
  · rw [hsame]
    exact h
  · have hc := stepResume_calm h.calm
    have ha := stepResume_account h.account
    rw [hout] at hc ha ⊢
    refine ⟨hc, ha, h.context, fun hnot => ?_, fun hin => ?_⟩
    · simp only [List.mem_cons, not_or] at hnot
      exact (h.waits hnot.2).get (Ne.symm hnot.1) hget
    · by_cases hbefore : k ∈ s.handedOut
      · exact h.due hbefore
      · obtain rfl : k = j := (List.mem_cons.mp hin).resolve_right hbefore
        obtain ⟨l, hl, _⟩ := get_cons hget
        have hzero := (h.waits hbefore).eq_zero h.account.index (by omega) (by rw [hl]; simp)
        omega

lemma exec_delayed (hn : 2 ≤ n) (hd : d < n) {m : ℕ} (h : Delayed n k d x m s) {e : Call C}
    (he : exec n s e = some t) (hc : Calm t) (ha : Account n t) :
    Delayed n k d x (m + ticks [e]) t := by
  cases e with
  | sleep aCtx nb =>
    cases aCtx with
    | none =>
      obtain rfl := Option.some.inj he
      exact h
    | some y =>
      cases hdelay : sleepDelay n nb s.wheel with
      | none =>
        simp only [exec, tTimerSetUserToSleep, hdelay, Option.map_none, Option.some.injEq] at he
        exact he ▸ h
      | some delay =>
        simp only [exec, tTimerSetUserToSleep, hdelay, Option.map_some, Option.some.injEq] at he
        subst he
        have hlt := h.lt
        refine ⟨hc, ha, ?_, fun hout => (h.waits hout).insert (by omega) delay, h.due⟩
        exact (List.getElem?_append_left hlt).trans h.context
  | resume =>
    obtain rfl := Option.some.inj he
    exact stepResume_delayed hd h
  | topTU =>
    rw [exec, tTimerTopTU_eq hn h.account.index h.calm.opened, Option.map_some,
      Option.some.injEq] at he
    subst he
    refine ⟨hc, ha, h.context, fun hout => ?_, fun hout => (h.due hout).trans (Nat.le_add_right _ _)⟩
    exact (h.waits hout).tick hn h.account.index (by omega)

lemma run_delayed (hn : 2 ≤ n) (hd : d < n) {m : ℕ} (h : Delayed n k d x m s) (es : List (Call C)) :
    ∃ t, run (exec n) s es = some t ∧ Delayed n k d x (m + ticks es) t := by
  induction es generalizing s m with
  | nil => exact ⟨s, rfl, h⟩
  | cons e es ih =>
    obtain ⟨u, hu, hc, ha⟩ := exec_calm hn h.calm h.account e
    obtain ⟨t, ht, hdt⟩ := ih (exec_delayed hn hd h hu hc ha)
    refine ⟨t, run_cons_eq_some.mpr ⟨u, hu, ht⟩, ?_⟩
    have hticks : m + ticks (e :: es) = m + ticks [e] + ticks es := by
      cases e <;> simp only [ticks] <;> omega
    rw [hticks]
    exact hdt

lemma run_calm (hn : 2 ≤ n) (hs : Calm s) (ha : Account n s) (es : List (Call C)) :
    ∃ t, run (exec n) s es = some t ∧ Calm t ∧ Account n t := by
  induction es generalizing s with
  | nil => exact ⟨s, rfl, hs, ha⟩
  | cons e es ih =>
    obtain ⟨u, hu, hcu, hau⟩ := exec_calm hn hs ha e
    obtain ⟨t, ht, h⟩ := ih hcu hau
    exact ⟨t, run_cons_eq_some.mpr ⟨u, hu, ht⟩, h⟩

lemma exec_sleep_delayed (hn : 2 ≤ n) (hd : d < n) (hs : Calm s) (ha : Account n s) :
    ∃ t, exec n s (.sleep (some x) d) = some t ∧ Delayed n s.accepted.length d x 0 t := by
  have hdelay : sleepDelay n d s.wheel = some d := by
    simp [sleepDelay, hs.opened, show ¬ n ≤ d by omega]
  have hnew := ha.once s.accepted.length
  rw [if_neg (Nat.lt_irrefl _)] at hnew
  obtain ⟨t, ht, hc, hat⟩ := exec_calm hn hs ha (.sleep (some x) d)
  refine ⟨t, ht, hc, hat, ?_, fun _ => ?_, fun hout => ?_⟩
  all_goals
    simp only [exec, tTimerSetUserToSleep, hdelay, Option.map_some, Option.some.injEq] at ht
    subst ht
  · simp
  · simp only [places] at hnew
    exact sleepsIn_insert (by omega) (by omega) d
  · have hpos : 0 < s.handedOut.count s.accepted.length := List.count_pos_iff.mpr hout
    omega

end Calls

/-- The calls `before`, a context put to sleep with delay `d`, and the calls `after` all end. The
context is not handed out before `d` of the later calls were ticks, and from then on it is in the
current slot until it is handed out. -/
def DelayKept (n d : ℕ) (before after : List (Call C)) (x : C) : Prop :=
  ∃ s t, run (exec n) start before = some s ∧
    run (exec n) s (.sleep (some x) d :: after) = some t ∧
    t.accepted[s.accepted.length]? = some x ∧
    (s.accepted.length ∈ t.handedOut → d ≤ ticks after) ∧
    (s.accepted.length ∉ t.handedOut → d ≤ ticks after →
      s.accepted.length ∈ t.wheel.tTimerCircularTable t.wheel.currentIndex)

theorem delay_kept {n d : ℕ} (hn : 2 ≤ n) (hd : d < n) (before after : List (Call C)) (x : C) :
    DelayKept n d before after x := by
  obtain ⟨s, hs, hcalm, hacc⟩ := run_calm hn ⟨rfl, fun _ => rfl, rfl⟩ (account_start hn) before
  obtain ⟨u, hu, hdu⟩ := exec_sleep_delayed hn hd hcalm hacc (x := x)
  obtain ⟨t, ht, hdt⟩ := run_delayed hn hd hdu after
  rw [Nat.zero_add] at hdt
  refine ⟨s, t, hs, run_cons_eq_some.mpr ⟨u, hu, ht⟩, hdt.context, hdt.due, fun hout hle => ?_⟩
  have hsleep := hdt.waits hout
  rw [Nat.sub_eq_zero_of_le hle] at hsleep
  exact hsleep.mem_current hdt.account.index

theorem two_ticks_of_three_slots :
    2 ≤ 3 ∧ 2 < 3 ∧ DelayKept 3 2 [.sleep (some 4) 1, .topTU] [.resume, .topTU, .topTU, .topTU] 7 :=
  ⟨by decide, by decide, delay_kept (by decide) (by decide) _ _ _⟩

/-- A context with delay 2 on three slots: two ticks, one more while nobody asks, then it is handed
out. -/
example : ((run (exec 3) start [.sleep (some 7) 2, .topTU, .resume, .topTU, .topTU, .resume]).map
    fun s => s.handedOut) = some [0] := by decide

end LdapTgen.TimerDelays
