import LdapTgen.ScenarioExec
import LdapTgen.StatCounters

/-! The result code of an action executed as a request, in the two places that judge it: `tExec` tests the
`int`, and `tStatActionTime` the `char` that it is passed as. -/
namespace LdapTgen.ActionVerdict
open LabelledRun
open ScenarioExec (Conf Inst Outcome hasCode)
open StatCounters (Stat StatRequest tStatActionTime)

/-- The conversion of an `int` to a `char`, as the bits that it leaves. -/
def toChar (rc : Int32) : UInt8 := UInt8.ofInt rc.toInt

lemma toChar_eq_zero_iff {rc : Int32} : toChar rc = 0 ↔ rc.toInt % 256 = 0 := by
  have hbyte : (toChar rc).toNat = (rc.toInt % 256).toNat := by
    rw [toChar, UInt8.ofInt, UInt8.toNat_ofNat']
    omega
  rw [← UInt8.toNat_inj, hbyte, UInt8.toNat_zero]
  omega

/-- The actions that set `actionAsARequest`, the bind and the unbind where they do; a search that was sent
and is waiting for its results is not one of them, but a search that fails at once is. -/
def IsRequest (c : Conf) (r : RequestName) (rc : Int32) : Prop :=
  hasCode r = true ∧ ¬ (r = .ldapSearchRq ∧ c.tcLdapSessionPolicy = .global ∧ rc = 0)

instance (c : Conf) (r : RequestName) (rc : Int32) : Decidable (IsRequest c r rc) :=
  inferInstanceAs (Decidable (_ ∧ _))

/-- `action->requestId`: the results of a search are counted for the search. -/
def statRequest (r : RequestName) : RequestName := if r = .ldapSearchResp then .ldapSearchRq else r

lemma IsRequest.ne_end {c : Conf} {r : RequestName} {rc : Int32} (h : IsRequest c r rc) :
    statRequest r ≠ .sceEnd := by
  unfold statRequest
  split
  · exact RequestName.noConfusion
  · rintro rfl
    exact absurd h.1 (by decide)

def IsRequest.entry {c : Conf} {r : RequestName} {rc : Int32} (h : IsRequest c r rc) : StatRequest :=
  ⟨statRequest r, h.ne_end⟩

/-- An instance with the statistics, and the number of requests for which `tExec` took its error branch. -/
structure Exec where
  inst : Inst
  stat : Stat
  errors : ℕ

def errorBranch (c : Conf) (actions : List RequestName) (s : Inst) (o : Outcome) : Bool :=
  ((ScenarioExec.step c actions { s with failed := false } o).map Inst.failed).getD false

/-- The outcome of a request; `leaves` says whether an unsent search leaves its context behind. -/
def outcome (rc : ℤ) (retry : ℕ) (leaves : Bool) : Outcome :=
  if leaves then .unsent rc retry else .code rc retry

inductive Label
  | request (rc : Int32) (retry : ℕ) (leaves : Bool) (tm : UInt64)
  | other (o : Outcome)

/-- A turn of the inner loop of `tExec`. -/
def step (c : Conf) (actions : List RequestName) (x : Exec) : Label → Option Exec
  | .request rc retry leaves tm =>
      if h : IsRequest c x.inst.requestId rc then
        (ScenarioExec.step c actions x.inst (outcome rc.toInt retry leaves)).map fun inst =>
          { inst := inst
            stat := tStatActionTime x.stat h.entry (toChar rc) retry tm
            errors := x.errors +
              if errorBranch c actions x.inst (outcome rc.toInt retry leaves) then 1 else 0 }
      else none
  | .other o => (ScenarioExec.step c actions x.inst o).map fun inst => { x with inst := inst }

section Turn
variable {c : Conf} {actions : List RequestName} {s t : Inst} {rc : ℤ} {retry : ℕ} {leaves : Bool}

lemma outcome_cases (rc : ℤ) (retry : ℕ) (leaves : Bool) :
    outcome rc retry leaves = .code rc retry ∨ outcome rc retry leaves = .unsent rc retry := by
  cases leaves
  · exact .inl rfl
  · exact .inr rfl

lemma outcome_inj {rc' : ℤ} {retry' : ℕ} (h : outcome rc retry leaves = .code rc' retry' ∨
    outcome rc retry leaves = .unsent rc' retry') : rc = rc' := by
  rcases outcome_cases rc retry leaves with ho | ho <;>
    rcases h with h | h <;> cases ho.symm.trans h <;> rfl

lemma failed_countError (retry : ℕ) (s : Inst) : (ScenarioExec.countError retry s).failed = true := by
  unfold ScenarioExec.countError
  split <;> rfl

lemma failed_of_outcome (h : ScenarioExec.step c actions s (outcome rc retry leaves) = some t) :
    t.failed = (s.failed || decide (rc ≠ 0)) := by
  have hm := ScenarioExec.step_move h
  generalize ho : outcome rc retry leaves = o at hm
  cases hm with
  | noUser | gotUser | loses | wakes | answered => cases leaves <;> cases ho
  | goesOn hp hr he retry' hs r hn =>
    obtain rfl := outcome_inj (.inl ho)
    simp [Inst.goTo]
  | fails hp hr he ha rc' hrc retry' r hn o ho' =>
    obtain rfl := outcome_inj (ho ▸ ho')
    simpa [Inst.goTo, hrc] using failed_countError retry' s
  | aborts hp hr ha o rc' hrc retry' ho' =>
    rcases ho' with rfl | ho'
    · cases leaves <;> cases ho
    · obtain rfl := outcome_inj (ho ▸ ho')
      simpa [ScenarioExec.tUserFree, hrc] using failed_countError retry' s
  | suspends hp hr o hs =>
    subst ho
    cases leaves
    · have hzero : rc = 0 := hs.2.2
      simp [hzero]
    · exact hs.elim
  | ends hp hr o ho' => rcases ho' with rfl | rfl <;> cases leaves <;> cases ho

lemma leave_defined {s' : Inst} (hpos : s'.pos = s.pos) {e : ScenarioExec.End}
    (h : ScenarioExec.leave actions s rc retry e = some t) :
    ∃ t', ScenarioExec.leave actions s' rc retry e = some t' := by
  cases e with
  | notReached =>
    obtain ⟨r, hr, -⟩ := ScenarioExec.next_eq_some h
    exact ⟨s'.goTo r, by simp [ScenarioExec.leave, ScenarioExec.next, hpos, hr, Inst.goTo]⟩
  | suspended => exact ⟨_, rfl⟩
  | reached => exact ⟨_, rfl⟩
  | notStarted => exact ⟨_, rfl⟩

lemma endOfAction_unmarked {r : ℤ × ℕ × ScenarioExec.End}
    (h : ScenarioExec.endOfAction c actions (s, r) = some t) (failed : Bool) :
    ∃ t', ScenarioExec.endOfAction c actions ({ s with failed := failed }, r) = some t' := by
  obtain ⟨rc, retry, e⟩ := r
  simp only [ScenarioExec.endOfAction] at h ⊢
  split_ifs at h ⊢ with hrc he ha
  · exact ⟨_, rfl⟩
  · exact ⟨_, rfl⟩
  · refine leave_defined ?_ h
    rw [(ScenarioExec.countError_pos retry _).1, (ScenarioExec.countError_pos retry _).1]
  · have hpos : ({ s with failed := failed } : Inst).pos = s.pos := rfl
    exact leave_defined hpos h

lemma switch_unmarked {r : Inst × ℤ × ℕ × ScenarioExec.End}
    (h : ScenarioExec.switch c s (outcome rc retry leaves) = some r) (failed : Bool) :
    r.1 = s ∧ ScenarioExec.switch c { s with failed := failed } (outcome rc retry leaves) =
      some ({ s with failed := failed }, r.2) := by
  cases leaves
  all_goals
    simp only [outcome, ScenarioExec.switch, Bool.false_eq_true, if_true, if_false] at h ⊢
    split_ifs at h ⊢
  all_goals cases h
  all_goals exact ⟨rfl, rfl⟩

lemma step_running (hp : s.phase = .running) (o : Outcome) : ScenarioExec.step c actions s o =
    (ScenarioExec.switch c s o).bind (ScenarioExec.endOfAction c actions) := by
  simp [ScenarioExec.step, hp]

lemma running_of_outcome (h : ScenarioExec.step c actions s (outcome rc retry leaves) = some t) :
    s.phase = .running := by
  cases hp : s.phase with
  | running => rfl
  | suspended => cases leaves <;> simp [ScenarioExec.step, outcome, hp] at h
  | ended => simp [ScenarioExec.step, hp] at h
  | lost => simp [ScenarioExec.step, hp] at h

lemma step_unmarked (h : ScenarioExec.step c actions s (outcome rc retry leaves) = some t) (failed : Bool) :
    ∃ t', ScenarioExec.step c actions { s with failed := failed } (outcome rc retry leaves) = some t' := by
  have hp := running_of_outcome h
  rw [step_running hp] at h
  rw [step_running (s := { s with failed := failed }) hp]
  obtain ⟨r, hsw, hend⟩ := Option.bind_eq_some_iff.mp h
  obtain ⟨rfl, hsw'⟩ := switch_unmarked hsw failed
  rw [hsw', Option.bind_some]
  exact endOfAction_unmarked hend failed

lemma errorBranch_outcome (h : ScenarioExec.step c actions s (outcome rc retry leaves) = some t) :
    errorBranch c actions s (outcome rc retry leaves) = decide (rc ≠ 0) := by
  obtain ⟨t', ht'⟩ := step_unmarked h false
  rw [errorBranch, ht', Option.map_some, Option.getD_some, failed_of_outcome ht', Bool.false_or]

end Turn

lemma toInt_eq_zero_iff {rc : Int32} : rc.toInt = 0 ↔ rc = 0 := by
  rw [← Int32.toInt_inj, Int32.toInt_zero]

section Verdicts
variable {c : Conf} {actions : List RequestName} {x y : Exec} {rc : Int32} {retry : ℕ} {leaves : Bool}
  {tm : UInt64}

lemma step_request (hr : IsRequest c x.inst.requestId rc)
    (h : step c actions x (.request rc retry leaves tm) = some y) :
    ∃ t, ScenarioExec.step c actions x.inst (outcome rc.toInt retry leaves) = some t ∧
      y = ⟨t, tStatActionTime x.stat hr.entry (toChar rc) retry tm,
        x.errors + if rc ≠ 0 then 1 else 0⟩ := by
  rw [step, dif_pos hr] at h
  obtain ⟨t, ht, rfl⟩ := Option.map_eq_some_iff.mp h
  refine ⟨t, ht, ?_⟩
  simp [errorBranch_outcome ht, toInt_eq_zero_iff]

/-- An action is executed as a request: the statistics count it as KO exactly when `tExec` takes its
error branch, if and only if its code is 0 or no multiple of 256. -/
theorem verdicts_agree_iff (c : Conf) (actions : List RequestName) (x y : Exec)
    (rc : Int32) (hr : IsRequest c x.inst.requestId rc) (retry : ℕ) (leaves : Bool) (tm : UInt64)
    (h : step c actions x (.request rc retry leaves tm) = some y) :
    ((y.stat.tStatTab hr.entry).rqKo = (x.stat.tStatTab hr.entry).rqKo + 1 ↔
      errorBranch c actions x.inst (outcome rc.toInt retry leaves) = true) ↔
    (rc = 0 ∨ rc.toInt % 256 ≠ 0) := by
  obtain ⟨t, ht, rfl⟩ := step_request hr h
  have hko : ((tStatActionTime x.stat hr.entry (toChar rc) retry tm).tStatTab hr.entry).rqKo =
      (x.stat.tStatTab hr.entry).rqKo + 1 ↔ rc.toInt % 256 ≠ 0 := by
    rw [← not_iff_not, not_not, ← toChar_eq_zero_iff]
    simp [tStatActionTime, StatCounters.Measure.record]
  rw [hko, errorBranch_outcome ht, decide_eq_true_iff, ← toInt_eq_zero_iff]
  constructor
  · intro hiff
    by_cases hrc : rc.toInt = 0
    · exact .inl hrc
    · exact .inr (hiff.mpr hrc)
  · rintro (hrc | hrc)
    · simp [hrc]
    · refine iff_of_true hrc ?_
      intro h0
      simp [h0] at hrc

def modification : List RequestName := [.sceBegin, .ldapModifyRq, .sceEnd]

def goOn : Conf := ⟨false, .global⟩

def modifying : Exec :=
  ⟨{ ScenarioExec.start .ldapModifyRq with pos := 1, user := some 0, taken := [0] },
    StatCounters.start fun _ => 0, 0⟩

lemma modify_isRequest (rc : Int32) : IsRequest goOn modifying.inst.requestId rc :=
  ⟨rfl, fun h => RequestName.noConfusion h.1⟩

theorem verdicts_agree_iff_modification : ∃ y,
    step goOn modification modifying (.request 32 0 false 50) = some y ∧
      (((y.stat.tStatTab (modify_isRequest 32).entry).rqKo =
          (modifying.stat.tStatTab (modify_isRequest 32).entry).rqKo + 1 ↔
        errorBranch goOn modification modifying.inst (outcome (32 : Int32).toInt 0 false) = true) ↔
      ((32 : Int32) = 0 ∨ (32 : Int32).toInt % 256 ≠ 0)) :=
  ⟨_, rfl, verdicts_agree_iff goOn modification modifying _ 32 (modify_isRequest 32) 0 false 50 rfl⟩

/-- The scenario is counted as KO and its only request is not. -/
theorem code_256_not_counted : ∃ y, step goOn modification modifying (.request 256 0 false 50) = some y ∧
    errorBranch goOn modification modifying.inst (outcome (256 : Int32).toInt 0 false) = true ∧
    y.inst.ko = 1 ∧ (y.stat.tStatTab (modify_isRequest 256).entry).rqCnt = 1 ∧
    (y.stat.tStatTab (modify_isRequest 256).entry).rqKo = 0 :=
  ⟨_, rfl, rfl, rfl, rfl, rfl⟩

end Verdicts

section Run
variable {c : Conf} {actions : List RequestName} {x y : Exec} {es : List Label}

def koTotal (s : Stat) : ℕ := ∑ reqId, (s.tStatTab reqId).rqKo

/-- The turn takes the error branch for a request that is not counted as KO. -/
def Missed : Label → Prop
  | .request rc _ _ _ => rc ≠ 0 ∧ rc.toInt % 256 = 0
  | .other _ => False

instance : DecidablePred Missed
  | .request _ _ _ _ => inferInstanceAs (Decidable (_ ∧ _))
  | .other _ => inferInstanceAs (Decidable False)

lemma koTotal_action (s : Stat) (reqId : StatRequest) (verdict : UInt8) (retry : ℕ) (tm : UInt64) :
    koTotal (tStatActionTime s reqId verdict retry tm) = koTotal s + if verdict ≠ 0 then 1 else 0 := by
  have hothers : ∀ r ∈ Finset.univ.erase reqId,
      ((tStatActionTime s reqId verdict retry tm).tStatTab r).rqKo = (s.tStatTab r).rqKo := by
    intro r hr
    simp [tStatActionTime, Finset.ne_of_mem_erase hr]
  have hentry : ((tStatActionTime s reqId verdict retry tm).tStatTab reqId).rqKo =
      (s.tStatTab reqId).rqKo + if verdict ≠ 0 then 1 else 0 := by
    simp only [tStatActionTime, Function.update_self, StatCounters.Measure.record]
    split <;> rfl
  rw [koTotal, koTotal, ← Finset.add_sum_erase _ _ (Finset.mem_univ reqId),
    ← Finset.add_sum_erase (Finset.univ) (fun r => (s.tStatTab r).rqKo) (Finset.mem_univ reqId),
    Finset.sum_congr rfl hothers, hentry]
  omega

lemma errors_step {e : Label} (h : step c actions x e = some y) :
    y.errors + koTotal x.stat = x.errors + koTotal y.stat + if Missed e then 1 else 0 := by
  cases e with
  | request rc retry leaves tm =>
    have hr : IsRequest c x.inst.requestId rc := by
      by_contra hr
      rw [step, dif_neg hr] at h
      cases h
    obtain ⟨t, -, rfl⟩ := step_request hr h
    simp only [koTotal_action, Missed, ne_eq, toChar_eq_zero_iff]
    by_cases hrc : rc = 0
    · simp [hrc]
    · by_cases hmod : rc.toInt % 256 = 0
      · simp only [hrc, hmod, not_true_eq_false, not_false_eq_true, and_self, if_true, if_false]
        omega
      · simp only [hrc, hmod, not_false_eq_true, and_false, if_true, if_false]
        omega
  | other o =>
    obtain ⟨t, -, rfl⟩ := Option.map_eq_some_iff.mp h
    simp [Missed]

/-- Over a whole run the error branches of requests are as many as the requests counted as KO, unless one
of the codes was missed. -/
lemma errors_run (h : run (step c actions) x es = some y) :
    y.errors + koTotal x.stat = x.errors + koTotal y.stat + es.countP (Missed ·) := by
  induction es generalizing x with
  | nil =>
    obtain rfl := Option.some.inj h
    simp
  | cons e es ih =>
    obtain ⟨x₁, hstep, hrun⟩ := run_cons_eq_some.mp h
    have hfirst := errors_step hstep
    have hrest := ih hrun
    rw [List.countP_cons]
    simp only [decide_eq_true_eq]
    omega

end Run

end LdapTgen.ActionVerdict
