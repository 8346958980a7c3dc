import LdapTgen.StatCounters

/-! The response times of a request in `tStatTab` against the samples that `tStatActionTime` recorded. -/
namespace LdapTgen.ResponseTimes
open LabelledRun StatCounters

structure Call where
  verdict : UInt8
  retry : ℕ
  tm : UInt64

def calls (reqId : StatRequest) : List Label → List Call
  | [] => []
  | .action r verdict retry tm :: es =>
      if r = reqId then ⟨verdict, retry, tm⟩ :: calls reqId es else calls reqId es
  | .printCsv :: es => calls reqId es
  | .clearPeriod :: es => calls reqId es
  | .clearSecond :: es => calls reqId es

def samples (reqId : StatRequest) (es : List Label) : List UInt64 := (calls reqId es).map Call.tm

def recordAll (m : Measure) (cs : List Call) : Measure :=
  cs.foldl (fun m c => m.record c.verdict c.retry c.tm) m

lemma recordAll_cons (m : Measure) (c : Call) (cs : List Call) :
    recordAll m (c :: cs) = recordAll (m.record c.verdict c.retry c.tm) cs := rfl

lemma run_table {s t : Stat} {es : List Label} (h : run step s es = some t) (reqId : StatRequest) :
    t.tStatTab reqId = recordAll (s.tStatTab reqId) (calls reqId es) := by
  induction es generalizing s with
  | nil =>
    obtain rfl := Option.some.inj h
    rfl
  | cons e es ih =>
    obtain ⟨s₁, hstep, hrun⟩ := run_cons_eq_some.mp h
    rw [ih hrun]
    cases e with
    | action r verdict retry tm =>
      cases hstep
      by_cases hr : r = reqId
      · subst hr
        simp [calls, tStatActionTime, recordAll_cons]
      · simp [calls, tStatActionTime, hr, Function.update_of_ne (Ne.symm hr)]
    | printCsv | clearPeriod | clearSecond =>
      simp only [step] at hstep
      split at hstep
      all_goals cases hstep
      rfl

section Fields
variable {m : Measure} {cs : List Call}

lemma rqCnt_recordAll : (recordAll m cs).rqCnt = m.rqCnt + cs.length := by
  induction cs generalizing m with
  | nil => rfl
  | cons c cs ih =>
    rw [recordAll_cons, ih, List.length_cons]
    simp only [Measure.record]
    omega

lemma tmMaxDelay_recordAll : (recordAll m cs).tmMaxDelay = m.tmMaxDelay := by
  induction cs generalizing m with
  | nil => rfl
  | cons c cs ih => rw [recordAll_cons, ih, Measure.record]

lemma rqMaxDelay_recordAll : (recordAll m cs).rqMaxDelay =
    m.rqMaxDelay + (cs.map Call.tm).countP (1000 * m.tmMaxDelay < ·) := by
  induction cs generalizing m with
  | nil => rfl
  | cons c cs ih =>
    have hdelay : (m.record c.verdict c.retry c.tm).tmMaxDelay = m.tmMaxDelay := rfl
    have hcount : (m.record c.verdict c.retry c.tm).rqMaxDelay =
        if 1000 * m.tmMaxDelay < c.tm then m.rqMaxDelay + 1 else m.rqMaxDelay := rfl
    rw [recordAll_cons, ih, List.map_cons, List.countP_cons, hdelay, hcount]
    simp only [decide_eq_true_eq]
    split <;> omega

lemma tmCum_recordAll (h : m.tmCum.toNat + ((cs.map Call.tm).map UInt64.toNat).sum < 2 ^ 64 - 1000000) :
    (recordAll m cs).tmCum.toNat = m.tmCum.toNat + ((cs.map Call.tm).map UInt64.toNat).sum := by
  induction cs generalizing m with
  | nil => rfl
  | cons c cs ih =>
    rw [List.map_cons, List.map_cons, List.sum_cons] at h ⊢
    have hadd : (m.tmCum + c.tm).toNat = m.tmCum.toNat + c.tm.toNat := by
      rw [UInt64.toNat_add, Nat.mod_eq_of_lt (by omega)]
    have hlimit : ¬ ullongMax - 1000000 < m.tmCum + c.tm := by
      have hmax : (ullongMax - 1000000).toNat = 2 ^ 64 - 1000001 := rfl
      rw [UInt64.lt_iff_toNat_lt, hadd, hmax]
      omega
    have hcum : (m.record c.verdict c.retry c.tm).tmCum = m.tmCum + c.tm := if_neg hlimit
    rw [recordAll_cons, ih (by rw [hcum, hadd]; omega), hcum, hadd]
    omega

end Fields

section Extremum
variable {α : Type} {r : α → α → Prop} [DecidableRel r]

lemma foldl_best (hasymm : ∀ x y, r x y → ¬ r y x) (htrans : ∀ x y z, ¬ r x y → ¬ r y z → ¬ r x z)
    (best : α) (xs : List α) :
    xs.foldl (fun b x => if r x b then x else b) best ∈ best :: xs ∧
      ∀ x ∈ best :: xs, ¬ r x (xs.foldl (fun b x => if r x b then x else b) best) := by
  have hirrefl : ∀ x, ¬ r x x := fun x h => hasymm x x h h
  induction xs generalizing best with
  | nil => simp [hirrefl best]
  | cons y ys ih =>
    obtain ⟨hmem, hbest⟩ := ih (if r y best then y else best)
    rw [List.foldl_cons]
    have hfirst := hbest _ List.mem_cons_self
    constructor
    · rcases List.mem_cons.mp hmem with heq | hmem
      · rw [heq]
        split <;> simp
      · exact List.mem_cons_of_mem _ (List.mem_cons_of_mem _ hmem)
    · intro x hx
      rw [List.mem_cons, List.mem_cons] at hx
      rcases hx with rfl | rfl | hx
      · refine htrans _ _ _ ?_ hfirst
        split
        · rename_i hr
          exact hasymm _ _ hr
        · exact hirrefl _
      · refine htrans _ _ _ ?_ hfirst
        split
        · exact hirrefl _
        · rename_i hr
          exact hr
      · exact hbest x (List.mem_cons_of_mem _ hx)

variable {m : Measure} {cs : List Call}

lemma tmMin_fold : (recordAll m cs).tmMin =
    (cs.map Call.tm).foldl (fun b tm => if tm < b then tm else b) m.tmMin := by
  induction cs generalizing m with
  | nil => rfl
  | cons c cs ih => rw [recordAll_cons, ih, List.map_cons, List.foldl_cons, Measure.record]

lemma tmMax_fold : (recordAll m cs).tmMax =
    (cs.map Call.tm).foldl (fun b tm => if b < tm then tm else b) m.tmMax := by
  induction cs generalizing m with
  | nil => rfl
  | cons c cs ih => rw [recordAll_cons, ih, List.map_cons, List.foldl_cons, Measure.record]

lemma tmMin_recordAll (m : Measure) (cs : List Call) :
    (recordAll m cs).tmMin ∈ m.tmMin :: cs.map Call.tm ∧
    ∀ tm ∈ m.tmMin :: cs.map Call.tm, (recordAll m cs).tmMin ≤ tm := by
  have hbest := foldl_best (r := fun x y : UInt64 => x < y) (fun _ _ => UInt64.lt_asymm)
    (fun x y z hxy hyz => by
      rw [UInt64.not_lt] at *
      exact UInt64.le_trans hyz hxy) m.tmMin (cs.map Call.tm)
  rw [← tmMin_fold] at hbest
  exact ⟨hbest.1, fun tm htm => UInt64.not_lt.mp (hbest.2 tm htm)⟩

lemma tmMax_recordAll (m : Measure) (cs : List Call) :
    (recordAll m cs).tmMax ∈ m.tmMax :: cs.map Call.tm ∧
    ∀ tm ∈ m.tmMax :: cs.map Call.tm, tm ≤ (recordAll m cs).tmMax := by
  have hbest := foldl_best (r := fun x y : UInt64 => y < x) (fun _ _ => UInt64.lt_asymm)
    (fun x y z hxy hyz => by
      rw [UInt64.not_lt] at *
      exact UInt64.le_trans hxy hyz) m.tmMax (cs.map Call.tm)
  rw [← tmMax_fold] at hbest
  exact ⟨hbest.1, fun tm htm => UInt64.not_lt.mp (hbest.2 tm htm)⟩

end Extremum

def unsignedLong (n : ℕ) : ℕ := n % 2 ^ 64

structure Exact (m : Measure) (tms : List UInt64) : Prop where
  tmMin : m.tmMin ∈ tms ∧ ∀ tm ∈ tms, m.tmMin ≤ tm
  tmMax : m.tmMax ∈ tms ∧ ∀ tm ∈ tms, tm ≤ m.tmMax
  tmCum : m.tmCum.toNat = (tms.map UInt64.toNat).sum
  rqCnt : unsignedLong m.rqCnt = tms.length
  rqMaxDelay : unsignedLong m.rqMaxDelay = tms.countP (1000 * m.tmMaxDelay.toNat < ·.toNat)

/-- What the assignment of an `int` leaves in `tm_maxDelay`. -/
def delayWord (delay : Int32) : UInt64 := UInt64.ofInt delay.toInt

/-- The multiplication wraps only for the delays that were negative, where both thresholds are above
every sample. -/
lemma threshold_iff (delay : Int32) {tm : UInt64} (htm : tm.toNat < 2 ^ 63) :
    1000 * delayWord delay < tm ↔ 1000 * (delayWord delay).toNat < tm.toNat := by
  have hlo := delay.le_toInt
  have hhi := delay.toInt_lt
  have hword : (delayWord delay).toNat = (delay.toInt % 2 ^ 64).toNat := by
    rw [delayWord, UInt64.ofInt, UInt64.toNat_ofNat']
    omega
  have hthousand : (1000 : UInt64).toNat = 1000 := rfl
  rw [UInt64.lt_iff_toNat_lt, UInt64.toNat_mul, hthousand, hword]
  rcases lt_or_ge delay.toInt 0 with hneg | hpos
  · obtain ⟨n, hn⟩ : ∃ n : ℕ, delay.toInt = -n := ⟨delay.toInt.natAbs, by omega⟩
    have hturn : (delay.toInt % 2 ^ 64).toNat = 2 ^ 64 - n := by omega
    have hwrap : 1000 * (2 ^ 64 - n) = 2 ^ 64 * 999 + (2 ^ 64 - 1000 * n) := by omega
    rw [hturn, hwrap, Nat.mul_add_mod, Nat.mod_eq_of_lt (by omega)]
    omega
  · have hsame : (delay.toInt % 2 ^ 64).toNat = delay.toInt.toNat := by omega
    rw [hsame, Nat.mod_eq_of_lt (by omega)]

section Entry
variable {m : Measure} {cs : List Call}

lemma tmMax_mem (hm : m.tmMax = 0) (hne : cs.map Call.tm ≠ []) :
    (recordAll m cs).tmMax ∈ cs.map Call.tm := by
  obtain ⟨hmem, hmax⟩ := tmMax_recordAll m cs
  rcases List.mem_cons.mp hmem with heq | hmem
  · obtain ⟨tm, htm⟩ := List.exists_mem_of_ne_nil _ hne
    have hle := hmax tm (List.mem_cons_of_mem _ htm)
    have hzero : tm = 0 := by
      rw [heq, hm, UInt64.le_zero_iff] at hle
      exact hle
    rw [heq, hm, ← hzero]
    exact htm
  · exact hmem

lemma tmMin_mem_iff :
    (recordAll m cs).tmMin ∈ cs.map Call.tm ↔ ∃ tm ∈ cs.map Call.tm, tm ≤ m.tmMin := by
  obtain ⟨hmem, hmin⟩ := tmMin_recordAll m cs
  constructor
  · intro h
    exact ⟨_, h, hmin _ List.mem_cons_self⟩
  · rintro ⟨tm, htm, hle⟩
    rcases List.mem_cons.mp hmem with heq | hmem
    · have heq' : tm = m.tmMin :=
        UInt64.le_antisymm hle (heq ▸ hmin tm (List.mem_cons_of_mem _ htm))
      rw [heq, ← heq']
      exact htm
    · exact hmem

lemma countP_threshold (delay : Int32) (hlt : ∀ tm ∈ cs.map Call.tm, tm.toNat < 2 ^ 63) :
    (cs.map Call.tm).countP (1000 * delayWord delay < ·) =
      (cs.map Call.tm).countP (1000 * (delayWord delay).toNat < ·.toNat) := by
  refine List.countP_congr fun tm htm => ?_
  rw [decide_eq_true_eq, decide_eq_true_eq]
  exact threshold_iff delay (hlt tm htm)

lemma exact_iff (delay : Int32) (first : UInt64) (hne : cs.map Call.tm ≠ [])
    (hlt : ∀ tm ∈ cs.map Call.tm, tm.toNat < 2 ^ 63)
    (hsum : ((cs.map Call.tm).map UInt64.toNat).sum < 2 ^ 64 - 1000000) :
    Exact (recordAll ⟨0, 0, first, 0, delayWord delay, 0, 0, 0, 0⟩ cs) (cs.map Call.tm) ↔
      (∃ tm ∈ cs.map Call.tm, tm ≤ first) ∧ (cs.map Call.tm).length < 2 ^ 64 := by
  set m : Measure := ⟨0, 0, first, 0, delayWord delay, 0, 0, 0, 0⟩ with hm
  have hcnt : (recordAll m cs).rqCnt = (cs.map Call.tm).length := by
    rw [rqCnt_recordAll, List.length_map, hm, Nat.zero_add]
  constructor
  · intro h
    refine ⟨tmMin_mem_iff.mp h.tmMin.1, ?_⟩
    rw [← h.rqCnt]
    exact Nat.mod_lt _ (by norm_num)
  · rintro ⟨hsmall, hlen⟩
    refine ⟨⟨tmMin_mem_iff.mpr hsmall, ?_⟩, ⟨tmMax_mem rfl hne, ?_⟩, ?_, ?_, ?_⟩
    · intro tm htm
      exact (tmMin_recordAll _ _).2 tm (List.mem_cons_of_mem _ htm)
    · intro tm htm
      exact (tmMax_recordAll _ _).2 tm (List.mem_cons_of_mem _ htm)
    · rw [tmCum_recordAll (by simpa [hm] using hsum)]
      simp [hm]
    · rw [hcnt, unsignedLong, Nat.mod_eq_of_lt hlen]
    · have hle := List.countP_le_length (p := (1000 * (delayWord delay).toNat < ·.toNat))
        (l := cs.map Call.tm)
      rw [rqMaxDelay_recordAll, tmMaxDelay_recordAll, hm, Nat.zero_add, countP_threshold delay hlt,
        unsignedLong, Nat.mod_eq_of_lt (hle.trans_lt hlen)]

end Entry

/-- The statistics of a request are exact if and only if one of its samples is at most ten seconds, the
value that `tm_min` starts with, and `rq_cnt` does not wrap. -/
theorem response_times_exact_iff (delay : StatRequest → Int32) (es : List Label) (s : Stat)
    (h : run step (start fun r => delayWord (delay r)) es = some s) (reqId : StatRequest)
    (hbegin : reqId.1 ≠ .sceBegin) (hne : samples reqId es ≠ [])
    (hlt : ∀ tm ∈ samples reqId es, tm.toNat < 2 ^ 63)
    (hsum : ((samples reqId es).map UInt64.toNat).sum < 2 ^ 64 - 1000000) :
    Exact (s.tStatTab reqId) (samples reqId es) ↔
      (∃ tm ∈ samples reqId es, tm ≤ 10000000) ∧ (samples reqId es).length < 2 ^ 64 := by
  have hstart : (start fun r => delayWord (delay r)).tStatTab reqId =
      ⟨0, 0, 10000000, 0, delayWord (delay reqId), 0, 0, 0, 0⟩ := by
    simp [start, hbegin]
  rw [run_table h reqId, hstart]
  exact exact_iff (delay reqId) 10000000 hne hlt hsum

def slowSearch : List Label := [.action search 0 0 12000000]

theorem slow_search_minimum : ∃ s, run step (start fun _ => 0) slowSearch = some s ∧
    samples search slowSearch = [12000000] ∧ (s.tStatTab search).tmMin = 10000000 :=
  ⟨_, rfl, rfl, rfl⟩

def twoSearches : List Label := [.action search 0 0 12000000, .clearSecond, .action search 0 0 400]

theorem two_searches_exact : ∃ s, run step (start fun _ => delayWord 1) twoSearches = some s ∧
    (Exact (s.tStatTab search) (samples search twoSearches) ↔
      (∃ tm ∈ samples search twoSearches, tm ≤ 10000000) ∧ (samples search twoSearches).length < 2 ^ 64) ∧
    (s.tStatTab search).tmMin = 400 ∧ (s.tStatTab search).rqMaxDelay = 1 := by
  have hsamples : samples search twoSearches = [12000000, 400] := rfl
  refine ⟨_, rfl, response_times_exact_iff (fun _ => 1) twoSearches _ rfl search (by decide) ?_ ?_ ?_,
    rfl, rfl⟩
  · simp [hsamples]
  · simp [hsamples]
  · simp [hsamples]

end LdapTgen.ResponseTimes
