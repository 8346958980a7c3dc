import LdapTgen.Common
import LdapTgen.LabelledRun

/-! The statistics: the counters that `tStatActionTime` keeps under `tstatMutexI` against the stat
thread, which prints the counters of a period as one row and then clears them without that mutex. -/
namespace LdapTgen.StatCounters
open LabelledRun

def requestNames : List RequestName :=
  [.sceBegin,
    .ldapBindRq, .ldapUnBindRq, .ldapSearchRq, .ldapModifyRq, .ldapAddRq, .ldapDeleteRq,
    .ldapSearchResp, .ldapBindResp,
    .radiusAuthWPRq, .radiusAuthRq,
    .radiusAccessEapIdRq, .radiusAccessEapStartRq, .radiusAccessEapChalRq, .radiusAccessEapCliErrRq,
    .radiusAccessEapNotifRq, .radiusAccessEapFastRq,
    .radiusAccessEapTtlsRq, .radiusAccessEapTlsRq,
    .radiusAccessEapAKAIdentityRq, .radiusAccessEapAKAChalRq, .radiusAccessEapAKARejRq,
    .radiusAccessEapAKASynfailRq,
    .radiusAccountStartRq, .radiusAccountInterimRq, .radiusAccountStopRq, .radiusAccountOnRq,
    .radiusAccountOffRq,
    .sceWait, .sceEnd]

lemma mem_requestNames (r : RequestName) : r ∈ requestNames := by
  cases r <;> simp [requestNames]

instance : Fintype RequestName := Fintype.ofList requestNames mem_requestNames

/-- The requests that index `tStatTab`, an array of `SCE_End` entries. -/
abbrev StatRequest := { r : RequestName // r ≠ .sceEnd }

/-- `RADIUS_AccessEapId_Rq` is in the table, but not in the totals. -/
def StatRequest.IsCounted (r : StatRequest) : Prop := r.1 ≠ .radiusAccessEapIdRq

instance (r : StatRequest) : Decidable r.IsCounted := inferInstanceAs (Decidable (_ ≠ _))

/-- An entry of `tStatTab`; times are machine words, counts are not bounded. -/
structure Measure where
  overflow : UInt8
  tmCum : UInt64
  tmMin : UInt64
  tmMax : UInt64
  tmMaxDelay : UInt64
  rqCnt : ℕ
  rqMaxDelay : ℕ
  rqKo : ℕ
  rqRetry : ℕ
  deriving DecidableEq, Repr

inductive Counter
  | request
  | ko
  | timeout
  deriving DecidableEq, Repr

structure Dim where
  inSecond : ℕ
  inPeriod : ℕ
  inTotal : ℕ
  deriving DecidableEq, Repr

def Dim.add (d : Dim) (k : ℕ) : Dim := ⟨d.inSecond + k, d.inPeriod + k, d.inTotal + k⟩

def amount (verdict : UInt8) (retry : ℕ) : Counter → ℕ
  | .request => 1
  | .ko => if verdict ≠ 0 then 1 else 0
  | .timeout => retry

/-- The counters and the rows of the CSV file; `printed` while the stat thread has printed a row and
not yet cleared the counters of the period. -/
structure Stat where
  tStatTab : StatRequest → Measure
  tstatNb : Counter → Dim
  rows : List (Counter → ℕ)
  printed : Bool

def ullongMax : UInt64 := 18446744073709551615

def Measure.record (m : Measure) (verdict : UInt8) (retry : ℕ) (tm : UInt64) : Measure :=
  let overflowed := ullongMax - 1000000 < m.tmCum + tm
  { overflow := if overflowed then m.overflow + 1 else m.overflow
    tmCum := if overflowed then 0 else m.tmCum + tm
    tmMin := if tm < m.tmMin then tm else m.tmMin
    tmMax := if m.tmMax < tm then tm else m.tmMax
    tmMaxDelay := m.tmMaxDelay
    rqCnt := m.rqCnt + 1
    rqMaxDelay := if 1000 * m.tmMaxDelay < tm then m.rqMaxDelay + 1 else m.rqMaxDelay
    rqKo := if verdict ≠ 0 then m.rqKo + 1 else m.rqKo
    rqRetry := m.rqRetry + retry }

/-- The critical section of `tStatActionTime`. -/
def tStatActionTime (s : Stat) (reqId : StatRequest) (verdict : UInt8) (retry : ℕ) (tm : UInt64) :
    Stat :=
  { s with
    tStatTab := Function.update s.tStatTab reqId ((s.tStatTab reqId).record verdict retry tm)
    tstatNb := fun c =>
      if reqId.IsCounted then (s.tstatNb c).add (amount verdict retry c)
      else s.tstatNb c }

def tStatPrintCsv (s : Stat) : Stat :=
  { s with rows := s.rows ++ [fun c => (s.tstatNb c).inPeriod], printed := true }

def clearPeriod (s : Stat) : Stat :=
  { s with tstatNb := fun c => { s.tstatNb c with inPeriod := 0 }, printed := false }

def clearSecond (s : Stat) : Stat :=
  { s with tstatNb := fun c => { s.tstatNb c with inSecond := 0 } }

inductive Label
  | action (reqId : StatRequest) (verdict : UInt8) (retry : ℕ) (tm : UInt64)
  | printCsv
  | clearPeriod
  | clearSecond

/-- The stat thread clears the period after each row, and the second at the end of its turn. -/
def step (s : Stat) : Label → Option Stat
  | .action reqId verdict retry tm => some (tStatActionTime s reqId verdict retry tm)
  | .printCsv => if s.printed then none else some (tStatPrintCsv s)
  | .clearPeriod => if s.printed then some (clearPeriod s) else none
  | .clearSecond => if s.printed then none else some (clearSecond s)

/-- What `tStatInit` leaves, with the delays of the ini file. -/
def start (maxDelay : StatRequest → UInt64) : Stat where
  tStatTab := fun reqId =>
    ⟨0, 0, if reqId.1 = .sceBegin then 0 else 10000000, 0, maxDelay reqId, 0, 0, 0, 0⟩
  tstatNb := fun _ => ⟨0, 0, 0⟩
  rows := []
  printed := false

section Totals

def Measure.count (m : Measure) : Counter → ℕ
  | .request => m.rqCnt
  | .ko => m.rqKo
  | .timeout => m.rqRetry

def tableSum (tab : StatRequest → Measure) (c : Counter) : ℕ :=
  ∑ reqId ∈ Finset.univ.filter StatRequest.IsCounted, (tab reqId).count c

lemma count_record (m : Measure) (verdict : UInt8) (retry : ℕ) (tm : UInt64) (c : Counter) :
    (m.record verdict retry tm).count c = m.count c + amount verdict retry c := by
  cases c with
  | request => rfl
  | ko => by_cases h : verdict = 0 <;> simp [Measure.count, Measure.record, amount, h]
  | timeout => rfl

lemma count_update (tab : StatRequest → Measure) (reqId : StatRequest) (m : Measure) (c : Counter) :
    (fun i => (Function.update tab reqId m i).count c) =
      Function.update (fun i => (tab i).count c) reqId (m.count c) := by
  funext i
  by_cases h : i = reqId
  · subst h
    simp
  · simp [h]

lemma tableSum_record (tab : StatRequest → Measure) (reqId : StatRequest) (verdict : UInt8)
    (retry : ℕ) (tm : UInt64) (c : Counter) :
    tableSum (Function.update tab reqId ((tab reqId).record verdict retry tm)) c =
      if reqId.IsCounted then tableSum tab c + amount verdict retry c
      else tableSum tab c := by
  unfold tableSum
  rw [count_update, count_record]
  by_cases h : reqId.IsCounted
  · have hmem : reqId ∈ Finset.univ.filter StatRequest.IsCounted := by simp [h]
    rw [if_pos h, Finset.sum_update_of_mem hmem, Finset.sdiff_singleton_eq_erase,
      ← Finset.add_sum_erase _ _ hmem]
    omega
  · rw [if_neg h, Finset.sum_update_of_notMem (by simp [h])]

structure Totals (s : Stat) : Prop where
  total : ∀ c, (s.tstatNb c).inTotal = tableSum s.tStatTab c
  ko_le : ∀ reqId, (s.tStatTab reqId).rqKo ≤ (s.tStatTab reqId).rqCnt

lemma totals_start (maxDelay : StatRequest → UInt64) : Totals (start maxDelay) where
  total := by
    intro c
    cases c <;> simp [start, tableSum, Measure.count]
  ko_le := fun _ => le_rfl

lemma ko_le_record {m : Measure} (h : m.rqKo ≤ m.rqCnt) (verdict : UInt8) (retry : ℕ) (tm : UInt64) :
    (m.record verdict retry tm).rqKo ≤ (m.record verdict retry tm).rqCnt := by
  simp only [Measure.record]
  split <;> omega

lemma Totals.action {s : Stat} (h : Totals s) (reqId : StatRequest) (verdict : UInt8) (retry : ℕ)
    (tm : UInt64) : Totals (tStatActionTime s reqId verdict retry tm) where
  total := by
    intro c
    simp only [tStatActionTime, tableSum_record, ← h.total c]
    split <;> rfl
  ko_le := by
    intro i
    by_cases hi : i = reqId
    · subst hi
      simpa [tStatActionTime] using ko_le_record (h.ko_le i) verdict retry tm
    · simpa [tStatActionTime, hi] using h.ko_le i

lemma Totals.step {s t : Stat} {e : Label} (h : Totals s) (ht : step s e = some t) : Totals t := by
  cases e with
  | action reqId verdict retry tm =>
    cases ht
    exact h.action reqId verdict retry tm
  | printCsv | clearPeriod | clearSecond =>
    simp only [StatCounters.step] at ht
    split at ht
    all_goals cases ht
    exact ⟨h.total, h.ko_le⟩

/-- In every state reached, the totals are the sums of the columns of the table over the requests
other than `RADIUS_AccessEapId_Rq`, and no request has more KO than calls. -/
theorem totals_eq_table (maxDelay : StatRequest → UInt64) (es : List Label) (s : Stat)
    (h : run step (start maxDelay) es = some s) :
    (∀ c, (s.tstatNb c).inTotal =
        ∑ reqId ∈ Finset.univ.filter StatRequest.IsCounted, (s.tStatTab reqId).count c) ∧
      ∀ reqId, (s.tStatTab reqId).rqKo ≤ (s.tStatTab reqId).rqCnt := by
  have htotals : Totals s :=
    run_preserves (fun _ _ _ hs ht => hs.step ht) (totals_start maxDelay) h
  exact ⟨htotals.total, htotals.ko_le⟩

lemma search_ne_end : RequestName.ldapSearchRq ≠ .sceEnd := by decide

lemma eapId_ne_end : RequestName.radiusAccessEapIdRq ≠ .sceEnd := by decide

def search : StatRequest := ⟨.ldapSearchRq, search_ne_end⟩

def eapId : StatRequest := ⟨.radiusAccessEapIdRq, eapId_ne_end⟩

/-- One search that failed after two retries, and the identity request, which is not counted. -/
def twoCalls : List Label := [.action search 1 2 50, .action eapId 0 0 10, .clearSecond]

theorem totals_of_two_calls : ∃ s, run step (start fun _ => 0) twoCalls = some s ∧
    (s.tstatNb .timeout).inTotal = 2 ∧ (s.tstatNb .timeout).inTotal =
      ∑ reqId ∈ Finset.univ.filter StatRequest.IsCounted, (s.tStatTab reqId).count .timeout :=
  ⟨_, rfl, rfl, (totals_eq_table (fun _ => 0) twoCalls _ rfl).1 .timeout⟩

end Totals

section Rows

def rowSum (s : Stat) (c : Counter) : ℕ := (s.rows.map (· c)).sum

/-- No call that is counted falls between a row and the clearing of the period. -/
def Calm (s : Stat) : Label → Prop
  | .action reqId _ _ _ => s.printed → ¬ reqId.IsCounted
  | _ => True

/-- What the report shows in the end of the requests counted so far: once a row is printed, the
counters of the period are lost. -/
def shown (s : Stat) (c : Counter) : ℕ :=
  rowSum s c + if s.printed then 0 else (s.tstatNb c).inPeriod

variable {s t : Stat} {e : Label}

lemma shown_start (maxDelay : StatRequest → UInt64) (c : Counter) :
    shown (start maxDelay) c = ((start maxDelay).tstatNb c).inTotal := rfl

lemma shown_printCsv (hs : s.printed = false) (c : Counter) :
    shown (tStatPrintCsv s) c = shown s c := by
  simp [shown, rowSum, tStatPrintCsv, hs]

lemma shown_clearPeriod (hs : s.printed = true) (c : Counter) :
    shown (clearPeriod s) c = shown s c := by
  simp [shown, rowSum, clearPeriod, hs]

lemma shown_action (reqId : StatRequest) (verdict : UInt8) (retry : ℕ) (tm : UInt64) (c : Counter) :
    shown (tStatActionTime s reqId verdict retry tm) c =
      if reqId.IsCounted ∧ s.printed = false then shown s c + amount verdict retry c
      else shown s c := by
  by_cases hid : reqId.IsCounted
  · cases hp : s.printed <;> simp [shown, rowSum, tStatActionTime, hid, hp, Dim.add, Nat.add_assoc]
  · simp [shown, rowSum, tStatActionTime, hid]

lemma inTotal_action (reqId : StatRequest) (verdict : UInt8) (retry : ℕ) (tm : UInt64) (c : Counter) :
    ((tStatActionTime s reqId verdict retry tm).tstatNb c).inTotal =
      if reqId.IsCounted then (s.tstatNb c).inTotal + amount verdict retry c
      else (s.tstatNb c).inTotal := by
  by_cases hid : reqId.IsCounted <;> simp [tStatActionTime, hid, Dim.add]

lemma shown_stat (ht : step s e = some t) (he : ∀ reqId verdict retry tm,
    e ≠ .action reqId verdict retry tm) (c : Counter) :
    shown t c = shown s c ∧ (t.tstatNb c).inTotal = (s.tstatNb c).inTotal := by
  cases e with
  | action reqId verdict retry tm => exact absurd rfl (he reqId verdict retry tm)
  | printCsv =>
    obtain ⟨hp, rfl⟩ : s.printed = false ∧ tStatPrintCsv s = t := by simpa [step] using ht
    exact ⟨shown_printCsv hp c, rfl⟩
  | clearPeriod =>
    obtain ⟨hp, rfl⟩ : s.printed = true ∧ clearPeriod s = t := by simpa [step] using ht
    exact ⟨shown_clearPeriod hp c, rfl⟩
  | clearSecond =>
    obtain ⟨-, rfl⟩ : s.printed = false ∧ clearSecond s = t := by simpa [step] using ht
    exact ⟨rfl, rfl⟩

lemma shown_step (ht : step s e = some t) (c : Counter) :
    ∃ k j, shown t c = shown s c + k ∧ (t.tstatNb c).inTotal = (s.tstatNb c).inTotal + j ∧ k ≤ j ∧
      (Calm s e → k = j) ∧ (¬ Calm s e → c = .request → k < j) := by
  cases e with
  | action reqId verdict retry tm =>
    cases ht
    rw [shown_action, inTotal_action]
    by_cases hid : reqId.IsCounted
    · cases hp : s.printed with
      | false =>
        refine ⟨amount verdict retry c, amount verdict retry c, by simp [hid], by simp [hid], le_rfl,
          fun _ => rfl, fun h => absurd (fun h' => ?_) h⟩
        rw [hp] at h'
        cases h'
      | true =>
        refine ⟨0, amount verdict retry c, by simp, by simp [hid], Nat.zero_le _,
          fun h => absurd hid (h hp), ?_⟩
        rintro - rfl
        exact Nat.one_pos
    · exact ⟨0, 0, by simp [hid], by simp [hid], le_rfl, fun _ => rfl, fun h => absurd (fun _ => hid) h⟩
  | printCsv | clearPeriod | clearSecond =>
    obtain ⟨hshown, htotal⟩ := shown_stat ht (by simp) c
    exact ⟨0, 0, hshown, htotal, le_rfl, fun _ => rfl, fun h => absurd trivial h⟩

lemma shown_le_step (h : ∀ c, shown s c ≤ (s.tstatNb c).inTotal) (ht : step s e = some t)
    (c : Counter) : shown t c ≤ (t.tstatNb c).inTotal := by
  obtain ⟨k, j, hk, hj, hle, -⟩ := shown_step ht c
  have := h c
  omega

lemma lost_step (h : shown s .request < (s.tstatNb .request).inTotal) (ht : step s e = some t) :
    shown t .request < (t.tstatNb .request).inTotal := by
  obtain ⟨k, j, hk, hj, hle, -⟩ := shown_step ht .request
  omega

lemma shown_eq_step (h : ∀ c, shown s c = (s.tstatNb c).inTotal) (hcalm : Calm s e)
    (ht : step s e = some t) (c : Counter) : shown t c = (t.tstatNb c).inTotal := by
  obtain ⟨k, j, hk, hj, -, heq, -⟩ := shown_step ht c
  have := h c
  have := heq hcalm
  omega

/-- Outside the stat thread's two steps, the rows and the current period make up the totals exactly if
no call was counted between the printing of a row and the clearing of its period. -/
theorem rows_conserved_iff (maxDelay : StatRequest → UInt64) (es : List Label) (s : Stat)
    (h : run step (start maxDelay) es = some s) (hs : s.printed = false) :
    (∀ c, (s.rows.map (· c)).sum + (s.tstatNb c).inPeriod = (s.tstatNb c).inTotal) ↔
      Guarded step Calm (start maxDelay) es := by
  have hshown : ∀ c, shown s c = rowSum s c + (s.tstatNb c).inPeriod := by
    simp [shown, hs]
  constructor
  · intro hcons
    have hmiss : ¬ shown s .request < (s.tstatNb .request).inTotal := by
      rw [hshown, rowSum, hcons]
      exact lt_irrefl _
    refine (guarded_or_persistent (I := fun s => ∀ c, shown s c ≤ (s.tstatNb c).inTotal)
      (fun s e t hI ht => shown_le_step hI ht) (fun s e t _ hB ht => lost_step hB ht) ?_
      (fun c => (shown_start maxDelay c).le) h).resolve_right hmiss
    intro s e t hI hcalm ht
    obtain ⟨k, j, hk, hj, -, -, hlt⟩ := shown_step ht .request
    have := hI .request
    have := hlt hcalm rfl
    omega
  · intro hcalm c
    have heq := run_invariant (I := fun s => ∀ c, shown s c = (s.tstatNb c).inTotal)
      (fun s e t hI hG ht => shown_eq_step hI hG ht) (shown_start maxDelay) hcalm h c
    rw [← heq, hshown, rowSum]

/-- A search that ends behind the row of its period is in no row. -/
theorem search_behind_row_lost : ∃ s,
    run step (start fun _ => 0) [.printCsv, .action search 0 0 50, .clearPeriod] = some s ∧
      s.printed = false ∧
      (s.rows.map (· .request)).sum + (s.tstatNb .request).inPeriod = 0 ∧
      (s.tstatNb .request).inTotal = 1 :=
  ⟨_, rfl, rfl, rfl, rfl⟩

def searchThenRow : List Label := [.action search 0 0 50, .printCsv, .clearPeriod]

theorem search_before_row_shown : ∃ s, run step (start fun _ => 0) searchThenRow = some s ∧
    ∀ c, (s.rows.map (· c)).sum + (s.tstatNb c).inPeriod = (s.tstatNb c).inTotal := by
  have hcalm : Guarded step Calm (start fun _ => 0) searchThenRow :=
    ⟨fun h => absurd h (by decide), fun _ _ => ⟨trivial, fun _ _ => ⟨trivial, fun _ _ => trivial⟩⟩⟩
  exact ⟨_, rfl, (rows_conserved_iff (fun _ => 0) searchThenRow _ rfl rfl).mpr hcalm⟩

end Rows

end LdapTgen.StatCounters
