import LdapTgen.Common
import LdapTgen.LabelledRun

/-! One scenario instance in `tExec`: the switch over the requests, the end of an action, and the
suspensions after which the instance goes on in another iteration of the outer loop. The results of
the requests are the labels of a run. An asynchronous search that fails at once may leave its context
in the timer wheel, from which the instance is taken up once more: it then has several courses. -/
namespace LdapTgen.ScenarioExec
open LabelledRun

structure Conf where
  tcAbortScenario : Bool
  tcLdapSessionPolicy : SessionPolicy
  deriving DecidableEq, Repr

inductive End
  | notReached
  | reached
  | suspended
  | notStarted
  deriving DecidableEq, Repr

/-- Where the instance is: in a worker, in the timer wheel (or waiting for its search), ended, or in
neither of them. -/
inductive Phase
  | running
  | suspended
  | ended
  | lost
  deriving DecidableEq, Repr

/-- One course of an instance. The counters of the scenario are those of this course; `taken` and
`freed` list the users it got and released, and `failed` says whether one of its actions failed. -/
structure Inst where
  pos : ℕ
  requestId : RequestName
  phase : Phase
  user : Option ℕ
  firstSceStat : Bool
  cnt : ℕ
  ko : ℕ
  timeout : ℕ
  taken : List ℕ
  freed : List ℕ
  failed : Bool
  deriving DecidableEq, Repr

/-- What a request comes to: the user of `SCE_Begin`, the result of `tTimerSetUserToSleep`, a result
code with the number of retries, a search that was not sent and left its context with the request in
the timer wheel, or a user found aborted. `resume` is the end of a suspension. -/
inductive Outcome
  | user (u : Option ℕ)
  | timer (rc : ℤ)
  | code (rc : ℤ) (retry : ℕ)
  | unsent (rc : ℤ) (retry : ℕ)
  | aborted
  | finish
  | resume
  deriving DecidableEq, Repr

def isRadius : RequestName → Bool
  | .radiusAuthRq | .radiusAuthWPRq | .radiusAccountStartRq | .radiusAccountInterimRq
  | .radiusAccountStopRq | .radiusAccountOnRq | .radiusAccountOffRq => true
  | _ => false

def hasCode : RequestName → Bool
  | .ldapBindRq | .ldapUnBindRq | .ldapSearchRq | .ldapSearchResp | .ldapModifyRq | .ldapAddRq
  | .ldapDeleteRq => true
  | r => isRadius r

def tUserFree (s : Inst) : Inst :=
  { s with freed := s.freed ++ s.user.toList }

def tExecScenarioEnd (retry : ℕ) (s : Inst) : Inst :=
  { s with cnt := s.cnt + 1, timeout := s.timeout + retry }

def tExecScenarioEndKo (retry : ℕ) (s : Inst) : Inst :=
  tExecScenarioEnd retry { s with ko := s.ko + 1 }

/-- The switch of the inner loop: the new state, `rc`, `retry` and `end`. -/
def switch (c : Conf) (s : Inst) : Outcome → Option (Inst × ℤ × ℕ × End)
  | .user none =>
      if s.requestId = .sceBegin then some ({ s with user := none }, 0xff, 0, .notStarted) else none
  | .user (some u) =>
      if s.requestId = .sceBegin then
        some ({ s with user := some u, taken := s.taken ++ [u] }, 0, 0, .notReached)
      else none
  | .timer rc => if s.requestId = .sceWait then some (s, rc, 0, .suspended) else none
  | .finish => if s.requestId = .sceEnd then some (tUserFree s, 0, 0, .reached) else none
  | .aborted => if isRadius s.requestId then some (tUserFree s, 0, 0, .reached) else none
  | .code rc retry =>
      if hasCode s.requestId then
        if s.requestId = .ldapSearchRq ∧ c.tcLdapSessionPolicy = .global ∧ rc = 0 then
          some (s, 0, retry, .suspended)
        else some (s, rc, retry, .notReached)
      -- an unknown action
      else if s.requestId ∉ [.sceBegin, .sceWait, .sceEnd] ∧ rc = 0 ∧ retry = 0 then
        some (s, 0, 0, .notReached)
      else none
  | .unsent rc retry =>
      if s.requestId = .ldapSearchRq ∧ c.tcLdapSessionPolicy = .global ∧ rc ≠ 0 then
        some (s, rc, retry, .notReached)
      else none
  | .resume => none

def next (actions : List RequestName) (s : Inst) : Option Inst :=
  actions[s.pos + 1]?.map fun r => { s with pos := s.pos + 1, requestId := r }

/-- The exit of the inner loop, or its next turn. A suspension without success has left nothing in
the timer wheel. -/
def leave (actions : List RequestName) (s : Inst) (rc : ℤ) (retry : ℕ) : End → Option Inst
  | .notReached => next actions s
  | .suspended => some { s with phase := if rc = 0 then .suspended else .lost }
  | .reached =>
      some { (if s.firstSceStat then tExecScenarioEnd retry s else s) with phase := .ended }
  | .notStarted => some { s with phase := .ended }

def countError (retry : ℕ) (s : Inst) : Inst :=
  if s.firstSceStat then { tExecScenarioEndKo retry s with firstSceStat := false, failed := true }
  else { s with failed := true }

def endOfAction (c : Conf) (actions : List RequestName) :
    Inst × ℤ × ℕ × End → Option Inst
  | (s, rc, retry, e) =>
      if rc ≠ 0 then
        if e = .notStarted then some { s with phase := .ended }
        else if c.tcAbortScenario then
          some { tUserFree (countError retry s) with phase := .ended }
        else leave actions (countError retry s) rc retry e
      else leave actions s rc retry e

/-- The outer loop takes the instance up again, with its own `first_sce_stat`. -/
def resume (actions : List RequestName) (s : Inst) : Option Inst :=
  let s := { s with phase := .running, firstSceStat := true }
  if s.requestId = .sceWait then next actions s else some { s with requestId := .ldapSearchResp }

def step (c : Conf) (actions : List RequestName) (s : Inst) (o : Outcome) : Option Inst :=
  match s.phase with
  | .running => (switch c s o).bind (endOfAction c actions)
  | .suspended => if o = .resume then resume actions s else none
  | _ => none

/-- What an unsent search leaves in the timer wheel: the context with the user and the action, and a
request that nobody answers. -/
def left (s : Inst) : Inst :=
  { s with phase := .suspended, firstSceStat := true, cnt := 0, ko := 0, timeout := 0, taken := [],
           freed := [], failed := false }

/-- The courses of an instance, each in a worker of its own: the one with the given number makes a
step. -/
def stepAll (c : Conf) (actions : List RequestName) (courses : List Inst) :
    ℕ × Outcome → Option (List Inst)
  | (i, o) => courses[i]?.bind fun s => (step c actions s o).map fun t =>
      match o with
      | .unsent _ _ => courses.set i t ++ [left s]
      | _ => courses.set i t

def start (requestId : RequestName) : Inst :=
  ⟨0, requestId, .running, none, true, 0, 0, 0, [], [], false⟩

def Inst.goTo (s : Inst) (r : RequestName) : Inst := { s with pos := s.pos + 1, requestId := r }

def Suspends (c : Conf) (s : Inst) : Outcome → Prop
  | .timer rc => rc = 0
  | .code rc _ => s.requestId = .ldapSearchRq ∧ c.tcLdapSessionPolicy = .global ∧ rc = 0
  | _ => False

inductive Move (c : Conf) (actions : List RequestName) (s : Inst) : Outcome → Inst → Prop
  | noUser (hp : s.phase = .running) (hr : s.requestId = .sceBegin) :
      Move c actions s (.user none) { s with user := none, phase := .ended }
  | gotUser (hp : s.phase = .running) (hr : s.requestId = .sceBegin) (u : ℕ) (r : RequestName)
      (hn : actions[s.pos + 1]? = some r) :
      Move c actions s (.user (some u)) ({ s with user := some u, taken := s.taken ++ [u] }.goTo r)
  | goesOn (hp : s.phase = .running) (hr : s.requestId ≠ .sceBegin)
      (he : s.requestId ≠ .sceEnd) (retry : ℕ)
      (hs : ¬ Suspends c s (.code 0 retry)) (r : RequestName)
      (hn : actions[s.pos + 1]? = some r) : Move c actions s (.code 0 retry) (s.goTo r)
  | fails (hp : s.phase = .running) (hr : s.requestId ≠ .sceBegin)
      (he : s.requestId ≠ .sceEnd) (ha : c.tcAbortScenario = false) (rc : ℤ) (hrc : rc ≠ 0)
      (retry : ℕ) (r : RequestName) (hn : actions[s.pos + 1]? = some r) (o : Outcome)
      (ho : o = .code rc retry ∨ o = .unsent rc retry) :
      Move c actions s o ((countError retry s).goTo r)
  | aborts (hp : s.phase = .running) (hr : s.requestId ≠ .sceBegin)
      (ha : c.tcAbortScenario = true) (o : Outcome) (rc : ℤ) (hrc : rc ≠ 0) (retry : ℕ)
      (ho : o = .timer rc ∨ o = .code rc retry ∨ o = .unsent rc retry) :
      Move c actions s o { tUserFree (countError retry s) with phase := .ended }
  | suspends (hp : s.phase = .running)
      (hr : s.requestId = .sceWait ∨ s.requestId = .ldapSearchRq) (o : Outcome)
      (ho : Suspends c s o) : Move c actions s o { s with phase := .suspended }
  | loses (hp : s.phase = .running) (hr : s.requestId ≠ .sceBegin)
      (ha : c.tcAbortScenario = false) (rc : ℤ) (hrc : rc ≠ 0) :
      Move c actions s (.timer rc) { countError 0 s with phase := .lost }
  | ends (hp : s.phase = .running) (hr : s.requestId ≠ .sceBegin) (o : Outcome)
      (ho : o = .finish ∨ o = .aborted) :
      Move c actions s o { (if s.firstSceStat then tExecScenarioEnd 0 (tUserFree s) else tUserFree s) with
        phase := .ended }
  | wakes (hp : s.phase = .suspended) (hr : s.requestId = .sceWait) (r : RequestName)
      (hn : actions[s.pos + 1]? = some r) :
      Move c actions s .resume ({ s with phase := .running, firstSceStat := true }.goTo r)
  | answered (hp : s.phase = .suspended) (hr : s.requestId ≠ .sceWait) :
      Move c actions s .resume
        { s with phase := .running, firstSceStat := true, requestId := .ldapSearchResp }

lemma next_eq_some {actions : List RequestName} {s t : Inst} (h : next actions s = some t) :
    ∃ r, actions[s.pos + 1]? = some r ∧ t = s.goTo r := by
  obtain ⟨r, hr, rfl⟩ := Option.map_eq_some_iff.mp h
  exact ⟨r, hr, rfl⟩

lemma countError_pos (retry : ℕ) (s : Inst) :
    (countError retry s).pos = s.pos ∧ (countError retry s).requestId = s.requestId := by
  unfold countError
  split_ifs <;> exact ⟨rfl, rfl⟩

section Inversion
variable {rc : ℤ} {retry : ℕ}

lemma code_move (hp : s.phase = .running) (hr : s.requestId ≠ .sceBegin)
    (he : s.requestId ≠ .sceEnd)
    (hs : ¬ Suspends c s (.code rc retry))
    (h : endOfAction c actions (s, rc, retry, .notReached) = some t) :
    Move c actions s (.code rc retry) t := by
  simp only [endOfAction, reduceCtorEq, if_false] at h
  split_ifs at h with hrc ha
  · cases h
    exact .aborts hp hr ha _ rc hrc retry (.inr (.inl rfl))
  · obtain ⟨r, hn, rfl⟩ := next_eq_some h
    rw [(countError_pos retry s).1] at hn
    exact .fails hp hr he (by simpa using ha) rc hrc retry r hn _ (.inl rfl)
  · obtain ⟨r, hn, rfl⟩ := next_eq_some h
    obtain rfl : rc = 0 := not_not.mp hrc
    exact .goesOn hp hr he retry hs r hn

lemma unsent_move (hp : s.phase = .running) (hr : s.requestId = .ldapSearchRq) (hrc : rc ≠ 0)
    (h : endOfAction c actions (s, rc, retry, .notReached) = some t) :
    Move c actions s (.unsent rc retry) t := by
  simp only [endOfAction, reduceCtorEq, if_false, if_pos hrc] at h
  split_ifs at h with ha
  · cases h
    exact .aborts hp (by simp [hr]) ha _ rc hrc retry (.inr (.inr rfl))
  · obtain ⟨r, hn, rfl⟩ := next_eq_some h
    rw [(countError_pos retry s).1] at hn
    exact .fails hp (by simp [hr]) (by simp [hr]) (by simpa using ha) rc hrc retry r hn _ (.inr rfl)

lemma timer_move (hp : s.phase = .running) (hr : s.requestId = .sceWait)
    (h : endOfAction c actions (s, rc, 0, .suspended) = some t) : Move c actions s (.timer rc) t := by
  simp only [endOfAction, reduceCtorEq, if_false] at h
  split_ifs at h with hrc ha
  · cases h
    exact .aborts hp (by simp [hr]) ha _ rc hrc 0 (.inl rfl)
  · simp only [leave, hrc, if_false, Option.some.injEq] at h
    cases h
    exact .loses hp (by simp [hr]) (by simpa using ha) rc hrc
  · have hzero : rc = 0 := not_not.mp hrc
    simp only [leave, hzero, if_true, Option.some.injEq] at h
    cases h
    exact .suspends hp (.inl hr) _ hzero

lemma end_move (hp : s.phase = .running) (hr : s.requestId ≠ .sceBegin)
    (ho : o = .finish ∨ o = .aborted)
    (h : endOfAction c actions (tUserFree s, 0, 0, .reached) = some t) : Move c actions s o t := by
  simp only [endOfAction, ne_eq, not_true_eq_false, if_false, leave, Option.some.injEq] at h
  cases h
  exact .ends hp hr o ho

lemma switch_code_move {r : Inst × ℤ × ℕ × End} (hp : s.phase = .running)
    (hsw : switch c s (.code rc retry) = some r) (hend : endOfAction c actions r = some t) :
    Move c actions s (.code rc retry) t := by
  have hr : s.requestId ≠ .sceBegin := by
    intro hr
    simp [switch, hr, hasCode, isRadius] at hsw
  have he : s.requestId ≠ .sceEnd := by
    intro he
    simp [switch, he, hasCode, isRadius] at hsw
  simp only [switch] at hsw
  split_ifs at hsw with hcode hasync hunknown
  · cases hsw
    cases hend
    exact .suspends hp (.inr hasync.1) _ hasync
  · cases hsw
    exact code_move hp hr he hasync hend
  · cases hsw
    obtain ⟨_, rfl, rfl⟩ := hunknown
    refine code_move hp hr he (fun hs => hcode ?_) hend
    rw [hs.1]
    rfl

lemma running_move {r : Inst × ℤ × ℕ × End} (hp : s.phase = .running)
    (hsw : switch c s o = some r) (hend : endOfAction c actions r = some t) : Move c actions s o t := by
  cases o with
  | user u =>
    cases u with
    | none =>
      simp only [switch, Option.ite_none_right_eq_some, Option.some.injEq] at hsw
      obtain ⟨hr, rfl⟩ := hsw
      cases hend
      exact .noUser hp hr
    | some u =>
      simp only [switch, Option.ite_none_right_eq_some, Option.some.injEq] at hsw
      obtain ⟨hr, rfl⟩ := hsw
      obtain ⟨r, hn, rfl⟩ := next_eq_some (show next actions _ = some t from hend)
      exact .gotUser hp hr u r hn
  | timer rc =>
    simp only [switch, Option.ite_none_right_eq_some, Option.some.injEq] at hsw
    obtain ⟨hr, rfl⟩ := hsw
    exact timer_move hp hr hend
  | code rc retry => exact switch_code_move hp hsw hend
  | unsent rc retry =>
    simp only [switch, Option.ite_none_right_eq_some, Option.some.injEq] at hsw
    obtain ⟨⟨hr, -, hrc⟩, rfl⟩ := hsw
    exact unsent_move hp hr hrc hend
  | aborted =>
    simp only [switch, Option.ite_none_right_eq_some, Option.some.injEq] at hsw
    obtain ⟨hr, rfl⟩ := hsw
    exact end_move hp (by rintro hb; simp [hb, isRadius] at hr) (.inr rfl) hend
  | finish =>
    simp only [switch, Option.ite_none_right_eq_some, Option.some.injEq] at hsw
    obtain ⟨hr, rfl⟩ := hsw
    exact end_move hp (by simp [hr]) (.inl rfl) hend
  | resume => simp [switch] at hsw

lemma step_move (h : step c actions s o = some t) : Move c actions s o t := by
  unfold step at h
  cases hp : s.phase with
  | running =>
    simp only [hp] at h
    obtain ⟨r, hsw, hend⟩ := Option.bind_eq_some_iff.mp h
    exact running_move hp hsw hend
  | suspended =>
    simp only [hp, Option.ite_none_right_eq_some, resume] at h
    obtain ⟨rfl, h⟩ := h
    split_ifs at h with hwait
    · obtain ⟨r, hn, rfl⟩ := next_eq_some h
      exact .wakes hp hwait r hn
    · cases h
      exact .answered hp hwait
  | ended => simp [hp] at h
  | lost => simp [hp] at h

lemma unsent_of_step {rc : ℤ} {retry : ℕ} (h : step c actions s (.unsent rc retry) = some t) :
    s.phase = .running ∧ s.requestId = .ldapSearchRq ∧ c.tcLdapSessionPolicy = .global := by
  unfold step at h
  cases hp : s.phase with
  | running =>
    simp only [hp] at h
    obtain ⟨r, hsw, -⟩ := Option.bind_eq_some_iff.mp h
    simp only [switch, Option.ite_none_right_eq_some] at hsw
    exact ⟨rfl, hsw.1.1, hsw.1.2.1⟩
  | suspended | ended | lost => simp [hp] at h

end Inversion

/-- A course is over and has accounted for the instance: counted once, as KO exactly if an action failed,
and its one user released once. -/
def AccountedAlone (s : Inst) : Prop :=
  s.phase = .ended ∧ s.cnt = 1 ∧ s.ko = s.failed.toNat ∧ ∃ u, s.taken = [u] ∧ s.freed = [u]

/-- No second `SCE_Begin`, no suspension after a failed action, no `SCE_Wait` that fails while errors do
not abort the scenario, and no unsent search with its context left in the timer wheel. -/
def AdmissibleIn (c : Conf) (s : Inst) : Outcome → Prop
  | .user _ => s.taken = []
  | .timer rc => if rc = 0 then s.failed = false else c.tcAbortScenario = true
  | .code rc retry => Suspends c s (.code rc retry) → s.failed = false
  | .unsent _ _ => False
  | _ => True

def Good (s : Inst) : Prop :=
  match s.phase with
  | .running => s.freed = [] ∧ s.taken = s.user.toList ∧ s.cnt = s.failed.toNat ∧
      s.ko = s.failed.toNat ∧ s.firstSceStat = !s.failed
  | .suspended => s.freed = [] ∧ s.taken = s.user.toList ∧ s.cnt = 0 ∧ s.ko = 0 ∧ s.failed = false
  | .ended => s.taken ≠ [] → AccountedAlone s
  | .lost => False

section Steps
variable {c : Conf} {actions : List RequestName} {s t : Inst} {o : Outcome}

lemma countError_good (hp : s.phase = .running) (hs : Good s) (retry : ℕ) :
    (countError retry s).freed = [] ∧ (countError retry s).taken = s.user.toList ∧
      (countError retry s).cnt = 1 ∧ (countError retry s).ko = 1 ∧
      (countError retry s).failed = true ∧ (countError retry s).firstSceStat = false ∧
      (countError retry s).user = s.user ∧ (countError retry s).phase = .running := by
  simp only [Good, hp] at hs
  obtain ⟨hfreed, htaken, hcnt, hko, hfirst⟩ := hs
  cases hf : s.failed <;>
    simp_all [countError, tExecScenarioEndKo, tExecScenarioEnd]

lemma exists_user {user : Option ℕ} (h : user.toList ≠ []) : ∃ u, user = some u := by
  cases user with
  | none => exact absurd rfl h
  | some u => exact ⟨u, rfl⟩

lemma failed_of_suspends (ha : AdmissibleIn c s o) (ho : Suspends c s o) : s.failed = false := by
  cases o with
  | timer rc =>
    have hrc : rc = 0 := ho
    simpa [AdmissibleIn, hrc] using ha
  | code rc retry => exact ha ho
  | user | unsent | aborted | finish | resume => exact ho.elim

lemma Good.aborts (hp : s.phase = .running) (hs : Good s) (retry : ℕ) :
    Good { tUserFree (countError retry s) with phase := .ended } := by
  obtain ⟨h1, h2, h3, h4, h5, _, h7, _⟩ := countError_good hp hs retry
  intro htaken
  simp only [tUserFree, h2] at htaken
  obtain ⟨u, hu⟩ := exists_user htaken
  exact ⟨rfl, h3, by simp [tUserFree, h4, h5], u, by simp [tUserFree, h2, hu],
    by simp [tUserFree, h1, h7, hu]⟩

lemma Good.ends (hp : s.phase = .running) (hs : Good s) :
    Good { (if s.firstSceStat then tExecScenarioEnd 0 (tUserFree s) else tUserFree s) with
      phase := .ended } := by
  simp only [Good, hp] at hs
  obtain ⟨hfreed, htaken, hcnt, hko, hfirst⟩ := hs
  -- the scenario is counted here, or it was counted when it failed
  have hsplit : (if s.firstSceStat then tExecScenarioEnd 0 (tUserFree s) else tUserFree s) =
      { tUserFree s with cnt := 1 } := by
    cases hf : s.failed <;> simp_all [tExecScenarioEnd, tUserFree]
  rw [hsplit]
  intro hne
  obtain ⟨u, hu⟩ := exists_user (htaken ▸ hne : s.user.toList ≠ [])
  exact ⟨rfl, rfl, hko, u, by simp [tUserFree, htaken, hu], by simp [tUserFree, hfreed, hu]⟩

lemma move_good (hs : Good s) (ha : AdmissibleIn c s o)
    (hm : Move c actions s o t) : Good t := by
  cases hm with
  | noUser hp hr => exact fun ht => absurd ha ht
  | gotUser hp hr u r _ =>
    have htaken : s.taken = [] := ha
    simp only [Good, hp] at hs
    simp only [Good, Inst.goTo, hp]
    exact ⟨hs.1, by simp [htaken], hs.2.2⟩
  | goesOn hp hr _ retry _ r _ => simpa only [Good, Inst.goTo, hp] using hs
  | fails hp hr _ _ rc hrc retry r _ _ _ =>
    obtain ⟨h1, h2, h3, h4, h5, h6, h7, h8⟩ := countError_good hp hs retry
    simp only [Good, Inst.goTo, h8]
    exact ⟨h1, by rw [h2, h7], by rw [h3, h5]; rfl, by rw [h4, h5]; rfl, by rw [h6, h5]; rfl⟩
  | aborts hp hr _ o rc hrc retry _ => exact Good.aborts hp hs retry
  | suspends hp hr o ho =>
    have hfailed := failed_of_suspends ha ho
    simp only [Good, hp, hfailed] at hs
    exact ⟨hs.1, hs.2.1, hs.2.2.1, hs.2.2.2.1, hfailed⟩
  | loses hp hr hb rc hrc => simp [AdmissibleIn, hrc, hb] at ha
  | ends hp hr o _ => exact Good.ends hp hs
  | wakes hp _ r _ =>
    simp only [Good, hp] at hs
    obtain ⟨hfreed, htaken, hcnt, hko, hfailed⟩ := hs
    exact ⟨hfreed, htaken, by simp [hcnt, hfailed, Inst.goTo], by simp [hko, hfailed, Inst.goTo],
      by simp [hfailed, Inst.goTo]⟩
  | answered hp _ =>
    simp only [Good, hp] at hs
    obtain ⟨hfreed, htaken, hcnt, hko, hfailed⟩ := hs
    exact ⟨hfreed, htaken, by simp [hcnt, hfailed], by simp [hko, hfailed], by simp [hfailed]⟩

structure Basic (s : Inst) : Prop where
  counted : s.failed = true ∨ s.firstSceStat = false → 1 ≤ s.cnt
  live_freed : s.phase ≠ .ended → s.freed = []
  freed_le : s.freed.length ≤ 1
  started : s.taken = [] → s.phase = .ended ∨ s.phase = .running ∧ s.requestId = .sceBegin
  failed_taken : s.failed = true → s.taken ≠ []

/-- A mistake that no later step repairs: a second user, a second count, an instance in no list, an
end without the release of its user, or a failure already counted before the counting starts anew. -/
def Miscounted (s : Inst) : Prop :=
  2 ≤ s.taken.length ∨ 2 ≤ s.cnt ∨ s.phase = .lost ∨ (s.phase = .ended ∧ s.freed ≠ s.taken) ∨
    (s.phase ≠ .ended ∧ s.failed = true ∧ (s.phase = .running → s.firstSceStat = true))

lemma countError_basic (hs : Basic s) (retry : ℕ) :
    1 ≤ (countError retry s).cnt ∧ s.cnt ≤ (countError retry s).cnt ∧
      (s.firstSceStat = true → (countError retry s).cnt = s.cnt + 1) ∧
      (countError retry s).freed = s.freed ∧ (countError retry s).taken = s.taken ∧
      (countError retry s).phase = s.phase ∧ (countError retry s).user = s.user := by
  cases hf : s.firstSceStat with
  | true => simp [countError, hf, tExecScenarioEndKo, tExecScenarioEnd]
  | false => simp [countError, hf, hs.counted (.inr hf)]

lemma Basic.taken_ne (hs : Basic s) (hp : s.phase = .running)
    (hr : s.requestId ≠ .sceBegin) : s.taken ≠ [] := by
  intro ht
  rcases hs.started ht with he | hb
  · simp [hp] at he
  · exact hr hb.2

lemma Basic.taken_ne_suspended (hs : Basic s) (hp : s.phase = .suspended) :
    s.taken ≠ [] := by
  intro ht
  rcases hs.started ht with he | hb
  · simp [hp] at he
  · simp [hp] at hb

lemma Basic.countError (hs : Basic s) (hp : s.phase = .running) (hr : s.requestId ≠ .sceBegin)
    (retry : ℕ) : 1 ≤ (countError retry s).cnt ∧ (countError retry s).freed = [] ∧
      (countError retry s).taken ≠ [] := by
  obtain ⟨hone, _, _, hfreed, htaken, _⟩ := countError_basic hs retry
  refine ⟨hone, hfreed.trans (hs.live_freed (by simp [hp])), ?_⟩
  rw [htaken]
  exact hs.taken_ne hp hr

lemma tUserFree_freed_le (h : s.freed = []) : (tUserFree s).freed.length ≤ 1 := by
  cases hu : s.user <;> simp [tUserFree, h, hu]

lemma move_basic (hs : Basic s) (hm : Move c actions s o t) :
    Basic t := by
  cases hm with
  | noUser hp hr => exact ⟨hs.counted, fun h => absurd rfl h, hs.freed_le, fun _ => .inl rfl,
      hs.failed_taken⟩
  | gotUser hp hr u r _ =>
    exact ⟨hs.counted, hs.live_freed, hs.freed_le, fun h => absurd h (by simp [Inst.goTo]),
      fun _ => by simp [Inst.goTo]⟩
  | goesOn hp hr _ retry _ r _ =>
    exact ⟨hs.counted, hs.live_freed, hs.freed_le, fun h => absurd h (hs.taken_ne hp hr),
      hs.failed_taken⟩
  | fails hp hr _ _ rc hrc retry r _ _ _ =>
    obtain ⟨hone, hnil, hne⟩ := hs.countError hp hr retry
    exact ⟨fun _ => hone, fun _ => hnil, by simp [Inst.goTo, hnil], fun h => absurd h hne,
      fun _ => hne⟩
  | aborts hp hr _ o rc hrc retry _ =>
    obtain ⟨hone, hnil, hne⟩ := hs.countError hp hr retry
    exact ⟨fun _ => hone, fun h => absurd rfl h, tUserFree_freed_le hnil, fun _ => .inl rfl,
      fun _ => hne⟩
  | suspends hp hr o _ =>
    have hne := hs.taken_ne hp (by rcases hr with hr | hr <;> simp [hr])
    exact ⟨hs.counted, fun _ => hs.live_freed (by simp [hp]), hs.freed_le, fun h => absurd h hne,
      hs.failed_taken⟩
  | loses hp hr _ rc hrc =>
    obtain ⟨hone, hnil, hne⟩ := hs.countError hp hr 0
    exact ⟨fun _ => hone, fun _ => hnil, by simp [hnil], fun h => absurd h hne, fun _ => hne⟩
  | ends hp hr o _ =>
    have hfree := tUserFree_freed_le (hs.live_freed (by simp [hp]))
    cases hf : s.firstSceStat with
    | true =>
      exact ⟨fun _ => Nat.le_add_left 1 s.cnt, fun h => absurd rfl h, hfree, fun _ => .inl rfl,
        hs.failed_taken⟩
    | false =>
      exact ⟨fun _ => hs.counted (.inr hf), fun h => absurd rfl h, hfree, fun _ => .inl rfl,
        hs.failed_taken⟩
  | wakes hp _ r _ =>
    refine ⟨fun h => hs.counted (.inl ?_), fun _ => hs.live_freed (by simp [hp]), hs.freed_le,
      fun h => absurd h (hs.taken_ne_suspended hp), hs.failed_taken⟩
    simpa [Inst.goTo] using h
  | answered hp _ =>
    refine ⟨fun h => hs.counted (.inl ?_), fun _ => hs.live_freed (by simp [hp]), hs.freed_le,
      fun h => absurd h (hs.taken_ne_suspended hp), hs.failed_taken⟩
    simpa using h

lemma move_grows (hs : Basic s) (hm : Move c actions s o t) :
    s.taken.length ≤ t.taken.length ∧ s.cnt ≤ t.cnt ∧ s.phase ≠ .ended ∧ s.phase ≠ .lost := by
  cases hm with
  | noUser hp hr => simp [hp]
  | gotUser hp hr u r _ => simp [hp, Inst.goTo]
  | goesOn hp hr _ retry _ r _ => simp [hp, Inst.goTo]
  | fails hp hr _ _ rc hrc retry r _ _ _ =>
    obtain ⟨_, hcnt, _, _, htaken, _⟩ := countError_basic hs retry
    simp [hp, Inst.goTo, htaken, hcnt]
  | aborts hp hr _ o rc hrc retry _ =>
    obtain ⟨_, hcnt, _, _, htaken, _⟩ := countError_basic hs retry
    simp [hp, tUserFree, htaken, hcnt]
  | suspends hp hr o _ => simp [hp]
  | loses hp hr _ rc hrc =>
    obtain ⟨_, hcnt, _, _, htaken, _⟩ := countError_basic hs 0
    simp [hp, htaken, hcnt]
  | ends hp hr o _ => cases hf : s.firstSceStat <;> simp [hp, tExecScenarioEnd, tUserFree]
  | wakes hp _ r _ => simp [hp, Inst.goTo]
  | answered hp _ => simp [hp]

lemma move_miscounted (hs : Basic s) (hb : Miscounted s)
    (hm : Move c actions s o t) : Miscounted t := by
  obtain ⟨hlen, hcnt, hended, hlost⟩ := move_grows hs hm
  rcases hb with h | h | h | h | ⟨_, hfailed, hfirst⟩
  · exact .inl (h.trans hlen)
  · exact .inr (.inl (h.trans hcnt))
  · exact absurd h hlost
  · exact absurd h.1 hended
  have hone := hs.counted (.inl hfailed)
  cases hm with
  | noUser hp hr =>
    have hfreed := hs.live_freed hended
    exact .inr (.inr (.inr (.inl ⟨rfl, fun h => hs.failed_taken hfailed (h.symm.trans hfreed)⟩)))
  | gotUser hp hr u r _ => exact .inr (.inr (.inr (.inr ⟨hended, hfailed, hfirst⟩)))
  | goesOn hp hr _ retry _ r _ => exact .inr (.inr (.inr (.inr ⟨hended, hfailed, hfirst⟩)))
  | fails hp hr _ _ rc hrc retry r _ _ _ =>
    have hinc := (countError_basic hs retry).2.2.1 (hfirst hp)
    exact .inr (.inl (by simp only [Inst.goTo, hinc]; omega))
  | aborts hp hr _ o rc hrc retry _ =>
    have hinc := (countError_basic hs retry).2.2.1 (hfirst hp)
    exact .inr (.inl (by simp only [tUserFree, hinc]; omega))
  | suspends hp hr o _ => exact .inr (.inr (.inr (.inr ⟨by simp, hfailed, by simp⟩)))
  | loses hp hr _ rc hrc => exact .inr (.inr (.inl rfl))
  | ends hp hr o _ =>
    rw [if_pos (hfirst hp)]
    exact .inr (.inl (by simp only [tExecScenarioEnd, tUserFree]; omega))
  | wakes hp _ r _ => exact .inr (.inr (.inr (.inr ⟨by simp [Inst.goTo], hfailed, fun _ => rfl⟩)))
  | answered hp _ => exact .inr (.inr (.inr (.inr ⟨by simp, hfailed, fun _ => rfl⟩)))

lemma inadmissible_miscounted (hs : Basic s) (hsent : ∀ rc retry, o ≠ .unsent rc retry)
    (ha : ¬ AdmissibleIn c s o) (hm : Move c actions s o t) : Miscounted t := by
  cases hm with
  | noUser hp hr =>
    have hfreed := hs.live_freed (by simp [hp])
    exact .inr (.inr (.inr (.inl ⟨rfl, fun h => ha (h.symm.trans hfreed)⟩)))
  | gotUser hp hr u r _ =>
    have hpos := List.length_pos_iff.mpr ha
    left
    simp only [Inst.goTo, List.length_append, List.length_singleton]
    omega
  | goesOn hp hr _ retry hns r _ => exact absurd (fun h => absurd h hns) ha
  | fails hp hr _ _ rc hrc retry r _ o ho =>
    rcases ho with rfl | rfl
    · exact absurd (fun h => absurd h.2.2 hrc) ha
    · exact absurd rfl (hsent rc retry)
  | aborts hp hr hb o rc hrc retry ho =>
    rcases ho with rfl | rfl | rfl
    · exact absurd (by simp [AdmissibleIn, hrc, hb]) ha
    · exact absurd (fun h => absurd h.2.2 hrc) ha
    · exact absurd rfl (hsent rc retry)
  | suspends hp hr o ho =>
    have hfailed : s.failed = true := by
      cases o with
      | timer rc =>
        have hrc : rc = 0 := ho
        simpa [AdmissibleIn, hrc] using ha
      | code rc retry => simpa [AdmissibleIn, ho] using ha
      | user | unsent | aborted | finish | resume => exact ho.elim
    exact .inr (.inr (.inr (.inr ⟨by simp, hfailed, by simp⟩)))
  | loses hp hr _ rc hrc => exact .inr (.inr (.inl rfl))
  | ends hp hr o ho => rcases ho with rfl | rfl <;> exact absurd trivial ha
  | wakes hp _ r _ => exact absurd trivial ha
  | answered hp _ => exact absurd trivial ha

lemma Miscounted.not_accountedAlone (hb : Miscounted s) : ¬ AccountedAlone s := by
  rintro ⟨hp, hcnt, _, u, htaken, hfreed⟩
  rcases hb with h | h | h | h | h
  · simp [htaken] at h
  · omega
  · simp [hp] at h
  · exact h.2 (hfreed.trans htaken.symm)
  · exact h.1 hp

/-- The action pointer has not passed the first `SCE_End`, at `e`, and the request is the one under
the pointer, or the result of the search there. -/
def InRange (actions : List RequestName) (e : ℕ) (s : Inst) : Prop :=
  (s.phase = .running ∨ s.phase = .suspended →
    (s.pos ≤ e ∧ actions[s.pos]? = some s.requestId) ∨
      (s.pos < e ∧ s.requestId = .ldapSearchResp)) ∧
  (s.phase = .suspended → s.requestId = .sceWait ∨ s.requestId = .ldapSearchRq)

lemma InRange.lt {e : ℕ} (hs : InRange actions e s) (he : actions[e]? = some .sceEnd)
    (hp : s.phase = .running ∨ s.phase = .suspended) (hr : s.requestId ≠ .sceEnd) : s.pos < e := by
  rcases hs.1 hp with ⟨hle, hget⟩ | ⟨hlt, _⟩
  · refine lt_of_le_of_ne hle fun heq => hr ?_
    rw [heq, he] at hget
    exact (Option.some_inj.mp hget).symm
  · exact hlt

lemma goTo_inRange {e : ℕ} {r : RequestName} (hp : s.phase = .running) (hlt : s.pos < e)
    (hn : actions[s.pos + 1]? = some r) : InRange actions e (s.goTo r) :=
  ⟨fun _ => .inl ⟨hlt, hn⟩, fun h => absurd (hp.symm.trans h) (by simp)⟩

lemma over_inRange {e : ℕ} (h : t.phase = .ended ∨ t.phase = .lost) : InRange actions e t := by
  refine ⟨fun hp => ?_, fun hp => ?_⟩ <;> rcases h with h | h <;> simp [h] at hp

lemma move_inRange {e : ℕ} (hs : InRange actions e s) (he : actions[e]? = some .sceEnd)
    (hm : Move c actions s o t) : InRange actions e t := by
  cases hm with
  | noUser hp hr => exact over_inRange (.inl rfl)
  | gotUser hp hr u r hn => exact goTo_inRange hp (hs.lt he (.inl hp) (by simp [hr])) hn
  | goesOn hp _ hr retry _ r hn => exact goTo_inRange hp (hs.lt he (.inl hp) hr) hn
  | fails hp _ hr _ rc hrc retry r hn _ _ =>
    have hphase : (countError retry s).phase = .running := by
      unfold countError
      split_ifs <;> exact hp
    rw [← (countError_pos retry s).1] at hn
    refine goTo_inRange hphase ?_ hn
    rw [(countError_pos retry s).1]
    exact hs.lt he (.inl hp) hr
  | aborts hp hr _ o rc hrc retry _ => exact over_inRange (.inl rfl)
  | suspends hp hr o _ => exact ⟨fun _ => hs.1 (.inl hp), fun _ => hr⟩
  | loses hp hr _ rc hrc => exact over_inRange (.inr rfl)
  | ends hp hr o _ => exact over_inRange (.inl rfl)
  | wakes hp hr r hn =>
    exact goTo_inRange (s := { s with phase := .running, firstSceStat := true }) rfl
      (hs.lt he (.inr hp) (by simp [hr])) hn
  | answered hp hr =>
    have hrq := (hs.2 hp).resolve_left hr
    exact ⟨fun _ => .inr ⟨hs.lt he (.inr hp) (by simp [hrq]), rfl⟩, by simp⟩

end Steps

lemma start_basic : Basic (start .sceBegin) :=
  ⟨by simp [start], by simp [start], by simp [start], by simp [start], by simp [start]⟩

lemma start_good (r : RequestName) : Good (start r) := by simp [Good, start]

/-- All courses of the instance are over, and it was accounted for. -/
def Accounted (courses : List Inst) : Prop :=
  (∀ s ∈ courses, s.phase = .ended) ∧ (courses.map Inst.cnt).sum = 1 ∧
    (courses.map Inst.ko).sum = (courses.any Inst.failed).toNat ∧
    ∃ u, courses.flatMap Inst.taken = [u] ∧ courses.flatMap Inst.freed = [u]

def Admissible (c : Conf) (courses : List Inst) (e : ℕ × Outcome) : Prop :=
  ∀ s, courses[e.1]? = some s → AdmissibleIn c s e.2

lemma accounted_singleton {s : Inst} : Accounted [s] ↔ AccountedAlone s := by
  simp [Accounted, AccountedAlone]

section Courses
variable {c : Conf} {actions : List RequestName} {courses courses' : List Inst} {s t : Inst} {i : ℕ}
  {o : Outcome}

lemma stepAll_cases (h : stepAll c actions courses (i, o) = some courses') :
    ∃ s t, courses[i]? = some s ∧ step c actions s o = some t ∧
      ((∃ rc retry, o = .unsent rc retry) ∧ courses' = courses.set i t ++ [left s] ∨
        (∀ rc retry, o ≠ .unsent rc retry) ∧ courses' = courses.set i t) := by
  obtain ⟨s, hs, h⟩ := Option.bind_eq_some_iff.mp h
  obtain ⟨t, ht, rfl⟩ := Option.map_eq_some_iff.mp h
  refine ⟨s, t, hs, ht, ?_⟩
  cases o with
  | unsent rc retry => exact .inl ⟨⟨rc, retry, rfl⟩, rfl⟩
  | user | timer | code | aborted | finish | resume =>
    exact .inr ⟨fun _ _ h => Outcome.noConfusion h, rfl⟩

lemma stepAll_forall {P : Inst → Prop} (hstep : ∀ s t, P s → step c actions s o = some t → P t)
    (hleft : ∀ s t rc retry, P s → step c actions s (.unsent rc retry) = some t → P (left s))
    (hall : ∀ s ∈ courses, P s) (h : stepAll c actions courses (i, o) = some courses') :
    ∀ s ∈ courses', P s := by
  obtain ⟨s, t, hs, ht, hcases⟩ := stepAll_cases h
  have hP := hall s (List.mem_of_getElem? hs)
  have hset : ∀ x ∈ courses.set i t, P x := by
    intro x hx
    rcases List.mem_or_eq_of_mem_set hx with hx | rfl
    · exact hall x hx
    · exact hstep s x hP ht
  rcases hcases with ⟨⟨rc, retry, rfl⟩, rfl⟩ | ⟨-, rfl⟩
  · intro x hx
    rcases List.mem_append.mp hx with hx | hx
    · exact hset x hx
    · obtain rfl := List.mem_singleton.mp hx
      exact hleft s t rc retry hP ht
  · exact hset

lemma getElem?_singleton (h : [s][i]? = some t) : i = 0 ∧ t = s := by
  cases i with
  | zero => exact ⟨rfl, (Option.some.inj h).symm⟩
  | succ i => cases h

structure Counts (s : Inst) : Prop where
  counted : s.failed = true ∨ s.firstSceStat = false → 1 ≤ s.cnt
  finished : s.phase = .ended ∨ s.phase = .lost → 1 ≤ s.cnt
  begun : s.requestId ≠ .sceBegin

lemma one_le_countError (h : s.failed = true ∨ s.firstSceStat = false → 1 ≤ s.cnt) (retry : ℕ) :
    1 ≤ (countError retry s).cnt := by
  cases hf : s.firstSceStat with
  | true => simp [countError, hf, tExecScenarioEndKo, tExecScenarioEnd]
  | false => simpa [countError, hf] using h (.inr hf)

lemma move_counts {rest : List RequestName} (hrest : .sceBegin ∉ rest) (hs : Counts s)
    (hm : Move c (.sceBegin :: rest) s o t) : Counts t := by
  have hnext : ∀ {k r}, (RequestName.sceBegin :: rest)[k + 1]? = some r → r ≠ .sceBegin := by
    rintro k r hr rfl
    exact hrest (List.mem_of_getElem? hr)
  cases hm with
  | noUser hp hr => exact absurd hr hs.begun
  | gotUser hp hr u r _ => exact absurd hr hs.begun
  | goesOn hp hr _ retry _ r hn =>
    exact ⟨hs.counted, fun h => by simp [Inst.goTo, hp] at h, hnext hn⟩
  | fails hp hr _ _ rc hrc retry r hn o _ =>
    have hone := one_le_countError hs.counted retry
    exact ⟨fun _ => hone, fun _ => hone, hnext hn⟩
  | aborts hp hr _ o rc hrc retry _ =>
    have hone := one_le_countError hs.counted retry
    refine ⟨fun _ => hone, fun _ => hone, ?_⟩
    simpa [tUserFree, (countError_pos retry s).2] using hr
  | suspends hp hr o _ => exact ⟨hs.counted, fun h => by simp at h, hs.begun⟩
  | loses hp hr _ rc hrc =>
    have hone := one_le_countError hs.counted 0
    refine ⟨fun _ => hone, fun _ => hone, ?_⟩
    simpa [(countError_pos 0 s).2] using hr
  | ends hp hr o _ =>
    cases hf : s.firstSceStat with
    | true => exact ⟨fun _ => Nat.le_add_left 1 s.cnt, fun _ => Nat.le_add_left 1 s.cnt, hr⟩
    | false =>
      have hone := hs.counted (.inr hf)
      exact ⟨fun _ => hone, fun _ => hone, hr⟩
  | wakes hp hr r hn =>
    exact ⟨fun h => hs.counted (.inl (by simpa [Inst.goTo] using h)),
      fun h => by simp [Inst.goTo] at h, hnext hn⟩
  | answered hp hr =>
    exact ⟨fun h => hs.counted (.inl (by simpa using h)), fun h => by simp at h, by simp⟩

structure Several (c : Conf) (courses : List Inst) : Prop where
  policy : c.tcLdapSessionPolicy = .global
  two : 2 ≤ courses.length
  counts : ∀ s ∈ courses, Counts s

lemma left_counts {rc : ℤ} {retry : ℕ} (h : step c actions s (.unsent rc retry) = some t) :
    Counts (left s) := by
  obtain ⟨-, hr, -⟩ := unsent_of_step h
  exact ⟨by simp [left], by simp [left], by simp [left, hr]⟩

lemma Several.not_accounted (h : Several c courses)
    (hover : ∀ s ∈ courses, s.phase = .ended ∨ s.phase = .lost) : ¬ Accounted courses := by
  rintro ⟨-, hcnt, -⟩
  have hsum : (courses.map Inst.cnt).length ≤ (courses.map Inst.cnt).sum := by
    refine List.length_le_sum_of_one_le _ fun n hn => ?_
    obtain ⟨s, hs, rfl⟩ := List.mem_map.mp hn
    exact (h.counts s hs).finished (hover s hs)
  rw [hcnt, List.length_map] at hsum
  have htwo := h.two
  omega

section Necessity
variable {rest : List RequestName}

lemma stepAll_several (hrest : c.tcLdapSessionPolicy = .global → .sceBegin ∉ rest)
    (hs : Several c courses)
    (h : stepAll c (.sceBegin :: rest) courses (i, o) = some courses') : Several c courses' := by
  refine ⟨hs.policy, ?_, stepAll_forall (fun s t hP ht => move_counts (hrest hs.policy) hP (step_move ht))
    (fun _ _ _ _ _ ht => left_counts ht) hs.counts h⟩
  have htwo := hs.two
  obtain ⟨s, t, -, -, ⟨-, rfl⟩ | ⟨-, rfl⟩⟩ := stepAll_cases h
  · rw [List.length_append, List.length_set, List.length_singleton]
    omega
  · rwa [List.length_set]

lemma stepAll_single (hrest : c.tcLdapSessionPolicy = .global → .sceBegin ∉ rest) (hs : Basic s)
    (h : stepAll c (.sceBegin :: rest) [s] (i, o) = some courses') :
    (∃ t, courses' = [t] ∧ Move c (.sceBegin :: rest) s o t ∧ (∀ rc retry, o ≠ .unsent rc retry) ∧
      i = 0) ∨ Several c courses' := by
  obtain ⟨s', t, hget, ht, hcases⟩ := stepAll_cases h
  obtain ⟨rfl, rfl⟩ := getElem?_singleton hget
  rcases hcases with ⟨⟨rc, retry, rfl⟩, rfl⟩ | ⟨hsent, rfl⟩
  · right
    obtain ⟨hp, hr, hpolicy⟩ := unsent_of_step ht
    have hcounts : Counts s' := ⟨hs.counted, by simp [hp], by simp [hr]⟩
    refine ⟨hpolicy, le_rfl, fun x hx => ?_⟩
    rcases List.mem_cons.mp hx with rfl | hx
    · exact move_counts (hrest hpolicy) hcounts (step_move ht)
    · obtain rfl := List.mem_singleton.mp hx
      exact left_counts ht
  · exact .inl ⟨t, rfl, step_move ht, hsent, rfl⟩

/-- What is so far in order, and what no later step repairs. -/
def Regular (c : Conf) (courses : List Inst) : Prop :=
  (∃ s, courses = [s] ∧ Basic s) ∨ Several c courses

def Spoilt (c : Conf) (courses : List Inst) : Prop :=
  (∃ s, courses = [s] ∧ Miscounted s) ∨ Several c courses

lemma guarded_or_spoilt (hrest : c.tcLdapSessionPolicy = .global → .sceBegin ∉ rest)
    {es : List (ℕ × Outcome)}
    (hrun : run (stepAll c (.sceBegin :: rest)) [start .sceBegin] es = some courses) :
    Guarded (stepAll c (.sceBegin :: rest)) (Admissible c) [start .sceBegin] es ∨ Spoilt c courses := by
  refine guarded_or_persistent (I := Regular c) (B := Spoilt c) ?_ ?_ ?_
    (.inl ⟨_, rfl, start_basic⟩) hrun
  · rintro cs ⟨i, o⟩ cs' (⟨s, rfl, hs⟩ | hs) h
    · rcases stepAll_single hrest hs h with ⟨t, rfl, hm, -⟩ | hsev
      · exact .inl ⟨t, rfl, move_basic hs hm⟩
      · exact .inr hsev
    · exact .inr (stepAll_several hrest hs h)
  · rintro cs ⟨i, o⟩ cs' (⟨s, rfl, hs⟩ | hs) hb h
    · rcases stepAll_single hrest hs h with ⟨t, rfl, hm, -⟩ | hsev
      · rcases hb with ⟨s', hcs, hmis⟩ | hsev
        · cases hcs
          exact .inl ⟨t, rfl, move_miscounted hs hmis hm⟩
        · exact absurd hsev.two (by simp)
      · exact .inr hsev
    · exact .inr (stepAll_several hrest hs h)
  · rintro cs ⟨i, o⟩ cs' (⟨s, rfl, hs⟩ | hs) ha h
    · rcases stepAll_single hrest hs h with ⟨t, rfl, hm, hsent, rfl⟩ | hsev
      · refine .inl ⟨t, rfl, inadmissible_miscounted hs hsent (fun hadm => ha ?_) hm⟩
        intro s' hs'
        obtain ⟨-, rfl⟩ := getElem?_singleton hs'
        exact hadm
      · exact .inr hsev
    · exact .inr (stepAll_several hrest hs h)

end Necessity

lemma stepAll_good (hs : ∃ s, courses = [s] ∧ Good s) (ha : Admissible c courses (i, o))
    (h : stepAll c actions courses (i, o) = some courses') : ∃ s, courses' = [s] ∧ Good s := by
  obtain ⟨s, rfl, hs⟩ := hs
  obtain ⟨s', t, hget, ht, hcases⟩ := stepAll_cases h
  have hadm : AdmissibleIn c s' o := ha s' hget
  obtain ⟨rfl, rfl⟩ := getElem?_singleton hget
  rcases hcases with ⟨⟨rc, retry, rfl⟩, -⟩ | ⟨-, rfl⟩
  · exact hadm.elim
  · exact ⟨t, rfl, move_good hs hadm (step_move ht)⟩

end Courses

/-- An instance of a scenario that starts with `SCE_Begin`, over and with a user, is accounted for when
all its steps are admissible. They have to be, too, where no unsent search can leave a second course that
comes to another `SCE_Begin`. -/
theorem instance_accounted_iff (c : Conf) (rest : List RequestName) (es : List (ℕ × Outcome))
    (courses : List Inst)
    (hrun : run (stepAll c (.sceBegin :: rest)) [start .sceBegin] es = some courses)
    (hover : ∀ s ∈ courses, s.phase = .ended ∨ s.phase = .lost) (huser : ∃ s ∈ courses, s.taken ≠ []) :
    (Guarded (stepAll c (.sceBegin :: rest)) (Admissible c) [start .sceBegin] es →
      Accounted courses) ∧
    ((c.tcLdapSessionPolicy = .global → .sceBegin ∉ rest) → (Accounted courses ↔
      Guarded (stepAll c (.sceBegin :: rest)) (Admissible c) [start .sceBegin] es)) := by
  have hsuff : Guarded (stepAll c (.sceBegin :: rest)) (Admissible c) [start .sceBegin] es →
      Accounted courses := by
    intro hg
    obtain ⟨t, rfl, hgood⟩ : ∃ t, courses = [t] ∧ Good t :=
      run_invariant (fun cs e cs' hs ha h => stepAll_good hs ha h) ⟨_, rfl, start_good _⟩ hg hrun
    obtain ⟨s, hs, htaken⟩ := huser
    obtain rfl := List.mem_singleton.mp hs
    rw [accounted_singleton]
    rcases hover s hs with he | hl
    · simp only [Good, he] at hgood
      exact hgood htaken
    · simp [Good, hl] at hgood
  refine ⟨hsuff, fun hrest => ⟨fun hacc => ?_, hsuff⟩⟩
  rcases guarded_or_spoilt hrest hrun with hg | ⟨s, rfl, hmis⟩ | hsev
  · exact hg
  · exact absurd (accounted_singleton.mp hacc) hmis.not_accountedAlone
  · exact absurd hacc (hsev.not_accounted hover)

/-- A search that fails, a wait and the end of the scenario, when errors do not abort it: the
instance is counted twice. -/
theorem failed_instance_counted_twice :
    ∃ t, run (stepAll ⟨false, .localThr⟩ [.sceBegin, .ldapSearchRq, .sceWait, .sceEnd])
        [start .sceBegin] [(0, .user (some 7)), (0, .code 32 0), (0, .timer 0), (0, .resume),
          (0, .finish)] = some [t] ∧
      t.phase = .ended ∧ t.cnt = 2 ∧ t.ko = 1 ∧ t.freed = [7] ∧ ¬ Accounted [t] := by
  refine ⟨_, rfl, rfl, rfl, rfl, rfl, ?_⟩
  rintro ⟨_, hcnt, _⟩
  cases hcnt

/-- The same scenario when the search succeeds. -/
theorem successful_instance_accounted :
    Accounted [⟨3, .sceEnd, .ended, some 7, true, 1, 0, 0, [7], [7], false⟩] := by
  refine (instance_accounted_iff ⟨false, .localThr⟩ [.ldapSearchRq, .sceWait, .sceEnd]
    [(0, .user (some 7)), (0, .code 0 0), (0, .timer 0), (0, .resume), (0, .finish)]
    [⟨3, .sceEnd, .ended, some 7, true, 1, 0, 0, [7], [7], false⟩] rfl
    (fun s hs => by obtain rfl := List.mem_singleton.mp hs; exact .inl rfl)
    ⟨_, List.mem_singleton_self _, by simp⟩).1 ?_
  refine ⟨fun s hs => by cases hs; rfl, fun t ht => ?_⟩
  cases ht
  refine ⟨fun s hs => by cases hs; exact fun _ => rfl, fun t ht => ?_⟩
  cases ht
  refine ⟨fun s hs => by cases hs; rfl, fun t ht => ?_⟩
  cases ht
  refine ⟨fun s hs => by cases hs; trivial, fun t ht => ?_⟩
  cases ht
  exact ⟨fun s hs => by cases hs; trivial, fun t _ => trivial⟩

/-- A search that is not sent under the global policy, when errors abort the scenario: the context it
leaves is taken up after the timeout, and the user is released a second time. -/
example : ∃ courses, run (stepAll ⟨true, .global⟩ [.sceBegin, .ldapSearchRq, .sceEnd]) [start .sceBegin]
      [(0, .user (some 7)), (0, .unsent 81 0), (1, .resume), (1, .code 0 1), (1, .finish)] =
        some courses ∧ courses.map Inst.cnt = [1, 1] ∧ courses.flatMap Inst.freed = [7, 7] :=
  ⟨_, rfl, rfl, rfl⟩

/-- A wait that cannot be set, when errors do not abort the scenario: the user is never released. -/
example : ∃ t, run (step ⟨false, .localThr⟩ [.sceBegin, .sceWait, .sceEnd]) (start .sceBegin)
    [.user (some 7), .timer 1] = some t ∧ t.phase = .lost ∧ t.freed = [] :=
  ⟨_, rfl, rfl, rfl⟩

end LdapTgen.ScenarioExec
