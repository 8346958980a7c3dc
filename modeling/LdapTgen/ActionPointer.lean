import LdapTgen.ScenarioExec
import LdapTgen.TrafficLoad

/-! The action pointer of `tExec`. It moves on and is read behind every action that does not break off the
loop, behind `SCE_End` and a suspension too, while the loader takes any list of known actions, the empty
one included. -/
namespace LdapTgen.ActionPointer
open LabelledRun Profile ScenarioExec ScenarioLoad TrafficLoad
open TrafficMix (Registry tSceRegister tSceRegister_cases)

def breaksOff (c : Conf) (rc : ℤ) (e : End) : Bool := rc ≠ 0 ∧ (e = .notStarted ∨ c.tcAbortScenario)

/-- The places of the action table that a step reads: the action itself, and the next one behind the
switch or behind a wait that is over. -/
def reads (c : Conf) (s : Inst) (o : Outcome) : List ℕ :=
  match s.phase with
  | .running =>
      match switch c s o with
      | some (_, rc, _, e) => if breaksOff c rc e then [s.pos] else [s.pos, s.pos + 1]
      | none => []
  | .suspended =>
      if o = .resume then if s.requestId = .sceWait then [s.pos, s.pos + 1] else [s.pos] else []
  | _ => []

/-- The table has a first action, and no instance reads a place behind the last one. -/
def Confined (c : Conf) (actions : List RequestName) : Prop :=
  ∃ r, actions.head? = some r ∧ ∀ outcomes s, run (step c actions) (start r) outcomes = some s →
    ∀ o, ∀ i ∈ reads c s o, i < actions.length

section Bounds
variable {c : Conf} {actions : List RequestName} {s t : Inst} {o : Outcome} {i : ℕ}

lemma mem_reads (h : i ∈ reads c s o) :
    (s.phase = .running ∨ s.phase = .suspended) ∧ (i = s.pos ∨ i = s.pos + 1) := by
  unfold reads at h
  split at h
  · rename_i hp
    split at h
    · split_ifs at h
      · exact ⟨.inl hp, .inl (by simpa using h)⟩
      · exact ⟨.inl hp, by simpa using h⟩
    · cases h
  · rename_i hp
    split_ifs at h
    · exact ⟨.inr hp, by simpa using h⟩
    · exact ⟨.inr hp, .inl (by simpa using h)⟩
    · cases h
  · cases h

lemma run_inRange {e : ℕ} (he : actions[e]? = some .sceEnd) {r : RequestName}
    (hr : actions.head? = some r) {outcomes : List Outcome}
    (hrun : run (step c actions) (start r) outcomes = some s) : InRange actions e s := by
  have hstart : InRange actions e (start r) :=
    ⟨fun _ => .inl ⟨Nat.zero_le e, List.head?_eq_getElem?.symm.trans hr⟩, by simp [start]⟩
  exact run_preserves (fun _ _ _ hs h => move_inRange hs he (step_move h)) hstart hrun

lemma confined_of_end {e : ℕ} (he : actions[e]? = some .sceEnd) (hlt : e + 1 < actions.length) :
    Confined c actions := by
  obtain ⟨r, hr⟩ : ∃ r, actions.head? = some r :=
    ⟨_, List.head?_eq_some_head (List.ne_nil_of_length_pos (by omega))⟩
  refine ⟨r, hr, fun outcomes s hrun o i hi => ?_⟩
  obtain ⟨hlive, hplace⟩ := mem_reads hi
  have hle : s.pos ≤ e := by
    rcases (run_inRange he hr hrun).1 hlive with ⟨hle, -⟩ | ⟨hlt, -⟩
    · exact hle
    · exact hlt.le
  omega

end Bounds

section Success
variable {c : Conf} {actions : List RequestName} {s : Inst}

def success (r : RequestName) : Outcome :=
  if r = .sceBegin then .user (some 0)
  else if r = .sceWait then .timer 0
  else if r = .sceEnd then .finish
  else .code 0 0

lemma switch_success (hend : s.requestId ≠ .sceEnd) :
    (∃ t, switch c s (success s.requestId) = some (t, 0, 0, .notReached) ∧ t.phase = s.phase ∧
        t.pos = s.pos) ∨
      (switch c s (success s.requestId) = some (s, 0, 0, .suspended) ∧
        (s.requestId = .sceWait ∨ s.requestId = .ldapSearchRq)) := by
  unfold success
  split_ifs with hbegin hwait
  · exact .inl ⟨_, if_pos hbegin, rfl, rfl⟩
  · exact .inr ⟨by simp [switch, hwait], .inl hwait⟩
  · by_cases hcode : hasCode s.requestId = true
    · by_cases hasync : s.requestId = .ldapSearchRq ∧ c.tcLdapSessionPolicy = .global
      · exact .inr ⟨by simp [switch, hasCode, hasync], .inr hasync.1⟩
      · exact .inl ⟨s, by simp [switch, hcode, hasync], rfl, rfl⟩
    · exact .inl ⟨s, by simp [switch, hcode, hbegin, hwait, hend], rfl, rfl⟩

lemma switch_finish (hend : s.requestId = .sceEnd) :
    switch c s (success s.requestId) = some (tUserFree s, 0, 0, .reached) := by
  simp [success, switch, hend]

lemma next_read (hp : s.phase = .running) : s.pos + 1 ∈ reads c s (success s.requestId) := by
  have hread : ∀ t e, switch c s (success s.requestId) = some (t, 0, 0, e) →
      s.pos + 1 ∈ reads c s (success s.requestId) := by
    intro t e hsw
    simp [reads, hp, hsw, breaksOff]
  by_cases hend : s.requestId = .sceEnd
  · exact hread _ _ (switch_finish hend)
  · rcases switch_success (c := c) hend with ⟨t, hsw, -⟩ | ⟨hsw, -⟩
    · exact hread _ _ hsw
    · exact hread _ _ hsw

lemma step_next {o : Outcome} {t : Inst} {r : RequestName} (hp : s.phase = .running)
    (hsw : switch c s o = some (t, 0, 0, .notReached)) (hn : actions[t.pos + 1]? = some r) :
    step c actions s o = some (t.goTo r) := by
  simp [step, hp, hsw, endOfAction, leave, next, hn, Inst.goTo]

lemma step_suspended {o : Outcome} (hp : s.phase = .running)
    (hsw : switch c s o = some (s, 0, 0, .suspended)) :
    step c actions s o = some { s with phase := .suspended } := by
  simp [step, hp, hsw, endOfAction, leave]

lemma step_woken {r : RequestName} (hp : s.phase = .suspended) (hwait : s.requestId = .sceWait)
    (hn : actions[s.pos + 1]? = some r) :
    step c actions s .resume = some ({ s with phase := .running, firstSceStat := true }.goTo r) := by
  simp [step, hp, resume, hwait, next, hn, Inst.goTo]

def answered (s : Inst) : Inst :=
  { s with phase := .running, firstSceStat := true, requestId := .ldapSearchResp }

lemma step_answered (hp : s.phase = .suspended) (hwait : s.requestId ≠ .sceWait) :
    step c actions s .resume = some (answered s) := by
  simp [step, hp, resume, hwait, answered]

structure At (pos : ℕ) (r : RequestName) (s : Inst) : Prop where
  phase : s.phase = .running
  pos : s.pos = pos
  requestId : s.requestId = r

lemma leads_next {t : Inst} {r : RequestName} {o : Outcome} (hp : s.phase = .running)
    (hsw : switch c s o = some (t, 0, 0, .notReached)) (htp : t.phase = s.phase) (hpos : t.pos = s.pos)
    (hn : actions[s.pos + 1]? = some r) :
    ∃ u, Leads (step c actions) s u ∧ At (s.pos + 1) r u := by
  have hstep : step c actions s o = some (t.goTo r) := step_next hp hsw (by rwa [hpos])
  exact ⟨_, .cons hstep (.refl ..), htp.trans hp, by rw [Inst.goTo, hpos], rfl⟩

lemma leads_advance (hp : s.phase = .running) (hend : s.requestId ≠ .sceEnd) {r : RequestName}
    (hn : actions[s.pos + 1]? = some r) : ∃ t, Leads (step c actions) s t ∧ At (s.pos + 1) r t := by
  rcases switch_success (c := c) hend with ⟨t, hsw, htp, hpos⟩ | ⟨hsw, hwait | hsearch⟩
  · exact leads_next hp hsw htp hpos hn
  · have hsleep : step c actions s _ = some { s with phase := .suspended } := step_suspended hp hsw
    have hwake := step_woken (c := c) (s := { s with phase := .suspended }) rfl hwait hn
    exact ⟨_, .cons hsleep (.cons hwake (.refl ..)), rfl, rfl, rfl⟩
  · -- the search is answered first, and the answer succeeds
    have hsleep : step c actions s _ = some { s with phase := .suspended } := step_suspended hp hsw
    have hwake : step c actions { s with phase := .suspended } .resume = some (answered _) :=
      step_answered rfl (by simp [hsearch])
    have hanswer : switch c (answered s) (.code 0 0) = some (answered s, 0, 0, .notReached) := by
      simp [switch, answered, hasCode]
    obtain ⟨t, hleads, hat⟩ := leads_next rfl hanswer rfl rfl hn
    exact ⟨t, .cons hsleep (.cons hwake hleads), hat⟩

lemma leads_at {r : RequestName} (hr : actions.head? = some r) {n : ℕ} {q : RequestName}
    (hq : actions[n]? = some q) (hbefore : ∀ k < n, actions[k]? ≠ some .sceEnd) :
    ∃ t, Leads (step c actions) (start r) t ∧ At n q t := by
  induction n generalizing q with
  | zero =>
    rw [← List.head?_eq_getElem?, hr] at hq
    cases hq
    exact ⟨_, .refl .., rfl, rfl, rfl⟩
  | succ n ih =>
    obtain ⟨p, hp⟩ : ∃ p, actions[n]? = some p :=
      ⟨_, List.getElem?_eq_getElem (Nat.lt_of_succ_lt (List.getElem?_eq_some_iff.mp hq).1)⟩
    obtain ⟨s, hs, hat⟩ := ih hp fun k hk => hbefore k (Nat.lt_succ_of_lt hk)
    have hne : s.requestId ≠ .sceEnd := by
      rw [hat.requestId]
      intro h
      exact hbefore n (Nat.lt_succ_self n) (h ▸ hp)
    obtain ⟨t, ht, hnext⟩ := leads_advance hat.phase hne (by rwa [hat.pos])
    rw [hat.pos] at hnext
    exact ⟨t, hs.trans ht, hnext⟩

end Success

/-- The pointer stays in the table, whatever happens to the requests, exactly if there is an `SCE_End` that
is not the last action. -/
theorem confined_iff (c : Conf) (actions : List RequestName) :
    Confined c actions ↔ .sceEnd ∈ actions.dropLast := by
  constructor
  · rintro ⟨r, hr, hbound⟩
    by_contra hmem
    have hpos : 0 < actions.length := List.length_pos_iff.mpr (by rintro rfl; cases hr)
    have hbefore : ∀ k < actions.length - 1, actions[k]? ≠ some .sceEnd := by
      intro k hk h
      refine hmem (List.mem_of_getElem? (i := k) ?_)
      rwa [List.getElem?_dropLast, if_pos hk]
    obtain ⟨t, ⟨outcomes, hrun⟩, hat⟩ := leads_at (c := c) hr
      (List.getElem?_eq_getElem (show actions.length - 1 < actions.length by omega)) hbefore
    have hread := hbound outcomes t hrun _ _ (next_read hat.phase)
    rw [hat.pos] at hread
    omega
  · intro hmem
    obtain ⟨e, he⟩ := List.mem_iff_getElem?.mp hmem
    rw [List.getElem?_dropLast] at he
    split_ifs at he with hlt
    exact confined_of_end he (by omega)

/-- A scenario that was loaded and registered can be run without leaving its actions exactly if one of them
is an `SCE_End` with another action behind it. -/
theorem accepted_confined_iff (h : Host) (ini sceName : List Char) (fuel : ℕ) (cache after : Cache)
    (rate : ℤ) (tcPopulation : Bool) (o : TrafficMix.Outcome) (reg t : Registry)
    (hload : tSceLoadScenario (tSceRegister tcPopulation o) h ini fuel cache sceName rate reg =
      .ok (after, t, 0)) (c : Conf) :
    ∃ r sce, readScenario h ini fuel cache sceName rate = .ok (after, some r) ∧
      t.tsceTab reg.sceId = some sce ∧ r.rate = rate ∧ sce.action = r.actTab ∧
      (Confined c (sce.action.map Action.requestId) ↔
        .sceEnd ∈ (r.actTab.map Action.requestId).dropLast) := by
  rcases tSceLoadScenario_ok hload with ⟨-, -, hstatus⟩ | ⟨r, hread, hrate, hreg⟩
  · cases hstatus
  · rcases tSceRegister_cases hreg with ⟨-, hentered⟩ | ⟨hrc, -⟩
    · obtain ⟨sce, haction, htab⟩ := hentered.tsceTab
      refine ⟨r, sce, hread, by rw [htab, Function.update_self], hrate, haction, ?_⟩
      rw [haction]
      exact confined_iff c _
    · cases hrc

/-- The actions that a section `S` loads in the first place of the table, and the status, at the full
rate. -/
def loaded (text : List Char) (fuel : ℕ) : Except Fault (Option (List RequestName) × ℤ) :=
  (tSceLoadScenario (tSceRegister true ⟨true, 0, 0⟩) (envOf text).host "x.ini".toList fuel ⟨none, none⟩
    "S".toList 100 TrafficMix.start).map fun result =>
      ((result.2.1.tsceTab 0).map fun sce => sce.action.map Action.requestId, result.2.2)

def spareAction : List Char :=
  "[S]\ndescription=s\naction1=SCE_Begin\naction2=SCE_End\naction3=SCE_End\n".toList

lemma loaded_spareAction : loaded spareAction 4 = .ok (some [.sceBegin, .sceEnd, .sceEnd], 0) := by
  decide +kernel

theorem spare_action_confined :
    ∃ after t sce, tSceLoadScenario (tSceRegister true ⟨true, 0, 0⟩) (envOf spareAction).host "x.ini".toList
        4 ⟨none, none⟩ "S".toList 100 TrafficMix.start = .ok (after, t, 0) ∧ t.tsceTab 0 = some sce ∧
      Confined ⟨false, .localThr⟩ (sce.action.map Action.requestId) := by
  obtain ⟨⟨after, t, status⟩, hload, hresult⟩ := map_eq_ok loaded_spareAction
  obtain rfl : status = 0 := congrArg Prod.snd hresult
  obtain ⟨r, sce, -, hsce, -, haction, hiff⟩ := accepted_confined_iff _ _ _ _ _ after _ _ _ _ t hload
    ⟨false, .localThr⟩
  have htab : t.tsceTab 0 = some sce := hsce
  refine ⟨after, t, sce, hload, htab, hiff.mpr ?_⟩
  have hactions : (t.tsceTab 0).map (fun sce => sce.action.map Action.requestId) =
      some [.sceBegin, .sceEnd, .sceEnd] := congrArg Prod.fst hresult
  rw [htab, Option.map_some, Option.some_inj] at hactions
  rw [← haction, hactions]
  decide

/-- A section without actions is accepted as well as one that closes with `SCE_End`, behind which the
pointer is read. -/
theorem pointer_behind_last_action :
    loaded "[S]\ndescription=s\n".toList 1 = .ok (some [], 0) ∧
      loaded "[S]\ndescription=s\naction1=SCE_Begin\naction2=SCE_End\n".toList 3 =
        .ok (some [.sceBegin, .sceEnd], 0) ∧
      ∃ s, run (step ⟨false, .localThr⟩ [.sceBegin, .sceEnd]) (start .sceBegin) [.user (some 7)] = some s ∧
        reads ⟨false, .localThr⟩ s .finish = [1, 2] := by
  refine ⟨by decide +kernel, by decide +kernel, _, rfl, by decide⟩

end LdapTgen.ActionPointer
