import LdapTgen.AsyncContexts

/-! The steps that keep every context where it should be. Timeouts are looked up by the worker that
resumes the context, on its own connection, and nothing holds back the other threads between its look
at the timetable and the removal of the request. -/
namespace LdapTgen.AsyncContexts
open LabelledRun LdapLists TimerWheel AsyncSystem Custody

/-- The context is being sent, or its response has been taken and not been marked. -/
def inTransit (k : ℕ) : Pc → Bool
  | .send j _ => j == k
  | .sending j _ _ => j == k
  | .gotResp j => j == k
  | .respMark j _ => j == k
  | _ => false

/-- The context was taken from the timetable and its request is still to be removed. -/
def timingOut (k : ℕ) : Pc → Bool
  | .gotTimer j => j == k
  | .timeoutMark j _ => j == k
  | .resp j _ => j == k
  | _ => false

def nextDue (s : State) : Option ℕ := (s.wheel.tTimerCircularTable s.wheel.currentIndex).head?

/-- The context has no response yet, no request on a connection other than that of worker `w`, and is
not in transit. -/
def Resumable (c : Conf) (s : State) (w k : ℕ) : Prop :=
  (∀ v < c.tcWThreadNb, entries (s.conn (ldId c v)).lists.answered k = 0 ∧
    (ldId c v ≠ ldId c w → entries (s.conn (ldId c v)).lists.pending k = 0)) ∧
  ∀ v < c.tcWThreadNb, inTransit k (s.pc v) = false

def NoTimeout (c : Conf) (s : State) (l : List Entry) : Prop :=
  ∀ e ∈ l, ∀ v < c.tcWThreadNb, timingOut e.sleepCtx (s.pc v) = false

/-- A worker takes a context from the timetable only if it can time it out itself, a result or a
restart never meets a request that is being timed out, no result has the code of a timeout, a restart
finds one of the two lists empty, and no request is refused before it is given to the library. -/
def Undisturbed (c : Conf) (s : State) : Label → Prop
  | .worker w i => i ≠ .nullLd ∧ (s.pc w = .noResp → ∀ k ∈ nextDue s, Resumable c s w k)
  | .deliver d msgid rc => rc ≠ ldapTimeout ∧
      NoTimeout c s ((s.conn d).lists.pending.find? (·.msgid == msgid)).toList
  | .connError d myerrno _ => restarts myerrno → (s.conn d).lists.pending = [] ∨
      (s.conn d).lists.answered = [] ∧ NoTimeout c s (s.conn d).lists.pending
  | _ => True

instance (c : Conf) (s : State) (w k : ℕ) : Decidable (Resumable c s w k) :=
  inferInstanceAs (Decidable (_ ∧ _))

instance (c : Conf) (s : State) (l : List Entry) : Decidable (NoTimeout c s l) :=
  inferInstanceAs (Decidable (∀ e ∈ l, _))

instance (c : Conf) (s : State) : ∀ e, Decidable (Undisturbed c s e)
  | .worker _ _ => inferInstanceAs (Decidable (_ ∧ (_ → _)))
  | .deliver _ _ _ => inferInstanceAs (Decidable (_ ∧ _))
  | .connError _ _ _ => inferInstanceAs (Decidable (_ → _ ∨ _ ∧ _))
  | .topTU => .isTrue trivial
  | .main => .isTrue trivial

section Rules
variable {c : Conf} {s t : State} {w k : ℕ} {i : Item} {p p₀ : Pc}

lemma ctxHeld_ctx (h : CtxHeld c w k p i) : ∃ x, i.ctx = some x := by
  cases p with
  | setSleep | insert | send => exact ⟨_, h.2.2.2.choose_spec⟩
  | sending | gotResp | respMark | timeoutMark => exact ⟨_, h.2.2.1⟩
  | gotTimer =>
    rcases h.2 with ⟨_, junk, hctx⟩ | ⟨_, hctx⟩ | ⟨_, hctx, _⟩
    · exact ⟨_, hctx⟩
    · exact ⟨_, hctx⟩
    · exact ⟨_, hctx⟩
  | resp | respFree => exact ⟨_, h.2.2⟩
  | _ => exact h.elim

lemma Kept.allocated (h : Kept c s) {x : TSleep} (hx : (item c s k).ctx = some x) :
    k < s.nextCtx := by
  by_contra hk
  rw [h.fresh k (Nat.le_of_not_lt hk)] at hx
  cases hx

lemma Kept.congr (h : Kept c s) (hitem : item c t = item c s) (hpc : t.pc = s.pc)
    (hnext : t.nextCtx = s.nextCtx) : Kept c t := by
  refine ⟨?_, ?_, ?_, ?_, ?_⟩
  · rw [hpc]
    exact h.idle
  · rw [hpc]
    exact h.paired
  · rw [hitem, hnext]
    exact h.fresh
  · rw [hitem, hpc]
    exact h.ctxs
  · rw [hitem, hpc]
    exact h.reqs

lemma reqs_update (h : Keeps reqRules (item c s) s.pc)
    (hdet : ∀ w', w' ≠ w → reqKey (s.pc w') = some k → Detached i)
    (hreq : ∀ j, reqKey p = some j →
      j = k ∧ Detached i ∧ ∀ w', w' ≠ w → reqKey (s.pc w') ≠ some k) :
    Keeps reqRules (Function.update (item c s) k i) (Function.update s.pc w p) := by
  refine ⟨fun w₁ w₂ j ⟨h₁, _⟩ ⟨h₂, _⟩ => ?_, fun w' j ⟨hj, _⟩ => ?_, fun _ _ => trivial⟩
  · by_cases hw₁ : w₁ = w
    · subst hw₁
      by_contra hne
      rw [Function.update_self] at h₁
      rw [Function.update_of_ne (Ne.symm hne)] at h₂
      obtain ⟨rfl, _, hno⟩ := hreq j h₁
      exact hno w₂ (Ne.symm hne) h₂
    · by_cases hw₂ : w₂ = w
      · subst hw₂
        rw [Function.update_self] at h₂
        rw [Function.update_of_ne hw₁] at h₁
        obtain ⟨rfl, _, hno⟩ := hreq j h₂
        exact absurd h₁ (hno w₁ hw₁)
      · rw [Function.update_of_ne hw₁] at h₁
        rw [Function.update_of_ne hw₂] at h₂
        exact h.one w₁ w₂ j ⟨h₁, trivial⟩ ⟨h₂, trivial⟩
  · show Detached _
    by_cases hw : w' = w
    · subst hw
      rw [Function.update_self] at hj
      obtain ⟨rfl, hd, _⟩ := hreq j hj
      rwa [Function.update_self]
    · rw [Function.update_of_ne hw] at hj
      by_cases hjk : j = k
      · subst hjk
        rw [Function.update_self]
        exact hdet w' hw hj
      · rw [Function.update_of_ne hjk]
        exact h.held w' j ⟨hj, trivial⟩

lemma Kept.pcs (h : Kept c s) (hw : w < c.tcWThreadNb) (hpc : t.pc = Function.update s.pc w p)
    (hpaired : Paired p) : (∀ v, c.tcWThreadNb ≤ v → t.pc v = .top) ∧ ∀ v, Paired (t.pc v) := by
  refine ⟨fun v hv => ?_, fun v => ?_⟩
  · have hvw : v ≠ w := by omega
    rw [hpc, Function.update_of_ne hvw]
    exact h.idle v hv
  · rw [hpc]
    by_cases hv : v = w
    · rwa [hv, Function.update_self]
    · rw [Function.update_of_ne hv]
      exact h.paired v

/-- A step of worker `w`, which has no context but `k`, on context `k`, which no other worker has.
Another worker may have the request context of `k` if the step is of no consequence to it. -/
theorem Kept.step (h : Kept c s) (hw : w < c.tcWThreadNb)
    (hpc : t.pc = Function.update s.pc w p) (hitem : item c t = Function.update (item c s) k i)
    (hnext : ∀ j, t.nextCtx ≤ j → s.nextCtx ≤ j ∧ j ≠ k) (hpaired : Paired p)
    (hfrom : ∀ j, Has (ctxRules c) (item c s) s.pc w j → j = k)
    (hbefore : ∀ w', w' ≠ w → ¬ Has (ctxRules c) (item c s) s.pc w' k)
    (hto : ∀ j, ctxKey p = some j → j = k)
    (hheld : ctxKey p = some k → CtxClaims p i → CtxHeld c w k p i)
    (hloose : (ctxKey p = some k → ¬ CtxClaims p i) → CtxLoose c k i)
    (hreq : ∀ j, reqKey p = some j → j = k ∧ Detached i)
    (hother : (∀ w', w' ≠ w → reqKey (s.pc w') ≠ some k) ∨ reqKey p = none ∧
      i.rc = (item c s k).rc ∧ (Detached (item c s k) → Detached i)) : Kept c t := by
  obtain ⟨hidle, hpairs⟩ := h.pcs hw hpc hpaired
  refine ⟨hidle, hpairs, fun j hj => ?_, ?_, ?_⟩
  · obtain ⟨hold, hne⟩ := hnext j hj
    rw [hitem, Function.update_of_ne hne]
    exact h.fresh j hold
  · rw [hpc, hitem]
    refine h.ctxs.update hfrom hbefore (fun w' hw' hkey hclaims => ?_) hto hheld hloose
    -- A worker that treats the result of `k` does not come to claim it.
    have hno : ¬ CtxClaims (s.pc w') (item c s k) := fun hc => hbefore w' hw' ⟨hkey, hc⟩
    cases hp : s.pc w' with
    | resp j r =>
      have hkey' : ctxKey (.resp j r) = some k := hp ▸ hkey
      have hr : r = j := by simpa [hp, Paired] using h.paired w'
      rw [hp] at hclaims hno
      rcases hother with hnone | ⟨_, hsame, _⟩
      · refine hnone w' hw' ?_
        rw [hp, hr]
        exact hkey'
      · exact hno (hsame.symm.trans hclaims)
    | _ =>
      rw [hp] at hno
      exact hno trivial
  · rw [hpc, hitem]
    refine reqs_update h.reqs (fun w' hw' hj => ?_) fun j hj => ?_
    · rcases hother with hnone | ⟨_, _, hdet⟩
      · exact absurd hj (hnone w' hw')
      · exact hdet (h.reqs.held w' k ⟨hj, trivial⟩)
    · rcases hother with hnone | ⟨hnone, _⟩
      · exact ⟨(hreq j hj).1, (hreq j hj).2, hnone⟩
      · rw [hnone] at hj
        cases hj

lemma Kept.held (h : Kept c s) (hpc : s.pc w = p) (hkey : ctxKey p = some k)
    (hclaims : CtxClaims p (item c s k)) : CtxHeld c w k p (item c s k) := by
  subst hpc
  exact h.ctxs.held w k ⟨hkey, hclaims⟩

theorem Kept.held_step (h : Kept c s) (hw : w < c.tcWThreadNb) (hpc₀ : s.pc w = p₀)
    (hkey : ctxKey p₀ = some k) (hclaims : CtxClaims p₀ (item c s k))
    (hpc : t.pc = Function.update s.pc w p) (hitem : item c t = Function.update (item c s) k i)
    (hnext : t.nextCtx = s.nextCtx) (hpaired : Paired p) (hto : ∀ j, ctxKey p = some j → j = k)
    (hheld : ctxKey p = some k → CtxClaims p i → CtxHeld c w k p i)
    (hloose : (ctxKey p = some k → ¬ CtxClaims p i) → CtxLoose c k i)
    (hreq : ∀ j, reqKey p = some j → j = k ∧ Detached i)
    (hother : (∀ w', w' ≠ w → reqKey (s.pc w') ≠ some k) ∨ reqKey p = none ∧
      i.rc = (item c s k).rc ∧ (Detached (item c s k) → Detached i)) : Kept c t := by
  have hhas : Has (ctxRules c) (item c s) s.pc w k := by
    rw [← hpc₀] at hkey hclaims
    exact ⟨hkey, hclaims⟩
  have hk := h.allocated (ctxHeld_ctx (h.held hpc₀ hkey hclaims)).choose_spec
  exact h.step hw hpc hitem (fun j hj => ⟨hnext ▸ hj, by omega⟩) hpaired
    (fun j hj => Option.some.inj (hj.1.symm.trans hhas.1))
    (fun w' hw' hhas' => hw' (h.ctxs.one w' w k hhas' hhas)) hto hheld hloose hreq hother

lemma not_detached_of_open (ho : i.Open k) : ¬ Detached i := by
  intro hd
  cases hd.2 _ ho.1

lemma Kept.open_req (h : Kept c s) (ho : (item c s k).Open k) (w' : ℕ) :
    reqKey (s.pc w') ≠ some k := fun hj =>
  not_detached_of_open ho (h.reqs.held w' k ⟨hj, trivial⟩)

theorem Kept.goto (h : Kept c s) (hw : w < c.tcWThreadNb)
    (hfrom : ∀ j, ¬ Has (ctxRules c) (item c s) s.pc w j) (hto : ctxKey p = none)
    (hpc : t.pc = Function.update s.pc w p) (hitem : item c t = item c s)
    (hnext : t.nextCtx = s.nextCtx) (hpaired : Paired p)
    (hreq : ∀ j, reqKey p = some j → reqKey (s.pc w) = some j) : Kept c t := by
  obtain ⟨hidle, hpairs⟩ := h.pcs hw hpc hpaired
  refine ⟨hidle, hpairs, fun j hj => ?_, ?_, ?_⟩
  · rw [hitem]
    exact h.fresh j (hnext ▸ hj)
  · rw [hpc, hitem]
    refine h.ctxs.goto hfrom fun j hj => ?_
    rw [show (ctxRules c).key p = none from hto] at hj
    cases hj
  · have hkeep := reqs_update (w := w) (k := (reqKey p).getD 0) (p := p)
      (i := item c s ((reqKey p).getD 0)) h.reqs (fun w' _ hj => h.reqs.held w' _ ⟨hj, trivial⟩) ?_
    · rwa [Function.update_eq_self, ← hpc, ← hitem] at hkeep
    · intro j hj
      have hhas : Has reqRules (item c s) s.pc w j := ⟨hreq j hj, trivial⟩
      rw [hj, Option.getD_some]
      exact ⟨rfl, h.reqs.held w j hhas,
        fun w' hw' hj' => hw' (h.reqs.one w' w j ⟨hj', trivial⟩ hhas)⟩

end Rules

section WorkerMoves
variable {c : Conf} {s : State} {w k r : ℕ} {x : TSleep}

lemma once_of_nowhere {i : Item} (h : i.Nowhere) : i.Once :=
  ⟨0, by simp [h 0], fun e _ => h e⟩

lemma readResp_kept (h : Kept c s) (hw : w < c.tcWThreadNb) (hpc : s.pc w = .gotResp k)
    (hx : s.ctx k = some x) (hr : x.req = some r) : Kept c (s.goto w (.respMark k r)) := by
  obtain ⟨ht, hl, ho⟩ := h.held hpc rfl trivial
  cases hx.symm.trans ho.1
  cases hr
  exact h.held_step hw hpc rfl trivial rfl (Function.update_eq_self k _).symm rfl rfl
    (fun j hj => (Option.some.inj hj).symm) (fun _ _ => ⟨ht, hl, ho⟩)
    (fun hno => absurd trivial (hno rfl)) nofun (.inl fun w' _ => h.open_req ho w')

lemma readStray_absurd (h : Kept c s) (hpc : s.pc w = .gotResp k) (hx : s.ctx k = some x)
    (hr : x.req = none) : False := by
  obtain ⟨_, _, ho⟩ := h.held hpc rfl trivial
  cases hx.symm.trans ho.1
  cases hr

lemma markResp_kept (h : Kept c s) (hw : w < c.tcWThreadNb) (hpc : s.pc w = .respMark k r)
    (hx : s.ctx k = some x) :
    Kept c ((s.setCtx k (some { x with req := none })).goto w (.resp k r)) := by
  obtain ⟨ht, hl, ho, rc, hrc, hne⟩ := h.held hpc rfl trivial
  obtain rfl : r = k := by simpa [hpc, Paired] using h.paired w
  cases hx.symm.trans ho
  refine h.held_step hw hpc rfl trivial rfl (item_setCtx _) rfl rfl
    (fun j hj => (Option.some.inj hj).symm) (fun _ hc => ?_) (fun _ => ?_) (fun j hj => ?_)
    (.inl fun w' _ => h.open_req ⟨ho, rc, hrc, hne⟩ w')
  · exact absurd (Option.some.inj (hrc.symm.trans hc)) hne
  · exact .spent rfl ht.2 hl
  · exact ⟨(Option.some.inj hj).symm, by simp [hrc], fun y hy => by cases hy; rfl⟩

lemma freeCtx_kept (h : Kept c s) (hw : w < c.tcWThreadNb) (hpc : s.pc w = .gotTimer k)
    (hl : (item c s k).Nowhere) {p : Pc} (hp : p = .exec ∨ p = .top) :
    Kept c ((s.setCtx k none).goto w p) := by
  obtain ⟨ht, _⟩ := h.held hpc rfl trivial
  have hkey : ctxKey p = none := by rcases hp with rfl | rfl <;> rfl
  have hreq : reqKey p = none := by rcases hp with rfl | rfl <;> rfl
  refine h.held_step hw hpc rfl trivial rfl (item_setCtx _) rfl ?_ (fun j hj => ?_) (fun hj => ?_)
    (fun _ => .gone rfl ht hl) (fun j hj => ?_) (.inr ⟨hreq, rfl, fun hd => ⟨hd.1, nofun⟩⟩)
  · rcases hp with rfl | rfl <;> trivial
  · rw [hkey] at hj; cases hj
  · rw [hkey] at hj; cases hj
  · rw [hreq] at hj; cases hj

lemma wake_kept (h : Kept c s) (hw : w < c.tcWThreadNb) (hpc : s.pc w = .gotTimer k)
    (hx : s.ctx k = some x) (ha : x.action = .wait) : Kept c ((s.setCtx k none).goto w .exec) := by
  refine freeCtx_kept h hw hpc ?_ (.inl rfl)
  rcases (h.held hpc rfl trivial).2 with ⟨hl, _⟩ | ⟨_, hctx⟩ | ⟨_, hctx, _⟩
  · exact hl
  · cases hx.symm.trans hctx
    cases ha
  · cases hx.symm.trans hctx
    cases ha

lemma discard_kept (h : Kept c s) (hw : w < c.tcWThreadNb) (hpc : s.pc w = .gotTimer k)
    (hx : s.ctx k = some x) (ha : x.action = .search) (hr : x.req = none) :
    Kept c ((s.setCtx k none).goto w .top) := by
  refine freeCtx_kept h hw hpc ?_ (.inr rfl)
  rcases (h.held hpc rfl trivial).2 with ⟨_, _, hctx⟩ | ⟨hl, _⟩ | ⟨_, hctx, _⟩
  · cases hx.symm.trans hctx
    cases ha
  · exact hl
  · cases hx.symm.trans hctx
    cases hr

lemma expire_kept (h : Kept c s) (hw : w < c.tcWThreadNb) (hpc : s.pc w = .gotTimer k)
    (hx : s.ctx k = some x) (ha : x.action = .search) (hr : x.req = some r) :
    Kept c (s.goto w (.timeoutMark k r)) := by
  obtain ⟨ht, hcase⟩ := h.held hpc rfl trivial
  rcases hcase with ⟨_, _, hctx⟩ | ⟨_, hctx⟩ | ⟨hl, ho⟩
  · cases hx.symm.trans hctx
    cases ha
  · cases hx.symm.trans hctx
    cases hr
  · cases hx.symm.trans ho.1
    cases hr
    exact h.held_step hw hpc rfl trivial rfl (Function.update_eq_self k _).symm rfl rfl
      (fun j hj => (Option.some.inj hj).symm) (fun _ _ => ⟨ht, hl, ho⟩)
      (fun hno => absurd trivial (hno rfl)) nofun (.inl fun w' _ => h.open_req ho w')

lemma markTimeout_kept {q : TLdapReqCtx} (h : Kept c s) (hw : w < c.tcWThreadNb)
    (hpc : s.pc w = .timeoutMark k r) (hx : s.ctx k = some x) :
    Kept c (((s.setReq r (some { q with rc := ldapTimeout })).setCtx k
      (some { x with req := none })).goto w (.resp k r)) := by
  obtain ⟨ht, hl, ho⟩ := h.held hpc rfl trivial
  obtain rfl : r = k := by simpa [hpc, Paired] using h.paired w
  cases hx.symm.trans ho.1
  have hitem : item c ((s.setReq r (some { q with rc := ldapTimeout })).setCtx r
      (some ⟨.search, none⟩)) = Function.update (item c s) r
        { item c s r with ctx := some ⟨.search, none⟩, rc := some ldapTimeout } := by
    rw [item_setCtx, item_setReq, Function.update_idem, Function.update_self]
    rfl
  refine h.held_step hw hpc rfl trivial rfl hitem rfl rfl (fun j hj => (Option.some.inj hj).symm)
    (fun _ _ => ⟨ht, hl, rfl⟩) (fun hno => absurd rfl (hno rfl)) (fun j hj => ?_)
    (.inl fun w' _ => h.open_req ho w')
  exact ⟨(Option.some.inj hj).symm, rfl, fun y hy => by cases hy; rfl⟩

lemma Kept.unsent_req (h : Kept c s) (hrc : (item c s k).rc = none) (w' : ℕ) :
    reqKey (s.pc w') ≠ some k := by
  intro hj
  have hd : Detached (item c s k) := h.reqs.held w' k ⟨hj, trivial⟩
  rw [Detached, hrc] at hd
  cases hd.1

lemma setSleep_kept {job : Job} {delay : ℕ} (h : Kept c s) (hw : w < c.tcWThreadNb)
    (hpc : s.pc w = .setSleep k job) : Kept c (s.goto w (.insert k job delay)) := by
  have hold := h.held hpc rfl trivial
  exact h.held_step hw hpc rfl trivial rfl (Function.update_eq_self k _).symm rfl trivial
    (fun j hj => (Option.some.inj hj).symm) (fun _ _ => hold)
    (fun hno => absurd trivial (hno rfl)) nofun (.inl fun w' _ => h.unsent_req hold.2.2.1 w')

lemma afterSleep_kept {job : Job} {p₀ : Pc} {i : Item} {t : State} (h : Kept c s)
    (hw : w < c.tcWThreadNb) (hpc₀ : s.pc w = p₀) (hkey : ctxKey p₀ = some k)
    (hclaims : CtxClaims p₀ (item c s k)) (hpc : t.pc = Function.update s.pc w (afterSleep k job))
    (hitem : item c t = Function.update (item c s) k i) (hnext : t.nextCtx = s.nextCtx)
    (hrc : (item c s k).rc = none) (hi : i.rc = none) (ht : i.timer ≤ 1)
    (htimed : job.delay c < c.tableSize → 0 < i.timer) (hl : i.Nowhere)
    (hctx : ∃ junk, i.ctx = some ⟨Job.action job, junk⟩) : Kept c t := by
  have hother : ∀ w', w' ≠ w → reqKey (s.pc w') ≠ some k := fun w' _ => h.unsent_req hrc w'
  cases job with
  | wait nbTimeUnit =>
    exact h.held_step hw hpc₀ hkey hclaims hpc hitem hnext trivial nofun nofun
      (fun _ => .wait hctx.choose_spec ht hl) nofun (.inl hother)
  | search sctrl =>
    exact h.held_step hw hpc₀ hkey hclaims hpc hitem hnext trivial
      (fun j hj => (Option.some.inj hj).symm) (fun _ _ => ⟨⟨htimed, ht⟩, hl, hi, hctx⟩)
      (fun hno => absurd trivial (hno rfl)) nofun (.inl hother)

lemma refuseSleep_kept {job : Job} (h : Kept c s) (hw : w < c.tcWThreadNb)
    (hpc : s.pc w = .setSleep k job) (hd : sleepDelay c.tableSize (job.delay c) s.wheel = none) :
    Kept c (s.goto w (afterSleep k job)) := by
  obtain ⟨ht, hl, hrc, hctx⟩ := h.held hpc rfl trivial
  refine afterSleep_kept (i := item c s k) h hw hpc rfl trivial rfl
    (Function.update_eq_self k _).symm rfl hrc hrc (by omega) (fun hlt => ?_) hl hctx
  unfold sleepDelay at hd
  rw [if_neg (Nat.not_le_of_lt hlt)] at hd
  cases hd

lemma insert_kept {job : Job} {delay : ℕ} (h : Kept c s) (hn : 0 < c.tableSize)
    (hw : w < c.tcWThreadNb) (hpc : s.pc w = .insert k job delay) :
    Kept c ({ s with wheel := insertSleep c.tableSize k delay s.wheel }.goto w (afterSleep k job)) := by
  obtain ⟨ht, hl, hrc, hctx⟩ := h.held hpc rfl trivial
  exact afterSleep_kept h hw hpc rfl trivial rfl (item_insert (s := s) (k := k) hn delay) rfl hrc
    hrc (by simp [ht]) (fun _ => Nat.succ_pos _) hl hctx

lemma newReq_kept {sctrl : Ctrls} (h : Kept c s) (hw : w < c.tcWThreadNb)
    (hpc : s.pc w = .send k sctrl) (hx : s.ctx k = some x) :
    Kept c (((s.setReq k (some ⟨none, 0⟩)).setCtx k (some { x with req := some k })).goto w
      (.sending k k sctrl)) := by
  obtain ⟨ht, hl, hrc, junk, hctx⟩ := h.held hpc rfl trivial
  cases hx.symm.trans hctx
  have hitem : item c ((s.setReq k (some ⟨none, 0⟩)).setCtx k (some ⟨.search, some k⟩)) =
      Function.update (item c s) k
        { item c s k with ctx := some ⟨.search, some k⟩, rc := some 0 } := by
    rw [item_setCtx, item_setReq, Function.update_idem, Function.update_self]
    rfl
  exact h.held_step hw hpc rfl trivial rfl hitem rfl rfl (fun j hj => (Option.some.inj hj).symm)
    (fun _ _ => ⟨ht, hl, rfl, 0, rfl, by decide⟩) (fun hno => absurd trivial (hno rfl)) nofun
    (.inl fun w' _ => h.unsent_req hrc w')

lemma prepareSend_item {u : State} {sctrl : Ctrls} (h : prepareSend c w s k r sctrl = some u) :
    item c u = item c s ∧ u.pc = s.pc ∧ u.nextCtx = s.nextCtx ∧ u.wheel = s.wheel ∧
      ∀ d, (u.conn d).lists = (s.conn d).lists := by
  obtain ⟨q, hq, _, rfl⟩ := prepareSend_some h
  have hlists : ∀ d, ((((s.setReq r (some { q with ctrls := sctrl })).setConn (ldId c w)
      { s.conn (ldId c w) with
        ctrls := if sctrl.isSome then sctrl else (s.conn (ldId c w)).ctrls })).conn d).lists =
      (s.conn d).lists := by
    intro d
    by_cases hd : d = ldId c w
    · simp [State.setConn, hd]
    · simp [State.setConn, State.setReq, hd]
  refine ⟨?_, rfl, rfl, rfl, hlists⟩
  have hreq : item c (s.setReq r (some { q with ctrls := sctrl })) = item c s := by
    rw [item_setReq]
    refine Function.update_eq_self_iff.mpr ?_
    simp [item, hq]
  rw [← hreq]
  exact item_congr rfl rfl (fun _ => rfl) fun d =>
    ⟨congrArg LdapLd.pending (hlists d), congrArg LdapLd.answered (hlists d)⟩

lemma sendError_kept {u : State} {sctrl : Ctrls} {rc : ℤ} (h : Kept c s) (hw : w < c.tcWThreadNb)
    (hpc : s.pc w = .sending k r sctrl) (hu : prepareSend c w s k r sctrl = some u) :
    Kept c (u.goto w (.sendFailed k rc)) := by
  obtain ⟨ht, hl, ho⟩ := h.held hpc rfl trivial
  obtain ⟨hitem, hupc, hnext, _⟩ := prepareSend_item hu
  exact h.held_step (p := .sendFailed k rc) (i := item c s k) hw hpc rfl trivial
    (by simp [State.goto, hupc]) (hitem.trans (Function.update_eq_self k _).symm) hnext trivial nofun
    nofun (fun _ => .opened ho ht (once_of_nowhere hl)) nofun (.inl fun w' _ => h.open_req ho w')

lemma sent_kept {u : State} {sctrl : Ctrls} {a junk : ℕ} {l : LdapLd} {x : Conn} (h : Kept c s)
    (hlists : ∀ d, ∃ q, Holds (s.conn d).lists q) (hw : w < c.tcWThreadNb)
    (hpc : s.pc w = .sending k r sctrl) (hu : prepareSend c w s k r sctrl = some u)
    (ha : (u.conn (ldId c w)).lists.heap.cell a = none)
    (hl : insertRequest a junk ⟨(u.conn (ldId c w)).msgid + 1, k⟩ (u.conn (ldId c w)).lists = some l)
    (hx : x.lists = l) : Kept c ((u.setConn (ldId c w) x).goto w .top) := by
  obtain ⟨ht, hno, ho⟩ := h.held hpc rfl trivial
  obtain ⟨hitem, hupc, hnext, _, hul⟩ := prepareSend_item hu
  obtain ⟨q, hq⟩ := hlists (ldId c w)
  rw [← hul] at hq
  have hq' := holds_of_insertRequest hq ha hl
  rw [← hx] at hq'
  have hpush := item_push (c := c) hq hq'
  rw [hitem] at hpush
  refine h.held_step (p := .top) hw hpc rfl trivial (by simp [State.goto, State.setConn, hupc])
    hpush hnext trivial nofun nofun (fun _ => .opened ho ht ⟨ldId c w, ?_, fun e he => ?_⟩) nofun
    (.inl fun w' _ => h.open_req ho w')
  · simp [hno (ldId c w)]
  · simpa [he] using hno e

lemma pendingOn_remove {i : Item} {d : ℕ} (h : i.PendingOn d) :
    Item.Nowhere { i with req := Function.update i.req d (i.req d - 1) } := by
  obtain ⟨hle, hreq, hresp⟩ := h
  intro e
  by_cases he : e = d
  · subst he
    simp only [Function.update_self, hresp, and_true]
    omega
  · simp [he, hreq e he, hresp e]

lemma item_rc {q : TLdapReqCtx} (hq : s.req k = some q) : (item c s k).rc = some q.rc := by
  simp [item, hq]

lemma removeRequest_kept {q : TLdapReqCtx} {l : LdapLd} {b : Bool} (h : Kept c s)
    (hlists : ∀ d, ∃ q, Holds (s.conn d).lists q) (hw : w < c.tcWThreadNb) (hpc : s.pc w = .resp k r)
    (hq : s.req r = some q) (hrc : q.rc = ldapTimeout)
    (hl : getAndRemoveRequest k (s.conn (ldId c w)).lists = some (l, b)) :
    Kept c ((s.setLists (ldId c w) l).goto w (.respFree k r)) := by
  obtain rfl : r = k := by simpa [hpc, Paired] using h.paired w
  have hclaims : CtxClaims (.resp r r) (item c s r) := (item_rc hq).trans (congrArg some hrc)
  obtain ⟨ht, hp, hctx⟩ := h.held hpc rfl hclaims
  obtain ⟨qs, hqs⟩ := hlists (ldId c w)
  have hhas : Has reqRules (item c s) s.pc w r := ⟨by rw [hpc]; rfl, trivial⟩
  have hdet : Detached (item c s r) := h.reqs.held w r hhas
  refine h.held_step (p := .respFree r r) hw hpc rfl hclaims rfl
    (item_remove (x := { s.conn (ldId c w) with lists := l }) hqs (holds_of_remove hqs hl)) rfl rfl
    (fun j hj => (Option.some.inj hj).symm) (fun _ _ => ⟨ht, pendingOn_remove hp, hctx⟩)
    (fun hno => absurd trivial (hno rfl)) (fun j hj => ⟨(Option.some.inj hj).symm, hdet⟩)
    (.inl fun w' hw' hj => hw' (h.reqs.one w' w r ⟨hj, trivial⟩ hhas))

lemma freeTimeout_kept (h : Kept c s) (hw : w < c.tcWThreadNb) (hpc : s.pc w = .respFree k r) :
    Kept c ((((s.setCtx k none).setReq r none).complete k).goto w .exec) := by
  obtain rfl : r = k := by simpa [hpc, Paired] using h.paired w
  obtain ⟨ht, hl, hctx⟩ := h.held hpc rfl trivial
  have hhas : Has reqRules (item c s) s.pc w r := ⟨by rw [hpc]; rfl, trivial⟩
  have hitem : item c ((s.setCtx r none).setReq r none) =
      Function.update (item c s) r { item c s r with ctx := none, rc := none } := by
    rw [item_setReq, item_setCtx, Function.update_idem, Function.update_self]
    rfl
  exact h.held_step (p := .exec) hw hpc rfl trivial rfl hitem (nextCtx_complete ..) trivial nofun nofun
    (fun _ => .gone rfl ht hl) nofun
    (.inl fun w' hw' hj => hw' (h.reqs.one w' w r ⟨hj, trivial⟩ hhas))

lemma ctxHeld_resp {p : Pc} {i : Item} (h : CtxHeld c w k p i) (d : ℕ) : i.resp d = 0 := by
  cases p with
  | setSleep | insert | send | sending | gotResp | respMark | respFree => exact (h.2.1 d).2
  | gotTimer =>
    rcases h.2 with ⟨hl, _⟩ | ⟨hl, _⟩ | ⟨hl, _⟩
    · exact (hl d).2
    · exact (hl d).2
    · exact hl.2.2 d
  | timeoutMark | resp => exact h.2.1.2.2 d
  | _ => exact h.elim

lemma ctxLoose_listed {i : Item} {d : ℕ} (h : CtxLoose c k i) (hpos : 0 < i.req d + i.resp d) :
    i.Open k ∧ i.Timed c ∧ i.req d + i.resp d = 1 ∧ ∀ e, e ≠ d → i.req e = 0 ∧ i.resp e = 0 := by
  cases h with
  | gone _ _ hl => simp [hl d] at hpos
  | wait _ _ hl => simp [hl d] at hpos
  | spent _ _ hl => simp [hl d] at hpos
  | opened ho ht hl =>
    obtain ⟨d', hle, hother⟩ := hl
    have hd : d = d' := by
      by_contra hne
      simp [hother d hne] at hpos
    subst hd
    exact ⟨ho, ht, by omega, hother⟩

lemma response_kept {l : LdapLd} (h : Kept c s) (hlists : ∀ d, ∃ q, Holds (s.conn d).lists q)
    (hw : w < c.tcWThreadNb) (hpc : s.pc w = .top)
    (hl : getAndRemoveFirstResponse (s.conn (ldId c w)).lists = some (l, some k)) :
    Kept c ((s.setLists (ldId c w) l).goto w (.gotResp k)) := by
  obtain ⟨q, hq⟩ := hlists (ldId c w)
  obtain ⟨e, es, hresp, rfl, hq'⟩ := holds_of_first_some hq hl
  obtain ⟨hpos, hitem⟩ := item_take (c := c) (x := { s.conn (ldId c w) with lists := l }) hq hresp hq'
  have hnone : ∀ w', ¬ Has (ctxRules c) (item c s) s.pc w' e.sleepCtx := by
    intro w' hhas
    have hzero := ctxHeld_resp (h.ctxs.held w' _ hhas) (ldId c w)
    omega
  obtain ⟨ho, ht, hone, hother⟩ :=
    ctxLoose_listed (d := ldId c w) (h.ctxs.loose _ hnone) (by omega)
  have hk := h.allocated ho.1
  refine h.step hw rfl hitem (fun j hj => ⟨hj, fun he => ?_⟩) trivial (fun j hj => ?_)
    (fun w' _ => hnone w') (fun j hj => (Option.some.inj hj).symm) (fun _ _ => ⟨ht, ?_, ho⟩)
    (fun hno => absurd trivial (hno rfl)) nofun (.inl fun w' _ => h.open_req ho w')
  · exact absurd (he ▸ hj : s.nextCtx ≤ e.sleepCtx) (by omega)
  · rw [Has, hpc] at hj
    cases hj.1
  · intro d
    by_cases hd : d = ldId c w
    · subst hd
      simp only [Function.update_self]
      omega
    · simpa [hd] using hother d hd

lemma nextDue_eq (s : State) : (tTimerGetUserToResume s.wheel).2 = nextDue s := by
  unfold tTimerGetUserToResume nextDue
  cases s.wheel.tTimerCircularTable s.wheel.currentIndex <;> rfl

lemma ctxHeld_timer {p : Pc} {i : Item} (h : CtxHeld c w k p i) (hkey : ctxKey p = some k)
    (hpos : 0 < i.timer) : inTransit k p = true := by
  cases p with
  | setSleep | insert | gotTimer | timeoutMark | resp | respFree => exact absurd h.1 hpos.ne'
  | send | sending | gotResp | respMark => simpa [inTransit, ctxKey] using hkey
  | _ => exact h.elim

lemma Kept.worker_lt (h : Kept c s) {v j : ℕ} (hkey : ctxKey (s.pc v) = some j) :
    v < c.tcWThreadNb := by
  by_contra hv
  rw [h.idle v (Nat.le_of_not_lt hv)] at hkey
  cases hkey

lemma pop_kept (h : Kept c s) (hsh : Shell c s) (hw : w < c.tcWThreadNb) (hpc : s.pc w = .noResp)
    (hk : (tTimerGetUserToResume s.wheel).2 = some k) (hg : Resumable c s w k) :
    Kept c ({ s with wheel := (tTimerGetUserToResume s.wheel).1 }.goto w (.gotTimer k)) := by
  obtain ⟨hpos, hitem⟩ := item_pop hsh.index hk
  obtain ⟨hlisted, htransit⟩ := hg
  have hnone : ∀ v, ¬ Has (ctxRules c) (item c s) s.pc v k := by
    intro v hhas
    have htr := ctxHeld_timer (h.ctxs.held v k hhas) hhas.1 hpos
    rw [htransit v (h.worker_lt hhas.1)] at htr
    cases htr
  -- A connection that no worker uses has empty lists.
  have hwhere : ∀ d, (item c s k).resp d = 0 ∧ (d ≠ ldId c w → (item c s k).req d = 0) := by
    intro d
    by_cases hd : ∃ v < c.tcWThreadNb, d = ldId c v
    · obtain ⟨v, hv, rfl⟩ := hd
      exact hlisted v hv
    · obtain ⟨hreq, hresp⟩ := hsh.used d fun v hv hdv => hd ⟨v, hv, hdv⟩
      simp [item, hreq, hresp, entries_nil]
  have hheld : CtxHeld c w k (.gotTimer k)
      { item c s k with timer := (item c s k).timer - 1 } ∧ k < s.nextCtx := by
    cases h.ctxs.loose k hnone with
    | gone _ ht => exact absurd ht hpos.ne'
    | wait hctx ht hl => exact ⟨⟨by simp only; omega, .inl ⟨hl, _, hctx⟩⟩, h.allocated hctx⟩
    | spent hctx ht hl => exact ⟨⟨by simp only; omega, .inr (.inl ⟨hl, hctx⟩)⟩, h.allocated hctx⟩
    | opened ho ht hl =>
      have ht' := ht.2
      refine ⟨⟨by simp only; omega, .inr (.inr ⟨⟨?_, fun d hd => (hwhere d).2 hd,
        fun d => (hwhere d).1⟩, ho⟩)⟩, h.allocated ho.1⟩
      obtain ⟨d, hle, hother⟩ := hl
      by_cases hd : ldId c w = d
      · simp only [hd]
        omega
      · simp [hother _ hd]
  refine h.step hw rfl hitem (fun j hj => ⟨hj, fun he => ?_⟩) trivial (fun j hj => ?_)
    (fun v _ => hnone v) (fun j hj => (Option.some.inj hj).symm) (fun _ _ => hheld.1)
    (fun hno => absurd trivial (hno rfl)) (fun j hj => by cases hj) (.inr ⟨rfl, rfl, id⟩)
  · have hle : s.nextCtx ≤ k := he ▸ hj
    exact absurd hle (Nat.not_le_of_lt hheld.2)
  · rw [Has, hpc] at hj
    cases hj.1

lemma newCtx_kept {a : Action} {job : Job} {junk : Option ℕ} (h : Kept c s)
    (hw : w < c.tcWThreadNb) (hpc : s.pc w = .exec) (ha : Job.action job = a) :
    Kept c (newCtx w s a job junk) := by
  have hfresh := h.fresh s.nextCtx (Nat.le_refl _)
  have hnone : ∀ v, ¬ Has (ctxRules c) (item c s) s.pc v s.nextCtx := by
    intro v hhas
    obtain ⟨x, hx⟩ := ctxHeld_ctx (h.ctxs.held v _ hhas)
    rw [hfresh] at hx
    cases hx
  refine h.step hw rfl (item_setCtx (s := s) _) (fun j (hj : s.nextCtx + 1 ≤ j) => by omega) trivial
    (fun j hj => ?_) (fun v _ => hnone v) (fun j hj => (Option.some.inj hj).symm) (fun _ _ => ?_)
    (fun hno => absurd trivial (hno rfl)) nofun
    (.inl fun v _ => h.unsent_req (by rw [hfresh]) v)
  · rw [Has, hpc] at hj
    cases hj.1
  · refine ⟨by simp [hfresh], fun d => by simp [hfresh], by simp [hfresh], junk, ?_⟩
    rw [ha]

lemma ctxHeld_freeReq {p : Pc} {i : Item} (h : CtxHeld c w k p i) (hno : ¬ i.Open k) :
    CtxHeld c w k p { i with rc := none } := by
  cases p with
  | setSleep | insert | send => exact ⟨h.1, h.2.1, rfl, h.2.2.2⟩
  | sending | gotResp | respMark | timeoutMark => exact absurd h.2.2 hno
  | gotTimer =>
    refine ⟨h.1, ?_⟩
    rcases h.2 with hwait | hspent | ⟨_, ho⟩
    · exact .inl hwait
    · exact .inr (.inl hspent)
    · exact absurd ho hno
  | _ => exact h

lemma ctxLoose_freeReq {i : Item} (h : CtxLoose c k i) (hno : ¬ i.Open k) :
    CtxLoose c k { i with rc := none } := by
  cases h with
  | gone hctx ht hl => exact .gone hctx ht hl
  | wait hctx ht hl => exact .wait hctx ht hl
  | spent hctx ht hl => exact .spent hctx ht hl
  | opened ho => exact absurd ho hno

lemma freeReq_kept {rc : ℤ} (h : Kept c s) (hw : w < c.tcWThreadNb)
    (hpc : s.pc w = .respDone k r rc) {p : Pc} (hp : p = .top ∨ p = .exec) :
    Kept c (((s.setReq r none).complete k).goto w p) := by
  obtain rfl : r = k := by simpa [hpc, Paired] using h.paired w
  have hhas : Has reqRules (item c s) s.pc w r := ⟨by rw [hpc]; rfl, trivial⟩
  have hone : ∀ v, v ≠ w → reqKey (s.pc v) ≠ some r := fun v hv hj =>
    hv (h.reqs.one v w r ⟨hj, trivial⟩ hhas)
  have hno : ¬ (item c s r).Open r := fun ho => not_detached_of_open ho (h.reqs.held w r hhas)
  have hkey : ctxKey p = none ∧ reqKey p = none ∧ Paired p := by
    rcases hp with rfl | rfl <;> exact ⟨rfl, rfl, trivial⟩
  have hctxs : Keeps (ctxRules c)
      (Function.update (item c s) r { item c s r with rc := none }) s.pc := by
    refine h.ctxs.refresh (fun v hv => ?_) (fun v hv => ctxHeld_freeReq (h.ctxs.held v r hv) hno)
      fun hl => ctxLoose_freeReq hl hno
    -- Only a worker at `resp` looks at the return code, and it would have the request context.
    cases hq : s.pc v with
    | resp j r' =>
      rw [hq] at hv
      cases Option.some.inj hv
      obtain rfl : r' = r := by simpa [hq, Paired] using h.paired v
      refine absurd (show reqKey (s.pc v) = some r' by rw [hq]; rfl) (hone v ?_)
      rintro rfl
      rw [hpc] at hq
      cases hq
    | _ => exact Iff.rfl
  have hitem : item c (s.setReq r none) =
      Function.update (item c s) r { item c s r with rc := none } := item_setReq none
  obtain ⟨hidle, hpairs⟩ := h.pcs (t := ((s.setReq r none).complete r).goto w p) hw rfl hkey.2.2
  refine ⟨hidle, hpairs, fun j hj => ?_, ?_, ?_⟩
  · have hj' := h.fresh j hj
    refine (congrFun hitem j).trans ?_
    by_cases hjr : j = r
    · subst hjr
      rw [Function.update_self, hj']
    · rw [Function.update_of_ne hjr, hj']
  · show Keeps (ctxRules c) (item c (s.setReq r none)) (Function.update s.pc w p)
    rw [hitem]
    refine hctxs.goto (fun j hj => ?_) fun j hj => ?_
    · rw [Has, hpc] at hj
      cases hj.1
    · rw [show (ctxRules c).key p = none from hkey.1] at hj
      cases hj
  · show Keeps reqRules (item c (s.setReq r none)) (Function.update s.pc w p)
    rw [hitem]
    refine reqs_update h.reqs (fun v hv hj => absurd hj (hone v hv)) fun j hj => ?_
    rw [hkey.2.1] at hj
    cases hj

lemma idle_goto {t : State} {p₀ p : Pc} (h : Kept c s) (hw : w < c.tcWThreadNb)
    (hpc₀ : s.pc w = p₀) (hkey₀ : ctxKey p₀ = none) (hpc : t.pc = Function.update s.pc w p)
    (hitem : item c t = item c s) (hnext : t.nextCtx = s.nextCtx) (hkey : ctxKey p = none)
    (hreq : reqKey p = none) (hpaired : Paired p) : Kept c t := by
  refine h.goto hw (fun j hj => ?_) hkey hpc hitem hnext hpaired fun j hj => ?_
  · have hj' : ctxKey (s.pc w) = some j := hj.1
    rw [hpc₀, hkey₀] at hj'
    cases hj'
  · rw [hreq] at hj
    cases hj

lemma outer_goto {p₀ p : Pc} (h : Kept c s) (hw : w < c.tcWThreadNb) (hpc₀ : s.pc w = p₀)
    (hkey₀ : ctxKey p₀ = none) (hp : p = .top ∨ p = .exec) : Kept c (s.goto w p) := by
  rcases hp with rfl | rfl
  · exact idle_goto h hw hpc₀ hkey₀ rfl rfl rfl rfl rfl trivial
  · exact idle_goto h hw hpc₀ hkey₀ rfl rfl rfl rfl rfl trivial

lemma treat_kept {q : TLdapReqCtx} {rc : ℤ} {x : Conn} {e : Event} (h : Kept c s)
    (hlists : ∀ d, ∃ q, Holds (s.conn d).lists q) (hw : w < c.tcWThreadNb) (hpc : s.pc w = .resp k r)
    (hq : s.req r = some q) (hrc : q.rc ≠ ldapTimeout) (hx : x.lists = (s.conn (ldId c w)).lists) :
    Kept c (((s.setConn (ldId c w) x).record e).goto w (.respDone k r rc)) := by
  obtain rfl : r = k := by simpa [hpc, Paired] using h.paired w
  obtain ⟨qs, hqs⟩ := hlists (ldId c w)
  refine h.goto hw (fun j hj => ?_) rfl rfl (item_same hqs (hx ▸ hqs)) rfl rfl fun j hj => ?_
  · have hkey := hj.1
    have hclaims := hj.2
    rw [hpc] at hkey hclaims
    cases Option.some.inj hkey
    exact hrc (Option.some.inj ((item_rc hq).symm.trans hclaims))
  · rw [hpc]
    exact hj

variable {t : State} {i : Input}

theorem worker_kept (h : Kept c s) (hsh : Shell c s) (hg : Undisturbed c s (.worker w i))
    (hw : w < c.tcWThreadNb) (hm : WorkerMove c w s i t) : Kept c t := by
  have hn : 0 < c.tableSize := Nat.zero_lt_of_lt hsh.size
  cases hm with
  | response hpc hl => exact response_kept h hsh.lists hw hpc hl
  | noResponse hpc hl =>
    obtain ⟨q, hq⟩ := hsh.lists (ldId c w)
    exact idle_goto h hw hpc rfl rfl
      (item_same (x := { s.conn (ldId c w) with lists := _ }) hq (holds_of_first_none hq hl)) rfl rfl
      rfl trivial
  | readResp hpc hx hr => exact readResp_kept h hw hpc hx hr
  | readStray hpc hx hr => exact (readStray_absurd h hpc hx hr).elim
  | markResp hpc hx => exact markResp_kept h hw hpc hx
  | pop hpc hk =>
    refine pop_kept h hsh hw hpc hk (hg.2 hpc _ ?_)
    rw [← nextDue_eq, hk]
    rfl
  | wake hpc hx ha => exact wake_kept h hw hpc hx ha
  | expire hpc hx ha hr => exact expire_kept h hw hpc hx ha hr
  | discard hpc hx ha hr => exact discard_kept h hw hpc hx ha hr
  | markTimeout hpc hq hx => exact markTimeout_kept h hw hpc hx
  | noPop hpc | lookAgain hpc | notEnding hpc | leave hpc | newScenario hpc | close hpc
  | finish hpc => exact idle_goto h hw hpc rfl rfl rfl rfl rfl rfl trivial
  | @startSearch sctrl junk hpc =>
    have hkept : Kept c (newCtx w s .search (.search sctrl) junk) := newCtx_kept h hw hpc rfl
    exact hkept.congr rfl rfl rfl
  | startWait hpc => exact newCtx_kept h hw hpc rfl
  | other hpc hp => exact outer_goto h hw hpc rfl hp
  | setSleep hpc => exact setSleep_kept h hw hpc
  | refuseSleep hpc hd => exact refuseSleep_kept h hw hpc hd
  | insert hpc => exact insert_kept h hn hw hpc
  | nullLd hpc => exact absurd rfl hg.1
  | newReq hpc hx => exact newReq_kept h hw hpc hx
  | sent hpc hu ha hl => exact sent_kept h hsh.lists hw hpc hu ha hl rfl
  | sendError hpc hu => exact sendError_kept h hw hpc hu
  | @failed _ k rc hpc =>
    have hkept : Kept c (s.goto w (afterAction c rc)) :=
      outer_goto h hw hpc rfl (afterAction_cases rc)
    exact hkept.congr rfl rfl rfl
  | removeRequest hpc hq hrc hl => exact removeRequest_kept h hsh.lists hw hpc hq hrc hl
  | treat hpc hq hrc => exact treat_kept h hsh.lists hw hpc hq hrc rfl
  | freeTimeout hpc => exact freeTimeout_kept h hw hpc
  | freeReq hpc => exact freeReq_kept h hw hpc (afterAction_cases _)

end WorkerMoves

end LdapTgen.AsyncContexts
