import LdapTgen.AsyncInvariant

/-! How often a search is completed and how often it is sampled. A started search is owed a completion
from the moment its context is allocated until its request context is freed. -/
namespace LdapTgen.Completion
open LabelledRun LdapLists TimerWheel AsyncSystem AsyncContexts Custody

def started (s : State) (k : ℕ) : ℕ := s.log.count (.started k)
def completed (s : State) (k : ℕ) : ℕ := s.log.count (.completed k)
def sampled (s : State) (k : ℕ) : ℕ := s.log.count (.sample (some k))

/-- The worker is going to complete search `k` or to hand it on. -/
def worksOn (k : ℕ) : Pc → Prop
  | .sendFailed j _ => j = k
  | p => ctxKey p = some k ∨ reqKey p = some k

/-- A worker works on the search, or the timetable will give it back with its request. -/
def Underway (c : Conf) (s : State) (k : ℕ) : Prop :=
  (∃ w < c.tcWThreadNb, worksOn k (s.pc w)) ∨
    0 < onWheel c.tableSize s.wheel k + hand k s.topTU ∧ ∃ x r, s.ctx k = some x ∧ x.req = some r

/-- Every search is started once, completed once at most, and sampled when it is completed; it is not
lost before; no sample is taken for anything else. -/
structure ExactlyOnce (c : Conf) (s : State) : Prop where
  noOrphan : Event.sample none ∉ s.log
  same : ∀ k, sampled s k = completed s k
  once : ∀ k, completed s k ≤ started s k ∧ started s k ≤ 1
  underway : ∀ k, completed s k < started s k → Underway c s k

def isSendError : Input → Bool
  | .sendError _ => true
  | _ => false

/-- Undisturbed steps in which `ldap_search` does not fail and the connections fail only while they have
no pending request, with an error that restarts them. -/
def Regular (c : Conf) (s : State) (e : Label) : Prop :=
  Undisturbed c s e ∧ match e with
    | .worker _ i => isSendError i = false
    | .connError d myerrno _ => restarts myerrno ∧ (s.conn d).lists.pending = []
    | _ => True

instance (c : Conf) (s : State) : ∀ e, Decidable (Regular c s e)
  | .worker _ _ => inferInstanceAs (Decidable (Undisturbed _ _ _ ∧ _ = _))
  | .connError _ _ _ => inferInstanceAs (Decidable (Undisturbed _ _ _ ∧ _ ∧ _))
  | .deliver _ _ _ => inferInstanceAs (Decidable (Undisturbed _ _ _ ∧ True))
  | .topTU => inferInstanceAs (Decidable (Undisturbed _ _ _ ∧ True))
  | .main => inferInstanceAs (Decidable (Undisturbed _ _ _ ∧ True))

/-- The search a worker has before it is sent, or after its request context was taken. -/
def owedKey : Pc → Option ℕ
  | .setSleep k (.search _) => some k
  | .insert k (.search _) _ => some k
  | .send k _ => some k
  | .resp _ r => some r
  | .respFree _ r => some r
  | .respDone _ r _ => some r
  | _ => none

def Owed (s : State) (k : ℕ) : Prop :=
  (∃ w, owedKey (s.pc w) = some k) ∨ s.ctx k = some ⟨.search, some k⟩

def failing : Pc → Bool
  | .sendFailed _ _ => true
  | _ => false

/-- The completions still to come make up for those that are missing, and no worker completes a search
that was not sent. -/
structure Tally (s : State) : Prop where
  noOrphan : Event.sample none ∉ s.log
  same : ∀ k, sampled s k = completed s k
  balance : ∀ k, Owed s k ∧ completed s k + 1 = started s k ∨
    ¬ Owed s k ∧ completed s k = started s k
  fresh : ∀ k, s.nextCtx ≤ k → started s k = 0
  once : ∀ k, started s k ≤ 1
  sending : ∀ w, failing (s.pc w) = false

section OwedSearches
variable {s t : State} {w k j : ℕ} {p : Pc}

lemma owed_update (hpc : t.pc = Function.update s.pc w p) : Owed t j ↔
    owedKey p = some j ∨ (∃ v, v ≠ w ∧ owedKey (s.pc v) = some j) ∨
      t.ctx j = some ⟨.search, some j⟩ := by
  rw [Owed, ← or_assoc, hpc]
  refine or_congr_left ⟨?_, ?_⟩
  · rintro ⟨v, hv⟩
    by_cases hvw : v = w
    · rw [hvw, Function.update_self] at hv
      exact .inl hv
    · rw [Function.update_of_ne hvw] at hv
      exact .inr ⟨v, hvw, hv⟩
  · rintro (hp | ⟨v, hvw, hv⟩)
    · exact ⟨w, by rwa [Function.update_self]⟩
    · exact ⟨v, by rwa [Function.update_of_ne hvw]⟩

lemma owed_split (s : State) (w j : ℕ) : Owed s j ↔
    owedKey (s.pc w) = some j ∨ (∃ v, v ≠ w ∧ owedKey (s.pc v) = some j) ∨
      s.ctx j = some ⟨.search, some j⟩ :=
  owed_update (Function.update_eq_self w s.pc).symm

lemma owed_goto (hpc : t.pc = Function.update s.pc w p) (hkey : owedKey p = owedKey (s.pc w))
    (hctx : t.ctx j = some ⟨.search, some j⟩ ↔ s.ctx j = some ⟨.search, some j⟩) :
    Owed t j ↔ Owed s j := by
  rw [owed_update hpc, owed_split s w, hkey, hctx]

lemma owed_of_ne (hpc : t.pc = Function.update s.pc w p) (hj : j ≠ k)
    (hfrom : ∀ i, owedKey (s.pc w) = some i → i = k) (hto : ∀ i, owedKey p = some i → i = k)
    (hctx : t.ctx j = s.ctx j) : Owed t j ↔ Owed s j := by
  have h₀ : ¬ owedKey (s.pc w) = some j := fun h => hj (hfrom j h)
  have h₁ : ¬ owedKey p = some j := fun h => hj (hto j h)
  rw [owed_update hpc, owed_split s w, hctx]
  simp only [h₀, h₁, false_or]

end OwedSearches

def silent : Event → Bool
  | .searched _ _ _ _ => true
  | .treated _ _ _ => true
  | .restarted _ => true
  | _ => false

section Tallies
variable {s t : State} {w k : ℕ} {p : Pc}

lemma Tally.congr (h : Tally s) (howed : ∀ k, Owed t k ↔ Owed s k) (hnext : s.nextCtx ≤ t.nextCtx)
    (hlog : t.log = s.log) (hsend : ∀ w, failing (t.pc w) = false) : Tally t := by
  refine ⟨?_, fun k => ?_, fun k => ?_, fun k hk => ?_, fun k => ?_, hsend⟩
  all_goals simp only [started, completed, sampled, hlog]
  · exact h.noOrphan
  · exact h.same k
  · rw [howed]
    exact h.balance k
  · exact h.fresh k (hnext.trans hk)
  · exact h.once k

lemma Tally.record (h : Tally s) {e : Event} (he : silent e = true) : Tally (s.record e) := by
  have hcount : ∀ x, silent x = false → (s.record e).log.count x = s.log.count x := by
    intro x hx
    refine List.count_cons_of_ne ?_
    rintro rfl
    rw [he] at hx
    cases hx
  refine ⟨?_, fun k => ?_, fun k => ?_, fun k hk => ?_, fun k => ?_, h.sending⟩
  · rw [← List.count_eq_zero, hcount _ rfl, List.count_eq_zero]
    exact h.noOrphan
  · exact (hcount _ rfl).trans ((h.same k).trans (hcount _ rfl).symm)
  · rw [started, completed, hcount _ rfl, hcount _ rfl]
    exact h.balance k
  · exact (hcount _ rfl).trans (h.fresh k hk)
  · exact (hcount _ rfl).trans_le (h.once k)

lemma Tally.start (h : Tally s) (howed : Owed t s.nextCtx)
    (hother : ∀ j, j ≠ s.nextCtx → (Owed t j ↔ Owed s j)) (hnext : t.nextCtx = s.nextCtx + 1)
    (hlog : t.log = .started s.nextCtx :: s.log) (hsend : ∀ w, failing (t.pc w) = false) :
    Tally t := by
  have hstarted : ∀ j, started t j = started s j + if s.nextCtx = j then 1 else 0 := by
    intro j
    simp [started, hlog, List.count_cons]
  have hcompleted : ∀ j, completed t j = completed s j := by
    intro j
    simp [completed, hlog]
  have hzero := h.fresh s.nextCtx le_rfl
  refine ⟨?_, fun j => ?_, fun j => ?_, fun j hj => ?_, fun j => ?_, hsend⟩
  · simpa [hlog] using h.noOrphan
  · rw [hcompleted, ← h.same]
    simp [sampled, hlog]
  · rw [hstarted, hcompleted]
    by_cases hj : j = s.nextCtx
    · subst hj
      have hbal := h.balance s.nextCtx
      refine .inl ⟨howed, ?_⟩
      simp only [if_true]
      omega
    · rw [hother j hj, if_neg (Ne.symm hj), Nat.add_zero]
      exact h.balance j
  · have hne : s.nextCtx ≠ j := by omega
    rw [hstarted, if_neg hne, Nat.add_zero]
    exact h.fresh j (by omega)
  · rw [hstarted]
    by_cases hj : s.nextCtx = j
    · subst hj
      simp [hzero]
    · rw [if_neg hj, Nat.add_zero]
      exact h.once j

lemma Tally.complete (h : Tally s) (hbefore : Owed s k) (hafter : ¬ Owed t k)
    (hother : ∀ j, j ≠ k → (Owed t j ↔ Owed s j)) (hnext : t.nextCtx = s.nextCtx)
    (hlog : t.log = .completed k :: .sample (some k) :: s.log)
    (hsend : ∀ w, failing (t.pc w) = false) : Tally t := by
  have hstarted : ∀ j, started t j = started s j := by
    intro j
    simp [started, hlog]
  have hcompleted : ∀ j, completed t j = completed s j + if k = j then 1 else 0 := by
    intro j
    simp [completed, hlog, List.count_cons]
  refine ⟨?_, fun j => ?_, fun j => ?_, fun j hj => ?_, fun j => ?_, hsend⟩
  · simpa [hlog] using h.noOrphan
  · rw [hcompleted, ← h.same]
    simp [sampled, hlog, List.count_cons]
  · rw [hstarted, hcompleted]
    by_cases hj : j = k
    · subst hj
      have hbal := h.balance j
      simp only [hbefore, true_and, not_true, false_and, or_false] at hbal
      exact .inr ⟨hafter, by simpa using hbal⟩
    · rw [hother j hj, if_neg (Ne.symm hj), Nat.add_zero]
      exact h.balance j
  · rw [hstarted]
    exact h.fresh j (hnext ▸ hj)
  · rw [hstarted]
    exact h.once j

lemma Tally.send_goto (h : Tally s) (hpc : t.pc = Function.update s.pc w p)
    (hp : failing p = false) (v : ℕ) : failing (t.pc v) = false := by
  rw [hpc]
  by_cases hv : v = w
  · rwa [hv, Function.update_self]
  · rw [Function.update_of_ne hv]
    exact h.sending v

theorem Tally.goto {p₀ : Pc} (h : Tally s) (hpc₀ : s.pc w = p₀)
    (hpc : t.pc = Function.update s.pc w p) (hkey : owedKey p = owedKey p₀)
    (hp : failing p = false)
    (hctx : ∀ j, t.ctx j = some ⟨.search, some j⟩ ↔ s.ctx j = some ⟨.search, some j⟩)
    (hnext : s.nextCtx ≤ t.nextCtx) (hlog : t.log = s.log) : Tally t :=
  h.congr (fun j => owed_goto hpc (hkey.trans (congrArg owedKey hpc₀.symm)) (hctx j)) hnext hlog
    (h.send_goto hpc hp)

theorem Tally.move {p₀ : Pc} (h : Tally s) (hpc₀ : s.pc w = p₀)
    (hpc : t.pc = Function.update s.pc w p) (hfrom : ∀ j, owedKey p₀ = some j → j = k)
    (hto : ∀ j, owedKey p = some j → j = k) (hp : failing p = false)
    (hctx : ∀ j, j ≠ k → t.ctx j = s.ctx j) (hbefore : Owed s k) (hafter : Owed t k)
    (hnext : t.nextCtx = s.nextCtx) (hlog : t.log = s.log) : Tally t := by
  refine h.congr (fun j => ?_) (Nat.le_of_eq hnext.symm) hlog (h.send_goto hpc hp)
  by_cases hj : j = k
  · subst hj
    exact iff_of_true hafter hbefore
  · exact owed_of_ne hpc hj (by rwa [hpc₀]) hto (hctx j hj)

end Tallies

section Moves
variable {c : Conf} {s t : State} {w k r : ℕ}

lemma takeReq_tally {p₀ : Pc} {x : TSleep} (h : Tally s) (hpc₀ : s.pc w = p₀)
    (hkey : owedKey p₀ = none) (ho : s.ctx k = some ⟨.search, some k⟩)
    (hpc : t.pc = Function.update s.pc w (.resp k k)) (hctx : t.ctx = Function.update s.ctx k (some x))
    (hnext : t.nextCtx = s.nextCtx) (hlog : t.log = s.log) : Tally t := by
  refine h.move (k := k) hpc₀ hpc (fun j hj => ?_) (fun j hj => (Option.some.inj hj).symm) rfl
    (fun j hj => ?_) (.inr ho) ((owed_update hpc).mpr (.inl rfl)) hnext hlog
  · rw [hkey] at hj
    cases hj
  · rw [hctx, Function.update_of_ne hj]

lemma freeCtx_tally {p : Pc} {x : TSleep} (h : Tally s) (hpc : s.pc w = .gotTimer k)
    (hx : s.ctx k = some x) (hne : x ≠ ⟨.search, some k⟩) (hkey : owedKey p = none)
    (hp : failing p = false) : Tally ((s.setCtx k none).goto w p) := by
  refine h.goto hpc rfl hkey hp (fun j => ?_) le_rfl rfl
  by_cases hj : j = k
  · subst hj
    simp [State.goto, State.setCtx, hx, hne]
  · simp [State.goto, State.setCtx, hj]

lemma owedKey_cases (hk : Kept c s) (hkey : owedKey (s.pc w) = some k) :
    reqKey (s.pc w) = some k ∨ (item c s k).rc = none := by
  cases hp : s.pc w with rw [hp] at hkey
  | setSleep j job =>
    cases job with
    | wait => cases hkey
    | search =>
      cases hkey
      exact .inr (hk.held hp rfl trivial).2.2.1
  | insert j job delay =>
    cases job with
    | wait => cases hkey
    | search =>
      cases hkey
      exact .inr (hk.held hp rfl trivial).2.2.1
  | send j sctrl =>
    cases hkey
    exact .inr (hk.held hp rfl trivial).2.2.1
  | resp | respFree | respDone => exact .inl hkey
  | _ => cases hkey

lemma complete_tally {p₀ p : Pc} (h : Tally s) (hk : Kept c s) (hpc₀ : s.pc w = p₀)
    (hreq : reqKey p₀ = some k) (hpc : t.pc = Function.update s.pc w p) (hkey : owedKey p = none)
    (hp : failing p = false) (hctx : ∀ j, j ≠ k → t.ctx j = s.ctx j)
    (hself : t.ctx k = none ∨ t.ctx k = s.ctx k) (hnext : t.nextCtx = s.nextCtx)
    (hlog : t.log = .completed k :: .sample (some k) :: s.log) : Tally t := by
  have hhas : Has reqRules (item c s) s.pc w k := ⟨by rw [hpc₀]; exact hreq, trivial⟩
  have hdet : Detached (item c s k) := hk.reqs.held w k hhas
  have howes : owedKey p₀ = some k := by
    cases p₀ with
    | resp | respFree | respDone => exact hreq
    | _ => cases hreq
  refine h.complete (k := k) ((owed_split s w k).mpr (.inl (by rw [hpc₀]; exact howes))) ?_
    (fun j hj => owed_of_ne hpc hj ?_ ?_ (hctx j hj)) hnext hlog (h.send_goto hpc hp)
  · rw [owed_update hpc, hkey]
    rintro (hno | ⟨v, hv, hvk⟩ | ho)
    · cases hno
    · rcases owedKey_cases hk hvk with hvr | hrc
      · exact hv (hk.reqs.one v w k ⟨hvr, trivial⟩ hhas)
      · rw [Detached, hrc] at hdet
        cases hdet.1
    · rcases hself with hnone | hsame
      · rw [hnone] at ho
        cases ho
      · cases hdet.2 _ (hsame.symm.trans ho)
  · intro i hi
    rw [hpc₀, howes] at hi
    exact (Option.some.inj hi).symm
  · intro i hi
    rw [hkey] at hi
    cases hi

lemma afterAction_pc (rc : ℤ) :
    owedKey (afterAction c rc) = none ∧ failing (afterAction c rc) = false := by
  rcases afterAction_cases (c := c) rc with h | h <;> rw [h] <;> exact ⟨rfl, rfl⟩

lemma newCtx_ctx (hk : Kept c s) : s.ctx s.nextCtx = none := by
  have hfresh := hk.fresh s.nextCtx le_rfl
  exact congrArg Item.ctx hfresh

lemma startSearch_tally {sctrl : Ctrls} {junk : Option ℕ} (h : Tally s) (hpc : s.pc w = .exec) :
    Tally ((newCtx w s .search (.search sctrl) junk).record (.started s.nextCtx)) := by
  have hupdate : ((newCtx w s .search (.search sctrl) junk).record (.started s.nextCtx)).pc =
      Function.update s.pc w (.setSleep s.nextCtx (.search sctrl)) := rfl
  refine h.start ((owed_update hupdate).mpr (.inl rfl)) (fun j hj => ?_) rfl rfl
    (h.send_goto hupdate rfl)
  refine owed_of_ne hupdate hj (fun i hi => ?_) (fun i hi => (Option.some.inj hi).symm) ?_
  · rw [hpc] at hi
    cases hi
  · exact Function.update_of_ne hj _ _

lemma startWait_tally {nbTimeUnit : ℕ} {junk : Option ℕ} (h : Tally s) (hk : Kept c s)
    (hpc : s.pc w = .exec) : Tally (newCtx w s .wait (.wait nbTimeUnit) junk) := by
  refine h.goto hpc rfl rfl rfl (fun j => ?_) (Nat.le_succ _) rfl
  by_cases hj : j = s.nextCtx
  · subst hj
    simp [newCtx, State.goto, State.setCtx, newCtx_ctx hk]
  · simp [newCtx, State.goto, State.setCtx, hj]

lemma Tally.frame (h : Tally s) (hpc : t.pc = s.pc) (hctx : t.ctx = s.ctx)
    (hnext : t.nextCtx = s.nextCtx) (hlog : t.log = s.log) : Tally t :=
  h.congr (fun k => by rw [Owed, Owed, hpc, hctx]) (Nat.le_of_eq hnext.symm) hlog
    fun w => by rw [hpc]; exact h.sending w

lemma prepareSend_tally {u : State} {sctrl : Ctrls} (h : Tally s)
    (hu : prepareSend c w s k r sctrl = some u) : Tally u ∧ u.pc = s.pc := by
  obtain ⟨q, _, _, rfl⟩ := prepareSend_some hu
  refine ⟨Tally.record ?_ rfl, rfl⟩
  exact h.frame rfl rfl rfl rfl

theorem worker_tally {i : Input} (h : Tally s) (hk : Kept c s) (hg : Regular c s (.worker w i))
    (hm : WorkerMove c w s i t) : Tally t := by
  cases hm with
  | response hpc | noResponse hpc | readResp hpc | pop hpc | noPop hpc | expire hpc
  | lookAgain hpc | notEnding hpc | leave hpc | newScenario hpc | close hpc | finish hpc
  | removeRequest hpc => exact h.goto hpc rfl rfl rfl (fun _ => Iff.rfl) le_rfl rfl
  | readStray hpc hx hr => exact (readStray_absurd hk hpc hx hr).elim
  | markResp hpc | markTimeout hpc =>
    obtain rfl := by simpa [hpc, Paired] using hk.paired w
    exact takeReq_tally h hpc rfl (hk.held hpc rfl trivial).2.2.1 rfl rfl rfl rfl
  | wake hpc hx ha => exact freeCtx_tally h hpc hx (fun hne => by simp [hne] at ha) rfl rfl
  | discard hpc hx ha hr => exact freeCtx_tally h hpc hx (fun hne => by simp [hne] at hr) rfl rfl
  | startSearch hpc => exact startSearch_tally h hpc
  | startWait hpc => exact startWait_tally h hk hpc
  | other hpc hp =>
    rcases hp with rfl | rfl
    · exact h.goto hpc rfl rfl rfl (fun _ => Iff.rfl) le_rfl rfl
    · exact h.goto hpc rfl rfl rfl (fun _ => Iff.rfl) le_rfl rfl
  | @setSleep _ _ job _ hpc =>
    refine h.goto hpc rfl ?_ rfl (fun _ => Iff.rfl) le_rfl rfl
    cases job <;> rfl
  | @refuseSleep _ _ job hpc | @insert _ _ job _ hpc =>
    refine h.goto hpc rfl ?_ ?_ (fun _ => Iff.rfl) le_rfl rfl
    · cases job <;> rfl
    · cases job <;> rfl
  | nullLd => exact absurd rfl hg.1.1
  | @newReq k sctrl x hpc hx =>
    -- The search is no longer owed by the worker but by its context.
    obtain ⟨_, _, _, junk, hctx⟩ := hk.held hpc rfl trivial
    cases hx.symm.trans hctx
    refine h.move (k := k) hpc rfl (fun j hj => (Option.some.inj hj).symm)
      (fun j hj => by cases hj) rfl (fun j hj => Function.update_of_ne hj _ _) ?_
      (.inr (Function.update_self _ _ _)) rfl rfl
    exact (owed_split s w k).mpr (.inl (by rw [hpc]; rfl))
  | sent hpc hu =>
    obtain ⟨hut, hupc⟩ := prepareSend_tally h hu
    exact hut.goto ((congrFun hupc w).trans hpc) rfl rfl rfl (fun _ => Iff.rfl) le_rfl rfl
  | sendError => cases hg.2
  | failed hpc =>
    have hno := h.sending w
    rw [hpc] at hno
    cases hno
  | @treat k r q rc cmdsOk hpc =>
    have hrec : Tally (s.record (.treated (ldId c w) k q.ctrls)) := h.record rfl
    exact hrec.goto hpc rfl rfl rfl (fun _ => Iff.rfl) le_rfl rfl
  | freeTimeout hpc =>
    obtain rfl := by simpa [hpc, Paired] using hk.paired w
    exact complete_tally h hk hpc rfl rfl rfl rfl (fun j hj => Function.update_of_ne hj _ _)
      (.inl (Function.update_self _ _ _)) (nextCtx_complete ..) rfl
  | @freeReq _ _ _ rc _ hpc =>
    obtain rfl := by simpa [hpc, Paired] using hk.paired w
    obtain ⟨hkey, hfail⟩ := afterAction_pc (c := c) rc
    exact complete_tally h hk hpc rfl rfl hkey hfail (fun _ _ => rfl) (.inr rfl) rfl rfl

theorem step_tally {e : Label} (h : Tally s) (hk : Kept c s) (hg : Regular c s e)
    (hs : step c s e = some t) : Tally t := by
  cases step_move hs with
  | worker hw hm => exact worker_tally h hk hg hm
  | unknown | delivered => exact h.frame rfl rfl rfl rfl
  | @restart d _ reopened u l he hu hl =>
    have hrestart : Tally (AsyncSystem.restart s d reopened) :=
      (h.frame (t := s.setConn d _) rfl rfl rfl rfl).record rfl
    have hu : Tally u := by
      -- Nothing is pending, so that nothing is marked and sampled.
      refine markPending_invariant (P := Tally) (fun _ e _ _ _ _ hmem => ?_) hu hrestart
      rw [show TailedList.chain _ _ _ = [] from hg.2.2] at hmem
      cases hmem
    exact hu.frame rfl rfl rfl rfl
  | otherError he => exact absurd hg.2.1 he
  | topTU ht =>
    rw [stepTopTU_frame ht]
    exact h.frame rfl rfl rfl rfl
  | main ht =>
    rw [stepMain_frame ht]
    exact h.frame rfl rfl rfl rfl

end Moves

lemma init_tally : Tally init := by
  refine ⟨List.not_mem_nil, fun _ => rfl, fun k => .inr ⟨?_, rfl⟩, fun _ _ => rfl,
    fun _ => Nat.zero_le _, fun _ => rfl⟩
  rintro (⟨w, hw⟩ | hctx)
  · cases hw
  · cases hctx

lemma key_of_owedKey {p : Pc} {k : ℕ} (h : owedKey p = some k) :
    ctxKey p = some k ∨ reqKey p = some k := by
  cases p with
  | setSleep j job =>
    cases job with
    | wait => cases h
    | search => exact .inl h
  | insert j job delay =>
    cases job with
    | wait => cases h
    | search => exact .inl h
  | send => exact .inl h
  | resp | respFree | respDone => exact .inr h
  | _ => cases h

lemma underway_of_key {c : Conf} {s : State} {w k : ℕ} (hk : Kept c s)
    (hkey : ctxKey (s.pc w) = some k ∨ reqKey (s.pc w) = some k) : Underway c s k := by
  have hlt : w < c.tcWThreadNb := by
    by_contra hle
    rw [hk.idle w (Nat.le_of_not_lt hle)] at hkey
    simp [ctxKey, reqKey] at hkey
  refine .inl ⟨w, hlt, ?_⟩
  cases hp : s.pc w with
  | sendFailed => simp [hp, ctxKey, reqKey] at hkey
  | _ =>
    rw [hp] at hkey
    exact hkey

lemma underway_of_owed {c : Conf} {s : State} {k : ℕ} (hk : Kept c s)
    (hc : c.tcLdapTimeout < c.tableSize) (ho : Owed s k) : Underway c s k := by
  rcases ho with ⟨w, hw⟩ | hctx
  · exact underway_of_key hk (key_of_owedKey hw)
  · by_cases hw : ∃ w, ctxKey (s.pc w) = some k
    · exact underway_of_key hk (.inl hw.choose_spec)
    · -- Nobody has the context, so that it is open and in the timetable.
      have hitem : (item c s k).ctx = some ⟨.search, some k⟩ := hctx
      have hloose : CtxLoose c k (item c s k) :=
        hk.ctxs.loose k fun w hhas => hw ⟨w, hhas.1⟩
      cases hloose with
      | gone hnone => cases hnone.symm.trans hitem
      | wait hwait => cases hwait.symm.trans hitem
      | spent hspent => cases hspent.symm.trans hitem
      | opened _ ht => exact .inr ⟨ht.1 hc, _, k, hctx, rfl⟩

/-- In every regular run every search is completed once and sampled once. -/
theorem exactly_once (c : Conf) (hn : 1 < c.tableSize) (hc : c.tcLdapTimeout < c.tableSize)
    (es : List Label) (hg : Guarded (step c) (Regular c) init es) :
    Always (step c) (ExactlyOnce c) init es := by
  refine always_of_invariant (I := fun s => Kept c s ∧ Shell c s ∧ Tally s) (fun s hs => ?_)
    (fun s e t hs he h => ⟨step_kept hs.1 hs.2.1 he.1 h, step_shell hs.2.1 he.1 h,
      step_tally hs.2.2 hs.1 he h⟩) ⟨init_kept c, init_shell hn, init_tally⟩ hg
  obtain ⟨hk, _, ht⟩ := hs
  refine ⟨ht.noOrphan, ht.same, fun k => ⟨?_, ht.once k⟩, fun k hlt => ?_⟩
  · have hbal := ht.balance k
    omega
  · rcases ht.balance k with ⟨ho, _⟩ | ⟨_, heq⟩
    · exact underway_of_owed hk hc ho
    · omega

def searchRun : List Label :=
  let go := Label.worker 0 .tau
  List.replicate 4 go ++ .worker 0 (.search none none) :: List.replicate 3 go

/-- `ldap_search` fails, the scenario goes on and ends, and five time units later the context of the
search comes back. -/
def failedRun : List Label :=
  let go := Label.worker 0 .tau
  searchRun ++ .worker 0 (.sendError ldapConnectError) :: go :: .worker 0 .endSce ::
    List.replicate 15 .topTU ++ List.replicate 6 go

/-- A search that could not be sent is completed at once, and again when its timeout expires. -/
theorem failed_search_completed_twice :
    ∃ s, run (step ⟨1, 1, 400, 5, false⟩) init failedRun = some s ∧ started s 0 = 1 ∧
      completed s 0 = 2 ∧ sampled s 0 = 2 ∧ ¬ ExactlyOnce ⟨1, 1, 400, 5, false⟩ s := by
  have hrun : (run (step ⟨1, 1, 400, 5, false⟩) init failedRun).map
      (fun s => (started s 0, completed s 0, sampled s 0)) = some (1, 2, 2) := by decide +kernel
  obtain ⟨s, hs, hv⟩ := Option.map_eq_some_iff.mp hrun
  simp only [Prod.mk.injEq] at hv
  obtain ⟨hstarted, hcompleted, hsampled⟩ := hv
  refine ⟨s, hs, hstarted, hcompleted, hsampled, fun hex => ?_⟩
  have hle := (hex.once 0).1
  omega

def answeredRun : List Label :=
  let go := Label.worker 0 .tau
  searchRun ++ .worker 0 (.sent 0 0) :: .deliver 0 1 0 :: List.replicate 3 go ++
    [.worker 0 (.result true), go]

theorem answered_search_completed_once :
    ∃ s, run (step ⟨1, 1, 400, 5, false⟩) init answeredRun = some s ∧ started s 0 = 1 ∧
      completed s 0 = 1 ∧ ExactlyOnce ⟨1, 1, 400, 5, false⟩ s := by
  have hrun : (run (step ⟨1, 1, 400, 5, false⟩) init answeredRun).map
      (fun s => (started s 0, completed s 0)) = some (1, 1) := by decide +kernel
  obtain ⟨s, hs, hv⟩ := Option.map_eq_some_iff.mp hrun
  simp only [Prod.mk.injEq] at hv
  have hall := exactly_once ⟨1, 1, 400, 5, false⟩ (by decide) (by decide) answeredRun
    (by decide +kernel)
  exact ⟨s, hs, hv.1, hv.2, always_iff_reached.mp hall answeredRun List.prefix_rfl s hs⟩

end LdapTgen.Completion
