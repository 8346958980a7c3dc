import LdapTgen.AsyncSystem

/-! What each step of the threads can do: the possible moves, and that every step is one of them. -/
namespace LdapTgen.AsyncSystem
open LdapLists TimerWheel

/-- The moves of worker `w` in `tExec`. -/
inductive WorkerMove (c : Conf) (w : ℕ) (s : State) : Input → State → Prop
  | response {i l k} (hpc : s.pc w = .top)
      (h : getAndRemoveFirstResponse (s.conn (ldId c w)).lists = some (l, some k)) :
      WorkerMove c w s i ((s.setLists (ldId c w) l).goto w (.gotResp k))
  | noResponse {i l} (hpc : s.pc w = .top)
      (h : getAndRemoveFirstResponse (s.conn (ldId c w)).lists = some (l, none)) :
      WorkerMove c w s i ((s.setLists (ldId c w) l).goto w .noResp)
  | readResp {i k x r} (hpc : s.pc w = .gotResp k) (hx : s.ctx k = some x) (hr : x.req = some r) :
      WorkerMove c w s i (s.goto w (.respMark k r))
  | readStray {i k x} (hpc : s.pc w = .gotResp k) (hx : s.ctx k = some x) (hr : x.req = none) :
      WorkerMove c w s i (s.goto w .exec)
  | markResp {i k r x} (hpc : s.pc w = .respMark k r) (hx : s.ctx k = some x) :
      WorkerMove c w s i ((s.setCtx k (some { x with req := none })).goto w (.resp k r))
  | pop {i k} (hpc : s.pc w = .noResp) (h : (tTimerGetUserToResume s.wheel).2 = some k) :
      WorkerMove c w s i
        ({ s with wheel := (tTimerGetUserToResume s.wheel).1 }.goto w (.gotTimer k))
  | noPop {i} (hpc : s.pc w = .noResp)
      (h : s.wheel.tTimerCircularTable s.wheel.currentIndex = []) :
      WorkerMove c w s i (s.goto w .noTimer)
  | wake {i k x} (hpc : s.pc w = .gotTimer k) (hx : s.ctx k = some x) (ha : x.action = .wait) :
      WorkerMove c w s i ((s.setCtx k none).goto w .exec)
  | expire {i k x r} (hpc : s.pc w = .gotTimer k) (hx : s.ctx k = some x)
      (ha : x.action = .search) (hr : x.req = some r) :
      WorkerMove c w s i (s.goto w (.timeoutMark k r))
  | discard {i k x} (hpc : s.pc w = .gotTimer k) (hx : s.ctx k = some x)
      (ha : x.action = .search) (hr : x.req = none) :
      WorkerMove c w s i ((s.setCtx k none).goto w .top)
  | markTimeout {i k r q x} (hpc : s.pc w = .timeoutMark k r) (hq : s.req r = some q)
      (hx : s.ctx k = some x) :
      WorkerMove c w s i (((s.setReq r (some { q with rc := ldapTimeout })).setCtx k
        (some { x with req := none })).goto w (.resp k r))
  | lookAgain {i} (hpc : s.pc w = .noTimer) (h : s.threadState w = .ending) :
      WorkerMove c w s i (s.goto w .top)
  | notEnding {i} (hpc : s.pc w = .noTimer) (h : s.threadState w ≠ .ending) :
      WorkerMove c w s i (s.goto w .notEnding)
  | leave {i} (hpc : s.pc w = .notEnding) (h : s.threadState w = .ending2) :
      WorkerMove c w s i (s.goto w .closing)
  | newScenario {i} (hpc : s.pc w = .notEnding) (h : s.threadState w ≠ .ending2) :
      WorkerMove c w s i (s.goto w .exec)
  | close {i} (hpc : s.pc w = .closing) :
      WorkerMove c w s i ({ s with nbSessionsClosed := s.nbSessionsClosed + 1 }.goto w .closed)
  | finish {i} (hpc : s.pc w = .closed) :
      WorkerMove c w s i
        ({ s with threadState := Function.update s.threadState w .finished }.goto w .finished)
  | startSearch {sctrl junk} (hpc : s.pc w = .exec) :
      WorkerMove c w s (.search sctrl junk)
        ((newCtx w s .search (.search sctrl) junk).record (.started s.nextCtx))
  | startWait {nbTimeUnit junk} (hpc : s.pc w = .exec) :
      WorkerMove c w s (.wait nbTimeUnit junk) (newCtx w s .wait (.wait nbTimeUnit) junk)
  | other {i p} (hpc : s.pc w = .exec) (hp : p = .top ∨ p = .exec) :
      WorkerMove c w s i (s.goto w p)
  | setSleep {i k job delay} (hpc : s.pc w = .setSleep k job)
      (h : sleepDelay c.tableSize (job.delay c) s.wheel = some delay) :
      WorkerMove c w s i (s.goto w (.insert k job delay))
  | refuseSleep {i k job} (hpc : s.pc w = .setSleep k job)
      (h : sleepDelay c.tableSize (job.delay c) s.wheel = none) :
      WorkerMove c w s i (s.goto w (afterSleep k job))
  | insert {i k job delay} (hpc : s.pc w = .insert k job delay) :
      WorkerMove c w s i
        ({ s with wheel := insertSleep c.tableSize k delay s.wheel }.goto w (afterSleep k job))
  | nullLd {k sctrl} (hpc : s.pc w = .send k sctrl) :
      WorkerMove c w s .nullLd (s.goto w (.sendFailed k ldapConnectError))
  | newReq {k sctrl x} (hpc : s.pc w = .send k sctrl) (hx : s.ctx k = some x) :
      WorkerMove c w s .tau (((s.setReq k (some ⟨none, 0⟩)).setCtx k
        (some { x with req := some k })).goto w (.sending k k sctrl))
  | sent {k r sctrl u l a junk} (hpc : s.pc w = .sending k r sctrl)
      (hu : prepareSend c w s k r sctrl = some u)
      (ha : (u.conn (ldId c w)).lists.heap.cell a = none)
      (hl : insertRequest a junk ⟨(u.conn (ldId c w)).msgid + 1, k⟩ (u.conn (ldId c w)).lists =
        some l) :
      WorkerMove c w s (.sent a junk) ((u.setConn (ldId c w) { u.conn (ldId c w) with
        lists := l
        msgid := (u.conn (ldId c w)).msgid + 1
        outstanding := (u.conn (ldId c w)).outstanding ++ [(u.conn (ldId c w)).msgid + 1] }).goto
          w .top)
  | sendError {k r sctrl u rc} (hpc : s.pc w = .sending k r sctrl)
      (hu : prepareSend c w s k r sctrl = some u) (hrc : rc ≠ 0) :
      WorkerMove c w s (.sendError rc) (u.goto w (.sendFailed k rc))
  | failed {i k rc} (hpc : s.pc w = .sendFailed k rc) :
      WorkerMove c w s i ((s.complete k).goto w (afterAction c rc))
  | removeRequest {i k r q l b} (hpc : s.pc w = .resp k r) (hq : s.req r = some q)
      (hrc : q.rc = ldapTimeout)
      (h : getAndRemoveRequest k (s.conn (ldId c w)).lists = some (l, b)) :
      WorkerMove c w s i ((s.setLists (ldId c w) l).goto w (.respFree k r))
  | treat {k r q rc cmdsOk} (hpc : s.pc w = .resp k r) (hq : s.req r = some q)
      (hrc : q.rc ≠ ldapTimeout) :
      WorkerMove c w s (.result cmdsOk) (((s.setConn (ldId c w) { s.conn (ldId c w) with
        ctrls := if q.ctrls.isSome then none else (s.conn (ldId c w)).ctrls }).record
        (.treated (ldId c w) k q.ctrls)).goto w (.respDone k r rc))
  | freeTimeout {i k r x q} (hpc : s.pc w = .respFree k r) (hx : s.ctx k = some x)
      (hq : s.req r = some q) :
      WorkerMove c w s i ((((s.setCtx k none).setReq r none).complete k).goto w .exec)
  | freeReq {i k r rc q} (hpc : s.pc w = .respDone k r rc) (hq : s.req r = some q) :
      WorkerMove c w s i (((s.setReq r none).complete k).goto w (afterAction c rc))

lemma nextCtx_complete (s : State) (k r w : ℕ) (p : Pc) :
    ((((s.setCtx k none).setReq r none).complete k).goto w p).nextCtx = s.nextCtx := by
  simp only [State.goto, State.complete, State.record, State.setReq, State.setCtx]

section Inversion
variable {c : Conf} {w : ℕ} {s t : State} {i : Input}

lemma prepareSend_some {k r : ℕ} {sctrl : Ctrls} (h : prepareSend c w s k r sctrl = some t) :
    ∃ q, s.req r = some q ∧ (s.conn (ldId c w)).opened = true ∧
      t = ((s.setReq r (some { q with ctrls := sctrl })).setConn (ldId c w)
        { s.conn (ldId c w) with
          ctrls := if sctrl.isSome then sctrl else (s.conn (ldId c w)).ctrls }).record
        (.searched (ldId c w) k sctrl
          (if sctrl.isSome then sctrl else (s.conn (ldId c w)).ctrls)) := by
  simp only [prepareSend, Option.bind_eq_bind, Option.bind_eq_some_iff] at h
  obtain ⟨q, hq, h⟩ := h
  by_cases ho : (s.conn (ldId c w)).opened = true
  · rw [if_pos ho] at h
    exact ⟨q, hq, ho, (Option.some.inj h).symm⟩
  · rw [if_neg ho] at h
    cases h

lemma stepTop_move (hpc : s.pc w = .top) (h : stepTop c w s = some t) : WorkerMove c w s i t := by
  simp only [stepTop, Option.bind_eq_bind, Option.bind_eq_some_iff] at h
  obtain ⟨⟨l, k⟩, hl, h⟩ := h
  cases Option.some.inj h
  cases k with
  | some k => exact .response hpc hl
  | none => exact .noResponse hpc hl

lemma stepGotResp_move {k : ℕ} (hpc : s.pc w = .gotResp k) (h : stepGotResp w s k = some t) :
    WorkerMove c w s i t := by
  simp only [stepGotResp, Option.bind_eq_bind, Option.bind_eq_some_iff] at h
  obtain ⟨x, hx, h⟩ := h
  cases Option.some.inj h
  cases hr : x.req with
  | some r => exact .readResp hpc hx hr
  | none => exact .readStray hpc hx hr

lemma stepRespMark_move {k r : ℕ} (hpc : s.pc w = .respMark k r)
    (h : stepRespMark w s k r = some t) : WorkerMove c w s i t := by
  simp only [stepRespMark, Option.bind_eq_bind, Option.bind_eq_some_iff] at h
  obtain ⟨x, hx, h⟩ := h
  cases Option.some.inj h
  exact .markResp hpc hx

lemma stepNoResp_move (hpc : s.pc w = .noResp) (h : stepNoResp w s = some t) :
    WorkerMove c w s i t := by
  cases Option.some.inj h
  cases hk : (tTimerGetUserToResume s.wheel).2 with
  | some k => exact .pop hpc hk
  | none =>
    obtain ⟨hw, hempty⟩ := tTimerGetUserToResume_none hk
    rw [hw]
    exact .noPop hpc hempty

lemma stepGotTimer_move {k : ℕ} (hpc : s.pc w = .gotTimer k) (h : stepGotTimer w s k = some t) :
    WorkerMove c w s i t := by
  simp only [stepGotTimer, Option.bind_eq_bind, Option.bind_eq_some_iff] at h
  obtain ⟨⟨a, q⟩, hx, h⟩ := h
  cases a with
  | wait =>
    cases Option.some.inj h
    exact .wake hpc hx rfl
  | search =>
    cases q with
    | some r =>
      cases Option.some.inj h
      exact .expire hpc hx rfl rfl
    | none =>
      cases Option.some.inj h
      exact .discard hpc hx rfl rfl

lemma stepTimeoutMark_move {k r : ℕ} (hpc : s.pc w = .timeoutMark k r)
    (h : stepTimeoutMark w s k r = some t) : WorkerMove c w s i t := by
  simp only [stepTimeoutMark, Option.bind_eq_bind, Option.bind_eq_some_iff] at h
  obtain ⟨q, hq, x, hx, h⟩ := h
  cases Option.some.inj h
  exact .markTimeout hpc hq hx

lemma afterAction_cases (rc : ℤ) : afterAction c rc = .top ∨ afterAction c rc = .exec := by
  unfold afterAction
  split_ifs <;> simp

lemma stepExec_move (hpc : s.pc w = .exec) (h : stepExec c w s i = some t) :
    WorkerMove c w s i t := by
  cases i with
  | search sctrl junk =>
    cases Option.some.inj h
    exact .startSearch hpc
  | wait nbTimeUnit junk =>
    cases Option.some.inj h
    exact .startWait hpc
  | other rc =>
    cases Option.some.inj h
    exact .other hpc (afterAction_cases rc)
  | endSce =>
    cases Option.some.inj h
    exact .other hpc (.inl rfl)
  | tau | nullLd | sent | sendError | result => cases h

lemma stepSetSleep_move {k : ℕ} {job : Job} (hpc : s.pc w = .setSleep k job)
    (h : stepSetSleep c w s k job = some t) : WorkerMove c w s i t := by
  cases Option.some.inj h
  cases hd : sleepDelay c.tableSize (job.delay c) s.wheel with
  | some delay => exact .setSleep hpc hd
  | none => exact .refuseSleep hpc hd

lemma stepSend_move {k : ℕ} {sctrl : Ctrls} (hpc : s.pc w = .send k sctrl)
    (h : stepSend w s k sctrl i = some t) : WorkerMove c w s i t := by
  cases i with
  | nullLd =>
    cases Option.some.inj h
    exact .nullLd hpc
  | tau =>
    simp only [stepSend, Option.bind_eq_bind, Option.bind_eq_some_iff] at h
    obtain ⟨x, hx, h⟩ := h
    cases Option.some.inj h
    exact .newReq hpc hx
  | search | wait | other | endSce | sent | sendError | result => cases h

lemma stepSending_move {k r : ℕ} {sctrl : Ctrls} (hpc : s.pc w = .sending k r sctrl)
    (h : stepSending c w s k r sctrl i = some t) : WorkerMove c w s i t := by
  simp only [stepSending, Option.bind_eq_bind, Option.bind_eq_some_iff] at h
  obtain ⟨u, hu, h⟩ := h
  cases i with
  | sent a junk =>
    by_cases ha : (u.conn (ldId c w)).lists.heap.cell a = none
    · simp only [ha, if_true, Option.bind_eq_some_iff] at h
      obtain ⟨l, hl, h⟩ := h
      cases Option.some.inj h
      exact .sent hpc hu ha hl
    · simp [ha] at h
  | sendError rc =>
    by_cases hrc : rc ≠ 0
    · simp only [if_pos hrc] at h
      cases Option.some.inj h
      exact .sendError hpc hu hrc
    · simp only [if_neg hrc] at h
      cases h
  | tau | search | wait | other | endSce | nullLd | result => cases h

lemma stepResp_move {k r : ℕ} (hpc : s.pc w = .resp k r) (h : stepResp c w s k r i = some t) :
    WorkerMove c w s i t := by
  simp only [stepResp, Option.bind_eq_bind, Option.bind_eq_some_iff] at h
  obtain ⟨q, hq, h⟩ := h
  by_cases hrc : q.rc = ldapTimeout
  · rw [if_pos hrc, Option.bind_eq_some_iff] at h
    obtain ⟨⟨l, b⟩, hl, h⟩ := h
    cases Option.some.inj h
    exact .removeRequest hpc hq hrc hl
  · rw [if_neg hrc] at h
    cases i with
    | result cmdsOk =>
      cases Option.some.inj h
      exact .treat hpc hq hrc
    | tau | search | wait | other | endSce | nullLd | sent | sendError => cases h

lemma stepRespFree_move {k r : ℕ} (hpc : s.pc w = .respFree k r)
    (h : stepRespFree w s k r = some t) : WorkerMove c w s i t := by
  simp only [stepRespFree, Option.bind_eq_bind, Option.bind_eq_some_iff] at h
  obtain ⟨x, hx, q, hq, h⟩ := h
  cases Option.some.inj h
  exact .freeTimeout hpc hx hq

lemma stepRespDone_move {k r : ℕ} {rc : ℤ} (hpc : s.pc w = .respDone k r rc)
    (h : stepRespDone c w s k r rc = some t) : WorkerMove c w s i t := by
  simp only [stepRespDone, Option.bind_eq_bind, Option.bind_eq_some_iff] at h
  obtain ⟨q, hq, h⟩ := h
  cases Option.some.inj h
  exact .freeReq hpc hq

theorem workerStep_move (h : workerStep c w s i = some t) : WorkerMove c w s i t := by
  unfold workerStep at h
  cases hpc : s.pc w with simp only [hpc] at h
  | top => exact stepTop_move hpc h
  | gotResp k => exact stepGotResp_move hpc h
  | respMark k r => exact stepRespMark_move hpc h
  | noResp => exact stepNoResp_move hpc h
  | gotTimer k => exact stepGotTimer_move hpc h
  | timeoutMark k r => exact stepTimeoutMark_move hpc h
  | noTimer =>
    cases Option.some.inj h
    split_ifs with he
    · exact .lookAgain hpc he
    · exact .notEnding hpc he
  | notEnding =>
    cases Option.some.inj h
    split_ifs with he
    · exact .leave hpc he
    · exact .newScenario hpc he
  | closing =>
    cases Option.some.inj h
    exact .close hpc
  | closed =>
    cases Option.some.inj h
    exact .finish hpc
  | finished => cases h
  | exec => exact stepExec_move hpc h
  | setSleep k job => exact stepSetSleep_move hpc h
  | insert k job delay =>
    cases Option.some.inj h
    exact .insert hpc
  | send k sctrl => exact stepSend_move hpc h
  | sending k r sctrl => exact stepSending_move hpc h
  | sendFailed k rc =>
    cases Option.some.inj h
    exact .failed hpc
  | resp k r => exact stepResp_move hpc h
  | respFree k r => exact stepRespFree_move hpc h
  | respDone k r rc => exact stepRespDone_move hpc h

theorem markPending_invariant {P : State → Prop} {heap : TailedList.Heap Entry} {myerrno : ℤ}
    {n : ℕ} {a : Option ℕ}
    (hmark : ∀ u e x r q, P u → e ∈ TailedList.chain heap n a → u.ctx e.sleepCtx = some x →
      x.req = some r → u.req r = some q →
      P ((u.setReq r (some { q with rc := myerrno })).record (.sample (some e.sleepCtx))))
    (h : markPending heap myerrno n a s = some t) (hs : P s) : P t := by
  induction n generalizing a s with
  | zero =>
    cases a with
    | none => exact Option.some.inj h ▸ hs
    | some a => cases h
  | succ n ih =>
    cases a with
    | none => exact Option.some.inj h ▸ hs
    | some a =>
      simp only [markPending, Option.bind_eq_bind, Option.bind_eq_some_iff] at h
      obtain ⟨cell, hcell, x, hx, h⟩ := h
      have hchain : TailedList.chain heap (n + 1) (some a) =
          cell.val :: TailedList.chain heap n cell.next := by simp [TailedList.chain, hcell]
      rw [hchain] at hmark
      cases hr : x.req with
      | none =>
        rw [hr] at h
        exact Option.some.inj h ▸ hs
      | some r =>
        simp only [hr, Option.bind_eq_some_iff] at h
        obtain ⟨q, hq, h⟩ := h
        refine ih (fun u e y r' q' hu he => hmark u e y r' q' hu (List.mem_cons_of_mem _ he)) h ?_
        exact hmark s cell.val x r q hs List.mem_cons_self hx hr hq

end Inversion

inductive Move (c : Conf) (s : State) : Label → State → Prop
  | worker {w i t} (hw : w < c.tcWThreadNb) (h : WorkerMove c w s i t) : Move c s (.worker w i) t
  | unknown {d msgid rc l} (hm : msgid ∈ (s.conn d).outstanding)
      (h : getAndMoveRequestToResponse msgid (s.conn d).lists = some (l, none)) :
      Move c s (.deliver d msgid rc) (s.setConn d { s.conn d with
        lists := l
        outstanding := (s.conn d).outstanding.erase msgid })
  | delivered {d msgid rc l k y r q} (hm : msgid ∈ (s.conn d).outstanding)
      (h : getAndMoveRequestToResponse msgid (s.conn d).lists = some (l, some k))
      (hy : s.ctx k = some y) (hr : y.req = some r) (hq : s.req r = some q) :
      Move c s (.deliver d msgid rc) ((s.setConn d { s.conn d with
        lists := l
        outstanding := (s.conn d).outstanding.erase msgid }).setReq r (some { q with rc := rc }))
  | restart {d myerrno reopened u l} (he : restarts myerrno)
      (hu : markPending (s.conn d).lists.heap myerrno (s.conn d).lists.heap.size
        (s.conn d).lists.ldReq (restart s d reopened) = some u)
      (hl : moveRequests (s.conn d).lists = some l) :
      Move c s (.connError d myerrno reopened) (u.setLists d l)
  | otherError {d myerrno reopened} (he : ¬ restarts myerrno) (h0 : myerrno ≠ ldapSuccess) :
      Move c s (.connError d myerrno reopened) (s.record (.sample none))
  | topTU {t} (h : stepTopTU c s = some t) : Move c s .topTU t
  | main {t} (h : stepMain c s = some t) : Move c s .main t

lemma stepTopTU_frame {c : Conf} {s t : State} (h : stepTopTU c s = some t) :
    t = { s with wheel := t.wheel, topTU := t.topTU } := by
  unfold stepTopTU at h
  split at h <;> cases Option.some.inj h <;> rfl

lemma stepMain_frame {c : Conf} {s t : State} (h : stepMain c s = some t) :
    t = { s with wheel := t.wheel, main := t.main, threadState := t.threadState } := by
  unfold stepMain at h
  split at h
  · cases Option.some.inj h; rfl
  · split_ifs at h <;> cases Option.some.inj h <;> rfl
  · split_ifs at h <;> cases Option.some.inj h <;> rfl
  · cases Option.some.inj h; rfl
  · cases h

theorem step_move {c : Conf} {s t : State} {e : Label} (h : step c s e = some t) :
    Move c s e t := by
  cases e with
  | worker w i =>
    simp only [step] at h
    split_ifs at h with hw
    exact .worker hw (workerStep_move h)
  | deliver d msgid rc =>
    simp only [step, stepDeliver] at h
    split_ifs at h with hm
    simp only [Option.bind_eq_bind, Option.bind_eq_some_iff] at h
    obtain ⟨⟨l, k⟩, hl, h⟩ := h
    cases k with
    | none =>
      cases Option.some.inj h
      exact .unknown hm hl
    | some k =>
      simp only [Option.bind_eq_some_iff] at h
      obtain ⟨y, hy, r, hr, q, hq, h⟩ := h
      cases Option.some.inj h
      exact .delivered hm hl hy hr hq
  | connError d myerrno reopened =>
    simp only [step, stepConnError] at h
    split_ifs at h with h0 he
    · simp only [Option.bind_eq_bind, Option.bind_eq_some_iff] at h
      obtain ⟨u, hu, l, hl, h⟩ := h
      cases Option.some.inj h
      exact .restart he hu hl
    · cases Option.some.inj h
      exact .otherError he h0
  | topTU => exact .topTU h
  | main => exact .main h

end LdapTgen.AsyncSystem
