import LdapTgen.AsyncCustody

/-! The other threads, and the invariant over whole runs: as long as the timeouts are undisturbed, every
context is where it should be. -/
namespace LdapTgen.AsyncContexts
open LabelledRun LdapLists TimerWheel AsyncSystem Custody

section OtherMoves
variable {c : Conf} {s t : State} {k : ℕ}

lemma ctxHeld_pending {w d : ℕ} {p : Pc} {i : Item} (h : CtxHeld c w k p i)
    (hkey : ctxKey p = some k) (hpos : 0 < i.req d) : timingOut k p = true := by
  cases p with
  | setSleep | insert | send | sending | gotResp | respMark | respFree => simp [h.2.1 d] at hpos
  | gotTimer | timeoutMark | resp => simpa [timingOut, ctxKey] using hkey
  | _ => exact h.elim

lemma Kept.pending_open {l : List Entry} {e : Entry} {d : ℕ} (h : Kept c s)
    (hg : NoTimeout c s l) (he : e ∈ l) (hpos : 0 < (item c s e.sleepCtx).req d) :
    (∀ w, ¬ Has (ctxRules c) (item c s) s.pc w e.sleepCtx) ∧
      (item c s e.sleepCtx).Open e.sleepCtx ∧ (item c s e.sleepCtx).Timed c ∧
      (item c s e.sleepCtx).req d + (item c s e.sleepCtx).resp d = 1 ∧
      ∀ d', d' ≠ d → (item c s e.sleepCtx).req d' = 0 ∧ (item c s e.sleepCtx).resp d' = 0 := by
  have hnone : ∀ w, ¬ Has (ctxRules c) (item c s) s.pc w e.sleepCtx := by
    intro w hhas
    have ht := ctxHeld_pending (h.ctxs.held w _ hhas) hhas.1 hpos
    rw [hg e he w (h.worker_lt hhas.1)] at ht
    cases ht
  exact ⟨hnone, ctxLoose_listed (h.ctxs.loose _ hnone) (by omega)⟩

theorem Kept.items (h : Kept c s) (hpc : t.pc = s.pc) (hnext : t.nextCtx = s.nextCtx)
    (hitem : ∀ k, item c t k = item c s k ∨ (∀ w, ¬ Has (ctxRules c) (item c s) s.pc w k) ∧
      (item c s k).Open k ∧ CtxLoose c k (item c t k)) : Kept c t := by
  refine ⟨by rw [hpc]; exact h.idle, by rw [hpc]; exact h.paired, fun k hk => ?_, ?_, ?_⟩
  · rw [hnext] at hk
    rcases hitem k with hsame | ⟨_, ho, _⟩
    · rw [hsame]
      exact h.fresh k hk
    · exact absurd (h.allocated ho.1) (Nat.not_lt_of_le hk)
  · rw [hpc]
    refine h.ctxs.items fun k => ?_
    rcases hitem k with hsame | ⟨hnone, ho, hl⟩
    · exact .inl hsame
    · refine .inr ⟨hnone, fun w hkey hclaims => ?_, hl⟩
      cases hp : s.pc w with
      | resp j r =>
        have hkey' : ctxKey (.resp j r) = some k := hp ▸ hkey
        have hr : r = j := by simpa [hp, Paired] using h.paired w
        refine h.open_req ho w ?_
        rw [hp, hr]
        exact hkey'
      | _ =>
        refine hnone w ⟨hkey, ?_⟩
        rw [hp]
        trivial
  · rw [hpc]
    refine h.reqs.items fun k => ?_
    rcases hitem k with hsame | ⟨_, ho, _⟩
    · exact .inl hsame
    · exact .inr ⟨fun w hw => h.open_req ho w hw.1, fun w hw => absurd hw (h.open_req ho w), trivial⟩

lemma deliver_kept {d : ℕ} {msgid rc : ℤ} {l : LdapLd} {x : Conn} {y : TSleep} {r : ℕ}
    {q : TLdapReqCtx} (h : Kept c s) (hsh : Shell c s)
    (hrc : rc ≠ ldapTimeout)
    (hg : NoTimeout c s ((s.conn d).lists.pending.find? (·.msgid == msgid)).toList)
    (hl : getAndMoveRequestToResponse msgid (s.conn d).lists = some (l, some k)) (hx : x.lists = l)
    (hy : s.ctx k = some y) (hr : y.req = some r) :
    Kept c ((s.setConn d x).setReq r (some { q with rc := rc })) := by
  obtain ⟨qs, hqs⟩ := hsh.lists d
  obtain ⟨e, he, rfl, hqs'⟩ := holds_of_move_some hqs hl
  rw [← hx] at hqs'
  obtain ⟨hpos, hitem⟩ := item_move (c := c) hqs he hqs'
  rw [hqs.pending, he] at hg
  obtain ⟨hnone, ho, ht, hone, hother⟩ := h.pending_open hg (by simp) hpos
  cases hy.symm.trans ho.1
  cases hr
  refine h.items rfl rfl fun j => ?_
  by_cases hj : j = e.sleepCtx
  · subst hj
    refine .inr ⟨hnone, ho, ?_⟩
    rw [item_setReq, hitem, Function.update_idem, Function.update_self, Function.update_self]
    refine .opened ⟨ho.1, rc, rfl, hrc⟩ ht ⟨d, ?_, fun d' hd' => ?_⟩
    · simp only [Function.update_self]
      omega
    · simpa [hd'] using hother d' hd'
  · left
    rw [item_setReq, Function.update_of_ne hj, hitem, Function.update_of_ne hj]

lemma markPending_req {heap : TailedList.Heap Entry} {myerrno : ℤ} {n : ℕ} {a : Option ℕ}
    (hopen : ∀ e ∈ TailedList.chain heap n a, s.ctx e.sleepCtx = some ⟨.search, some e.sleepCtx⟩)
    (h : markPending heap myerrno n a s = some t) :
    t = { s with req := t.req, log := t.log } ∧
      ∀ j, (t.req j).map TLdapReqCtx.rc = (s.req j).map TLdapReqCtx.rc ∨
        (∃ e ∈ TailedList.chain heap n a, e.sleepCtx = j) ∧
          (t.req j).map TLdapReqCtx.rc = some myerrno := by
  refine markPending_invariant (P := fun u => u = { s with req := u.req, log := u.log } ∧
      ∀ j, (u.req j).map TLdapReqCtx.rc = (s.req j).map TLdapReqCtx.rc ∨
        (∃ e ∈ TailedList.chain heap n a, e.sleepCtx = j) ∧
          (u.req j).map TLdapReqCtx.rc = some myerrno) ?_ h ⟨rfl, fun j => .inl rfl⟩
  intro u e x r q hu he hx hr hq
  obtain ⟨hsame, hrc⟩ := hu
  refine ⟨?_, fun j => ?_⟩
  · rw [hsame]
    rfl
  · have hctx : u.ctx = s.ctx := by rw [hsame]
    rw [hctx, hopen e he] at hx
    cases hx
    cases hr
    by_cases hj : j = e.sleepCtx
    · exact .inr ⟨⟨e, he, hj.symm⟩, by simp [State.record, State.setReq, hj]⟩
    · simpa [State.record, State.setReq, hj] using hrc j

lemma restart_item {d : ℕ} {reopened : Bool} {u : State} {l : LdapLd} {q : Queues}
    (hq : Holds (s.conn d).lists q) (hl : Holds l ⟨[], q.resp ++ q.req⟩)
    (hu : u = { restart s d reopened with req := u.req, log := u.log }) (j : ℕ) :
    item c (u.setLists d l) j = { item c s j with
      rc := (u.req j).map TLdapReqCtx.rc
      req := Function.update (item c s j).req d 0
      resp := Function.update (item c s j).resp d
        ((item c s j).resp d + (item c s j).req d) } := by
  have hreq := Holds.item_req (c := c) hq j
  have hresp := Holds.item_resp (c := c) hq j
  rw [hu]
  simp only [item, restart, State.setLists, State.setConn, State.record, Item.mk.injEq, true_and]
  constructor
  · funext e
    by_cases he : e = d
    · simp [he, hl.pending, entries_nil]
    · simp [he]
  · funext e
    by_cases he : e = d
    · simp only [he, Function.update_self, hl.answered, entries_append]
      rw [hq.pending, hq.answered]
    · simp [he]

lemma restart_kept {d : ℕ} {myerrno : ℤ} {reopened : Bool} {u : State} {l : LdapLd} (h : Kept c s)
    (hsh : Shell c s) (hg : (s.conn d).lists.pending = [] ∨
      (s.conn d).lists.answered = [] ∧ NoTimeout c s (s.conn d).lists.pending)
    (he : restarts myerrno)
    (hu : markPending (s.conn d).lists.heap myerrno (s.conn d).lists.heap.size
      (s.conn d).lists.ldReq (restart s d reopened) = some u)
    (hl : moveRequests (s.conn d).lists = some l) : Kept c (u.setLists d l) := by
  obtain ⟨q, hq⟩ := hsh.lists d
  have hone : q.req = [] ∨ q.resp = [] := by
    rw [← hq.pending, ← hq.answered]
    exact hg.imp_right And.left
  have hfree : NoTimeout c s (s.conn d).lists.pending := by
    rcases hg with hnil | ⟨_, hfree⟩
    · rw [hnil]
      exact fun e hmem => by cases hmem
    · exact hfree
  have hpending : ∀ e ∈ (s.conn d).lists.pending, 0 < (item c s e.sleepCtx).req d := fun e hmem =>
    entries_pos.mpr ⟨e, hmem, rfl⟩
  obtain ⟨hsame, hrc⟩ := markPending_req (s := restart s d reopened)
    (fun e hmem => (h.pending_open hfree hmem (hpending e hmem)).2.1.1) hu
  have hitem := restart_item (c := c) hq (holds_of_moveRequests hq hone hl) hsame
  refine h.items (by rw [hsame]; rfl) (by rw [hsame]; rfl) fun j => ?_
  rw [hitem j]
  by_cases hj : ∃ e ∈ (s.conn d).lists.pending, e.sleepCtx = j
  · obtain ⟨e, hmem, rfl⟩ := hj
    obtain ⟨hnone, ho, ht, hsum, hother⟩ := h.pending_open hfree hmem (hpending e hmem)
    refine .inr ⟨hnone, ho, .opened ⟨ho.1, ?_⟩ ht ⟨d, ?_, fun d' hd' => ?_⟩⟩
    · rcases hrc e.sleepCtx with hold | ⟨_, hnew⟩
      · obtain ⟨rc, hrc', hne⟩ := ho.2
        exact ⟨rc, hold.trans hrc', hne⟩
      · refine ⟨myerrno, hnew, ?_⟩
        rcases he with rfl | rfl | rfl <;> decide
    · simp only [Function.update_self]
      omega
    · simpa [hd'] using hother d' hd'
  · left
    have hzero : (item c s j).req d = 0 := by
      by_contra hne
      exact hj (entries_pos.mp (Nat.pos_of_ne_zero hne))
    have hold : (u.req j).map TLdapReqCtx.rc = (item c s j).rc := by
      rcases hrc j with hold | ⟨hmem, _⟩
      · exact hold
      · exact absurd hmem hj
    rw [hold, hzero, Nat.add_zero, Function.update_eq_self, ← hzero, Function.update_eq_self]

lemma pop_index (v : Wheel) : (tTimerGetUserToResume v).1.currentIndex = v.currentIndex := by
  unfold tTimerGetUserToResume
  split <;> rfl

lemma topTU_timer (hsh : Shell c s) (ht : stepTopTU c s = some t) (k : ℕ) :
    onWheel c.tableSize t.wheel k + hand k t.topTU =
      onWheel c.tableSize s.wheel k + hand k s.topTU := by
  have hn : 0 < c.tableSize := Nat.zero_lt_of_lt hsh.size
  unfold stepTopTU at ht
  cases hp : s.topTU with simp only [hp] at ht
  | idle =>
    cases Option.some.inj ht
    dsimp only
    split <;> rfl
  | draining =>
    cases Option.some.inj ht
    cases hk : (tTimerGetUserToResume s.wheel).2 with
    | some j => simpa [hand] using onWheel_tTimerGetUserToResume hsh.index hk k
    | none => simp [hand, (tTimerGetUserToResume_none hk).1]
  | holding j =>
    have hdelay : sleepDelay c.tableSize 1 s.wheel =
        some (if s.wheel.tableClosed then 0 else 1) := by
      unfold sleepDelay
      rw [if_neg (Nat.not_le_of_lt hsh.size)]
    cases Option.some.inj ht
    simp [hdelay, hand]
  | inserting j delay =>
    cases Option.some.inj ht
    simp [onWheel_insertSleep hn, hand]
  | advancing =>
    cases Option.some.inj ht
    rfl

lemma topTU_index (hsh : Shell c s) (ht : stepTopTU c s = some t) :
    t.wheel.currentIndex < c.tableSize := by
  unfold stepTopTU at ht
  cases hp : s.topTU with simp only [hp] at ht
  | idle => cases Option.some.inj ht; exact hsh.index
  | draining =>
    cases Option.some.inj ht
    exact (pop_index s.wheel).trans_lt hsh.index
  | holding j => cases Option.some.inj ht; exact hsh.index
  | inserting j delay => cases Option.some.inj ht; exact hsh.index
  | advancing =>
    cases Option.some.inj ht
    exact Nat.mod_lt _ (Nat.zero_lt_of_lt hsh.size)

lemma main_wheel (hsh : Shell c s) (ht : stepMain c s = some t) :
    (∀ k, onWheel c.tableSize t.wheel k = onWheel c.tableSize s.wheel k) ∧
      t.wheel.currentIndex < c.tableSize := by
  have hn : 0 < c.tableSize := Nat.zero_lt_of_lt hsh.size
  unfold stepMain at ht
  cases hp : s.main with simp only [hp] at ht
  | running => cases Option.some.inj ht; exact ⟨fun _ => rfl, hsh.index⟩
  | ending i =>
    split_ifs at ht
    · cases Option.some.inj ht; exact ⟨fun _ => rfl, hsh.index⟩
    · cases Option.some.inj ht; exact ⟨fun k => onWheel_tTimerClose hn k, hn⟩
  | ending2 i =>
    split_ifs at ht
    · cases Option.some.inj ht; exact ⟨fun _ => rfl, hsh.index⟩
    · cases Option.some.inj ht; exact ⟨fun _ => rfl, hsh.index⟩
  | waiting => cases Option.some.inj ht; exact ⟨fun _ => rfl, hsh.index⟩
  | left => cases ht

theorem step_kept {e : Label} (h : Kept c s) (hsh : Shell c s) (hg : Undisturbed c s e)
    (hs : step c s e = some t) : Kept c t := by
  cases step_move hs with
  | worker hw hm => exact worker_kept h hsh hg hw hm
  | unknown hm hl =>
    obtain ⟨q, hq⟩ := hsh.lists _
    exact h.congr (item_same (x := { s.conn _ with lists := _, outstanding := _ }) hq
      (holds_of_move_none hq hl)) rfl rfl
  | delivered hm hl hy hr => exact deliver_kept h hsh hg.1 hg.2 hl rfl hy hr
  | restart he hu hl => exact restart_kept h hsh (hg he) he hu hl
  | otherError => exact h.congr rfl rfl rfl
  | topTU ht =>
    have htimer := topTU_timer hsh ht
    rw [stepTopTU_frame ht]
    exact h.congr (item_congr rfl rfl htimer fun _ => ⟨rfl, rfl⟩) rfl rfl
  | main ht =>
    have htimer := (main_wheel hsh ht).1
    rw [stepMain_frame ht]
    exact h.congr (item_congr rfl rfl (fun k => congrArg (· + _) (htimer k)) fun _ => ⟨rfl, rfl⟩)
      rfl rfl

end OtherMoves

section ShellMoves
variable {c : Conf} {s t : State}

lemma Shell.same (h : Shell c s) (hindex : t.wheel.currentIndex < c.tableSize)
    (hlists : ∀ d, (t.conn d).lists = (s.conn d).lists) : Shell c t := by
  refine ⟨h.size, hindex, fun d => ?_, fun d hd => ?_⟩
  · rw [hlists]
    exact h.lists d
  · rw [hlists]
    exact h.used d hd

lemma Shell.setConn (h : Shell c s) {d : ℕ} {x : Conn} {q : Queues} (hx : Holds x.lists q)
    (hused : (∀ v < c.tcWThreadNb, d ≠ ldId c v) → q.req = [] ∧ q.resp = []) :
    Shell c (s.setConn d x) := by
  refine ⟨h.size, h.index, fun d' => ?_, fun d' hd' => ?_⟩
  · by_cases hd : d' = d
    · subst hd
      simpa [State.setConn] using ⟨q, hx⟩
    · simpa [State.setConn, hd] using h.lists d'
  · by_cases hd : d' = d
    · subst hd
      simpa [State.setConn, hx.pending, hx.answered] using hused hd'
    · simpa [State.setConn, hd] using h.used d' hd'

lemma Shell.setOwn (h : Shell c s) {w : ℕ} (hw : w < c.tcWThreadNb) {x : Conn} {q : Queues}
    (hx : Holds x.lists q) : Shell c (s.setConn (ldId c w) x) :=
  h.setConn hx fun hno => absurd rfl (hno w hw)

theorem worker_shell {w : ℕ} {i : Input} (h : Shell c s) (hw : w < c.tcWThreadNb)
    (hm : WorkerMove c w s i t) : Shell c t := by
  obtain ⟨q, hq⟩ := h.lists (ldId c w)
  cases hm with
  | response hpc hl =>
    obtain ⟨e, es, _, _, hq'⟩ := holds_of_first_some hq hl
    exact (h.setOwn hw (x := { s.conn (ldId c w) with lists := _ }) hq').same
      h.index fun _ => rfl
  | noResponse hpc hl =>
    exact (h.setOwn hw (x := { s.conn (ldId c w) with lists := _ })
      (holds_of_first_none hq hl)).same h.index fun _ => rfl
  | pop hpc => exact h.same ((pop_index s.wheel).trans_lt h.index) fun _ => rfl
  | removeRequest hpc hreq hrc hl =>
    exact (h.setOwn hw (x := { s.conn (ldId c w) with lists := _ })
      (holds_of_remove hq hl)).same h.index fun _ => rfl
  | @treat _ _ q' =>
    exact (h.setOwn hw (x := { s.conn (ldId c w) with
      ctrls := if q'.ctrls.isSome then none else (s.conn (ldId c w)).ctrls }) hq).same
      h.index fun _ => rfl
  | sent hpc hu ha hl =>
    obtain ⟨_, _, _, hwheel, hul⟩ := prepareSend_item hu
    have hu' := h.same (hwheel ▸ h.index) hul
    rw [← hul] at hq
    exact (hu'.setOwn hw (holds_of_insertRequest hq ha hl)).same hu'.index fun _ => rfl
  | sendError hpc hu =>
    obtain ⟨_, _, _, hwheel, hul⟩ := prepareSend_item hu
    exact h.same (hwheel ▸ h.index) hul
  | _ => exact h.same h.index fun _ => rfl

theorem step_shell {e : Label} (h : Shell c s) (hg : Undisturbed c s e)
    (hs : step c s e = some t) : Shell c t := by
  cases step_move hs with
  | worker hw hm => exact worker_shell h hw hm
  | @unknown d _ _ l hm hl =>
    obtain ⟨q, hq⟩ := h.lists d
    refine h.setConn (holds_of_move_none hq hl) fun hd => ?_
    rw [← hq.pending, ← hq.answered]
    exact h.used d hd
  | @delivered d msgid _ l k y r q hm hl =>
    obtain ⟨qs, hqs⟩ := h.lists d
    obtain ⟨e, he, _, hqs'⟩ := holds_of_move_some hqs hl
    refine (h.setConn (x := { s.conn d with
      lists := l
      outstanding := (s.conn d).outstanding.erase msgid }) hqs' fun hd => ?_).same
      h.index fun _ => rfl
    rw [← hqs.pending, (h.used d hd).1] at he
    cases he
  | @restart d _ reopened u l he hu hl =>
    obtain ⟨q, hq⟩ := h.lists d
    have hone : q.req = [] ∨ q.resp = [] := by
      rw [← hq.pending, ← hq.answered]
      exact (hg he).imp_right And.left
    have hsame : u.wheel = s.wheel ∧ ∀ d', (u.conn d').lists = (s.conn d').lists := by
      refine markPending_invariant
        (P := fun u => u.wheel = s.wheel ∧ ∀ d', (u.conn d').lists = (s.conn d').lists)
        (fun _ _ _ _ _ hu _ _ _ _ => hu) hu ⟨rfl, fun d' => ?_⟩
      by_cases hd : d' = d
      · simp [restart, State.setConn, State.record, hd]
      · simp [restart, State.setConn, State.record, hd]
    refine (h.same (t := u) (hsame.1 ▸ h.index) hsame.2).setConn
      (holds_of_moveRequests hq hone hl) fun hd => ?_
    simp [← hq.pending, ← hq.answered, h.used d hd]
  | otherError => exact h.same h.index fun _ => rfl
  | topTU ht =>
    have hindex := topTU_index h ht
    rw [stepTopTU_frame ht]
    exact h.same hindex fun _ => rfl
  | main ht =>
    have hindex := (main_wheel h ht).2
    rw [stepMain_frame ht]
    exact h.same hindex fun _ => rfl

end ShellMoves

section Start
variable {c : Conf} {s : State}

lemma pending_init (d : ℕ) : (init.conn d).lists.pending = [] := rfl

lemma answered_init (d : ℕ) : (init.conn d).lists.answered = [] := rfl

lemma item_init (k : ℕ) : item c init k = ⟨none, none, 0, 0, 0⟩ := by
  simp only [item, pending_init, answered_init, entries_nil, Item.mk.injEq]
  exact ⟨rfl, rfl, by simp [onWheel, init, tTimerInit, hand], rfl, rfl⟩

lemma init_kept (c : Conf) : Kept c init := by
  refine ⟨fun _ _ => rfl, fun _ => trivial, fun k _ => item_init k, ⟨?_, ?_, fun k _ => ?_⟩,
    ⟨?_, ?_, fun _ _ => trivial⟩⟩
  · rintro w w' k ⟨hkey, _⟩
    cases hkey
  · rintro w k ⟨hkey, _⟩
    cases hkey
  · rw [item_init]
    exact .gone rfl rfl fun _ => ⟨rfl, rfl⟩
  · rintro w w' k ⟨hkey, _⟩
    cases hkey
  · rintro w k ⟨hkey, _⟩
    cases hkey

lemma init_shell (hn : 1 < c.tableSize) : Shell c init :=
  ⟨hn, Nat.zero_lt_of_lt hn, fun _ => ⟨⟨[], []⟩, [], [], rep_empty, rfl, rfl⟩, fun _ _ => ⟨rfl, rfl⟩⟩

lemma Kept.gone {k : ℕ} (h : Kept c s) (hk : s.ctx k = none) :
    (item c s k).timer = 0 ∧ (item c s k).Nowhere := by
  have hctx : (item c s k).ctx = none := hk
  have hnone : ∀ w, ¬ Has (ctxRules c) (item c s) s.pc w k := by
    intro w hhas
    obtain ⟨x, hx⟩ := ctxHeld_ctx (h.ctxs.held w k hhas)
    rw [hctx] at hx
    cases hx
  cases h.ctxs.loose k hnone with
  | gone _ ht hl => exact ⟨ht, hl⟩
  | wait hx => rw [hctx] at hx; cases hx
  | spent hx => rw [hctx] at hx; cases hx
  | opened ho => rw [ho.1] at hctx; cases hctx

end Start

end LdapTgen.AsyncContexts
