import LdapTgen.AsyncMoves
import LdapTgen.Custody

/-! The sleep contexts of the asynchronous mode, each with all that refers to it: the timetable, the
lists of the connections, and the workers. -/
namespace LdapTgen.AsyncContexts
open LdapLists TimerWheel AsyncSystem Custody

/-- A context, the return code of its request context, and the number of references to it: from the
timetable or the hands of the stat thread, and from the lists of each connection. -/
structure Item where
  ctx : Option TSleep
  rc : Option ℤ
  timer : ℕ
  req : ℕ → ℕ
  resp : ℕ → ℕ

def hand (k : ℕ) : TopPc → ℕ
  | .holding j => if j = k then 1 else 0
  | .inserting j _ => if j = k then 1 else 0
  | _ => 0

def entries (l : List Entry) (k : ℕ) : ℕ := (l.map Entry.sleepCtx).count k

def item (c : Conf) (s : State) (k : ℕ) : Item :=
  ⟨s.ctx k, (s.req k).map TLdapReqCtx.rc, onWheel c.tableSize s.wheel k + hand k s.topTU,
    fun d => entries (s.conn d).lists.pending k, fun d => entries (s.conn d).lists.answered k⟩

namespace Item

def Nowhere (i : Item) : Prop := ∀ d, i.req d = 0 ∧ i.resp d = 0

/-- At most once pending on connection `d`, and on no other list. -/
def PendingOn (d : ℕ) (i : Item) : Prop :=
  i.req d ≤ 1 ∧ (∀ e, e ≠ d → i.req e = 0) ∧ ∀ e, i.resp e = 0

def Once (i : Item) : Prop := ∃ d, i.req d + i.resp d ≤ 1 ∧ ∀ e, e ≠ d → i.req e = 0 ∧ i.resp e = 0

end Item

def Job.action : Job → Action
  | .wait _ => .wait
  | .search _ => .search

def ctxKey : Pc → Option ℕ
  | .setSleep k _ => some k
  | .insert k _ _ => some k
  | .send k _ => some k
  | .sending k _ _ => some k
  | .gotResp k => some k
  | .respMark k _ => some k
  | .gotTimer k => some k
  | .timeoutMark k _ => some k
  | .resp k _ => some k
  | .respFree k _ => some k
  | _ => none

def CtxClaims : Pc → Item → Prop
  | .resp _ _, i => i.rc = some ldapTimeout
  | _, _ => True

/-- A context with its request, neither taken out as answered nor as timed out. -/
def Item.Open (k : ℕ) (i : Item) : Prop :=
  i.ctx = some ⟨.search, some k⟩ ∧ ∃ rc, i.rc = some rc ∧ rc ≠ ldapTimeout

/-- A context that is to be sent has been put in the timetable once, if the timetable has room for the
timeout. -/
def Item.Timed (c : Conf) (i : Item) : Prop :=
  (c.tcLdapTimeout < c.tableSize → 0 < i.timer) ∧ i.timer ≤ 1

def CtxHeld (c : Conf) (w k : ℕ) : Pc → Item → Prop
  | .setSleep _ job, i => i.timer = 0 ∧ i.Nowhere ∧ i.rc = none ∧
      ∃ junk, i.ctx = some ⟨Job.action job, junk⟩
  | .insert _ job _, i => i.timer = 0 ∧ i.Nowhere ∧ i.rc = none ∧
      ∃ junk, i.ctx = some ⟨Job.action job, junk⟩
  | .send _ _, i => i.Timed c ∧ i.Nowhere ∧ i.rc = none ∧ ∃ junk, i.ctx = some ⟨.search, junk⟩
  | .sending _ _ _, i => i.Timed c ∧ i.Nowhere ∧ i.Open k
  | .gotResp _, i => i.Timed c ∧ i.Nowhere ∧ i.Open k
  | .respMark _ _, i => i.Timed c ∧ i.Nowhere ∧ i.Open k
  | .gotTimer _, i => i.timer = 0 ∧ (i.Nowhere ∧ (∃ junk, i.ctx = some ⟨.wait, junk⟩) ∨
      i.Nowhere ∧ i.ctx = some ⟨.search, none⟩ ∨ i.PendingOn (ldId c w) ∧ i.Open k)
  | .timeoutMark _ _, i => i.timer = 0 ∧ i.PendingOn (ldId c w) ∧ i.Open k
  | .resp _ _, i => i.timer = 0 ∧ i.PendingOn (ldId c w) ∧ i.ctx = some ⟨.search, none⟩
  | .respFree _ _, i => i.timer = 0 ∧ i.Nowhere ∧ i.ctx = some ⟨.search, none⟩
  | _, _ => False

/-- A context in nobody's hands: not allocated or freed, put to sleep for a wait, treated but still
in the timetable, or open. -/
inductive CtxLoose (c : Conf) (k : ℕ) (i : Item) : Prop
  | gone (hctx : i.ctx = none) (ht : i.timer = 0) (hl : i.Nowhere)
  | wait {junk} (hctx : i.ctx = some ⟨.wait, junk⟩) (ht : i.timer ≤ 1) (hl : i.Nowhere)
  | spent (hctx : i.ctx = some ⟨.search, none⟩) (ht : i.timer ≤ 1) (hl : i.Nowhere)
  | opened (ho : i.Open k) (ht : i.Timed c) (hl : i.Once)

def ctxRules (c : Conf) : Rules ℕ ℕ Pc Item := ⟨ctxKey, CtxClaims, CtxHeld c, CtxLoose c⟩

/-- The request context a worker works on after it has taken it out of the sleep context. -/
def reqKey : Pc → Option ℕ
  | .resp _ r => some r
  | .respFree _ r => some r
  | .respDone _ r _ => some r
  | _ => none

def Detached (i : Item) : Prop := i.rc.isSome = true ∧ ∀ x, i.ctx = some x → x.req = none

def reqRules : Rules ℕ ℕ Pc Item :=
  ⟨reqKey, fun _ _ => True, fun _ _ _ i => Detached i, fun _ _ => True⟩

def Paired : Pc → Prop
  | .respMark k r => r = k
  | .timeoutMark k r => r = k
  | .sending k r _ => r = k
  | .resp k r => r = k
  | .respFree k r => r = k
  | .respDone k r _ => r = k
  | _ => True

structure Kept (c : Conf) (s : State) : Prop where
  idle : ∀ w, c.tcWThreadNb ≤ w → s.pc w = .top
  paired : ∀ w, Paired (s.pc w)
  fresh : ∀ k, s.nextCtx ≤ k → item c s k = ⟨none, none, 0, 0, 0⟩
  ctxs : Keeps (ctxRules c) (item c s) s.pc
  reqs : Keeps reqRules (item c s) s.pc

structure Shell (c : Conf) (s : State) : Prop where
  size : 1 < c.tableSize
  index : s.wheel.currentIndex < c.tableSize
  lists : ∀ d, ∃ q, Holds (s.conn d).lists q
  used : ∀ d, (∀ v < c.tcWThreadNb, d ≠ ldId c v) →
    (s.conn d).lists.pending = [] ∧ (s.conn d).lists.answered = []

section Items
variable {c : Conf} {s : State} {k d : ℕ}

lemma item_setCtx (x : Option TSleep) :
    item c (s.setCtx k x) = Function.update (item c s) k { item c s k with ctx := x } := by
  funext j
  by_cases hj : j = k
  · subst hj
    simp [item, State.setCtx]
  · simp [item, State.setCtx, hj]

lemma item_setReq (q : Option TLdapReqCtx) :
    item c (s.setReq k q) =
      Function.update (item c s) k { item c s k with rc := q.map TLdapReqCtx.rc } := by
  funext j
  by_cases hj : j = k
  · subst hj
    simp [item, State.setReq]
  · simp [item, State.setReq, hj]

lemma item_insert (hn : 0 < c.tableSize) (delay : ℕ) :
    item c { s with wheel := insertSleep c.tableSize k delay s.wheel } =
      Function.update (item c s) k { item c s k with timer := (item c s k).timer + 1 } := by
  funext j
  by_cases hj : j = k
  · subst hj
    simp only [item, onWheel_insertSleep hn, if_true, Function.update_self, Item.mk.injEq, and_true,
      true_and]
    omega
  · simp [item, onWheel_insertSleep hn, hj, Ne.symm hj]

lemma item_pop (hi : s.wheel.currentIndex < c.tableSize)
    (hk : (tTimerGetUserToResume s.wheel).2 = some k) :
    0 < (item c s k).timer ∧ item c { s with wheel := (tTimerGetUserToResume s.wheel).1 } =
      Function.update (item c s) k { item c s k with timer := (item c s k).timer - 1 } := by
  have hpop := onWheel_tTimerGetUserToResume hi hk
  refine ⟨?_, funext fun j => ?_⟩
  · have hself := hpop k
    simp only [if_true] at hself
    simp only [item]
    omega
  · have hj := hpop j
    by_cases hjk : j = k
    · subst hjk
      simp only [if_true] at hj
      simp only [item, Function.update_self, Item.mk.injEq, and_true, true_and]
      omega
    · rw [if_neg (Ne.symm hjk), Nat.add_zero] at hj
      simp [item, hjk, hj]

lemma item_setConn {x : Conn} {a b : ℕ}
    (hreq : ∀ j, entries x.lists.pending j = if j = k then a else (item c s j).req d)
    (hresp : ∀ j, entries x.lists.answered j = if j = k then b else (item c s j).resp d) :
    item c (s.setConn d x) = Function.update (item c s) k { item c s k with
      req := Function.update (item c s k).req d a
      resp := Function.update (item c s k).resp d b } := by
  funext j
  have hr := hreq j
  have hp := hresp j
  by_cases hj : j = k
  · subst hj
    rw [if_pos rfl] at hr hp
    simp only [item, State.setConn, Function.update_self, Item.mk.injEq, true_and]
    constructor
    · funext e
      by_cases he : e = d <;> simp [he, hr]
    · funext e
      by_cases he : e = d <;> simp [he, hp]
  · rw [if_neg hj] at hr hp
    simp only [item, State.setConn, Function.update_of_ne hj, Item.mk.injEq, true_and]
    constructor
    · funext e
      by_cases he : e = d
      · rw [he, Function.update_self, hr]
        rfl
      · rw [Function.update_of_ne he]
    · funext e
      by_cases he : e = d
      · rw [he, Function.update_self, hp]
        rfl
      · rw [Function.update_of_ne he]

lemma item_congr {t : State} (hctx : t.ctx = s.ctx) (hreq : t.req = s.req)
    (hwheel : ∀ k, onWheel c.tableSize t.wheel k + hand k t.topTU =
      onWheel c.tableSize s.wheel k + hand k s.topTU)
    (hlists : ∀ d, (t.conn d).lists.pending = (s.conn d).lists.pending ∧
      (t.conn d).lists.answered = (s.conn d).lists.answered) : item c t = item c s := by
  funext k
  simp [item, hctx, hreq, hwheel, hlists]

lemma entries_nil (k : ℕ) : entries [] k = 0 := rfl

lemma entries_append (l m : List Entry) (k : ℕ) : entries (l ++ m) k = entries l k + entries m k := by
  simp [entries]

lemma entries_cons (e : Entry) (l : List Entry) (k : ℕ) :
    entries (e :: l) k = entries l k + if e.sleepCtx = k then 1 else 0 := by
  simp [entries, List.count_cons]

lemma entries_eraseP {l : List Entry} {p : Entry → Bool} {e : Entry} (h : l.find? p = some e)
    (k : ℕ) : entries l k = entries (l.eraseP p) k + if e.sleepCtx = k then 1 else 0 := by
  obtain ⟨hp, l₁, l₂, rfl, hl₁⟩ := List.find?_eq_some_iff_append.mp h
  rw [List.eraseP_append_right _ (by simpa using hl₁), List.eraseP_cons_of_pos hp, entries_append,
    entries_append, entries_cons]
  omega

lemma entries_remove (l : List Entry) (k j : ℕ) :
    entries (l.eraseP (·.sleepCtx == k)) j = entries l j - if k = j then 1 else 0 := by
  cases hfind : l.find? (·.sleepCtx == k) with
  | some e =>
    have he : e.sleepCtx = k := by simpa using List.find?_some hfind
    rw [entries_eraseP hfind j, he]
    omega
  | none =>
    have hnone : ∀ e ∈ l, e.sleepCtx ≠ k := by simpa using hfind
    rw [List.eraseP_of_forall_not (by simpa using hnone)]
    by_cases hkj : k = j
    · subst hkj
      have hzero : entries l k = 0 := by simpa [entries, List.count_eq_zero] using hnone
      rw [hzero, Nat.zero_sub]
    · rw [if_neg hkj, Nat.sub_zero]

lemma entries_pos {l : List Entry} {k : ℕ} : 0 < entries l k ↔ ∃ e ∈ l, e.sleepCtx = k := by
  simp [entries, List.count_pos_iff]

section Lists
variable {x : Conn} {q : Queues} {e : Entry}

lemma Holds.item_req (hq : Holds (s.conn d).lists q) (j : ℕ) :
    (item c s j).req d = entries q.req j := by simp [item, hq.pending]

lemma Holds.item_resp (hq : Holds (s.conn d).lists q) (j : ℕ) :
    (item c s j).resp d = entries q.resp j := by simp [item, hq.answered]

lemma item_push (hq : Holds (s.conn d).lists q) (hx : Holds x.lists ⟨q.req ++ [e], q.resp⟩) :
    item c (s.setConn d x) = Function.update (item c s) e.sleepCtx { item c s e.sleepCtx with
      req := Function.update (item c s e.sleepCtx).req d ((item c s e.sleepCtx).req d + 1) } := by
  rw [item_setConn (k := e.sleepCtx) (a := (item c s e.sleepCtx).req d + 1)
    (b := (item c s e.sleepCtx).resp d), Function.update_eq_self]
  · intro j
    rw [hx.pending, entries_append, entries_cons, entries_nil, Holds.item_req hq, Holds.item_req hq]
    by_cases hj : j = e.sleepCtx
    · simp [hj]
    · simp [hj, Ne.symm hj]
  · intro j
    rw [hx.answered, Holds.item_resp hq, Holds.item_resp hq]
    by_cases hj : j = e.sleepCtx <;> simp [hj]

lemma item_take {es : List Entry} (hq : Holds (s.conn d).lists q) (hresp : q.resp = e :: es)
    (hx : Holds x.lists ⟨q.req, es⟩) :
    0 < (item c s e.sleepCtx).resp d ∧
      item c (s.setConn d x) = Function.update (item c s) e.sleepCtx { item c s e.sleepCtx with
        resp := Function.update (item c s e.sleepCtx).resp d
          ((item c s e.sleepCtx).resp d - 1) } := by
  refine ⟨by rw [Holds.item_resp hq, hresp, entries_cons]; simp, ?_⟩
  rw [item_setConn (k := e.sleepCtx) (a := (item c s e.sleepCtx).req d)
    (b := (item c s e.sleepCtx).resp d - 1), Function.update_eq_self]
  · intro j
    rw [hx.pending, Holds.item_req hq, Holds.item_req hq]
    by_cases hj : j = e.sleepCtx <;> simp [hj]
  · intro j
    rw [hx.answered, Holds.item_resp hq, Holds.item_resp hq, hresp, entries_cons, entries_cons]
    by_cases hj : j = e.sleepCtx
    · simp [hj]
    · simp [hj, Ne.symm hj]

lemma item_remove (hq : Holds (s.conn d).lists q)
    (hx : Holds x.lists ⟨q.req.eraseP (·.sleepCtx == k), q.resp⟩) :
    item c (s.setConn d x) = Function.update (item c s) k { item c s k with
      req := Function.update (item c s k).req d ((item c s k).req d - 1) } := by
  rw [item_setConn (k := k) (a := (item c s k).req d - 1) (b := (item c s k).resp d),
    Function.update_eq_self]
  · intro j
    rw [hx.pending, entries_remove, Holds.item_req hq, Holds.item_req hq]
    by_cases hj : j = k
    · simp [hj]
    · simp [hj, Ne.symm hj]
  · intro j
    rw [hx.answered, Holds.item_resp hq, Holds.item_resp hq]
    by_cases hj : j = k <;> simp [hj]

lemma item_move {p : Entry → Bool} (hq : Holds (s.conn d).lists q) (he : q.req.find? p = some e)
    (hx : Holds x.lists ⟨q.req.eraseP p, q.resp ++ [e]⟩) :
    0 < (item c s e.sleepCtx).req d ∧
      item c (s.setConn d x) = Function.update (item c s) e.sleepCtx { item c s e.sleepCtx with
        req := Function.update (item c s e.sleepCtx).req d ((item c s e.sleepCtx).req d - 1)
        resp := Function.update (item c s e.sleepCtx).resp d
          ((item c s e.sleepCtx).resp d + 1) } := by
  have hcount := entries_eraseP he
  refine ⟨by rw [Holds.item_req hq, hcount]; simp, ?_⟩
  refine item_setConn (fun j => ?_) fun j => ?_
  · rw [hx.pending, Holds.item_req hq, Holds.item_req hq, hcount, hcount]
    by_cases hj : j = e.sleepCtx
    · simp [hj]
    · simp [hj, Ne.symm hj]
  · rw [hx.answered, entries_append, entries_cons, entries_nil, Holds.item_resp hq,
      Holds.item_resp hq]
    by_cases hj : j = e.sleepCtx
    · simp [hj]
    · simp [hj, Ne.symm hj]

lemma item_same (hq : Holds (s.conn d).lists q) (hx : Holds x.lists q) :
    item c (s.setConn d x) = item c s := by
  refine item_congr rfl rfl (fun _ => rfl) fun d' => ?_
  by_cases hd : d' = d
  · subst hd
    simp [State.setConn, hx.pending, hx.answered, hq.pending, hq.answered]
  · simp [State.setConn, hd]

end Lists

end Items

end LdapTgen.AsyncContexts
