import LdapTgen.AsyncSystem

/-! The restart of a connection in `treatError_Ld`: the pending requests are marked with the error
and handed over to the response list. A context is a pointer of a list cell, which may be null, and
the request record is a pointer of the context. -/
namespace LdapTgen.ConnectionRestart
open TailedList LdapLists

/-- What a `sleepCtx` pointer designates: nothing, memory given back, or a context with its `req`
field. -/
inductive Context
  | null
  | freed
  | live (req : Option ℕ)
  deriving DecidableEq, Repr

/-- The `rc` field of each request record that exists, and the error code and the retries of each
call of `tStatActionTime` for `LDAP_Search_Rq`, newest first. -/
structure Records where
  rc : ℕ → Option ℤ
  samples : List (ℤ × ℕ)

/-- The marking loop, which ends at the first request without a context or without a record. -/
def markRequests (h : Heap Entry) (ctx : ℕ → Context) (myerrno : ℤ) :
    ℕ → Option ℕ → Records → Option Records
  | _, none, m => some m
  | 0, some _, _ => none
  | n + 1, some curr, m => do
      let cell ← h.cell curr
      match ctx cell.val.sleepCtx with
      | .null => return m
      | .freed => none
      | .live none => return m
      | .live (some req) =>
          let _ ← m.rc req
          markRequests h ctx myerrno n cell.next
            ⟨Function.update m.rc req (some myerrno), (myerrno, 0) :: m.samples⟩

/-- The new handle that `tLdap_abandon` opens plays no part in the lists. -/
def treatErrorLd (ctx : ℕ → Context) (myerrno : ℤ) (d : LdapLd) (m : Records) :
    Option (LdapLd × Records) := do
  if AsyncSystem.restarts myerrno then
    if d.ldReq = none then return (d, m)
    let m ← markRequests d.heap ctx myerrno d.heap.size d.ldReq m
    let d ← moveRequests d
    return (d, m)
  else if myerrno = ldapTimeout then return (d, { m with samples := (myerrno, 1) :: m.samples })
  else return (d, { m with samples := (myerrno, 0) :: m.samples })

def record (ctx : ℕ → Context) (e : Entry) : Option ℕ :=
  match ctx e.sleepCtx with
  | .live req => req
  | _ => none

def reached (ctx : ℕ → Context) : List (ℕ × Entry) → List ℕ
  | [] => []
  | x :: l =>
      match record ctx x.2 with
      | none => []
      | some r => r :: reached ctx l

/-- The records of `rs` marked one after the other. -/
def Records.mark (myerrno : ℤ) (rs : List ℕ) (m : Records) : Records :=
  ⟨fun r => if r ∈ rs then some myerrno else m.rc r,
    List.replicate rs.length (myerrno, 0) ++ m.samples⟩

section Marking
variable {ctx : ℕ → Context} {myerrno : ℤ} {m : Records}

lemma mark_cons (r : ℕ) (rs : List ℕ) :
    m.mark myerrno (r :: rs) = Records.mark myerrno rs
      ⟨Function.update m.rc r (some myerrno), (myerrno, 0) :: m.samples⟩ := by
  have hrc : (fun i => if i ∈ r :: rs then some myerrno else m.rc i) =
      fun i => if i ∈ rs then some myerrno else Function.update m.rc r (some myerrno) i := by
    funext i
    by_cases hi : i = r
    · simp [hi]
    · simp [hi, Function.update_of_ne]
  have hsamples : List.replicate (r :: rs).length (myerrno, 0) ++ m.samples =
      List.replicate rs.length (myerrno, 0) ++ (myerrno, 0) :: m.samples := by
    rw [List.length_cons, List.replicate_succ', List.append_assoc, List.singleton_append]
  rw [Records.mark, Records.mark, hrc, hsamples]

/-- The pointers of the requests designate memory that exists, or nothing. -/
def Valid (ctx : ℕ → Context) (m : Records) (l : List (ℕ × Entry)) : Prop :=
  ∀ x ∈ l, ctx x.2.sleepCtx ≠ .freed ∧ ∀ r, record ctx x.2 = some r → m.rc r ≠ none

lemma Valid.update {l : List (ℕ × Entry)} (hv : Valid ctx m l) (r : ℕ) (samples : List (ℤ × ℕ)) :
    Valid ctx ⟨Function.update m.rc r (some myerrno), samples⟩ l := by
  intro x hx
  refine ⟨(hv x hx).1, fun i hi => ?_⟩
  by_cases hir : i = r
  · simp [hir]
  · simpa [Function.update_of_ne hir] using (hv x hx).2 i hi

lemma markRequests_eq (myerrno : ℤ) {h : Heap Entry} {l : List (ℕ × Entry)} {p : Option ℕ} {n : ℕ}
    (hl : Seg h p l none) (hn : l.length ≤ n) (hv : Valid ctx m l) :
    markRequests h ctx myerrno n p m = some (m.mark myerrno (reached ctx l)) := by
  induction l generalizing p n m with
  | nil =>
    obtain rfl : p = none := hl
    cases n <;> simp [markRequests, reached, Records.mark]
  | cons x l ih =>
    obtain ⟨rfl, c, hc, hval, hrest⟩ := hl
    obtain ⟨n, rfl⟩ := Nat.exists_eq_succ_of_ne_zero (Nat.ne_of_gt (Nat.zero_lt_of_lt hn))
    obtain ⟨hfreed, hrec⟩ := hv x List.mem_cons_self
    have hv' : Valid ctx m l := fun y hy => hv y (List.mem_cons_of_mem _ hy)
    simp only [markRequests, hc, Option.bind_eq_bind, Option.bind_some, hval]
    cases hx : ctx x.2.sleepCtx with
    | null => simp [reached, record, hx, Records.mark]
    | freed => exact absurd hx hfreed
    | live req =>
      cases req with
      | none => simp [reached, record, hx, Records.mark]
      | some r =>
        have hr : record ctx x.2 = some r := by simp [record, hx]
        obtain ⟨rc, hrc⟩ := Option.ne_none_iff_exists'.mp (hrec r hr)
        simp only [hrc, Option.bind_some, reached, hr]
        rw [ih hrest (Nat.le_of_succ_le_succ hn) (hv'.update r _), mark_cons]

end Marking

structure WellFormed (ctx : ℕ → Context) (d : LdapLd) (m : Records)
    (req resp : List (ℕ × Entry)) : Prop where
  rep : Rep d req resp
  valid : Valid ctx m req

/-- No request is left on the request list, the response list goes on with the requests, and each
record of a request has the error code. -/
structure HandedOver (ctx : ℕ → Context) (myerrno : ℤ) (req resp : List (ℕ × Entry)) (d : LdapLd)
    (m : Records) : Prop where
  ldReq : d.ldReq = none
  ldResp : IsList d.heap d.ldResp (resp ++ req)
  marked : ∀ x ∈ req, ∀ r, record ctx x.2 = some r → m.rc r = some myerrno

section Restart
variable {ctx : ℕ → Context} {myerrno : ℤ} {d : LdapLd} {m : Records}
  {req resp : List (ℕ × Entry)}

lemma treatErrorLd_restarts (hw : WellFormed ctx d m req resp)
    (he : AsyncSystem.restarts myerrno) :
    ∃ d', treatErrorLd ctx myerrno d m = some (d', m.mark myerrno (reached ctx req)) ∧
      IsList d'.heap d'.ldResp (resp ++ req) ∧ (d'.ldReq = none ↔ req = [] ∨ resp = []) := by
  obtain ⟨d', hmove, hlist, hreq⟩ := moveRequests_spec hw.rep
  have hmark := markRequests_eq myerrno hw.rep.reqList.seg
    (Nat.le_trans (Nat.le_add_right _ _) hw.rep.bound) hw.valid
  refine ⟨d', ?_, hlist, hreq⟩
  by_cases hnone : d.ldReq = none
  · -- the code leaves before the loop, which would have done nothing
    rw [hnone] at hmark
    have hd : d' = d := by simpa [moveRequests, hnone, eq_comm] using hmove
    have hm : m = m.mark myerrno (reached ctx req) := by
      cases hs : d.heap.size <;> simpa [hs, markRequests] using hmark
    rw [treatErrorLd, if_pos he, if_pos hnone, hd, ← hm]
    rfl
  · simp [treatErrorLd, he, hnone, hmark, hmove]

/-- A restart hands every pending request over exactly when one of the two lists is empty, and every
record of a pending request either stands before the first request without one or had the error
code already. -/
theorem handed_over_iff (hw : WellFormed ctx d m req resp) (he : AsyncSystem.restarts myerrno) :
    ∃ d' m', treatErrorLd ctx myerrno d m = some (d', m') ∧
      (HandedOver ctx myerrno req resp d' m' ↔ (req = [] ∨ resp = []) ∧
        ∀ x ∈ req, ∀ r, record ctx x.2 = some r →
          r ∈ reached ctx req ∨ m.rc r = some myerrno) := by
  obtain ⟨d', htreat, hlist, hreq⟩ := treatErrorLd_restarts hw he
  have hrc : ∀ r, (m.mark myerrno (reached ctx req)).rc r = some myerrno ↔
      r ∈ reached ctx req ∨ m.rc r = some myerrno := by
    intro r
    by_cases hr : r ∈ reached ctx req <;> simp [Records.mark, hr]
  refine ⟨d', _, htreat, ?_, ?_⟩
  · intro h
    exact ⟨hreq.mp h.ldReq, fun x hx r hr => (hrc r).mp (h.marked x hx r hr)⟩
  · rintro ⟨hone, hmarked⟩
    exact ⟨hreq.mpr hone, hlist, fun x hx r hr => (hrc r).mpr (hmarked x hx r hr)⟩

end Restart

/-- A connection with requests at cells 1 and 2, and a response at cell 3 or none. -/
def twoRequests (ldResp : Option ℕ) : LdapLd where
  heap :=
    { cell := fun a =>
        if a = 1 then some ⟨some 2, 2, ⟨11, 1⟩⟩
        else if a = 2 then some ⟨none, 2, ⟨12, 2⟩⟩
        else if a = 3 then some ⟨none, 3, ⟨10, 3⟩⟩
        else none
      size := 3 }
  ldReq := some 1
  ldResp := ldResp

lemma twoRequests_rep : Rep (twoRequests none) [(1, ⟨11, 1⟩), (2, ⟨12, 2⟩)] [] where
  reqList :=
    { seg := ⟨rfl, _, rfl, rfl, rfl, _, rfl, rfl, rfl⟩
      nodup := by decide
      last := by
        rintro a c ⟨rfl⟩ hc
        obtain rfl := Option.some_inj.mp hc
        rfl }
  respList := isList_nil _
  disjoint := by simp
  bound := by decide

def unmarked : Records := ⟨fun r => if r = 1 ∨ r = 2 then some 0 else none, []⟩

theorem two_requests_handed_over :
    ∃ d' m', treatErrorLd (fun k => .live (some k)) ldapServerDown (twoRequests none) unmarked =
        some (d', m') ∧
      HandedOver (fun k => .live (some k)) ldapServerDown [(1, ⟨11, 1⟩), (2, ⟨12, 2⟩)] [] d' m' := by
  have hvalid : Valid (fun k => .live (some k)) unmarked [(1, ⟨11, 1⟩), (2, ⟨12, 2⟩)] := by
    simp [Valid, record, unmarked]
  have he : AsyncSystem.restarts ldapServerDown := Or.inl rfl
  obtain ⟨d', m', htreat, h⟩ := handed_over_iff ⟨twoRequests_rep, hvalid⟩ he
  exact ⟨d', m', htreat, h.mpr ⟨Or.inr rfl, by simp [record, reached]⟩⟩

/-- With a response waiting and a first request without a record, the requests stay on their list
and the record of the second one is not marked. -/
theorem requests_kept_unmarked :
    ∃ d' m', treatErrorLd (fun k => .live (if k = 2 then some 2 else none)) ldapServerDown
        (twoRequests (some 3)) unmarked = some (d', m') ∧
      d'.ldReq = some 1 ∧ m'.rc 2 = some 0 ∧
      ¬ HandedOver (fun k => .live (if k = 2 then some 2 else none)) ldapServerDown
        [(1, ⟨11, 1⟩), (2, ⟨12, 2⟩)] [(3, ⟨10, 3⟩)] d' m' :=
  ⟨_, _, rfl, rfl, rfl, fun h => nomatch h.ldReq⟩

section Asynchronous
variable (s : AsyncSystem.State)

/-- The contexts of the asynchronous system: one that is not there has been given back. -/
def contexts (k : ℕ) : Context :=
  match s.ctx k with
  | none => .freed
  | some x => .live x.req

/-- The records of the asynchronous system; its samples do not say the error. -/
def records (samples : List (ℤ × ℕ)) : Records := ⟨fun r => (s.req r).map (·.rc), samples⟩

lemma records_setReq (r : ℕ) (q : AsyncSystem.TLdapReqCtx) (e : AsyncSystem.Event)
    (samples : List (ℤ × ℕ)) :
    records ((s.setReq r (some q)).record e) samples =
      ⟨Function.update (records s samples).rc r (some q.rc), samples⟩ := by
  refine congrArg (Records.mk · samples) (funext fun i => ?_)
  by_cases hi : i = r
  · simp [AsyncSystem.State.setReq, AsyncSystem.State.record, hi]
  · simp [AsyncSystem.State.setReq, AsyncSystem.State.record, records, Function.update_of_ne hi]

lemma markPending_rc (h : Heap Entry) (myerrno : ℤ) (n : ℕ) (a : Option ℕ)
    (samples : List (ℤ × ℕ)) :
    (AsyncSystem.markPending h myerrno n a s).map (fun t r => (t.req r).map (·.rc)) =
      (markRequests h (contexts s) myerrno n a (records s samples)).map (·.rc) := by
  induction n generalizing a s samples with
  | zero => cases a <;> rfl
  | succ n ih =>
    cases a with
    | none => rfl
    | some a =>
      simp only [AsyncSystem.markPending, markRequests, Option.bind_eq_bind]
      cases hc : h.cell a with
      | none => rfl
      | some cell =>
        cases hx : s.ctx cell.val.sleepCtx with
        | none => simp [contexts, hx]
        | some x =>
          cases hreq : x.req with
          | none => simp [contexts, hx, hreq, records]
          | some r =>
            cases hq : s.req r with
            | none => simp [contexts, hx, hreq, records, hq]
            | some q =>
              simp only [hx, hreq, hq, contexts, records, Option.bind_some, Option.map_some]
              -- no context changes, and the record is written in the same way
              exact (ih _ cell.next _).trans (congrArg _ (congrArg _ (records_setReq s ..)))

/-- The error step of the asynchronous system does to its lists and records what the code does. -/
theorem stepConnError_refines (d : ℕ) {myerrno : ℤ} (he : AsyncSystem.restarts myerrno)
    (reopened : Bool) (samples : List (ℤ × ℕ)) :
    (AsyncSystem.stepConnError s d myerrno reopened).map
        (fun t => ((t.conn d).lists, fun r => (t.req r).map (·.rc))) =
      (treatErrorLd (contexts s) myerrno (s.conn d).lists (records s samples)).map
        (fun p => (p.1, p.2.rc)) := by
  have hsuccess : myerrno ≠ ldapSuccess := by
    rintro rfl
    exact absurd he (by decide)
  simp only [AsyncSystem.stepConnError, treatErrorLd, if_neg hsuccess, if_pos he]
  by_cases hnone : (s.conn d).lists.ldReq = none
  · simp [hnone, AsyncSystem.markPending, moveRequests, AsyncSystem.State.setLists,
      AsyncSystem.State.setConn, records]
    rfl
  have hmark := markPending_rc (AsyncSystem.restart s d reopened) (s.conn d).lists.heap myerrno
    (s.conn d).lists.heap.size (s.conn d).lists.ldReq samples
  change _ = (markRequests _ (contexts s) _ _ _ (records s samples)).map _ at hmark
  rw [if_neg hnone]
  cases hu : AsyncSystem.markPending (s.conn d).lists.heap myerrno (s.conn d).lists.heap.size
      (s.conn d).lists.ldReq (AsyncSystem.restart s d reopened) with
  | none =>
    rw [hu, Option.map_none, eq_comm, Option.map_eq_none_iff] at hmark
    simp [hmark]
  | some u =>
    rw [hu, Option.map_some, eq_comm, Option.map_eq_some_iff] at hmark
    obtain ⟨m, hm, hrc⟩ := hmark
    cases hl : moveRequests (s.conn d).lists with
    | none => simp [hm]
    | some l => simp [hm, hrc, AsyncSystem.State.setLists, AsyncSystem.State.setConn]

end Asynchronous

end LdapTgen.ConnectionRestart
