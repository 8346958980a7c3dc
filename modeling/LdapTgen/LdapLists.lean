import LdapTgen.LabelledRun
import LdapTgen.TailedList

/-! The pending requests and the received responses of one LDAP connection: two lists of `tLdapList`
cells, and their refinement of two queues. -/
namespace LdapTgen.LdapLists
open TailedList LabelledRun

structure Entry where
  msgid : ℤ
  sleepCtx : ℕ
  deriving DecidableEq, Repr

structure LdapLd where
  heap : Heap Entry
  ldReq : Option ℕ
  ldResp : Option ℕ

def LdapLd.empty : LdapLd := ⟨Heap.empty, none, none⟩

/-- `malloc` gives the cell at `a`, with any value in its last field. -/
def insertRequest (a junk : ℕ) (e : Entry) (d : LdapLd) : Option LdapLd := do
  let (h, head) ← append (d.heap.alloc a ⟨none, junk, e⟩) d.ldReq a
  return { d with heap := h, ldReq := head }

def insertResponse (newresp : ℕ) (d : LdapLd) : Option LdapLd := do
  let h ← d.heap.setNext newresp none
  let (h, head) ← append h d.ldResp newresp
  return { d with heap := h, ldResp := head }

def getAndMoveRequestToResponse (msgid : ℤ) (d : LdapLd) : Option (LdapLd × Option ℕ) := do
  match ← search d.heap (·.msgid == msgid) d.heap.size none d.ldReq with
  | none => return (d, none)
  | some (pred, curr) =>
      let first ← d.ldReq
      let c ← d.heap.cell curr
      let (h, head) ← unlink d.heap first pred curr
      let d ← insertResponse curr { d with heap := h, ldReq := head }
      return (d, some c.val.sleepCtx)

def getAndRemoveFirstResponse (d : LdapLd) : Option (LdapLd × Option ℕ) := do
  match d.ldResp with
  | none => return (d, none)
  | some curr =>
      let c ← d.heap.cell curr
      let h ← match c.next with
        | some n => d.heap.setLast n c.last
        | none => some d.heap
      let h ← h.free curr
      return ({ d with heap := h, ldResp := c.next }, some c.val.sleepCtx)

/-- Whether a request was removed. The code then abandons it on the server, with a message id read
from the freed cell, on which no list depends. -/
def getAndRemoveRequest (sleepCtx : ℕ) (d : LdapLd) : Option (LdapLd × Bool) := do
  match ← search d.heap (·.sleepCtx == sleepCtx) d.heap.size none d.ldReq with
  | none => return (d, false)
  | some (pred, curr) =>
      let first ← d.ldReq
      let (h, head) ← unlink d.heap first pred curr
      let h ← h.free curr
      return ({ d with heap := h, ldReq := head }, true)

/-- The end of `treatError_Ld`: the requests go behind the responses. When there are responses the
request list keeps its head, so that the two lists share its cells. -/
def moveRequests (d : LdapLd) : Option LdapLd := do
  match d.ldReq, d.ldResp with
  | none, _ => return d
  | some r, none => return { d with ldReq := none, ldResp := some r }
  | some r, some f =>
      let c ← d.heap.cell f
      let h ← d.heap.setNext c.last (some r)
      let c ← h.cell r
      let h ← h.setLast f c.last
      return { d with heap := h }

/-- The entries reached from the request list, and those from the response list. -/
def LdapLd.pending (d : LdapLd) : List Entry := chain d.heap d.heap.size d.ldReq

def LdapLd.answered (d : LdapLd) : List Entry := chain d.heap d.heap.size d.ldResp

structure Rep (d : LdapLd) (req resp : List (ℕ × Entry)) : Prop where
  reqList : IsList d.heap d.ldReq req
  respList : IsList d.heap d.ldResp resp
  disjoint : (req.map Prod.fst).Disjoint (resp.map Prod.fst)
  bound : req.length + resp.length ≤ d.heap.size

lemma rep_empty : Rep .empty [] [] :=
  ⟨isList_nil _, isList_nil _, by simp, Nat.le_refl _⟩

section Operations
variable {d : LdapLd} {req resp : List (ℕ × Entry)}

lemma insertRequest_rep (hr : Rep d req resp) {a : ℕ} (ha : d.heap.cell a = none) (junk : ℕ)
    (e : Entry) :
    ∃ d', insertRequest a junk e d = some d' ∧ Rep d' (req ++ [(a, e)]) resp := by
  have hnotin : ∀ {p l}, IsList d.heap p l → a ∉ l.map Prod.fst := by
    intro p l hl hmem
    obtain ⟨x, hx, rfl⟩ := List.mem_map.mp hmem
    obtain ⟨c, hc, _⟩ := hl.seg.cell hx
    exact absurd (ha.symm.trans hc) nofun
  have hframe : ∀ {p l}, IsList d.heap p l → IsList (d.heap.alloc a ⟨none, junk, e⟩) p l := by
    intro p l hl
    refine hl.frame fun b hb => Function.update_of_ne ?_ _ _
    rintro rfl
    exact hnotin hl hb
  have hcell : (d.heap.alloc a ⟨none, junk, e⟩).cell a = some ⟨none, junk, e⟩ :=
    Function.update_self ..
  obtain ⟨h', head', happ, hlist, hsame, hsize⟩ :=
    append_spec (hframe hr.reqList) hcell rfl (hnotin hr.reqList)
  refine ⟨{ d with heap := h', ldReq := head' }, by simp [insertRequest, happ], hlist, ?_, ?_, ?_⟩
  · refine (hframe hr.respList).frame fun b hb => hsame b (hr.disjoint.symm hb) ?_
    rintro rfl
    exact hnotin hr.respList hb
  · simpa [List.disjoint_append_left] using ⟨hr.disjoint, by simpa using hnotin hr.respList⟩
  · have hb := hr.bound
    simp only [hsize, Heap.alloc, List.length_append, List.length_singleton]
    omega

lemma insertResponse_rep {x : ℕ × Entry} {c : Cell Entry} (hr : Rep d req resp)
    (hc : d.heap.cell x.1 = some c) (hv : c.val = x.2) (hreq : x.1 ∉ req.map Prod.fst)
    (hresp : x.1 ∉ resp.map Prod.fst) (hsize : req.length + resp.length < d.heap.size) :
    ∃ d', insertResponse x.1 d = some d' ∧ Rep d' req (resp ++ [x]) := by
  let h₁ : Heap Entry := ⟨Function.update d.heap.cell x.1 (some { c with next := none }), d.heap.size⟩
  have hframe : ∀ {p l}, IsList d.heap p l → x.1 ∉ l.map Prod.fst → IsList h₁ p l := by
    intro p l hl hx
    refine hl.frame fun b hb => Function.update_of_ne ?_ _ _
    rintro rfl
    exact hx hb
  have hc₁ : h₁.cell x.1 = some { c with next := none } := Function.update_self ..
  obtain ⟨h', head', happ, hlist, hsame, hsz⟩ :=
    append_spec (hframe hr.respList hresp) hc₁ rfl hresp
  refine ⟨{ d with heap := h', ldResp := head' }, ?_, ?_, ?_, ?_, ?_⟩
  · simp only [insertResponse, Heap.setNext, modify_of_cell hc, Option.bind_eq_bind,
      Option.bind_some]
    rw [happ]
    rfl
  · refine (hframe hr.reqList hreq).frame fun b hb => hsame b (hr.disjoint hb) ?_
    rintro rfl
    exact hreq hb
  · rwa [show (x.1, c.val) = x by rw [hv]] at hlist
  · simpa [List.disjoint_append_right] using ⟨hr.disjoint, by simpa using hreq⟩
  · simp only [hsz, List.length_append, List.length_singleton]
    exact hsize

section Split
variable {l₁ l₂ : List (ℕ × Entry)} {x : ℕ × Entry} {p : Entry → Bool}

lemma search_unlink (hr : Rep d (l₁ ++ x :: l₂) resp) (hl₁ : ∀ y ∈ l₁, p y.2 = false)
    (hx : p x.2 = true) :
    ∃ first h head c,
      search d.heap p d.heap.size none d.ldReq =
        some (some (l₁.getLast?.map Prod.fst, x.1)) ∧
      d.ldReq = some first ∧ d.heap.cell x.1 = some c ∧ c.val = x.2 ∧
      unlink d.heap first (l₁.getLast?.map Prod.fst) x.1 = some (h, head) ∧
      Rep { d with heap := h, ldReq := head } (l₁ ++ l₂) resp ∧
      (∃ c', h.cell x.1 = some c' ∧ c'.val = x.2) ∧ x.1 ∉ (l₁ ++ l₂).map Prod.fst ∧
      x.1 ∉ resp.map Prod.fst ∧ (l₁ ++ l₂).length + resp.length < h.size := by
  have hb := hr.bound
  simp only [List.length_append, List.length_cons] at hb
  have hsearch := search_found (n := d.heap.size) none hr.reqList.seg hl₁ hx (by omega)
  rw [Option.or_none] at hsearch
  obtain ⟨first, hfirst⟩ : ∃ first, d.ldReq = some first := by
    have hseg := hr.reqList.seg
    cases l₁ with
    | nil => exact ⟨x.1, hseg.1⟩
    | cons y l => exact ⟨y.1, hseg.1⟩
  obtain ⟨c, hc, hv⟩ := hr.reqList.seg.cell (show x ∈ l₁ ++ x :: l₂ by simp)
  have hlist := hr.reqList
  rw [hfirst] at hlist
  obtain ⟨h, head, hun, hlist', hcell, hsame, hsize⟩ := unlink_spec hlist
  have hnd := hr.reqList.nodup
  have hperm : ((l₁ ++ x :: l₂).map Prod.fst).Perm (x.1 :: (l₁ ++ l₂).map Prod.fst) := by
    simp [List.perm_middle]
  have hx' := (List.nodup_cons.mp (hperm.nodup_iff.mp hnd)).1
  have hsub : ∀ b ∈ (l₁ ++ l₂).map Prod.fst, b ∉ resp.map Prod.fst := fun b hb =>
    hr.disjoint (hperm.mem_iff.mpr (List.mem_cons_of_mem _ hb))
  refine ⟨first, h, head, c, hsearch, hfirst, hc, hv, hun, ⟨hlist', ?_, hsub, ?_⟩, hcell, hx',
    hr.disjoint (by simp), ?_⟩
  · exact hr.respList.frame fun b hb => hsame b fun hmem => hsub b hmem hb
  · simp only [hsize, List.length_append]
    omega
  · simp only [hsize, List.length_append]
    omega

lemma free_rep {h : Heap Entry} {a : Option ℕ} {c : Cell Entry}
    (hr : Rep { d with heap := h, ldReq := a } req resp) (hc : h.cell x.1 = some c)
    (hreq : x.1 ∉ req.map Prod.fst) (hresp : x.1 ∉ resp.map Prod.fst)
    (hsize : req.length + resp.length < h.size) :
    ∃ h', h.free x.1 = some h' ∧ Rep { d with heap := h', ldReq := a } req resp := by
  refine ⟨⟨Function.update h.cell x.1 none, h.size - 1⟩, by simp [Heap.free, hc], ?_, ?_,
    hr.disjoint, Nat.le_sub_one_of_lt hsize⟩
  · refine hr.reqList.frame fun b hb => Function.update_of_ne ?_ _ _
    rintro rfl
    exact hreq hb
  · refine hr.respList.frame fun b hb => Function.update_of_ne ?_ _ _
    rintro rfl
    exact hresp hb

lemma move_found (hr : Rep d (l₁ ++ x :: l₂) resp) {msgid : ℤ}
    (hl₁ : ∀ y ∈ l₁, y.2.msgid ≠ msgid) (hx : x.2.msgid = msgid) :
    ∃ d', getAndMoveRequestToResponse msgid d = some (d', some x.2.sleepCtx) ∧
      Rep d' (l₁ ++ l₂) (resp ++ [x]) := by
  obtain ⟨first, h, head, c, hsearch, hfirst, hc, hv, hun, hrep, ⟨c', hc', hv'⟩, hreq, hresp,
    hsize⟩ := search_unlink (p := (·.msgid == msgid)) hr (fun y hy => by simpa using hl₁ y hy)
      (by simpa using hx)
  obtain ⟨d', hins, hrep'⟩ := insertResponse_rep hrep hc' hv' hreq hresp hsize
  refine ⟨d', ?_, hrep'⟩
  rw [hfirst] at hsearch
  simp [getAndMoveRequestToResponse, hsearch, hfirst, hc, hun, hins, hv]

lemma remove_found (hr : Rep d (l₁ ++ x :: l₂) resp) {ctx : ℕ}
    (hl₁ : ∀ y ∈ l₁, y.2.sleepCtx ≠ ctx) (hx : x.2.sleepCtx = ctx) :
    ∃ d', getAndRemoveRequest ctx d = some (d', true) ∧ Rep d' (l₁ ++ l₂) resp := by
  obtain ⟨first, h, head, c, hsearch, hfirst, _, _, hun, hrep, ⟨c', hc', _⟩, hreq, hresp,
    hsize⟩ := search_unlink (p := (·.sleepCtx == ctx)) hr (fun y hy => by simpa using hl₁ y hy)
      (by simpa using hx)
  obtain ⟨h', hfree, hrep'⟩ := free_rep hrep hc' hreq hresp hsize
  refine ⟨{ d with heap := h', ldReq := head }, ?_, hrep'⟩
  rw [hfirst] at hsearch
  simp [getAndRemoveRequest, hsearch, hfirst, hun, hfree]

end Split

lemma move_missing (hr : Rep d req resp) {msgid : ℤ} (hreq : ∀ y ∈ req, y.2.msgid ≠ msgid) :
    getAndMoveRequestToResponse msgid d = some (d, none) := by
  have hsearch := search_none (p := fun e : Entry => e.msgid == msgid)
    (n := d.heap.size) none hr.reqList.seg (fun y hy => by simpa using hreq y hy)
    (Nat.le_trans (Nat.le_add_right _ _) hr.bound)
  simp [getAndMoveRequestToResponse, hsearch]

lemma remove_missing (hr : Rep d req resp) {ctx : ℕ} (hreq : ∀ y ∈ req, y.2.sleepCtx ≠ ctx) :
    getAndRemoveRequest ctx d = some (d, false) := by
  have hsearch := search_none (p := fun e : Entry => e.sleepCtx == ctx)
    (n := d.heap.size) none hr.reqList.seg (fun y hy => by simpa using hreq y hy)
    (Nat.le_trans (Nat.le_add_right _ _) hr.bound)
  simp [getAndRemoveRequest, hsearch]

lemma moveRequests_rep (hr : Rep d req resp) (h : req = [] ∨ resp = []) :
    ∃ d', moveRequests d = some d' ∧ Rep d' [] (resp ++ req) := by
  cases req with
  | nil =>
    have hnone : d.ldReq = none := hr.reqList.seg
    exact ⟨d, by simp [moveRequests, hnone], by simpa using hr⟩
  | cons x req =>
    have hresp : resp = [] := h.resolve_left (List.cons_ne_nil _ _)
    subst hresp
    have hhead : d.ldReq = some x.1 := hr.reqList.seg.1
    have hnone : d.ldResp = none := hr.respList.seg
    refine ⟨{ d with ldReq := none, ldResp := some x.1 }, by simp [moveRequests, hhead, hnone],
      isList_nil _, ?_, by simp, ?_⟩
    · have hlist := hr.reqList
      rw [hhead] at hlist
      exact hlist
    · simpa using hr.bound

lemma moveRequests_spec (hr : Rep d req resp) :
    ∃ d', moveRequests d = some d' ∧ IsList d'.heap d'.ldResp (resp ++ req) ∧
      (d'.ldReq = none ↔ req = [] ∨ resp = []) := by
  by_cases hone : req = [] ∨ resp = []
  · obtain ⟨d', hd', hr'⟩ := moveRequests_rep hr hone
    exact ⟨d', hd', hr'.respList, iff_of_true hr'.reqList.seg hone⟩
  obtain ⟨hreq, hresp⟩ := not_or.mp hone
  obtain ⟨x, l, rfl⟩ := List.exists_cons_of_ne_nil hreq
  obtain ⟨y, k, rfl⟩ := List.exists_cons_of_ne_nil hresp
  have hlist := hr.reqList
  have hlist' := hr.respList
  have hx : d.ldReq = some x.1 := hlist.seg.1
  have hy : d.ldResp = some y.1 := hlist'.seg.1
  rw [hx] at hlist
  rw [hy] at hlist'
  obtain ⟨cf, h₁, cr, h₂, hcf, hnext, hcr, hlast, hjoined⟩ :=
    splice_spec hlist' hlist hr.disjoint.symm
  refine ⟨{ d with heap := h₂ }, ?_, by rw [← hy] at hjoined; exact hjoined,
    iff_of_false (by simp [hx]) hone⟩
  simp [moveRequests, hx, hy, hcf, hnext, hcr, hlast]

lemma first_missing (hr : Rep d req []) : getAndRemoveFirstResponse d = some (d, none) := by
  have hnone : d.ldResp = none := hr.respList.seg
  simp [getAndRemoveFirstResponse, hnone]

lemma first_found {x : ℕ × Entry} (hr : Rep d req (x :: resp)) :
    ∃ d', getAndRemoveFirstResponse d = some (d', some x.2.sleepCtx) ∧ Rep d' req resp := by
  have hb := hr.bound
  simp only [List.length_cons] at hb
  obtain ⟨hhead, c, hc, hv, hrest⟩ := hr.respList.seg
  have hlist := hr.respList
  rw [hhead] at hlist
  -- the code is the deletion of the first cell, written out
  obtain ⟨h, head, hun, hlist', ⟨c', hc', _⟩, hsame, hsize⟩ := unlink_first hlist
  have hdisj := List.disjoint_cons_right.mp (show (req.map Prod.fst).Disjoint
    (x.1 :: resp.map Prod.fst) from hr.disjoint)
  have hx := (List.nodup_cons.mp (show (x.1 :: resp.map Prod.fst).Nodup from hlist.nodup)).1
  have hreq : IsList h d.ldReq req := hr.reqList.frame fun b hb => hsame b (hdisj.2 hb)
  have hrep : Rep { d with heap := h, ldResp := head } req resp :=
    ⟨hreq, hlist', hdisj.2, by simp only [hsize]; omega⟩
  obtain ⟨h', hfree, hrep'⟩ := free_rep (d := { d with ldResp := head }) (a := d.ldReq) hrep hc'
    hdisj.1 hx (by rw [hsize]; omega)
  refine ⟨{ d with heap := h', ldResp := head }, ?_, hrep'⟩
  cases hn : c.next with
  | none =>
    obtain ⟨rfl, rfl⟩ : d.heap = h ∧ none = head := by simpa [unlink, hc, hn] using hun
    simp [getAndRemoveFirstResponse, hhead, hc, hn, hfree, hv]
  | some n =>
    obtain ⟨hset, rfl⟩ : d.heap.setLast n c.last = some h ∧ some n = head := by
      simpa [unlink, hc, hn, Option.bind_eq_some_iff] using hun
    simp [getAndRemoveFirstResponse, hhead, hc, hn, hset, hfree, hv]

end Operations

structure Queues where
  req : List Entry
  resp : List Entry
  deriving DecidableEq, Repr

inductive Reply
  | done
  | ctx (sleepCtx : Option ℕ)
  | removed (found : Bool)
  deriving DecidableEq, Repr

inductive Op
  | insertRequest (a junk : ℕ) (e : Entry)
  | getAndMove (msgid : ℤ)
  | getAndRemoveFirst
  | getAndRemove (sleepCtx : ℕ)
  deriving DecidableEq, Repr

def Queues.apply (q : Queues) : Op → Queues × Reply
  | .insertRequest _ _ e => ({ q with req := q.req ++ [e] }, .done)
  | .getAndMove msgid =>
      match q.req.find? (·.msgid == msgid) with
      | none => (q, .ctx none)
      | some e => (⟨q.req.eraseP (·.msgid == msgid), q.resp ++ [e]⟩, .ctx (some e.sleepCtx))
  | .getAndRemoveFirst =>
      match q.resp with
      | [] => (q, .ctx none)
      | e :: es => (⟨q.req, es⟩, .ctx (some e.sleepCtx))
  | .getAndRemove sleepCtx =>
      ({ q with req := q.req.eraseP (·.sleepCtx == sleepCtx) },
        .removed (q.req.any (·.sleepCtx == sleepCtx)))

def LdapLd.apply (d : LdapLd) : Op → Option (LdapLd × Reply)
  | .insertRequest a junk e => (insertRequest a junk e d).map fun d => (d, .done)
  | .getAndMove msgid => (getAndMoveRequestToResponse msgid d).map fun r => (r.1, .ctx r.2)
  | .getAndRemoveFirst => (getAndRemoveFirstResponse d).map fun r => (r.1, .ctx r.2)
  | .getAndRemove sleepCtx => (getAndRemoveRequest sleepCtx d).map fun r => (r.1, .removed r.2)

def call (s : LdapLd × List Reply) (op : Op) : Option (LdapLd × List Reply) :=
  (s.1.apply op).map fun r => (r.1, s.2 ++ [r.2])

def specCall (s : Queues × List Reply) (op : Op) : Queues × List Reply :=
  ((s.1.apply op).1, s.2 ++ [(s.1.apply op).2])

/-- `malloc` gives a cell that is not in use. -/
def MallocFresh (s : LdapLd × List Reply) : Op → Prop
  | .insertRequest a _ _ => s.1.heap.cell a = none
  | _ => True

def Holds (d : LdapLd) (q : Queues) : Prop :=
  ∃ req resp, Rep d req resp ∧ req.map Prod.snd = q.req ∧ resp.map Prod.snd = q.resp

lemma Holds.pending {d : LdapLd} {q : Queues} (h : Holds d q) : d.pending = q.req := by
  obtain ⟨req, resp, hr, hreq, _⟩ := h
  have hb := hr.bound
  rw [LdapLd.pending, chain_eq hr.reqList.seg (by omega), hreq]

lemma Holds.answered {d : LdapLd} {q : Queues} (h : Holds d q) : d.answered = q.resp := by
  obtain ⟨req, resp, hr, _, hresp⟩ := h
  have hb := hr.bound
  rw [LdapLd.answered, chain_eq hr.respList.seg (by omega), hresp]

lemma split_first (req : List (ℕ × Entry)) (p : Entry → Bool) :
    (∀ y ∈ req, p y.2 = false) ∨
      ∃ l₁ x l₂, req = l₁ ++ x :: l₂ ∧ (∀ y ∈ l₁, p y.2 = false) ∧ p x.2 = true := by
  cases hfind : req.find? (fun y => p y.2) with
  | none => exact .inl fun y hy => by simpa using List.find?_eq_none.mp hfind y hy
  | some x =>
    obtain ⟨hx, l₁, l₂, hsplit, hl₁⟩ := List.find?_eq_some_iff_append.mp hfind
    exact .inr ⟨l₁, x, l₂, hsplit, fun y hy => by simpa using hl₁ y hy, hx⟩

lemma eraseP_split {l₁ : List (ℕ × Entry)} {x : ℕ × Entry} {p : Entry → Bool}
    (hl₁ : ∀ y ∈ l₁, p y.2 = false) (hx : p x.2 = true) (l₂ : List (ℕ × Entry)) :
    ((l₁ ++ x :: l₂).map Prod.snd).eraseP p = (l₁ ++ l₂).map Prod.snd := by
  have hnot : ∀ e ∈ l₁.map Prod.snd, ¬ p e = true := by
    intro e he
    obtain ⟨y, hy, rfl⟩ := List.mem_map.mp he
    simp [hl₁ y hy]
  rw [List.map_append, List.eraseP_append_right _ hnot, List.map_cons, List.eraseP_cons_of_pos hx,
    List.map_append]

lemma find_split {l₁ : List (ℕ × Entry)} {x : ℕ × Entry} {p : Entry → Bool}
    (hl₁ : ∀ y ∈ l₁, p y.2 = false) (hx : p x.2 = true) (l₂ : List (ℕ × Entry)) :
    ((l₁ ++ x :: l₂).map Prod.snd).find? p = some x.2 := by
  have hnone : (l₁.map Prod.snd).find? p = none := by simpa using hl₁
  rw [List.map_append, List.find?_append, hnone, Option.none_or, List.map_cons,
    List.find?_cons_of_pos hx]

lemma apply_getAndMove {d : LdapLd} {req resp : List (ℕ × Entry)} (hr : Rep d req resp) (msgid : ℤ) :
    ∃ d', d.apply (.getAndMove msgid) =
        some (d', (Queues.apply ⟨req.map Prod.snd, resp.map Prod.snd⟩ (.getAndMove msgid)).2) ∧
      Holds d' (Queues.apply ⟨req.map Prod.snd, resp.map Prod.snd⟩ (.getAndMove msgid)).1 := by
  rcases split_first req (·.msgid == msgid) with hno | ⟨l₁, x, l₂, rfl, hl₁, hx⟩
  · have hfind : (req.map Prod.snd).find? (·.msgid == msgid) = none := by simpa using hno
    have hmove := move_missing hr fun y hy => by simpa using hno y hy
    exact ⟨d, by simp [LdapLd.apply, hmove, Queues.apply, hfind], req, resp, hr,
      by simp [Queues.apply, hfind], by simp [Queues.apply, hfind]⟩
  · obtain ⟨d', hd, hrep⟩ := move_found hr (fun y hy => by simpa using hl₁ y hy) (by simpa using hx)
    have hfind := find_split (p := (·.msgid == msgid)) hl₁ hx l₂
    have herase := eraseP_split (p := (·.msgid == msgid)) hl₁ hx l₂
    refine ⟨d', by simp only [LdapLd.apply, hd, Queues.apply, hfind]; rfl, _, _, hrep, ?_, ?_⟩
    · simp only [Queues.apply, hfind, herase]
    · simp only [Queues.apply, hfind]
      rw [List.map_append, List.map_singleton]

lemma apply_getAndRemove {d : LdapLd} {req resp : List (ℕ × Entry)} (hr : Rep d req resp) (ctx : ℕ) :
    ∃ d', d.apply (.getAndRemove ctx) =
        some (d', (Queues.apply ⟨req.map Prod.snd, resp.map Prod.snd⟩ (.getAndRemove ctx)).2) ∧
      Holds d' (Queues.apply ⟨req.map Prod.snd, resp.map Prod.snd⟩ (.getAndRemove ctx)).1 := by
  rcases split_first req (·.sleepCtx == ctx) with hno | ⟨l₁, x, l₂, rfl, hl₁, hx⟩
  · have herase : (req.map Prod.snd).eraseP (·.sleepCtx == ctx) = req.map Prod.snd :=
      List.eraseP_of_forall_not (by simpa using fun e a h => hno (a, e) h)
    have hany : (req.map Prod.snd).any (·.sleepCtx == ctx) = false := by simpa using hno
    have hremove := remove_missing hr fun y hy => by simpa using hno y hy
    exact ⟨d, by simp only [LdapLd.apply, hremove, Queues.apply, hany]; rfl, req, resp, hr,
      herase.symm, rfl⟩
  · obtain ⟨d', hd, hrep⟩ := remove_found hr (fun y hy => by simpa using hl₁ y hy) (by simpa using hx)
    have hany : ((l₁ ++ x :: l₂).map Prod.snd).any (·.sleepCtx == ctx) = true := by
      rw [List.any_eq_true]
      exact ⟨x.2, by simp, hx⟩
    exact ⟨d', by simp only [LdapLd.apply, hd, Queues.apply, hany]; rfl, _, _, hrep,
      (eraseP_split (p := (·.sleepCtx == ctx)) hl₁ hx _).symm, rfl⟩

lemma apply_holds {d : LdapLd} {q : Queues} (hq : Holds d q) {op : Op} {out : List Reply}
    (hm : MallocFresh (d, out) op) :
    ∃ d', d.apply op = some (d', (q.apply op).2) ∧ Holds d' (q.apply op).1 := by
  obtain ⟨req, resp, hr, hreq, hresp⟩ := hq
  obtain ⟨qreq, qresp⟩ := q
  simp only at hreq hresp
  subst hreq hresp
  cases op with
  | insertRequest a junk e =>
    obtain ⟨d', hd, hrep⟩ := insertRequest_rep hr hm junk e
    exact ⟨d', by simp [LdapLd.apply, hd, Queues.apply], _, _, hrep, by simp [Queues.apply], rfl⟩
  | getAndMove msgid => exact apply_getAndMove hr msgid
  | getAndRemoveFirst =>
    cases resp with
    | nil =>
      have hfirst := first_missing hr
      exact ⟨d, by simp [LdapLd.apply, hfirst, Queues.apply], req, [], hr, rfl, rfl⟩
    | cons x resp =>
      obtain ⟨d', hd, hrep⟩ := first_found hr
      exact ⟨d', by simp [LdapLd.apply, hd, Queues.apply], req, resp, hrep, rfl, rfl⟩
  | getAndRemove ctx => exact apply_getAndRemove hr ctx

lemma holds_of_apply {d d' : LdapLd} {q : Queues} (hq : Holds d q) (op : Op) {r : Reply}
    (hm : MallocFresh (d, []) op) (h : d.apply op = some (d', r)) :
    Holds d' (q.apply op).1 ∧ r = (q.apply op).2 := by
  obtain ⟨d'', hd, hholds⟩ := apply_holds hq hm
  cases Option.some.inj (hd.symm.trans h)
  exact ⟨hholds, rfl⟩

section Returned
variable {d d' : LdapLd} {q : Queues}

lemma holds_of_insertRequest (hq : Holds d q) {a junk : ℕ} {e : Entry} (ha : d.heap.cell a = none)
    (h : insertRequest a junk e d = some d') : Holds d' ⟨q.req ++ [e], q.resp⟩ :=
  (holds_of_apply hq (.insertRequest a junk e) ha (by simp [LdapLd.apply, h]; rfl)).1

lemma holds_of_first_some (hq : Holds d q) {k : ℕ}
    (h : getAndRemoveFirstResponse d = some (d', some k)) :
    ∃ e es, q.resp = e :: es ∧ e.sleepCtx = k ∧ Holds d' ⟨q.req, es⟩ := by
  obtain ⟨hholds, hr⟩ := holds_of_apply hq .getAndRemoveFirst trivial
    (show d.apply .getAndRemoveFirst = some (d', .ctx (some k)) by simp [LdapLd.apply, h])
  cases hresp : q.resp with
  | nil => simp [Queues.apply, hresp] at hr
  | cons e es =>
    simp only [Queues.apply, hresp, Reply.ctx.injEq, Option.some.injEq] at hr hholds
    exact ⟨e, es, rfl, hr.symm, hholds⟩

lemma holds_of_first_none (hq : Holds d q) (h : getAndRemoveFirstResponse d = some (d', none)) :
    Holds d' q := by
  obtain ⟨hholds, hr⟩ := holds_of_apply hq .getAndRemoveFirst trivial
    (show d.apply .getAndRemoveFirst = some (d', .ctx none) by simp [LdapLd.apply, h])
  cases hresp : q.resp with
  | nil => simpa [Queues.apply, hresp] using hholds
  | cons e es => simp [Queues.apply, hresp] at hr

lemma holds_of_remove (hq : Holds d q) {k : ℕ} {b : Bool}
    (h : getAndRemoveRequest k d = some (d', b)) :
    Holds d' ⟨q.req.eraseP (·.sleepCtx == k), q.resp⟩ :=
  (holds_of_apply hq (.getAndRemove k) trivial
    (show d.apply (.getAndRemove k) = some (d', .removed b) by simp [LdapLd.apply, h])).1

lemma holds_of_move_some (hq : Holds d q) {msgid : ℤ} {k : ℕ}
    (h : getAndMoveRequestToResponse msgid d = some (d', some k)) :
    ∃ e, q.req.find? (·.msgid == msgid) = some e ∧ e.sleepCtx = k ∧
      Holds d' ⟨q.req.eraseP (·.msgid == msgid), q.resp ++ [e]⟩ := by
  obtain ⟨hholds, hr⟩ := holds_of_apply hq (.getAndMove msgid) trivial
    (show d.apply (.getAndMove msgid) = some (d', .ctx (some k)) by simp [LdapLd.apply, h])
  cases hfind : q.req.find? (·.msgid == msgid) with
  | none => simp [Queues.apply, hfind] at hr
  | some e =>
    simp only [Queues.apply, hfind, Reply.ctx.injEq, Option.some.injEq] at hr hholds
    exact ⟨e, rfl, hr.symm, hholds⟩

lemma holds_of_move_none (hq : Holds d q) {msgid : ℤ}
    (h : getAndMoveRequestToResponse msgid d = some (d', none)) : Holds d' q := by
  obtain ⟨hholds, hr⟩ := holds_of_apply hq (.getAndMove msgid) trivial
    (show d.apply (.getAndMove msgid) = some (d', .ctx none) by simp [LdapLd.apply, h])
  cases hfind : q.req.find? (·.msgid == msgid) with
  | none => simpa [Queues.apply, hfind] using hholds
  | some e => simp [Queues.apply, hfind] at hr

end Returned

lemma holds_of_moveRequests {d d' : LdapLd} {q : Queues} (hq : Holds d q)
    (hone : q.req = [] ∨ q.resp = []) (h : moveRequests d = some d') :
    Holds d' ⟨[], q.resp ++ q.req⟩ := by
  obtain ⟨req, resp, hr, hreq, hresp⟩ := hq
  have hone' : req = [] ∨ resp = [] := by simpa [← hreq, ← hresp] using hone
  obtain ⟨d'', hd, hrep⟩ := moveRequests_rep hr hone'
  cases Option.some.inj (hd.symm.trans h)
  exact ⟨[], resp ++ req, hrep, rfl, by rw [List.map_append, hreq, hresp]⟩

lemma run_holds {s : LdapLd × List Reply} {q : Queues × List Reply} (hq : Holds s.1 q.1)
    (hout : s.2 = q.2) {ops : List Op} (hm : Guarded call MallocFresh s ops) :
    ∃ t, run call s ops = some t ∧ Holds t.1 (ops.foldl specCall q).1 ∧
      t.2 = (ops.foldl specCall q).2 := by
  induction ops generalizing s q with
  | nil => exact ⟨s, rfl, hq, hout⟩
  | cons op ops ih =>
    obtain ⟨d', hd, hholds⟩ := apply_holds hq hm.1
    have hcall : call s op = some (d', s.2 ++ [(q.1.apply op).2]) := by simp [call, hd]
    obtain ⟨t, ht, hheld, hrep⟩ := ih (q := specCall q op) hholds (by simp [specCall, hout])
      (hm.2 _ hcall)
    exact ⟨t, run_cons_eq_some.mpr ⟨_, hcall, ht⟩, hheld, hrep⟩

/-- From empty lists, every sequence of calls returns, gives the replies of the queues, and leaves
two lists without a common cell, each acyclic and with a true last pointer, that hold the queues. -/
theorem lists_refine_queues (ops : List Op)
    (hm : Guarded call MallocFresh (LdapLd.empty, []) ops) :
    ∃ d out, run call (LdapLd.empty, []) ops = some (d, out) ∧
      out = (ops.foldl specCall (⟨[], []⟩, [])).2 ∧
      ∃ req resp, IsList d.heap d.ldReq req ∧ IsList d.heap d.ldResp resp ∧
        (req.map Prod.fst).Disjoint (resp.map Prod.fst) ∧
        req.map Prod.snd = (ops.foldl specCall (⟨[], []⟩, [])).1.req ∧
        resp.map Prod.snd = (ops.foldl specCall (⟨[], []⟩, [])).1.resp := by
  obtain ⟨t, ht, ⟨req, resp, hr, hreq, hresp⟩, hout⟩ :=
    run_holds (q := (⟨[], []⟩, [])) ⟨[], [], rep_empty, rfl, rfl⟩ rfl hm
  exact ⟨t.1, t.2, ht, hout, req, resp, hr.reqList, hr.respList, hr.disjoint, hreq, hresp⟩

/-- Two requests, of which the second is answered first and then consumed. -/
theorem second_request_answered :
    ∃ d, run call (LdapLd.empty, [])
        [.insertRequest 7 0 ⟨1, 10⟩, .insertRequest 8 3 ⟨2, 20⟩, .getAndMove 2,
          .getAndRemoveFirst] = some (d, [.done, .done, .ctx (some 20), .ctx (some 20)]) ∧
      ∃ req resp, IsList d.heap d.ldReq req ∧ IsList d.heap d.ldResp resp ∧
        req.map Prod.snd = [⟨1, 10⟩] ∧ resp.map Prod.snd = [] := by
  obtain ⟨d, out, hrun, hout, req, resp, hreq, hresp, _, hq, hp⟩ := lists_refine_queues
    [.insertRequest 7 0 ⟨1, 10⟩, .insertRequest 8 3 ⟨2, 20⟩, .getAndMove 2, .getAndRemoveFirst]
    (by
      refine ⟨rfl, fun t ht => ?_⟩
      cases ht
      exact ⟨rfl, fun t _ => ⟨trivial, fun t _ => ⟨trivial, fun t _ => trivial⟩⟩⟩)
  subst hout
  exact ⟨d, hrun, req, resp, hreq, hresp, hq, hp⟩

end LdapTgen.LdapLists
