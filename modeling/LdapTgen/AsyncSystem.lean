import LdapTgen.Common
import LdapTgen.LabelledRun
import LdapTgen.LdapLists
import LdapTgen.TimerWheel

/-! The threads of tgen under the global LDAP policy: the workers in `tExec`, the select threads, the
stat thread in `tTimerTopTU` and the closing sequence of `main`. A label is one thread's next step:
a section under a mutex, or an access to shared memory outside of any. Access to freed memory and
through null pointers has no successor. -/
namespace LdapTgen.AsyncSystem
open LdapLists TimerWheel

structure Conf where
  tcWThreadNb : ℕ
  tcLdapBindNb : ℕ
  tableSize : ℕ
  tcLdapTimeout : ℕ
  tcAbortScenario : Bool
  deriving DecidableEq, Repr

inductive ThreadState
  | running
  | ending
  | ending2
  | finished
  deriving DecidableEq, Repr

abbrev Ctrls := Option ℕ

inductive Action
  | wait
  | search
  deriving DecidableEq, Repr

structure TSleep where
  action : Action
  req : Option ℕ
  deriving DecidableEq, Repr

structure TLdapReqCtx where
  ctrls : Ctrls
  rc : ℤ
  deriving DecidableEq, Repr

/-- A connection: its lists, whether it is open, the controls set on it, the last message id and the
message ids without an answer yet. -/
structure Conn where
  lists : LdapLd
  opened : Bool
  ctrls : Ctrls
  msgid : ℤ
  outstanding : List ℤ

inductive Job
  | wait (nbTimeUnit : ℕ)
  | search (sctrl : Ctrls)
  deriving DecidableEq, Repr

inductive Pc
  | top
  | gotResp (k : ℕ)
  | respMark (k r : ℕ)
  | noResp
  | gotTimer (k : ℕ)
  | timeoutMark (k r : ℕ)
  | noTimer
  | notEnding
  | closing
  | closed
  | finished
  | exec
  | setSleep (k : ℕ) (job : Job)
  | insert (k : ℕ) (job : Job) (delay : ℕ)
  | send (k : ℕ) (sctrl : Ctrls)
  | sending (k r : ℕ) (sctrl : Ctrls)
  | sendFailed (k : ℕ) (rc : ℤ)
  | resp (k r : ℕ)
  | respFree (k r : ℕ)
  | respDone (k r : ℕ) (rc : ℤ)
  deriving DecidableEq, Repr

inductive TopPc
  | idle
  | draining
  | holding (k : ℕ)
  | inserting (k delay : ℕ)
  | advancing
  deriving DecidableEq, Repr

/-- Where `main` is; the argument is the next worker to tell. -/
inductive MainPc
  | running
  | ending (i : ℕ)
  | ending2 (i : ℕ)
  | waiting
  | left
  deriving DecidableEq, Repr

/-- What happened, newest first: a search was started, `ldap_search` was called with the controls
of the request and those in force, a result was treated, a connection was restarted, the scenario
went on after a search, a sample of `LDAP_Search_Rq` was taken for a search or for none. -/
inductive Event
  | started (k : ℕ)
  | searched (d k : ℕ) (own inForce : Ctrls)
  | treated (d k : ℕ) (ctrls : Ctrls)
  | restarted (d : ℕ)
  | completed (k : ℕ)
  | sample (k : Option ℕ)
  deriving DecidableEq, Repr

structure State where
  wheel : Wheel
  topTU : TopPc
  main : MainPc
  nbSessionsClosed : ℕ
  threadState : ℕ → ThreadState
  pc : ℕ → Pc
  conn : ℕ → Conn
  ctx : ℕ → Option TSleep
  req : ℕ → Option TLdapReqCtx
  nextCtx : ℕ
  log : List Event

def Conn.init : Conn := ⟨LdapLd.empty, true, none, 0, []⟩

def init : State :=
  ⟨tTimerInit, .idle, .running, 0, fun _ => .running, fun _ => .top, fun _ => Conn.init,
    fun _ => none, fun _ => none, 0, []⟩

/-- What the environment decides in a worker's step: the next request of the scenario and its
result, the content of new memory, the outcome of a library call. -/
inductive Input
  | tau
  | search (sctrl : Ctrls) (junk : Option ℕ)
  | wait (nbTimeUnit : ℕ) (junk : Option ℕ)
  | other (rc : ℤ)
  | endSce
  | nullLd
  | sent (a junk : ℕ)
  | sendError (rc : ℤ)
  | result (cmdsOk : Bool)
  deriving DecidableEq, Repr

inductive Label
  | worker (w : ℕ) (i : Input)
  | deliver (d : ℕ) (msgid rc : ℤ)
  | connError (d : ℕ) (myerrno : ℤ) (reopened : Bool)
  | topTU
  | main
  deriving DecidableEq, Repr

namespace State

def goto (s : State) (w : ℕ) (pc : Pc) : State := { s with pc := Function.update s.pc w pc }
def setCtx (s : State) (k : ℕ) (x : Option TSleep) : State :=
  { s with ctx := Function.update s.ctx k x }
def setReq (s : State) (r : ℕ) (q : Option TLdapReqCtx) : State :=
  { s with req := Function.update s.req r q }
def setConn (s : State) (d : ℕ) (x : Conn) : State := { s with conn := Function.update s.conn d x }
def setLists (s : State) (d : ℕ) (l : LdapLd) : State := s.setConn d { s.conn d with lists := l }
def record (s : State) (e : Event) : State := { s with log := e :: s.log }

/-- The sample and the step forward of the scenario at the end of an action. -/
def complete (s : State) (k : ℕ) : State := (s.record (.sample (some k))).record (.completed k)

end State

section Worker
variable (c : Conf) (w : ℕ) (s : State)

def ldId : ℕ := tLdapGetLdId c.tcLdapBindNb (workThr + w)

def stepTop : Option State := do
  let (l, k) ← getAndRemoveFirstResponse (s.conn (ldId c w)).lists
  return (s.setLists (ldId c w) l).goto w (match k with | some k => .gotResp k | none => .noResp)

/-- Read the context of the response. Without a request context `requestId` keeps its old value, and
any request may come next. -/
def stepGotResp (k : ℕ) : Option State := do
  let x ← s.ctx k
  return s.goto w (match x.req with | some r => .respMark k r | none => .exec)

def stepRespMark (k r : ℕ) : Option State := do
  let x ← s.ctx k
  return (s.setCtx k (some { x with req := none })).goto w (.resp k r)

def stepNoResp : Option State :=
  let p := tTimerGetUserToResume s.wheel
  some (({ s with wheel := p.1 }).goto w (match p.2 with | some k => .gotTimer k | none => .noTimer))

def stepGotTimer (k : ℕ) : Option State := do
  let x ← s.ctx k
  match x.action, x.req with
  | .wait, _ => return (s.setCtx k none).goto w .exec
  | .search, some r => return s.goto w (.timeoutMark k r)
  | .search, none => return (s.setCtx k none).goto w .top

def stepTimeoutMark (k r : ℕ) : Option State := do
  let q ← s.req r
  let x ← s.ctx k
  return ((s.setReq r (some { q with rc := ldapTimeout })).setCtx k
    (some { x with req := none })).goto w (.resp k r)

/-- After an action: the next one, or the outer loop if an error aborts the scenario. -/
def afterAction (rc : ℤ) : Pc := if rc ≠ 0 ∧ c.tcAbortScenario then .top else .exec

def newCtx (a : Action) (job : Job) (junk : Option ℕ) : State :=
  ({ s with nextCtx := s.nextCtx + 1 }.setCtx s.nextCtx (some ⟨a, junk⟩)).goto w
    (.setSleep s.nextCtx job)

def stepExec : Input → Option State
  | .search sctrl junk => some ((newCtx w s .search (.search sctrl) junk).record (.started s.nextCtx))
  | .wait nbTimeUnit junk => some (newCtx w s .wait (.wait nbTimeUnit) junk)
  | .other rc => some (s.goto w (afterAction c rc))
  | .endSce => some (s.goto w .top)
  | _ => none

/-- What follows `tTimerSetUserToSleep`: a wait leaves the inner loop, a search is sent. -/
def afterSleep (k : ℕ) : Job → Pc
  | .wait _ => .top
  | .search sctrl => .send k sctrl

def Job.delay : Job → ℕ
  | .wait nbTimeUnit => nbTimeUnit
  | .search _ => c.tcLdapTimeout

/-- The test of `tableClosed`, without the mutex. -/
def stepSetSleep (k : ℕ) (job : Job) : Option State :=
  some (s.goto w (match sleepDelay c.tableSize (job.delay c) s.wheel with
    | some delay => .insert k job delay
    | none => afterSleep k job))

def stepInsert (k : ℕ) (job : Job) (delay : ℕ) : Option State :=
  some (({ s with wheel := insertSleep c.tableSize k delay s.wheel }).goto w (afterSleep k job))

/-- `tLdap_SearchRequest_async` before the mutex. The handle it tests is not set yet. A context is sent
once, and the request context allocated for it has its number. -/
def stepSend (k : ℕ) (sctrl : Ctrls) : Input → Option State
  | .nullLd => some (s.goto w (.sendFailed k ldapConnectError))
  | .tau => do
      let x ← s.ctx k
      return ((s.setReq k (some ⟨none, 0⟩)).setCtx k (some { x with req := some k })).goto w
        (.sending k k sctrl)
  | _ => none

/-- `tLdap_SearchRequest_async` up to the call of `ldap_search`: the controls. -/
def prepareSend (k r : ℕ) (sctrl : Ctrls) : Option State := do
  let q ← s.req r
  let x := s.conn (ldId c w)
  let inForce := if sctrl.isSome then sctrl else x.ctrls
  if x.opened then
    return ((s.setReq r (some { q with ctrls := sctrl })).setConn (ldId c w)
      { x with ctrls := inForce }).record (.searched (ldId c w) k sctrl inForce)
  else none

def stepSending (k r : ℕ) (sctrl : Ctrls) (i : Input) : Option State := do
  let s ← prepareSend c w s k r sctrl
  let x := s.conn (ldId c w)
  match i with
  | .sent a junk =>
      if x.lists.heap.cell a = none then
        let l ← insertRequest a junk ⟨x.msgid + 1, k⟩ x.lists
        return (s.setConn (ldId c w) { x with
          lists := l
          msgid := x.msgid + 1
          outstanding := x.outstanding ++ [x.msgid + 1] }).goto w .top
      else none
  | .sendError rc => if rc ≠ 0 then return s.goto w (.sendFailed k rc) else none
  | _ => none

def stepSendFailed (k : ℕ) (rc : ℤ) : Option State :=
  some ((s.complete k).goto w (afterAction c rc))

/-- `LDAP_Search_Resp`: `getAndRemove_Request` on a timeout, else `tLdap_SearchResult`. -/
def stepResp (k r : ℕ) (i : Input) : Option State := do
  let q ← s.req r
  let d := ldId c w
  if q.rc = ldapTimeout then
    let (l, _) ← getAndRemoveRequest k (s.conn d).lists
    return (s.setLists d l).goto w (.respFree k r)
  else
    match i with
    | .result cmdsOk =>
        let rc := if q.rc ≠ 0 then q.rc else if cmdsOk then 0 else ldapOperationsError
        let ctrls := if q.ctrls.isSome then none else (s.conn d).ctrls
        return ((s.setConn d { s.conn d with ctrls := ctrls }).record
          (.treated d k q.ctrls)).goto w (.respDone k r rc)
    | _ => none

def stepRespFree (k r : ℕ) : Option State := do
  let _ ← s.ctx k
  let _ ← s.req r
  return (((s.setCtx k none).setReq r none).complete k).goto w .exec

def stepRespDone (k r : ℕ) (rc : ℤ) : Option State := do
  let _ ← s.req r
  return ((s.setReq r none).complete k).goto w (afterAction c rc)

def workerStep (i : Input) : Option State :=
  match s.pc w with
  | .top => stepTop c w s
  | .gotResp k => stepGotResp w s k
  | .respMark k r => stepRespMark w s k r
  | .noResp => stepNoResp w s
  | .gotTimer k => stepGotTimer w s k
  | .timeoutMark k r => stepTimeoutMark w s k r
  | .noTimer => some (s.goto w (if s.threadState w = .ending then .top else .notEnding))
  | .notEnding => some (s.goto w (if s.threadState w = .ending2 then .closing else .exec))
  | .closing => some ({ s with nbSessionsClosed := s.nbSessionsClosed + 1 }.goto w .closed)
  | .closed =>
      some ({ s with threadState := Function.update s.threadState w .finished }.goto w .finished)
  | .finished => none
  | .exec => stepExec c w s i
  | .setSleep k job => stepSetSleep c w s k job
  | .insert k job delay => stepInsert c w s k job delay
  | .send k sctrl => stepSend w s k sctrl i
  | .sending k r sctrl => stepSending c w s k r sctrl i
  | .sendFailed k rc => stepSendFailed c w s k rc
  | .resp k r => stepResp c w s k r i
  | .respFree k r => stepRespFree w s k r
  | .respDone k r rc => stepRespDone c w s k r rc

end Worker

section Others
variable (c : Conf) (s : State)

/-- A select thread hands a result over. The library gives one answer to a message id. -/
def stepDeliver (d : ℕ) (msgid rc : ℤ) : Option State := do
  let x := s.conn d
  if msgid ∈ x.outstanding then
    let (l, k) ← getAndMoveRequestToResponse msgid x.lists
    let s := s.setConn d { x with lists := l, outstanding := x.outstanding.erase msgid }
    match k with
    | none => return s
    | some k =>
        let y ← s.ctx k
        let r ← y.req
        let q ← s.req r
        return s.setReq r (some { q with rc := rc })
  else none

/-- `treatError_Ld`: the pending requests get the error and a sample each, up to the first one whose
context has no request context. -/
def markPending (h : TailedList.Heap Entry) (myerrno : ℤ) : ℕ → Option ℕ → State → Option State
  | _, none, s => some s
  | 0, some _, _ => none
  | n + 1, some a, s => do
      let cell ← h.cell a
      let x ← s.ctx cell.val.sleepCtx
      match x.req with
      | none => return s
      | some r =>
          let q ← s.req r
          markPending h myerrno n cell.next
            ((s.setReq r (some { q with rc := myerrno })).record (.sample (some cell.val.sleepCtx)))

def restarts (myerrno : ℤ) : Prop :=
  myerrno = ldapServerDown ∨ myerrno = ldapLocalError ∨ myerrno = 5

instance (myerrno : ℤ) : Decidable (restarts myerrno) := inferInstanceAs (Decidable (_ ∨ _))

/-- The new handle of a restarted connection has no controls, and its message ids start anew. -/
def restart (d : ℕ) (reopened : Bool) : State :=
  (s.setConn d ⟨(s.conn d).lists, reopened, none, 0, []⟩).record (.restarted d)

def stepConnError (d : ℕ) (myerrno : ℤ) (reopened : Bool) : Option State := do
  if myerrno = ldapSuccess then none
  else if restarts myerrno then
    let l := (s.conn d).lists
    let s ← markPending l.heap myerrno l.heap.size l.ldReq (restart s d reopened)
    let l ← moveRequests l
    return s.setLists d l
  else return s.record (.sample none)

def stepTopTU : Option State :=
  match s.topTU with
  | .idle => some { s with topTU := if s.wheel.tableClosed then .idle else .draining }
  | .draining =>
      let p := tTimerGetUserToResume s.wheel
      some { s with
        wheel := p.1
        topTU := match p.2 with | some k => .holding k | none => .advancing }
  | .holding k =>
      some { s with topTU := match sleepDelay c.tableSize 1 s.wheel with
        | some delay => .inserting k delay
        | none => .advancing }
  | .inserting k delay =>
      some { s with wheel := insertSleep c.tableSize k delay s.wheel, topTU := .draining }
  | .advancing => some { s with wheel := topIndex c.tableSize s.wheel, topTU := .idle }

def stepMain : Option State :=
  match s.main with
  | .running => some { s with main := .ending 0 }
  | .ending i =>
      if i < c.tcWThreadNb then
        some { s with
          threadState := Function.update s.threadState i .ending
          main := .ending (i + 1) }
      else some { s with wheel := tTimerClose c.tableSize s.wheel, main := .ending2 0 }
  | .ending2 i =>
      if i < c.tcWThreadNb then
        some { s with
          threadState := Function.update s.threadState i .ending2
          main := .ending2 (i + 1) }
      else some { s with main := .waiting }
  | .waiting => some { s with main := if c.tcWThreadNb ≤ s.nbSessionsClosed then .left else .waiting }
  | .left => none

def step : Label → Option State
  | .worker w i => if w < c.tcWThreadNb then workerStep c w s i else none
  | .deliver d msgid rc => stepDeliver s d msgid rc
  | .connError d myerrno reopened => stepConnError s d myerrno reopened
  | .topTU => stepTopTU c s
  | .main => stepMain c s

end Others

end LdapTgen.AsyncSystem
