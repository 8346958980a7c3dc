import LdapTgen.LinkedCells
import LdapTgen.RadiusIdentifiers

/-! The RADIUS client of the supplicant: the list `msgs` of the messages without response, with its
counter `num_msgs`, and the timeout of the event loop that sends them again. The messages lie in a heap
of cells, so that a write through a freed entry shows. The counters of the servers' statistics are
left out, and the servers are configured for the types of the messages that are sent. -/
namespace LdapTgen.RadiusClient
open LinkedCells RadiusIdentifiers

inductive RadiusType
  | auth
  | acct
  | acctInterim
  deriving DecidableEq, Repr

/-- The `ETH_ALEN` octets of a station's address. -/
abbrev Addr := Fin 6 → UInt8

/-- `struct radius_msg_list`, apart from its link; of the message itself only the identifier is read.
Times are in seconds. -/
structure Entry where
  addr : Addr
  identifier : UInt8
  msgType : RadiusType
  firstTry : ℕ
  nextTry : ℕ
  attempts : ℕ
  nextWait : ℕ
  deriving DecidableEq, Repr

inductive Handler
  | radiusClientTimer
  | other (n : ℕ)
  deriving DecidableEq, Repr

/-- `struct tloop_timeout`; the time is in microseconds. -/
structure Timeout where
  time : ℕ
  handler : Handler
  deriving DecidableEq, Repr

structure Conf where
  tcRadiusTimeout : ℕ
  tcRadiusRetries : ℤ
  authSecrets : List (List UInt8)
  acctSecrets : List (List UInt8)

structure Client where
  heap : Heap Entry
  msgs : Option ℕ
  numMsgs : ℕ
  nextRadiusIdentifier : UInt8
  authServer : ℕ
  acctServer : ℕ
  timeout : List Timeout
  terminate : Bool

def radiusClientMaxEntries : ℕ := 30
def radiusClientNumFailover : ℕ := 4

/-- A client without messages, whose loop has the timeouts of the other handlers. -/
def Client.init (timeout : List Timeout) : Client :=
  ⟨Heap.empty, none, 0, 0, 0, 0, timeout, false⟩

def insertTimeout (t : Timeout) : List Timeout → List Timeout
  | [] => [t]
  | u :: us => if t.time < u.time then t :: u :: us else u :: insertTimeout t us

/-- Registered at the time `tv`. -/
def tloopRegisterTimeout (tv secs : ℕ) (handler : Handler) (ts : List Timeout) : List Timeout :=
  insertTimeout ⟨tv + 1000000 * secs, handler⟩ ts

def tloopCancelTimeout (handler : Handler) (ts : List Timeout) : List Timeout :=
  ts.filter (·.handler ≠ handler)

def earlier (first : ℕ) (e : Entry) : ℕ :=
  if first = 0 ∨ e.nextTry < first then e.nextTry else first

/-- The timer is registered anew for the earliest message, at the time `tv`, after `now` was read. -/
def radiusClientUpdateTimeout (now tv : ℕ) (c : Client) : Option Client := do
  let ts := tloopCancelTimeout .radiusClientTimer c.timeout
  if c.msgs = none then some { c with timeout := ts }
  else
    let entries ← chain c.heap c.heap.fresh c.msgs
    let first := max (entries.foldl earlier 0) now
    some { c with timeout := tloopRegisterTimeout tv (first - now) .radiusClientTimer ts }

structure Message where
  addr : Option Addr
  identifier : UInt8
  msgType : RadiusType
  deriving DecidableEq, Repr

def newEntry (conf : Conf) (m : Message) (firstTry : ℕ) : Entry where
  addr := m.addr.getD fun _ => 0
  identifier := m.identifier
  msgType := m.msgType
  firstTry := firstTry
  nextTry := firstTry + conf.tcRadiusTimeout
  attempts := 1
  nextWait := conf.tcRadiusTimeout

/-- `malloc` says whether there is memory for the entry. -/
def radiusClientListAdd (conf : Conf) (m : Message) (malloc : Bool) (firstTry now tv : ℕ)
    (c : Client) : Option Client :=
  if c.terminate ∨ malloc = false then some c
  else do
    let (entry, heap) := c.heap.alloc ⟨c.msgs, newEntry conf m firstTry⟩
    let c ← radiusClientUpdateTimeout now tv { c with heap := heap, msgs := some entry }
    if radiusClientMaxEntries ≤ c.numMsgs then
      let heap ← dropLast c.heap entry
      some { c with heap := heap }
    else some { c with numMsgs := c.numMsgs + 1 }

/-- The loop that `radius_client_list_del` and `radius_client_flush_auth` share. -/
def removeEntries (p : Entry → Bool) (c : Client) : Option Client := do
  let (heap, msgs, numMsgs) ←
    sweep (fun n e => if p e then some (n - 1, e, true) else some (n, e, false)) c.heap c.msgs c.numMsgs
  some { c with heap := heap, msgs := msgs, numMsgs := numMsgs }

def radiusClientListDel (msgType : RadiusType) (addr : Option Addr) (c : Client) : Option Client :=
  match addr with
  | none => some c
  | some addr => removeEntries (fun e => e.msgType = msgType ∧ e.addr = addr) c

def radiusClientFlushAuth (addr : Addr) (c : Client) : Option Client :=
  removeEntries (fun e => e.msgType = .auth ∧ e.addr = addr) c

def answers (msgType : RadiusType) (identifier : UInt8) (req : Entry) : Bool :=
  (req.msgType = msgType ∨ req.msgType = .acctInterim ∧ msgType = .acct) ∧
    req.identifier = identifier

/-- The request is out of the list before the handlers see it, and freed behind them. -/
def radiusClientReceive (msgType : RadiusType) (identifier : UInt8) (c : Client) : Option Client := do
  let (heap, msgs, found) ← removeFirst (answers msgType identifier) c.heap c.msgs
  some { c with heap := heap, msgs := msgs, numMsgs := if found then c.numMsgs - 1 else c.numMsgs }

/-- The loop of `radius_client_get_id`: `prev` is the current entry even when that is freed. -/
def discardLoop (p : Entry → Bool) :
    ℕ → Heap Entry → Option ℕ → Option ℕ → Option ℕ → Option (Heap Entry × Option ℕ)
  | _, h, head, _, none => some (h, head)
  | 0, _, _, _, some _ => none
  | n + 1, h, head, prev, some entry => do
      let c ← h.cell entry
      if p c.val then
        let (h, head) ← unlink h head prev entry
        let h ← h.free entry
        discardLoop p n h head (some entry) c.next
      else discardLoop p n h head (some entry) c.next

def carries (id : UInt8) (e : Entry) : Bool := e.identifier = id

/-- The identifier that the next call gets when the shared counter is `ident`. -/
def Client.nextId (ident : UInt8) (c : Client) : UInt8 := (takeId c.nextRadiusIdentifier ident).1

/-- The messages with the new identifier are removed; `num_msgs` is left as it is. -/
def radiusClientGetId (ident : UInt8) (c : Client) : Option Client := do
  let (id, next, _) := takeId c.nextRadiusIdentifier ident
  let (heap, msgs) ← discardLoop (carries id) c.heap.fresh c.heap c.msgs none c.msgs
  some { c with heap := heap, msgs := msgs, nextRadiusIdentifier := next }

def radiusClientFlush (c : Client) : Option Client := do
  let heap ← freeLoop c.heap.fresh c.heap c.msgs
  some { c with
    heap := heap
    msgs := none
    numMsgs := 0
    timeout := tloopCancelTimeout .radiusClientTimer c.timeout }

/-- The result of `send`; the errors `ENOTCONN`, `EDESTADDRREQ` and `EINVAL` make the client connect
again. -/
inductive SendResult
  | sent
  | failed
  | reconnect
  deriving DecidableEq, Repr

/-- The variables of the loop over the messages, and the results of the calls of `send` to come. -/
structure Turn where
  first : ℕ
  authFailover : ℕ
  acctFailover : ℕ
  numMsgs : ℕ
  terminate : Bool
  sends : List SendResult

/-- Whether the message is to be removed. To connect again the client flushes its list, and the entry
written afterwards is one of those it has freed. -/
def radiusClientRetransmit (conf : Conf) (now : ℕ) (t : Turn) (e : Entry) :
    Option (Turn × Entry × Bool) :=
  if t.sends.head? = some .reconnect then none
  else
    let e := { e with
      attempts := e.attempts + 1
      nextTry := now + e.nextWait
      nextWait := conf.tcRadiusTimeout }
    let tooMany := decide (conf.tcRadiusRetries < e.attempts)
    some ({ t with sends := t.sends.tail, terminate := t.terminate || tooMany }, e, tooMany)

def Turn.keep (t : Turn) (e : Entry) : Turn :=
  let acct := e.msgType = .acct ∨ e.msgType = .acctInterim
  { t with
    first := earlier t.first e
    authFailover := if radiusClientNumFailover < e.attempts ∧ ¬ acct then t.authFailover + 1
      else t.authFailover
    acctFailover := if radiusClientNumFailover < e.attempts ∧ acct then t.acctFailover + 1
      else t.acctFailover }

def timerVisit (conf : Conf) (now : ℕ) (t : Turn) (e : Entry) : Option (Turn × Entry × Bool) := do
  let (t, e, removed) ←
    if e.nextTry ≤ now then radiusClientRetransmit conf now t e else some (t, e, false)
  if removed then some ({ t with numMsgs := t.numMsgs - 1 }, e, true)
  else some (t.keep e, e, false)

/-- `radius_change_server` between two servers, whose secrets may be the same. -/
def radiusChangeServer (conf : Conf) (sameSecret : Bool) (tv : ℕ) (c : Client) : Option Client :=
  if sameSecret = false then radiusClientFlush c
  else do
    let (heap, msgs, _) ← sweep (fun (_ : Unit) e => some ((), { e with
      nextTry := e.firstTry + conf.tcRadiusTimeout
      attempts := 0
      nextWait := conf.tcRadiusTimeout }, false)) c.heap c.msgs ()
    some { c with
      heap := heap
      msgs := msgs
      timeout := if msgs = none then c.timeout
        else tloopRegisterTimeout tv conf.tcRadiusTimeout .radiusClientTimer
          (tloopCancelTimeout .radiusClientTimer c.timeout) }

/-- The server after `old`, around the list. -/
def nextServer (secrets : List (List UInt8)) (old : ℕ) : ℕ :=
  if old + 1 < secrets.length then old + 1 else 0

def sameSecret (secrets : List (List UInt8)) (old next : ℕ) : Bool := secrets[old]? = secrets[next]?

def authFailover (conf : Conf) (failover tv : ℕ) (c : Client) : Option Client :=
  if 0 < failover ∧ 1 < conf.authSecrets.length then
    let next := nextServer conf.authSecrets c.authServer
    radiusChangeServer conf (sameSecret conf.authSecrets c.authServer next) tv
      { c with authServer := next }
  else some c

def acctFailover (conf : Conf) (failover tv : ℕ) (c : Client) : Option Client :=
  if 0 < failover ∧ 1 < conf.acctSecrets.length then
    let next := nextServer conf.acctSecrets c.acctServer
    radiusChangeServer conf (sameSecret conf.acctSecrets c.acctServer next) tv
      { c with acctServer := next }
  else some c

/-- Called at the time `now`; the timeouts are registered at the times `tv`, `tvAuth` and `tvAcct`. -/
def radiusClientTimer (conf : Conf) (now tv tvAuth tvAcct : ℕ) (sends : List SendResult)
    (c : Client) : Option Client :=
  if c.msgs = none then some c
  else do
    let (heap, msgs, t) ← sweep (timerVisit conf now) c.heap c.msgs
      ⟨0, 0, 0, c.numMsgs, c.terminate, sends⟩
    let c := { c with
      heap := heap
      msgs := msgs
      numMsgs := t.numMsgs
      terminate := t.terminate
      timeout := if msgs = none then c.timeout
        else tloopRegisterTimeout tv (max t.first now - now) .radiusClientTimer c.timeout }
    let c ← authFailover conf t.authFailover tvAuth c
    acctFailover conf t.acctFailover tvAcct c

end LdapTgen.RadiusClient
