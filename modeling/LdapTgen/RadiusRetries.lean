import LdapTgen.RadiusTimers

/-! A request that is never answered, in the two RADIUS clients: the loop of `send_packet`, and the
supplicant's list of messages with its retransmission timer. Both count the retries that they report
to the statistics. -/
namespace LdapTgen.RadiusRetries
open LabelledRun LinkedCells RadiusClient RadiusTimers

/-- What `select` gives, and the identifiers of the packets that `rad_recv` then reads until it fails. -/
inductive Wait
  | error
  | timeout
  | packets (ids : List UInt8)
  deriving DecidableEq, Repr

/-- Whether the wait behind a packet ends with its answer; there is no result while it goes on. -/
def awaitReply (id : UInt8) : List Wait → Option Bool
  | [] => none
  | .error :: _ | .timeout :: _ => some false
  | .packets ids :: ws => if id ∈ ids then some true else awaitReply id ws

structure Outcome where
  transmissions : ℕ
  retries : ℕ
  replied : Bool
  deriving DecidableEq, Repr

def sendLoop (id : UInt8) (waits : ℕ → List Wait) : ℕ → ℕ → ℕ → Option Outcome
  | 0, i, sent => some ⟨sent, i, false⟩
  | n + 1, i, sent => do
      if ← awaitReply id (waits i) then some ⟨sent + 1, i, true⟩
      else sendLoop id waits n (i + 1) (sent + 1)

def sendPacket (conf : Conf) (id : UInt8) (waits : ℕ → List Wait) : Option Outcome :=
  sendLoop id waits conf.tcRadiusRetries.toNat 0 0

def Unanswered (waits : ℕ → List Wait) : Prop :=
  ∀ i, (∀ ids, .packets ids ∈ waits i → ids = []) ∧ (.error ∈ waits i ∨ .timeout ∈ waits i)

lemma awaitReply_of_empty {id : UInt8} {ws : List Wait} (hids : ∀ ids, .packets ids ∈ ws → ids = [])
    (hend : .error ∈ ws ∨ .timeout ∈ ws) : awaitReply id ws = some false := by
  induction ws with
  | nil => simp at hend
  | cons w ws ih =>
    cases w with
    | error => rfl
    | timeout => rfl
    | packets ids =>
      obtain rfl : ids = [] := hids ids List.mem_cons_self
      rw [awaitReply, if_neg (by simp)]
      exact ih (fun ids h => hids ids (List.mem_cons_of_mem _ h)) (by simpa using hend)

lemma sendLoop_unanswered {id : UInt8} {waits : ℕ → List Wait} (h : Unanswered waits) (n i sent : ℕ) :
    sendLoop id waits n i sent = some ⟨sent + n, i + n, false⟩ := by
  induction n generalizing i sent with
  | zero => rfl
  | succ n ih =>
    simp only [sendLoop, awaitReply_of_empty (h i).1 (h i).2, Option.bind_eq_bind, Option.bind_some,
      Bool.false_eq_true, if_false]
    rw [ih, Nat.add_assoc, Nat.add_assoc, Nat.add_comm 1 n]

/-- The calls of `send`, `statRetries`, and the retries reported of the requests given up. -/
structure Stat where
  transmissions : ℕ
  statRetries : ℕ
  reported : List ℕ
  deriving DecidableEq, Repr

structure System where
  loop : Loop
  stat : Stat

def System.init (ts : List Timeout) (clock : ℕ) : System := ⟨Loop.init ts clock, ⟨0, 0, []⟩⟩

/-- What `radius_client_retransmit` counts. -/
def resendStat (conf : Conf) (st : Stat) (e : Entry) : Stat where
  transmissions := st.transmissions + 1
  statRetries := st.statRetries + 1
  reported := if conf.tcRadiusRetries < (e.attempts + 1 : ℕ) then (st.statRetries + 1) :: st.reported
    else st.reported

def timerStat (conf : Conf) (now : ℕ) (st : Stat) (es : List Entry) : Stat :=
  (es.filter (·.due now)).foldl (resendStat conf) st

def ownTimer (s : Loop) : Bool := s.client.timeout.head?.any (·.handler = .radiusClientTimer)

/-- A new message was sent before it is added to the list, and its retries are counted from 0. -/
def statStep (conf : Conf) (s : Loop) (st : Stat) : Event → Stat
  | .listAdd _ _ _ _ => { st with transmissions := st.transmissions + 1, statRetries := 0 }
  | .timeout _ t₁ _ _ =>
      if ownTimer s then timerStat conf (seconds t₁) st (pending s.client) else st
  | _ => st

def step (conf : Conf) (s : System) (e : Event) : Option System :=
  (RadiusTimers.step conf s.loop e).map fun l => ⟨l, statStep conf s.loop s.stat e⟩

/-- What can happen while no packet comes: timeouts, with calls of `send` after which the client need
not connect again, and the timeouts of other handlers. -/
def Silent : Event → Prop
  | .timeout _ _ _ sends => .reconnect ∉ sends
  | .register _ _ _ | .cancel _ => True
  | _ => False

/-- The message waits: its timer is not due before it, and every attempt was counted. -/
structure Waiting (conf : Conf) (s : System) (e : Entry) : Prop where
  has : s.loop.client.Has [e]
  timer : ∃ u, clientTimers s.loop.client.timeout = [u] ∧ 1000000 * e.nextTry ≤ u.time
  attempts : 1 ≤ e.attempts ∧ (e.attempts : ℤ) ≤ conf.tcRadiusRetries
  stat : s.stat = ⟨e.attempts, e.attempts - 1, []⟩

structure GivenUp (conf : Conf) (s : System) : Prop where
  has : s.loop.client.Has []
  timer : clientTimers s.loop.client.timeout = []
  stat : s.stat = ⟨conf.tcRadiusRetries.toNat + 1, conf.tcRadiusRetries.toNat,
    [conf.tcRadiusRetries.toNat]⟩

section Timer
variable {conf : Conf} {c : Client} {e : Entry} {now tv : ℕ} {sends : List SendResult}

def kept (conf : Conf) (now : ℕ) (e : Entry) : List Entry :=
  if conf.tcRadiusRetries ≤ e.attempts then [] else [e.resent conf now]

lemma sweepList_one (conf : Conf) {t : Turn} (hdue : e.due now) (hsends : .reconnect ∉ t.sends) :
    ∃ u, sweepList (timerVisit conf now) t [e] = some (kept conf now e, u) ∧
      u.first = (kept conf now e).foldl earlier t.first := by
  have hle : e.nextTry ≤ now := by simpa [Entry.due] using hdue
  have hhead : t.sends.head? ≠ some .reconnect := fun h => hsends (List.mem_of_mem_head? h)
  by_cases hmany : conf.tcRadiusRetries ≤ e.attempts
  · simp [sweepList, timerVisit, hle, radiusClientRetransmit, hhead, kept, hmany]
  · simp [sweepList, timerVisit, hle, radiusClientRetransmit, hhead, kept, hmany, Turn.keep,
      Entry.resent]

lemma timer_one (tv : ℕ) (hone : OneServer conf) (hc : c.Has [e]) (hdue : e.due now)
    (hsends : .reconnect ∉ sends) :
    ∃ c', radiusClientTimer conf now tv tv tv sends c = some c' ∧ c'.Has (kept conf now e) ∧
      c'.timeout = if kept conf now e = [] then c.timeout
        else retryTimeout now tv (kept conf now e) c.timeout := by
  have hmsgs : c.msgs ≠ none := fun hm => List.cons_ne_nil _ _ (hc.nil_iff.mp hm)
  obtain ⟨t, hlist, hfirst⟩ := sweepList_one conf
    (t := ⟨0, 0, 0, c.numMsgs, c.terminate, sends⟩) hdue hsends
  obtain ⟨heap, msgs, hsweep, hheld⟩ := (Holds.sweep hc).1 _ _ hlist
  refine ⟨{ c with
    heap := heap
    msgs := msgs
    numMsgs := t.numMsgs
    terminate := t.terminate
    timeout := if kept conf now e = [] then c.timeout
      else retryTimeout now tv (kept conf now e) c.timeout }, ?_, hheld, rfl⟩
  simp only [radiusClientTimer, hmsgs, if_false, hsweep, Option.bind_eq_bind, Option.bind_some,
    hone.authFailover, hone.acctFailover, hheld.nil_iff, retryTimeout, hfirst]

lemma clientTimers_retryTimeout {ts : List Timeout} (hts : clientTimers ts = []) {r : ℕ} (hr : r ≤ tv)
    (e : Entry) :
    ∃ u, clientTimers (retryTimeout (seconds r) tv [e] ts) = [u] ∧ 1000000 * e.nextTry ≤ u.time := by
  refine ⟨_, clientTimers_insert rfl hts, ?_⟩
  have hfirst : [e].foldl earlier 0 = e.nextTry := by simp [earlier]
  simp only [hfirst, seconds]
  omega

end Timer

section Steps
variable {conf : Conf} {s t : System} {e : Entry}

lemma timerStat_one {now : ℕ} (hdue : e.due now) (st : Stat) :
    timerStat conf now st [e] = resendStat conf st e := by
  simp [timerStat, hdue]

/-- The first timeout of the loop is due, and its handler is called with these readings of the clock. -/
structure Fires (s : System) (t₀ t₁ t₂ : ℕ) (u : Timeout) (us : List Timeout) : Prop where
  timeout : s.loop.client.timeout = u :: us
  due : u.time ≤ t₀
  clock : s.loop.clock ≤ t₀ ∧ t₀ ≤ t₁ ∧ t₁ ≤ t₂

lemma Waiting.fire {t₀ t₁ t₂ : ℕ} {sends : List SendResult} {u : Timeout} {us : List Timeout}
    (hone : OneServer conf) (h : Waiting conf s e) (hf : Fires s t₀ t₁ t₂ u us)
    (hu : u.handler = .radiusClientTimer) (hsends : .reconnect ∉ sends) :
    ∃ t, step conf s (.timeout t₀ t₁ t₂ sends) = some t ∧
      (GivenUp conf t ∨ Waiting conf t (e.resent conf (seconds t₁))) := by
  obtain ⟨hts, hdue, h₀, h₁, h₂⟩ := hf
  obtain ⟨v, hv, htime⟩ := h.timer
  rw [hts, clientTimers, List.filter_cons_of_pos (by simp [hu])] at hv
  obtain ⟨rfl, hus⟩ := List.cons.inj hv
  have hentry : e.due (seconds t₁) := by
    rw [Entry.due, decide_eq_true_eq, seconds]
    omega
  obtain ⟨c', htimer, hhas, htimeout⟩ := timer_one (c := { s.loop.client with timeout := us })
    t₂ hone h.has hentry hsends
  have hstat : statStep conf s.loop s.stat (.timeout t₀ t₁ t₂ sends) =
      resendStat conf ⟨e.attempts, e.attempts - 1, []⟩ e := by
    simp [statStep, ownTimer, hts, hu, h.has.pending, timerStat_one hentry, h.stat]
  refine ⟨⟨⟨c', t₂, t₁, t₂⟩, resendStat conf ⟨e.attempts, e.attempts - 1, []⟩ e⟩, ?_, ?_⟩
  · rw [step, hstat]
    simp [RadiusTimers.step, fireTimeout, hts, hdue, hu, h₀, h₁, h₂, htimer]
  · obtain ⟨hlow, hhigh⟩ := h.attempts
    have hprev : e.attempts - 1 + 1 = e.attempts := by omega
    by_cases hmany : conf.tcRadiusRetries ≤ e.attempts
    · left
      have hlast : conf.tcRadiusRetries.toNat = e.attempts := by omega
      simp only [kept, hmany, if_true] at hhas htimeout
      refine ⟨hhas, ?_, ?_⟩
      · rw [htimeout]
        exact hus
      · simp [resendStat, hmany, hlast, hprev]
    · right
      simp only [kept, hmany, if_false, List.cons_ne_nil] at hhas htimeout
      refine ⟨hhas, ?_, ⟨?_, ?_⟩, ?_⟩
      · simp only [htimeout]
        exact clientTimers_retryTimeout hus h₂ _
      · simp [Entry.resent]
      · simp only [Entry.resent]
        omega
      · simp [resendStat, hmany, Entry.resent, hprev]

structure Same (s t : System) : Prop where
  has : ∀ es, s.loop.client.Has es → t.loop.client.Has es
  timer : clientTimers t.loop.client.timeout = clientTimers s.loop.client.timeout
  stat : t.stat = s.stat

lemma Waiting.same (h : Waiting conf s e) (hst : Same s t) : Waiting conf t e where
  has := hst.has _ h.has
  timer := by rw [hst.timer]; exact h.timer
  attempts := h.attempts
  stat := hst.stat.trans h.stat

lemma GivenUp.same (h : GivenUp conf s) (hst : Same s t) : GivenUp conf t where
  has := hst.has _ h.has
  timer := hst.timer.trans h.timer
  stat := hst.stat.trans h.stat

lemma Fires.other (conf : Conf) {t₀ t₁ t₂ n : ℕ} {u : Timeout} {us : List Timeout}
    (hf : Fires s t₀ t₁ t₂ u us) (hu : u.handler = .other n) (sends : List SendResult) :
    step conf s (.timeout t₀ t₁ t₂ sends) =
        some ⟨{ s.loop with client := { s.loop.client with timeout := us }, clock := t₀ }, s.stat⟩ ∧
      Same s ⟨{ s.loop with client := { s.loop.client with timeout := us }, clock := t₀ }, s.stat⟩ := by
  constructor
  · simp [step, RadiusTimers.step, fireTimeout, hf.timeout, hu, hf.due, hf.clock, statStep, ownTimer]
  · refine ⟨fun _ hes => hes, ?_, rfl⟩
    simp [clientTimers, hf.timeout, hu]

lemma silent_cases {ev : Event} (hev : Silent ev) (h : step conf s ev = some t) :
    (∃ t₀ t₁ t₂ sends u us, ev = .timeout t₀ t₁ t₂ sends ∧ Fires s t₀ t₁ t₂ u us ∧
      u.handler = .radiusClientTimer) ∨ Same s t := by
  obtain ⟨l, hl, rfl⟩ := Option.map_eq_some_iff.mp h
  cases ev with
  | timeout t₀ t₁ t₂ sends =>
    obtain ⟨hclock, hfire⟩ : (s.loop.clock ≤ t₀ ∧ t₀ ≤ t₁ ∧ t₁ ≤ t₂) ∧
        fireTimeout conf s.loop t₀ t₁ t₂ sends = some l := by
      simpa [RadiusTimers.step] using hl
    cases hts : s.loop.client.timeout with
    | nil => simp [fireTimeout, hts] at hfire
    | cons u us =>
      have hdue : u.time ≤ t₀ := by
        by_contra hlate
        simp [fireTimeout, hts, hlate] at hfire
      have hf : Fires s t₀ t₁ t₂ u us := ⟨hts, hdue, hclock⟩
      cases hu : u.handler with
      | radiusClientTimer => exact Or.inl ⟨t₀, t₁, t₂, sends, u, us, rfl, hf, hu⟩
      | other n =>
        obtain ⟨hstep, hsame⟩ := hf.other conf hu sends
        rw [Option.some.inj (h.symm.trans hstep)]
        exact Or.inr hsame
  | register t' secs n =>
    right
    obtain ⟨-, rfl⟩ : s.loop.clock ≤ t' ∧ { s.loop with
        client := { s.loop.client with
          timeout := tloopRegisterTimeout t' secs (.other n) s.loop.client.timeout }
        clock := t' } = l := by
      simpa [RadiusTimers.step] using hl
    exact ⟨fun _ hes => hes, clientTimers_insert_other (by simp), rfl⟩
  | cancel n =>
    right
    cases hl
    exact ⟨fun _ hes => hes, clientTimers_cancel_other n, rfl⟩
  | _ => exact absurd hev id

def InProgress (conf : Conf) (s : System) : Prop := GivenUp conf s ∨ ∃ e, Waiting conf s e

lemma step_inProgress {ev : Event} (hone : OneServer conf) (hs : InProgress conf s) (hev : Silent ev)
    (h : step conf s ev = some t) : InProgress conf t := by
  rcases silent_cases hev h with ⟨t₀, t₁, t₂, sends, u, us, rfl, hf, hu⟩ | hsame
  · rcases hs with hgiven | ⟨e, hwait⟩
    · -- without a message the client has no timer
      have htimer := hgiven.timer
      simp [hf.timeout, clientTimers, hu] at htimer
    · obtain ⟨t', ht', hnext⟩ := hwait.fire hone hf hu hev
      cases Option.some.inj (h.symm.trans ht')
      exact hnext.imp_right fun hw => ⟨_, hw⟩
  · exact hs.imp (fun hg => hg.same hsame) (Exists.imp fun _ hw => hw.same hsame)

lemma Waiting.next (hone : OneServer conf) (h : Waiting conf s e) :
    ∃ evs t, (∀ ev ∈ evs, Silent ev) ∧ run (step conf) s evs = some t ∧
      (GivenUp conf t ∨ ∃ e', Waiting conf t e' ∧ e'.attempts = e.attempts + 1) := by
  induction hts : s.loop.client.timeout generalizing s with
  | nil =>
    obtain ⟨u, hu, -⟩ := h.timer
    simp [hts, clientTimers] at hu
  | cons u us ih =>
    let t₀ := max u.time s.loop.clock
    have hf : Fires s t₀ t₀ t₀ u us :=
      ⟨hts, Nat.le_max_left .., Nat.le_max_right .., Nat.le_refl t₀, Nat.le_refl t₀⟩
    cases hu : u.handler with
    | radiusClientTimer =>
      obtain ⟨t, ht, hnext⟩ := h.fire hone hf hu (List.not_mem_nil (a := SendResult.reconnect))
      refine ⟨[.timeout t₀ t₀ t₀ []], t, by simp [Silent], by simp [run, ht], ?_⟩
      exact hnext.imp_right fun hw => ⟨_, hw, rfl⟩
    | other n =>
      -- the handler of another timeout is called first
      obtain ⟨ht, hsame⟩ := hf.other conf hu []
      obtain ⟨evs, t', hevs, hrun, hnext⟩ := ih (h.same hsame) rfl
      refine ⟨.timeout t₀ t₀ t₀ [] :: evs, t', ?_, by simp [run, ht, hrun], hnext⟩
      simpa [Silent] using hevs

lemma Waiting.exists_givenUp (hone : OneServer conf) (h : Waiting conf s e) :
    ∃ evs t, (∀ ev ∈ evs, Silent ev) ∧ run (step conf) s evs = some t ∧ GivenUp conf t := by
  induction hk : conf.tcRadiusRetries.toNat - e.attempts generalizing s e with
  | zero =>
    obtain ⟨evs, t, hevs, hrun, hgiven | ⟨e', hw, hatt⟩⟩ := h.next hone
    · exact ⟨evs, t, hevs, hrun, hgiven⟩
    · have := hw.attempts
      omega
  | succ k ih =>
    obtain ⟨evs, t, hevs, hrun, hgiven | ⟨e', hw, hatt⟩⟩ := h.next hone
    · exact ⟨evs, t, hevs, hrun, hgiven⟩
    · obtain ⟨evs', t', hevs', hrun', hgiven⟩ := ih hw (by omega)
      refine ⟨evs ++ evs', t', ?_, by rw [run_append, hrun, Option.bind_some, hrun'], hgiven⟩
      intro ev hev
      exact (List.mem_append.mp hev).elim (hevs ev) (hevs' ev)

lemma init_listAdd (ts : List Timeout) {clock : ℕ} (m : Message) {t₁ t₂ t₃ : ℕ}
    (hR : 1 ≤ conf.tcRadiusRetries) (h₁ : clock ≤ t₁) (h₂ : t₁ ≤ t₂) (h₃ : t₂ ≤ t₃) :
    ∃ s, step conf (.init ts clock) (.listAdd m t₁ t₂ t₃) = some s ∧
      Waiting conf s (newEntry conf m (seconds t₁)) := by
  obtain ⟨heap, msgs, hadd, hheld⟩ := listAdd_spec conf (seconds t₂) t₃ (has_init ts) rfl m
    (seconds t₁)
  refine ⟨_, by simp [step, RadiusTimers.step, System.init, Loop.init, h₁, h₂, h₃, hadd]; rfl,
    ?_, ?_, ?_, ?_⟩
  · have hone : added (newEntry conf m (seconds t₁)) (Client.init ts).numMsgs [] =
        [newEntry conf m (seconds t₁)] := by simp [added]
    rw [hone] at hheld
    exact hheld
  · exact clientTimers_retryTimeout clientTimers_cancel h₃ _
  · exact ⟨Nat.le_refl 1, hR⟩
  · rfl

end Steps

/-- A request that is never answered is sent `tcRadiusRetries` times by `send_packet` and once more by
the supplicant; both report `tcRadiusRetries` retries. -/
theorem unanswered_transmissions (conf : Conf) (hR : 1 ≤ conf.tcRadiusRetries) (hone : OneServer conf)
    (ts : List Timeout) (clock : ℕ) (m : Message) :
    (∀ id waits, Unanswered waits → sendPacket conf id waits =
      some ⟨conf.tcRadiusRetries.toNat, conf.tcRadiusRetries.toNat, false⟩) ∧
    (∀ t₁ t₂ t₃ evs s, (∀ ev ∈ evs, Silent ev) →
      run (step conf) (.init ts clock) (.listAdd m t₁ t₂ t₃ :: evs) = some s →
      pending s.loop.client = [] →
      s.stat = ⟨conf.tcRadiusRetries.toNat + 1, conf.tcRadiusRetries.toNat,
        [conf.tcRadiusRetries.toNat]⟩) ∧
    ∃ evs s, (∀ ev ∈ evs, Silent ev) ∧
      run (step conf) (.init ts clock) (.listAdd m clock clock clock :: evs) = some s ∧
      pending s.loop.client = [] := by
  refine ⟨fun id waits h => ?_, fun t₁ t₂ t₃ evs s hevs hrun hnil => ?_, ?_⟩
  · rw [sendPacket, sendLoop_unanswered h, Nat.zero_add]
  · obtain ⟨s₁, hadd, hrun⟩ := run_cons_eq_some.mp hrun
    obtain ⟨h₁, h₂, h₃⟩ : clock ≤ t₁ ∧ t₁ ≤ t₂ ∧ t₂ ≤ t₃ := by
      by_contra hn
      simp [step, RadiusTimers.step, System.init, Loop.init, hn] at hadd
    obtain ⟨s₂, hadd', hwait⟩ := init_listAdd ts m hR h₁ h₂ h₃
    cases Option.some.inj (hadd.symm.trans hadd')
    have hguard : Guarded (step conf) (fun _ => Silent) s₁ evs :=
      guarded_of_forall (fun ev hev _ => hevs ev hev) _
    rcases run_invariant (fun _ _ _ hs hev h => step_inProgress hone hs hev h)
      (show InProgress conf s₁ from Or.inr ⟨_, hwait⟩) hguard hrun with hgiven | ⟨e, hw⟩
    · exact hgiven.stat
    · rw [hw.has.pending] at hnil
      cases hnil
  · obtain ⟨s₁, hadd, hwait⟩ := init_listAdd ts m hR (Nat.le_refl clock)
      (Nat.le_refl clock) (Nat.le_refl clock)
    obtain ⟨evs, s, hevs, hrun, hgiven⟩ := hwait.exists_givenUp hone
    exact ⟨evs, s, hevs, run_cons_eq_some.mpr ⟨s₁, hadd, hrun⟩, hgiven.has.pending⟩

/-- With three retries the supplicant gives up after four packets. -/
theorem three_retries_four_packets :
    ∃ evs s, (∀ ev ∈ evs, Silent ev) ∧
      run (step ⟨5, 3, [[]], []⟩) (.init [] 100000000)
        (.listAdd ⟨none, 0, .auth⟩ 100000000 100000000 100000000 :: evs) = some s ∧
      pending s.loop.client = [] ∧ s.stat = ⟨4, 3, [3]⟩ := by
  obtain ⟨-, hstat, evs, s, hevs, hrun, hnil⟩ := unanswered_transmissions ⟨5, 3, [[]], []⟩
    (by decide) ⟨by decide, by decide⟩ [] 100000000 ⟨none, 0, .auth⟩
  exact ⟨evs, s, hevs, hrun, hnil, hstat _ _ _ evs s hevs hrun hnil⟩

/-- One retry: `send_packet` sends one packet. The supplicant sends its message again when the timer
is due, and only then gives it up. -/
theorem one_retry_two_packets :
    sendPacket ⟨1, 1, [[]], []⟩ 0 (fun _ => [.timeout]) = some ⟨1, 1, false⟩ ∧
      ∃ s, run (step ⟨1, 1, [[]], []⟩) (.init [] 100000000)
          [.listAdd ⟨none, 0, .auth⟩ 100000000 100000000 100000000,
            .timeout 101000000 101000000 101000000 [.sent]] = some s ∧
        pending s.loop.client = [] ∧ s.stat = ⟨2, 1, [1]⟩ :=
  ⟨rfl, _, rfl, rfl, rfl⟩

end LdapTgen.RadiusRetries
