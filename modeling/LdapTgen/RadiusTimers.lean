import LdapTgen.LabelledRun
import LdapTgen.RadiusQueue

/-! The retransmission timer of a RADIUS client in its event loop, whose timeouts it shares with other
handlers. The clock is in microseconds; `time` gives its seconds. -/
namespace LdapTgen.RadiusTimers
open LabelledRun LinkedCells RadiusClient

/-- The client in its loop, the last reading of the clock and, for the timer registered last, when
`time` was read and when it was registered. -/
structure Loop where
  client : Client
  clock : ℕ
  readAt : ℕ
  registeredAt : ℕ

def Loop.init (ts : List Timeout) (clock : ℕ) : Loop := ⟨Client.init ts, clock, clock, clock⟩

def seconds (t : ℕ) : ℕ := t / 1000000

/-- What happens in the handlers and in `tloop_run`, with the readings of the clock in their order. -/
inductive Event
  | listAdd (m : Message) (t₁ t₂ t₃ : ℕ)
  | listDel (msgType : RadiusType) (addr : Option Addr)
  | receive (msgType : RadiusType) (identifier : UInt8)
  | getId (ident : UInt8)
  | flushAuth (addr : Addr)
  | flush
  | timeout (t₀ t₁ t₂ : ℕ) (sends : List SendResult)
  | register (t secs n : ℕ)
  | cancel (n : ℕ)

def Loop.set (s : Loop) (c : Client) : Loop := { s with client := c }

/-- `tloop_run` finds its first timeout due at `t₀`: it takes it out of the list and calls the handler,
which reads the clock at `t₁` and registers at `t₂`. -/
def fireTimeout (conf : Conf) (s : Loop) (t₀ t₁ t₂ : ℕ) (sends : List SendResult) : Option Loop :=
  match s.client.timeout with
  | [] => none
  | u :: us =>
      if u.time ≤ t₀ then
        match u.handler with
        | .radiusClientTimer =>
            (radiusClientTimer conf (seconds t₁) t₂ t₂ t₂ sends { s.client with timeout := us }).map
              fun c => ⟨c, t₂, t₁, t₂⟩
        | .other _ => some { s with client := { s.client with timeout := us }, clock := t₀ }
      else none

def step (conf : Conf) (s : Loop) : Event → Option Loop
  | .listAdd m t₁ t₂ t₃ =>
      if s.clock ≤ t₁ ∧ t₁ ≤ t₂ ∧ t₂ ≤ t₃ then
        (radiusClientListAdd conf m true (seconds t₁) (seconds t₂) t₃ s.client).map fun c =>
          if s.client.terminate then { s with client := c, clock := t₃ } else ⟨c, t₃, t₂, t₃⟩
      else none
  | .listDel msgType addr => (radiusClientListDel msgType addr s.client).map s.set
  | .receive msgType identifier => (radiusClientReceive msgType identifier s.client).map s.set
  | .getId ident => (radiusClientGetId ident s.client).map s.set
  | .flushAuth addr => (radiusClientFlushAuth addr s.client).map s.set
  | .flush => (radiusClientFlush s.client).map s.set
  | .timeout t₀ t₁ t₂ sends =>
      if s.clock ≤ t₀ ∧ t₀ ≤ t₁ ∧ t₁ ≤ t₂ then fireTimeout conf s t₀ t₁ t₂ sends else none
  | .register t secs n =>
      if s.clock ≤ t then
        some { s with
          client := { s.client with
            timeout := tloopRegisterTimeout t secs (.other n) s.client.timeout }
          clock := t }
      else none
  | .cancel n =>
      some (s.set { s.client with timeout := tloopCancelTimeout (.other n) s.client.timeout })

section Timeouts
variable {t u : Timeout} {ts : List Timeout}

def clientTimers (ts : List Timeout) : List Timeout := ts.filter (·.handler = .radiusClientTimer)

lemma clientTimers_insert_other (ht : t.handler ≠ .radiusClientTimer) :
    clientTimers (insertTimeout t ts) = clientTimers ts := by
  induction ts with
  | nil => simp [insertTimeout, clientTimers, ht]
  | cons u us ih =>
    rw [insertTimeout]
    split
    · simp [clientTimers, ht]
    · simp only [clientTimers, List.filter_cons] at ih ⊢
      rw [ih]

lemma clientTimers_insert (ht : t.handler = .radiusClientTimer) (hts : clientTimers ts = []) :
    clientTimers (insertTimeout t ts) = [t] := by
  induction ts with
  | nil => simp [insertTimeout, clientTimers, ht]
  | cons u us ih =>
    obtain ⟨hu, hus⟩ : u.handler ≠ .radiusClientTimer ∧ clientTimers us = [] := by
      simpa [clientTimers] using hts
    rw [insertTimeout]
    split
    · simpa [clientTimers, ht, hu] using hus
    · simpa [clientTimers, hu] using ih hus

lemma clientTimers_cancel : clientTimers (tloopCancelTimeout .radiusClientTimer ts) = [] := by
  simp [clientTimers, tloopCancelTimeout]

lemma clientTimers_cancel_other (n : ℕ) :
    clientTimers (tloopCancelTimeout (.other n) ts) = clientTimers ts := by
  rw [clientTimers, tloopCancelTimeout, List.filter_filter, clientTimers]
  refine List.filter_congr fun u _ => ?_
  by_cases hu : u.handler = .radiusClientTimer <;> simp [hu]

end Timeouts

section Earliest
variable {es : List Entry}

lemma earlier_le {f : ℕ} {e : Entry} : earlier f e ≤ e.nextTry := by
  unfold earlier
  split <;> omega

lemma foldl_earlier_le {f : ℕ} (hpos : ∀ e ∈ es, 0 < e.nextTry) :
    (0 < f → es.foldl earlier f ≤ f) ∧ ∀ e ∈ es, es.foldl earlier f ≤ e.nextTry := by
  induction es generalizing f with
  | nil => simp
  | cons e es ih =>
    have he : 0 < e.nextTry := hpos e List.mem_cons_self
    obtain ⟨hle, hall⟩ := ih (f := earlier f e) fun x hx => hpos x (List.mem_cons_of_mem e hx)
    have hfirst : es.foldl earlier (earlier f e) ≤ earlier f e := by
      apply hle
      unfold earlier
      split <;> omega
    rw [List.foldl_cons]
    refine ⟨fun hf => ?_, fun x hx => ?_⟩
    · have hf' : earlier f e ≤ f := by
        unfold earlier
        split <;> omega
      omega
    · rcases List.mem_cons.mp hx with rfl | hx
      · exact hfirst.trans earlier_le
      · exact hall x hx

end Earliest

/-- The timer `u` is due one second behind the message, or behind its registration, at the latest, apart
from what passed between the reading of the time and the registration. -/
def DueBy (s : Loop) (u : Timeout) (e : Entry) : Prop :=
  u.time ≤ max (1000000 * e.nextTry) s.registeredAt + 1000000 + (s.registeredAt - s.readAt)

structure Armed (s : Loop) (es : List Entry) : Prop where
  has : s.client.Has es
  positive : ∀ e ∈ es, 0 < e.nextTry
  clock : 1000000 ≤ s.clock
  timer : clientTimers s.client.timeout = [] ∧ es = [] ∨
    ∃ u, clientTimers s.client.timeout = [u] ∧ ∀ e ∈ es, DueBy s u e

section Steps
variable {conf : Conf} {s t : Loop} {es ws : List Entry}

lemma Armed.shrink {c : Client} (h : Armed s es) (hws : c.Has ws) (hsub : ws ⊆ es)
    (htimeout : c.timeout = s.client.timeout) : Armed (s.set c) ws where
  has := hws
  positive := fun e he => h.positive e (hsub he)
  clock := h.clock
  timer := by
    have htimers : clientTimers (s.set c).client.timeout = clientTimers s.client.timeout := by
      rw [Loop.set, htimeout]
    rw [htimers]
    rcases h.timer with ⟨hnone, rfl⟩ | ⟨u, hu, hdue⟩
    · exact Or.inl ⟨hnone, List.subset_nil.mp hsub⟩
    · exact Or.inr ⟨u, hu, fun e he => hdue e (hsub he)⟩

lemma retryTimeout_armed {c : Client} {ts : List Timeout} {r g : ℕ} (hws : c.Has ws) (hsub : ws ⊆ es)
    (hpos : ∀ e ∈ es, 0 < e.nextTry) (hts : clientTimers ts = []) (hg : 1000000 ≤ g)
    (htimeout : c.timeout = retryTimeout (seconds r) g es ts) : Armed ⟨c, g, r, g⟩ ws where
  has := hws
  positive := fun e he => hpos e (hsub he)
  clock := hg
  timer := by
    right
    refine ⟨_, by rw [htimeout]; exact clientTimers_insert rfl hts, fun e he => ?_⟩
    have hfirst := (foldl_earlier_le (f := 0) hpos).2 e (hsub he)
    simp only [DueBy, seconds]
    omega

lemma seconds_pos {t : ℕ} (ht : 1000000 ≤ t) : 0 < seconds t := by
  unfold seconds
  omega

lemma Armed.listAdd {m : Message} {t₁ t₂ t₃ : ℕ} (h : Armed s es)
    (ht : step conf s (.listAdd m t₁ t₂ t₃) = some t) : ∃ ws, Armed t ws := by
  have hclock := h.clock
  obtain ⟨⟨h₁, h₂, h₃⟩, c, hadd, rfl⟩ : (s.clock ≤ t₁ ∧ t₁ ≤ t₂ ∧ t₂ ≤ t₃) ∧
      ∃ c, radiusClientListAdd conf m true (seconds t₁) (seconds t₂) t₃ s.client = some c ∧
        (if s.client.terminate then { s with client := c, clock := t₃ } else ⟨c, t₃, t₂, t₃⟩) = t := by
    simpa [step] using ht
  cases hgo : s.client.terminate with
  | true =>
    rw [listAdd_skip (Or.inl hgo)] at hadd
    cases hadd
    exact ⟨es, h.has, h.positive, hclock.trans (h₁.trans (h₂.trans h₃)), h.timer⟩
  | false =>
    obtain ⟨heap, msgs, hspec, hheld⟩ := listAdd_spec conf (seconds t₂) t₃ h.has hgo m
      (seconds t₁)
    rw [hspec] at hadd
    cases hadd
    refine ⟨_, retryTimeout_armed hheld added_sublist.subset (fun e he => ?_) clientTimers_cancel
      (by omega) rfl⟩
    rcases List.mem_cons.mp he with rfl | he
    · have := seconds_pos (t := t₁) (by omega)
      simp only [newEntry]
      omega
    · exact h.positive e he

lemma Armed.removeEntries {c : Client} {p : Entry → Bool} (h : Armed s es)
    (hc : removeEntries p s.client = some c) : ∃ ws, Armed (s.set c) ws := by
  obtain ⟨heap, msgs, hremove, hheld⟩ := removeEntries_spec h.has p
  rw [hremove] at hc
  cases hc
  exact ⟨_, h.shrink hheld (List.filter_subset_self _) rfl⟩

lemma Armed.receive {c : Client} {msgType : RadiusType} {identifier : UInt8} (h : Armed s es)
    (hc : radiusClientReceive msgType identifier s.client = some c) : ∃ ws, Armed (s.set c) ws := by
  obtain ⟨heap, msgs, hreceive, hheld⟩ := receive_spec h.has msgType identifier
  rw [hreceive] at hc
  cases hc
  exact ⟨_, h.shrink hheld List.eraseP_subset rfl⟩

lemma Armed.getId {c : Client} {ident : UInt8} (h : Armed s es)
    (hc : radiusClientGetId ident s.client = some c) : ∃ ws, Armed (s.set c) ws := by
  cases hlist : discardList (carries (s.client.nextId ident)) false es with
  | none =>
    rw [getId_none h.has hlist] at hc
    cases hc
  | some ws =>
    obtain ⟨heap, msgs, hget, hheld⟩ := getId_some h.has hlist
    rw [hget] at hc
    cases hc
    rw [discardList_eq_filter hlist] at hheld
    exact ⟨_, h.shrink hheld (List.filter_subset_self _) rfl⟩

lemma Armed.flush {c : Client} (h : Armed s es) (hc : radiusClientFlush s.client = some c) :
    Armed (s.set c) [] := by
  obtain ⟨heap, hflush⟩ := flush_spec h.has
  rw [hflush] at hc
  cases hc
  exact ⟨holds_empty heap, by simp, h.clock, Or.inl ⟨clientTimers_cancel, rfl⟩⟩

structure OneServer (conf : Conf) : Prop where
  auth : conf.authSecrets.length ≤ 1
  acct : conf.acctSecrets.length ≤ 1

lemma OneServer.authFailover (h : OneServer conf) (n tv : ℕ) (c : Client) :
    authFailover conf n tv c = some c := by
  have := h.auth
  rw [RadiusClient.authFailover, if_neg (by omega)]

lemma OneServer.acctFailover (h : OneServer conf) (n tv : ℕ) (c : Client) :
    acctFailover conf n tv c = some c := by
  have := h.acct
  rw [RadiusClient.acctFailover, if_neg (by omega)]

lemma armed_timer {c c' : Client} {t₁ t₂ : ℕ} {sends : List SendResult} (hconf : OneServer conf)
    (hc : c.Has es) (hpos : ∀ e ∈ es, 0 < e.nextTry) (hts : clientTimers c.timeout = [])
    (h₁ : 1000000 ≤ t₁) (h₂ : t₁ ≤ t₂)
    (h : radiusClientTimer conf (seconds t₁) t₂ t₂ t₂ sends c = some c') :
    ∃ ws, Armed ⟨c', t₂, t₁, t₂⟩ ws := by
  by_cases hne : es = []
  · subst hne
    have hmsgs : c.msgs = none := hc.nil_iff.mpr rfl
    obtain rfl : c = c' := by simpa [radiusClientTimer, hmsgs] using h
    exact ⟨[], hc, hpos, h₁.trans h₂, Or.inl ⟨hts, rfl⟩⟩
  · by_cases hrec : Reconnects (seconds t₁) sends es
    · rw [timer_none hc hrec] at h
      cases h
    · obtain ⟨heap, msgs, u, ws, hswept, hheld, hloop⟩ := timer_loop conf t₂ t₂ t₂ hc hne
        hrec
      rw [hloop, hconf.authFailover, Option.bind_some, hconf.acctFailover] at h
      cases h
      have hws : ∀ w ∈ ws, 0 < w.nextTry := by
        intro w hw
        rcases hswept.nextTry w hw with hold | hnew
        · exact hpos w hold
        · exact (seconds_pos h₁).trans_le hnew
      by_cases hnil : ws = []
      · exact ⟨ws, hheld, hws, by simp only; omega, Or.inl ⟨by simpa [hnil] using hts, hnil⟩⟩
      · exact ⟨ws, retryTimeout_armed hheld (List.Subset.refl ws) hws hts (by omega)
          (by simp [hnil])⟩

lemma Armed.timeout {t₀ t₁ t₂ : ℕ} {sends : List SendResult} (hconf : OneServer conf) (h : Armed s es)
    (ht : step conf s (.timeout t₀ t₁ t₂ sends) = some t) : ∃ ws, Armed t ws := by
  have hclock := h.clock
  obtain ⟨⟨h₀, h₁, h₂⟩, hfire⟩ : (s.clock ≤ t₀ ∧ t₀ ≤ t₁ ∧ t₁ ≤ t₂) ∧
      fireTimeout conf s t₀ t₁ t₂ sends = some t := by
    simpa [step] using ht
  have htimer := h.timer
  cases hts : s.client.timeout with
  | nil => simp [fireTimeout, hts] at hfire
  | cons u us =>
    rw [hts] at htimer
    by_cases hdue : u.time ≤ t₀
    · cases hu : u.handler with
      | radiusClientTimer =>
        obtain ⟨c, hcall, rfl⟩ : ∃ c, radiusClientTimer conf (seconds t₁) t₂ t₂ t₂ sends
            { s.client with timeout := us } = some c ∧ (⟨c, t₂, t₁, t₂⟩ : Loop) = t := by
          simpa [fireTimeout, hts, hdue, hu] using hfire
        have hnone : clientTimers us = [] := by
          rcases htimer with ⟨hnil, -⟩ | ⟨v, hv, -⟩
          · simp [clientTimers, hu] at hnil
          · rw [clientTimers, List.filter_cons_of_pos (by simp [hu])] at hv
            exact (List.cons.inj hv).2
        exact armed_timer (c := { s.client with timeout := us }) hconf h.has h.positive hnone
          (by omega) h₂ hcall
      | other n =>
        obtain rfl : { s with client := { s.client with timeout := us }, clock := t₀ } = t := by
          simpa [fireTimeout, hts, hdue, hu] using hfire
        have hsame : clientTimers (u :: us) = clientTimers us := by
          simp [clientTimers, hu]
        rw [hsame] at htimer
        exact ⟨es, h.has, h.positive, by simp only; omega, htimer⟩
    · simp [fireTimeout, hts, hdue] at hfire

lemma Armed.step {e : Event} (hconf : OneServer conf) (h : Armed s es) (ht : step conf s e = some t) :
    ∃ ws, Armed t ws := by
  cases e with
  | listAdd m t₁ t₂ t₃ => exact h.listAdd ht
  | listDel msgType addr =>
    obtain ⟨c, hdel, rfl⟩ := Option.map_eq_some_iff.mp ht
    cases addr with
    | none =>
      cases hdel
      exact ⟨es, h.shrink h.has (List.Subset.refl es) rfl⟩
    | some addr => exact h.removeEntries hdel
  | receive msgType identifier =>
    obtain ⟨c, hreceive, rfl⟩ := Option.map_eq_some_iff.mp ht
    exact h.receive hreceive
  | getId ident =>
    obtain ⟨c, hget, rfl⟩ := Option.map_eq_some_iff.mp ht
    exact h.getId hget
  | flushAuth addr =>
    obtain ⟨c, hflush, rfl⟩ := Option.map_eq_some_iff.mp ht
    exact h.removeEntries hflush
  | flush =>
    obtain ⟨c, hflush, rfl⟩ := Option.map_eq_some_iff.mp ht
    exact ⟨[], h.flush hflush⟩
  | timeout t₀ t₁ t₂ sends => exact h.timeout hconf ht
  | register t' secs n =>
    have hclock := h.clock
    obtain ⟨hle, rfl⟩ : s.clock ≤ t' ∧ { s with
        client := { s.client with
          timeout := tloopRegisterTimeout t' secs (.other n) s.client.timeout }
        clock := t' } = t := by
      simpa [RadiusTimers.step] using ht
    have hsame : clientTimers (tloopRegisterTimeout t' secs (.other n) s.client.timeout) =
        clientTimers s.client.timeout :=
      clientTimers_insert_other (by simp)
    refine ⟨es, h.has, h.positive, by simp only; omega, ?_⟩
    simp only [hsame]
    exact h.timer
  | cancel n =>
    cases ht
    refine ⟨es, h.has, h.positive, h.clock, ?_⟩
    simp only [Loop.set, clientTimers_cancel_other]
    exact h.timer

end Steps

/-- A pending message has exactly one timer in the loop, due one second behind the earliest message, or
behind its registration, at the latest, apart from what passed between the reading of the time and the
registration. -/
theorem pending_message_timed (conf : Conf) (hconf : OneServer conf) (ts : List Timeout)
    (hts : ∀ u ∈ ts, u.handler ≠ .radiusClientTimer) (clock : ℕ) (hclock : 1000000 ≤ clock)
    (es : List Event) (s : Loop) (h : run (step conf) (Loop.init ts clock) es = some s)
    (hne : pending s.client ≠ []) :
    ∃ u, s.client.timeout.filter (·.handler = .radiusClientTimer) = [u] ∧
      ∀ e ∈ pending s.client,
        u.time ≤ max (1000000 * e.nextTry) s.registeredAt + 1000000 + (s.registeredAt - s.readAt) := by
  have hinit : Armed (Loop.init ts clock) [] :=
    ⟨has_init ts, by simp, hclock,
      Or.inl ⟨by simpa [clientTimers, Loop.init, Client.init] using hts, rfl⟩⟩
  obtain ⟨ms, harmed⟩ : ∃ ms, Armed s ms :=
    run_preserves (I := fun s => ∃ ms, Armed s ms) (fun s e t ⟨ms, hs⟩ ht => hs.step hconf ht)
      ⟨[], hinit⟩ h
  rw [harmed.has.pending] at hne ⊢
  rcases harmed.timer with ⟨-, hnil⟩ | htimer
  · exact absurd hnil hne
  · exact htimer

/-- A message is added at 100.999998 s, `time` is read one microsecond later and the timer registered at
`t₃`. -/
def oneMessage (t₃ : ℕ) : List Event := [.listAdd ⟨none, 0, .auth⟩ 100999998 100999999 t₃]

/-- The second ends between the reading of the time and the registration: the timer is due one second
and one microsecond behind the message. -/
theorem timer_behind_second :
    ∃ s, run (step ⟨3, 3, [[]], []⟩) (Loop.init [] 100000000) (oneMessage 101000001) = some s ∧
      s.registeredAt = 101000001 ∧ (pending s.client).map (·.nextTry) = [103] ∧
      s.client.timeout = [⟨104000001, .radiusClientTimer⟩] :=
  ⟨_, rfl, rfl, rfl, rfl⟩

theorem one_message_timed :
    ∃ s, run (step ⟨3, 3, [[]], []⟩) (Loop.init [] 100000000) (oneMessage 100999999) = some s ∧
      (pending s.client).map (·.nextTry) = [103] ∧
      ∃ u, s.client.timeout.filter (·.handler = .radiusClientTimer) = [u] ∧
        ∀ e ∈ pending s.client,
          u.time ≤ max (1000000 * e.nextTry) s.registeredAt + 1000000 +
            (s.registeredAt - s.readAt) := by
  obtain ⟨s, hrun, hpending⟩ : ∃ s,
      run (step ⟨3, 3, [[]], []⟩) (Loop.init [] 100000000) (oneMessage 100999999) = some s ∧
        (pending s.client).map (·.nextTry) = [103] := ⟨_, rfl, rfl⟩
  have hne : pending s.client ≠ [] := by
    intro hnil
    simp [hnil] at hpending
  exact ⟨s, hrun, hpending, pending_message_timed ⟨3, 3, [[]], []⟩ ⟨by decide, by decide⟩ [] (by simp)
    100000000 (by decide) (oneMessage 100999999) s hrun hne⟩

end LdapTgen.RadiusTimers
