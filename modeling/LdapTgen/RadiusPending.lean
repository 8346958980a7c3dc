import LdapTgen.LabelledRun
import LdapTgen.RadiusQueue

/-! Runs of the operations of one RADIUS client: the counter of its messages, and their identifiers. -/
namespace LdapTgen.RadiusClient
open LabelledRun LinkedCells RadiusIdentifiers

/-- The operations, with what they read: the clock, the result of `malloc`, the shared counter of the
identifiers and the results of `send`. -/
inductive Label
  | listAdd (m : Message) (malloc : Bool) (firstTry now tv : ℕ)
  | listDel (msgType : RadiusType) (addr : Option Addr)
  | timer (now tv tvAuth tvAcct : ℕ) (sends : List SendResult)
  | receive (msgType : RadiusType) (identifier : UInt8)
  | getId (ident : UInt8)
  | flushAuth (addr : Addr)
  | flush

def step (conf : Conf) (c : Client) : Label → Option Client
  | .listAdd m malloc firstTry now tv => radiusClientListAdd conf m malloc firstTry now tv c
  | .listDel msgType addr => radiusClientListDel msgType addr c
  | .timer now tv tvAuth tvAcct sends => radiusClientTimer conf now tv tvAuth tvAcct sends c
  | .receive msgType identifier => radiusClientReceive msgType identifier c
  | .getId ident => radiusClientGetId ident c
  | .flushAuth addr => radiusClientFlushAuth addr c
  | .flush => radiusClientFlush c

def Effect (conf : Conf) (c c' : Client) (es ws : List Entry) : Label → Prop
  | .listAdd m _ firstTry _ _ =>
      c' = c ∧ ws = es ∨ ws = added (newEntry conf m firstTry) c.numMsgs es ∧
        c'.numMsgs = if radiusClientMaxEntries ≤ c.numMsgs then c.numMsgs else c.numMsgs + 1
  | .listDel _ _ | .flushAuth _ =>
      ∃ p : Entry → Bool, ws = es.filter (!p ·) ∧ c'.numMsgs = c.numMsgs - es.countP p
  | .timer _ _ _ _ _ =>
      (ws.map (·.identifier)).Sublist (es.map (·.identifier)) ∧
        (ws = [] ∧ c'.numMsgs = 0 ∨ c'.numMsgs = c.numMsgs - (es.length - ws.length))
  | .receive msgType identifier =>
      ws = es.eraseP (answers msgType identifier) ∧
        c'.numMsgs = if es.any (answers msgType identifier) then c.numMsgs - 1 else c.numMsgs
  | .getId ident => ws = es.filter (!carries (c.nextId ident) ·) ∧ c'.numMsgs = c.numMsgs
  | .flush => ws = [] ∧ c'.numMsgs = 0

section Steps
variable {conf : Conf} {c c' : Client} {es : List Entry} {e : Label}

/-- The operation ends: no identifier is found twice in a row, and no timer has to connect again. -/
def Proceeds (c : Client) (es : List Entry) : Label → Prop
  | .getId ident => discardList (carries (c.nextId ident)) false es ≠ none
  | .timer now _ _ _ sends => ¬ Reconnects now sends es
  | _ => True

lemma step_none (hc : c.Has es) (h : ¬ Proceeds c es e) : step conf c e = none := by
  cases e with
  | getId ident => exact getId_none hc (not_not.mp h)
  | timer now tv tvAuth tvAcct sends => exact timer_none hc (not_not.mp h)
  | listAdd _ _ _ _ _ | listDel _ _ | receive _ _ | flushAuth _ | flush => exact absurd trivial h

lemma step_some (conf : Conf) (hc : c.Has es) (h : Proceeds c es e) :
    ∃ c' ws, step conf c e = some c' ∧ c'.Has ws ∧ Effect conf c c' es ws e := by
  cases e with
  | listAdd m malloc firstTry now tv =>
    by_cases hskip : c.terminate ∨ malloc = false
    · exact ⟨c, es, listAdd_skip hskip, hc, Or.inl ⟨rfl, rfl⟩⟩
    · obtain ⟨hgo, rfl⟩ : c.terminate = false ∧ malloc = true := by simpa using hskip
      obtain ⟨heap, msgs, hadd, hheld⟩ := listAdd_spec conf now tv hc hgo m firstTry
      exact ⟨_, _, hadd, hheld, Or.inr ⟨rfl, rfl⟩⟩
  | listDel msgType addr =>
    cases addr with
    | none => exact ⟨c, es, rfl, hc, fun _ => false, by simp, by simp⟩
    | some addr =>
      obtain ⟨heap, msgs, hremove, hheld⟩ :=
        removeEntries_spec hc (fun e => e.msgType = msgType ∧ e.addr = addr)
      exact ⟨_, _, hremove, hheld, _, rfl, rfl⟩
  | timer now tv tvAuth tvAcct sends =>
    obtain ⟨c', ws, htimer, hhas, heffect⟩ := timer_some conf tv tvAuth tvAcct hc h
    exact ⟨c', ws, htimer, hhas, heffect⟩
  | receive msgType identifier =>
    obtain ⟨heap, msgs, hreceive, hheld⟩ := receive_spec hc msgType identifier
    exact ⟨_, _, hreceive, hheld, rfl, rfl⟩
  | getId ident =>
    obtain ⟨ws, hlist⟩ := Option.ne_none_iff_exists'.mp h
    obtain ⟨heap, msgs, hget, hheld⟩ := getId_some hc hlist
    exact ⟨_, ws, hget, hheld, discardList_eq_filter hlist, rfl⟩
  | flushAuth addr =>
    obtain ⟨heap, msgs, hremove, hheld⟩ :=
      removeEntries_spec hc (fun e => e.msgType = .auth ∧ e.addr = addr)
    exact ⟨_, _, hremove, hheld, _, rfl, rfl⟩
  | flush =>
    obtain ⟨heap, hflush⟩ := flush_spec hc
    exact ⟨_, [], hflush, holds_empty heap, rfl, rfl⟩

lemma step_effect (hc : c.Has es) (h : step conf c e = some c') :
    ∃ ws, c'.Has ws ∧ Effect conf c c' es ws e := by
  by_cases hp : Proceeds c es e
  · obtain ⟨c'', ws, hstep, hws, heffect⟩ := step_some conf hc hp
    obtain rfl : c'' = c' := Option.some.inj (hstep.symm.trans h)
    exact ⟨ws, hws, heffect⟩
  · rw [step_none hc hp] at h
    cases h

end Steps

section Count
variable {conf : Conf} {c c' : Client} {es ws : List Entry} {e : Label}

/-- The counter is the number of messages, within the limit, and where it stops a message from
staying there are really that many. -/
structure Counted (c : Client) : Prop where
  count : c.numMsgs = (pending c).length
  le : c.numMsgs ≤ radiusClientMaxEntries
  full : radiusClientMaxEntries ≤ c.numMsgs → (pending c).length = radiusClientMaxEntries

lemma counted_iff (hc : c.Has es) :
    Counted c ↔ c.numMsgs = es.length ∧ es.length ≤ radiusClientMaxEntries := by
  constructor
  · intro h
    have hcount := h.count
    have hle := h.le
    rw [hc.pending] at hcount
    exact ⟨hcount, hcount ▸ hle⟩
  · rintro ⟨hcount, hle⟩
    refine ⟨by rw [hc.pending, hcount], by rw [hcount]; exact hle, fun hfull => ?_⟩
    rw [hc.pending]
    omega

/-- No identifier that is still pending is taken again, and no call of `send` by the timer makes the
client connect again. -/
def Spared (c : Client) : Label → Prop
  | .getId ident => ∀ e ∈ pending c, e.identifier ≠ c.nextId ident
  | .timer now _ _ _ sends => ¬ Reconnects now sends (pending c)
  | _ => True

lemma added_length {e : Entry} (h : es.length ≤ radiusClientMaxEntries) :
    (added e es.length es).length =
      if radiusClientMaxEntries ≤ es.length then es.length else es.length + 1 := by
  by_cases hfull : radiusClientMaxEntries ≤ es.length
  · have hne : es ≠ [] := by
      rintro rfl
      exact absurd hfull (by decide)
    simp [added, hfull, hne]
  · simp [added, hfull]

lemma Effect.counted (h : Effect conf c c' es ws e) (hgetId : ∀ ident, e ≠ .getId ident)
    (hcount : c.numMsgs = es.length) (hle : es.length ≤ radiusClientMaxEntries) :
    c'.numMsgs = ws.length ∧ ws.length ≤ radiusClientMaxEntries := by
  cases e with
  | listAdd m malloc firstTry now tv =>
    rcases h with ⟨rfl, rfl⟩ | ⟨rfl, hnum⟩
    · exact ⟨hcount, hle⟩
    · rw [hcount] at hnum ⊢
      rw [hnum, added_length hle]
      refine ⟨rfl, ?_⟩
      split <;> omega
  | listDel _ _ | flushAuth _ =>
    obtain ⟨p, rfl, hnum⟩ := h
    have hsplit := List.length_eq_countP_add_countP p (l := es)
    have hfilter : (es.filter (!p ·)).length = es.countP (!p ·) := List.countP_eq_length_filter.symm
    have hneg : es.countP (!p ·) = es.countP fun a => ¬ p a := by simp
    omega
  | timer now tv tvAuth tvAcct sends =>
    obtain ⟨hsub, ⟨rfl, hnum⟩ | hnum⟩ := h
    · exact ⟨hnum, Nat.zero_le _⟩
    · have hlen := hsub.length_le
      rw [List.length_map, List.length_map] at hlen
      omega
  | receive msgType identifier =>
    obtain ⟨rfl, hnum⟩ := h
    have hlen := List.length_eraseP (p := answers msgType identifier) (l := es)
    rw [hnum, hlen, hcount]
    refine ⟨rfl, ?_⟩
    split <;> omega
  | getId ident => exact absurd rfl (hgetId ident)
  | flush =>
    obtain ⟨rfl, hnum⟩ := h
    exact ⟨hnum, Nat.zero_le _⟩

lemma countP_carries_eq_zero {id : UInt8} (h : ∀ e ∈ es, e.identifier ≠ id) :
    es.countP (carries id) = 0 := by
  rw [List.countP_eq_zero]
  intro e he
  simpa [carries] using h e he

lemma Spared.proceeds (hc : c.Has es) (h : Spared c e) : Proceeds c es e := by
  cases e with
  | getId ident =>
    have hzero : es.countP (carries (c.nextId ident)) = 0 :=
      countP_carries_eq_zero fun e he => h e (by rwa [hc.pending])
    simp [Proceeds, discardList_of_countP false (hzero.trans_le zero_le_one)]
  | timer now tv tvAuth tvAcct sends => simpa [hc.pending, Spared, Proceeds] using h
  | listAdd _ _ _ _ _ | listDel _ _ | receive _ _ | flushAuth _ | flush => trivial

lemma spared_iff (hc : c.Has es) (hcount : Counted c) :
    Spared c e ↔ ∃ c', step conf c e = some c' ∧ Counted c' := by
  obtain ⟨hnum, hle⟩ := (counted_iff hc).mp hcount
  constructor
  · intro hspared
    obtain ⟨c', ws, hstep, hws, heffect⟩ := step_some conf hc (hspared.proceeds hc)
    refine ⟨c', hstep, (counted_iff hws).mpr ?_⟩
    by_cases hgetId : ∃ ident, e = .getId ident
    · obtain ⟨ident, rfl⟩ := hgetId
      obtain ⟨rfl, hnum'⟩ := heffect
      have hall : es.filter (!carries (c.nextId ident) ·) = es := by
        rw [List.filter_eq_self]
        intro e he
        have hne := hspared e (by rwa [hc.pending])
        simpa [carries] using hne
      rw [hall, hnum']
      exact ⟨hnum, hle⟩
    · exact heffect.counted (fun ident he => hgetId ⟨ident, he⟩) hnum hle
  · rintro ⟨c', hstep, hcount'⟩
    cases e with
    | getId ident =>
      obtain ⟨ws, hws, rfl, hnum'⟩ := step_effect hc hstep
      obtain ⟨hlen, -⟩ := (counted_iff hws).mp hcount'
      intro e he heq
      have hlt : (es.filter (!carries (c.nextId ident) ·)).length < es.length := by
        rw [List.length_filter_lt_length_iff_exists]
        rw [hc.pending] at he
        exact ⟨e, he, by simp [carries, heq]⟩
      omega
    | timer now tv tvAuth tvAcct sends =>
      rw [Spared, hc.pending]
      intro hrec
      have hnone : step conf c (.timer now tv tvAuth tvAcct sends) = none :=
        step_none hc (not_not.mpr hrec)
      rw [hnone] at hstep
      cases hstep
    | listAdd _ _ _ _ _ | listDel _ _ | receive _ _ | flushAuth _ | flush => trivial

/-- Along any operations from an empty list, each ends and the counter is right all the time exactly if
no identifier is taken again while a message with it is pending, and no retransmission finds the socket
to be connected again. -/
theorem counted_iff_spared (conf : Conf) (ts : List Timeout) (es : List Label) :
    (∀ fs, fs <+: es → ∃ c, run (step conf) (Client.init ts) fs = some c ∧ Counted c) ↔
      Guarded (step conf) Spared (Client.init ts) es := by
  have hinit : (∃ ms, (Client.init ts).Has ms) ∧ Counted (Client.init ts) :=
    ⟨⟨[], has_init ts⟩, (counted_iff (has_init ts)).mpr ⟨rfl, Nat.zero_le _⟩⟩
  refine defined_iff_guarded (I := fun c => (∃ ms, c.Has ms) ∧ Counted c) (fun c h => h.2) ?_ ?_
    hinit es
  · rintro c e c' ⟨⟨ms, hc⟩, -⟩ hstep hcount
    obtain ⟨ws, hws, -⟩ := step_effect hc hstep
    exact ⟨⟨ws, hws⟩, hcount⟩
  · rintro c e ⟨⟨ms, hc⟩, hcount⟩
    exact spared_iff hc hcount

/-- The client takes the five identifiers of its block, then again the first one. -/
def sixIdentifiers (m : Message) : List Label :=
  [.getId 0, .listAdd m true 100 100 100000000, .getId 6, .getId 6, .getId 6, .getId 6, .getId 0]

/-- The message with the identifier taken again is removed, and still counted. -/
theorem removed_message_counted :
    ∃ c, run (step ⟨3, 3, [[]], []⟩) (Client.init []) (sixIdentifiers ⟨none, 0, .auth⟩) = some c ∧
      c.numMsgs = 1 ∧ pending c = [] :=
  ⟨_, rfl, rfl, rfl⟩

end Count

section Identifiers
variable {conf : Conf} {e : Label}

/-- A client, and the identifier that it has taken for a message not yet added. -/
structure Session where
  client : Client
  taken : Option UInt8

def Session.init (ts : List Timeout) : Session := ⟨Client.init ts, none⟩

def takenAfter (s : Session) : Label → Option UInt8
  | .getId ident => some (s.client.nextId ident)
  | .listAdd _ _ _ _ _ => none
  | _ => s.taken

def sessionStep (conf : Conf) (s : Session) (e : Label) : Option Session :=
  (step conf s.client e).map fun c => ⟨c, takenAfter s e⟩

def Announced (s : Session) : Label → Prop
  | .listAdd m _ _ _ _ => s.taken = some m.identifier
  | _ => True

structure Distinct (s : Session) (es : List Entry) : Prop where
  has : s.client.Has es
  nodup : (es.map (·.identifier)).Nodup
  taken : ∀ id ∈ s.taken, id ∉ es.map (·.identifier)

lemma Distinct.countP_le {s : Session} {es : List Entry} (h : Distinct s es) (id : UInt8) :
    es.countP (carries id) ≤ 1 := by
  have hcount : es.countP (carries id) = (es.map (·.identifier)).count id := by
    rw [List.count, List.countP_map]
    exact List.countP_congr fun e _ => by simp [carries]
  rw [hcount]
  exact List.nodup_iff_count_le_one.mp h.nodup id

lemma Distinct.sublist {s t : Session} {es ws : List Entry} (h : Distinct s es)
    (hws : t.client.Has ws) (hsub : (ws.map (·.identifier)).Sublist (es.map (·.identifier)))
    (htaken : t.taken = s.taken) : Distinct t ws where
  has := hws
  nodup := h.nodup.sublist hsub
  taken := by
    rw [htaken]
    exact fun id hid hmem => h.taken id hid (hsub.subset hmem)

lemma Distinct.step {s t : Session} {es : List Entry} (h : Distinct s es) (hann : Announced s e)
    (ht : sessionStep conf s e = some t) : ∃ ws, Distinct t ws := by
  obtain ⟨c, hstep, rfl⟩ := Option.map_eq_some_iff.mp ht
  obtain ⟨ws, hws, heffect⟩ := step_effect h.has hstep
  refine ⟨ws, ?_⟩
  cases e with
  | listAdd m malloc firstTry now tv =>
    refine ⟨hws, ?_, by simp [takenAfter]⟩
    rcases heffect with ⟨-, rfl⟩ | ⟨rfl, -⟩
    · exact h.nodup
    · have hnew : ((newEntry conf m firstTry :: es).map (·.identifier)).Nodup :=
        List.nodup_cons.mpr ⟨h.taken m.identifier hann, h.nodup⟩
      exact hnew.sublist (added_sublist.map _)
  | listDel _ _ | flushAuth _ =>
    obtain ⟨p, rfl, -⟩ := heffect
    exact h.sublist hws (List.filter_sublist.map _) rfl
  | timer _ _ _ _ _ => exact h.sublist hws heffect.1 rfl
  | receive msgType identifier =>
    obtain ⟨rfl, -⟩ := heffect
    exact h.sublist hws (List.eraseP_sublist.map _) rfl
  | getId ident =>
    obtain ⟨rfl, -⟩ := heffect
    refine ⟨hws, h.nodup.sublist (List.filter_sublist.map _), ?_⟩
    rintro id hid hmem
    obtain rfl : s.client.nextId ident = id := by simpa [takenAfter] using hid
    obtain ⟨x, ⟨-, hne⟩, heq⟩ : ∃ x, (x ∈ es ∧ x.identifier ≠ s.client.nextId ident) ∧
        x.identifier = s.client.nextId ident := by
      simpa [carries] using hmem
    exact hne heq
  | flush =>
    obtain ⟨rfl, -⟩ := heffect
    exact h.sublist hws (by simp) rfl

/-- When each message added carries the identifier just taken, the pending identifiers are distinct,
and the next identifier removes exactly the message that still carries it; as no write goes through a
freed entry, the operation has a result. -/
theorem identifiers_distinct (conf : Conf) (ts : List Timeout) (es : List Label) (s : Session)
    (hann : Guarded (sessionStep conf) Announced (Session.init ts) es)
    (hrun : run (sessionStep conf) (Session.init ts) es = some s) :
    ((pending s.client).map (·.identifier)).Nodup ∧
      ∀ ident, ∃ c, radiusClientGetId ident s.client = some c ∧
        pending c = (pending s.client).filter (·.identifier ≠ s.client.nextId ident) := by
  obtain ⟨ms, h⟩ : ∃ ms, Distinct s ms := by
    refine run_invariant (I := fun s => ∃ ms, Distinct s ms) ?_ ?_ hann hrun
    · rintro s e t ⟨ms, h⟩ hann ht
      exact h.step hann ht
    · exact ⟨[], has_init ts, List.nodup_nil, by simp [Session.init]⟩
  rw [h.has.pending]
  refine ⟨h.nodup, fun ident => ?_⟩
  obtain ⟨heap, msgs, hget, hheld⟩ := getId_some h.has
    (discardList_of_countP false (by simpa using h.countP_le (s.client.nextId ident)))
  refine ⟨_, hget, ?_⟩
  simp only [pending, hheld.chain, Option.getD_some]
  exact List.filter_congr fun e _ => by simp [carries]

def twoMessages : List Label :=
  [.getId 0, .listAdd ⟨none, 0, .auth⟩ true 100 100 100000000,
    .getId 6, .listAdd ⟨none, 1, .auth⟩ true 101 101 101000000]

theorem two_messages_distinct :
    ∃ s, run (sessionStep ⟨3, 3, [[]], []⟩) (Session.init []) twoMessages = some s ∧
      ((pending s.client).map (·.identifier)) = [1, 0] ∧
      ((pending s.client).map (·.identifier)).Nodup := by
  have hann : Guarded (sessionStep ⟨3, 3, [[]], []⟩) Announced (Session.init []) twoMessages := by
    refine ⟨trivial, fun s₁ h₁ => ?_⟩
    cases h₁
    refine ⟨rfl, fun s₂ h₂ => ⟨trivial, fun s₃ h₃ => ?_⟩⟩
    cases h₂
    cases h₃
    exact ⟨rfl, fun _ _ => trivial⟩
  exact ⟨_, rfl, rfl, (identifiers_distinct ⟨3, 3, [[]], []⟩ [] twoMessages _ hann rfl).1⟩

end Identifiers

end LdapTgen.RadiusClient
