import LdapTgen.RadiusClient

/-! What each operation of the RADIUS client leaves of the list of messages. -/
namespace LdapTgen.RadiusClient
open LinkedCells RadiusIdentifiers

def Client.Has (c : Client) (es : List Entry) : Prop := Holds c.heap c.msgs es

def pending (c : Client) : List Entry := (chain c.heap c.heap.fresh c.msgs).getD []

lemma Client.Has.pending {c : Client} {es : List Entry} (h : c.Has es) : pending c = es := by
  rw [RadiusClient.pending, Holds.chain h, Option.getD_some]

lemma has_init (ts : List Timeout) : (Client.init ts).Has [] := holds_empty _

section Discard
variable {p : Entry → Bool}

/-- What the loop leaves; behind a freed entry the next one must not match. -/
def discardList (p : Entry → Bool) : Bool → List Entry → Option (List Entry)
  | _, [] => some []
  | stale, e :: es =>
      if p e then if stale then none else discardList p true es
      else (discardList p false es).map (e :: ·)

/-- The pointer to the entry before is the last entry that was kept, or points to a freed one. -/
def Behind (h : Heap Entry) (done : List (ℕ × Entry)) (prev : Option ℕ) : Bool → Prop
  | true => ∃ q, prev = some q ∧ h.cell q = none
  | false => prev = done.getLast?.map Prod.fst

section Turn
variable {e : Entry} {es : List Entry} {stale : Bool} {k a : ℕ} {h h₁ h₂ : Heap Entry}
  {head head' prev n : Option ℕ}

lemma discardList_stale (hp : p e = true) : discardList p true (e :: es) = none := by
  simp [discardList, hp]

lemma discardList_match (hp : p e = true) : discardList p false (e :: es) = discardList p true es := by
  simp [discardList, hp]

lemma discardList_keep (hp : p e = false) :
    discardList p stale (e :: es) = (discardList p false es).map (e :: ·) := by
  simp [discardList, hp]

lemma discardLoop_stale {q : ℕ} (hc : h.cell a = some ⟨n, e⟩) (hp : p e = true) (hq : h.cell q = none) :
    discardLoop p (k + 1) h head (some q) (some a) = none := by
  simp [discardLoop, hc, hp, unlink, Heap.setNext, modify_of_none hq]

lemma discardLoop_match (hc : h.cell a = some ⟨n, e⟩) (hp : p e = true)
    (hun : unlink h head prev a = some (h₁, head')) (hfree : h₁.free a = some h₂) :
    discardLoop p (k + 1) h head prev (some a) = discardLoop p k h₂ head' (some a) n := by
  simp [discardLoop, hc, hp, hun, hfree]

lemma discardLoop_keep (hc : h.cell a = some ⟨n, e⟩) (hp : p e = false) :
    discardLoop p (k + 1) h head prev (some a) = discardLoop p k h head (some a) n := by
  simp [discardLoop, hc, hp]

end Turn

lemma discardLoop_of_seg {l done : List (ℕ × Entry)} {k : ℕ} {h : Heap Entry}
    {head entry : Option ℕ} (prev : Option ℕ) (stale : Bool) (hk : l.length ≤ k)
    (hdone : Seg h head done entry) (hl : Seg h entry l none)
    (hnodup : (done.map Prod.fst ++ l.map Prod.fst).Nodup) (hprev : Behind h done prev stale) :
    (∀ es, discardList p stale (l.map Prod.snd) = some es →
      ∃ h' head', discardLoop p k h head prev entry = some (h', head') ∧
        Remains h' head' done (l.map Prod.fst) es) ∧
    (discardList p stale (l.map Prod.snd) = none → discardLoop p k h head prev entry = none) := by
  induction l generalizing done k h head prev entry stale with
  | nil =>
    obtain rfl : entry = none := hl
    refine ⟨fun es heq => ?_, fun heq => by cases heq⟩
    cases heq
    exact ⟨h, head, by cases k <;> rfl, remains_nil hdone⟩
  | cons x l ih =>
    obtain ⟨rfl, n, hc, hrest⟩ := hl
    obtain ⟨k, rfl⟩ : ∃ j, k = j + 1 := ⟨k - 1, by simp at hk; omega⟩
    have hkl : l.length ≤ k := by simpa using hk
    rw [List.map_cons] at hnodup
    cases hp : p x.2 with
    | true =>
      cases stale with
      | true =>
        obtain ⟨q, rfl, hq⟩ := hprev
        rw [List.map_cons, discardList_stale hp, discardLoop_stale hc hp hq]
        refine ⟨fun es heq => ?_, fun _ => rfl⟩
        cases heq
      | false =>
        obtain rfl : prev = done.getLast?.map Prod.fst := hprev
        obtain ⟨h₁, h₂, head', hun, hfree, hgone, hdone₂, hrest₂⟩ :=
          unlink_free hdone hc hrest hnodup
        obtain ⟨hsome, hnone⟩ := ih (some x.1) true hkl hdone₂ hrest₂
          (List.Nodup.sublist (List.Sublist.append_left (List.sublist_cons_self _ _) _) hnodup)
          ⟨x.1, rfl, hgone⟩
        rw [List.map_cons, discardList_match hp, discardLoop_match hc hp hun hfree]
        refine ⟨fun es heq => ?_, hnone⟩
        obtain ⟨h', head'', hres, hremains⟩ := hsome es heq
        exact ⟨h', head'', hres, hremains.skip x.1⟩
    | false =>
      have hdone₁ : Seg h head (done ++ [x]) n := seg_snoc.mpr ⟨hdone, hc⟩
      obtain ⟨hsome, hnone⟩ := ih (some x.1) false hkl hdone₁ hrest (by simpa using hnodup)
        (by simp [Behind])
      rw [List.map_cons, discardList_keep hp, discardLoop_keep hc hp]
      refine ⟨fun es heq => ?_, fun heq => hnone (by simpa using heq)⟩
      obtain ⟨us, heq', rfl⟩ := Option.map_eq_some_iff.mp heq
      obtain ⟨h', head'', hres, hremains⟩ := hsome us heq'
      exact ⟨h', head'', hres, hremains.keep⟩

lemma holds_discard {h : Heap Entry} {head : Option ℕ} {es : List Entry} (hh : Holds h head es) :
    (∀ ws, discardList p false es = some ws →
      ∃ h' head', discardLoop p h.fresh h head none head = some (h', head') ∧ Holds h' head' ws) ∧
    (discardList p false es = none → discardLoop p h.fresh h head none head = none) := by
  obtain ⟨l, hl, hnodup, rfl⟩ := hh
  have hstart : Seg h head [] head := rfl
  obtain ⟨hsome, hnone⟩ := discardLoop_of_seg (p := p) none false (hl.length_le hnodup) hstart hl
    (by simpa using hnodup) rfl
  refine ⟨fun ws heq => ?_, hnone⟩
  obtain ⟨h', head', hres, hremains⟩ := hsome ws heq
  exact ⟨h', head', hres, hremains.holds hnodup⟩

lemma discardList_eq_filter {stale : Bool} {es ws : List Entry} (h : discardList p stale es = some ws) :
    ws = es.filter (!p ·) := by
  induction es generalizing stale ws with
  | nil =>
    cases h
    rfl
  | cons e es ih =>
    cases hp : p e with
    | true =>
      cases stale with
      | true =>
        rw [discardList_stale hp] at h
        cases h
      | false =>
        rw [discardList_match hp] at h
        simp [hp, ih h]
    | false =>
      rw [discardList_keep hp] at h
      obtain ⟨us, hrest, rfl⟩ := Option.map_eq_some_iff.mp h
      simp [hp, ih hrest]

lemma discardList_of_countP (stale : Bool) {es : List Entry} (h : es.countP p + stale.toNat ≤ 1) :
    discardList p stale es = some (es.filter (!p ·)) := by
  induction es generalizing stale with
  | nil => rfl
  | cons e es ih =>
    cases hp : p e with
    | true =>
      rw [List.countP_cons_of_pos hp] at h
      have hstale : stale = false := by
        cases stale with
        | true => simp at h
        | false => rfl
      subst hstale
      have hrest := ih true (by simp at h ⊢; omega)
      simp [discardList_match hp, hp, hrest]
    | false =>
      have hcount : es.countP p ≤ 1 := by
        rw [List.countP_cons_of_neg (by simp [hp])] at h
        omega
      simp [discardList_keep hp, hp, ih false (by simpa using hcount)]

end Discard

section Visits
variable {conf : Conf} {now : ℕ}

lemma sweepList_remove {p : Entry → Bool} {n : ℕ} {es : List Entry} :
    sweepList (fun n e => if p e then some (n - 1, e, true) else some (n, e, false)) n es =
      some (es.filter (!p ·), n - es.countP p) := by
  induction es generalizing n with
  | nil => rfl
  | cons e es ih =>
    cases hp : p e with
    | true => simp [sweepList, hp, ih, Nat.sub_sub, Nat.add_comm]
    | false => simp [sweepList, hp, ih]

lemma sweepList_reset {f : Entry → Entry} {es : List Entry} :
    sweepList (fun (_ : Unit) e => some ((), f e, false)) () es = some (es.map f, ()) := by
  induction es with
  | nil => rfl
  | cons e es ih => simp [sweepList, ih]

def Entry.due (now : ℕ) (e : Entry) : Bool := e.nextTry ≤ now

def Entry.resent (conf : Conf) (now : ℕ) (e : Entry) : Entry :=
  { e with attempts := e.attempts + 1, nextTry := now + e.nextWait, nextWait := conf.tcRadiusTimeout }

lemma timerVisit_idle {t : Turn} {e : Entry} (h : e.due now = false) :
    timerVisit conf now t e = some (t.keep e, e, false) := by
  have hlt : ¬ e.nextTry ≤ now := by simpa [Entry.due] using h
  simp [timerVisit, hlt]

lemma timerVisit_reconnect {t : Turn} {e : Entry} (h : e.due now)
    (hsend : t.sends.head? = some .reconnect) : timerVisit conf now t e = none := by
  have hle : e.nextTry ≤ now := by simpa [Entry.due] using h
  simp [timerVisit, hle, radiusClientRetransmit, hsend]

lemma timerVisit_resent (conf : Conf) {t : Turn} {e : Entry} (h : e.due now)
    (hsend : t.sends.head? ≠ some .reconnect) :
    ∃ u : Turn, u.numMsgs = t.numMsgs ∧ u.first = t.first ∧ u.sends = t.sends.tail ∧
      (timerVisit conf now t e =
          some ({ u with numMsgs := u.numMsgs - 1 }, e.resent conf now, true) ∨
        timerVisit conf now t e =
          some (u.keep (e.resent conf now), e.resent conf now, false)) := by
  have hle : e.nextTry ≤ now := by simpa [Entry.due] using h
  refine ⟨{ t with
    sends := t.sends.tail
    terminate := t.terminate || decide (conf.tcRadiusRetries < (e.attempts + 1 : ℕ)) },
    rfl, rfl, rfl, ?_⟩
  by_cases hmany : conf.tcRadiusRetries < (e.attempts + 1 : ℕ)
  · left
    simp [timerVisit, hle, radiusClientRetransmit, hsend, Entry.resent]
    omega
  · right
    simp [timerVisit, hle, radiusClientRetransmit, hsend, Entry.resent]
    omega

lemma mem_take_succ {α : Type} {a : α} {l : List α} {k : ℕ} :
    a ∈ l.take (k + 1) ↔ l.head? = some a ∨ a ∈ l.tail.take k := by
  cases l with
  | nil => simp
  | cons b l => simp [eq_comm]

lemma sweepList_timer_none (conf : Conf) (t : Turn) {es : List Entry} :
    sweepList (timerVisit conf now) t es = none ↔
      .reconnect ∈ t.sends.take (es.countP (·.due now)) := by
  induction es generalizing t with
  | nil => simp [sweepList]
  | cons e es ih =>
    cases hdue : e.due now with
    | false =>
      rw [List.countP_cons_of_neg (by simp [hdue])]
      rw [sweepList_cons (timerVisit_idle hdue), Option.map_eq_none_iff, ih]
      rfl
    | true =>
      rw [List.countP_cons_of_pos hdue, mem_take_succ]
      by_cases hsend : t.sends.head? = some .reconnect
      · simp [sweepList_cons_none (timerVisit_reconnect hdue hsend), hsend]
      · obtain ⟨u, -, -, htail, hvisit | hvisit⟩ :=
          timerVisit_resent conf hdue hsend
        · rw [sweepList_cons hvisit, Option.map_eq_none_iff, ih, or_iff_right hsend, ← htail]
        · rw [sweepList_cons hvisit, Option.map_eq_none_iff, ih, or_iff_right hsend, ← htail]
          rfl

/-- What a defined turn of the timer leaves: some of the messages, counted, each as it was or sent
again, and the earliest of them. -/
structure Swept (conf : Conf) (now : ℕ) (t u : Turn) (es ws : List Entry) : Prop where
  identifiers : (ws.map (·.identifier)).Sublist (es.map (·.identifier))
  numMsgs : u.numMsgs = t.numMsgs - (es.length - ws.length)
  first : u.first = ws.foldl earlier t.first
  nextTry : ∀ w ∈ ws, w ∈ es ∨ now ≤ w.nextTry

lemma Swept.keep {t t' u : Turn} {es us : List Entry} {e w : Entry} (h : Swept conf now t' u es us)
    (hnum : t'.numMsgs = t.numMsgs) (hfirst : t'.first = earlier t.first w)
    (hid : w.identifier = e.identifier) (hnext : w = e ∨ now ≤ w.nextTry) :
    Swept conf now t u (e :: es) (w :: us) where
  identifiers := by
    rw [List.map_cons, List.map_cons, hid]
    exact h.identifiers.cons_cons _
  numMsgs := by
    rw [h.numMsgs, hnum, List.length_cons, List.length_cons]
    omega
  first := by
    rw [h.first, hfirst, List.foldl_cons]
  nextTry := by
    intro x hx
    rcases List.mem_cons.mp hx with rfl | hx
    · rcases hnext with rfl | hnow
      · exact Or.inl List.mem_cons_self
      · exact Or.inr hnow
    · exact (h.nextTry x hx).imp_left (List.mem_cons_of_mem e)

lemma Swept.remove {t t' u : Turn} {es us : List Entry} {e : Entry} (h : Swept conf now t' u es us)
    (hnum : t'.numMsgs = t.numMsgs - 1) (hfirst : t'.first = t.first) :
    Swept conf now t u (e :: es) us where
  identifiers := h.identifiers.cons _
  numMsgs := by
    have hle := h.identifiers.length_le
    rw [List.length_map, List.length_map] at hle
    rw [h.numMsgs, hnum, List.length_cons]
    omega
  first := by
    rw [h.first, hfirst]
  nextTry := fun x hx => (h.nextTry x hx).imp_left (List.mem_cons_of_mem e)

lemma sweepList_timer_some {t u : Turn} {es ws : List Entry}
    (h : sweepList (timerVisit conf now) t es = some (ws, u)) : Swept conf now t u es ws := by
  induction es generalizing t u ws with
  | nil =>
    cases h
    exact ⟨List.Sublist.refl _, rfl, rfl, by simp⟩
  | cons e es ih =>
    cases hdue : e.due now with
    | false =>
      rw [sweepList_cons (timerVisit_idle hdue)] at h
      obtain ⟨⟨us, u'⟩, hrest, hpair⟩ := Option.map_eq_some_iff.mp h
      cases hpair
      exact (ih hrest).keep rfl rfl rfl (Or.inl rfl)
    | true =>
      by_cases hsend : t.sends.head? = some .reconnect
      · rw [sweepList_cons_none (timerVisit_reconnect hdue hsend)] at h
        cases h
      · obtain ⟨t', hnum, hfirst, -, hvisit | hvisit⟩ :=
          timerVisit_resent conf hdue hsend
        · rw [sweepList_cons hvisit] at h
          obtain ⟨⟨us, u'⟩, hrest, hpair⟩ := Option.map_eq_some_iff.mp h
          cases hpair
          exact (ih hrest).remove (by rw [hnum]) hfirst
        · rw [sweepList_cons hvisit] at h
          obtain ⟨⟨us, u'⟩, hrest, hpair⟩ := Option.map_eq_some_iff.mp h
          cases hpair
          refine (ih hrest).keep hnum ?_ rfl (Or.inr (Nat.le_add_right _ _))
          rw [← hfirst]
          rfl

end Visits

section Operations
variable {conf : Conf} {c : Client} {es : List Entry} {now tv : ℕ}

def retryTimeout (now tv : ℕ) (es : List Entry) (ts : List Timeout) : List Timeout :=
  tloopRegisterTimeout tv (max (es.foldl earlier 0) now - now) .radiusClientTimer ts

lemma updateTimeout_spec (now tv : ℕ) (hc : c.Has es) (hne : es ≠ []) :
    radiusClientUpdateTimeout now tv c = some { c with
      timeout := retryTimeout now tv es (tloopCancelTimeout .radiusClientTimer c.timeout) } := by
  have hmsgs : c.msgs ≠ none := fun h => hne (hc.nil_iff.mp h)
  simp [radiusClientUpdateTimeout, hmsgs, Holds.chain hc, retryTimeout]

def added {α : Type} (e : α) (numMsgs : ℕ) (es : List α) : List α :=
  if radiusClientMaxEntries ≤ numMsgs ∧ es ≠ [] then (e :: es).dropLast else e :: es

lemma added_sublist {e : Entry} {n : ℕ} : (added e n es).Sublist (e :: es) := by
  unfold added
  split
  · exact List.dropLast_sublist _
  · exact List.Sublist.refl _

lemma listAdd_skip {m : Message} {malloc : Bool} {firstTry : ℕ} (h : c.terminate ∨ malloc = false) :
    radiusClientListAdd conf m malloc firstTry now tv c = some c := by
  rw [radiusClientListAdd, if_pos h]

lemma listAdd_spec (conf : Conf) (now tv : ℕ) (hc : c.Has es) (hgo : c.terminate = false)
    (m : Message) (firstTry : ℕ) :
    ∃ heap msgs, radiusClientListAdd conf m true firstTry now tv c = some { c with
        heap := heap
        msgs := msgs
        numMsgs := if radiusClientMaxEntries ≤ c.numMsgs then c.numMsgs else c.numMsgs + 1
        timeout := retryTimeout now tv (newEntry conf m firstTry :: es)
          (tloopCancelTimeout .radiusClientTimer c.timeout) } ∧
      Holds heap msgs (added (newEntry conf m firstTry) c.numMsgs es) := by
  have hpush := Holds.push hc (newEntry conf m firstTry)
  generalize halloc : c.heap.alloc ⟨c.msgs, newEntry conf m firstTry⟩ = new at hpush
  obtain ⟨entry, heap⟩ := new
  have hupdate := updateTimeout_spec now tv
    (c := { c with heap := heap, msgs := some entry }) hpush (by simp)
  rw [radiusClientListAdd, if_neg (by simp [hgo])]
  simp only [halloc, hupdate, Option.bind_eq_bind, Option.bind_some]
  by_cases hfull : radiusClientMaxEntries ≤ c.numMsgs
  · obtain ⟨heap', hdrop, hheld⟩ := hpush.dropLast
    refine ⟨heap', some entry, by simp only [if_pos hfull, hdrop, Option.bind_some], ?_⟩
    by_cases hes : es = []
    · simpa [added, hes] using hheld
    · simpa [added, hfull, hes] using hheld
  · refine ⟨heap, some entry, by simp only [if_neg hfull], ?_⟩
    simpa [added, hfull] using hpush

lemma removeEntries_spec (hc : c.Has es) (p : Entry → Bool) :
    ∃ heap msgs, removeEntries p c = some { c with
        heap := heap, msgs := msgs, numMsgs := c.numMsgs - es.countP p } ∧
      Holds heap msgs (es.filter (!p ·)) := by
  obtain ⟨heap, msgs, hsweep, hheld⟩ :=
    (Holds.sweep hc).1 _ _ (sweepList_remove (p := p) (n := c.numMsgs))
  exact ⟨heap, msgs, by simp [removeEntries, hsweep], hheld⟩

lemma receive_spec (hc : c.Has es) (msgType : RadiusType) (identifier : UInt8) :
    ∃ heap msgs, radiusClientReceive msgType identifier c = some { c with
        heap := heap
        msgs := msgs
        numMsgs := if es.any (answers msgType identifier) then c.numMsgs - 1 else c.numMsgs } ∧
      Holds heap msgs (es.eraseP (answers msgType identifier)) := by
  obtain ⟨heap, msgs, hremove, hheld⟩ := Holds.removeFirst hc (answers msgType identifier)
  exact ⟨heap, msgs, by simp [radiusClientReceive, hremove], hheld⟩

lemma getId_none (hc : c.Has es) {ident : UInt8}
    (h : discardList (carries (c.nextId ident)) false es = none) :
    radiusClientGetId ident c = none := by
  have hloop := (holds_discard hc).2 h
  simp only [Client.nextId] at hloop
  simp [radiusClientGetId, hloop]

lemma getId_some (hc : c.Has es) {ident : UInt8} {ws : List Entry}
    (h : discardList (carries (c.nextId ident)) false es = some ws) :
    ∃ heap msgs, radiusClientGetId ident c = some { c with
        heap := heap
        msgs := msgs
        nextRadiusIdentifier := (takeId c.nextRadiusIdentifier ident).2.1 } ∧
      Holds heap msgs ws := by
  obtain ⟨heap, msgs, hloop, hheld⟩ := (holds_discard hc).1 ws h
  simp only [Client.nextId] at hloop
  exact ⟨heap, msgs, by simp [radiusClientGetId, hloop], hheld⟩

lemma flush_spec (hc : c.Has es) : ∃ heap, radiusClientFlush c = some { c with
    heap := heap
    msgs := none
    numMsgs := 0
    timeout := tloopCancelTimeout .radiusClientTimer c.timeout } := by
  obtain ⟨heap, hfree⟩ := Holds.freeLoop hc
  exact ⟨heap, by simp [radiusClientFlush, hfree]⟩

structure Switched (c c' : Client) (es ws : List Entry) : Prop where
  has : c'.Has ws
  kept : ws = [] ∧ c'.numMsgs = 0 ∨
    ws.map (·.identifier) = es.map (·.identifier) ∧ c'.numMsgs = c.numMsgs

lemma Switched.sublist {c' : Client} {ws : List Entry} (h : Switched c c' es ws) :
    (ws.map (·.identifier)).Sublist (es.map (·.identifier)) := by
  rcases h.kept with ⟨rfl, -⟩ | ⟨hids, -⟩
  · simp
  · rw [hids]

lemma Switched.trans {c' c'' : Client} {ws vs : List Entry} (h : Switched c c' es ws)
    (h' : Switched c' c'' ws vs) : Switched c c'' es vs := by
  refine ⟨h'.has, ?_⟩
  rcases h'.kept with hflush | ⟨hids', hnum'⟩
  · exact Or.inl hflush
  · rcases h.kept with ⟨rfl, hnum⟩ | ⟨hids, hnum⟩
    · exact Or.inl ⟨List.map_eq_nil_iff.mp hids', hnum'.trans hnum⟩
    · exact Or.inr ⟨hids'.trans hids, hnum'.trans hnum⟩

lemma changeServer_spec (conf : Conf) (tv : ℕ) (hc : c.Has es) (sameSecret : Bool) :
    ∃ c' ws, radiusChangeServer conf sameSecret tv c = some c' ∧ Switched c c' es ws := by
  cases sameSecret with
  | false =>
    obtain ⟨heap, hflush⟩ := flush_spec hc
    exact ⟨_, [], hflush, holds_empty heap, Or.inl ⟨rfl, rfl⟩⟩
  | true =>
    obtain ⟨heap, msgs, hsweep, hheld⟩ := (Holds.sweep hc).1 _ _ (sweepList_reset (f := fun e =>
      { e with
        nextTry := e.firstTry + conf.tcRadiusTimeout
        attempts := 0
        nextWait := conf.tcRadiusTimeout }))
    have hchange : radiusChangeServer conf true tv c = some { c with
        heap := heap
        msgs := msgs
        timeout := if msgs = none then c.timeout
          else tloopRegisterTimeout tv conf.tcRadiusTimeout .radiusClientTimer
            (tloopCancelTimeout .radiusClientTimer c.timeout) } := by
      simp [radiusChangeServer, hsweep]
    exact ⟨_, _, hchange, hheld, Or.inr ⟨by simp, rfl⟩⟩

lemma authFailover_spec (conf : Conf) (tv : ℕ) (hc : c.Has es) (failover : ℕ) :
    ∃ c' ws, authFailover conf failover tv c = some c' ∧ Switched c c' es ws := by
  unfold authFailover
  split
  · obtain ⟨c', ws, h, hs⟩ := changeServer_spec conf tv
      (c := { c with authServer := nextServer conf.authSecrets c.authServer }) hc
      (sameSecret conf.authSecrets c.authServer (nextServer conf.authSecrets c.authServer))
    exact ⟨c', ws, h, hs.has, hs.kept⟩
  · exact ⟨c, es, rfl, hc, Or.inr ⟨rfl, rfl⟩⟩

lemma acctFailover_spec (conf : Conf) (tv : ℕ) (hc : c.Has es) (failover : ℕ) :
    ∃ c' ws, acctFailover conf failover tv c = some c' ∧ Switched c c' es ws := by
  unfold acctFailover
  split
  · obtain ⟨c', ws, h, hs⟩ := changeServer_spec conf tv
      (c := { c with acctServer := nextServer conf.acctSecrets c.acctServer }) hc
      (sameSecret conf.acctSecrets c.acctServer (nextServer conf.acctSecrets c.acctServer))
    exact ⟨c', ws, h, hs.has, hs.kept⟩
  · exact ⟨c, es, rfl, hc, Or.inr ⟨rfl, rfl⟩⟩

/-- The calls of `send` of one turn of the timer that make the client connect again. -/
def Reconnects (now : ℕ) (sends : List SendResult) (es : List Entry) : Prop :=
  .reconnect ∈ sends.take (es.countP (·.due now))

instance (now : ℕ) (sends : List SendResult) (es : List Entry) : Decidable (Reconnects now sends es) :=
  inferInstanceAs (Decidable (_ ∈ _))

lemma timer_none {tvAuth tvAcct : ℕ} {sends : List SendResult} (hc : c.Has es)
    (h : Reconnects now sends es) : radiusClientTimer conf now tv tvAuth tvAcct sends c = none := by
  have hne : es ≠ [] := by
    rintro rfl
    simp [Reconnects] at h
  have hmsgs : c.msgs ≠ none := fun hm => hne (hc.nil_iff.mp hm)
  have hsweep := (Holds.sweep hc).2
    ((sweepList_timer_none conf ⟨0, 0, 0, c.numMsgs, c.terminate, sends⟩).mpr h)
  simp [radiusClientTimer, hmsgs, hsweep]

lemma timer_loop (conf : Conf) (tv tvAuth tvAcct : ℕ) {sends : List SendResult} (hc : c.Has es)
    (hne : es ≠ []) (h : ¬ Reconnects now sends es) :
    ∃ heap msgs t ws, Swept conf now ⟨0, 0, 0, c.numMsgs, c.terminate, sends⟩ t es ws ∧
      Holds heap msgs ws ∧
      radiusClientTimer conf now tv tvAuth tvAcct sends c =
        (authFailover conf t.authFailover tvAuth { c with
          heap := heap
          msgs := msgs
          numMsgs := t.numMsgs
          terminate := t.terminate
          timeout := if ws = [] then c.timeout else retryTimeout now tv ws c.timeout }).bind
          (acctFailover conf t.acctFailover tvAcct) := by
  have hmsgs : c.msgs ≠ none := fun hm => hne (hc.nil_iff.mp hm)
  obtain ⟨⟨ws, t⟩, hlist⟩ := Option.ne_none_iff_exists'.mp
    (mt (sweepList_timer_none conf ⟨0, 0, 0, c.numMsgs, c.terminate, sends⟩).mp h)
  obtain ⟨heap, msgs, hsweep, hheld⟩ := (Holds.sweep hc).1 _ _ hlist
  have hswept := sweepList_timer_some hlist
  refine ⟨heap, msgs, t, ws, hswept, hheld, ?_⟩
  simp only [radiusClientTimer, hmsgs, if_false, hsweep, Option.bind_eq_bind, Option.bind_some,
    hheld.nil_iff, retryTimeout, hswept.first]

lemma timer_some (conf : Conf) (tv tvAuth tvAcct : ℕ) {sends : List SendResult} (hc : c.Has es)
    (h : ¬ Reconnects now sends es) :
    ∃ c' ws, radiusClientTimer conf now tv tvAuth tvAcct sends c = some c' ∧ c'.Has ws ∧
      (ws.map (·.identifier)).Sublist (es.map (·.identifier)) ∧
      (ws = [] ∧ c'.numMsgs = 0 ∨ c'.numMsgs = c.numMsgs - (es.length - ws.length)) := by
  by_cases hne : es = []
  · have hmsgs : c.msgs = none := hc.nil_iff.mpr hne
    refine ⟨c, es, by simp [radiusClientTimer, hmsgs], hc, List.Sublist.refl _, Or.inr ?_⟩
    omega
  · obtain ⟨heap, msgs, t, ws, hswept, hheld, hloop⟩ := timer_loop conf tv tvAuth tvAcct hc hne h
    obtain ⟨c₁, ws₁, hauth, hs₁⟩ := authFailover_spec conf tvAuth
      (c := { c with
        heap := heap
        msgs := msgs
        numMsgs := t.numMsgs
        terminate := t.terminate
        timeout := if ws = [] then c.timeout else retryTimeout now tv ws c.timeout })
      hheld t.authFailover
    obtain ⟨c₂, ws₂, hacct, hs₂⟩ := acctFailover_spec conf tvAcct hs₁.has t.acctFailover
    have hs := hs₁.trans hs₂
    refine ⟨c₂, ws₂, by rw [hloop, hauth, Option.bind_some, hacct], hs.has, ?_, ?_⟩
    · exact hs.sublist.trans hswept.identifiers
    · rcases hs.kept with hflush | ⟨hids, hnum⟩
      · exact Or.inl hflush
      · have hlen : ws₂.length = ws.length := by simpa using congrArg List.length hids
        right
        rw [hnum, hlen]
        exact hswept.numMsgs

end Operations

end LdapTgen.RadiusClient
