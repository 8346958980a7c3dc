import LdapTgen.ConnectionOwners

/-! Binds and the mutexes around them: `simpleBindRequest`, `unbindRequest`, `tLdap_Rebind` and
`tLdap_abandon` on the connection of one thread. How often the thread holds each mutex stands beside
the handle. The answers of the LDAP library are inputs; a call that waits for itself, does not end its
loop, or ends the program has no result. -/
namespace LdapTgen.BindLocks

structure Conn where
  id : ℕ
  bound : Bool
  deriving DecidableEq, Repr

/-- How often the calling thread holds the mutex of its connection, `bindMutex` and `abandonMutex`. -/
structure Held where
  conn : ℕ
  bind : ℕ
  abandon : ℕ
  deriving DecidableEq, Repr

structure State where
  ld : Option Conn
  held : Held
  deriving DecidableEq, Repr

/-- What the library answers to one attempt: the handle that it creates (`ldap_initialize` leaves a null
handle when it fails, as `ldap_init` returns one), the results of `ldap_set_option` for the protocol
version and for the controls, and the result of the bind. -/
structure Library where
  created : Option ℕ
  setVersion : ℤ
  setControls : ℤ
  bind : ℤ
  deriving DecidableEq, Repr

def lockConn (dolock : Bool) (s : State) : State :=
  if dolock then { s with held := { s.held with conn := s.held.conn + 1 } } else s

def unlockConn (dolock : Bool) (s : State) : State :=
  if dolock then { s with held := { s.held with conn := s.held.conn - 1 } } else s

def lockBind (s : State) : Option State :=
  if s.held.bind = 0 then some { s with held := { s.held with bind := 1 } } else none

def unlockBind (s : State) : State := { s with held := { s.held with bind := s.held.bind - 1 } }

def lockAbandon (s : State) : Option State :=
  if s.held.abandon = 0 then some { s with held := { s.held with abandon := 1 } } else none

def unlockAbandon (s : State) : State :=
  { s with held := { s.held with abandon := s.held.abandon - 1 } }

/-- The result code and the handle after `ldap_simple_bind_s` on the handle `h`. -/
def bindResult (quietOnError : Bool) (h : ℕ) (bind : ℤ) : ℤ × Option Conn :=
  if 0 < bind ∧ quietOnError = false then (1, none) else (bind, some ⟨h, bind = 0⟩)

def simpleBindRequest (quietOnError dolock sctrl : Bool) (l : Library) (s : State) :
    Option (ℤ × State) := do
  let s ← lockBind (lockConn dolock s)
  match l.created with
  | none => some (1, { s with ld := none })
  | some h =>
      if l.setVersion ≠ 0 ∨ sctrl ∧ l.setControls ≠ 0 then some (1, { s with ld := some ⟨h, false⟩ })
      else
        let (rc, ld) := bindResult quietOnError h l.bind
        some (rc, unlockConn dolock (unlockBind { s with ld := ld }))

def unbindRequest (dolock : Bool) (unbind : ℤ) (s : State) : ℤ × State :=
  (if s.ld.isSome then unbind else 0, unlockConn dolock { lockConn dolock s with ld := none })

def tLdapBindRequest (quietOnError sctrl : Bool) (l : Library) (s : State) :
    Option (Bool × ℤ × State) :=
  if s.ld = none then (simpleBindRequest quietOnError true sctrl l s).map fun r => (true, r)
  else some (false, 0, s)

/-- The loop of `tLdap_Rebind`, `while (!rc == LDAP_SUCCESS)`, on the answers to its attempts; the first
result tells if it came to its end. -/
def rebindLoop (quietOnError : Bool) : List Library → ℤ → State → Option (Bool × State)
  | [], rc, s => if rc = 0 then some (true, s) else none
  | l :: ls, rc, s =>
      if rc = 0 then some (true, s)
      else
        match l.created with
        | none => some (false, { s with ld := none })
        | some h =>
            if l.setVersion ≠ 0 then some (false, { s with ld := some ⟨h, false⟩ })
            else
              let (rc, ld) := bindResult quietOnError h l.bind
              rebindLoop quietOnError ls rc { s with ld := ld }

/-- `rebind` is the flag of the thread's slot, and `rc` what the variable holds before the loop. -/
def tLdapRebind (quietOnError dolock rebind : Bool) (rc unbind : ℤ) (ls : List Library) (s : State) :
    Option (ℤ × State) :=
  let s := (unbindRequest dolock unbind (lockConn dolock s)).2
  if rebind then some (0, unlockConn dolock s)
  else (rebindLoop quietOnError ls rc s).map fun r =>
    if r.1 then (0, unlockConn dolock r.2) else (1, r.2)

def tLdapAbandon (quietOnError dolock srvDown : Bool) (unbind kill : ℤ) (l : Library) (s : State) :
    Option (ℤ × State) := do
  let s ← lockAbandon s
  let s := (unbindRequest dolock unbind s).2
  if srvDown then some (0, unlockAbandon s)
  else
    let (rc, s) ← simpleBindRequest quietOnError dolock false l s
    if rc ≠ 0 ∧ kill ≠ 0 then none else some (0, unlockAbandon s)

section Held
variable {dolock : Bool} {s : State}

@[simp]
lemma unlockConn_lockConn : unlockConn dolock (lockConn dolock s) = s := by
  cases dolock <;> simp [unlockConn, lockConn]

@[simp]
lemma unlockConn_held_ld (ld : Option Conn) :
    (unlockConn dolock { s with ld := ld }).held = (unlockConn dolock s).held := by
  cases dolock <;> rfl

@[simp]
lemma lockConn_bind : (lockConn dolock s).held.bind = s.held.bind := by
  cases dolock <;> rfl

lemma unbindRequest_state (unbind : ℤ) : (unbindRequest dolock unbind s).2 = { s with ld := none } := by
  cases dolock <;> simp [unbindRequest, unlockConn, lockConn]

end Held

def ReachesBind (sctrl : Bool) (l : Library) : Prop :=
  l.created.isSome ∧ l.setVersion = 0 ∧ (sctrl = true → l.setControls = 0)

instance (sctrl : Bool) (l : Library) : Decidable (ReachesBind sctrl l) :=
  inferInstanceAs (Decidable (_ ∧ _ ∧ _))

section Bind
variable {quietOnError dolock sctrl : Bool} {l : Library} {s : State}

lemma bindResult_code {h : ℕ} {bind : ℤ} : (bindResult quietOnError h bind).1 = 0 ↔ bind = 0 := by
  unfold bindResult
  split_ifs with hp
  · simp only [one_ne_zero, false_iff]
    omega
  · rfl

lemma bindResult_handle {h : ℕ} {bind : ℤ} :
    (bindResult quietOnError h bind).2 = none ↔ 0 < bind ∧ quietOnError = false := by
  unfold bindResult
  split_ifs with hp <;> simp [hp]

lemma simpleBindRequest_none :
    simpleBindRequest quietOnError dolock sctrl l s = none ↔ s.held.bind ≠ 0 := by
  unfold simpleBindRequest lockBind
  by_cases hs : s.held.bind = 0
  · cases hc : l.created with
    | none => simp [hs]
    | some h =>
      by_cases he : l.setVersion ≠ 0 ∨ sctrl ∧ l.setControls ≠ 0 <;> simp [hs, he]
  · simp [hs]

lemma bind_free {r : ℤ × State} (h : simpleBindRequest quietOnError dolock sctrl l s = some r) :
    s.held.bind = 0 := by
  by_contra hn
  rw [simpleBindRequest_none.mpr hn] at h
  cases h

lemma simpleBindRequest_early (hs : s.held.bind = 0) (h : ¬ ReachesBind sctrl l) :
    simpleBindRequest quietOnError dolock sctrl l s = some (1,
      ⟨l.created.map fun i => ⟨i, false⟩, { (lockConn dolock s).held with bind := 1 }⟩) := by
  unfold simpleBindRequest lockBind
  cases hc : l.created with
  | none => simp [hs]
  | some i =>
    have he : l.setVersion ≠ 0 ∨ sctrl ∧ l.setControls ≠ 0 := by
      by_contra hn
      push Not at hn
      exact h ⟨by simp [hc], hn.1, hn.2⟩
    simp [hs, he]

lemma simpleBindRequest_bound (hs : s.held.bind = 0) (h : ReachesBind sctrl l) :
    ∃ i, l.created = some i ∧ simpleBindRequest quietOnError dolock sctrl l s =
      some ((bindResult quietOnError i l.bind).1,
        { s with ld := (bindResult quietOnError i l.bind).2 }) := by
  obtain ⟨hc, hv, hctl⟩ := h
  obtain ⟨i, hi⟩ := Option.isSome_iff_exists.mp hc
  have he : ¬ (l.setVersion ≠ 0 ∨ sctrl ∧ l.setControls ≠ 0) := by
    rintro (h | h)
    · exact h hv
    · exact h.2 (hctl h.1)
  refine ⟨i, hi, ?_⟩
  unfold simpleBindRequest lockBind
  rw [if_pos (by simpa using hs)]
  simp only [Option.bind_eq_bind, Option.bind_some, hi, if_neg he]
  cases dolock <;> simp [unlockConn, unlockBind, lockConn, ← hs]

lemma simpleBindRequest_held {rc : ℤ} {s' : State}
    (h : simpleBindRequest quietOnError dolock sctrl l s = some (rc, s')) :
    s'.held = s.held ↔ ReachesBind sctrl l := by
  have hs : s.held.bind = 0 := bind_free h
  by_cases hr : ReachesBind sctrl l
  · obtain ⟨i, -, he⟩ := simpleBindRequest_bound hs hr
    rw [he] at h
    cases h
    simp [hr]
  · rw [simpleBindRequest_early hs hr] at h
    cases h
    simp only [hr, iff_false]
    intro heq
    have hb := congrArg Held.bind heq
    simp [hs] at hb

lemma tLdapBindRequest_again {quiet ctrl : Bool} {next : Library} :
    (∃ r, tLdapBindRequest quiet ctrl next s = some (true, r)) ↔ s.ld = none ∧ s.held.bind = 0 := by
  unfold tLdapBindRequest
  by_cases hl : s.ld = none
  · simp only [hl, if_true, true_and, Option.map_eq_some_iff]
    constructor
    · rintro ⟨-, r, hr, -⟩
      exact bind_free hr
    · intro hs
      obtain ⟨r, hr⟩ := Option.ne_none_iff_exists'.mp fun hn => simpleBindRequest_none.mp hn hs
      exact ⟨r, r, hr, rfl⟩
  · simp [hl]

/-- A failed bind request leaves no handle if none was created, and after a positive result unless
errors are quiet. Only in the second case is `bindMutex` free again, so that the next request binds. -/
theorem bind_outcome_iff (quietOnError dolock sctrl : Bool) (l : Library) (s : State) :
    (simpleBindRequest quietOnError dolock sctrl l s = none ↔ s.held.bind ≠ 0) ∧
    ∀ rc s', simpleBindRequest quietOnError dolock sctrl l s = some (rc, s') →
      (rc = 0 ↔ ReachesBind sctrl l ∧ l.bind = 0) ∧
      (rc = 0 → ∃ i, l.created = some i ∧ s'.ld = some ⟨i, true⟩) ∧
      (rc ≠ 0 →
        (s'.ld = none ↔
          l.created = none ∨ ReachesBind sctrl l ∧ 0 < l.bind ∧ quietOnError = false) ∧
        ∀ ctrl next, (∃ r, tLdapBindRequest quietOnError ctrl next s' = some (true, r)) ↔
          ReachesBind sctrl l ∧ 0 < l.bind ∧ quietOnError = false) := by
  refine ⟨simpleBindRequest_none, ?_⟩
  intro rc s' h
  have hs : s.held.bind = 0 := bind_free h
  by_cases hr : ReachesBind sctrl l
  · obtain ⟨i, hi, he⟩ := simpleBindRequest_bound hs hr
    rw [he] at h
    cases h
    refine ⟨by simp [hr, bindResult_code], ?_, ?_⟩
    · intro hz
      have hb : l.bind = 0 := bindResult_code.mp hz
      exact ⟨i, hi, by simp [bindResult, hb]⟩
    · intro _
      refine ⟨by simp [hr, hi, bindResult_handle], ?_⟩
      intro ctrl next
      rw [tLdapBindRequest_again]
      simp [hr, hs, bindResult_handle]
  · rw [simpleBindRequest_early hs hr] at h
    cases h
    refine ⟨by simp [hr], by simp, ?_⟩
    intro _
    refine ⟨by simp [hr], ?_⟩
    intro ctrl next
    rw [tLdapBindRequest_again]
    simp [hr]

/-- The server is down: the handle is kept, and the next bind request makes no bind. -/
theorem unbound_handle_kept :
    simpleBindRequest false true false ⟨some 7, 0, 0, -1⟩ ⟨none, ⟨0, 0, 0⟩⟩ =
      some (-1, ⟨some ⟨7, false⟩, ⟨0, 0, 0⟩⟩) ∧
    tLdapBindRequest false false ⟨some 8, 0, 0, 0⟩ ⟨some ⟨7, false⟩, ⟨0, 0, 0⟩⟩ =
      some (false, 0, ⟨some ⟨7, false⟩, ⟨0, 0, 0⟩⟩) ∧
    simpleBindRequest true true false ⟨some 7, 0, 0, 49⟩ ⟨none, ⟨0, 0, 0⟩⟩ =
      some (49, ⟨some ⟨7, false⟩, ⟨0, 0, 0⟩⟩) := by
  decide

end Bind

def Library.opened (sctrl : Bool) (l : Library) : ConnectionOwners.Opened :=
  match l.created with
  | none => .noHandle
  | some h => if ReachesBind sctrl l then .bound h l.bind else .refused h

/-- The thread's slot gets the handle of this model, and `bindMutex` is lost there when the thread still
holds it here. -/
theorem simpleBindRequest_slot {S : Type*} (c : ConnectionOwners.Conf S) (key : ℕ)
    (t : ConnectionOwners.State S) {dolock sctrl : Bool} {l : Library} {s s' : State} {rc : ℤ}
    (h : simpleBindRequest c.quietOnError dolock sctrl l s = some (rc, s')) :
    let t' := ConnectionOwners.simpleBindRequest c key t (l.opened sctrl)
    (t'.tLdapLdTab (ConnectionOwners.slotOf c key)).ld = s'.ld.map Conn.id ∧
      (t'.bindMutexLost = true ↔ t.bindMutexLost = true ∨ s'.held.bind ≠ 0) := by
  have hs : s.held.bind = 0 := bind_free h
  by_cases hr : ReachesBind sctrl l
  · obtain ⟨i, hi, he⟩ := simpleBindRequest_bound hs hr
    rw [he] at h
    cases h
    have ho : l.opened sctrl = .bound i l.bind := by simp [Library.opened, hi, hr]
    rw [ho]
    simp only [ConnectionOwners.simpleBindRequest, ConnectionOwners.record, ConnectionOwners.setLd,
      ConnectionOwners.handleAfter, bindResult, hs]
    split_ifs <;> simp_all
  · rw [simpleBindRequest_early hs hr] at h
    cases h
    cases hc : l.created <;>
      simp [Library.opened, hc, hr, ConnectionOwners.simpleBindRequest, ConnectionOwners.setLd]

/-- The attempts that the loop of `tLdap_Rebind` makes. -/
def attempts : ℤ → List Library → List Library
  | _, [] => []
  | rc, l :: ls => if rc = 0 then [] else l :: if ReachesBind false l then attempts l.bind ls else []

lemma attempts_code {rc rc' : ℤ} (h : rc = 0 ↔ rc' = 0) (ls : List Library) :
    attempts rc ls = attempts rc' ls := by
  cases ls with
  | nil => rfl
  | cons l ls => simp [attempts, h]

lemma rebindLoop_held {quietOnError ended : Bool} {ls : List Library} {rc : ℤ} {s s' : State}
    (h : rebindLoop quietOnError ls rc s = some (ended, s')) :
    s'.held = s.held ∧ (ended = true ↔ ∀ l ∈ attempts rc ls, ReachesBind false l) := by
  induction ls generalizing rc s with
  | nil =>
    unfold rebindLoop at h
    split_ifs at h
    cases h
    simp [attempts]
  | cons l ls ih =>
    unfold rebindLoop at h
    by_cases hz : rc = 0
    · rw [if_pos hz] at h
      cases h
      simp [attempts, hz]
    · rw [if_neg hz] at h
      cases hc : l.created with
      | none =>
        rw [hc] at h
        cases h
        simp [attempts, hz, ReachesBind, hc]
      | some i =>
        rw [hc] at h
        by_cases hv : l.setVersion = 0
        · simp only [hv, ne_eq, not_true_eq_false, if_false] at h
          have hr : ReachesBind false l := ⟨by simp [hc], hv, by simp⟩
          obtain ⟨hheld, hended⟩ := ih h
          refine ⟨hheld, ?_⟩
          rw [hended, attempts_code bindResult_code]
          simp [attempts, hz, hr]
        · simp only [hv, ne_eq, not_false_eq_true, if_true] at h
          cases h
          simp [attempts, hz, ReachesBind, hv]

lemma lockConn_held {dolock : Bool} {s : State} :
    (lockConn dolock s).held = s.held ↔ dolock = false := by
  cases dolock with
  | false => simp [lockConn]
  | true =>
    simp only [lockConn, if_true, Bool.true_eq_false, iff_false]
    intro h
    have hc := congrArg Held.conn h
    simp at hc

lemma unlockConn_held {dolock : Bool} {s t : State} (h : t.held = (lockConn dolock s).held) :
    (unlockConn dolock t).held = s.held := by
  cases dolock with
  | false => simpa [unlockConn, lockConn] using h
  | true => simp [unlockConn, h, lockConn]

lemma tLdapRebind_held {quietOnError dolock rebind : Bool} {rc0 unbind rc : ℤ} {ls : List Library}
    {s s' : State} (h : tLdapRebind quietOnError dolock rebind rc0 unbind ls s = some (rc, s')) :
    s'.held = s.held ↔
      dolock = false ∨ rebind = true ∨ ∀ l ∈ attempts rc0 ls, ReachesBind false l := by
  unfold tLdapRebind at h
  rw [unbindRequest_state] at h
  cases rebind with
  | true =>
    cases h
    simp
  | false =>
    simp only [Bool.false_eq_true, if_false, Option.map_eq_some_iff] at h
    obtain ⟨⟨ended, t⟩, hl, he⟩ := h
    obtain ⟨hheld, hended⟩ := rebindLoop_held hl
    rw [← hended]
    cases ended with
    | true =>
      cases he
      simp [unlockConn_held hheld]
    | false =>
      cases he
      rw [hheld]
      simp [lockConn_held]

lemma simpleBindRequest_abandon {quietOnError dolock sctrl : Bool} {l : Library} {s s' : State} {rc : ℤ}
    (h : simpleBindRequest quietOnError dolock sctrl l s = some (rc, s')) :
    s'.held.abandon = s.held.abandon := by
  have hs : s.held.bind = 0 := bind_free h
  by_cases hr : ReachesBind sctrl l
  · obtain ⟨i, -, he⟩ := simpleBindRequest_bound hs hr
    rw [he] at h
    cases h
    rfl
  · rw [simpleBindRequest_early hs hr] at h
    cases h
    cases dolock <;> rfl

lemma unlockAbandon_held {s t : State} (hs : s.held.abandon = 0) (ht : t.held.abandon = 1) :
    t.held = { s.held with abandon := 1 } ↔ (unlockAbandon t).held = s.held := by
  obtain ⟨sld, sc, sb, sa⟩ := s
  obtain ⟨tld, tc, tb, ta⟩ := t
  simp only at hs ht
  simp [unlockAbandon, hs, ht]

lemma tLdapAbandon_held {quietOnError dolock srvDown : Bool} {unbind kill rc : ℤ} {l : Library}
    {s s' : State} (h : tLdapAbandon quietOnError dolock srvDown unbind kill l s = some (rc, s')) :
    s'.held = s.held ↔ srvDown = true ∨ ReachesBind false l := by
  unfold tLdapAbandon lockAbandon at h
  by_cases ha : s.held.abandon = 0
  · rw [if_pos ha] at h
    simp only [Option.bind_eq_bind, Option.bind_some, unbindRequest_state] at h
    cases srvDown with
    | true =>
      cases h
      simp [unlockAbandon, ← ha]
    | false =>
      simp only [Bool.false_eq_true, if_false, Option.bind_eq_some_iff] at h
      obtain ⟨⟨code, t⟩, hb, he⟩ := h
      have hheld := simpleBindRequest_held hb
      split_ifs at he
      cases he
      have hone := simpleBindRequest_abandon hb
      rw [← unlockAbandon_held ha hone, hheld]
      simp
  · simp [ha] at h

/-- A call gives back what it takes unless it, or the bind request in it, leaves through a return before
the bind; `tLdap_Rebind` has nothing to give back if it does not lock, and `tLdap_abandon` makes no bind
request when the server is down. -/
theorem locks_balanced_iff (quietOnError dolock sctrl rebind srvDown : Bool) (rc0 unbind kill : ℤ)
    (l : Library) (ls : List Library) (s : State) :
    (∀ rc s', simpleBindRequest quietOnError dolock sctrl l s = some (rc, s') →
      (s'.held = s.held ↔ ReachesBind sctrl l)) ∧
    (∀ rc s', tLdapRebind quietOnError dolock rebind rc0 unbind ls s = some (rc, s') →
      (s'.held = s.held ↔
        dolock = false ∨ rebind = true ∨ ∀ l ∈ attempts rc0 ls, ReachesBind false l)) ∧
    (∀ rc s', tLdapAbandon quietOnError dolock srvDown unbind kill l s = some (rc, s') →
      (s'.held = s.held ↔ srvDown = true ∨ ReachesBind false l)) := by
  refine ⟨?_, ?_, ?_⟩
  · intro rc s' h
    exact simpleBindRequest_held h
  · intro rc s' h
    exact tLdapRebind_held h
  · intro rc s' h
    exact tLdapAbandon_held h

/-- No handle can be created: the three calls return with mutexes that they took. -/
theorem locks_not_released :
    simpleBindRequest false true false ⟨none, 0, 0, 0⟩ ⟨none, ⟨0, 0, 0⟩⟩ =
      some (1, ⟨none, ⟨1, 1, 0⟩⟩) ∧
    tLdapRebind false true false (-1) 0 [⟨none, 0, 0, 0⟩] ⟨some ⟨7, true⟩, ⟨0, 0, 0⟩⟩ =
      some (1, ⟨none, ⟨1, 0, 0⟩⟩) ∧
    tLdapAbandon false true false 0 0 ⟨none, 0, 0, 0⟩ ⟨some ⟨7, true⟩, ⟨0, 0, 0⟩⟩ =
      some (0, ⟨none, ⟨1, 1, 0⟩⟩) := by
  decide

end LdapTgen.BindLocks
