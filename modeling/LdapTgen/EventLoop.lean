import LdapTgen.CellsAside
import LdapTgen.LabelledRun

/-! The event loop of a supplicant: `tloop_register_timeout`, `tloop_cancel_timeout` and the turns of
`tloop_run`, whose handlers register and cancel in their turn. The timeouts are cells in memory; the one
whose handler runs is off the list and freed when the handler is back. -/
namespace LdapTgen.EventLoop
open LabelledRun LinkedCells

/-- `struct timeval` as `gettimeofday` fills it. -/
structure Timeval where
  sec : ℕ
  usec : ℕ
  usec_lt : usec < 1000000
  deriving DecidableEq, Repr

def Timeval.micros (t : Timeval) : ℕ := t.sec * 1000000 + t.usec

def timercmp (a b : Timeval) : Bool :=
  if a.sec = b.sec then a.usec < b.usec else a.sec < b.sec

lemma timercmp_iff {a b : Timeval} : timercmp a b = true ↔ a.micros < b.micros := by
  have ha := a.usec_lt
  have hb := b.usec_lt
  unfold timercmp Timeval.micros
  split
  · rename_i heq
    rw [decide_eq_true_iff, heq]
    omega
  · rw [decide_eq_true_iff]
    omega

lemma timercmp_eq_false {a b : Timeval} : timercmp a b = false ↔ b.micros ≤ a.micros := by
  rw [← not_lt, ← timercmp_iff, Bool.not_eq_true]

def timersub (a b : Timeval) : Timeval :=
  if h : b.usec ≤ a.usec then ⟨a.sec - b.sec, a.usec - b.usec, by have := a.usec_lt; omega⟩
  else ⟨a.sec - b.sec - 1, a.usec + 1000000 - b.usec, by omega⟩

lemma timersub_micros {a b : Timeval} (h : b.micros < a.micros) :
    (timersub a b).micros = a.micros - b.micros := by
  have ha := a.usec_lt
  have hb := b.usec_lt
  unfold timersub
  unfold Timeval.micros at h ⊢
  split
  · dsimp only
    omega
  · dsimp only
    omega

def carryLoop : ℕ → ℕ → ℕ → ℕ × ℕ
  | 0, sec, usec => (sec, usec)
  | fuel + 1, sec, usec =>
      if 1000000 ≤ usec then carryLoop fuel (sec + 1) (usec - 1000000) else (sec, usec)

lemma carryLoop_lt {fuel sec usec : ℕ} (h : usec ≤ fuel) : (carryLoop fuel sec usec).2 < 1000000 := by
  induction fuel generalizing sec usec with
  | zero =>
    rw [carryLoop]
    omega
  | succ fuel ih =>
    rw [carryLoop]
    split
    · exact ih (by omega)
    · dsimp only
      omega

lemma carryLoop_micros (fuel sec usec : ℕ) :
    (carryLoop fuel sec usec).1 * 1000000 + (carryLoop fuel sec usec).2 = sec * 1000000 + usec := by
  induction fuel generalizing sec usec with
  | zero => rfl
  | succ fuel ih =>
    rw [carryLoop]
    split
    · rw [ih]
      omega
    · rfl

def dueTime (now : Timeval) (secs usecs : UInt32) : Timeval :=
  let usec := now.usec + usecs.toNat
  ⟨(carryLoop usec (now.sec + secs.toNat) usec).1, (carryLoop usec (now.sec + secs.toNat) usec).2,
    carryLoop_lt le_rfl⟩

lemma dueTime_micros (now : Timeval) (secs usecs : UInt32) :
    (dueTime now secs usecs).micros = now.micros + secs.toNat * 1000000 + usecs.toNat := by
  rw [Timeval.micros, dueTime, carryLoop_micros, Timeval.micros]
  omega

/-- `struct tloop_timeout`, with the number of registrations before it. -/
structure Timeout where
  time : Timeval
  handler : UInt64
  tloopData : UInt64
  userData : UInt64
  serial : ℕ
  deriving DecidableEq, Repr

def tloopAllCtx : UInt64 := -1

structure Cancel where
  handler : UInt64
  tloopData : UInt64
  userData : UInt64
  deriving DecidableEq, Repr

def Cancel.covers (c : Cancel) (t : Timeout) : Bool :=
  t.handler == c.handler && (t.tloopData == c.tloopData || c.tloopData == tloopAllCtx) &&
    (t.userData == c.userData || c.userData == tloopAllCtx)

/-- `struct tloop_data`, the cells whose handlers run, the innermost first, and the number of the
registrations, by which two of them with the same data are told apart. -/
structure Loop where
  heap : Heap Timeout
  timeout : Option ℕ
  running : List ℕ
  registered : ℕ

def Loop.init : Loop := ⟨Heap.empty, none, [], 0⟩

/-- The result is 0, or -1 when `malloc` fails. -/
def tloopRegisterTimeout (malloc : Bool) (now : Timeval) (secs usecs : UInt32)
    (handler tloopData userData : UInt64) (l : Loop) : Option (Loop × ℤ) :=
  if malloc then
    let t : Timeout := ⟨dueTime now secs usecs, handler, tloopData, userData, l.registered⟩
    (insertBefore (fun tmp => timercmp t.time tmp.time) t l.heap l.timeout).map fun r =>
      ({ l with heap := r.1, timeout := r.2, registered := l.registered + 1 }, 0)
  else some (l, -1)

/-- A turn of the loop in `tloop_cancel_timeout`, with the number of timeouts removed before. -/
def cancelVisit (c : Cancel) (removed : ℕ) (t : Timeout) : Option (ℕ × Timeout × Bool) :=
  if c.covers t then some (removed + 1, t, true) else some (removed, t, false)

def tloopCancelTimeout (c : Cancel) (l : Loop) : Option (Loop × ℕ) :=
  (sweep (cancelVisit c) l.heap l.timeout 0).map fun r =>
    ({ l with heap := r.1, timeout := r.2.1 }, r.2.2)

/-- The time that `tloop_run` gives to `select`; without timeouts it waits for the socket only. -/
def selectTime (now : Timeval) (l : Loop) : Option (Option Timeval) :=
  match l.timeout with
  | none => some none
  | some a => (l.heap.cell a).map fun c =>
      some (if timercmp now c.val.time then timersub c.val.time now else ⟨0, 0, Nat.zero_lt_succ _⟩)

/-- What `tloop_run` does to the timeouts behind its `select`, up to the call of the handler, and the
timeout whose handler is called. -/
def tloopRun (now : Timeval) (l : Loop) : Option (Loop × Option Timeout) :=
  match l.timeout with
  | none => some (l, none)
  | some tmp => (l.heap.cell tmp).map fun c =>
      if timercmp now c.val.time then (l, none)
      else ({ l with timeout := c.next, running := tmp :: l.running }, some c.val)

def handlerReturns (l : Loop) : Option Loop :=
  match l.running with
  | [] => some l
  | tmp :: outer => (l.heap.free tmp).map fun h => { l with heap := h, running := outer }

inductive Label
  | register (malloc : Bool) (now : Timeval) (secs usecs : UInt32) (handler tloopData userData : UInt64)
  | cancel (c : Cancel)
  | turn (now : Timeval)
  | handlerReturns

/-- Nothing says which handler registers or cancels, so every order of calls is one of the runs. -/
def step (l : Loop) : Label → Option Loop
  | .register malloc now secs usecs handler tloopData userData =>
      (tloopRegisterTimeout malloc now secs usecs handler tloopData userData l).map Prod.fst
  | .cancel c => (tloopCancelTimeout c l).map Prod.fst
  | .turn now => (tloopRun now l).map Prod.fst
  | .handlerReturns => handlerReturns l

/-- The timeout that a call asks for behind `serial` registrations. -/
def request (serial : ℕ) : Label → Option Timeout
  | .register true now secs usecs handler tloopData userData =>
      some ⟨dueTime now secs usecs, handler, tloopData, userData, serial⟩
  | _ => none

def registrations (es : List Label) : ℕ := es.countP fun e => (request 0 e).isSome

def Registered (t : Timeout) : List Label → Prop :=
  Happened fun before e => request (registrations before) e = some t

/-- A cancellation that covers `t` came behind its registration. -/
def Cancelled (t : Timeout) : List Label → Prop :=
  Happened fun before e => ∃ c, e = .cancel c ∧ Registered t before ∧ c.covers t = true

def Fired (t : Timeout) : List Label → Prop :=
  Happened fun before e => ∃ now l l',
    e = .turn now ∧ run step Loop.init before = some l ∧ tloopRun now l = some (l', some t)

structure Pending (es : List Label) (t : Timeout) : Prop where
  registered : Registered t es
  not_cancelled : ¬ Cancelled t es
  not_fired : ¬ Fired t es

def Before (t u : Timeout) : Prop :=
  t.time.micros < u.time.micros ∨ t.time.micros = u.time.micros ∧ t.serial < u.serial

lemma Before.irrefl (t : Timeout) : ¬ Before t t := by
  rintro (hlt | ⟨-, hlt⟩)
  · exact lt_irrefl _ hlt
  · exact lt_irrefl _ hlt

section Calls
variable {es : List Label} {e : Label} {t u : Timeout}

lemma request_isSome (n : ℕ) (e : Label) : (request n e).isSome = (request 0 e).isSome := by
  cases e with
  | register malloc => cases malloc <;> rfl
  | cancel c => rfl
  | turn now => rfl
  | handlerReturns => rfl

lemma request_serial {n : ℕ} (h : request n e = some t) : t.serial = n := by
  cases e with
  | register malloc =>
    cases malloc with
    | false => cases h
    | true =>
      cases h
      rfl
  | cancel c => cases h
  | turn now => cases h
  | handlerReturns => cases h

lemma registrations_concat (es : List Label) (e : Label) :
    registrations (es ++ [e]) = registrations es + if (request 0 e).isSome then 1 else 0 := by
  simp [registrations, List.countP_append, List.countP_cons]

lemma registered_concat :
    Registered t (es ++ [e]) ↔ Registered t es ∨ request (registrations es) e = some t := happened_concat

lemma Registered.serial_lt (h : Registered t es) : t.serial < registrations es := by
  induction es using List.reverseRecOn with
  | nil => exact absurd h happened_nil
  | append_singleton es e ih =>
    rw [registrations_concat]
    rcases registered_concat.mp h with h | h
    · exact (ih h).trans_le (Nat.le_add_right _ _)
    · have hsome := request_isSome (registrations es) e
      rw [h] at hsome
      rw [request_serial h, ← hsome]
      exact Nat.lt_succ_self _

lemma Cancelled.registered (h : Cancelled t es) : Registered t es := by
  induction es using List.reverseRecOn with
  | nil => exact absurd h happened_nil
  | append_singleton es e ih =>
    refine registered_concat.mpr (.inl ?_)
    rcases happened_concat.mp h with h | ⟨c, -, hreg, -⟩
    · exact ih h
    · exact hreg

lemma pending_concat (hquiet : request (registrations es) e = none) :
    Pending (es ++ [e]) t ↔ Pending es t ∧ (∀ c, e = .cancel c → c.covers t = false) ∧
      ∀ now l l', e = .turn now → run step Loop.init es = some l → tloopRun now l ≠ some (l', some t) := by
  constructor
  · rintro ⟨hreg, hcancel, hfired⟩
    have hold : Registered t es := (registered_concat.mp hreg).resolve_right (by simp [hquiet])
    refine ⟨⟨hold, fun h => hcancel (happened_concat.mpr (.inl h)),
      fun h => hfired (happened_concat.mpr (.inl h))⟩, fun c hc => ?_, fun now l l' he hl hcall => ?_⟩
    · by_contra hcovers
      exact hcancel (happened_concat.mpr (.inr ⟨c, hc, hold, by simpa using hcovers⟩))
    · exact hfired (happened_concat.mpr (.inr ⟨now, l, l', he, hl, hcall⟩))
  · rintro ⟨⟨hreg, hcancel, hfired⟩, hcovers, hcall⟩
    refine ⟨registered_concat.mpr (.inl hreg), fun h => ?_, fun h => ?_⟩
    · rcases happened_concat.mp h with h | ⟨c, hc, -, hcov⟩
      · exact hcancel h
      · exact absurd hcov (by simp [hcovers c hc])
    · rcases happened_concat.mp h with h | ⟨now, l, l', he, hl, hfire⟩
      · exact hfired h
      · exact hcall now l l' he hl hfire

end Calls

/-- The list holds the pending timeouts in their order; what has fired was registered. -/
structure Tracks (ts : List Timeout) (es : List Label) : Prop where
  sorted : ts.Pairwise Before
  mem_iff : ∀ t, t ∈ ts ↔ Pending es t
  fired : ∀ t, Fired t es → Registered t es

structure Inv (es : List Label) (l : Loop) : Prop where
  cells : ∃ ts, HoldsBeside l.heap l.timeout ts l.running ∧ Tracks ts es
  registered : l.registered = registrations es

section Tracking
variable {ts : List Timeout} {es : List Label} {e : Label} {t : Timeout} {l : Loop}

lemma Tracks.first {u : Timeout} (h : Tracks ts es) (hu : Pending es u) :
    ∃ t ∈ ts.head?, t.time.micros ≤ u.time.micros ∧ (u ≠ t → Before t u) := by
  have hmem := (h.mem_iff u).mpr hu
  cases ts with
  | nil => cases hmem
  | cons t rest =>
    refine ⟨t, rfl, ?_⟩
    rcases List.mem_cons.mp hmem with rfl | hmem
    · exact ⟨le_rfl, fun h => absurd rfl h⟩
    · have hbefore := (List.pairwise_cons.mp h.sorted).1 u hmem
      refine ⟨?_, fun _ => hbefore⟩
      rcases hbefore with hlt | ⟨heq, -⟩
      · exact hlt.le
      · exact heq.le

lemma Tracks.quiet (h : Tracks ts es) (hrequest : request (registrations es) e = none)
    (hcancel : ∀ c, e ≠ .cancel c) (hturn : ∀ now, e ≠ .turn now) : Tracks ts (es ++ [e]) := by
  refine ⟨h.sorted, fun u => ?_, fun u hu => ?_⟩
  · rw [h.mem_iff, pending_concat hrequest]
    exact ⟨fun hu => ⟨hu, fun c hc => absurd hc (hcancel c), fun now _ _ he => absurd he (hturn now)⟩,
      fun hu => hu.1⟩
  · rcases happened_concat.mp hu with hu | ⟨now, _, _, he, -, -⟩
    · exact registered_concat.mpr (.inl (h.fired u hu))
    · exact absurd he (hturn now)

lemma Tracks.register (h : Tracks ts es) (hrequest : request (registrations es) e = some t) :
    Tracks (insertValue (fun u => timercmp t.time u.time) t ts) (es ++ [e]) := by
  have hserial := request_serial hrequest
  have hnew : ¬ Registered t es := fun hreg => absurd hreg.serial_lt (by rw [hserial]; exact lt_irrefl _)
  have hne : (∀ c, e ≠ .cancel c) ∧ ∀ now, e ≠ .turn now := by
    constructor
    · rintro c rfl
      cases hrequest
    · rintro now rfl
      cases hrequest
  have hfired : ∀ u, Fired u (es ++ [e]) ↔ Fired u es := by
    intro u
    refine happened_concat.trans (or_iff_left ?_)
    rintro ⟨now, _, _, he, -, -⟩
    exact hne.2 now he
  have hcancelled : ∀ u, Cancelled u (es ++ [e]) ↔ Cancelled u es := by
    intro u
    refine happened_concat.trans (or_iff_left ?_)
    rintro ⟨c, he, -, -⟩
    exact hne.1 c he
  refine ⟨pairwise_insertValue h.sorted ?_ ?_ ?_, fun u => ?_, fun u hu => ?_⟩
  · intro u hu hcmp
    -- the timeouts for the same time were registered before
    have hlt := ((h.mem_iff u).mp hu).registered.serial_lt
    rcases (timercmp_eq_false.mp hcmp).lt_or_eq with hdue | hdue
    · exact .inl hdue
    · exact .inr ⟨hdue, hserial ▸ hlt⟩
  · intro u _ hcmp
    exact .inl (timercmp_iff.mp hcmp)
  · intro u w huw hcmp
    have hdue := timercmp_iff.mp hcmp
    refine timercmp_iff.mpr ?_
    rcases huw with huw | ⟨huw, -⟩
    · exact hdue.trans huw
    · exact hdue.trans_eq huw
  · rw [mem_insertValue, h.mem_iff]
    constructor
    · rintro (rfl | hu)
      · exact ⟨registered_concat.mpr (.inr hrequest), fun hc => hnew ((hcancelled u).mp hc).registered,
          fun hf => hnew (h.fired u ((hfired u).mp hf))⟩
      · exact ⟨registered_concat.mpr (.inl hu.registered), fun hc => hu.not_cancelled ((hcancelled u).mp hc),
          fun hf => hu.not_fired ((hfired u).mp hf)⟩
    · rintro ⟨hreg, hc, hf⟩
      rcases registered_concat.mp hreg with hreg | hreg
      · exact .inr ⟨hreg, fun h' => hc ((hcancelled u).mpr h'), fun h' => hf ((hfired u).mpr h')⟩
      · exact .inl (Option.some.inj (hreg.symm.trans hrequest))
  · exact registered_concat.mpr (.inl (h.fired u ((hfired u).mp hu)))

lemma Tracks.cancel (h : Tracks ts es) (c : Cancel) :
    Tracks (ts.filter (!c.covers ·)) (es ++ [.cancel c]) := by
  refine ⟨h.sorted.filter _, fun u => ?_, fun u hu => ?_⟩
  · rw [List.mem_filter, h.mem_iff, pending_concat rfl]
    simp
  · rcases happened_concat.mp hu with hu | ⟨now, _, _, he, -, -⟩
    · exact registered_concat.mpr (.inl (h.fired u hu))
    · cases he

lemma Tracks.idle (h : Tracks ts es) {now : Timeval} (hl : run step Loop.init es = some l)
    (hidle : ∃ l', tloopRun now l = some (l', none)) : Tracks ts (es ++ [.turn now]) := by
  obtain ⟨l', hidle⟩ := hidle
  have hnone : ∀ u now' k k', Label.turn now = .turn now' → run step Loop.init es = some k →
      tloopRun now' k ≠ some (k', some u) := by
    rintro u _ k k' ⟨⟩ hk hcall
    obtain rfl := Option.some.inj (hl.symm.trans hk)
    cases hidle.symm.trans hcall
  refine ⟨h.sorted, fun u => ?_, fun u hu => ?_⟩
  · rw [h.mem_iff, pending_concat rfl]
    exact ⟨fun hu => ⟨hu, by simp, hnone u⟩, fun hu => hu.1⟩
  · rcases happened_concat.mp hu with hu | ⟨now', k, k', he, hk, hcall⟩
    · exact registered_concat.mpr (.inl (h.fired u hu))
    · exact absurd hcall (hnone u now' k k' he hk)

lemma Tracks.fire (h : Tracks (t :: ts) es) {now : Timeval} {l' : Loop}
    (hl : run step Loop.init es = some l) (hcall : tloopRun now l = some (l', some t)) :
    Tracks ts (es ++ [.turn now]) := by
  obtain ⟨hfirst, hsorted⟩ := List.pairwise_cons.mp h.sorted
  have honly : ∀ u, (∀ now' k k', Label.turn now = .turn now' → run step Loop.init es = some k →
      tloopRun now' k ≠ some (k', some u)) ↔ u ≠ t := by
    intro u
    constructor
    · rintro hno rfl
      exact hno now l l' rfl hl hcall
    · rintro hne _ k k' ⟨⟩ hk hfire
      obtain rfl := Option.some.inj (hl.symm.trans hk)
      cases hcall.symm.trans hfire
      exact hne rfl
  refine ⟨hsorted, fun u => ?_, fun u hu => ?_⟩
  · rw [pending_concat rfl, honly, ← h.mem_iff, List.mem_cons]
    constructor
    · intro hu
      refine ⟨.inr hu, by simp, ?_⟩
      rintro rfl
      exact Before.irrefl u (hfirst u hu)
    · rintro ⟨hu, -, hne⟩
      exact hu.resolve_left hne
  · rcases happened_concat.mp hu with hu | ⟨now', k, k', he, hk, hfire⟩
    · exact registered_concat.mpr (.inl (h.fired u hu))
    · have hut : u = t := by
        by_contra hne
        exact (honly u).mpr hne now' k k' he hk hfire
      rw [hut]
      exact registered_concat.mpr (.inl ((h.mem_iff t).mp List.mem_cons_self).registered)

lemma sweepList_cancel (c : Cancel) (ts : List Timeout) (removed : ℕ) :
    sweepList (cancelVisit c) removed ts =
      some (ts.filter (!c.covers ·), removed + ts.countP c.covers) := by
  induction ts generalizing removed with
  | nil => rfl
  | cons t ts ih =>
    cases hc : c.covers t with
    | true =>
      have hvisit : cancelVisit c removed t = some (removed + 1, t, true) := by simp [cancelVisit, hc]
      rw [sweepList_cons hvisit, ih]
      simp [hc]
      omega
    | false =>
      have hvisit : cancelVisit c removed t = some (removed, t, false) := by simp [cancelVisit, hc]
      rw [sweepList_cons hvisit, ih]
      simp [hc]

end Tracking

section Operations
variable {l : Loop} {es : List Label}

lemma inv_init : Inv [] Loop.init := by
  refine ⟨⟨[], holdsBeside_empty _, List.Pairwise.nil, fun t => ⟨fun h => ?_, fun h => ?_⟩,
    fun t h => absurd h happened_nil⟩, rfl⟩
  · cases h
  · exact absurd h.registered happened_nil

lemma Inv.register (h : Inv es l) (malloc : Bool) (now : Timeval) (secs usecs : UInt32)
    (handler tloopData userData : UInt64) : ∃ l' result,
      tloopRegisterTimeout malloc now secs usecs handler tloopData userData l = some (l', result) ∧
        Inv (es ++ [.register malloc now secs usecs handler tloopData userData]) l' := by
  obtain ⟨ts, hcells, htracks⟩ := h.cells
  cases malloc with
  | false =>
    refine ⟨l, -1, rfl, ⟨ts, hcells, htracks.quiet rfl (by simp) (by simp)⟩, ?_⟩
    rw [registrations_concat, h.registered]
    rfl
  | true =>
    let t : Timeout := ⟨dueTime now secs usecs, handler, tloopData, userData, l.registered⟩
    have hrequest : request (registrations es)
        (.register true now secs usecs handler tloopData userData) = some t := by
      rw [← h.registered]
      rfl
    obtain ⟨heap, head, hins, hcells'⟩ := hcells.insertBefore (fun tmp => timercmp t.time tmp.time) t
    refine ⟨⟨heap, head, l.running, l.registered + 1⟩, 0, ?_, ⟨_, hcells', htracks.register hrequest⟩, ?_⟩
    · rw [tloopRegisterTimeout, if_pos rfl]
      exact congrArg (Option.map _) hins
    · rw [registrations_concat, ← h.registered]
      rfl

lemma Inv.cancel (h : Inv es l) (c : Cancel) :
    ∃ l' removed, tloopCancelTimeout c l = some (l', removed) ∧ Inv (es ++ [.cancel c]) l' := by
  obtain ⟨ts, hcells, htracks⟩ := h.cells
  obtain ⟨heap, head, hsweep, hcells'⟩ := hcells.sweep (sweepList_cancel c ts 0)
  refine ⟨⟨heap, head, l.running, l.registered⟩, 0 + ts.countP c.covers, ?_,
    ⟨_, hcells', htracks.cancel c⟩, ?_⟩
  · rw [tloopCancelTimeout, hsweep, Option.map_some]
  · rw [registrations_concat, ← h.registered]
    rfl

lemma tloopRun_cases {ts : List Timeout} (hcells : HoldsBeside l.heap l.timeout ts l.running)
    (now : Timeval) :
    (tloopRun now l = some (l, none) ∧ ∀ t ∈ ts.head?, now.micros < t.time.micros) ∨
      ∃ t rest l', ts = t :: rest ∧ t.time.micros ≤ now.micros ∧ tloopRun now l = some (l', some t) ∧
        HoldsBeside l'.heap l'.timeout rest l'.running ∧ l'.registered = l.registered := by
  cases hhead : l.timeout with
  | none =>
    rw [hhead] at hcells
    left
    rw [hcells.holds.nil_iff.mp rfl]
    exact ⟨by simp [tloopRun, hhead], by simp⟩
  | some a =>
    cases ts with
    | nil =>
      rw [hcells.holds.nil_iff.mpr rfl] at hhead
      cases hhead
    | cons t ts =>
      rw [hhead] at hcells
      obtain ⟨n, hc, hrest⟩ := hcells.takeFirst
      cases hdue : timercmp now t.time with
      | true =>
        refine .inl ⟨by simp [tloopRun, hhead, hc, hdue], ?_⟩
        simpa using timercmp_iff.mp hdue
      | false =>
        refine .inr ⟨t, ts, ⟨l.heap, n, a :: l.running, l.registered⟩, rfl, timercmp_eq_false.mp hdue,
          ?_, hrest, rfl⟩
        simp [tloopRun, hhead, hc, hdue]

lemma Inv.turn (h : Inv es l) (hl : run step Loop.init es = some l) (now : Timeval) :
    ∃ l' call, tloopRun now l = some (l', call) ∧ Inv (es ++ [.turn now]) l' := by
  obtain ⟨ts, hcells, htracks⟩ := h.cells
  have hcount : registrations (es ++ [.turn now]) = registrations es := by
    rw [registrations_concat]
    rfl
  rcases tloopRun_cases hcells now with ⟨hidle, -⟩ | ⟨t, rest, l', rfl, -, hcall, hcells', hreg⟩
  · exact ⟨l, none, hidle, ⟨ts, hcells, htracks.idle hl ⟨l, hidle⟩⟩, hcount ▸ h.registered⟩
  · exact ⟨l', some t, hcall, ⟨rest, hcells', htracks.fire hl hcall⟩, by rw [hreg, hcount, h.registered]⟩

lemma Inv.handlerReturns (h : Inv es l) :
    ∃ l', handlerReturns l = some l' ∧ Inv (es ++ [.handlerReturns]) l' := by
  obtain ⟨ts, hcells, htracks⟩ := h.cells
  have htracks' : Tracks ts (es ++ [.handlerReturns]) := htracks.quiet rfl (by simp) (by simp)
  have hcount : registrations (es ++ [.handlerReturns]) = registrations es := by
    rw [registrations_concat]
    rfl
  cases hrun : l.running with
  | nil =>
    exact ⟨l, by simp [EventLoop.handlerReturns, hrun], ⟨ts, hcells, htracks'⟩, hcount ▸ h.registered⟩
  | cons a outer =>
    rw [hrun] at hcells
    obtain ⟨heap, hfree, hcells'⟩ := hcells.free
    refine ⟨⟨heap, l.timeout, outer, l.registered⟩, ?_, ⟨ts, hcells', htracks'⟩, hcount ▸ h.registered⟩
    simp [EventLoop.handlerReturns, hrun, hfree]

lemma Inv.step (h : Inv es l) (hl : run step Loop.init es = some l) (e : Label) :
    ∃ l', step l e = some l' ∧ Inv (es ++ [e]) l' := by
  cases e with
  | register malloc now secs usecs handler tloopData userData =>
    obtain ⟨l', result, hreg, hinv⟩ := h.register malloc now secs usecs handler tloopData userData
    exact ⟨l', by simp [EventLoop.step, hreg], hinv⟩
  | cancel c =>
    obtain ⟨l', removed, hcancel, hinv⟩ := h.cancel c
    exact ⟨l', by simp [EventLoop.step, hcancel], hinv⟩
  | turn now =>
    obtain ⟨l', call, hturn, hinv⟩ := h.turn hl now
    exact ⟨l', by simp [EventLoop.step, hturn], hinv⟩
  | handlerReturns => exact h.handlerReturns

lemma selectTime_eq {ts : List Timeout} (hcells : HoldsBeside l.heap l.timeout ts l.running)
    (now : Timeval) : ∃ tv, selectTime now l = some tv ∧
      tv.map Timeval.micros = ts.head?.map fun t => t.time.micros - now.micros := by
  cases hhead : l.timeout with
  | none =>
    rw [hhead] at hcells
    rw [hcells.holds.nil_iff.mp rfl]
    exact ⟨none, by simp [selectTime, hhead], rfl⟩
  | some a =>
    cases ts with
    | nil =>
      rw [hcells.holds.nil_iff.mpr rfl] at hhead
      cases hhead
    | cons t ts =>
      rw [hhead] at hcells
      obtain ⟨n, hc, -⟩ := hcells.takeFirst
      refine ⟨some (if timercmp now t.time then timersub t.time now else ⟨0, 0, Nat.zero_lt_succ _⟩),
        by simp only [selectTime, hhead, hc, Option.map_some], ?_⟩
      rw [Option.map_some, List.head?_cons, Option.map_some, Option.some_inj]
      split
      · rename_i hcmp
        exact timersub_micros (timercmp_iff.mp hcmp)
      · rename_i hcmp
        rw [Bool.not_eq_true, timercmp_eq_false] at hcmp
        exact (Nat.sub_eq_zero_of_le hcmp).symm

end Operations

/-- Whatever calls are made in whatever order, and whatever the clock says: the list holds the timeouts that
are registered, not cancelled since and not fired, sorted by their due times, those for one time as they
were registered. A turn calls the handler of the first of them if that is due, and no other; `select` waits
at most until then. -/
theorem timeouts_fire_in_order (es : List Label) :
    ∃ l, run step Loop.init es = some l ∧
      (∃ ts, Holds l.heap l.timeout ts ∧ ts.Pairwise Before ∧ ∀ t, t ∈ ts ↔ Pending es t) ∧
      (∀ before now secs usecs handler tloopData userData after,
        es = before ++ .register true now secs usecs handler tloopData userData :: after →
          ∃ time, Registered ⟨time, handler, tloopData, userData, registrations before⟩ es ∧
            time.micros = now.micros + secs.toNat * 1000000 + usecs.toNat) ∧
      ∀ now, ∃ l' call, tloopRun now l = some (l', call) ∧
        (∀ t, call = some t → t.time.micros ≤ now.micros ∧ Pending es t ∧
          ∀ u, Pending es u → u ≠ t → Before t u) ∧
        (call = none → ∀ u, Pending es u → now.micros < u.time.micros) ∧
        ∃ tv, selectTime now l = some tv ∧
          ∀ u, Pending es u → ∃ w, tv = some w ∧ w.micros ≤ u.time.micros - now.micros := by
  obtain ⟨l, hrun, hinv⟩ := run_total_along inv_init (fun es l e hl h => h.step hl e) es
  obtain ⟨ts, hcells, htracks⟩ := hinv.cells
  refine ⟨l, hrun, ⟨ts, hcells.holds, htracks.sorted, htracks.mem_iff⟩, ?_, fun now => ?_⟩
  · rintro before now secs usecs handler tloopData userData after rfl
    exact ⟨dueTime now secs usecs, ⟨before, _, after, rfl, rfl⟩, dueTime_micros now secs usecs⟩
  obtain ⟨tv, htv, hmicros⟩ := selectTime_eq hcells now
  have hselect : ∀ u, Pending es u → ∃ w, tv = some w ∧ w.micros ≤ u.time.micros - now.micros := by
    intro u hu
    obtain ⟨t, ht, hle, -⟩ := htracks.first hu
    rw [Option.mem_def.mp ht, Option.map_some] at hmicros
    obtain ⟨w, rfl, hw⟩ := Option.map_eq_some_iff.mp hmicros
    exact ⟨w, rfl, by omega⟩
  rcases tloopRun_cases hcells now with ⟨hidle, hlate⟩ | ⟨t, rest, l', rfl, hdue, hcall, -, -⟩
  · refine ⟨l, none, hidle, by simp, fun _ u hu => ?_, tv, htv, hselect⟩
    obtain ⟨t, ht, hle, -⟩ := htracks.first hu
    exact (hlate t ht).trans_le hle
  · refine ⟨l', some t, hcall, ?_, by simp, tv, htv, hselect⟩
    rintro t' ⟨⟩
    refine ⟨hdue, (htracks.mem_iff t).mp List.mem_cons_self, fun u hu hne => ?_⟩
    obtain ⟨t', ht', -, hbefore⟩ := htracks.first hu
    cases ht'
    exact hbefore hne

def seconds (sec : ℕ) : Timeval := ⟨sec, 0, by decide⟩

/-- Two timeouts for one second and for two, of which the first is cancelled. -/
def oneCancelled : List Label :=
  [.register true (seconds 0) 1 0 7 0 0, .register true (seconds 0) 2 0 8 0 0, .cancel ⟨7, 0, tloopAllCtx⟩]

theorem cancelled_and_fired :
    Cancelled ⟨seconds 1, 7, 0, 0, 0⟩ oneCancelled ∧ Pending oneCancelled ⟨seconds 2, 8, 0, 0, 1⟩ ∧
      ∃ l l', run step Loop.init oneCancelled = some l ∧
        tloopRun (seconds 5) l = some (l', some ⟨seconds 2, 8, 0, 0, 1⟩) := by
  obtain ⟨l, hrun, -, -, hturn⟩ := timeouts_fire_in_order oneCancelled
  obtain ⟨l', call, hcall, hfired, -⟩ := hturn (seconds 5)
  have hsecond : (run step Loop.init oneCancelled).bind (fun l => (tloopRun (seconds 5) l).map Prod.snd) =
      some (some ⟨seconds 2, 8, 0, 0, 1⟩) := rfl
  rw [hrun, Option.bind_some, hcall, Option.map_some, Option.some_inj] at hsecond
  obtain rfl : call = _ := hsecond
  refine ⟨⟨oneCancelled.take 2, _, [], rfl, _, rfl, ?_, rfl⟩, (hfired _ rfl).2.1, l, l', hrun, hcall⟩
  exact ⟨[], _, _, rfl, rfl⟩

end LdapTgen.EventLoop
