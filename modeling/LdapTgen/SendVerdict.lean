import LdapTgen.RadiusRetries

/-! The return code of `send_packet` with its two sources of failure, for both values of `quietOnError`:
the packets carry their identifier and whether `rad_decode` succeeds on them. The callers pass a NULL
reply. -/
namespace LdapTgen.SendVerdict
open RadiusClient

structure Packet where
  id : ℤ
  decodes : Bool
  deriving DecidableEq, Repr

def Packet.answers (id : ℤ) (p : Packet) : Bool := p.id % 256 = id % 256

/-- What `select` gives, and the packets that `rad_recv` then reads until it fails. -/
inductive Event
  | error
  | timeout
  | packets (ps : List Packet)
  deriving DecidableEq, Repr

structure Wait where
  rep : Option Packet
  rc : ℕ
  deriving DecidableEq, Repr

/-- From `wait_again` on. A read that fails sets the return code, which nothing resets. -/
def awaitReply (quietOnError : Bool) (id : ℤ) : List Event → ℕ → Option Wait
  | [], _ => none
  | .error :: _, rc | .timeout :: _, rc => some ⟨none, rc⟩
  | .packets ps :: es, rc =>
      match ps.find? (·.answers id) with
      | some p => some ⟨some p, rc⟩
      | none => awaitReply quietOnError id es (if quietOnError then rc else 1)

structure Verdict where
  retries : ℕ
  rep : Option Packet
  rc : ℕ
  deriving DecidableEq, Repr

def sendLoop (quietOnError : Bool) (id : ℤ) (events : ℕ → List Event) : ℕ → ℕ → ℕ → Option Verdict
  | 0, i, rc => some ⟨i, none, rc⟩
  | n + 1, i, rc => do
      let w ← awaitReply quietOnError id (events i) rc
      if w.rep.isSome then some ⟨i, w.rep, w.rc⟩
      else sendLoop quietOnError id events n (i + 1) w.rc

/-- The end of `send_packet`. -/
def decodeReply (quietOnError : Bool) (v : Verdict) : Verdict :=
  match v.rep with
  | none => { v with rc := 1 }
  | some p => if !p.decodes && !quietOnError then { v with rc := 1 } else v

def sendPacket (conf : Conf) (quietOnError : Bool) (id : ℤ) (events : ℕ → List Event) : Option Verdict :=
  (sendLoop quietOnError id events conf.tcRadiusRetries.toNat 0 0).map (decodeReply quietOnError)

def reply (id : ℤ) : List Event → Option (Option Packet)
  | [] => none
  | .error :: _ | .timeout :: _ => some none
  | .packets ps :: es =>
      match ps.find? (·.answers id) with
      | some p => some (some p)
      | none => reply id es

def missed (id : ℤ) : List Event → Bool
  | .packets ps :: _ => (ps.find? (·.answers id)).isNone
  | _ => false

structure Arrives (id : ℤ) (events : ℕ → List Event) (k : ℕ) (p : Packet) : Prop where
  before : ∀ j < k, reply id (events j) = some none
  now : reply id (events k) = some (some p)

def Answered (conf : Conf) (id : ℤ) (events : ℕ → List Event) : Prop :=
  ∃ k < conf.tcRadiusRetries.toNat, ∃ p, Arrives id events k p ∧ p.decodes

/-- The verdict does not depend on the flag, and it is 0 for a request with a decoded answer only. -/
structure VerdictRight (conf : Conf) (id : ℤ) (events : ℕ → List Event) : Prop where
  quiet : sendPacket conf true id events = sendPacket conf false id events
  zero : ∀ quietOnError v, sendPacket conf quietOnError id events = some v →
    (v.rc = 0 ↔ Answered conf id events)

section Wait
variable {quietOnError : Bool} {id : ℤ} {es : List Event}

def rcAfter (quietOnError failed : Bool) (rc : ℕ) : ℕ := if failed && !quietOnError then 1 else rc

@[simp] lemma rcAfter_quiet (failed : Bool) (rc : ℕ) : rcAfter true failed rc = rc := by simp [rcAfter]

@[simp] lemma rcAfter_false (rc : ℕ) : rcAfter quietOnError false rc = rc := rfl

lemma rcAfter_rcAfter (a b : Bool) (rc : ℕ) :
    rcAfter quietOnError a (rcAfter quietOnError b rc) = rcAfter quietOnError (b || a) rc := by
  cases quietOnError <;> cases a <;> cases b <;> rfl

lemma awaitReply_eq (rc : ℕ) :
    awaitReply quietOnError id es rc =
      (reply id es).map fun rep => ⟨rep, rcAfter quietOnError (missed id es) rc⟩ := by
  induction es generalizing rc with
  | nil => rfl
  | cons e es ih =>
    cases e with
    | error => rfl
    | timeout => rfl
    | packets ps =>
      cases hfind : ps.find? (·.answers id) with
      | some p => simp [awaitReply, reply, missed, hfind]
      | none =>
        -- the next reads fail with the code already set
        have hcode : (if quietOnError then rc else 1) = rcAfter quietOnError true rc := by
          cases quietOnError <;> rfl
        simp [awaitReply, reply, missed, hfind, ih, hcode, rcAfter_rcAfter]

end Wait

section Loop
variable {quietOnError : Bool} {id : ℤ} {events : ℕ → List Event} {n i k : ℕ} {p : Packet}

lemma sendLoop_of_none (rc : ℕ) (h : reply id (events i) = some none) :
    sendLoop quietOnError id events (n + 1) i rc =
      sendLoop quietOnError id events n (i + 1) (rcAfter quietOnError (missed id (events i)) rc) := by
  simp [sendLoop, awaitReply_eq, h]

lemma sendLoop_of_some (rc : ℕ) (h : reply id (events i) = some (some p)) :
    sendLoop quietOnError id events (n + 1) i rc =
      some ⟨i, some p, rcAfter quietOnError (missed id (events i)) rc⟩ := by
  simp [sendLoop, awaitReply_eq, h]

lemma sendLoop_of_endless (rc : ℕ) (h : reply id (events i) = none) :
    sendLoop quietOnError id events (n + 1) i rc = none := by
  simp [sendLoop, awaitReply_eq, h]

lemma sendLoop_arrives (rc : ℕ) (hle : i ≤ k) (hlt : k < i + n) (harr : Arrives id events k p) :
    sendLoop quietOnError id events n i rc = some ⟨k, some p,
      rcAfter quietOnError ((List.range' i (k + 1 - i)).any fun j => missed id (events j)) rc⟩ := by
  induction n generalizing i rc with
  | zero => omega
  | succ n ih =>
    rcases Nat.eq_or_lt_of_le hle with rfl | hik
    · rw [sendLoop_of_some rc harr.now]
      simp
    · have hrange : List.range' i (k + 1 - i) = i :: List.range' (i + 1) (k + 1 - (i + 1)) := by
        rw [show k + 1 - i = (k + 1 - (i + 1)) + 1 by omega, List.range'_succ]
      rw [sendLoop_of_none rc (harr.before i hik), ih _ hik (by omega), rcAfter_rcAfter, hrange,
        List.any_cons]

lemma sendLoop_unanswered (quietOnError : Bool) (n i rc : ℕ)
    (h : ∀ j, i ≤ j → j < i + n → reply id (events j) = some none) :
    ∃ rc', sendLoop quietOnError id events n i rc = some ⟨i + n, none, rc'⟩ := by
  induction n generalizing i rc with
  | zero => exact ⟨rc, rfl⟩
  | succ n ih =>
    rw [sendLoop_of_none rc (h i le_rfl (by omega)), show i + (n + 1) = i + 1 + n by omega]
    exact ih _ _ fun j hij hj => h j (by omega) (by omega)

lemma sendLoop_endless (rc : ℕ) (hle : i ≤ k) (hlt : k < i + n)
    (hbefore : ∀ j < k, reply id (events j) = some none) (hnow : reply id (events k) = none) :
    sendLoop quietOnError id events n i rc = none := by
  induction n generalizing i rc with
  | zero => omega
  | succ n ih =>
    rcases Nat.eq_or_lt_of_le hle with rfl | hik
    · exact sendLoop_of_endless rc hnow
    · rw [sendLoop_of_none rc (hbefore i hik)]
      exact ih _ hik (by omega)

lemma attempts_cases (id : ℤ) (events : ℕ → List Event) (n : ℕ) :
    (∀ j < n, reply id (events j) = some none) ∨
      ∃ k < n, (∀ j < k, reply id (events j) = some none) ∧
        (reply id (events k) = none ∨ ∃ p, reply id (events k) = some (some p)) := by
  by_cases hall : ∀ j < n, reply id (events j) = some none
  · exact .inl hall
  · push Not at hall
    obtain ⟨hk, hne⟩ := Nat.find_spec hall
    refine .inr ⟨Nat.find hall, hk, fun j hj => ?_, ?_⟩
    · by_contra hneg
      exact Nat.find_min hall hj ⟨hj.trans hk, hneg⟩
    · cases hrep : reply id (events (Nat.find hall)) with
      | none => exact .inl rfl
      | some rep =>
        cases rep with
        | none => exact absurd hrep hne
        | some p => exact .inr ⟨p, rfl⟩

end Loop

section Packet
variable {conf : Conf} {id : ℤ} {events : ℕ → List Event} {k : ℕ} {p : Packet}

def failedUpTo (id : ℤ) (events : ℕ → List Event) (k : ℕ) : Bool :=
  (List.range' 0 (k + 1)).any fun j => missed id (events j)

lemma failedUpTo_eq_false_iff :
    failedUpTo id events k = false ↔ ∀ j ≤ k, missed id (events j) = false := by
  simp [failedUpTo]

lemma sendPacket_arrives (quietOnError : Bool) (hk : k < conf.tcRadiusRetries.toNat)
    (harr : Arrives id events k p) :
    sendPacket conf quietOnError id events = some ⟨k, some p,
      rcAfter quietOnError (failedUpTo id events k || !p.decodes) 0⟩ := by
  rw [sendPacket, sendLoop_arrives 0 (Nat.zero_le k) (by omega) harr, Option.map_some, Nat.sub_zero,
    ← failedUpTo]
  cases hd : p.decodes <;> cases quietOnError <;> simp [decodeReply, hd, rcAfter]

lemma sendPacket_unanswered (quietOnError : Bool)
    (h : ∀ j < conf.tcRadiusRetries.toNat, reply id (events j) = some none) :
    sendPacket conf quietOnError id events = some ⟨conf.tcRadiusRetries.toNat, none, 1⟩ := by
  obtain ⟨rc, hrc⟩ := sendLoop_unanswered quietOnError conf.tcRadiusRetries.toNat 0 0
    fun j _ hj => h j (by omega)
  rw [sendPacket, hrc, Option.map_some, decodeReply, Nat.zero_add]

lemma sendPacket_endless (quietOnError : Bool) (hk : k < conf.tcRadiusRetries.toNat)
    (hbefore : ∀ j < k, reply id (events j) = some none) (hnow : reply id (events k) = none) :
    sendPacket conf quietOnError id events = none := by
  rw [sendPacket, sendLoop_endless 0 (Nat.zero_le k) (by omega) hbefore hnow, Option.map_none]

end Packet

section Refinement
variable {id : ℤ}

def Event.wait : Event → RadiusRetries.Wait
  | .error => .error
  | .timeout => .timeout
  | .packets ps => .packets (ps.map fun p => UInt8.ofInt p.id)

lemma ofInt_eq_iff (a b : ℤ) : UInt8.ofInt a = UInt8.ofInt b ↔ a % 256 = b % 256 := by
  unfold UInt8.ofInt
  rw [← UInt8.toNat_inj, UInt8.toNat_ofNat', UInt8.toNat_ofNat']
  omega

/-- With the flag left out and the packets reduced to their identifiers this is the loop that only
counts. -/
lemma reply_refines (id : ℤ) (es : List Event) :
    (reply id es).map Option.isSome = RadiusRetries.awaitReply (UInt8.ofInt id) (es.map Event.wait) := by
  induction es with
  | nil => rfl
  | cons e es ih =>
    cases e with
    | error => rfl
    | timeout => rfl
    | packets ps =>
      have hmem : UInt8.ofInt id ∈ ps.map (fun p => UInt8.ofInt p.id) ↔
          (ps.find? (·.answers id)).isSome := by
        simp [ofInt_eq_iff, Packet.answers]
      cases hfind : ps.find? (·.answers id) with
      | some p => simp [reply, hfind, Event.wait, RadiusRetries.awaitReply, hmem.mpr]
      | none => simp [reply, hfind, Event.wait, RadiusRetries.awaitReply, hmem, ih]

lemma sendLoop_refines (quietOnError : Bool) (events : ℕ → List Event) (n i rc sent : ℕ) :
    (sendLoop quietOnError id events n i rc).map (fun v => (v.retries, v.rep.isSome)) =
      (RadiusRetries.sendLoop (UInt8.ofInt id) (fun i => (events i).map Event.wait) n i sent).map
        fun o => (o.retries, o.replied) := by
  induction n generalizing i rc sent with
  | zero => rfl
  | succ n ih =>
    have hrep := reply_refines id (events i)
    cases hwait : reply id (events i) with
    | none =>
      rw [hwait] at hrep
      simp [sendLoop_of_endless rc hwait, RadiusRetries.sendLoop, ← hrep]
    | some rep =>
      cases rep with
      | none =>
        rw [hwait] at hrep
        simp [sendLoop_of_none rc hwait, RadiusRetries.sendLoop, ← hrep, ih _ _ (sent + 1)]
      | some p =>
        rw [hwait] at hrep
        simp [sendLoop_of_some rc hwait, RadiusRetries.sendLoop, ← hrep]

end Refinement

section Verdict
variable {conf : Conf} {id : ℤ} {events : ℕ → List Event} {k : ℕ} {p : Packet}

lemma Arrives.unique {l : ℕ} {q : Packet} (hp : Arrives id events k p) (hq : Arrives id events l q) :
    k = l ∧ p = q := by
  obtain rfl : k = l := by
    rcases Nat.lt_trichotomy k l with hlt | heq | hgt
    · cases hp.now.symm.trans (hq.before k hlt)
    · exact heq
    · cases hq.now.symm.trans (hp.before l hgt)
  exact ⟨rfl, by simpa using hp.now.symm.trans hq.now⟩

lemma Arrives.answered_iff (hk : k < conf.tcRadiusRetries.toNat) (harr : Arrives id events k p) :
    Answered conf id events ↔ p.decodes := by
  constructor
  · rintro ⟨l, -, q, hq, hd⟩
    obtain ⟨-, rfl⟩ := harr.unique hq
    exact hd
  · intro hd
    exact ⟨k, hk, p, harr, hd⟩

lemma not_arrives (h : ∀ j < conf.tcRadiusRetries.toNat, reply id (events j) = some none)
    (hk : k < conf.tcRadiusRetries.toNat) : ¬ Arrives id events k p := by
  intro harr
  cases harr.now.symm.trans (h k hk)

lemma rcAfter_loud_eq_zero_iff (failed : Bool) : rcAfter false failed 0 = 0 ↔ failed = false := by
  cases failed <;> simp [rcAfter]

lemma Arrives.verdictRight_iff (hk : k < conf.tcRadiusRetries.toNat) (harr : Arrives id events k p) :
    VerdictRight conf id events ↔ p.decodes ∧ ∀ j ≤ k, missed id (events j) = false := by
  have hquiet := sendPacket_arrives true hk harr
  have hloud := sendPacket_arrives false hk harr
  rw [rcAfter_quiet] at hquiet
  have hclean : (failedUpTo id events k || !p.decodes) = false ↔
      p.decodes ∧ ∀ j ≤ k, missed id (events j) = false := by
    rw [Bool.or_eq_false_iff, failedUpTo_eq_false_iff, Bool.not_eq_false', and_comm]
  rw [← hclean]
  constructor
  · intro h
    have hrc := h.quiet
    rw [hquiet, hloud] at hrc
    simp only [Option.some.injEq, Verdict.mk.injEq, true_and] at hrc
    exact (rcAfter_loud_eq_zero_iff _).mp hrc.symm
  · intro hno
    rw [hno, rcAfter_false] at hloud
    refine ⟨hquiet.trans hloud.symm, fun quietOnError v hv => ?_⟩
    rw [harr.answered_iff hk]
    have hv0 : v.rc = 0 := by
      cases quietOnError with
      | true =>
        rw [hquiet] at hv
        cases hv
        rfl
      | false =>
        rw [hloud] at hv
        cases hv
        rfl
    exact ⟨fun _ => (hclean.mp hno).1, fun _ => hv0⟩

lemma verdictRight_of_unanswered
    (h : ∀ j < conf.tcRadiusRetries.toNat, reply id (events j) = some none) :
    VerdictRight conf id events where
  quiet := (sendPacket_unanswered true h).trans (sendPacket_unanswered false h).symm
  zero quietOnError v hv := by
    rw [sendPacket_unanswered quietOnError h] at hv
    cases hv
    constructor
    · intro hrc
      cases hrc
    · rintro ⟨k, hk, p, harr, -⟩
      exact absurd harr (not_arrives h hk)

lemma verdictRight_of_endless (hk : k < conf.tcRadiusRetries.toNat)
    (hbefore : ∀ j < k, reply id (events j) = some none) (hnow : reply id (events k) = none) :
    VerdictRight conf id events where
  quiet := (sendPacket_endless true hk hbefore hnow).trans
    (sendPacket_endless false hk hbefore hnow).symm
  zero quietOnError v hv := by
    rw [sendPacket_endless quietOnError hk hbefore hnow] at hv
    cases hv

lemma Arrives.not_endless {l : ℕ} (harr : Arrives id events l p)
    (hbefore : ∀ j < k, reply id (events j) = some none) (hnow : reply id (events k) = none) : False := by
  rcases Nat.lt_trichotomy k l with hlt | heq | hgt
  · cases hnow.symm.trans (harr.before k hlt)
  · subst heq
    cases hnow.symm.trans harr.now
  · cases harr.now.symm.trans (hbefore l hgt)

end Verdict

/-- The reply and the retry count never depend on the flag. The return code does not, and is right,
exactly when no packet is accepted, or the one that is can be decoded and no read failed before it. -/
theorem verdict_quiet_iff (conf : Conf) (id : ℤ) (events : ℕ → List Event) :
    (sendPacket conf true id events).map (fun v => (v.retries, v.rep)) =
        (sendPacket conf false id events).map (fun v => (v.retries, v.rep)) ∧
      (VerdictRight conf id events ↔
        ∀ k < conf.tcRadiusRetries.toNat, ∀ p, Arrives id events k p →
          p.decodes ∧ ∀ j ≤ k, missed id (events j) = false) := by
  rcases attempts_cases id events conf.tcRadiusRetries.toNat with
    hnone | ⟨k, hk, hbefore, hend | ⟨p, hp⟩⟩
  · refine ⟨?_, fun _ k hk p harr => absurd harr (not_arrives hnone hk),
      fun _ => verdictRight_of_unanswered hnone⟩
    rw [sendPacket_unanswered true hnone, sendPacket_unanswered false hnone]
  · refine ⟨?_, fun _ l _ p harr => (harr.not_endless hbefore hend).elim,
      fun _ => verdictRight_of_endless hk hbefore hend⟩
    rw [sendPacket_endless true hk hbefore hend, sendPacket_endless false hk hbefore hend]
  · have harr : Arrives id events k p := ⟨hbefore, hp⟩
    refine ⟨?_, ?_⟩
    · rw [sendPacket_arrives true hk harr, sendPacket_arrives false hk harr]
      rfl
    · rw [harr.verdictRight_iff hk]
      constructor
      · intro h l _ q hq
        obtain ⟨rfl, rfl⟩ := harr.unique hq
        exact h
      · intro h
        exact h k hk p harr

/-- An unreadable packet before the answer: only with the flag set is the request counted as answered. An
answer that cannot be decoded is reported as a success then. -/
theorem quiet_request_succeeds :
    sendPacket ⟨1, 1, [], []⟩ false 7 (fun _ => [.packets [], .packets [⟨7, true⟩]]) =
        some ⟨0, some ⟨7, true⟩, 1⟩ ∧
      sendPacket ⟨1, 1, [], []⟩ true 7 (fun _ => [.packets [], .packets [⟨7, true⟩]]) =
        some ⟨0, some ⟨7, true⟩, 0⟩ ∧
      sendPacket ⟨1, 1, [], []⟩ true 7 (fun _ => [.packets [⟨7, false⟩]]) =
        some ⟨0, some ⟨7, false⟩, 0⟩ := by
  decide

end LdapTgen.SendVerdict
