import LdapTgen.GenericControls
import LdapTgen.LabelledRun
import LdapTgen.UserData

/-! The Acct-Session-Id of accounting requests. A Start makes a new one and stores it in the user;
the requests that follow send what was stored. -/
namespace LdapTgen.SessionIds
open LabelledRun LdapControls UserData

inductive StatusType
  | start
  | interim
  | stop
  | on
  | off
  deriving DecidableEq, Repr

def StatusType.inSession : StatusType → Bool
  | .interim | .stop => true
  | _ => false

structure Sent where
  relocation : Bool
  statusType : StatusType
  acctSessionId : List UInt8
  deriving DecidableEq, Repr

/-- `sessionId` is the counter that all users share; the requests sent come newest first. -/
structure State where
  sessionId : UInt32
  stored : Bool → Field 32
  sent : List Sent

def State.init (sessionId : UInt32) (stored : Bool → Field 32) : State := ⟨sessionId, stored, []⟩

/-- An accounting request of the user, with its random vector, or one of another user that takes a
number. -/
inductive Label
  | request (relocation : Bool) (statusType : StatusType) (vector : Vector UInt8 16)
  | other
  deriving DecidableEq

def hexDigit (n : ℕ) : Char := if n < 10 then Char.ofNat (48 + n) else Char.ofNat (55 + n)

def printHex (b : UInt8) : Text := [hexDigit (b.toNat / 16), hexDigit (b.toNat % 16)]

def uniqueId (vector : Vector UInt8 16) : Text :=
  (vector.toList.take 5).flatMap fun b => printHex (if b ≠ 0 then b else 0xEA)

/-- `%d` takes the counter for a signed number. -/
def textSessionId (vector : Vector UInt8 16) (sessionId : UInt32) : Text :=
  "Tgen".toList ++ uniqueId vector ++ "_Session_".toList ++ printInt sessionId.toInt32.toInt

def newSessionId (tcRadiusSessIdBinary : Bool) (vector : Vector UInt8 16) (sessionId : UInt32) :
    List UInt8 :=
  if tcRadiusSessIdBinary then vector.toList
  else (textSessionId vector sessionId).map fun c => UInt8.ofNat c.toNat

/-- The Acct-Session-Id part of `tRadius_accountRq`. -/
def accountRq (tcRadiusSessIdBinary : Bool) (s : State) (relocation : Bool)
    (statusType : StatusType) (vector : Vector UInt8 16) : State :=
  if (s.stored relocation).bytes.length ≠ 0 ∧ statusType ≠ .start then
    { s with sent := ⟨relocation, statusType, (s.stored relocation).bytes⟩ :: s.sent }
  else
    let id := newSessionId tcRadiusSessIdBinary vector s.sessionId
    { sessionId := if tcRadiusSessIdBinary then s.sessionId else s.sessionId + 1
      stored := Function.update s.stored relocation (.ofBytes id)
      sent := ⟨relocation, statusType, id⟩ :: s.sent }

def step (tcRadiusSessIdBinary : Bool) (s : State) : Label → Option State
  | .request relocation statusType vector =>
      some (accountRq tcRadiusSessIdBinary s relocation statusType vector)
  | .other => some { s with sessionId := s.sessionId + 1 }

/-- The Acct-Session-Id of the most recent Start with this relocation flag. -/
def lastStart (relocation : Bool) : List Sent → Option (List UInt8)
  | [] => none
  | x :: sent =>
      if x.statusType = .start ∧ x.relocation = relocation then some x.acctSessionId
      else lastStart relocation sent

/-- Every Interim or Stop has the Acct-Session-Id of the last Start before it. -/
def OneSessionId : List Sent → Prop
  | [] => True
  | x :: sent =>
      (x.statusType.inSession → ∀ id ∈ lastStart x.relocation sent, x.acctSessionId = id) ∧
        OneSessionId sent

/-- An Interim or a Stop comes after a Start whose Acct-Session-Id can be stored whole. -/
def Replayable (s : State) : Label → Prop
  | .request relocation statusType _ =>
      statusType.inSession → ∀ id ∈ lastStart relocation s.sent, id.length ≤ 32
  | .other => True

section Identifiers
variable (binary : Bool) (vector : Vector UInt8 16) (sessionId : UInt32)

lemma uniqueId_length : (uniqueId vector).length = 10 := by
  simp [uniqueId, printHex]

lemma textSessionId_length :
    (textSessionId vector sessionId).length = 23 + (printInt sessionId.toInt32.toInt).length := by
  have hTgen : "Tgen".toList.length = 4 := rfl
  have hSession : "_Session_".toList.length = 9 := rfl
  -- the equation of the definition would evaluate the texts
  delta textSessionId
  simp only [List.length_append, uniqueId_length, hTgen, hSession]

lemma newSessionId_length : (newSessionId binary vector sessionId).length =
    if binary then 16 else 23 + (printInt sessionId.toInt32.toInt).length := by
  cases binary with
  | false =>
    simp only [newSessionId, Bool.false_eq_true, if_false, List.length_map, textSessionId_length]
  | true => simp [newSessionId]

lemma newSessionId_ne_nil : newSessionId binary vector sessionId ≠ [] := by
  rw [← List.length_pos_iff, newSessionId_length]
  split <;> omega

end Identifiers

def StoredStart (s : State) : Prop :=
  ∀ relocation, ∀ id ∈ lastStart relocation s.sent,
    id ≠ [] ∧ s.stored relocation = .ofBytes id

section Steps
variable {binary : Bool} {s t : State}

lemma stored_length_ne_zero {relocation : Bool} {id : List UInt8} (hs : StoredStart s)
    (hid : id ∈ lastStart relocation s.sent) : (s.stored relocation).bytes.length ≠ 0 := by
  obtain ⟨hne, hst⟩ := hs relocation id hid
  rw [hst]
  simpa [Field.ofBytes] using hne

lemma accountRq_storedStart (hs : StoredStart s) (relocation : Bool) (statusType : StatusType)
    (vector : Vector UInt8 16) : StoredStart (accountRq binary s relocation statusType vector) := by
  intro r id hid
  rw [accountRq] at hid ⊢
  split at hid
  next hreplay =>
    rw [if_pos hreplay]
    rw [lastStart, if_neg (by simp [hreplay.2])] at hid
    exact hs r id hid
  next hreplay =>
    rw [if_neg hreplay]
    by_cases hr : relocation = r
    · subst hr
      by_cases hstart : statusType = .start
      · simp only [lastStart, hstart, and_self, if_true, Option.mem_some_iff] at hid
        subst hid
        exact ⟨newSessionId_ne_nil _ _ _, Function.update_self ..⟩
      · -- there is no Start before it, since nothing was stored
        rw [lastStart, if_neg (by simp [hstart])] at hid
        exact absurd ⟨stored_length_ne_zero hs hid, hstart⟩ hreplay
    · rw [lastStart, if_neg (by simp [hr])] at hid
      simpa [Function.update_of_ne (Ne.symm hr)] using hs r id hid

lemma step_storedStart {e : Label} (hs : StoredStart s) (h : step binary s e = some t) :
    StoredStart t := by
  cases e with
  | other =>
    obtain rfl := Option.some.inj h
    exact hs
  | request relocation statusType vector =>
    obtain rfl := Option.some.inj h
    exact accountRq_storedStart hs relocation statusType vector

lemma accountRq_sent (binary : Bool) (s : State) (relocation : Bool) (statusType : StatusType)
    (vector : Vector UInt8 16) :
    ∃ id, (accountRq binary s relocation statusType vector).sent =
        ⟨relocation, statusType, id⟩ :: s.sent ∧
      ((s.stored relocation).bytes.length ≠ 0 → statusType ≠ .start →
        id = (s.stored relocation).bytes) := by
  rw [accountRq]
  split
  next => exact ⟨_, rfl, fun _ _ => rfl⟩
  next hreplay => exact ⟨_, rfl, fun hlen hstart => absurd ⟨hlen, hstart⟩ hreplay⟩

lemma step_oneSessionId_iff {e : Label} (hs : StoredStart s) (hone : OneSessionId s.sent)
    (h : step binary s e = some t) : OneSessionId t.sent ↔ Replayable s e := by
  cases e with
  | other =>
    obtain rfl := Option.some.inj h
    exact iff_of_true hone trivial
  | request relocation statusType vector =>
    obtain rfl := Option.some.inj h
    obtain ⟨id, hsent, hid⟩ := accountRq_sent binary s relocation statusType vector
    rw [hsent, OneSessionId, Replayable, and_iff_left hone]
    refine imp_congr_right fun hin => forall₂_congr fun last hlast => ?_
    have hstart : statusType ≠ .start := by
      rintro rfl
      cases hin
    rw [hid (stored_length_ne_zero hs hlast) hstart, (hs relocation last hlast).2]
    exact Field.ofBytes_bytes_eq_iff

theorem always_iff_replayable (hs : StoredStart s) (hone : OneSessionId s.sent) (es : List Label) :
    Always (step binary) (OneSessionId ·.sent) s es ↔ Guarded (step binary) Replayable s es :=
  always_iff_guarded_of_invariant (I := StoredStart) (P := (OneSessionId ·.sent))
    (fun _ _ _ hs h => step_storedStart hs h) (fun _ e _ _ _ => by cases e <;> exact ⟨_, rfl⟩)
    (fun _ _ _ hs hone h => step_oneSessionId_iff hs hone h) hs hone es

lemma init_storedStart (sessionId : UInt32) (stored : Bool → Field 32) :
    StoredStart (.init sessionId stored) := fun _ _ hid => nomatch hid

end Steps

end LdapTgen.SessionIds
