import LdapTgen.FastReauth
import LdapTgen.WimaxSession

/-! What an access request leaves with its user: the identity for a fast re-authentication beside the
WiMAX session. `tRadius_accessRq` has one place at which both are deleted; the returns before it and the
errors found behind it do not come there. -/
namespace LdapTgen.AuthTrouble
open UserData EapClient FastReauth WimaxSession

abbrev Access := WimaxSession.Request

structure Account where
  user : User
  fast : FastAuth

def Account.Full (a : Account) : Prop := a.fast.frId = none ∧ a.user.Cleared

inductive EapMessage
  | sim (req : EapClient.Request) (input : Input)
  | aka (req : EapClient.Request) (input : Input)

/-- A call of `sendrecv_eap`: the packet with its attributes, what is in memory for the keys, and the
messages of the server before its last packet. -/
structure EapRun where
  lib : Libeap
  flags : Flags
  rep : Response
  keys : Keys
  messages : List EapMessage

def EapRun.receive (e : EapRun) (s : Exchange) : EapMessage → Exchange
  | .sim req input => s.sim e.lib e.flags req input
  | .aka req input => s.aka e.lib e.flags req input

def EapRun.last (e : EapRun) (data : FastAuth) : Client :=
  (e.messages.foldl e.receive (.init e.rep (tUserGetFastAuthData data e.keys))).client

def sendrecvEap (e : EapRun) (rc : ℤ) (data : FastAuth) : FastAuth :=
  if rc = 0 then tUserSetFastAuthData data (e.last data).keys (e.last data).frId else data

def usesEap (r : Access) : Bool :=
  (r.authType = .eapSim ∨ r.authType = .eapAka) ∧ r.creditSessionAction < 2

def trouble (r : Access) : Bool := r.rc ≠ 0 ∨ r.rep.all (·.code = .reject)

def exchangeFast (r : Access) (e : EapRun) (data : FastAuth) : FastAuth :=
  let data := if usesEap r then sendrecvEap e r.rc data else data
  if trouble r then { data with frId := none } else data

def tRadiusAccessRq (r : Access) (e : EapRun) (a : Account) : Option (Account × ℤ) := do
  let sent ← buildRequest r a.user
  let (user, rc) ← accessRq r a.user
  some (⟨user, if sent then exchangeFast r e a.fast else a.fast⟩, rc)

def ForcesFull (r : Access) (e : EapRun) (a : Account) : Prop :=
  ∀ a' rc, tRadiusAccessRq r e a = some (a', rc) → rc ≠ 0 → a'.Full

/-- No identity was stored by the exchange; without one there was none before. -/
def NoFastId (r : Access) (e : EapRun) (a : Account) : Prop :=
  if usesEap r then cstr (e.last a.fast).frId = [] else a.fast.frId = none

def Prepaid (r : Access) : Prop := r.creditSessionAction = 1 ∨ r.creditSessionAction = 2

def Incomplete (r : Access) (rep : Reply) : Prop :=
  r.creditSessionAction = 0 ∧ rep.classAttr = none ∨
    Prepaid r ∧ (rep.aaaSessionId = none ∨ rep.ppaq = none)

def Traced (rep : Reply) (u : User) : Prop :=
  u.aaaSessionId.bytes.length ≠ 0 → rep.differs → ∀ v, rep.aaaSessionId = some v → v.length ≤ 32

def NoSession (r : Access) (rep : Reply) (u : User) : Prop :=
  rep.aaaSessionId.getD [] = [] ∧
    (Prepaid r ∧ rep.ppaq.getD [] = [] ∨ ¬ Prepaid r ∧ u.ppaq.bytes.length = 0)

section Store
variable {r : Access} {rep : Reply} {u : User}

lemma ofBytes_eq_nil {n : ℕ} (hn : n ≠ 0) {v : List UInt8} :
    (Field.ofBytes v : Field n).bytes = [] ↔ v = [] := by
  simp [Field.ofBytes, hn]

lemma storeAAASessionId_traced (ht : Traced rep u) :
    storeAAASessionId rep u = some { u with aaaSessionId := .ofBytes (rep.aaaSessionId.getD []) } := by
  cases hid : rep.aaaSessionId with
  | none => simp [storeAAASessionId, hid, Field.empty, Field.ofBytes]
  | some v =>
    have hfit : ¬ (u.aaaSessionId.bytes.length ≠ 0 ∧ rep.differs ∧ 32 < v.length) := by
      rintro ⟨hz, hd, hlong⟩
      exact absurd (ht hz hd v hid) (by omega)
    simp only [storeAAASessionId, hid, if_neg hfit, Option.getD_some]

lemma storeAAASessionId_untraced (ht : ¬ Traced rep u) : storeAAASessionId rep u = none := by
  simp only [Traced, not_forall, not_le] at ht
  obtain ⟨hz, hd, v, hid, hlong⟩ := ht
  simp only [storeAAASessionId, hid, if_pos (And.intro hz (And.intro hd hlong))]

def withAttribs (r : Access) (rep : Reply) (u : User) : User :=
  (u.setClassAttrib r.relocation (.ofBytes (rep.classAttr.getD []))).setStateAttrib r.relocation
    (.ofBytes (if rep.terminateAction then rep.state.getD [] else []))

lemma storeReply_prepaid (hp : Prepaid r) (ht : Traced rep u) :
    storeReply r rep u = some ({ withAttribs r rep u with
        aaaSessionId := .ofBytes (rep.aaaSessionId.getD [])
        ppaq := .ofBytes (rep.ppaq.getD []) },
      if rep.aaaSessionId = none ∨ rep.ppaq = none then 1 else 0) := by
  have hstore := storeAAASessionId_traced (u := withAttribs r rep u) ht
  have hcsa : r.creditSessionAction ≠ 0 := by
    rcases hp with hp | hp <;> omega
  have hrc : (if rep.ppaq = none then (1 : ℤ) else if rep.aaaSessionId = none then 1 else 0) =
      if rep.aaaSessionId = none ∨ rep.ppaq = none then 1 else 0 := by
    split_ifs <;> simp_all
  rw [← hrc]
  simp only [storeReply, hcsa, and_false, if_false, Option.bind_eq_bind, decide_eq_true_eq,
    if_pos (show _ ∨ _ from hp)]
  rw [← withAttribs, hstore, Option.bind_some]
  simp only [and_iff_left (show _ ∨ _ from hp)]

lemma storeReply_plain (hp : ¬ Prepaid r) (ht : Traced rep u) :
    storeReply r rep u = some ({ withAttribs r rep u with
        aaaSessionId := .ofBytes (rep.aaaSessionId.getD []) },
      if rep.classAttr = none ∧ r.creditSessionAction = 0 then 1 else 0) := by
  have hstore := storeAAASessionId_traced (u := withAttribs r rep u) ht
  simp only [storeReply, Option.bind_eq_bind, decide_eq_true_eq, if_neg (show ¬ (_ ∨ _) from hp)]
  rw [← withAttribs, hstore, Option.bind_some]
  simp only [iff_false_intro (show ¬ (_ ∨ _) from hp), and_false, if_false]

lemma storeReply_spec (ht : Traced rep u) :
    ∃ u' rc, storeReply r rep u = some (u', rc) ∧ (rc ≠ 0 ↔ Incomplete r rep) ∧
      (u'.Cleared ↔ NoSession r rep u) := by
  by_cases hp : Prepaid r
  · have hcsa : r.creditSessionAction ≠ 0 := by
      rcases hp with hp | hp <;> omega
    refine ⟨_, _, storeReply_prepaid hp ht, ?_, ?_⟩
    · simp [Incomplete, hp, hcsa, or_iff_not_imp_left]
    · simp [User.Cleared, NoSession, hp, ofBytes_eq_nil]
  · refine ⟨_, _, storeReply_plain hp ht, ?_, ?_⟩
    · simp [Incomplete, hp, and_comm]
    · simp [User.Cleared, NoSession, hp, ofBytes_eq_nil, withAttribs, User.setClassAttrib,
        User.setStateAttrib]

lemma storeReply_untraced (ht : ¬ Traced rep u) : storeReply r rep u = none := by
  have hnone := storeAAASessionId_untraced (u := withAttribs r rep u) ht
  simp only [storeReply, Option.bind_eq_bind]
  rw [← withAttribs, hnone, Option.bind_none]

end Store

section Request
variable {r : Access} {e : EapRun} {a : Account} {rep : Reply}

lemma exchangeFast_of_trouble (h : trouble r) : (exchangeFast r e a.fast).frId = none := by
  simp [exchangeFast, h]

lemma tUserSetFastAuthData_frId {data : FastAuth} {keys : Keys} {frId : Bytes} :
    (tUserSetFastAuthData data keys frId).frId = none ↔ cstr frId = [] := by
  unfold tUserSetFastAuthData
  split_ifs with hid
  · simp [hid]
  · simpa using hid

lemma exchangeFast_frId (h : trouble r = false) :
    (exchangeFast r e a.fast).frId = none ↔ NoFastId r e a := by
  have hrc : r.rc = 0 := by
    by_contra hne
    simp [trouble, hne] at h
  unfold NoFastId
  by_cases heap : usesEap r
  · simp [exchangeFast, h, heap, sendrecvEap, hrc, tUserSetFastAuthData_frId]
  · simp [exchangeFast, h, heap]

lemma forcesFull_unbuilt (hb : buildRequest r a.user = some false) : ForcesFull r e a ↔ a.Full := by
  have hrq : tRadiusAccessRq r e a = some (a, -1) := by simp [tRadiusAccessRq, accessRq, hb]
  constructor
  · intro h
    exact h a (-1) hrq (by decide)
  · rintro h a' rc hrq' -
    rw [hrq, Option.some.injEq, Prod.mk.injEq] at hrq'
    exact hrq'.1 ▸ h

lemma forcesFull_overflow (hb : buildRequest r a.user = none) : ForcesFull r e a := by
  intro a' rc hrq
  simp [tRadiusAccessRq, hb] at hrq

lemma tRadiusAccessRq_built (hb : buildRequest r a.user = some true) :
    tRadiusAccessRq r e a = (treatReply r a.user).map fun p =>
      (⟨if r.creditSessionAction = 3 then p.1.clearSession else p.1, exchangeFast r e a.fast⟩, p.2) := by
  simp only [tRadiusAccessRq, accessRq, hb, Option.bind_eq_bind, Option.bind_some]
  cases treatReply r a.user <;> rfl

lemma forcesFull_built (hb : buildRequest r a.user = some true) :
    ForcesFull r e a ↔ ∀ u rc, treatReply r a.user = some (u, rc) → rc ≠ 0 →
      (exchangeFast r e a.fast).frId = none ∧ (r.creditSessionAction = 3 ∨ u.Cleared) := by
  have hclear : ∀ u : User, (if r.creditSessionAction = 3 then u.clearSession else u).Cleared ↔
      r.creditSessionAction = 3 ∨ u.Cleared := by
    intro u
    split_ifs with h3
    · simp [h3, u.clearSession_cleared]
    · simp [h3]
  unfold ForcesFull
  rw [tRadiusAccessRq_built hb]
  constructor
  · intro h u rc htreat hrc
    obtain ⟨hid, hu⟩ := h _ rc (by rw [htreat]; rfl) hrc
    exact ⟨hid, (hclear u).mp hu⟩
  · rintro h a' rc hrq hrc
    obtain ⟨⟨u, rc'⟩, htreat, hpair⟩ := Option.map_eq_some_iff.mp hrq
    obtain ⟨rfl, rfl⟩ := Prod.mk.inj hpair
    obtain ⟨hid, hu⟩ := h u rc' htreat hrc
    exact ⟨hid, (hclear u).mpr hu⟩

lemma treatReply_trouble {u : User} {rc : ℤ} (h : trouble r) (htreat : treatReply r a.user = some (u, rc))
    (hack : r.waitFor = .ack) : u.Cleared := by
  cases hrep : r.rep with
  | none =>
    simp only [treatReply, hrep, Option.some.injEq, Prod.mk.injEq] at htreat
    exact htreat.1 ▸ a.user.clearSession_cleared
  | some rep =>
    have hcond : r.rc ≠ 0 ∨ rep.code = .reject := by simpa [trouble, hrep] using h
    simp only [treatReply, hrep, hack, if_pos hcond] at htreat
    by_cases hrc : r.rc = 0
    · have hcode : rep.code = .reject := hcond.resolve_left (by simp [hrc])
      simp only [hrc, hcode, ne_eq, not_true_eq_false, if_false, Option.some.injEq,
        Prod.mk.injEq] at htreat
      exact htreat.1 ▸ a.user.clearSession_cleared
    · simp only [ne_eq, hrc, not_false_eq_true, if_true, Option.some.injEq, Prod.mk.injEq] at htreat
      exact htreat.1 ▸ a.user.clearSession_cleared

lemma forcesFull_trouble (hack : r.waitFor = .ack) (hb : buildRequest r a.user = some true)
    (h : trouble r) : ForcesFull r e a := by
  rw [forcesFull_built hb]
  intro u rc htreat _
  exact ⟨exchangeFast_of_trouble h, .inr (treatReply_trouble h htreat hack)⟩

lemma forcesFull_other (hack : r.waitFor = .ack) (hb : buildRequest r a.user = some true)
    (hrc : r.rc = 0) (hrep : r.rep = some rep) (hcode : rep.code = .other) :
    ForcesFull r e a ↔ NoFastId r e a ∧ (r.creditSessionAction = 3 ∨ a.user.Cleared) := by
  have htrouble : trouble r = false := by simp [trouble, hrc, hrep, hcode]
  have htreat : treatReply r a.user = some (a.user, 1) := by
    simp [treatReply, hrep, hrc, hack, hcode]
  rw [forcesFull_built hb, htreat, exchangeFast_frId htrouble]
  constructor
  · intro h
    exact h _ _ rfl (by decide)
  · rintro h u rc hpair -
    obtain ⟨rfl, -⟩ := Prod.mk.inj (Option.some.inj hpair)
    exact h

lemma forcesFull_accept (hack : r.waitFor = .ack) (hb : buildRequest r a.user = some true)
    (hrc : r.rc = 0) (hrep : r.rep = some rep) (hcode : rep.code = .ack) :
    ForcesFull r e a ↔ (Traced rep a.user → Incomplete r rep →
      NoFastId r e a ∧ NoSession r rep a.user) := by
  have htrouble : trouble r = false := by simp [trouble, hrc, hrep, hcode]
  have htreat : treatReply r a.user = storeReply r rep a.user := by
    simp [treatReply, hrep, hrc, hack, hcode]
  rw [forcesFull_built hb, htreat, exchangeFast_frId htrouble]
  by_cases ht : Traced rep a.user
  · obtain ⟨u, rc, hstore, hne, hclear⟩ := storeReply_spec (r := r) ht
    have h3 : Incomplete r rep → r.creditSessionAction ≠ 3 := by
      rintro (⟨h0, -⟩ | ⟨h1 | h2, -⟩) <;> omega
    rw [hstore, imp_iff_right ht, ← hne, ← hclear]
    constructor
    · intro h hrc'
      obtain ⟨hid, hu⟩ := h u rc rfl hrc'
      exact ⟨hid, hu.resolve_left (h3 (hne.mp hrc'))⟩
    · rintro h u' rc' hpair hrc'
      obtain ⟨rfl, rfl⟩ := Prod.mk.inj (Option.some.inj hpair)
      exact ⟨(h hrc').1, .inr (h hrc').2⟩
  · rw [storeReply_untraced ht]
    simp [ht]

end Request

/-- A request that waits for success and fails forces a full authentication exactly if nothing could be
left: of a packet that cannot be built, of a reply that is neither Accept nor Reject, and of an Accept
without an attribute. -/
theorem trouble_forces_full_iff (r : Access) (e : EapRun) (a : Account) (hack : r.waitFor = .ack) :
    ForcesFull r e a ↔
      (buildRequest r a.user = some false → a.Full) ∧
      (buildRequest r a.user = some true → r.rc = 0 → ∀ rep, r.rep = some rep →
        (rep.code = .other → NoFastId r e a ∧ (r.creditSessionAction = 3 ∨ a.user.Cleared)) ∧
        (rep.code = .ack → Traced rep a.user → Incomplete r rep →
          NoFastId r e a ∧ NoSession r rep a.user)) := by
  cases hb : buildRequest r a.user with
  | none => simp [forcesFull_overflow hb]
  | some sent =>
    cases sent with
    | false => simp [forcesFull_unbuilt hb]
    | true =>
      rw [and_iff_right (by simp), imp_iff_right rfl]
      by_cases hrc : r.rc = 0
      · rw [imp_iff_right hrc]
        cases hrep : r.rep with
        | none => simp [forcesFull_trouble hack hb (show trouble r by simp [trouble, hrep])]
        | some rep =>
          simp only [Option.some.injEq, forall_eq']
          cases hcode : rep.code with
          | ack => simp [forcesFull_accept hack hb hrc hrep hcode]
          | reject =>
            simp [forcesFull_trouble hack hb (show trouble r by simp [trouble, hrep, hcode])]
          | other => simp [forcesFull_other hack hb hrc hrep hcode]
      · simp [hrc, forcesFull_trouble hack hb (show trouble r by simp [trouble, hrc])]

def papRequest (code : ReplyCode) : Access :=
  ⟨.pap, .ack, 0, false, true, false, false, 0, some ⟨code, none, false, none, none, false, none⟩⟩

def noMessages : EapRun := ⟨trustingLib, noFlags, cardResponse, oldKeys, []⟩

def remembered : Account :=
  ⟨⟨fun _ => .empty, fun _ => .empty, .ofBytes [1], .ofBytes [2]⟩, ⟨[], [], some [65]⟩⟩

theorem rejected_pap_forces_full :
    tRadiusAccessRq (papRequest .reject) noMessages remembered =
        some (⟨remembered.user.clearSession, ⟨[], [], none⟩⟩, 1) ∧
      ForcesFull (papRequest .reject) noMessages remembered := by
  refine ⟨rfl, (trouble_forces_full_iff (papRequest .reject) noMessages remembered rfl).mpr ⟨?_, ?_⟩⟩
  · intro hb
    cases hb
  · rintro - - rep ⟨rfl⟩
    constructor
    · intro hcode
      cases hcode
    · intro hcode
      cases hcode

/-- An Accept without Class gives an error, and the identity and PPAQ are kept. A packet of another code
leaves the session id too, and so does a type that cannot be sent. -/
theorem accept_without_class_keeps_identity :
    (∃ a, tRadiusAccessRq (papRequest .ack) noMessages remembered = some (a, 1) ∧
      a.fast.frId = some [65] ∧ a.user.ppaq.bytes = [2]) ∧
    (∃ a, tRadiusAccessRq (papRequest .other) noMessages remembered = some (a, 1) ∧
      a.fast.frId = some [65] ∧ a.user.aaaSessionId.bytes = [1]) ∧
    tRadiusAccessRq { papRequest .ack with authType := .eapTls } noMessages remembered =
      some (remembered, -1) :=
  ⟨⟨_, rfl, rfl, rfl⟩, ⟨_, rfl, rfl, rfl⟩, rfl⟩

end LdapTgen.AuthTrouble
