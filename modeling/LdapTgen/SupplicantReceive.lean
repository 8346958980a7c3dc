import LdapTgen.RadiusQueue
import LdapTgen.UserData

/-! `radius_client_receive` and the handler that it calls, as far as they write the data of the user.
Parsing and verification belong to the library: a parsed message is given by what its attributes are,
and the verification by its result for a message and a request. -/
namespace LdapTgen.SupplicantReceive
open LinkedCells RadiusClient UserData

inductive Code
  | accessAccept
  | accessReject
  | accessChallenge
  | accountingResponse
  | other
  deriving DecidableEq, Repr

inductive AttrType
  | classAttr
  | stateAttr
  | messageAuthenticator
  | eapMessage
  deriving DecidableEq, Repr

inductive WimaxVsa
  | aaaSessionId
  | ppaq
  deriving DecidableEq, Repr

/-- `differs` says that `strcmp` finds the AAA-Session-ID different from the stored one. -/
structure Msg where
  code : Code
  identifier : UInt8
  attr : AttrType → Option (List UInt8)
  wimaxVsa : WimaxVsa → Option (List UInt8)
  differs : Bool

/-- The length of the attribute, or -1, and the buffer with as much of it as there is room for. -/
def radiusMsgGetAttr (m : Msg) (type : AttrType) (buf : List UInt8) : ℤ × List UInt8 :=
  match m.attr type with
  | none => (-1, buf)
  | some v => (v.length, v.take buf.length ++ buf.drop v.length)

/-- What `malloc` gives; the code does not read it before it writes it. -/
def malloc (n : ℤ) : List UInt8 := List.replicate n.toNat 0

def storeClass (m : Msg) (u : User) : Option User :=
  let classLen := (radiusMsgGetAttr m .classAttr []).1
  if 0 < classLen then
    let (classLen, classAtt) := radiusMsgGetAttr m .classAttr (malloc classLen)
    (Field.store classAtt classLen).map (u.setClassAttrib false)
  else some u

/-- The buffer has the length of the State attribute, but what is read into it is the Class. -/
def storeState (m : Msg) (u : User) : Option User :=
  let stateLen := (radiusMsgGetAttr m .stateAttr []).1
  if 0 < stateLen then
    let (stateLen, stateAtt) := radiusMsgGetAttr m .classAttr (malloc stateLen)
    (Field.store stateAtt stateLen).map (u.setStateAttrib false)
  else some u

def storeAttributes (m : Msg) (u : User) : Option User :=
  if m.code = .accessAccept then (storeClass m u).bind (storeState m) else some u

/-- The user and the result so far. A session id that differs from the stored one is copied to an array
of 32 characters, from which it is traced; the stored one always fits its own. -/
def getAaaSessionId (m : Msg) (creditSessionAction : ℤ) (u : User) : Option (User × ℤ) :=
  match m.wimaxVsa .aaaSessionId with
  | some v =>
      if u.aaaSessionId.bytes.length ≠ 0 ∧ m.differs ∧ 32 < v.length then none
      else some ({ u with aaaSessionId := .ofBytes v }, 1)
  | none => some ({ u with aaaSessionId := .empty }, if creditSessionAction = 1 then -1 else 1)

def getWimaxVsa (m : Msg) (creditSessionAction : ℤ) (u : User) : Option (User × ℤ) :=
  (getAaaSessionId m creditSessionAction u).map fun (u, rc) =>
    let (u, rc) := if creditSessionAction = 1 ∨ creditSessionAction = 2 then
        match m.wimaxVsa .ppaq with
        | some v => ({ u with ppaq := .ofBytes v }, rc)
        | none => ({ u with ppaq := .empty }, -2)
      else (u, rc)
    (if creditSessionAction = 3 then u.clearSession else u, rc)

inductive RxResult
  | queued
  | unknown
  deriving DecidableEq, Repr

def Msg.exempt (m : Msg) : Bool :=
  m.code = .accessReject ∧ m.attr .messageAuthenticator = none ∧ m.attr .eapMessage = none

def Msg.mustVerify (m : Msg) (creditSessionAction : ℤ) : Bool :=
  !m.exempt && decide (creditSessionAction < 2)

/-- The handler for authentication; what follows for EAP and for the keys does not touch the user. -/
def receiveAuth (creditSessionAction : ℤ) (verified : Bool) (m : Msg) (u : User) :
    Option (User × RxResult) :=
  if m.mustVerify creditSessionAction && !verified then some (u, .unknown)
  else
    (if m.code = .accessAccept ∧ (creditSessionAction = 1 ∨ creditSessionAction = 2) then
        (getWimaxVsa m creditSessionAction u).map Prod.fst
      else some u).map fun u =>
    if m.code = .accessAccept ∨ m.code = .accessReject ∨ m.code = .accessChallenge then (u, .queued)
    else (u, .unknown)

/-- A client with its user, and the credit session action of the scenario's flags if there are any. -/
structure Supplicant where
  client : Client
  user : User
  actionFlags : Option ℤ

def Supplicant.creditSessionAction (s : Supplicant) : ℤ := s.actionFlags.getD 0

/-- The request that is answered is taken out of the list, and the handlers are called. The one that is
registered is that for authentication. -/
def dispatch (verify : Msg → Entry → Bool) (msgType : RadiusType) (m : Msg) (s : Supplicant) :
    Option Supplicant :=
  match (pending s.client).find? (answers msgType m.identifier) with
  | none => some s
  | some req => do
      let client ← RadiusClient.radiusClientReceive msgType m.identifier s.client
      let user ← (if msgType = .auth then
          (receiveAuth s.creditSessionAction (verify m req) m s.user).map Prod.fst
        else some s.user)
      some { s with client := client, user := user }

def radiusClientReceive (verify : Msg → Entry → Bool) (msgType : RadiusType) (frame : Option Msg)
    (s : Supplicant) : Option Supplicant :=
  match frame with
  | none => some s
  | some m => (storeAttributes m s.user).bind fun user =>
      dispatch verify msgType m { s with user := user }

section Attributes
variable {m : Msg} {u : User}

lemma getAttr_length_pos_iff {type : AttrType} :
    0 < (radiusMsgGetAttr m type []).1 ↔ ∃ v, m.attr type = some v ∧ v ≠ [] := by
  cases h : m.attr type with
  | none => simp [radiusMsgGetAttr, h]
  | some v => simp [radiusMsgGetAttr, h, List.length_pos_iff]

lemma storeClass_of_none (h : ∀ v, m.attr .classAttr = some v → v = []) : storeClass m u = some u := by
  have hpos : ¬ 0 < (radiusMsgGetAttr m .classAttr []).1 := by
    rw [getAttr_length_pos_iff]
    rintro ⟨v, hv, hne⟩
    exact hne (h v hv)
  simp only [storeClass, hpos, if_false]

lemma storeClass_of_some {v : List UInt8} (hv : m.attr .classAttr = some v) (hne : v ≠ []) :
    storeClass m u = some (u.setClassAttrib false (.ofBytes v)) := by
  have hpos := getAttr_length_pos_iff.mpr ⟨v, hv, hne⟩
  simp only [storeClass, hpos, if_true]
  simp [radiusMsgGetAttr, hv, malloc, Field.store_length]

lemma storeState_of_none (h : ∀ w, m.attr .stateAttr = some w → w = []) : storeState m u = some u := by
  have hpos : ¬ 0 < (radiusMsgGetAttr m .stateAttr []).1 := by
    rw [getAttr_length_pos_iff]
    rintro ⟨w, hw, hne⟩
    exact hne (h w hw)
  simp only [storeState, hpos, if_false]

lemma storeState_of_noClass {w : List UInt8} (hw : m.attr .stateAttr = some w) (hne : w ≠ [])
    (hclass : m.attr .classAttr = none) : storeState m u = none := by
  have hpos := getAttr_length_pos_iff.mpr ⟨w, hw, hne⟩
  simp only [storeState, hpos, if_true]
  simp [radiusMsgGetAttr, hclass, Field.store]

lemma storeState_of_class {v w : List UInt8} (hw : m.attr .stateAttr = some w) (hne : w ≠ [])
    (hv : m.attr .classAttr = some v) :
    storeState m u = if min v.length 160 ≤ w.length then
      some (u.setStateAttrib false (.ofBytes v)) else none := by
  have hpos := getAttr_length_pos_iff.mpr ⟨w, hw, hne⟩
  have hlen : (v.take w.length ++ (List.replicate w.length (0 : UInt8)).drop v.length).length =
      w.length := by
    simp only [List.length_append, List.length_take, List.length_drop, List.length_replicate]
    omega
  simp only [storeState, hpos, if_true]
  simp only [radiusMsgGetAttr, hw, hv, malloc, Int.toNat_natCast, List.length_replicate]
  rw [Field.store_cut hlen]
  split <;> rfl

lemma storeClass_frame {t : User} (h : storeClass m u = some t) :
    t = { u with classAttrib := t.classAttrib } := by
  simp only [storeClass] at h
  split at h
  · obtain ⟨f, -, rfl⟩ := Option.map_eq_some_iff.mp h
    rfl
  · obtain rfl := Option.some.inj h
    rfl

lemma storeState_frame {t : User} (h : storeState m u = some t) :
    t = { u with stateAttrib := t.stateAttrib } := by
  simp only [storeState] at h
  split at h
  · obtain ⟨f, -, rfl⟩ := Option.map_eq_some_iff.mp h
    rfl
  · obtain rfl := Option.some.inj h
    rfl

lemma storeAttributes_frame {t : User} (h : storeAttributes m u = some t) :
    t.aaaSessionId = u.aaaSessionId ∧ t.ppaq = u.ppaq := by
  rw [storeAttributes] at h
  split at h
  · obtain ⟨v, hv, ht⟩ := Option.bind_eq_some_iff.mp h
    rw [storeState_frame ht, storeClass_frame hv]
    exact ⟨rfl, rfl⟩
  · obtain rfl := Option.some.inj h
    exact ⟨rfl, rfl⟩

lemma storeClass_self_iff : storeClass m u = some u ↔
    ∀ v, m.attr .classAttr = some v → v ≠ [] → u.classAttrib false = .ofBytes v := by
  by_cases hex : ∃ v, m.attr .classAttr = some v ∧ v ≠ []
  · obtain ⟨v, hv, hne⟩ := hex
    rw [storeClass_of_some hv hne, Option.some.injEq, User.setClassAttrib_eq_self_iff]
    simp [hv, hne]
  · have hnone : ∀ v, m.attr .classAttr = some v → v = [] := fun v hv =>
      by_contra fun hne => hex ⟨v, hv, hne⟩
    exact iff_of_true (storeClass_of_none hnone) fun v hv hne => absurd (hnone v hv) hne

lemma storeState_self_iff : storeState m u = some u ↔
    ∀ w, m.attr .stateAttr = some w → w ≠ [] → ∃ v, m.attr .classAttr = some v ∧
      min v.length 160 ≤ w.length ∧ u.stateAttrib false = .ofBytes v := by
  by_cases hex : ∃ w, m.attr .stateAttr = some w ∧ w ≠ []
  · obtain ⟨w, hw, hne⟩ := hex
    cases hv : m.attr .classAttr with
    | none => simp [storeState_of_noClass hw hne hv, hw, hne]
    | some v =>
      rw [storeState_of_class hw hne hv]
      by_cases hfit : min v.length 160 ≤ w.length
      · rw [if_pos hfit, Option.some.injEq, User.setStateAttrib_eq_self_iff]
        simp only [hw, Option.some.injEq, forall_eq', exists_eq_left']
        exact ⟨fun h _ => ⟨hfit, h⟩, fun h => (h hne).2⟩
      · rw [if_neg hfit]
        simp only [reduceCtorEq, hw, Option.some.injEq, forall_eq', exists_eq_left', false_iff]
        exact fun h => hfit (h hne).1
  · have hnone : ∀ w, m.attr .stateAttr = some w → w = [] := fun w hw =>
      by_contra fun hne => hex ⟨w, hw, hne⟩
    exact iff_of_true (storeState_of_none hnone) fun w hw hne => absurd (hnone w hw) hne

lemma storeBoth_self_iff :
    (storeClass m u).bind (storeState m) = some u ↔
      storeClass m u = some u ∧ storeState m u = some u := by
  constructor
  · intro h
    obtain ⟨v, hv, ht⟩ := Option.bind_eq_some_iff.mp h
    have hclass : u.classAttrib = v.classAttrib := by rw [storeState_frame ht]
    have huv : v = u := by
      rw [storeClass_frame hv, ← hclass]
    rw [huv] at hv ht
    exact ⟨hv, ht⟩
  · rintro ⟨hclass, hstate⟩
    rw [hclass, Option.bind_some, hstate]

end Attributes

/-- An Access-Accept whose Class, and what is stored for its State, the user has already, or that has
neither; any other message. -/
def Harmless (m : Msg) (u : User) : Prop :=
  m.code = .accessAccept →
    (∀ v, m.attr .classAttr = some v → v ≠ [] → u.classAttrib false = .ofBytes v) ∧
    ∀ w, m.attr .stateAttr = some w → w ≠ [] → ∃ v, m.attr .classAttr = some v ∧
      min v.length 160 ≤ w.length ∧ u.stateAttrib false = .ofBytes v

def Unsolicited (msgType : RadiusType) (m : Msg) (s : Supplicant) : Prop :=
  (pending s.client).find? (answers msgType m.identifier) = none

/-- The message answers a request and must be verified, and its verification fails. -/
def Unauthenticated (verify : Msg → Entry → Bool) (msgType : RadiusType) (m : Msg)
    (s : Supplicant) : Prop :=
  msgType = .auth ∧ m.mustVerify s.creditSessionAction ∧
    ∃ req, (pending s.client).find? (answers msgType m.identifier) = some req ∧
      verify m req = false

section Receive
variable {verify : Msg → Entry → Bool} {msgType : RadiusType} {m : Msg} {s : Supplicant}
  {es : List Entry}

lemma dispatch_user (hs : s.client.Has es)
    (hbad : Unsolicited msgType m s ∨ Unauthenticated verify msgType m s) (u : User) :
    ∃ t, dispatch verify msgType m { s with user := u } = some t ∧ t.user = u := by
  rcases hbad with hnone | ⟨hauth, hmust, req, hfind, hverify⟩
  · rw [Unsolicited] at hnone
    exact ⟨{ s with user := u }, by simp only [dispatch, hnone], rfl⟩
  · obtain ⟨heap, msgs, hreceive, -⟩ := receive_spec hs msgType m.identifier
    have huser : receiveAuth s.creditSessionAction (verify m req) m u = some (u, .unknown) := by
      simp [receiveAuth, hmust, hverify]
    refine ⟨{ s with client := { s.client with
      heap := heap
      msgs := msgs
      numMsgs := if es.any (answers msgType m.identifier) then s.client.numMsgs - 1
        else s.client.numMsgs }, user := u }, ?_, rfl⟩
    simp only [dispatch, hfind, hreceive, Option.bind_eq_bind, Option.bind_some, if_pos hauth]
    rw [show receiveAuth (Supplicant.creditSessionAction { s with user := u }) (verify m req) m u =
      some (u, .unknown) from huser]
    rfl

end Receive

/-- A message that answers no request, or whose verification fails, leaves the data of the user as they
were exactly if it is harmless. -/
theorem user_kept_iff (verify : Msg → Entry → Bool) (msgType : RadiusType) (m : Msg) (s : Supplicant)
    {es : List Entry} (hs : s.client.Has es)
    (hbad : Unsolicited msgType m s ∨ Unauthenticated verify msgType m s) :
    (∃ t, radiusClientReceive verify msgType (some m) s = some t ∧ t.user = s.user) ↔
      Harmless m s.user := by
  have hstored : (∃ t, radiusClientReceive verify msgType (some m) s = some t ∧ t.user = s.user) ↔
      storeAttributes m s.user = some s.user := by
    constructor
    · rintro ⟨t, ht, huser⟩
      obtain ⟨u, hu, hdispatch⟩ := Option.bind_eq_some_iff.mp ht
      obtain ⟨t', ht', huser'⟩ := dispatch_user hs hbad u
      cases Option.some.inj (hdispatch.symm.trans ht')
      rw [hu, ← huser', huser]
    · intro h
      obtain ⟨t, ht, huser⟩ := dispatch_user hs hbad s.user
      exact ⟨t, by rw [radiusClientReceive, h, Option.bind_some, ht], huser⟩
  rw [hstored, storeAttributes, Harmless]
  by_cases hcode : m.code = .accessAccept
  · rw [if_pos hcode, storeBoth_self_iff, storeClass_self_iff, storeState_self_iff]
    exact ⟨fun h _ => h, fun h => h hcode⟩
  · rw [if_neg hcode]
    exact iff_of_true rfl fun h => absurd h hcode

def idle : Supplicant := ⟨Client.init [], ⟨fun _ => .empty, fun _ => .empty, .empty, .empty⟩, none⟩

def withClass (code : Code) : Msg :=
  ⟨code, 0, fun type => if type = .classAttr then some [7] else none, fun _ => none, false⟩

theorem reject_keeps_user :
    ∃ t, radiusClientReceive (fun _ _ => false) .auth (some (withClass .accessReject)) idle = some t ∧
      t.user = idle.user :=
  (user_kept_iff (fun _ _ => false) .auth (withClass .accessReject) idle (has_init []) (Or.inl rfl)).mpr
    fun h => nomatch h

/-- The Class of an Access-Accept that nobody has asked for is stored. -/
theorem unsolicited_class_stored :
    Unsolicited .auth (withClass .accessAccept) idle ∧
      ∃ t, radiusClientReceive (fun _ _ => false) .auth (some (withClass .accessAccept)) idle = some t ∧
        (t.user.classAttrib false).bytes = [7] ∧ (idle.user.classAttrib false).bytes = [] :=
  ⟨rfl, _, rfl, rfl, rfl⟩

/-- Class and State are those of the message, as much of them as is kept, or those before. -/
structure Remembered (m : Msg) (u t : User) : Prop where
  storedClass : ∀ v, m.attr .classAttr = some v → v ≠ [] → (t.classAttrib false).bytes = v.take 160
  keptClass : m.attr .classAttr = none → t.classAttrib = u.classAttrib
  storedState : ∀ w, m.attr .stateAttr = some w → w ≠ [] → (t.stateAttrib false).bytes = w.take 160
  keptState : m.attr .stateAttr = none → t.stateAttrib = u.stateAttrib

section Remembered
variable {verify : Msg → Entry → Bool} {msgType : RadiusType} {m : Msg} {s t : Supplicant}
  {u v : User} {es : List Entry}

lemma getWimaxVsa_attribs {creditSessionAction rc : ℤ}
    (h : getWimaxVsa m creditSessionAction u = some (v, rc)) :
    v.classAttrib = u.classAttrib ∧ v.stateAttrib = u.stateAttrib := by
  obtain ⟨⟨w, rc'⟩, hw, heq⟩ := Option.map_eq_some_iff.mp h
  have hkept : w.classAttrib = u.classAttrib ∧ w.stateAttrib = u.stateAttrib := by
    unfold getAaaSessionId at hw
    split at hw
    · split at hw
      · cases hw
      · obtain ⟨rfl, -⟩ := Prod.mk.inj (Option.some.inj hw)
        exact ⟨rfl, rfl⟩
    · obtain ⟨rfl, -⟩ := Prod.mk.inj (Option.some.inj hw)
      exact ⟨rfl, rfl⟩
  have hv := (congrArg Prod.fst heq).symm
  dsimp only at hv
  rw [← hkept.1, ← hkept.2, hv]
  cases m.wimaxVsa .ppaq <;> dsimp only <;> split_ifs <;> exact ⟨rfl, rfl⟩

lemma receiveAuth_attribs {creditSessionAction : ℤ} {verified : Bool} {rx : RxResult}
    (h : receiveAuth creditSessionAction verified m u = some (v, rx)) :
    v.classAttrib = u.classAttrib ∧ v.stateAttrib = u.stateAttrib := by
  unfold receiveAuth at h
  split at h
  · obtain ⟨rfl, -⟩ := Prod.mk.inj (Option.some.inj h)
    exact ⟨rfl, rfl⟩
  · obtain ⟨w, hw, heq⟩ := Option.map_eq_some_iff.mp h
    have hv : v = w := by
      split at heq <;> exact (congrArg Prod.fst heq).symm
    rw [hv]
    split at hw
    · obtain ⟨⟨w', rc⟩, hvsa, rfl⟩ := Option.map_eq_some_iff.mp hw
      exact getWimaxVsa_attribs hvsa
    · obtain rfl := Option.some.inj hw
      exact ⟨rfl, rfl⟩

lemma getWimaxVsa_eq_none_iff {creditSessionAction : ℤ} :
    getWimaxVsa m creditSessionAction u = none ↔ u.aaaSessionId.bytes.length ≠ 0 ∧ m.differs ∧
      ∃ v, m.wimaxVsa .aaaSessionId = some v ∧ 32 < v.length := by
  rw [getWimaxVsa, Option.map_eq_none_iff, getAaaSessionId]
  cases m.wimaxVsa .aaaSessionId with
  | none => simp
  | some v => simp

lemma receiveAuth_eq_none_iff {creditSessionAction : ℤ} {verified : Bool}
    (hcode : m.code = .accessAccept) :
    receiveAuth creditSessionAction verified m u = none ↔
      (m.mustVerify creditSessionAction → verified) ∧
      (creditSessionAction = 1 ∨ creditSessionAction = 2) ∧ u.aaaSessionId.bytes.length ≠ 0 ∧ m.differs ∧
      ∃ v, m.wimaxVsa .aaaSessionId = some v ∧ 32 < v.length := by
  rw [← @getWimaxVsa_eq_none_iff m u creditSessionAction, receiveAuth]
  by_cases hmust : (m.mustVerify creditSessionAction && !verified) = true
  · rw [if_pos hmust]
    rw [Bool.and_eq_true, Bool.not_eq_true'] at hmust
    simp [hmust.1, hmust.2]
  · have hverified : m.mustVerify creditSessionAction → verified = true := by simpa using hmust
    rw [if_neg hmust, Option.map_eq_none_iff]
    by_cases hcredit : creditSessionAction = 1 ∨ creditSessionAction = 2
    · rw [if_pos ⟨hcode, hcredit⟩, Option.map_eq_none_iff]
      exact ⟨fun hnone => ⟨hverified, hcredit, hnone⟩, fun h => h.2.2⟩
    · simp [hcredit]

/-- The handler comes to a session id that is too long for the array that it is traced from. -/
def Overruns (verify : Msg → Entry → Bool) (msgType : RadiusType) (m : Msg) (s : Supplicant) : Prop :=
  msgType = .auth ∧ ∃ req, (pending s.client).find? (answers msgType m.identifier) = some req ∧
    (m.mustVerify s.creditSessionAction → verify m req) ∧
    (s.creditSessionAction = 1 ∨ s.creditSessionAction = 2) ∧ s.user.aaaSessionId.bytes.length ≠ 0 ∧
    m.differs ∧ ∃ v, m.wimaxVsa .aaaSessionId = some v ∧ 32 < v.length

lemma dispatch_attribs (hs : s.client.Has es) (hcode : m.code = .accessAccept) :
    (dispatch verify msgType m s = none ↔ Overruns verify msgType m s) ∧
      ∀ t, dispatch verify msgType m s = some t →
        t.user.classAttrib = s.user.classAttrib ∧ t.user.stateAttrib = s.user.stateAttrib := by
  cases hfind : (pending s.client).find? (answers msgType m.identifier) with
  | none =>
    simp only [dispatch, hfind, Overruns]
    refine ⟨by simp, fun t ht => ?_⟩
    obtain rfl := Option.some.inj ht
    exact ⟨rfl, rfl⟩
  | some req =>
    obtain ⟨heap, msgs, hreceive, -⟩ := receive_spec hs msgType m.identifier
    simp only [dispatch, hfind, hreceive, Option.bind_eq_bind, Option.bind_some, Overruns,
      Option.some.injEq, exists_eq_left']
    by_cases hauth : msgType = .auth
    · rw [if_pos hauth]
      refine ⟨?_, fun t ht => ?_⟩
      · rw [Option.bind_eq_none_iff, ← receiveAuth_eq_none_iff hcode]
        cases receiveAuth s.creditSessionAction (verify m req) m s.user <;> simp [hauth]
      · obtain ⟨user, huser, heq⟩ := Option.bind_eq_some_iff.mp ht
        obtain ⟨⟨w, rx⟩, hrx, rfl⟩ := Option.map_eq_some_iff.mp huser
        rw [← Option.some.inj heq]
        exact receiveAuth_attribs hrx
    · rw [if_neg hauth, Option.bind_some]
      refine ⟨by simp [hauth], fun t ht => ?_⟩
      obtain rfl := Option.some.inj ht
      exact ⟨rfl, rfl⟩

lemma remembered_congr (hclass : v.classAttrib = u.classAttrib) (hstate : v.stateAttrib = u.stateAttrib)
    {w : User} : Remembered m w v ↔ Remembered m w u := by
  constructor
  · rintro ⟨hc, hc', hs, hs'⟩
    rw [hclass] at hc hc'
    rw [hstate] at hs hs'
    exact ⟨hc, hc', hs, hs'⟩
  · rintro ⟨hc, hc', hs, hs'⟩
    rw [← hclass] at hc hc'
    rw [← hstate] at hs hs'
    exact ⟨hc, hc', hs, hs'⟩

lemma receive_remembered_iff (hs : s.client.Has es) (hcode : m.code = .accessAccept) :
    (∃ t, radiusClientReceive verify msgType (some m) s = some t ∧ Remembered m s.user t.user) ↔
      (∃ u, (storeClass m s.user).bind (storeState m) = some u ∧ Remembered m s.user u) ∧
      ¬ Overruns verify msgType m s := by
  have hover : ∀ u, storeAttributes m s.user = some u →
      (Overruns verify msgType m { s with user := u } ↔ Overruns verify msgType m s) := by
    intro u hu
    have hsame := (storeAttributes_frame hu).1
    simp only [Overruns, hsame]
    rfl
  have hstore : storeAttributes m s.user = (storeClass m s.user).bind (storeState m) := if_pos hcode
  rw [← hstore]
  constructor
  · rintro ⟨t, ht, hrem⟩
    obtain ⟨u, hu, hdispatch⟩ := Option.bind_eq_some_iff.mp ht
    obtain ⟨hnone, hattribs⟩ := @dispatch_attribs verify msgType m { s with user := u } es hs hcode
    obtain ⟨hclass, hstate⟩ := hattribs t hdispatch
    refine ⟨⟨u, hu, (remembered_congr hclass hstate).mp hrem⟩, ?_⟩
    rw [← hover u hu, ← hnone, hdispatch]
    simp
  · rintro ⟨⟨u, hu, hrem⟩, hfree⟩
    obtain ⟨hnone, hattribs⟩ := @dispatch_attribs verify msgType m { s with user := u } es hs hcode
    rw [← hover u hu, ← hnone] at hfree
    obtain ⟨t, ht⟩ := Option.ne_none_iff_exists'.mp hfree
    obtain ⟨hclass, hstate⟩ := hattribs t ht
    refine ⟨t, ?_, (remembered_congr hclass hstate).mpr hrem⟩
    rw [radiusClientReceive, hu, Option.bind_some, ht]

lemma storeClass_remembered (m : Msg) (u : User) :
    ∃ v, storeClass m u = some v ∧ v.stateAttrib = u.stateAttrib ∧
      (∀ x, m.attr .classAttr = some x → x ≠ [] → (v.classAttrib false).bytes = x.take 160) ∧
      (m.attr .classAttr = none → v.classAttrib = u.classAttrib) := by
  by_cases hex : ∃ x, m.attr .classAttr = some x ∧ x ≠ []
  · obtain ⟨x, hx, hne⟩ := hex
    refine ⟨_, storeClass_of_some hx hne, rfl, ?_, by simp [hx]⟩
    rintro y hy -
    cases hx.symm.trans hy
    simp [User.setClassAttrib, Field.ofBytes]
  · have hnone : ∀ x, m.attr .classAttr = some x → x = [] := fun x hx =>
      by_contra fun hne => hex ⟨x, hx, hne⟩
    exact ⟨u, storeClass_of_none hnone, rfl, fun x hx hne => absurd (hnone x hx) hne, fun _ => rfl⟩

lemma storeState_remembered_iff (hkept : v.stateAttrib = u.stateAttrib) :
    (∃ t, storeState m v = some t ∧ t.classAttrib = v.classAttrib ∧
        (∀ w, m.attr .stateAttr = some w → w ≠ [] → (t.stateAttrib false).bytes = w.take 160) ∧
        (m.attr .stateAttr = none → t.stateAttrib = u.stateAttrib)) ↔
      ∀ w, m.attr .stateAttr = some w → w ≠ [] →
        ∃ x, m.attr .classAttr = some x ∧ x.take 160 = w.take 160 := by
  by_cases hex : ∃ w, m.attr .stateAttr = some w ∧ w ≠ []
  · obtain ⟨w, hw, hne⟩ := hex
    cases hx : m.attr .classAttr with
    | none => simp [storeState_of_noClass hw hne hx, hw, hne]
    | some x =>
      rw [storeState_of_class hw hne hx]
      constructor
      · rintro ⟨t, ht, -, hstored, -⟩ w' hw' hne'
        split_ifs at ht
        rw [← hstored w' hw' hne', ← Option.some.inj ht]
        exact ⟨x, rfl, by simp [User.setStateAttrib, Field.ofBytes]⟩
      · intro h
        obtain ⟨y, hy, hsame⟩ := h w hw hne
        obtain rfl := Option.some.inj hy
        have hfit : min x.length 160 ≤ w.length := by
          have hlen := congrArg List.length hsame
          simp only [List.length_take] at hlen
          omega
        refine ⟨_, if_pos hfit, rfl, ?_, by simp [hw]⟩
        rintro w' hw' -
        cases hw.symm.trans hw'
        simp [User.setStateAttrib, Field.ofBytes, hsame]
  · have hnone : ∀ w, m.attr .stateAttr = some w → w = [] := fun w hw =>
      by_contra fun hne => hex ⟨w, hw, hne⟩
    exact iff_of_true ⟨v, storeState_of_none hnone, rfl, fun w hw hne => absurd (hnone w hw) hne,
      fun _ => hkept⟩ fun w hw hne => absurd (hnone w hw) hne

end Remembered

/-- The attributes of an Access-Accept are remembered exactly if a State comes with a Class whose first
160 bytes are its own, and the handler comes to no session id that is too long for it. -/
theorem attributes_remembered_iff (verify : Msg → Entry → Bool) (msgType : RadiusType) (m : Msg)
    (s : Supplicant) {es : List Entry} (hs : s.client.Has es) (hcode : m.code = .accessAccept) :
    (∃ t, radiusClientReceive verify msgType (some m) s = some t ∧ Remembered m s.user t.user) ↔
      (∀ w, m.attr .stateAttr = some w → w ≠ [] →
        ∃ v, m.attr .classAttr = some v ∧ v.take 160 = w.take 160) ∧
      ¬ Overruns verify msgType m s := by
  obtain ⟨v, hv, hkept, hclass, hnoClass⟩ := storeClass_remembered m s.user
  rw [receive_remembered_iff hs hcode, hv, ← storeState_remembered_iff hkept]
  refine and_congr_left fun _ => ?_
  constructor
  · rintro ⟨t, ht, hrem⟩
    have hframe : t.classAttrib = v.classAttrib := by rw [storeState_frame ht]
    exact ⟨t, ht, hframe, hrem.storedState, hrem.keptState⟩
  · rintro ⟨t, ht, hframe, hstate, hnoState⟩
    exact ⟨t, ht, fun x hx hne => by rw [hframe, hclass x hx hne],
      fun hnone => hframe.trans (hnoClass hnone), hstate, hnoState⟩

theorem class_remembered :
    ∃ t, radiusClientReceive (fun _ _ => true) .auth (some (withClass .accessAccept)) idle = some t ∧
      Remembered (withClass .accessAccept) idle.user t.user :=
  (attributes_remembered_iff (fun _ _ => true) .auth (withClass .accessAccept) idle (has_init []) rfl).mpr
    ⟨fun _ hw => (nomatch hw), fun ⟨_, _, hfind, _⟩ => (nomatch hfind)⟩

/-- With Class 7 and State 8 the State is stored as 7. With a State alone there is no result: it would
be stored with the length -1. -/
theorem state_stored_as_class :
    (∃ t, radiusClientReceive (fun _ _ => true) .auth
        (some ⟨.accessAccept, 0, fun type => if type = .classAttr then some [7] else some [8],
          fun _ => none, false⟩) idle = some t ∧ (t.user.stateAttrib false).bytes = [7]) ∧
      radiusMsgGetAttr ⟨.accessAccept, 0, fun type => if type = .stateAttr then some [8] else none,
        fun _ => none, false⟩ .classAttr (malloc 1) = (-1, malloc 1) ∧
      radiusClientReceive (fun _ _ => true) .auth
        (some ⟨.accessAccept, 0, fun type => if type = .stateAttr then some [8] else none,
          fun _ => none, false⟩) idle = none :=
  ⟨⟨_, rfl, rfl⟩, rfl, rfl⟩

end LdapTgen.SupplicantReceive
