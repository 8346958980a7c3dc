import LdapTgen.HexEncoders
import LdapTgen.RadiusAttributes
import LdapTgen.RadiusAuthenticators
import LdapTgen.UserData

/-! The Access-Requests of the supplicant: the WiMAX attributes that `ieee802_1x_put_wimax_vsa` takes from
the user, the message that `ieee802_1x_encapsulate_radius` builds around an EAP packet, and what
`radius_client_send` sends. -/
namespace LdapTgen.SupplicantRequest
open ByteOrder CString HexEncoders RadiusAttributes RadiusAuthenticators RadiusMessage Tlv UserData
open SessionText (ppaqUpdateReasonQuotaReached ppaqUpdateReasonAccessServiceTerminated)

/-- What the request reads of `struct wpa_ssid`; `eapTls` says that its name is `client_EAP-TLS`. -/
structure Ssid where
  eapTls : Bool
  servicetype : Option (List Char)
  wimaxcapability : Option (List Char)
  sessionTerminationCapability : Option (List Char)
  ppac : Option (List Char)
  aaaSessionId : Option (List Char)
  ppaq : Option (List Char)
  deriving DecidableEq

def serviceTypeFramed : List Char := "02".toList
def serviceTypeAuthenticateOnly : List Char := "08".toList
def serviceTypeAuthorizeOnly : List Char := "11".toList
def creditSessionInitialWimaxcapability : List Char := "000105312e30020300030302".toList
def creditSessionInitialSessionTerminationCapability : List Char := "00000001".toList
def creditSessionInitialPpac : List Char := "00010600000003".toList

/-- The network of `wpa_config_network_set`, before the WiMAX attributes are put. -/
def ttlsSsid : Ssid := ⟨false, none, none, none, none, none, none⟩

def putSessionId (aaaSessionId : List Char) (ssid : Ssid) (u : User) : Option Ssid :=
  if u.aaaSessionId.bytes.length ≠ 0 then
    ((copyVSAAttrValueTTLS aaaSessionId u.aaaSessionId.bytes 0).bind fun out => strAt out 0).map
      fun text => { ssid with aaaSessionId := some text }
  else some ssid

/-- The PPAQ of the user and the reason of the update, written to the local array. -/
def putPpaq (ppaq : List Char) (ssid : Ssid) (u : User) (reason : List Char) : Option (Ssid × ℤ) :=
  if u.ppaq.bytes.length ≠ 0 then
    ((copyVSAAttrValueTTLS ppaq u.ppaq.bytes 0).bind fun out =>
      (strcat out reason).bind fun out => strAt out 0).map
        fun text => ({ ssid with ppaq := some text }, 1)
  else some (ssid, -1)

/-- The service type that goes with the action; the session id in the array is empty if there is none. -/
def serviceTypeFor (u : User) (creditSessionAction : ℤ) : List Char :=
  if 2 ≤ creditSessionAction then serviceTypeAuthorizeOnly
  else if creditSessionAction ≠ 1 ∧ u.aaaSessionId.bytes.length ≠ 0 then serviceTypeAuthenticateOnly
  else serviceTypeFramed

/-- The first two arguments are the local arrays, whatever they hold. A write outside of them has no
result. -/
def ieee8021xPutWimaxVsa (aaaSessionId ppaq : List Char) (ssid : Ssid) (u : User)
    (creditSessionAction : ℤ) : Option (Ssid × ℤ) :=
  (putSessionId aaaSessionId ssid u).bind fun ssid =>
    if u.aaaSessionId.bytes.length = 0 ∧ 2 ≤ creditSessionAction then some (ssid, -1)
    else
      let ssid := { ssid with
        servicetype := some (serviceTypeFor u creditSessionAction)
        wimaxcapability := some creditSessionInitialWimaxcapability }
      if creditSessionAction = 1 then
        some ({ ssid with
          ppac := some creditSessionInitialPpac
          sessionTerminationCapability := some creditSessionInitialSessionTerminationCapability }, 1)
      else if creditSessionAction = 2 then putPpaq ppaq ssid u ppaqUpdateReasonQuotaReached
      else if creditSessionAction = 3 then putPpaq ppaq ssid u ppaqUpdateReasonAccessServiceTerminated
      else some (ssid, 1)

inductive StatType
  | accessEapTls
  | accessEapTtls
  | accessEapId
  deriving DecidableEq, Repr

/-- What the request reads and writes of `struct eapol_test_data`. -/
structure EapolTest where
  eapIdentity : Option Bytes
  lastRecvRadius : Option RadiusMsg
  numReauths : ℤ
  ownIpAddr : Bytes
  ownAddr : Bytes
  user : User
  statType : StatType
  statRetries : ℕ
  radiusIdentifier : ℤ

def userName : UInt8 := 1
def nasIpAddress : UInt8 := 4
def serviceType : UInt8 := 6
def framedMtu : UInt8 := 12
def stateAttr : UInt8 := 24
def callingStationId : UInt8 := 31
def nasPortType : UInt8 := 61
def connectInfo : UInt8 := 77

def accessRequest : UInt8 := 1
def accessChallenge : UInt8 := 11

def eapCodeResponse : UInt8 := 2
def eapTypeIdentity : UInt8 := 1

def nasPortTypeIeee80211 : ℕ := 19

def wimaxCapability : UInt8 := 1
def wimaxAaaSessionId : UInt8 := 4
def wimaxPpac : UInt8 := 35
def wimaxSessionTerminationCapability : UInt8 := 36
def wimaxPpaq : UInt8 := 37

def learnedIdentity : Bytes → Option Bytes
  | code :: _ :: _ :: _ :: type :: identity =>
      if code = eapCodeResponse ∧ type = eapTypeIdentity then some identity else none
  | _ => none

def octets (text : List Char) : Bytes := text.map fun c => UInt8.ofNat c.toNat

def upperHex (b : UInt8) : List Char :=
  [("0123456789ABCDEF".toList).getD (b.toNat / 16) '0', ("0123456789ABCDEF".toList).getD (b.toNat % 16) '0']

/-- `RADIUS_802_1X_ADDR_FORMAT` -/
def macText (addr : Bytes) : List Char := ['-'].intercalate (addr.map upperHex)

/-- `strtoul` of `0x` and the text, for a `long` of 32 bits. -/
def strtoulHex (text : List Char) : ℕ :=
  min ((text.map hexDigit).takeWhile Option.isSome |>.foldl (fun n d => 16 * n + d.getD 0) 0) (2 ^ 32 - 1)

def codeOf (m : RadiusMsg) : UInt8 := m.bytes.getD 0 0

def addState (a : Alloc) (e : EapolTest) (m : RadiusMsg) : Option RadiusMsg :=
  let ownState := fun (_ : Unit) =>
    if 0 ≤ e.numReauths ∨ 0 < (e.user.stateAttrib false).bytes.length then
      added (radiusMsgAddAttr a m stateAttr (e.user.stateAttrib false).bytes)
    else some m
  match e.lastRecvRadius with
  | some last =>
      if codeOf last = accessChallenge then copied (radiusMsgCopyAttr a m last stateAttr)
      else ownState ()
  | none => ownState ()

def addWimax (a : Alloc) (vendorType : UInt8) (text : Option (List Char)) (m : RadiusMsg) :
    Option RadiusMsg :=
  match text with
  | some text => checked (radiusMsgAddWimaxVsa a m vendorType text)
  | none => some m

def addIdentity (a : Alloc) (e : EapolTest) (m : RadiusMsg) : Option RadiusMsg :=
  match e.eapIdentity with
  | some identity => added (radiusMsgAddAttr a m userName identity)
  | none => some m

/-- The port and the EAP packet, which a request to authorize only does not have. -/
def addPort (a : Alloc) (noData : Bool) (e : EapolTest) (eap : Bytes) (servicetype : List Char)
    (m : RadiusMsg) : Option RadiusMsg :=
  if servicetype ≠ serviceTypeAuthorizeOnly then do
    let m ← added (radiusMsgAddAttr a m callingStationId (octets (macText e.ownAddr)))
    let m ← checked (radiusMsgAddAttrInt32 a m framedMtu 1400)
    let m ← checked (radiusMsgAddAttrInt32 a m nasPortType nasPortTypeIeee80211)
    let m ← added (radiusMsgAddAttr a m connectInfo (octets "CONNECT 11Mbps 802.11b".toList))
    checked (radiusMsgAddEap a noData m eap)
  else some m

def addRequest (a : Alloc) (noData : Bool) (e : EapolTest) (eap : Bytes) (conf : Ssid)
    (servicetype : List Char) (m : RadiusMsg) : Option RadiusMsg := do
  let m ← addIdentity a e m
  let m ← added (radiusMsgAddAttr a m nasIpAddress e.ownIpAddr)
  let m ← addPort a noData e eap servicetype m
  let m ← addState a e m
  let m ← checked (radiusMsgAddAttrInt32 a m serviceType (strtoulHex servicetype))
  let m ← addWimax a wimaxCapability conf.wimaxcapability m
  let m ← addWimax a wimaxSessionTerminationCapability conf.sessionTerminationCapability m
  let m ← addWimax a wimaxPpac conf.ppac m
  let m ← addWimax a wimaxAaaSessionId conf.aaaSessionId m
  addWimax a wimaxPpaq conf.ppaq m

/-- What the request leaves in `struct eapol_test_data`. -/
def prepared (e : EapolTest) (identifier : UInt8) (eap : Bytes) (conf : Ssid) : EapolTest :=
  let e := { e with
    statType := if conf.eapTls then .accessEapTls else .accessEapTtls
    statRetries := 0
    radiusIdentifier := identifier.toNat }
  match learnedIdentity eap with
  | some identity => { e with eapIdentity := some identity, statType := .accessEapId }
  | none => e

/-- `none` without a service type, which `strcmp` reads, and no message when it could not be built. -/
def ieee8021xEncapsulateRadius (a : Alloc) (noData : Bool) (identifier : UInt8) (authenticator : Bytes)
    (e : EapolTest) (eap : Bytes) (conf : Ssid) : Option (EapolTest × Option RadiusMsg) :=
  conf.servicetype.map fun servicetype =>
    let e := prepared e identifier eap conf
    (e, (radiusMsgNew a accessRequest identifier).bind fun m =>
      addRequest a noData e eap conf servicetype (radiusMsgMakeAuthenticator m authenticator))

/-- What `radius_client_send` sends of a message for authentication; it does not look at the result of
`radius_msg_finish`. -/
def sentBytes (d : Digest) (a : Alloc) (m : RadiusMsg) (secret : Bytes) : Bytes :=
  usedBytes (radiusMsgFinish d a m (some secret)).1

def stateAvps (e : EapolTest) : List (UInt8 × Bytes) :=
  let ownState := if 0 ≤ e.numReauths ∨ 0 < (e.user.stateAttrib false).bytes.length then
      [(stateAttr, (e.user.stateAttrib false).bytes)] else []
  match e.lastRecvRadius with
  | some last => if codeOf last = accessChallenge then copiedAvps last stateAttr else ownState
  | none => ownState

def wimaxAvps (vendorType : UInt8) : Option (List Char) → List (UInt8 × Bytes)
  | some text => [(vendorSpecific, wimaxValue vendorType (unhex text))]
  | none => []

def portAvps (e : EapolTest) : List (UInt8 × Bytes) :=
  [(callingStationId, octets (macText e.ownAddr)), (framedMtu, toBytes 4 1400),
    (nasPortType, toBytes 4 nasPortTypeIeee80211),
    (connectInfo, octets "CONNECT 11Mbps 802.11b".toList)]

def vendorAvps (conf : Ssid) : List (UInt8 × Bytes) :=
  wimaxAvps wimaxCapability conf.wimaxcapability ++
    (wimaxAvps wimaxSessionTerminationCapability conf.sessionTerminationCapability ++
    (wimaxAvps wimaxPpac conf.ppac ++
    (wimaxAvps wimaxAaaSessionId conf.aaaSessionId ++ wimaxAvps wimaxPpaq conf.ppaq)))

def identityAvps (e : EapolTest) : List (UInt8 × Bytes) :=
  match e.eapIdentity with
  | some identity => [(userName, identity)]
  | none => []

def requestAvps (e : EapolTest) (eap : Bytes) (conf : Ssid) (servicetype : List Char) :
    List (UInt8 × Bytes) :=
  identityAvps e ++ ([(nasIpAddress, e.ownIpAddr)] ++
    ((if servicetype ≠ serviceTypeAuthorizeOnly then portAvps e ++ eapAvps eap else []) ++
    (stateAvps e ++
    ([(serviceType, toBytes 4 (strtoulHex servicetype))] ++ vendorAvps conf))))

section Equations
variable (a : Alloc) (e : EapolTest) (m : RadiusMsg)

lemma addState_eq : addState a e m = addAttrs a m (stateAvps e) := by
  unfold addState stateAvps
  cases e.lastRecvRadius with
  | none =>
    dsimp only
    split
    · exact added_addAttr ..
    · rfl
  | some last =>
    dsimp only
    split
    · exact copied_copyAttr ..
    · split
      · exact added_addAttr ..
      · rfl

lemma addWimax_eq (vendorType : UInt8) (text : Option (List Char)) :
    addWimax a vendorType text m = addAttrs a m (wimaxAvps vendorType text) := by
  cases text with
  | none => rfl
  | some text => exact checked_addWimaxVsa ..

lemma addIdentity_eq : addIdentity a e m = addAttrs a m (identityAvps e) := by
  unfold addIdentity identityAvps
  cases e.eapIdentity with
  | none => rfl
  | some identity => exact added_addAttr ..

lemma addPort_eq (eap : Bytes) (servicetype : List Char) :
    addPort a false e eap servicetype m =
      addAttrs a m (if servicetype ≠ serviceTypeAuthorizeOnly then portAvps e ++ eapAvps eap else []) := by
  unfold addPort
  split
  · have hsplit : portAvps e ++ eapAvps eap =
        [(callingStationId, octets (macText e.ownAddr))] ++ ([(framedMtu, toBytes 4 1400)] ++
        ([(nasPortType, toBytes 4 nasPortTypeIeee80211)] ++
        ([(connectInfo, octets "CONNECT 11Mbps 802.11b".toList)] ++ eapAvps eap))) := rfl
    rw [hsplit]
    simp only [added_addAttr, checked_addAttrInt32, checked_addEap, addAttrs_append,
      Option.bind_eq_bind]
  · rfl

lemma addRequest_eq (eap : Bytes) (conf : Ssid) (servicetype : List Char) :
    addRequest a false e eap conf servicetype m =
      addAttrs a m (requestAvps e eap conf servicetype) := by
  unfold addRequest requestAvps vendorAvps
  simp only [addIdentity_eq, addPort_eq, added_addAttr, checked_addAttrInt32, addState_eq,
    addWimax_eq, addAttrs_append, Option.bind_eq_bind]

end Equations

def Ssid.vsa (conf : Ssid) (vendorType : UInt8) : Option (List Char) :=
  if vendorType = wimaxCapability then conf.wimaxcapability
  else if vendorType = wimaxSessionTerminationCapability then conf.sessionTerminationCapability
  else if vendorType = wimaxPpac then conf.ppac
  else if vendorType = wimaxAaaSessionId then conf.aaaSessionId
  else if vendorType = wimaxPpaq then conf.ppaq
  else none

def eapOf (as : List (UInt8 × Bytes)) : Bytes :=
  (as.filter fun v => v.1 = eapMessage).flatMap fun v => v.2

lemma eapOf_append (as bs : List (UInt8 × Bytes)) : eapOf (as ++ bs) = eapOf as ++ eapOf bs := by
  simp [eapOf]

lemma eapOf_of_ne {as : List (UInt8 × Bytes)} (h : ∀ v ∈ as, v.1 ≠ eapMessage) : eapOf as = [] := by
  have hnil : (as.filter fun v => v.1 = eapMessage) = [] := by
    rw [List.filter_eq_nil_iff]
    intro v hv
    simpa using h v hv
  rw [eapOf, hnil, List.flatMap_nil]

lemma eapOf_eapAvps (eap : Bytes) : eapOf (eapAvps eap) = eap := by
  have hall : (eapAvps eap).filter (fun v => v.1 = eapMessage) = eapAvps eap := by
    rw [List.filter_eq_self]
    intro v hv
    obtain ⟨piece, -, rfl⟩ := List.mem_map.mp hv
    simp
  rw [eapOf, hall, flatMap_eapAvps]

lemma getEap_eq {m : RadiusMsg} {p : Packet} {len : ℕ} (h : m.Holds p len) :
    radiusMsgGetEap m = if eapOf (avps p.attrs) = [] then none else some (eapOf (avps p.attrs)) := by
  have hfilter : (p.attrs.filter fun e => e.tag = eapMessage).flatMap (fun e => e.body) =
      eapOf (avps p.attrs) := by
    rw [eapOf, avps, List.filter_map, List.flatMap_map]
    rfl
  rw [getEap_of_holds h]
  simp only [hfilter, List.length_eq_zero_iff]

section Types
variable {e : EapolTest} {conf : Ssid} {v : UInt8 × Bytes}

lemma type_of_mem_copiedAvps {src : RadiusMsg} {type : UInt8} (hv : v ∈ copiedAvps src type) :
    v.1 = type := by
  unfold copiedAvps at hv
  split at hv
  · cases hv
  · rw [List.mem_singleton] at hv
    rw [hv]

lemma type_of_mem_stateAvps (hv : v ∈ stateAvps e) : v.1 = stateAttr := by
  have hown : ∀ {w : UInt8 × Bytes}, w ∈ (if 0 ≤ e.numReauths ∨
      0 < (e.user.stateAttrib false).bytes.length then
      [(stateAttr, (e.user.stateAttrib false).bytes)] else []) → w.1 = stateAttr := by
    intro w hw
    split at hw
    · rw [List.mem_singleton] at hw
      rw [hw]
    · cases hw
  unfold stateAvps at hv
  cases hlast : e.lastRecvRadius with
  | none => exact hown (by simpa [hlast] using hv)
  | some last =>
    simp only [hlast] at hv
    split at hv
    · exact type_of_mem_copiedAvps hv
    · exact hown hv

lemma type_of_mem_wimaxAvps {vendorType : UInt8} {text : Option (List Char)}
    (hv : v ∈ wimaxAvps vendorType text) : v.1 = vendorSpecific := by
  cases text with
  | none => cases hv
  | some text =>
    rw [wimaxAvps, List.mem_singleton] at hv
    rw [hv]

lemma type_of_mem_vendorAvps (hv : v ∈ vendorAvps conf) : v.1 = vendorSpecific := by
  simp only [vendorAvps, List.mem_append] at hv
  rcases hv with hv | hv | hv | hv | hv <;> exact type_of_mem_wimaxAvps hv

lemma type_of_mem_identityAvps (hv : v ∈ identityAvps e) : v.1 = userName := by
  unfold identityAvps at hv
  split at hv
  · rw [List.mem_singleton] at hv
    rw [hv]
  · cases hv

lemma type_of_mem_portAvps (hv : v ∈ portAvps e) :
    v.1 = callingStationId ∨ v.1 = framedMtu ∨ v.1 = nasPortType ∨ v.1 = connectInfo := by
  simp only [portAvps, List.mem_cons, List.not_mem_nil, or_false] at hv
  rcases hv with rfl | rfl | rfl | rfl <;> simp

lemma type_of_mem_eapAvps {eap : Bytes} (hv : v ∈ eapAvps eap) : v.1 = eapMessage := by
  obtain ⟨piece, -, rfl⟩ := List.mem_map.mp hv
  rfl

end Types

section ReadBack
variable {e : EapolTest} {conf : Ssid} {eap : Bytes} {servicetype : List Char}

lemma eapOf_requestAvps (e : EapolTest) (eap : Bytes) (conf : Ssid) (servicetype : List Char) :
    eapOf (requestAvps e eap conf servicetype) =
      if servicetype ≠ serviceTypeAuthorizeOnly then eap else [] := by
  have hidentity : eapOf (identityAvps e) = [] := by
    refine eapOf_of_ne fun v hv => ?_
    rw [type_of_mem_identityAvps hv]
    decide
  have hport : eapOf (portAvps e) = [] := by
    refine eapOf_of_ne fun v hv => ?_
    rcases type_of_mem_portAvps hv with h | h | h | h <;> rw [h] <;> decide
  have hstate : eapOf (stateAvps e) = [] := by
    refine eapOf_of_ne fun v hv => ?_
    rw [type_of_mem_stateAvps hv]
    decide
  have hvendor : eapOf (vendorAvps conf) = [] := by
    refine eapOf_of_ne fun v hv => ?_
    rw [type_of_mem_vendorAvps hv]
    decide
  have hip : eapOf [(nasIpAddress, e.ownIpAddr)] = [] := rfl
  have htype : eapOf [(serviceType, toBytes 4 (strtoulHex servicetype))] = [] := rfl
  rw [requestAvps, eapOf_append, eapOf_append, eapOf_append, eapOf_append, eapOf_append, hidentity,
    hip, hstate, htype, hvendor]
  split
  · rw [eapOf_append, hport, eapOf_eapAvps]
    simp
  · rfl

lemma ne_mac_of_mem_requestAvps {v : UInt8 × Bytes} (hv : v ∈ requestAvps e eap conf servicetype) :
    v.1 ≠ messageAuthenticator := by
  simp only [requestAvps, List.mem_append] at hv
  rcases hv with hv | hv | hv | hv | hv | hv
  · rw [type_of_mem_identityAvps hv]
    decide
  · rw [show v.1 = nasIpAddress from congrArg Prod.fst (List.mem_singleton.mp hv)]
    decide
  · split at hv
    · rw [List.mem_append] at hv
      rcases hv with hv | hv
      · rcases type_of_mem_portAvps hv with h | h | h | h <;> rw [h] <;> decide
      · rw [type_of_mem_eapAvps hv]
        decide
    · cases hv
  · rw [type_of_mem_stateAvps hv]
    decide
  · rw [show v.1 = serviceType from congrArg Prod.fst (List.mem_singleton.mp hv)]
    decide
  · rw [type_of_mem_vendorAvps hv]
    decide

lemma findVendor_of_ne {vendor : ℕ} {subtype : UInt8} {as : List (UInt8 × Bytes)}
    (h : ∀ v ∈ as, v.1 ≠ vendorSpecific) : as.findSome? (vendorAttrIn vendor subtype) = none := by
  rw [List.findSome?_eq_none_iff]
  intro v hv
  rw [vendorAttrIn, if_pos (h v hv)]

lemma findVendor_singleton {vendor : ℕ} {subtype type : UInt8} {value : Bytes}
    (h : type ≠ vendorSpecific) : [(type, value)].findSome? (vendorAttrIn vendor subtype) = none := by
  refine findVendor_of_ne fun v hv => ?_
  rw [List.mem_singleton.mp hv]
  exact h

lemma findVendor_wimaxAvps {vendorType subtype : UInt8} {text : Option (List Char)}
    (hfit : ∀ v ∈ wimaxAvps vendorType text, v.2.length ≤ radiusMaxAttrLen) :
    (wimaxAvps vendorType text).findSome? (vendorAttrIn vendorIdWimax subtype) =
      if vendorType = subtype then text.map unhex else none := by
  cases text with
  | none => simp [wimaxAvps]
  | some text =>
    have hlen := hfit _ (List.mem_singleton.mpr rfl)
    rw [wimaxAvps, List.findSome?_cons, vendorAttrIn_wimaxValue hlen]
    by_cases htype : vendorType = subtype <;> simp [htype]

lemma findVendor_vendorAvps (hfit : ∀ v ∈ vendorAvps conf, v.2.length ≤ radiusMaxAttrLen)
    (subtype : UInt8) :
    (vendorAvps conf).findSome? (vendorAttrIn vendorIdWimax subtype) =
      (conf.vsa subtype).map unhex := by
  simp only [vendorAvps, List.forall_mem_append] at hfit
  obtain ⟨h1, h2, h3, h4, h5⟩ := hfit
  rw [vendorAvps, List.findSome?_append, List.findSome?_append, List.findSome?_append,
    List.findSome?_append, findVendor_wimaxAvps h1, findVendor_wimaxAvps h2, findVendor_wimaxAvps h3,
    findVendor_wimaxAvps h4, findVendor_wimaxAvps h5, Ssid.vsa]
  -- the types are different, so that at most one text is asked for
  by_cases hc : wimaxCapability = subtype
  · subst hc
    cases conf.wimaxcapability <;> rfl
  by_cases hs : wimaxSessionTerminationCapability = subtype
  · subst hs
    cases conf.sessionTerminationCapability <;> rfl
  by_cases hp : wimaxPpac = subtype
  · subst hp
    cases conf.ppac <;> rfl
  by_cases ha : wimaxAaaSessionId = subtype
  · subst ha
    cases conf.aaaSessionId <;> rfl
  by_cases hq : wimaxPpaq = subtype
  · subst hq
    cases conf.ppaq <;> rfl
  simp only [hc, hs, hp, ha, hq, eq_comm (a := subtype), if_false, Option.none_or, Option.map_none]

lemma findVendor_requestAvps (hfit : ∀ v ∈ vendorAvps conf, v.2.length ≤ radiusMaxAttrLen)
    (subtype : UInt8) :
    (requestAvps e eap conf servicetype).findSome? (vendorAttrIn vendorIdWimax subtype) =
      (conf.vsa subtype).map unhex := by
  have hidentity : (identityAvps e).findSome? (vendorAttrIn vendorIdWimax subtype) = none := by
    refine findVendor_of_ne fun v hv => ?_
    rw [type_of_mem_identityAvps hv]
    decide
  have hport : (if servicetype ≠ serviceTypeAuthorizeOnly then portAvps e ++ eapAvps eap
      else []).findSome? (vendorAttrIn vendorIdWimax subtype) = none := by
    refine findVendor_of_ne fun v hv => ?_
    split at hv
    · rw [List.mem_append] at hv
      rcases hv with hv | hv
      · rcases type_of_mem_portAvps hv with h | h | h | h <;> rw [h] <;> decide
      · rw [type_of_mem_eapAvps hv]
        decide
    · cases hv
  have hstate : (stateAvps e).findSome? (vendorAttrIn vendorIdWimax subtype) = none := by
    refine findVendor_of_ne fun v hv => ?_
    rw [type_of_mem_stateAvps hv]
    decide
  have hip : [(nasIpAddress, e.ownIpAddr)].findSome? (vendorAttrIn vendorIdWimax subtype) = none :=
    findVendor_singleton (by decide)
  have htype : [(serviceType, toBytes 4 (strtoulHex servicetype))].findSome?
      (vendorAttrIn vendorIdWimax subtype) = none := findVendor_singleton (by decide)
  rw [requestAvps, List.findSome?_append, List.findSome?_append, List.findSome?_append,
    List.findSome?_append, List.findSome?_append, hidentity, hip, hport, hstate, htype,
    findVendor_vendorAvps hfit]
  rfl

end ReadBack

section Request
variable (d : Digest) (secret : Bytes) {a b : Alloc} {identifier : UInt8} {authenticator : Bytes}
  {e e' : EapolTest} {eap : Bytes} {conf : Ssid} {m : RadiusMsg}

lemma encapsulate_carries (hauth : authenticator.length = 16)
    (h : ieee8021xEncapsulateRadius a false identifier authenticator e eap conf = some (e', some m)) :
    ∃ servicetype es, conf.servicetype = some servicetype ∧ e' = prepared e identifier eap conf ∧
      avps es = requestAvps e' eap conf servicetype ∧
      m.Carries ⟨accessRequest, identifier, authenticator, es, hauth⟩ 0 := by
  obtain ⟨servicetype, hst, heq⟩ := Option.map_eq_some_iff.mp h
  obtain ⟨rfl, hm⟩ := Prod.mk.inj heq
  obtain ⟨m₀, hnew, hadd⟩ := Option.bind_eq_some_iff.mp hm
  rw [addRequest_eq] at hadd
  have h₀ := makeAuthenticator_carries (new_carries hnew) hauth
  obtain ⟨es, hes, hm'⟩ := addAttrs_carries h₀ hadd
  exact ⟨servicetype, es, hst, rfl, hes, hm'⟩

lemma encapsulate_of_fit (hgives : a.Gives) (hauth : authenticator.length = 16)
    {servicetype : List Char} (hst : conf.servicetype = some servicetype)
    (hfit : ∀ v ∈ requestAvps (prepared e identifier eap conf) eap conf servicetype,
      v.2.length ≤ radiusMaxAttrLen) :
    ∃ m, ieee8021xEncapsulateRadius a false identifier authenticator e eap conf =
        some (prepared e identifier eap conf, some m) ∧
      m.bufUsed = radiusHdrLen + ((requestAvps (prepared e identifier eap conf) eap conf servicetype).map
        fun v => v.2.length + 2).sum := by
  obtain ⟨buf, hbuf⟩ := hgives.buf radiusDefaultMsgSize
  have hinit := initialize_eq_some_iff.mpr
    ⟨by decide, hgives.attrs radiusDefaultAttrCount, buf, hbuf, rfl⟩
  have hnew : radiusMsgNew a accessRequest identifier = some (radiusMsgSetHdr _ accessRequest identifier) :=
    Option.map_eq_some_iff.mpr ⟨_, hinit, rfl⟩
  obtain ⟨m, hm, hused⟩ := addAttrs_of_fit hgives (makeAuthenticator_carries (new_carries hnew) hauth) hfit
  refine ⟨m, ?_, hused⟩
  rw [ieee8021xEncapsulateRadius, hst, Option.map_some, hnew]
  dsimp only [Option.bind_some]
  rw [addRequest_eq, hm]

/-- What is sent of a request is read back by the server: the Message-Authenticator is right, the EAP
packet is the one that was sent unless the request is to authorize only, and so are the texts of the
WiMAX attributes. Both sides hold the same packet. -/
lemma request_read_back (hgives : a.Gives) (hb : b.Gives) (hauth : authenticator.length = 16)
    (h : ieee8021xEncapsulateRadius a false identifier authenticator e eap conf = some (e', some m))
    (hsize : m.bufUsed + 18 < 2 ^ 16) :
    ∃ m' servicetype, conf.servicetype = some servicetype ∧
      radiusMsgParse b (sentBytes d a m secret) = some m' ∧
      radiusMsgVerifyMsgAuth d m' secret none = some (m', 0) ∧
      radiusMsgGetEap m' =
        (if servicetype = serviceTypeAuthorizeOnly ∨ eap = [] then none else some eap) ∧
      (∀ subtype, radiusMsgGetWimaxVsa m' vendorIdWimax subtype = (conf.vsa subtype).map unhex) ∧
      ∃ q : Packet, m'.Holds q q.size ∧ q.identifier = identifier ∧
        (radiusMsgFinish d a m (some secret)).1.Carries q q.size := by
  obtain ⟨servicetype, es, hst, -, hes, hm⟩ := encapsulate_carries hauth h
  set p : Packet := ⟨accessRequest, identifier, authenticator, es, hauth⟩ with hp
  have hne : ∀ x ∈ p.attrs, x.tag ≠ messageAuthenticator := by
    intro x hx
    have hmem : (x.tag, x.body) ∈ requestAvps e' eap conf servicetype := by
      rw [← hes]
      exact List.mem_map.mpr ⟨x, hx, rfl⟩
    exact ne_mac_of_mem_requestAvps hmem
  obtain ⟨m₁, hfinish, h₁⟩ := finish_carries d secret hgives hm
  have hsigned := size_signed d secret p
  have hused := hm.used
  obtain ⟨m', hparse, h'⟩ := parse_wire hb (signed d secret p) [] (by omega)
  obtain ⟨mac, hone, hbody⟩ := signed_oneMac d secret hne
  have havps : avps (signed d secret p).attrs =
      requestAvps e' eap conf servicetype ++ [(messageAuthenticator, mac.body)] := by
    rw [hone.attrs, avps, List.map_append, ← hone.tag, ← hes]
    rfl
  refine ⟨m', servicetype, hst, ?_, ?_, ?_, ?_, signed d secret p, h', rfl, ?_⟩
  · rw [sentBytes, hfinish, usedBytes_of_carries h₁]
    rw [List.append_nil] at hparse
    exact hparse
  · rw [verifyMsgAuth_request d secret hone h', if_pos hbody]
  · have hmacEap : eapOf [(messageAuthenticator, mac.body)] = [] := rfl
    rw [getEap_eq h', havps, eapOf_append, eapOf_requestAvps, hmacEap, List.append_nil]
    by_cases hauthorize : servicetype = serviceTypeAuthorizeOnly
    · simp [hauthorize]
    · simp [hauthorize]
  · intro subtype
    have hfit : ∀ v ∈ vendorAvps conf, v.2.length ≤ radiusMaxAttrLen := by
      intro v hv
      have hmem : v ∈ avps es := by
        rw [hes]
        simp [requestAvps, hv]
      obtain ⟨x, -, rfl⟩ := List.mem_map.mp hmem
      have hlt := x.fits.2
      rw [Nat.div_one] at hlt
      simp only [radiusMaxAttrLen]
      omega
    have hmacVendor : [(messageAuthenticator, mac.body)].findSome?
        (vendorAttrIn vendorIdWimax subtype) = none := findVendor_singleton (by decide)
    rw [radiusMsgGetWimaxVsa, radiusMsgGetVendorAttr, findSome_read h', havps,
      List.findSome?_append, findVendor_requestAvps hfit, hmacVendor, Option.or_none]
  · rw [hfinish]
    exact h₁

end Request

end LdapTgen.SupplicantRequest
