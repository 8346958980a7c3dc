import LdapTgen.SupplicantReceive
import LdapTgen.SupplicantRequest

/-! A round of the supplicant with its server: what a reply brings to the EAPOL machine and to the user, and
what the next request takes from there. -/
namespace LdapTgen.SupplicantRounds
open ByteOrder CString HexEncoders RadiusAttributes RadiusAuthenticators RadiusMessage
open SessionText (hexByte hexDigits flatMap_hexByte_length ppaqUpdateReasonQuotaReached
  ppaqUpdateReasonAccessServiceTerminated)
open SupplicantReceive (WimaxVsa)
open SupplicantRequest Tlv UserData

lemma hexDigit_digit : ∀ n < 16, hexDigit (hexDigits.getD n '0') = some n := by decide

lemma strtoulPair_hexByte (b : UInt8) :
    ∃ c d, hexByte b = [c, d] ∧ UInt8.ofNat (strtoulPair c d) = b := by
  have hb := b.toNat_lt
  have hhi := hexDigit_digit (b.toNat / 16) (by omega)
  have hlo := hexDigit_digit (b.toNat % 16) (by omega)
  refine ⟨_, _, rfl, ?_⟩
  rw [strtoulPair, hhi]
  dsimp only
  rw [hlo]
  dsimp only
  rw [Nat.div_add_mod, UInt8.ofNat_toNat]

lemma unhex_hex_append (bytes : List UInt8) (s : List Char) :
    unhex (bytes.flatMap hexByte ++ s) = bytes ++ unhex s := by
  induction bytes with
  | nil => rfl
  | cons b bytes ih =>
    obtain ⟨c, d, hcd, hb⟩ := strtoulPair_hexByte b
    rw [List.flatMap_cons, hcd, List.append_assoc, List.cons_append, List.singleton_append, unhex, hb,
      ih, List.cons_append]

lemma unhex_hex (bytes : List UInt8) : unhex (bytes.flatMap hexByte) = bytes := by
  have h := unhex_hex_append bytes []
  rw [List.append_nil] at h
  rw [h]
  exact List.append_nil bytes

lemma hexLoop_eq_none {bytes : List UInt8} (hne : bytes ≠ []) {buf : List Char} {p : ℕ}
    (h : buf.length ≤ p + 2 * bytes.length) : hexLoop buf p bytes = none := by
  induction bytes generalizing buf p with
  | nil => exact absurd rfl hne
  | cons b bytes ih =>
    have htwo : (hexByte b).length = 2 := rfl
    rw [List.length_cons] at h
    rw [hexLoop, strcpy, htwo]
    split
    case isFalse => rfl
    case isTrue hroom =>
      rw [Option.bind_some]
      by_cases hnil : bytes = []
      · rw [hnil, List.length_nil] at h
        omega
      · refine ih hnil ?_
        simp only [List.length_append, List.length_take, List.length_cons, List.length_drop, htwo]
        omega

lemma length_of_strcpy {buf out s : List Char} {p : ℕ} (h : strcpy buf p s = some out) :
    out.length = buf.length := by
  unfold strcpy at h
  split at h
  case isFalse => cases h
  case isTrue hroom =>
    obtain rfl := Option.some.inj h
    simp only [List.length_append, List.length_take, List.length_cons, List.length_drop]
    omega

lemma length_of_hexLoop {bytes : List UInt8} {buf out : List Char} {p : ℕ}
    (h : hexLoop buf p bytes = some out) : out.length = buf.length := by
  induction bytes generalizing buf p with
  | nil =>
    obtain rfl := Option.some.inj h
    rfl
  | cons b bytes ih =>
    obtain ⟨buf', hcpy, hrest⟩ := Option.bind_eq_some_iff.mp h
    rw [ih hrest, length_of_strcpy hcpy]

lemma copyTTLS_appends (arr : List Char) {bytes : List UInt8} (hne : bytes ≠ []) :
    Appends (copyVSAAttrValueTTLS arr bytes 0) arr.length [] (bytes.flatMap hexByte) := by
  have hpos : bytes.length ≠ 0 := by simpa using hne
  have hloop : copyVSAAttrValueTTLS arr bytes 0 = hexLoop arr 0 bytes := by
    rw [copyVSAAttrValueTTLS, if_neg hpos]
    rfl
  rw [Appends, hloop, List.length_nil, Nat.zero_add, flatMap_hexByte_length, List.nil_append]
  split
  case isTrue hroom =>
    obtain ⟨w, hw⟩ := hexLoop_eq (u := []) (v := arr) hne hroom
    rw [List.nil_append, List.length_nil, List.nil_append] at hw
    exact ⟨_, hw, length_of_hexLoop hw, nul_notMem_digits bytes, w, rfl⟩
  case isFalse hroom => exact hexLoop_eq_none hne (by omega)

lemma written_aaaSessionId (arr : List Char) {bytes : List UInt8} (hne : bytes ≠ []) :
    ((copyVSAAttrValueTTLS arr bytes 0).bind fun out => strAt out 0) =
      if 2 * bytes.length < arr.length then some (bytes.flatMap hexByte) else none := by
  rw [(copyTTLS_appends arr hne).text, flatMap_hexByte_length, List.length_nil, Nat.zero_add,
    List.nil_append]

lemma written_ppaq (arr : List Char) {bytes : List UInt8} (hne : bytes ≠ []) {reason : List Char}
    (hreason : nul ∉ reason) :
    ((copyVSAAttrValueTTLS arr bytes 0).bind fun out => (strcat out reason).bind fun out => strAt out 0) =
      if 2 * bytes.length + reason.length < arr.length then
        some (bytes.flatMap hexByte ++ reason) else none := by
  have hcopy := copyTTLS_appends arr hne
  rw [Appends, List.length_nil, Nat.zero_add, flatMap_hexByte_length, List.nil_append] at hcopy
  split at hcopy
  case isTrue hroom =>
    obtain ⟨out, hout, hlen, htext⟩ := hcopy
    rw [hout, Option.bind_some, (appends_strcat htext hreason).text, hlen, flatMap_hexByte_length]
  case isFalse hroom =>
    rw [hcopy, if_neg (by omega)]
    rfl

def reasonOf (creditSessionAction : ℤ) : List Char :=
  if creditSessionAction = 2 then ppaqUpdateReasonQuotaReached
  else ppaqUpdateReasonAccessServiceTerminated

/-- An Update or a Termination of a user with a session id and a PPAQ. The arrays of the source have 32 and
128 characters. -/
lemma putWimaxVsa_eq {u : User} {c : ℤ} (hc : c = 2 ∨ c = 3) (hid : u.aaaSessionId.bytes ≠ [])
    (hppaq : u.ppaq.bytes ≠ []) (aaaSessionId ppaq : List Char) :
    ieee8021xPutWimaxVsa aaaSessionId ppaq ttlsSsid u c =
      if 2 * u.aaaSessionId.bytes.length < aaaSessionId.length ∧
          2 * u.ppaq.bytes.length + 6 < ppaq.length then
        some ({ ttlsSsid with
          servicetype := some serviceTypeAuthorizeOnly
          wimaxcapability := some creditSessionInitialWimaxcapability
          aaaSessionId := some (u.aaaSessionId.bytes.flatMap hexByte)
          ppaq := some (u.ppaq.bytes.flatMap hexByte ++ reasonOf c) }, 1)
      else none := by
  have hid' : u.aaaSessionId.bytes.length ≠ 0 := by simpa using hid
  have hppaq' : u.ppaq.bytes.length ≠ 0 := by simpa using hppaq
  have hreason : (reasonOf c).length = 6 := by
    unfold reasonOf
    split <;> rfl
  have hnul : nul ∉ reasonOf c := by
    unfold reasonOf
    split <;> decide
  have htext := written_aaaSessionId aaaSessionId hid
  have hquota := written_ppaq ppaq hppaq hnul
  rw [hreason] at hquota
  have hsession : putSessionId aaaSessionId ttlsSsid u =
      if 2 * u.aaaSessionId.bytes.length < aaaSessionId.length then
        some { ttlsSsid with aaaSessionId := some (u.aaaSessionId.bytes.flatMap hexByte) }
      else none := by
    rw [putSessionId, if_pos hid', htext]
    split <;> rfl
  have hput : ∀ ssid, putPpaq ppaq ssid u (reasonOf c) =
      if 2 * u.ppaq.bytes.length + 6 < ppaq.length then
        some ({ ssid with ppaq := some (u.ppaq.bytes.flatMap hexByte ++ reasonOf c) }, 1) else none := by
    intro ssid
    rw [putPpaq, if_pos hppaq', hquota]
    split <;> rfl
  have hservice : serviceTypeFor u c = serviceTypeAuthorizeOnly := by
    rw [serviceTypeFor, if_pos (by omega)]
  rw [ieee8021xPutWimaxVsa, hsession]
  by_cases hroom : 2 * u.aaaSessionId.bytes.length < aaaSessionId.length
  · rw [if_pos hroom, Option.bind_some, if_neg (fun h => hid' h.1), hservice]
    have hput' := hput { ttlsSsid with
      servicetype := some serviceTypeAuthorizeOnly
      wimaxcapability := some creditSessionInitialWimaxcapability
      aaaSessionId := some (u.aaaSessionId.bytes.flatMap hexByte) }
    simp only [hroom, true_and]
    rcases hc with rfl | rfl
    · exact hput'
    · exact hput'
  · rw [if_neg hroom, if_neg (fun h => hroom h.1)]
    rfl

def accessAccept : UInt8 := 2
def accessReject : UInt8 := 3
def accountingResponse : UInt8 := 5
def classAttr : UInt8 := 25

def attrNumber : SupplicantReceive.AttrType → UInt8
  | .classAttr => classAttr
  | .stateAttr => stateAttr
  | .messageAuthenticator => messageAuthenticator
  | .eapMessage => eapMessage

def vsaNumber : WimaxVsa → UInt8
  | .aaaSessionId => wimaxAaaSessionId
  | .ppaq => wimaxPpaq

def codeClass (code : UInt8) : SupplicantReceive.Code :=
  if code = accessAccept then .accessAccept
  else if code = accessReject then .accessReject
  else if code = accessChallenge then .accessChallenge
  else if code = accountingResponse then .accountingResponse
  else .other

def view (m : RadiusMsg) (differs : Bool) : SupplicantReceive.Msg where
  code := codeClass (codeOf m)
  identifier := m.bytes.getD 1 0
  attr type := (m.attrs.find? fun x => m.attrType x = attrNumber type).map m.attrValue
  wimaxVsa vsa := radiusMsgGetWimaxVsa m vendorIdWimax (vsaNumber vsa)
  differs := differs

def reasonBytes (creditSessionAction : ℤ) : Bytes :=
  if creditSessionAction = 2 then [8, 3, 4] else [8, 3, 8]

lemma unhex_reasonOf (c : ℤ) : unhex (reasonOf c) = reasonBytes c := by
  unfold reasonOf reasonBytes
  split <;> decide

lemma user_of_reply {msg : SupplicantReceive.Msg} {id quota : Bytes} {c₀ : ℤ} (hc₀ : c₀ = 1 ∨ c₀ = 2)
    (hid : msg.wimaxVsa .aaaSessionId = some id) (hquota : msg.wimaxVsa .ppaq = some quota)
    (hidlen : id.length ≤ 32) (hquotalen : quota.length ≤ 128) (u : User) :
    ∃ u', SupplicantReceive.getWimaxVsa msg c₀ u = some (u', 1) ∧ u'.aaaSessionId.bytes = id ∧
      u'.ppaq.bytes = quota := by
  have hne : c₀ ≠ 3 := by omega
  have hshort : ¬ (u.aaaSessionId.bytes.length ≠ 0 ∧ msg.differs ∧ 32 < id.length) := by
    rintro ⟨-, -, hlong⟩
    omega
  refine ⟨{ u with aaaSessionId := .ofBytes id, ppaq := .ofBytes quota }, ?_,
    Field.ofBytes_bytes_eq_iff.mpr hidlen, Field.ofBytes_bytes_eq_iff.mpr hquotalen⟩
  simp only [SupplicantReceive.getWimaxVsa, SupplicantReceive.getAaaSessionId, hid, if_neg hshort,
    Option.map_some, if_pos hc₀, hquota, if_neg hne]

/-- The session id and the PPAQ that a reply brings are sent back byte for byte in the next Update or
Termination, the PPAQ with the reason behind it. The arrays of `ieee802_1x_put_wimax_vsa` are too small for
more than 15 and 60 bytes of them. -/
theorem session_echoed {d : Digest} {a b : Alloc} {secret authenticator id quota : Bytes}
    {identifier : UInt8} {reply : RadiusMsg} {c₀ c : ℤ} {aaaSessionId ppaq : List Char}
    (hgives : a.Gives) (hb : b.Gives) (hauth : authenticator.length = 16)
    (hc₀ : c₀ = 1 ∨ c₀ = 2) (hc : c = 2 ∨ c = 3)
    (hid : radiusMsgGetWimaxVsa reply vendorIdWimax wimaxAaaSessionId = some id)
    (hquota : radiusMsgGetWimaxVsa reply vendorIdWimax wimaxPpaq = some quota)
    (hidne : id ≠ []) (hquotane : quota ≠ []) (hidlen : id.length ≤ 32) (hquotalen : quota.length ≤ 128)
    (harr : aaaSessionId.length = 32) (harr' : ppaq.length = 128) (differs : Bool) (u : User) :
    ∃ u', SupplicantReceive.getWimaxVsa (view reply differs) c₀ u = some (u', 1) ∧
    if 15 < id.length ∨ 60 < quota.length then
      ieee8021xPutWimaxVsa aaaSessionId ppaq ttlsSsid u' c = none
    else ∃ conf, ieee8021xPutWimaxVsa aaaSessionId ppaq ttlsSsid u' c = some (conf, 1) ∧
      ∀ e e' eap m, ieee8021xEncapsulateRadius a false identifier authenticator e eap conf =
          some (e', some m) → m.bufUsed + 18 < 2 ^ 16 →
        ∃ m', radiusMsgParse b (sentBytes d a m secret) = some m' ∧
          radiusMsgVerifyMsgAuth d m' secret none = some (m', 0) ∧ radiusMsgGetEap m' = none ∧
          radiusMsgGetWimaxVsa m' vendorIdWimax wimaxAaaSessionId = some id ∧
          radiusMsgGetWimaxVsa m' vendorIdWimax wimaxPpaq = some (quota ++ reasonBytes c) := by
  have hview : (view reply differs).wimaxVsa .aaaSessionId = some id := hid
  obtain ⟨u', hget, huid, huquota⟩ := user_of_reply hc₀ hview hquota hidlen hquotalen u
  refine ⟨u', hget, ?_⟩
  have hput := putWimaxVsa_eq (u := u') hc (by rw [huid]; exact hidne) (by rw [huquota]; exact hquotane)
    aaaSessionId ppaq
  rw [huid, huquota, harr, harr'] at hput
  split
  case isTrue hlong =>
    rw [hput, if_neg (by omega)]
  case isFalse hshort =>
    rw [if_pos (by omega)] at hput
    refine ⟨_, hput, ?_⟩
    intro e e' eap m henc hsize
    obtain ⟨m', servicetype, hst, hparse, hverify, heap, hvsa, -⟩ :=
      request_read_back d secret hgives hb hauth henc hsize
    have hauthorize : servicetype = serviceTypeAuthorizeOnly := (Option.some.inj hst).symm
    refine ⟨m', hparse, hverify, ?_, ?_, ?_⟩
    · rw [heap, if_pos (.inl hauthorize)]
    · rw [hvsa]
      exact congrArg some (unhex_hex id)
    · rw [hvsa]
      refine congrArg some ?_
      rw [unhex_hex_append, unhex_reasonOf]

def bareUser : User := ⟨fun _ => .empty, fun _ => .empty, .empty, .empty⟩

def sessionReply : Packet :=
  ((emptyPacket accessAccept 7).add
    (attr vendorSpecific (wimaxValue wimaxAaaSessionId [1]) (by decide))).add
    (attr vendorSpecific (wimaxValue wimaxPpaq [2]) (by decide))

def bareTest : EapolTest :=
  ⟨none, none, -1, [127, 0, 0, 1], [2, 0, 0, 0, 0, 1], bareUser, .accessEapTtls, 0, 0⟩

def updateSsid : Ssid := { ttlsSsid with
  servicetype := some serviceTypeAuthorizeOnly
  wimaxcapability := some creditSessionInitialWimaxcapability
  aaaSessionId := some "01".toList
  ppaq := some "02080304".toList }

/-- A session id and a PPAQ of one octet each, and the Update behind them. -/
theorem short_session_echoed : ∃ reply u conf e m m',
    SupplicantReceive.getWimaxVsa (view reply true) 1 bareUser = some (u, 1) ∧
      ieee8021xPutWimaxVsa (List.replicate 32 '0') (List.replicate 128 '0') ttlsSsid u 2 =
        some (conf, 1) ∧
      ieee8021xEncapsulateRadius fixedAlloc false 7 (List.replicate 16 0) bareTest [] conf =
        some (e, some m) ∧
      radiusMsgParse fixedAlloc (sentBytes zeroDigest fixedAlloc m []) = some m' ∧
      radiusMsgGetWimaxVsa m' vendorIdWimax wimaxAaaSessionId = some [1] ∧
      radiusMsgGetWimaxVsa m' vendorIdWimax wimaxPpaq = some [2, 8, 3, 4] := by
  obtain ⟨reply, -, h⟩ := parse_wire fixedAlloc_gives sessionReply [] (by decide)
  have hread : ∀ subtype, radiusMsgGetWimaxVsa reply vendorIdWimax subtype =
      if wimaxAaaSessionId = subtype then some [1] else if wimaxPpaq = subtype then some [2] else none := by
    intro subtype
    rw [radiusMsgGetWimaxVsa, radiusMsgGetVendorAttr, findSome_read h]
    simp only [sessionReply, Packet.add, emptyPacket, List.nil_append, List.cons_append, avps, attr,
      List.map_cons, List.map_nil, List.findSome?_cons, List.findSome?_nil]
    rw [vendorAttrIn_wimaxValue (by decide), vendorAttrIn_wimaxValue (by decide)]
    split_ifs <;> rfl
  obtain ⟨u, hget, hechoed⟩ := @session_echoed zeroDigest fixedAlloc fixedAlloc [] (List.replicate 16 0) [1]
    [2] 7 reply 1 2 (List.replicate 32 '0') (List.replicate 128 '0') fixedAlloc_gives fixedAlloc_gives
    List.length_replicate (.inl rfl) (.inl rfl) (hread wimaxAaaSessionId) (hread wimaxPpaq) (by decide)
    (by decide) (by decide) (by decide) List.length_replicate List.length_replicate true bareUser
  rw [if_neg (by decide)] at hechoed
  obtain ⟨conf, hconf, hsent⟩ := hechoed
  obtain ⟨u', hget', hid, hquota⟩ := user_of_reply (.inl rfl)
    (show (view reply true).wimaxVsa .aaaSessionId = some [1] from hread wimaxAaaSessionId)
    (hread wimaxPpaq) (by decide) (by decide) bareUser
  obtain rfl : u' = u := congrArg Prod.fst (Option.some.inj (hget'.symm.trans hget))
  have hput := putWimaxVsa_eq (u := u') (.inl rfl : (2 : ℤ) = 2 ∨ _) (by simp [hid]) (by simp [hquota])
    (List.replicate 32 '0') (List.replicate 128 '0')
  rw [hid, hquota, if_pos (by decide), hconf] at hput
  obtain rfl : conf = updateSsid := congrArg Prod.fst (Option.some.inj hput)
  obtain ⟨m, henc, hused⟩ := encapsulate_of_fit fixedAlloc_gives
    (show (List.replicate 16 (0 : UInt8)).length = 16 from List.length_replicate)
    (show updateSsid.servicetype = some serviceTypeAuthorizeOnly from rfl)
    (show ∀ v ∈ requestAvps (prepared bareTest 7 [] updateSsid) [] updateSsid serviceTypeAuthorizeOnly,
      v.2.length ≤ radiusMaxAttrLen by decide +kernel)
  obtain ⟨m', hparse, -, -, hid', hquota'⟩ := hsent _ _ _ _ henc (by rw [hused]; decide +kernel)
  exact ⟨reply, u', updateSsid, _, m, m', hget, hconf, henc, hparse, hid', hquota'⟩

end LdapTgen.SupplicantRounds
