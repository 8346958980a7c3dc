import LdapTgen.ChainedBlocks
import LdapTgen.RadiusAttributes
import LdapTgen.RadiusAuthenticators

/-! The keys of an Access-Accept: hidden under the secret of the server and the authenticator of the
request, and sent as attributes of a vendor. -/
namespace LdapTgen.MppeKeys
open ByteOrder ChainedBlocks RadiusAttributes RadiusAuthenticators RadiusMessage Tlv

def vendorIdMicrosoft : ℕ := 311
def vendorAttrMsMppeSendKey : UInt8 := 16
def vendorAttrMsMppeRecvKey : UInt8 := 17

def vendorIdCisco : ℕ := 9
def ciscoAvPair : UInt8 := 1

def xorByte (a b : UInt8) : UInt8 := a ^^^ b

/-- The digest that a block is combined with: that of the secret and of the hidden block before. -/
def blockDigest (d : Digest) (secret before : Bytes) : Bytes := d.md5 (secret ++ before)

def decryptMsKey (d : Digest) (key reqAuthenticator secret : Bytes) : Option Bytes :=
  if key.length < 2 + 16 then none
  else if (key.length - 2) % 16 ≠ 0 then none
  else
    let plain := unhide xorByte (blockDigest d secret) md5MacLen
      (blockDigest d secret (reqAuthenticator ++ key.take 2)) (key.drop 2)
    if plain.length - 1 < (plain.getD 0 0).toNat then none
    else some ((plain.drop 1).take (plain.getD 0 0).toNat)

/-- `len` of `encrypt_ms_key`: its upper bits are lost when it is rounded. -/
def encryptedLen (keyLen : ℕ) : ℕ :=
  let len := 1 + keyLen
  if len &&& 0x0f = 0 then len else (len &&& 0xf0) + 16

/-- `none` when there is more to be written than the buffer has room for. -/
def encryptMsKey (d : Digest) (room : ℕ) (key salt reqAuthenticator secret : Bytes) : Option Bytes :=
  let len := encryptedLen key.length
  if room < len ∨ room < 1 + key.length then none
  else
    let ebuf := (UInt8.ofNat key.length :: key ++ List.replicate (len - (1 + key.length)) 0).take len
    some (hide xorByte (blockDigest d secret) md5MacLen
      (blockDigest d secret (reqAuthenticator ++ salt)) ebuf)

def mppeValue (vendorType : UInt8) (salt encrypted : Bytes) : Bytes :=
  toBytes 4 vendorIdMicrosoft ++ vendorType :: UInt8.ofNat (4 + encrypted.length) :: (salt ++ encrypted)

def addMppeKey (d : Digest) (a : Alloc) (m : RadiusMsg) (vendorType : UInt8) (room salt : ℕ)
    (key reqAuthenticator secret : Bytes) : Option (RadiusMsg × Option ℤ) :=
  (encryptMsKey d room key (toBytes 2 salt) reqAuthenticator secret).map fun encrypted =>
    radiusMsgAddAttr a m vendorSpecific (mppeValue vendorType (toBytes 2 salt) encrypted)

/-- `random` is what the generator gives for the salt. -/
def radiusMsgAddMppeKeys (d : Digest) (a : Alloc) (m : RadiusMsg) (random : ℕ)
    (reqAuthenticator secret sendKey recvKey : Bytes) : Option (RadiusMsg × ℤ) :=
  let salt := random % 2 ^ 16 ||| 0x8000
  let room := sendKey.length + 16
  match addMppeKey d a m vendorAttrMsMppeSendKey room salt sendKey reqAuthenticator secret with
  | none => none
  | some (m, none) => some (m, 0)
  | some (m, some _) =>
      match addMppeKey d a m vendorAttrMsMppeRecvKey room (salt ^^^ 1) recvKey reqAuthenticator
          secret with
      | none => none
      | some (m, none) => some (m, 0)
      | some (m, some _) => some (m, 1)

structure MsMppeKeys where
  send : Option Bytes
  recv : Option Bytes
  deriving DecidableEq

def radiusMsgGetMsKeys (d : Digest) (m sent : RadiusMsg) (secret : Bytes) : MsMppeKeys where
  send := (radiusMsgGetVendorAttr m vendorIdMicrosoft vendorAttrMsMppeSendKey).bind fun key =>
    decryptMsKey d key (authenticatorOf sent) secret
  recv := (radiusMsgGetVendorAttr m vendorIdMicrosoft vendorAttrMsMppeRecvKey).bind fun key =>
    decryptMsKey d key (authenticatorOf sent) secret

def leapSessionKey : Bytes :=
  [108, 101, 97, 112, 58, 115, 101, 115, 115, 105, 111, 110, 45, 107, 101, 121, 61]

def radiusMsgGetCiscoKeys (d : Digest) (m sent : RadiusMsg) (secret : Bytes) : MsMppeKeys where
  send := none
  recv := (radiusMsgGetVendorAttr m vendorIdCisco ciscoAvPair).bind fun key =>
    if key.length = 51 ∧ key.take 17 = leapSessionKey then
      decryptMsKey d (key.drop 17) (authenticatorOf sent) secret
    else none

def pmkLen : ℕ := 32

structure AuthenticatorPmk where
  pmk : Bytes
  len : ℕ

def ieee8021xGetKeys (d : Digest) (m sent : RadiusMsg) (secret : Bytes) (k : AuthenticatorPmk) :
    AuthenticatorPmk :=
  let keys := radiusMsgGetMsKeys d m sent secret
  let keys := if keys.send = none ∧ keys.recv = none then radiusMsgGetCiscoKeys d m sent secret else keys
  match keys.recv with
  | none => k
  | some recv =>
      let len := if pmkLen < recv.length then pmkLen else recv.length
      ⟨memcpy k.pmk 0 (recv.take len), len⟩

lemma xorByte_xorByte (a k : UInt8) : xorByte (xorByte a k) k = a := by
  rw [xorByte, xorByte, UInt8.xor_assoc, UInt8.xor_self, UInt8.xor_zero]

lemma length_blockDigest (d : Digest) (secret before : Bytes) :
    (blockDigest d secret before).length = md5MacLen := d.length_md5 _

lemma encryptedLen_eq {n : ℕ} (h : n ≤ 254) : encryptedLen n = (1 + n + 15) / 16 * 16 := by
  have hlow : (1 + n) &&& 0x0f = (1 + n) % 16 := Nat.and_two_pow_sub_one_eq_mod (1 + n) 4
  have hhigh : ∀ a b : Fin 16, (16 * a.1 + b.1) &&& 0xf0 = 16 * a.1 := by decide
  have hcut := hhigh ⟨(1 + n) / 16, by omega⟩ ⟨(1 + n) % 16, by omega⟩
  simp only [Nat.div_add_mod] at hcut
  simp only [encryptedLen, hlow, hcut]
  split_ifs <;> omega

def blocksLen (keyLen : ℕ) : ℕ := (1 + keyLen + 15) / 16 * 16

lemma encrypt_eq_none_iff (d : Digest) (room : ℕ) {key : Bytes} (salt reqAuthenticator secret : Bytes)
    (hkey : key.length ≤ 254) :
    encryptMsKey d room key salt reqAuthenticator secret = none ↔ room < blocksLen key.length := by
  have hlen := encryptedLen_eq hkey
  simp only [encryptMsKey, blocksLen]
  split_ifs with h
  · simp only [true_iff]
    omega
  · simp only [false_iff]
    omega

lemma length_encrypt (d : Digest) {room : ℕ} {key salt reqAuthenticator secret encrypted : Bytes}
    (hkey : key.length ≤ 254)
    (h : encryptMsKey d room key salt reqAuthenticator secret = some encrypted) :
    encrypted.length = blocksLen key.length := by
  have hlen := encryptedLen_eq hkey
  simp only [encryptMsKey] at h
  split_ifs at h
  obtain rfl := Option.some.inj h
  rw [length_hide (length_blockDigest d secret) (by decide) (length_blockDigest ..), blocksLen, ← hlen]
  simp
  omega

lemma decrypt_encrypt (d : Digest) {room : ℕ} {key salt reqAuthenticator secret encrypted : Bytes}
    (hkey : key.length ≤ 254) (hsalt : salt.length = 2)
    (h : encryptMsKey d room key salt reqAuthenticator secret = some encrypted) :
    decryptMsKey d (salt ++ encrypted) reqAuthenticator secret = some key := by
  have hlen := encryptedLen_eq hkey
  have hencrypted := length_encrypt d hkey h
  rw [blocksLen] at hencrypted
  simp only [encryptMsKey] at h
  split_ifs at h
  obtain rfl := Option.some.inj h
  have hebuf : (UInt8.ofNat key.length :: key ++ List.replicate (encryptedLen key.length -
      (1 + key.length)) 0).take (encryptedLen key.length) = UInt8.ofNat key.length ::
      (key ++ List.replicate (encryptedLen key.length - (1 + key.length)) 0) := by
    rw [List.take_of_length_le]
    · rfl
    · simp
      omega
  have hbyte : (UInt8.ofNat key.length).toNat = key.length := by
    rw [UInt8.toNat_ofNat']
    omega
  rw [decryptMsKey, if_neg (by rw [List.length_append]; omega),
    if_neg (by rw [List.length_append]; omega), List.take_left' hsalt, List.drop_left' hsalt,
    unhide_hide (length_blockDigest d secret) xorByte_xorByte (by decide) (length_blockDigest ..), hebuf]
  simp only [List.getD_cons_zero, hbyte]
  rw [if_neg (by simp), List.drop_one, List.tail_cons, List.take_left]

lemma mppeValue_eq (vendorType : UInt8) {salt : Bytes} (hsalt : salt.length = 2) (encrypted : Bytes) :
    mppeValue vendorType salt encrypted = vsaValue vendorIdMicrosoft vendorType (salt ++ encrypted) := by
  rw [mppeValue, vsaValue, List.length_append, hsalt, ← Nat.add_assoc]

section Keys
variable (d : Digest) (secret : Bytes) {a b : Alloc} {m sent : RadiusMsg} {p q : Packet} {len n : ℕ}

lemma getVendorAttr_reply {reqAuth : Bytes} {hreq : reqAuth.length = 16}
    (h : m.Holds (reply d secret reqAuth hreq p) len) (vendor : ℕ) (subtype : UInt8) :
    radiusMsgGetVendorAttr m vendor subtype =
      (avps p.attrs).findSome? (vendorAttrIn vendor subtype) := by
  obtain ⟨mac, hattrs, htag, -⟩ := reply_attrs d secret hreq p
  have hmac : vendorAttrIn vendor subtype (mac.tag, mac.body) = none := by
    have hne : messageAuthenticator ≠ vendorSpecific := by decide
    exact if_pos (htag ▸ hne)
  rw [radiusMsgGetVendorAttr, findSome_read h, hattrs, avps, List.map_append, List.findSome?_append,
    List.map_singleton, List.findSome?_singleton, hmac, Option.or_none, avps]

lemma addMppeKey_carries (vendorType : UInt8) {room : ℕ} (salt : ℕ) {key : Bytes}
    (reqAuthenticator : Bytes) (hgives : a.Gives) (h : m.Carries p len) (hkey : key.length ≤ 239)
    (hroom : blocksLen key.length ≤ room) :
    ∃ m' x value hfit, addMppeKey d a m vendorType room salt key reqAuthenticator secret =
        some (m', some x) ∧
      m'.Carries (p.add (attr vendorSpecific (vsaValue vendorIdMicrosoft vendorType value) hfit)) len ∧
      value.length ≤ 242 ∧
      decryptMsKey d value reqAuthenticator secret = some key := by
  have hsalt : (toBytes 2 salt).length = 2 := length_toBytes 2 salt
  obtain ⟨encrypted, hencrypt⟩ := Option.ne_none_iff_exists'.mp fun hnone =>
    Nat.not_lt.mpr hroom ((encrypt_eq_none_iff d room (toBytes 2 salt) reqAuthenticator secret
      (by omega)).mp hnone)
  have hlen := length_encrypt d (by omega) hencrypt
  rw [blocksLen] at hlen
  have hfit : (mppeValue vendorType (toBytes 2 salt) encrypted).length ≤ radiusMaxAttrLen := by
    rw [mppeValue_eq vendorType hsalt, length_vsaValue, List.length_append, radiusMaxAttrLen]
    omega
  obtain ⟨m', x, hadd⟩ := addAttr_of_gives hgives m vendorSpecific hfit
  obtain ⟨hfit', h', -⟩ := addAttr_carries h hadd
  simp only [mppeValue_eq vendorType hsalt] at hfit h'
  refine ⟨m', x, toBytes 2 salt ++ encrypted, hfit, ?_, h', ?_, ?_⟩
  · rw [addMppeKey, hencrypt, Option.map_some, hadd]
  · rw [List.length_append]
    omega
  · exact decrypt_encrypt d (by omega) hsalt hencrypt

lemma getKeys_of_msKeys {sendKey recvKey : Bytes}
    (hkeys : radiusMsgGetMsKeys d m sent secret = ⟨some sendKey, some recvKey⟩) (k : AuthenticatorPmk) :
    ieee8021xGetKeys d m sent secret k =
      ⟨memcpy k.pmk 0 (recvKey.take pmkLen), min pmkLen recvKey.length⟩ := by
  simp only [ieee8021xGetKeys, hkeys, reduceCtorEq, false_and, if_false, AuthenticatorPmk.mk.injEq]
  split_ifs with hlong
  · exact ⟨rfl, (Nat.min_eq_left hlong.le).symm⟩
  · rw [Nat.not_lt] at hlong
    rw [List.take_length, List.take_of_length_le hlong, Nat.min_eq_right hlong]
    exact ⟨rfl, rfl⟩

/-- The keys that a server adds to its reply are the ones that the client of the request reads out of it,
and the key of the authenticator is the first part of the received one. The buffer for the second key is
as large as that for the first one, and may be too small. -/
theorem keys_delivered (random : ℕ) (hgives : a.Gives) (hb : b.Gives) (h : m.Carries p len)
    (hsent : sent.Carries q n) {sendKey recvKey : Bytes} (hsend : sendKey.length ≤ 239)
    (hrecv : recvKey.length ≤ 239)
    (hfree : ∀ subtype, subtype = vendorAttrMsMppeSendKey ∨ subtype = vendorAttrMsMppeRecvKey →
      ∀ v ∈ avps p.attrs, vendorAttrIn vendorIdMicrosoft subtype v = none)
    (hsize : p.size + 518 < 2 ^ 16) (k : AuthenticatorPmk) :
    (radiusMsgAddMppeKeys d a m random (authenticatorOf sent) secret sendKey recvKey = none ↔
      sendKey.length + 16 < blocksLen recvKey.length) ∧
    (blocksLen recvKey.length ≤ sendKey.length + 16 →
      ∃ m₁ m₂ m₃, radiusMsgAddMppeKeys d a m random (authenticatorOf sent) secret sendKey recvKey =
          some (m₁, 1) ∧
        radiusMsgFinishSrv d a m₁ secret (authenticatorOf sent) = (m₂, 0) ∧
        radiusMsgParse b (usedBytes m₂) = some m₃ ∧
        radiusMsgGetMsKeys d m₃ sent secret = ⟨some sendKey, some recvKey⟩ ∧
        ieee8021xGetKeys d m₃ sent secret k =
          ⟨memcpy k.pmk 0 (recvKey.take pmkLen), min pmkLen recvKey.length⟩) := by
  have hroom : blocksLen sendKey.length ≤ sendKey.length + 16 := by
    rw [blocksLen]
    omega
  obtain ⟨m₀, x, send, hfit₀, hadd₀, h₀, hlen₀, hplain₀⟩ :=
    addMppeKey_carries d secret vendorAttrMsMppeSendKey (random % 2 ^ 16 ||| 0x8000)
      (authenticatorOf sent) hgives h hsend hroom
  by_cases hroom' : blocksLen recvKey.length ≤ sendKey.length + 16
  · obtain ⟨m₁, y, recv, hfit₁, hadd₁, h₁, hlen₁, hplain₁⟩ :=
      addMppeKey_carries d secret vendorAttrMsMppeRecvKey ((random % 2 ^ 16 ||| 0x8000) ^^^ 1)
        (authenticatorOf sent) hgives h₀ hrecv hroom'
    have hboth : radiusMsgAddMppeKeys d a m random (authenticatorOf sent) secret sendKey recvKey =
        some (m₁, 1) := by
      simp only [radiusMsgAddMppeKeys, hadd₀, hadd₁]
    refine ⟨by simp [hboth, hroom'], fun _ => ?_⟩
    obtain ⟨m₂, m₃, hfinish, hparse, h₃⟩ := reply_delivered d secret hgives hb h₁ hsent
      (by simp [attr, length_vsaValue]; omega) []
    rw [List.append_nil] at hparse
    have hread : ∀ subtype, subtype = vendorAttrMsMppeSendKey ∨ subtype = vendorAttrMsMppeRecvKey →
        radiusMsgGetVendorAttr m₃ vendorIdMicrosoft subtype =
          if vendorAttrMsMppeSendKey = subtype then some send
          else if vendorAttrMsMppeRecvKey = subtype then some recv else none := by
      intro subtype hsubtype
      have hnone : (avps p.attrs).findSome? (vendorAttrIn vendorIdMicrosoft subtype) = none :=
        List.findSome?_eq_none_iff.mpr (hfree subtype hsubtype)
      rw [getVendorAttr_reply d secret h₃]
      simp only [Packet.add, avps, List.map_append, List.findSome?_append, List.map_cons, List.map_nil,
        List.findSome?_singleton]
      simp only [avps] at hnone
      simp only [hnone, attr, vendorAttrIn_vsaValue (by decide : vendorIdMicrosoft < 2 ^ 32) hfit₀,
        vendorAttrIn_vsaValue (by decide : vendorIdMicrosoft < 2 ^ 32) hfit₁, true_and]
      split_ifs <;> rfl
    have hkeys : radiusMsgGetMsKeys d m₃ sent secret = ⟨some sendKey, some recvKey⟩ := by
      rw [radiusMsgGetMsKeys, hread _ (.inl rfl), hread _ (.inr rfl), if_pos rfl, if_neg (by decide),
        if_pos rfl, Option.bind_some, Option.bind_some, hplain₀, hplain₁]
    exact ⟨m₁, m₂, m₃, hboth, hfinish, hparse, hkeys, getKeys_of_msKeys d secret hkeys k⟩
  · have hnone : addMppeKey d a m₀ vendorAttrMsMppeRecvKey (sendKey.length + 16)
        ((random % 2 ^ 16 ||| 0x8000) ^^^ 1) recvKey (authenticatorOf sent) secret = none := by
      rw [addMppeKey, (encrypt_eq_none_iff d _ _ _ secret (by omega)).mpr (by omega), Option.map_none]
    refine ⟨?_, fun hle => absurd hle hroom'⟩
    simp only [radiusMsgAddMppeKeys, hadd₀, hnone, true_iff]
    omega

/-- The keys of a reply without other attributes. -/
theorem short_keys_delivered : ∃ m₁ m₂ m₃,
    radiusMsgAddMppeKeys zeroDigest fixedAlloc (fixedMsg 2) 0 (authenticatorOf (fixedMsg 1)) [] [1] [2] =
        some (m₁, 1) ∧
      radiusMsgFinishSrv zeroDigest fixedAlloc m₁ [] (authenticatorOf (fixedMsg 1)) = (m₂, 0) ∧
      radiusMsgParse fixedAlloc (usedBytes m₂) = some m₃ ∧
      radiusMsgGetMsKeys zeroDigest m₃ (fixedMsg 1) [] = ⟨some [1], some [2]⟩ := by
  obtain ⟨m₁, m₂, m₃, hadd, hfinish, hparse, hkeys, -⟩ := (keys_delivered zeroDigest [] 0
    fixedAlloc_gives fixedAlloc_gives (new_carries (fixedMsg_new 2)) (new_carries (fixedMsg_new 1))
    (show [1].length ≤ 239 by decide) (show [2].length ≤ 239 by decide)
    (by simp [emptyPacket, avps]) (by decide) ⟨[], 0⟩).2 (by decide)
  exact ⟨m₁, m₂, m₃, hadd, hfinish, hparse, hkeys⟩

end Keys

end LdapTgen.MppeKeys
