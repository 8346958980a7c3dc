import LdapTgen.RadPassword
import LdapTgen.RadRecv

/-! `rad_decode`: the authenticators of a packet that was received, and its attributes as pairs. There is
memory for the pairs. -/
namespace LdapTgen.RadDecode
open ByteOrder MppeKeys RadPassword RadRecv RadiusAuthenticators RadiusMessage Tlv

def maxStringLen : ℕ := 254

def pwUserPassword : ℕ := 2

def pwAuthenticationRequest : UInt8 := 1
def pwAuthenticationAck : UInt8 := 2
def pwAuthenticationReject : UInt8 := 3
def pwAccountingRequest : UInt8 := 4
def pwAccountingResponse : UInt8 := 5
def pwAccessChallenge : UInt8 := 11
def pwStatusServer : UInt8 := 12
def pwDisconnectRequest : UInt8 := 40

/-- The types of values (`ipv6prefixes` is that of an IPv6 prefix); `other` for a number that stands for
none of them. -/
inductive PwType
  | string | integer | ipaddr | date | abinary | octets | ifid | ipv6addr | ipv6prefixes | other
  deriving DecidableEq

inductive Encrypt
  | none | userPassword | tunnelPassword | ascendSecret
  deriving DecidableEq

structure AttrFlags where
  hasTag : Bool
  tag : UInt8
  encrypt : Encrypt
  deriving DecidableEq

structure DictAttr where
  name : String
  type : PwType
  flags : AttrFlags
  deriving DecidableEq

structure Dict where
  attrbyvalue : ℕ → Option DictAttr
  valbyattr : ℕ → ℕ → Option Bytes

/-- The `lvalue` of an address stands for its octets. -/
structure ValuePair where
  name : String
  attr : ℕ
  type : PwType
  length : ℤ
  lvalue : ℕ
  strvalue : Bytes
  flags : AttrFlags
  deriving DecidableEq

def tagValid (x : UInt8) : Prop := 0 < x ∧ x < 0x20

instance : DecidablePred tagValid := fun _ => instDecidableAnd

/-- What belongs to the exchange: the secret, the vector of the packet and that of the request. -/
structure Keys where
  d : Digest
  secret : Bytes
  vector : Bytes
  original : Option Bytes

def vendorAttribute (vendorcode type : ℕ) : ℕ := type % 2 ^ 16 + vendorcode % 2 ^ 16 * 2 ^ 16

def octetsAt (value : Stack) (n : ℕ) : Bytes := (List.range n).map value

/-- `memcpy(pair->strvalue, …)` into a pair of zeros; none for a negative length. -/
def copied (value : Stack) (n : ℤ) : Option Bytes :=
  if n < 0 then none else some (memcpy (List.replicate maxStringLen 0) 0 (octetsAt value n.toNat))

def strlen (bs : Bytes) : ℕ := (cString bs).length

def ascendSecrets : List String := ["Ascend-Send-Secret", "Ascend-Receive-Secret"]

def encryptOf (name : String) (attr : ℕ) (encrypt : Encrypt) : Encrypt :=
  if attr = pwUserPassword then .userPassword
  else if name ∈ ascendSecrets then .ascendSecret
  else encrypt

/-- The passwords are decrypted. Without an original there is no vector to read, and a tunnel password of
less than three octets does not ask for it. -/
def decrypt (k : Keys) (value : Stack) (pair : ValuePair) : Option ValuePair :=
  match pair.flags.encrypt with
  | .none => some pair
  | .userPassword =>
      let strvalue := radPwdecode k.d k.secret (k.original.getD k.vector) pair.strvalue pair.length.toNat
      some { pair with
        strvalue := strvalue
        length := if pair.attr = pwUserPassword then strlen strvalue else pair.length }
  | .tunnelPassword =>
      if pair.length < 3 then some pair
      else k.original.map fun vector =>
        let read := radTunnelPwdecode k.d k.secret vector pair.strvalue pair.length.toNat
        { pair with strvalue := read.1, length := read.2 }
  | .ascendSecret =>
      k.original.map fun vector =>
        let digest := makeSecret k.d k.secret vector (octetsAt value authPassLen)
        let strvalue := memcpy (memcpy pair.strvalue 0 digest) authVectorLen [0]
        { pair with strvalue := strvalue, length := strlen strvalue }

def decodeText (k : Keys) (value : Stack) (attrlen : ℤ) (pair : ValuePair) : Option ValuePair :=
  let tagged := pair.flags.hasTag ∧ pair.type = .string
  let tag := if tagged ∧ tagValid (value 0) then value 0 else 0
  let offset : ℕ := if tagged ∧ (tagValid (value 0) ∨ pair.flags.encrypt = .tunnelPassword) then 1 else 0
  let length := attrlen - offset
  (copied (fun i => value (offset + i)) length).bind fun strvalue =>
    decrypt k value { pair with
      strvalue := strvalue
      length := length
      flags := { pair.flags with tag := tag, encrypt := encryptOf pair.name pair.attr pair.flags.encrypt } }

def ipNtoa (ipaddr : ℕ) : Bytes :=
  let octet (n : ℕ) : List UInt8 := (Nat.toDigits 10 (n % 256)).map fun c => UInt8.ofNat c.toNat
  octet (ipaddr / 2 ^ 24) ++ 46 :: octet (ipaddr / 2 ^ 16) ++ 46 :: octet (ipaddr / 2 ^ 8) ++
    46 :: octet ipaddr ++ [0]

def namedValue (dict : Dict) (pair : ValuePair) : ValuePair :=
  match dict.valbyattr pair.attr pair.lvalue with
  | some name => { pair with strvalue := memcpy pair.strvalue 0 (name.take (maxStringLen - 1)) }
  | none => pair

def decodeNumber (dict : Dict) (value : Stack) (attrlen : ℤ) (type : PwType) (pair : ValuePair) :
    Option ValuePair :=
  if attrlen ≠ 4 then
    (copied value attrlen).map fun strvalue =>
      { pair with type := .octets, strvalue := strvalue, lvalue := 0xbad1bad1 }
  else
    let lvalue := ofBytes (octetsAt value 4)
    let pair := { pair with
      lvalue := lvalue
      strvalue := if type = .ipaddr then memcpy pair.strvalue 0 (ipNtoa lvalue) else pair.strvalue }
    let pair := if pair.flags.hasTag ∧ pair.type = .integer then { pair with
      flags := { pair.flags with tag := UInt8.ofNat (lvalue / 2 ^ 24) }
      lvalue := lvalue % 2 ^ 24 } else pair
    some (if type = .integer then namedValue dict pair else pair)

def decodeOctets (value : Stack) (attrlen : ℤ) (kept : Prop) [Decidable kept] (pair : ValuePair) :
    Option ValuePair :=
  (copied value attrlen).map fun strvalue =>
    { pair with strvalue := strvalue, type := if kept then pair.type else .octets }

def printedInt (n : ℕ) : String := toString (if n < 2 ^ 31 then (n : ℤ) else (n : ℤ) - 2 ^ 32)

/-- The entry of the dictionary; an attribute without one is a string of octets. -/
def entryOf (dict : Dict) (attr : ℕ) : DictAttr :=
  (dict.attrbyvalue attr).getD ⟨"Attr-" ++ printedInt attr, .octets, ⟨false, 0, .none⟩⟩

/-- The pair of an attribute: none when a negative number of octets is copied or the original is missing,
and no pair for a type that is not known. -/
def decodePair (dict : Dict) (k : Keys) (value : Stack) (attr : ℕ) (attrlen : ℤ) :
    Option (Option ValuePair) :=
  let entry := entryOf dict attr
  let pair : ValuePair := ⟨entry.name, attr, entry.type, attrlen, 0, List.replicate maxStringLen 0,
    entry.flags⟩
  match entry.type with
  | .octets | .abinary | .string => (decodeText k value attrlen pair).map some
  | .integer | .date | .ipaddr => (decodeNumber dict value attrlen entry.type pair).map some
  | .ifid => (decodeOctets value attrlen (attrlen = 8) pair).map some
  | .ipv6addr => (decodeOctets value attrlen (attrlen = 16) pair).map some
  | .ipv6prefixes =>
      (decodeOctets value attrlen (2 ≤ attrlen ∧ attrlen ≤ 18 ∧ value 1 ≤ 128) pair).map some
  | .other => some none

/-- Where the value of an attribute is, and what is left of a vendor's attributes. -/
structure Head where
  attr : ℕ
  ptr : ℕ
  attrlen : ℤ
  /-- the octets in front of the value -/
  used : ℤ
  vendorcode : ℕ
  vendorlen : ℤ

/-- The start of an attribute. One of a vendor is entered when it is long enough; an attribute of USR has
four octets for its number. -/
def attrHead (mem : Stack) (ptr vendorcode : ℕ) (vendorlen : ℤ) : Head :=
  let type := (mem ptr).toNat
  let attrlen : ℤ := (mem (ptr + 1)).toNat - 2
  let attr := if 0 < vendorlen then vendorAttribute vendorcode type else type
  if vendorlen ≤ 0 ∧ attr = pwVendorSpecific.toNat ∧ 6 < attrlen then
    let vendorcode := vendorcodeAt mem (ptr + 2)
    if vendorcode = 0 then ⟨attr, ptr + 2, attrlen, 2, vendorcode, vendorlen⟩
    else if vendorcode = vendorpecUsr then
      ⟨vendorAttribute vendorcode (vendorcodeAt mem (ptr + 6)), ptr + 10, attrlen - 8, 10, vendorcode,
        vendorlen⟩
    else
      ⟨vendorAttribute vendorcode (mem (ptr + 6)).toNat, ptr + 8, (mem (ptr + 7)).toNat - 2, 8,
        vendorcode, attrlen - 4⟩
  else ⟨attr, ptr + 2, attrlen, 2, vendorcode, vendorlen⟩

/-- The pairs. An attribute without octets would be read again and again. -/
def pairLoop (dict : Dict) (k : Keys) (mem : Stack) (ptr : ℕ) (length : ℤ) (vendorcode : ℕ)
    (vendorlen : ℤ) : Option (List ValuePair) :=
  if _h : 0 < length then
    let a := attrHead mem ptr vendorcode vendorlen
    (decodePair dict k (fun i => mem (a.ptr + i)) a.attr a.attrlen).bind fun pair =>
      if a.used + a.attrlen ≤ 0 then none
      else
        (pairLoop dict k mem (a.ptr + a.attrlen).toNat (length - (a.used + a.attrlen)) a.vendorcode
          (if 0 < a.vendorlen then a.vendorlen - (a.attrlen + 2) else a.vendorlen)).map
          (pair.toList ++ ·)
  else some []
termination_by length.toNat
decreasing_by
  change (length - (a.used + a.attrlen)).toNat < length.toNat
  omega

/-- The codes of the answers that are authenticated with the vector of the request. -/
def withOriginal (code : UInt8) : Prop :=
  code = pwAuthenticationAck ∨ code = pwAuthenticationReject ∨ code = pwAccessChallenge

instance : DecidablePred withOriginal := fun _ => instDecidableOr

def keyed (original : Option Bytes) (code : UInt8) (data : Bytes) : Bytes :=
  match original with
  | some vector => if withOriginal code then memcpy data 4 vector else data
  | none => data

/-- The Message-Authenticator at the position: whether it is the right one, and the data, restored. -/
def checkMac (k : Keys) (code : UInt8) (data : Bytes) (pos : ℕ) : Bytes × Bool :=
  let msgAuthVector := (data.drop (pos + 2)).take authVectorLen
  let data := keyed k.original code (memcpy data (pos + 2) (List.replicate authVectorLen 0))
  let right := k.d.hmacMd5 k.secret data = msgAuthVector
  (memcpy (memcpy data (pos + 2) msgAuthVector) 4 k.vector, right)

def macWalk (k : Keys) (code : UInt8) (data : Bytes) (pos : ℕ) (length : ℤ) :
    Option (Bytes × List Bool) :=
  if _h : 0 < length then
    let attrlen := (data.getD (pos + 1) 0).toNat
    if _h : attrlen = 0 then none
    else if data.getD pos 0 = pwMessageAuthenticator then
      let checked := checkMac k code data pos
      (macWalk k code checked.1 (pos + attrlen) (length - attrlen)).map fun rest =>
        (rest.1, checked.2 :: rest.2)
    else macWalk k code data (pos + attrlen) (length - attrlen)
  else some (data, [])
termination_by length.toNat
decreasing_by all_goals omega

def calcAcctdigest (k : Keys) (data : Bytes) : Bytes × ℕ :=
  if k.vector = List.replicate authVectorLen 0 then (data, 1)
  else
    let data := memcpy data 4 (List.replicate authVectorLen 0)
    (data, if k.d.md5 (data ++ k.secret) = k.vector then 0 else 2)

def calcReplydigest (k : Keys) (data : Bytes) : Bytes × ℕ :=
  match k.original with
  | none => (data, 3)
  | some vector =>
      let data := memcpy data 4 vector
      (memcpy data 4 k.vector, if k.d.md5 (data ++ k.secret) = k.vector then 0 else 2)

def checkDigest (k : Keys) (code : UInt8) (data : Bytes) : Bytes × ℕ :=
  if code = pwAccountingRequest then calcAcctdigest k data
  else if code = pwAuthenticationAck ∨ code = pwAuthenticationReject ∨ code = pwAccountingResponse then
    calcReplydigest k data
  else (data, 0)

structure Decoded where
  rc : ℤ
  data : Bytes
  vps : List ValuePair
  /-- whether the Message-Authenticators were right -/
  macs : List Bool
  deriving DecidableEq

def memory (data : Bytes) (heap : Stack) : Stack := fun i => if i < data.length then data.getD i 0 else heap i

def radDecode (dict : Dict) (d : Digest) (secret : Bytes) (heap : Stack) (packet : RadiusPacket)
    (original : Option RadiusPacket) : Option Decoded :=
  let k : Keys := ⟨d, secret, packet.vector, original.map RadiusPacket.vector⟩
  let length : ℤ := (packet.data.length : ℤ) - authHdrLen
  (macWalk k packet.code packet.data authHdrLen length).bind fun walked =>
    let checked := checkDigest k packet.code walked.1
    if 1 < checked.2 then some ⟨1, checked.1, [], walked.2⟩
    else (pairLoop dict k (memory checked.1 heap) authHdrLen length 0 0).map fun vps =>
      ⟨0, checked.1, vps, walked.2⟩

structure Entry where
  attr : ℕ
  ptr : ℕ
  attrlen : ℤ

def subEntries (vendorcode : ℕ) : ℕ → List Attr → List Entry
  | _, [] => []
  | pos, e :: es =>
      ⟨vendorAttribute vendorcode e.tag.toNat, pos + 2, e.body.length⟩ ::
        subEntries vendorcode (pos + (e.body.length + 2)) es

/-- What an attribute is entered for: the vendor, unless there is nothing to enter. -/
def entered (e : Attr) : Option ℕ :=
  if e.tag = pwVendorSpecific ∧ 6 < e.body.length ∧ ofBytes (e.body.take 4) ≠ 0 then
    some (ofBytes (e.body.take 4))
  else none

/-- The values of an attribute. With a value of seven octets a USR attribute has a length of -1, and the
last octet of its number is the one behind it. -/
def entriesOf (mem : Stack) (pos : ℕ) (e : Attr) : List Entry :=
  match entered e with
  | none => [⟨e.tag.toNat, pos + 2, e.body.length⟩]
  | some vendorcode =>
      if vendorcode = vendorpecUsr then
        [⟨vendorAttribute vendorcode (vendorcodeAt mem (pos + 6)), pos + 10, (e.body.length : ℤ) - 8⟩]
      else subEntries vendorcode (pos + 6) (readPrefix 1 (e.body.drop 4))

def entries (mem : Stack) : ℕ → List Attr → List Entry
  | _, [] => []
  | pos, e :: es => entriesOf mem pos e ++ entries mem (pos + (e.body.length + 2)) es

section Pairs
variable (dict : Dict) (k : Keys) (mem : Stack)

def decodeEntries : List Entry → Option (List ValuePair)
  | [] => some []
  | x :: xs => (decodePair dict k (fun i => mem (x.ptr + i)) x.attr x.attrlen).bind fun pair =>
      (decodeEntries xs).map (pair.toList ++ ·)

lemma bind_map_append (pair : Option (Option ValuePair)) (x y : Option (List ValuePair)) :
    (pair.bind fun pair => (x.bind fun vps => y.map (vps ++ ·)).map (pair.toList ++ ·)) =
      (pair.bind fun pair => x.map (pair.toList ++ ·)).bind fun vps => y.map (vps ++ ·) := by
  rcases pair with _ | pair
  · rfl
  · rcases x with _ | vps
    · rfl
    · cases y <;> simp

lemma decodeEntries_append (xs ys : List Entry) : decodeEntries dict k mem (xs ++ ys) =
    (decodeEntries dict k mem xs).bind fun vps => (decodeEntries dict k mem ys).map (vps ++ ·) := by
  induction xs with
  | nil => simp [decodeEntries]
  | cons x xs ih =>
    simp only [List.cons_append, decodeEntries, ih, bind_map_append]

lemma pairLoop_step {ptr vendorcode : ℕ} {length vendorlen : ℤ} {a : Head}
    (ha : attrHead mem ptr vendorcode vendorlen = a) (hlength : 0 < length)
    (hused : 0 < a.used + a.attrlen) :
    pairLoop dict k mem ptr length vendorcode vendorlen =
      (decodePair dict k (fun i => mem (a.ptr + i)) a.attr a.attrlen).bind fun pair =>
        (pairLoop dict k mem (a.ptr + a.attrlen).toNat (length - (a.used + a.attrlen)) a.vendorcode
          (if 0 < a.vendorlen then a.vendorlen - (a.attrlen + 2) else a.vendorlen)).map
          (pair.toList ++ ·) := by
  rw [pairLoop, dif_pos hlength, ha]
  simp only [if_neg (Int.not_le.mpr hused)]

variable {mem} {pos vendorcode : ℕ}

lemma attrHead_sub {e : Attr} {vendorlen : ℤ} (htype : mem pos = e.tag)
    (hlen : (mem (pos + 1)).toNat = e.body.length + 2) (hvendorlen : 0 < vendorlen) :
    attrHead mem pos vendorcode vendorlen =
      ⟨vendorAttribute vendorcode e.tag.toNat, pos + 2, e.body.length, 2, vendorcode, vendorlen⟩ := by
  simp only [attrHead, htype, hlen, if_pos hvendorlen, Int.not_le.mpr hvendorlen, false_and, if_false]
  congr 1
  omega

lemma pairLoop_subs (vendorcode : ℕ) (ss : List Attr) {cs : Bytes} {length : ℤ} (hlength : 0 ≤ length)
    (h : Shows mem pos (encodeAll ss ++ cs)) :
    pairLoop dict k mem pos ((encodeAll ss).length + length) vendorcode (encodeAll ss).length =
      (decodeEntries dict k mem (subEntries vendorcode pos ss)).bind fun vps =>
        (pairLoop dict k mem (pos + (encodeAll ss).length) length vendorcode 0).map (vps ++ ·) := by
  induction ss generalizing pos with
  | nil => simp [decodeEntries, subEntries]
  | cons e ss ih =>
    rw [encodeAll_cons, List.append_assoc] at h
    obtain ⟨htype, hlen, -, hrest⟩ := h.attr
    have hall : (encodeAll (e :: ss)).length = e.body.length + 2 + (encodeAll ss).length := by
      rw [encodeAll_cons, List.length_append, length_encode]
    have hhead : attrHead mem pos vendorcode (encodeAll (e :: ss)).length = _ :=
      attrHead_sub htype hlen (by omega)
    rw [pairLoop_step dict k mem hhead (by omega) (by dsimp only; omega)]
    dsimp only
    have hptr : ((pos + 2 : ℕ) + (e.body.length : ℤ)).toNat = pos + (e.body.length + 2) := by omega
    have hleft : ((encodeAll (e :: ss)).length : ℤ) + length - (2 + (e.body.length : ℤ)) =
        (encodeAll ss).length + length := by omega
    have hvendor : (if (0 : ℤ) < (encodeAll (e :: ss)).length then
        ((encodeAll (e :: ss)).length : ℤ) - ((e.body.length : ℤ) + 2)
        else (encodeAll (e :: ss)).length) = (encodeAll ss).length := by
      rw [if_pos (by omega)]
      omega
    rw [hptr, hleft, hvendor, ih hrest, subEntries, decodeEntries]
    dsimp only
    rw [show pos + (e.body.length + 2) + (encodeAll ss).length = pos + (encodeAll (e :: ss)).length by
      omega]
    exact bind_map_append _ _ _

/-- An attribute has one value, or holds the attributes of a vendor. -/
lemma attrHead_cases (vendorcode : ℕ) {e : Attr} {cs : Bytes} (h : Shows mem pos (encode e ++ cs)) :
    (∃ a, attrHead mem pos vendorcode 0 = a ∧ a.vendorlen = 0 ∧ a.used + a.attrlen = e.body.length + 2 ∧
        a.ptr + a.attrlen = pos + (e.body.length + 2) ∧
        entriesOf mem pos e = [⟨a.attr, a.ptr, a.attrlen⟩]) ∨
      ∃ vendor, entered e = some vendor ∧ vendor ≠ vendorpecUsr ∧
        attrHead mem pos vendorcode 0 = ⟨vendorAttribute vendor (mem (pos + 6)).toNat, pos + 8,
          (mem (pos + 7)).toNat - 2, 8, vendor, (e.body.length : ℤ) - 4⟩ := by
  obtain ⟨htype, hlen, hbody, -⟩ := h.attr
  have htag : e.tag.toNat = pwVendorSpecific.toNat ↔ e.tag = pwVendorSpecific := UInt8.toNat_inj
  have hattrlen : ((e.body.length + 2 : ℕ) : ℤ) - 2 = e.body.length := by omega
  simp only [attrHead, htype, hlen, lt_irrefl, if_false, le_refl, true_and, htag, hattrlen,
    show (6 : ℤ) < (e.body.length : ℤ) ↔ 6 < e.body.length by omega, entriesOf]
  by_cases hvendor : e.tag = pwVendorSpecific ∧ 6 < e.body.length
  · rw [if_pos hvendor, hbody.vendorcode (by omega)]
    by_cases hzero : ofBytes (e.body.take 4) = 0
    · have hentered : entered e = none := if_neg fun habs => habs.2.2 hzero
      rw [if_pos hzero, hentered]
      exact .inl ⟨_, rfl, rfl, by dsimp only; omega, by dsimp only; omega, rfl⟩
    · have hentered : entered e = some (ofBytes (e.body.take 4)) := if_pos ⟨hvendor.1, hvendor.2, hzero⟩
      rw [if_neg hzero, hentered]
      by_cases husr : ofBytes (e.body.take 4) = vendorpecUsr
      · rw [if_pos husr]
        exact .inl ⟨_, rfl, rfl, by dsimp only; omega, by dsimp only; omega, if_pos husr⟩
      · rw [if_neg husr]
        exact .inr ⟨_, rfl, husr, rfl⟩
  · have hentered : entered e = none := if_neg fun habs => hvendor ⟨habs.1, habs.2.1⟩
    rw [if_neg hvendor, hentered]
    exact .inl ⟨_, rfl, rfl, by dsimp only; omega, by dsimp only; omega, rfl⟩

lemma pairLoop_single {e : Attr} {rest : Bytes} {a : Head} (ha : attrHead mem pos vendorcode 0 = a)
    (hvendorlen : a.vendorlen = 0) (hused : a.used + a.attrlen = e.body.length + 2)
    (hptr : a.ptr + a.attrlen = pos + (e.body.length + 2)) :
    pairLoop dict k mem pos (encode e ++ rest).length vendorcode 0 =
      (decodePair dict k (fun i => mem (a.ptr + i)) a.attr a.attrlen).bind fun pair =>
        (pairLoop dict k mem (pos + (e.body.length + 2)) rest.length a.vendorcode 0).map
          (pair.toList ++ ·) := by
  have hlength : ((encode e ++ rest).length : ℤ) = e.body.length + 2 + rest.length := by
    rw [List.length_append, length_encode]
    omega
  rw [pairLoop_step dict k mem ha (by omega) (by omega), hvendorlen, hused, hptr,
    if_neg (lt_irrefl _), hlength, add_sub_cancel_left]
  rfl

lemma shows_vendor {e : Attr} {cs : Bytes} (h : Shows mem pos (encode e ++ cs))
    (hfour : 4 ≤ e.body.length) : Shows mem (pos + 6) (e.body.drop 4 ++ cs) := by
  have hcut : encode e ++ cs =
      (e.tag :: UInt8.ofNat ((e.body.length + 2) / 1) :: e.body.take 4) ++ (e.body.drop 4 ++ cs) := by
    rw [List.cons_append, List.cons_append, ← List.append_assoc, List.take_append_drop]
    rfl
  rw [hcut] at h
  have hright := h.right
  rwa [List.length_cons, List.length_cons, List.length_take_of_le hfour] at hright

lemma pairLoop_vendor {length vendorlen : ℤ} {vendor : ℕ}
    (ha : attrHead mem pos vendorcode 0 = ⟨vendorAttribute vendor (mem (pos + 6)).toNat, pos + 8,
      (mem (pos + 7)).toNat - 2, 8, vendor, vendorlen⟩)
    (hvendorlen : 0 < vendorlen) (htwo : 2 ≤ (mem (pos + 7)).toNat) (hlength : 6 < length) :
    pairLoop dict k mem pos length vendorcode 0 =
      pairLoop dict k mem (pos + 6) (length - 6) vendor vendorlen := by
  have hb : attrHead mem (pos + 6) vendor vendorlen = ⟨vendorAttribute vendor (mem (pos + 6)).toNat,
      pos + 8, (mem (pos + 7)).toNat - 2, 2, vendor, vendorlen⟩ := by
    simp only [attrHead, if_pos hvendorlen, Int.not_le.mpr hvendorlen, false_and, if_false]
  rw [pairLoop_step dict k mem ha (by omega) (by dsimp only; omega),
    pairLoop_step dict k mem hb (by omega) (by dsimp only; omega)]
  dsimp only
  rw [show length - (8 + (((mem (pos + 7)).toNat : ℤ) - 2)) =
    length - 6 - (2 + (((mem (pos + 7)).toNat : ℤ) - 2)) by omega]

lemma pairLoop_eq (vendorcode : ℕ) {es : List Attr} (hvalid : ∀ e ∈ es, Valid e)
    (h : Shows mem pos (encodeAll es)) :
    pairLoop dict k mem pos (encodeAll es).length vendorcode 0 =
      decodeEntries dict k mem (entries mem pos es) := by
  induction es generalizing pos vendorcode with
  | nil =>
    rw [pairLoop, dif_neg (by simp)]
    rfl
  | cons e es ih =>
    rw [encodeAll_cons] at h ⊢
    have hrest := fun vendorcode => ih vendorcode (List.forall_mem_cons.mp hvalid).2 h.attr.2.2.2
    rw [entries, decodeEntries_append]
    rcases attrHead_cases vendorcode h with
      ⟨a, ha, hvendorlen, hused, hptr, hentries⟩ | ⟨vendor, hentered, husr, hhead⟩
    · rw [pairLoop_single dict k ha hvendorlen hused hptr, hrest, hentries]
      simp only [decodeEntries]
      cases decodePair dict k (fun i => mem (a.ptr + i)) a.attr a.attrlen with
      | none => rfl
      | some pair => simp
    · obtain ⟨⟨htag, hlong, -⟩, hvendor⟩ := Option.ite_none_right_eq_some.mp hentered
      obtain rfl : _ = vendor := Option.some.inj hvendor
      obtain ⟨-, hsubs⟩ := (hvalid e (by simp)).vendor htag
      rw [if_neg husr] at hsubs
      obtain ⟨ss, hss⟩ := hsubs
      have hentries : entriesOf mem pos e = subEntries (ofBytes (e.body.take 4)) (pos + 6) ss := by
        rw [entriesOf, hentered, hss, readPrefix_encodeAll]
        exact if_neg husr
      have hshows := shows_vendor h (by omega)
      have hlen : (encodeAll ss).length + 4 = e.body.length := by
        rw [← hss, List.length_drop]
        omega
      have htotal : (encode e ++ encodeAll es).length = 6 + (encodeAll ss).length +
          (encodeAll es).length := by
        rw [List.length_append, length_encode]
        omega
      rw [hss] at hshows
      have htwo : 2 ≤ (mem (pos + 7)).toNat := by
        cases ss with
        | nil =>
          rw [encodeAll_nil, List.length_nil] at hlen
          omega
        | cons s ss =>
          rw [encodeAll_cons, List.append_assoc] at hshows
          rw [hshows.attr.2.1]
          omega
      have hsubs := pairLoop_subs dict k (ofBytes (e.body.take 4)) ss
        (Int.natCast_nonneg (encodeAll es).length) hshows
      rw [pairLoop_vendor dict k hhead (by omega) htwo (by omega), hentries, ← hrest, ← hlen]
      rw [show ((encode e ++ encodeAll es).length : ℤ) - 6 =
        (encodeAll ss).length + (encodeAll es).length by omega,
        show (((encodeAll ss).length + 4 : ℕ) : ℤ) - 4 = (encodeAll ss).length by omega, hsubs,
        show pos + 6 + (encodeAll ss).length = pos + ((encodeAll ss).length + 4 + 2) by omega]

end Pairs

section Authenticators
variable {k : Keys} {code : UInt8} {data : Bytes} {pos : ℕ}

/-- The vector that a Message-Authenticator is made with; `own` is that of the packet. -/
def macVector (original : Option Bytes) (own : Bytes) (code : UInt8) : Bytes :=
  match original with
  | some vector => if withOriginal code then vector else own
  | none => own

lemma keyed_eq (original : Option Bytes) (code : UInt8) {own data : Bytes} (h : memcpy data 4 own = data) :
    keyed original code data = memcpy data 4 (macVector original own code) := by
  unfold keyed macVector
  split
  · split_ifs
    · rfl
    · exact h.symm
  · exact h.symm

/-- The vectors have their length, and that of the packet is in the data. -/
structure Vectors (k : Keys) (data : Bytes) : Prop where
  vector : k.vector = (data.drop 4).take authVectorLen
  room : authHdrLen ≤ data.length
  original : ∀ v, k.original = some v → v.length = authVectorLen

lemma Vectors.length_vector (h : Vectors k data) : k.vector.length = authVectorLen := by
  have hroom := h.room
  rw [h.vector, List.length_take, List.length_drop]
  simp only [authHdrLen, authVectorLen] at *
  omega

lemma Vectors.length_macVector (h : Vectors k data) (code : UInt8) :
    (macVector k.original k.vector code).length = authVectorLen := by
  unfold macVector
  split
  · split_ifs
    · exact h.original _ ‹_›
    · exact h.length_vector
  · exact h.length_vector

lemma checkMac_eq (code : UInt8) (h : Vectors k data) (hpos : authHdrLen ≤ pos)
    (hroom : pos + 2 + authVectorLen ≤ data.length) :
    checkMac k code data pos = (data, decide (k.d.hmacMd5 k.secret
      (memcpy (memcpy data (pos + 2) (List.replicate authVectorLen 0)) 4 (macVector k.original k.vector code)) =
        (data.drop (pos + 2)).take authVectorLen)) := by
  have hzeros : (List.replicate authVectorLen (0 : UInt8)).length = authVectorLen := List.length_replicate
  have hfour : 4 + authVectorLen ≤ pos + 2 := by
    simp only [authHdrLen, authVectorLen] at *
    omega
  have hlen : (memcpy data (pos + 2) (List.replicate authVectorLen 0)).length = data.length :=
    length_memcpy (by rw [hzeros]; exact hroom)
  have hvector : k.vector = ((memcpy data (pos + 2) (List.replicate authVectorLen 0)).drop 4).take
      (macVector k.original k.vector code).length := by
    rw [h.length_macVector, take_drop_memcpy (by rw [hzeros]; exact hroom) hfour, h.vector]
  have hself : memcpy (memcpy data (pos + 2) (List.replicate authVectorLen 0)) 4 k.vector =
      memcpy data (pos + 2) (List.replicate authVectorLen 0) := by
    rw [hvector]
    exact memcpy_self (by rw [h.length_macVector]; omega)
  simp only [checkMac, keyed_eq k.original code hself]
  rw [memcpy_restore data (macVector k.original k.vector code) (List.replicate authVectorLen 0) 4 (pos + 2)
    (by rw [h.length_macVector]; exact hfour) (by rw [hzeros]; exact hroom) hvector (by rw [hzeros])]

def macsFrom (k : Keys) (code : UInt8) (data : Bytes) : ℕ → List Attr → List Bool
  | _, [] => []
  | pos, e :: es =>
      if e.tag = pwMessageAuthenticator then
        (checkMac k code data pos).2 :: macsFrom k code data (pos + (e.body.length + 2)) es
      else macsFrom k code data (pos + (e.body.length + 2)) es

lemma attr_at {e : Attr} {rest : Bytes} (h : data.drop pos = encode e ++ rest) :
    data.getD pos 0 = e.tag ∧ (data.getD (pos + 1) 0).toNat = e.body.length + 2 ∧
      pos + (e.body.length + 2) ≤ data.length ∧ data.drop (pos + (e.body.length + 2)) = rest := by
  have hat : ∀ i, data[pos + i]? = (encode e ++ rest)[i]? := by
    intro i
    rw [← h, List.getElem?_drop]
  have hlen := congrArg List.length h
  rw [List.length_drop, List.length_append, length_encode] at hlen
  have hunits := units_mul e
  rw [Nat.one_mul] at hunits
  refine ⟨?_, ?_, by omega, ?_⟩
  · rw [List.getD_eq_getElem?_getD, ← Nat.add_zero pos, hat]
    rfl
  · rw [List.getD_eq_getElem?_getD, hat]
    exact hunits
  · rw [← List.drop_drop, h, ← length_encode, List.drop_left]

lemma macWalk_eq (code : UInt8) (h : Vectors k data) {es : List Attr} (hvalid : ∀ e ∈ es, Valid e)
    (hpos : authHdrLen ≤ pos) (hdata : data.drop pos = encodeAll es) :
    macWalk k code data pos (encodeAll es).length = some (data, macsFrom k code data pos es) := by
  induction es generalizing pos with
  | nil =>
    rw [macWalk, dif_neg (by simp)]
    rfl
  | cons e es ih =>
    rw [encodeAll_cons] at hdata
    obtain ⟨htag, hlen, hroom, hrest⟩ := attr_at hdata
    obtain ⟨he, hes⟩ := List.forall_mem_cons.mp hvalid
    have hnext := ih hes (Nat.le_add_right_of_le hpos) hrest
    have hleft : ((encodeAll (e :: es)).length : ℤ) - ((e.body.length + 2 : ℕ) : ℤ) =
        (encodeAll es).length := by
      rw [encodeAll_cons, List.length_append, length_encode]
      omega
    have hmore : 0 < ((encodeAll (e :: es)).length : ℤ) := by
      rw [encodeAll_cons, List.length_append, length_encode]
      omega
    rw [macWalk, dif_pos hmore]
    simp only [hlen, htag, macsFrom, hleft]
    rw [dif_neg (by omega)]
    by_cases hmac : e.tag = pwMessageAuthenticator
    · have hbody : e.body.length = authVectorLen := he.mac hmac
      have hcheck := checkMac_eq code h hpos (by omega)
      rw [if_pos hmac, if_pos hmac, hcheck]
      simp only [hnext, Option.map_some]
    · rw [if_neg hmac, if_neg hmac, hnext]

end Authenticators

/-- The packet is signed as its code asks for: an answer with the vector of the request, an
Accounting-Request with zeros. Nothing is asked of the others, an Access-Challenge among them. -/
structure Signed (d : Digest) (secret : Bytes) (original : Option RadiusPacket) (p : Packet) : Prop where
  answer : p.code = pwAuthenticationAck ∨ p.code = pwAuthenticationReject ∨
    p.code = pwAccountingResponse →
    ∃ o, original = some o ∧ p.authenticator = responseDigest d secret o.vector p
  accounting : p.code = pwAccountingRequest → p.authenticator = List.replicate authVectorLen 0 ∨
    p.authenticator = responseDigest d secret (List.replicate authVectorLen 0) p

lemma signed_accounted (d : Digest) (secret : Bytes) (original : Option RadiusPacket) {p : Packet}
    (hcode : p.code = pwAccountingRequest) : Signed d secret original (accounted d secret p) where
  answer := by
    intro h
    rw [show (accounted d secret p).code = p.code from rfl, hcode] at h
    exact absurd h (by decide)
  accounting _ := .inr rfl

def received (p : Packet) : RadiusPacket := ⟨p.code, p.identifier, p.authenticator, p.wire p.size⟩

section Decode
variable (dict : Dict) (d : Digest) (secret : Bytes) (heap : Stack) {p : Packet}
  {original : Option RadiusPacket}

lemma memcpy_vector (p : Packet) (len : ℕ) {vector : Bytes} (hv : vector.length = 16) :
    memcpy (p.wire len) 4 vector = (withAuthenticator p vector hv).wire len := by
  have hfour : (p.code :: p.identifier :: toBytes 2 len).length = 4 := by simp
  have hmid := memcpy_mid (p.code :: p.identifier :: toBytes 2 len) (encodeAll p.attrs)
    (show p.authenticator.length = vector.length by rw [hv, p.authenticator_length])
  rw [hfour] at hmid
  exact hmid

def keysOf (d : Digest) (secret : Bytes) (p : Packet) (original : Option RadiusPacket) : Keys :=
  ⟨d, secret, p.authenticator, original.map RadiusPacket.vector⟩

lemma vectors_received (horiginal : ∀ o, original = some o → o.vector.length = authVectorLen) :
    Vectors (keysOf d secret p original) (p.wire p.size) := by
  refine ⟨?_, ?_, ?_⟩
  · have hfield := p.authenticator_field p.size []
    rw [List.append_nil] at hfield
    exact hfield.symm
  · rw [p.length_wire]
    exact Nat.le_add_right _ _
  · intro v hv
    obtain ⟨o, ho, rfl⟩ := Option.map_eq_some_iff.mp hv
    exact horiginal o ho

lemma length_zeroVector : (List.replicate authVectorLen (0 : UInt8)).length = 16 := List.length_replicate

/-- The data behind the check of the digest: an Accounting-Request may be left without its vector. -/
def checkedData (p : Packet) : Packet :=
  if p.code = pwAccountingRequest ∧ p.authenticator ≠ List.replicate authVectorLen 0 then
    withAuthenticator p (List.replicate authVectorLen 0) length_zeroVector
  else p

lemma attrs_checkedData (p : Packet) : (checkedData p).attrs = p.attrs := by
  unfold checkedData
  split_ifs <;> rfl

lemma acctdigest_eq : calcAcctdigest (keysOf d secret p original) (p.wire p.size) =
    if p.authenticator = List.replicate authVectorLen 0 then (p.wire p.size, 1)
    else ((withAuthenticator p (List.replicate authVectorLen 0) length_zeroVector).wire p.size,
      if responseDigest d secret (List.replicate authVectorLen 0) p = p.authenticator then 0 else 2) := by
  have hdata : memcpy (p.wire p.size) 4 (List.replicate authVectorLen 0) =
      (withAuthenticator p (List.replicate authVectorLen 0) length_zeroVector).wire p.size :=
    memcpy_vector p p.size length_zeroVector
  simp only [calcAcctdigest, keysOf, hdata]
  rfl

lemma replydigest_eq {o : RadiusPacket} (hvector : o.vector.length = authVectorLen) :
    calcReplydigest (keysOf d secret p (some o)) (p.wire p.size) =
      (p.wire p.size, if responseDigest d secret o.vector p = p.authenticator then 0 else 2) := by
  have hdata : memcpy (p.wire p.size) 4 o.vector = (withAuthenticator p o.vector hvector).wire p.size :=
    memcpy_vector p p.size hvector
  have hback : memcpy ((withAuthenticator p o.vector hvector).wire p.size) 4 p.authenticator =
      p.wire p.size := memcpy_vector _ p.size p.authenticator_length
  simp only [calcReplydigest, keysOf, Option.map_some, hdata, hback]
  rfl

lemma checkDigest_eq (horiginal : ∀ o, original = some o → o.vector.length = authVectorLen) :
    (checkDigest (keysOf d secret p original) p.code (p.wire p.size)).1 = (checkedData p).wire p.size ∧
      (1 < (checkDigest (keysOf d secret p original) p.code (p.wire p.size)).2 ↔
        ¬ Signed d secret original p) := by
  unfold checkDigest
  by_cases hacct : p.code = pwAccountingRequest
  · have hother : ¬ (p.code = pwAuthenticationAck ∨ p.code = pwAuthenticationReject ∨
        p.code = pwAccountingResponse) := by
      rw [hacct]
      decide
    have hsigned : Signed d secret original p ↔ p.authenticator = List.replicate authVectorLen 0 ∨
        p.authenticator = responseDigest d secret (List.replicate authVectorLen 0) p :=
      ⟨fun h => h.accounting hacct, fun h => ⟨fun habs => absurd habs hother, fun _ => h⟩⟩
    rw [if_pos hacct, acctdigest_eq, hsigned]
    by_cases hzero : p.authenticator = List.replicate authVectorLen 0
    · have hdata : checkedData p = p := if_neg fun h => h.2 hzero
      rw [if_pos hzero, hdata]
      exact ⟨rfl, iff_of_false (lt_irrefl 1) (not_not.mpr (.inl hzero))⟩
    · have hdata : checkedData p = withAuthenticator p (List.replicate authVectorLen 0) length_zeroVector :=
        if_pos ⟨hacct, hzero⟩
      rw [if_neg hzero, hdata]
      refine ⟨rfl, ?_⟩
      split_ifs with hdigest
      · simp [hdigest]
      · simp [hzero, Ne.symm hdigest]
  · have hdata : checkedData p = p := if_neg fun h => hacct h.1
    rw [if_neg hacct, hdata]
    by_cases hanswer : p.code = pwAuthenticationAck ∨ p.code = pwAuthenticationReject ∨
        p.code = pwAccountingResponse
    · rw [if_pos hanswer]
      have hsigned : Signed d secret original p ↔
          ∃ o, original = some o ∧ p.authenticator = responseDigest d secret o.vector p :=
        ⟨fun h => h.answer hanswer, fun h => ⟨fun _ => h, fun habs => absurd habs hacct⟩⟩
      rw [hsigned]
      cases original with
      | none => simp [calcReplydigest, keysOf]
      | some o =>
        rw [replydigest_eq d secret (horiginal o rfl)]
        refine ⟨rfl, ?_⟩
        split_ifs with hdigest
        · simp [hdigest]
        · simp [Ne.symm hdigest]
    · rw [if_neg hanswer]
      exact ⟨rfl, iff_of_false (by simp)
        (not_not.mpr ⟨fun habs => absurd habs hanswer, fun habs => absurd habs hacct⟩)⟩

def memoryOf (p : Packet) (heap : Stack) : Stack := memory ((checkedData p).wire p.size) heap

lemma shows_memoryOf (p : Packet) (heap : Stack) :
    Shows (memoryOf p heap) authHdrLen (encodeAll p.attrs) := by
  intro i b hb
  have hdrop := (checkedData p).drop_wire p.size []
  rw [List.append_nil, List.append_nil, attrs_checkedData] at hdrop
  have hat : ((checkedData p).wire p.size)[authHdrLen + i]? = some b := by
    rw [← List.getElem?_drop, ← hb]
    exact congrArg (fun l => l[i]?) hdrop
  rw [memoryOf, memory, if_pos (List.getElem?_eq_some_iff.mp hat).1, List.getD_eq_getElem?_getD, hat,
    Option.getD_some]

def macsOf (d : Digest) (secret : Bytes) (original : Option RadiusPacket) (p : Packet) : List Bool :=
  macsFrom (keysOf d secret p original) p.code (p.wire p.size) authHdrLen p.attrs

lemma radDecode_eq (hvalid : ∀ e ∈ p.attrs, Valid e)
    (horiginal : ∀ o, original = some o → o.vector.length = authVectorLen) :
    (Signed d secret original p → radDecode dict d secret heap (received p) original =
      (decodeEntries dict (keysOf d secret p original) (memoryOf p heap)
        (entries (memoryOf p heap) authHdrLen p.attrs)).map fun vps =>
          ⟨0, (checkedData p).wire p.size, vps, macsOf d secret original p⟩) ∧
    (¬ Signed d secret original p → radDecode dict d secret heap (received p) original =
      some ⟨1, (checkedData p).wire p.size, [], macsOf d secret original p⟩) := by
  have hdrop := p.drop_wire p.size []
  rw [List.append_nil, List.append_nil] at hdrop
  have hlength : ((p.wire p.size).length : ℤ) - (authHdrLen : ℤ) = (encodeAll p.attrs).length := by
    have hcount : p.size = authHdrLen + (encodeAll p.attrs).length := rfl
    rw [p.length_wire]
    omega
  have hwalk := macWalk_eq p.code (vectors_received d secret (p := p) horiginal) hvalid le_rfl hdrop
  obtain ⟨hdata, hsigned⟩ := checkDigest_eq d secret (p := p) horiginal
  have hpairs := pairLoop_eq dict (keysOf d secret p original) 0 hvalid (shows_memoryOf p heap)
  have hdecode : radDecode dict d secret heap (received p) original =
      if 1 < (checkDigest (keysOf d secret p original) p.code (p.wire p.size)).2 then
        some ⟨1, (checkedData p).wire p.size, [], macsOf d secret original p⟩
      else (decodeEntries dict (keysOf d secret p original) (memoryOf p heap)
        (entries (memoryOf p heap) authHdrLen p.attrs)).map fun vps =>
          ⟨0, (checkedData p).wire p.size, vps, macsOf d secret original p⟩ := by
    have hstart : macWalk ⟨d, secret, (received p).vector, original.map RadiusPacket.vector⟩
        (received p).code (received p).data authHdrLen
        (((received p).data.length : ℤ) - (authHdrLen : ℤ)) =
        some (p.wire p.size, macsOf d secret original p) := by
      rw [show ((received p).data.length : ℤ) - (authHdrLen : ℤ) = (encodeAll p.attrs).length from hlength]
      exact hwalk
    rw [radDecode, hstart, Option.bind_some, ← hpairs, ← hlength, memoryOf, ← hdata]
    rfl
  rw [hdecode]
  exact ⟨fun h => if_neg fun hlt => hsigned.mp hlt h, fun h => if_pos (hsigned.mpr h)⟩

end Decode

end LdapTgen.RadDecode
