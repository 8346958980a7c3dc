import LdapTgen.Pieces
import LdapTgen.RadiusMessage

/-! What the supplicant reads of a RADIUS message and writes to it: single attributes, the EAP packet in
its EAP-Message attributes, and the attributes of a vendor. -/
namespace LdapTgen.RadiusAttributes
open ByteOrder Pieces RadiusMessage Tlv

def vendorSpecific : UInt8 := 26
def eapMessage : UInt8 := 79

def vendorIdWimax : ℕ := 24757

/-- The length of the first attribute of the type, or -1, and the buffer with as much of it as there is
room for. -/
def radiusMsgGetAttr (m : RadiusMsg) (type : UInt8) (buf : Bytes) : ℤ × Bytes :=
  match m.attrs.find? fun x => m.attrType x = type with
  | none => (-1, buf)
  | some x => ((m.attrLength x : ℤ) - 2, (m.attrValue x).take buf.length ++
      buf.drop (m.attrValue x).length)

def radiusMsgCopyAttr (a : Alloc) (dst src : RadiusMsg) (type : UInt8) : RadiusMsg × ℤ :=
  match src.attrs.find? fun x => src.attrType x = type with
  | none => (dst, 0)
  | some x =>
      match radiusMsgAddAttr a dst type (src.attrValue x) with
      | (dst, none) => (dst, -1)
      | (dst, some _) => (dst, 1)

def radiusMsgAddAttrInt32 (a : Alloc) (m : RadiusMsg) (type : UInt8) (value : ℕ) : RadiusMsg × Bool :=
  let (m, attr) := radiusMsgAddAttr a m type (toBytes 4 value)
  (m, attr.isSome)

/-- `noData` are the two flags of the test without data: the first six bytes are sent, with that length
in the header of the EAP packet. -/
def radiusMsgAddEap (a : Alloc) (noData : Bool) (m : RadiusMsg) (data : Bytes) : RadiusMsg × Bool :=
  if data = [] then (m, true)
  else if noData then
    match radiusMsgAddAttr a m eapMessage ((memcpy data 2 (toBytes 2 6)).take 6) with
    | (m, none) => (m, false)
    | (m, some _) => (m, true)
  else
    let len := if radiusMaxAttrLen < data.length then radiusMaxAttrLen else data.length
    match radiusMsgAddAttr a m eapMessage (data.take len) with
    | (m, none) => (m, false)
    | (m, some _) => radiusMsgAddEap a noData m (data.drop len)
termination_by data.length
decreasing_by
  have hpos : 0 < data.length := List.length_pos_iff.mpr (by assumption)
  have hmax : 0 < radiusMaxAttrLen := by decide
  rw [List.length_drop]
  split_ifs <;> omega

def radiusMsgGetEap (m : RadiusMsg) : Option Bytes :=
  let eap := (m.attrs.filter fun x => m.attrType x = eapMessage).flatMap m.attrValue
  if eap.length = 0 then none else some eap

/-- The loop over the attributes of the vendor; it ends at the first one that does not fit. -/
def vendorLoop (subtype : UInt8) : Bytes → Option Bytes
  | type :: len :: rest =>
      if rest.length + 2 < len.toNat ∨ len.toNat < 2 then none
      else if type ≠ subtype then vendorLoop subtype (rest.drop (len.toNat - 2))
      else some (rest.take (len.toNat - 2))
  | _ => none
termination_by bs => bs.length
decreasing_by
  simp only [List.length_drop, List.length_cons]
  omega

def vendorAttrIn (vendor : ℕ) (subtype : UInt8) (v : UInt8 × Bytes) : Option Bytes :=
  if v.1 ≠ vendorSpecific then none
  else if v.2.length < 4 then none
  else if ofBytes (v.2.take 4) ≠ vendor then none
  else vendorLoop subtype (v.2.drop 4)

def radiusMsgGetVendorAttr (m : RadiusMsg) (vendor : ℕ) (subtype : UInt8) : Option Bytes :=
  m.attrs.findSome? fun x => vendorAttrIn vendor subtype (m.read x)

def radiusMsgGetWimaxVsa (m : RadiusMsg) (vendor : ℕ) (subtype : UInt8) : Option Bytes :=
  radiusMsgGetVendorAttr m vendor subtype

def hexDigit (c : Char) : Option ℕ :=
  if '0' ≤ c ∧ c ≤ '9' then some (c.toNat - '0'.toNat)
  else if 'a' ≤ c ∧ c ≤ 'f' then some (c.toNat - 'a'.toNat + 10)
  else if 'A' ≤ c ∧ c ≤ 'F' then some (c.toNat - 'A'.toNat + 10)
  else none

/-- `strtoul` of `0x` and two characters. -/
def strtoulPair (c d : Char) : ℕ :=
  match hexDigit c with
  | none => 0
  | some hi =>
      match hexDigit d with
      | none => hi
      | some lo => 16 * hi + lo

/-- The bytes of a text; the last character of an odd number is not read. -/
def unhex : List Char → Bytes
  | c :: d :: s => UInt8.ofNat (strtoulPair c d) :: unhex s
  | _ => []

def radiusMsgAddWimaxVsa (a : Alloc) (m : RadiusMsg) (vendorType : UInt8) (wimaxVsa : List Char) :
    RadiusMsg × Bool :=
  let value := unhex wimaxVsa
  let buf := toBytes 4 vendorIdWimax ++ vendorType :: UInt8.ofNat (2 + value.length) :: value
  let (m, attr) := radiusMsgAddAttr a m vendorSpecific buf
  (m, attr.isSome)

section Reading
variable {m : RadiusMsg} {p : Packet} {len : ℕ}

lemma findSome_read (h : m.Holds p len) {α : Type} (f : UInt8 × Bytes → Option α) :
    (m.attrs.findSome? fun x => f (m.read x)) = (avps p.attrs).findSome? f := by
  rw [← h.map_read, List.findSome?_map]
  rfl

lemma find_type (h : m.Holds p len) (type : UInt8) :
    Option.Rel m.Points (m.attrs.find? fun x => m.attrType x = type)
      (p.attrs.find? fun e => e.tag = type) := by
  have hpoints := h.points
  generalize m.attrs = xs, p.attrs = es at hpoints
  induction hpoints with
  | nil => exact .none
  | cons hxe _ ih =>
    rw [List.find?_cons, List.find?_cons, hxe.type]
    split
    · exact .some hxe
    · exact ih

lemma filter_type (h : m.Holds p len) (type : UInt8) :
    List.Forall₂ m.Points (m.attrs.filter fun x => m.attrType x = type)
      (p.attrs.filter fun e => e.tag = type) := by
  refine List.rel_filter ?_ h.points
  intro x e hxe
  simp [hxe.type]

lemma getEap_of_holds (h : m.Holds p len) :
    radiusMsgGetEap m =
      let eap := (p.attrs.filter fun e => e.tag = eapMessage).flatMap fun e => e.body
      if eap.length = 0 then none else some eap := by
  have hvalues : (m.attrs.filter fun x => m.attrType x = eapMessage).flatMap m.attrValue =
      (p.attrs.filter fun e => e.tag = eapMessage).flatMap fun e => e.body := by
    have hpoints := filter_type h eapMessage
    rw [List.flatMap_def, List.flatMap_def]
    congr 1
    rw [← List.forall₂_eq_eq_eq, List.forall₂_map_left_iff, List.forall₂_map_right_iff]
    exact hpoints.imp fun x e hxe => hxe.value
  simp only [radiusMsgGetEap, hvalues]

/-- The sub-attributes of the vendor in one attribute, as far as they fit. -/
def vendorAttrs (vendor : ℕ) (e : Attr) : List Attr :=
  if e.tag = vendorSpecific ∧ 4 ≤ e.body.length ∧ ofBytes (e.body.take 4) = vendor then
    readPrefix 1 (e.body.drop 4)
  else []

lemma vendorLoop_of_none {subtype : UInt8} {bs : Bytes} (h : read 1 bs = none) :
    vendorLoop subtype bs = none := by
  match bs, h with
  | [], _ => rw [vendorLoop.eq_2 _ _ (by simp)]
  | [_], _ => rw [vendorLoop.eq_2 _ _ (by simp)]
  | type :: len :: rest, h =>
    rw [read_eq_none_iff, Nat.one_mul] at h
    rw [vendorLoop, if_pos (by omega)]

lemma vendorLoop_encode (subtype : UInt8) (e : Attr) (rest : Bytes) :
    vendorLoop subtype (encode e ++ rest) =
      if e.tag = subtype then some e.body else vendorLoop subtype rest := by
  have hunits := units_mul e
  rw [Nat.one_mul] at hunits
  simp only [encode, List.cons_append]
  rw [vendorLoop, if_neg (by rw [hunits, List.length_append]; omega), hunits]
  by_cases htag : e.tag = subtype
  · simp [htag]
  · simp [htag]

lemma vendorLoop_eq (subtype : UInt8) (bs : Bytes) :
    vendorLoop subtype bs = ((readPrefix 1 bs).find? fun e => e.tag = subtype).map fun e => e.body := by
  induction bs using Tlv.induction_on (u := 1) with
  | nil => rw [vendorLoop_of_none rfl, readPrefix_of_none rfl]; rfl
  | bad bs hne h => rw [vendorLoop_of_none h, readPrefix_of_none h]; rfl
  | cons e rest ih =>
    rw [vendorLoop_encode, readPrefix_encode_append, List.find?_cons, ih]
    by_cases htag : e.tag = subtype
    · simp [htag]
    · simp [htag]

lemma vendorAttrIn_eq (vendor : ℕ) (subtype : UInt8) (e : Attr) :
    vendorAttrIn vendor subtype (e.tag, e.body) =
      ((vendorAttrs vendor e).find? fun s => s.tag = subtype).map fun s => s.body := by
  unfold vendorAttrIn vendorAttrs
  by_cases htag : e.tag = vendorSpecific
  · by_cases hlen : e.body.length < 4
    · simp [htag, hlen]
    · by_cases hvendor : ofBytes (e.body.take 4) = vendor
      · simp [htag, hlen, hvendor, Nat.not_lt.mp hlen, vendorLoop_eq]
      · simp [htag, hlen, hvendor]
  · simp [htag]

/-- The lookup over all attributes of the vendor, in the order of the message. -/
theorem getVendorAttr_eq (h : m.Holds p len) (vendor : ℕ) (subtype : UInt8) :
    radiusMsgGetVendorAttr m vendor subtype =
      ((p.attrs.flatMap (vendorAttrs vendor)).find? fun s => s.tag = subtype).map fun s => s.body := by
  rw [radiusMsgGetVendorAttr, findSome_read h]
  induction p.attrs with
  | nil => rfl
  | cons e es ih =>
    simp only [avps, List.map_cons] at ih ⊢
    rw [List.findSome?_cons, vendorAttrIn_eq, List.flatMap_cons, List.find?_append, ih]
    cases (vendorAttrs vendor e).find? fun s => s.tag = subtype <;> rfl

def sessionAttr : Attr := attr 4 [9] (by decide)

def sessionVsa : Attr :=
  attr vendorSpecific (toBytes 4 vendorIdWimax ++ encodeAll [sessionAttr]) (by decide)

def sessionPacket : Packet := (emptyPacket 2 7).add sessionVsa

theorem session_attr_found :
    ∃ m, radiusMsgParse fixedAlloc (sessionPacket.wire sessionPacket.size ++ []) = some m ∧
      radiusMsgGetVendorAttr m vendorIdWimax 4 = some [9] := by
  obtain ⟨m, hparse, h⟩ := parse_wire fixedAlloc_gives sessionPacket [] (by decide)
  have hattrs : sessionPacket.attrs.flatMap (vendorAttrs vendorIdWimax) = [sessionAttr] := by
    change [sessionVsa].flatMap _ = _
    rw [List.flatMap_singleton, vendorAttrs, if_pos (by decide)]
    exact readPrefix_encodeAll [sessionAttr]
  refine ⟨m, hparse, ?_⟩
  rw [getVendorAttr_eq h, hattrs]
  rfl

end Reading

def added (r : RadiusMsg × Option ℤ) : Option RadiusMsg := r.2.map fun _ => r.1

def checked (r : RadiusMsg × Bool) : Option RadiusMsg := if r.2 then some r.1 else none

def copied (r : RadiusMsg × ℤ) : Option RadiusMsg := if r.2 < 0 then none else some r.1

section Writing
variable (a : Alloc) (m : RadiusMsg)

lemma addAttrs_append (as bs : List (UInt8 × Bytes)) :
    addAttrs a m (as ++ bs) = (addAttrs a m as).bind fun m' => addAttrs a m' bs := by
  induction as generalizing m with
  | nil => rfl
  | cons v as ih =>
    obtain ⟨type, data⟩ := v
    simp only [List.cons_append, addAttrs]
    split
    · rfl
    · exact ih _

lemma added_addAttr (type : UInt8) (data : Bytes) :
    added (radiusMsgAddAttr a m type data) = addAttrs a m [(type, data)] := by
  simp only [addAttrs, added]
  split
  case h_1 h => rw [h]; rfl
  case h_2 h => rw [h]; rfl

lemma checked_isSome (r : RadiusMsg × Option ℤ) : checked (r.1, r.2.isSome) = added r := by
  obtain ⟨m, x⟩ := r
  cases x <;> rfl

lemma checked_addAttrInt32 (type : UInt8) (value : ℕ) :
    checked (radiusMsgAddAttrInt32 a m type value) = addAttrs a m [(type, toBytes 4 value)] := by
  rw [← added_addAttr, ← checked_isSome]
  rfl

def vsaValue (vendor : ℕ) (vendorType : UInt8) (value : Bytes) : Bytes :=
  toBytes 4 vendor ++ vendorType :: UInt8.ofNat (2 + value.length) :: value

def wimaxValue (vendorType : UInt8) (value : Bytes) : Bytes := vsaValue vendorIdWimax vendorType value

lemma checked_addWimaxVsa (vendorType : UInt8) (wimaxVsa : List Char) :
    checked (radiusMsgAddWimaxVsa a m vendorType wimaxVsa) =
      addAttrs a m [(vendorSpecific, wimaxValue vendorType (unhex wimaxVsa))] := by
  rw [← added_addAttr, ← checked_isSome]
  rfl

def eapAvps (data : Bytes) : List (UInt8 × Bytes) :=
  (pieces radiusMaxAttrLen data).map fun piece => (eapMessage, piece)

lemma checked_addEap (data : Bytes) :
    checked (radiusMsgAddEap a false m data) = addAttrs a m (eapAvps data) := by
  induction hn : data.length using Nat.strong_induction_on generalizing m data with
  | _ n ih =>
    by_cases hnil : data = []
    · rw [hnil, radiusMsgAddEap]
      simp [checked, eapAvps, addAttrs]
    · have hpos : 0 < data.length := List.length_pos_iff.mpr hnil
      have hmax : 0 < radiusMaxAttrLen := by decide
      have htake : data.take (if radiusMaxAttrLen < data.length then radiusMaxAttrLen
          else data.length) = data.take radiusMaxAttrLen := by
        split
        · rfl
        · rw [List.take_length, List.take_of_length_le (by omega)]
      have hdrop : data.drop (if radiusMaxAttrLen < data.length then radiusMaxAttrLen
          else data.length) = data.drop radiusMaxAttrLen := by
        split
        · rfl
        · rw [List.drop_length, List.drop_of_length_le (by omega)]
      rw [eapAvps, pieces_cons hmax hnil, List.map_cons, addAttrs, radiusMsgAddEap, if_neg hnil]
      simp only [Bool.false_eq_true, if_false, htake, hdrop]
      rcases radiusMsgAddAttr a m eapMessage (data.take radiusMaxAttrLen) with ⟨m', _ | x⟩
      · rfl
      · have hlt : (data.drop radiusMaxAttrLen).length < n := by
          rw [List.length_drop]
          omega
        exact ih _ hlt m' _ rfl

def copiedAvps (src : RadiusMsg) (type : UInt8) : List (UInt8 × Bytes) :=
  match src.attrs.find? fun x => src.attrType x = type with
  | none => []
  | some x => [(type, src.attrValue x)]

lemma copied_copyAttr (src : RadiusMsg) (type : UInt8) :
    copied (radiusMsgCopyAttr a m src type) = addAttrs a m (copiedAvps src type) := by
  unfold radiusMsgCopyAttr copiedAvps
  split
  case h_1 => rfl
  case h_2 x _ =>
    rw [← added_addAttr]
    rcases radiusMsgAddAttr a m type (src.attrValue x) with ⟨m', _ | y⟩
    · rfl
    · rfl

end Writing

lemma addAttrs_of_fit {a : Alloc} (hgives : a.Gives) {m : RadiusMsg} {p : Packet} {len : ℕ}
    (h : m.Carries p len) {as : List (UInt8 × Bytes)} (hfit : ∀ v ∈ as, v.2.length ≤ radiusMaxAttrLen) :
    ∃ m', addAttrs a m as = some m' ∧ m'.bufUsed = m.bufUsed + (as.map fun v => v.2.length + 2).sum := by
  obtain ⟨es, rfl⟩ : ∃ es : List Attr, avps es = as := by
    induction as with
    | nil => exact ⟨[], rfl⟩
    | cons v as ih =>
      obtain ⟨hv, has⟩ := List.forall_mem_cons.mp hfit
      obtain ⟨es, rfl⟩ := ih has
      exact ⟨attr v.1 v.2 hv :: es, rfl⟩
  obtain ⟨m', hadd⟩ := addAttrs_of_gives hgives m es
  obtain ⟨es', hes', h'⟩ := addAttrs_carries h hadd
  have hsum : ∀ es : List Attr, (encodeAll es).length = ((avps es).map fun v => v.2.length + 2).sum := by
    intro es
    induction es with
    | nil => rfl
    | cons e es ih =>
      rw [encodeAll_cons, List.length_append, length_encode, ih]
      rfl
  refine ⟨m', hadd, ?_⟩
  rw [h'.used, h.used, Packet.size, Packet.size, encodeAll_append, List.length_append, hsum es', hes',
    Nat.add_assoc]

lemma flatMap_eapAvps (data : Bytes) : ((eapAvps data).flatMap fun v => v.2) = data := by
  rw [eapAvps, List.flatMap_map]
  exact List.flatMap_id'.trans (flatten_pieces (by decide) data)

lemma length_vsaValue (vendor : ℕ) (vendorType : UInt8) (value : Bytes) :
    (vsaValue vendor vendorType value).length = value.length + 6 := by
  simp [vsaValue]
  omega

lemma vendorAttrIn_vsaValue {vendor vendor' : ℕ} {vendorType subtype : UInt8} {value : Bytes}
    (hvendor : vendor' < 2 ^ 32)
    (hfit : (vsaValue vendor' vendorType value).length ≤ radiusMaxAttrLen) :
    vendorAttrIn vendor subtype (vendorSpecific, vsaValue vendor' vendorType value) =
      if vendor' = vendor ∧ vendorType = subtype then some value else none := by
  have hlen := length_vsaValue vendor' vendorType value
  have hvalue : value.length ≤ radiusMaxAttrLen := by omega
  have hfour : (toBytes 4 vendor').length = 4 := length_toBytes 4 _
  have htake : (vsaValue vendor' vendorType value).take 4 = toBytes 4 vendor' :=
    List.take_left' hfour
  have hdrop : (vsaValue vendor' vendorType value).drop 4 = encode (attr vendorType value hvalue) := by
    have henc : encode (attr vendorType value hvalue) =
        vendorType :: UInt8.ofNat (2 + value.length) :: value := by
      simp [encode, attr, Nat.add_comm]
    rw [vsaValue, List.drop_left' hfour, henc]
  have hread : ofBytes (toBytes 4 vendor') = vendor' := ofBytes_toBytes_of_lt hvendor
  have hempty : vendorLoop subtype [] = none := vendorLoop_of_none rfl
  have hloop := vendorLoop_encode subtype (attr vendorType value hvalue) []
  rw [List.append_nil, hempty] at hloop
  rw [vendorAttrIn, if_neg (by simp), if_neg (by dsimp only; omega)]
  simp only [htake, hread, hdrop, hloop]
  by_cases hsame : vendor' = vendor
  · rw [if_neg (by simp [hsame])]
    exact if_congr (by simp [hsame, attr]) rfl rfl
  · simp [hsame]

lemma vendorAttrIn_wimaxValue {vendorType subtype : UInt8} {value : Bytes}
    (hfit : (wimaxValue vendorType value).length ≤ radiusMaxAttrLen) :
    vendorAttrIn vendorIdWimax subtype (vendorSpecific, wimaxValue vendorType value) =
      if vendorType = subtype then some value else none := by
  rw [wimaxValue, vendorAttrIn_vsaValue (by decide) hfit]
  simp

end LdapTgen.RadiusAttributes
