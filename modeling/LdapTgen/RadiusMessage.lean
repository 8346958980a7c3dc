import LdapTgen.ByteOrder
import LdapTgen.MachineInt
import LdapTgen.Tlv

/-! The RADIUS messages of the supplicant: a buffer that grows, an array of pointers into it, and the
packet that the two hold. -/
namespace LdapTgen.RadiusMessage
open ByteOrder MachineInt Tlv

abbrev Bytes := List UInt8

/-- `struct radius_msg`: the address of the buffer, its `buf_size` bytes, and the addresses of the
attributes in it. -/
structure RadiusMsg where
  buf : ℤ
  bytes : Bytes
  bufUsed : ℕ
  attrs : List ℤ
  attrSize : ℕ
  deriving DecidableEq

/-- What the allocator answers: the address of a buffer of the given size, and whether there is an array
of the given size. A message never asks for one size twice. -/
structure Alloc where
  buf : ℕ → Option ℤ
  attrs : ℕ → Bool

def radiusHdrLen : ℕ := 20

def radiusMaxAttrLen : ℕ := 255 - 2

def radiusDefaultMsgSize : ℕ := 1024

def radiusDefaultAttrCount : ℕ := 16

def memcpy (bs : Bytes) (o : ℕ) (data : Bytes) : Bytes :=
  bs.take o ++ data ++ bs.drop (o + data.length)

def radiusMsgInitialize (a : Alloc) (initLen : ℕ) : Option RadiusMsg :=
  if initLen < radiusHdrLen then none
  else
    match a.buf initLen with
    | none => none
    | some buf =>
        if a.attrs radiusDefaultAttrCount then
          some ⟨buf, List.replicate initLen 0, radiusHdrLen, [], radiusDefaultAttrCount⟩
        else none

def radiusMsgSetHdr (m : RadiusMsg) (code identifier : UInt8) : RadiusMsg :=
  { m with bytes := memcpy m.bytes 0 [code, identifier] }

def radiusMsgNew (a : Alloc) (code identifier : UInt8) : Option RadiusMsg :=
  (radiusMsgInitialize a radiusDefaultMsgSize).map fun m => radiusMsgSetHdr m code identifier

/-- `authenticator` is the digest of the time, of the caller's data and of a random number. -/
def radiusMsgMakeAuthenticator (m : RadiusMsg) (authenticator : Bytes) : RadiusMsg :=
  { m with bytes := memcpy m.bytes 4 authenticator }

/-- The loop of `radius_msg_add_attr` for the new size; no message has a size of 0. -/
def doubled (nlen needed : ℕ) : ℕ :=
  if 0 < nlen ∧ nlen < needed then doubled (nlen * 2) needed else nlen
termination_by needed - nlen

/-- More space: the pointers are moved by the distance of the two buffers, which is an `int`. -/
def RadiusMsg.grow (a : Alloc) (m : RadiusMsg) (needed : ℕ) : Option RadiusMsg :=
  if m.bytes.length < needed then
    let nlen := doubled m.bytes.length needed
    (a.buf nlen).map fun nbuf =>
      let diff := int32 (nbuf - m.buf)
      { m with
        buf := nbuf
        bytes := m.bytes ++ List.replicate (nlen - m.bytes.length) 0
        attrs := m.attrs.map (· + diff) }
  else some m

def radiusMsgAddAttrToArray (a : Alloc) (m : RadiusMsg) (attr : ℤ) : Option RadiusMsg :=
  if m.attrSize ≤ m.attrs.length then
    let nlen := m.attrSize * 2
    if a.attrs nlen then some { m with attrs := m.attrs ++ [attr], attrSize := nlen } else none
  else some { m with attrs := m.attrs ++ [attr] }

def radiusMsgAddAttr (a : Alloc) (m : RadiusMsg) (type : UInt8) (data : Bytes) :
    RadiusMsg × Option ℤ :=
  if radiusMaxAttrLen < data.length then (m, none)
  else
    match m.grow a (m.bufUsed + 2 + data.length) with
    | none => (m, none)
    | some m =>
        let attr := m.buf + m.bufUsed
        let m := { m with
          bytes := memcpy m.bytes m.bufUsed (type :: UInt8.ofNat (2 + data.length) :: data)
          bufUsed := m.bufUsed + 2 + data.length }
        match radiusMsgAddAttrToArray a m attr with
        | none => (m, none)
        | some m => (m, some attr)

lemma addAttrToArray_bufUsed {a : Alloc} {m m' : RadiusMsg} {attr : ℤ}
    (h : radiusMsgAddAttrToArray a m attr = some m') : m'.bufUsed = m.bufUsed := by
  unfold radiusMsgAddAttrToArray at h
  split at h
  · dsimp only at h
    split at h
    · obtain rfl := Option.some.inj h
      rfl
    · cases h
  · obtain rfl := Option.some.inj h
    rfl

/-- The loop over the attributes, from the offset `pos` on. -/
def parseAttrs (a : Alloc) (m : RadiusMsg) (pos : ℕ) : Option RadiusMsg :=
  if pos < m.bufUsed then
    if m.bufUsed - pos < 2 then none
    else
      let length := (m.bytes.getD (pos + 1) 0).toNat
      if m.bufUsed < pos + length ∨ length < 2 then none
      else
        match _h : radiusMsgAddAttrToArray a m (m.buf + pos) with
        | none => none
        | some m' => parseAttrs a m' (pos + length)
  else some m
termination_by m.bufUsed - pos
decreasing_by
  rw [addAttrToArray_bufUsed _h]
  omega

def radiusMsgParse (a : Alloc) (data : Bytes) : Option RadiusMsg :=
  if data.length < radiusHdrLen then none
  else
    let msgLen := ofBytes ((data.drop 2).take 2)
    if msgLen < radiusHdrLen ∨ data.length < msgLen then none
    else
      (radiusMsgInitialize a msgLen).bind fun m =>
        parseAttrs a { m with bytes := data.take msgLen, bufUsed := msgLen } radiusHdrLen

abbrev Attr := Element 1

def attr (type : UInt8) (value : Bytes) (h : value.length ≤ radiusMaxAttrLen) : Attr :=
  ⟨type, value, one_dvd _, by
    have h' : value.length ≤ 253 := h
    rw [Nat.div_one]
    omega⟩

structure Packet where
  code : UInt8
  identifier : UInt8
  authenticator : Bytes
  attrs : List Attr
  authenticator_length : authenticator.length = 16

/-- The octets of a packet, with `len` in the length field. -/
def Packet.wire (p : Packet) (len : ℕ) : Bytes :=
  p.code :: p.identifier :: toBytes 2 len ++ p.authenticator ++ encodeAll p.attrs

def Packet.size (p : Packet) : ℕ := radiusHdrLen + (encodeAll p.attrs).length

def Packet.add (p : Packet) (e : Attr) : Packet := { p with attrs := p.attrs ++ [e] }

/-- The used part of the buffer is the packet, with `len` in the length field. -/
structure RadiusMsg.Carries (m : RadiusMsg) (p : Packet) (len : ℕ) : Prop where
  used : m.bufUsed = p.size
  room : m.bufUsed ≤ m.bytes.length
  content : m.bytes.take m.bufUsed = p.wire len

/-- The pointers are those of the attributes, too. -/
structure RadiusMsg.Holds (m : RadiusMsg) (p : Packet) (len : ℕ) : Prop extends m.Carries p len where
  attrs : m.attrs = (starts radiusHdrLen p.attrs).map fun (o : ℕ) => m.buf + (o : ℤ)
  array : 0 < m.attrSize ∧ m.attrs.length ≤ m.attrSize

@[simp] lemma length_encode_attr (e : Attr) : (encode e).length = e.body.length + 2 := rfl

@[simp] lemma Packet.length_wire (p : Packet) (len : ℕ) : (p.wire len).length = p.size := by
  simp [Packet.wire, Packet.size, radiusHdrLen, p.authenticator_length]
  omega

@[simp] lemma Packet.size_add (p : Packet) (e : Attr) :
    (p.add e).size = p.size + (encode e).length := by
  simp [Packet.size, Packet.add, Nat.add_assoc]

lemma Packet.wire_add (p : Packet) (e : Attr) (len : ℕ) :
    (p.add e).wire len = p.wire len ++ encode e := by
  simp [Packet.wire, Packet.add]

lemma length_memcpy {bs data : Bytes} {o : ℕ} (h : o + data.length ≤ bs.length) :
    (memcpy bs o data).length = bs.length := by
  simp only [memcpy, List.length_append, List.length_take, List.length_drop]
  omega

lemma memcpy_mid (before after : Bytes) {old data : Bytes} (h : old.length = data.length) :
    memcpy (before ++ old ++ after) before.length data = before ++ data ++ after := by
  have htake : (before ++ old ++ after).take before.length = before := by
    rw [List.append_assoc, List.take_left]
  have hdrop : (before ++ old ++ after).drop (before.length + data.length) = after := by
    rw [← h, ← List.length_append, List.drop_left]
  rw [memcpy, htake, hdrop]

lemma take_memcpy_of_le {bs data : Bytes} {o n : ℕ} (h : o + data.length ≤ n) (hn : n ≤ bs.length) :
    (memcpy bs o data).take n = memcpy (bs.take n) o data := by
  have hlen : (bs.take o ++ data).length = o + data.length := by
    rw [List.length_append, List.length_take]
    omega
  rw [memcpy, memcpy, List.take_append, List.take_of_length_le (by omega), hlen, List.take_take,
    Nat.min_eq_left (by omega), List.drop_take]

lemma take_memcpy {bs data : Bytes} {o : ℕ} (h : o ≤ bs.length) :
    (memcpy bs o data).take (o + data.length) = bs.take o ++ data := by
  have hlen : (bs.take o ++ data).length = o + data.length := by
    rw [List.length_append, List.length_take, Nat.min_eq_left h]
  rw [memcpy, ← hlen, List.take_left]

lemma initialize_eq_some_iff {a : Alloc} {n : ℕ} {m : RadiusMsg} :
    radiusMsgInitialize a n = some m ↔ radiusHdrLen ≤ n ∧ a.attrs radiusDefaultAttrCount = true ∧
      ∃ buf, a.buf n = some buf ∧
        m = ⟨buf, List.replicate n 0, radiusHdrLen, [], radiusDefaultAttrCount⟩ := by
  unfold radiusMsgInitialize
  by_cases hn : n < radiusHdrLen
  · simp [hn, Nat.not_le.mpr hn]
  · rw [if_neg hn]
    cases hb : a.buf n with
    | none => simp
    | some buf =>
      by_cases hattrs : a.attrs radiusDefaultAttrCount = true
      · simp only [hattrs, if_true, Option.some.injEq, true_and, exists_eq_left', Nat.not_lt.mp hn]
        exact eq_comm
      · simp [hattrs]

def emptyPacket (code identifier : UInt8) : Packet :=
  ⟨code, identifier, List.replicate 16 0, [], rfl⟩

lemma new_carries {a : Alloc} {code identifier : UInt8} {m : RadiusMsg}
    (h : radiusMsgNew a code identifier = some m) : m.Carries (emptyPacket code identifier) 0 := by
  obtain ⟨m₀, h₀, rfl⟩ := Option.map_eq_some_iff.mp h
  obtain ⟨-, -, buf, -, rfl⟩ := initialize_eq_some_iff.mp h₀
  have hlen : (List.replicate radiusDefaultMsgSize (0 : UInt8)).length = radiusDefaultMsgSize :=
    List.length_replicate
  have hle : radiusHdrLen ≤ (List.replicate radiusDefaultMsgSize (0 : UInt8)).length := by
    rw [hlen]
    decide
  refine ⟨rfl, ?_, ?_⟩
  · simp only [radiusMsgSetHdr]
    rw [length_memcpy (le_trans (Nat.le_add_left 2 18) hle)]
    exact hle
  · simp only [radiusMsgSetHdr]
    rw [take_memcpy_of_le (Nat.le_add_left 2 18) hle, List.take_replicate]
    rfl

lemma makeAuthenticator_carries {m : RadiusMsg} {p : Packet} {len : ℕ} {authenticator : Bytes}
    (h : m.Carries p len) (hlen : authenticator.length = 16) :
    (radiusMsgMakeAuthenticator m authenticator).Carries
      ⟨p.code, p.identifier, authenticator, p.attrs, hlen⟩ len := by
  have hsize : 4 + authenticator.length ≤ m.bufUsed := by
    rw [h.used, Packet.size, radiusHdrLen]
    omega
  refine ⟨h.used, ?_, ?_⟩
  · simp only [radiusMsgMakeAuthenticator]
    rw [length_memcpy (hsize.trans h.room)]
    exact h.room
  · simp only [radiusMsgMakeAuthenticator]
    rw [take_memcpy_of_le hsize h.room, h.content]
    have hfour : (p.code :: p.identifier :: toBytes 2 len).length = 4 := by simp
    have hold : p.authenticator.length = authenticator.length := by
      rw [hlen, p.authenticator_length]
    have hmid := memcpy_mid (p.code :: p.identifier :: toBytes 2 len) (encodeAll p.attrs) hold
    rw [hfour] at hmid
    exact hmid

lemma le_doubled {nlen : ℕ} (needed : ℕ) (h : 0 < nlen) : needed ≤ doubled nlen needed := by
  fun_induction doubled nlen needed with
  | case1 nlen hcond ih => exact ih (by omega)
  | case2 nlen hcond =>
    rw [not_and, Nat.not_lt] at hcond
    exact hcond h

lemma grow_carries {a : Alloc} {m m' : RadiusMsg} {p : Packet} {len needed : ℕ} (h : m.Carries p len)
    (hm : m.grow a needed = some m') : m'.Carries p len ∧ needed ≤ m'.bytes.length := by
  unfold RadiusMsg.grow at hm
  split at hm
  case isFalse hge =>
    obtain rfl := Option.some.inj hm
    exact ⟨h, Nat.not_lt.mp hge⟩
  case isTrue hlt =>
    dsimp only at hm
    obtain ⟨nbuf, -, rfl⟩ := Option.map_eq_some_iff.mp hm
    have hpos : 0 < m.bytes.length := by
      have hused := h.used
      have hroom := h.room
      simp only [Packet.size, radiusHdrLen] at hused
      omega
    have hle := le_doubled needed hpos
    refine ⟨⟨h.used, ?_, ?_⟩, ?_⟩
    · rw [List.length_append]
      exact h.room.trans (Nat.le_add_right _ _)
    · rw [List.take_append_of_le_length h.room, h.content]
    · rw [List.length_append, List.length_replicate]
      omega

lemma addAttrToArray_eq {a : Alloc} {m m' : RadiusMsg} {attr : ℤ}
    (h : radiusMsgAddAttrToArray a m attr = some m') :
    m' = { m with attrs := m.attrs ++ [attr], attrSize := m'.attrSize } ∧
      m.attrSize ≤ m'.attrSize ∧ (0 < m.attrSize → m.attrs.length ≤ m.attrSize →
        m'.attrs.length ≤ m'.attrSize) := by
  unfold radiusMsgAddAttrToArray at h
  split at h
  case isTrue hfull =>
    dsimp only at h
    split at h
    case isFalse => cases h
    case isTrue =>
      obtain rfl := Option.some.inj h
      refine ⟨rfl, by dsimp only; omega, fun hpos hle => ?_⟩
      simp only [List.length_append, List.length_singleton]
      omega
  case isFalse hroom =>
    obtain rfl := Option.some.inj h
    refine ⟨rfl, le_rfl, fun _ _ => ?_⟩
    simp only [List.length_append, List.length_singleton]
    omega

lemma addAttr_carries {a : Alloc} {m m' : RadiusMsg} {p : Packet} {len : ℕ} {type : UInt8} {data : Bytes}
    {x : ℤ} (h : m.Carries p len) (hadd : radiusMsgAddAttr a m type data = (m', some x)) :
    ∃ hfit : data.length ≤ radiusMaxAttrLen,
      m'.Carries (p.add (attr type data hfit)) len ∧ x = m'.buf + (p.size : ℤ) := by
  unfold radiusMsgAddAttr at hadd
  split at hadd
  case isTrue => cases hadd
  case isFalse hfit =>
    refine ⟨Nat.not_lt.mp hfit, ?_⟩
    split at hadd
    case h_1 => cases hadd
    case h_2 m₁ hgrow =>
      obtain ⟨h₁, hroom⟩ := grow_carries h hgrow
      dsimp only at hadd
      split at hadd
      case h_1 => cases hadd
      case h_2 m₂ harray =>
        obtain ⟨rfl, hx⟩ := Prod.mk.inj hadd
        obtain rfl := Option.some.inj hx
        obtain ⟨heq, -, -⟩ := addAttrToArray_eq harray
        have hused : m₁.bufUsed = m.bufUsed := h₁.used.trans h.used.symm
        have henc : encode (attr type data (Nat.not_lt.mp hfit)) =
            type :: UInt8.ofNat (2 + data.length) :: data := by
          simp [encode, attr, Nat.add_comm]
        have hbytes : m₂.bytes = memcpy m₁.bytes m₁.bufUsed
            (type :: UInt8.ofNat (2 + data.length) :: data) := by rw [heq]
        have hin : m₁.bufUsed + (type :: UInt8.ofNat (2 + data.length) :: data).length ≤
            m₁.bytes.length := by
          simp only [List.length_cons]
          omega
        have husedAdd : m₂.bufUsed =
            m₁.bufUsed + (type :: UInt8.ofNat (2 + data.length) :: data).length := by
          rw [heq]
          simp only [List.length_cons]
          omega
        refine ⟨⟨?_, ?_, ?_⟩, ?_⟩
        · rw [husedAdd, Packet.size_add, henc, h₁.used]
        · rw [husedAdd, hbytes, length_memcpy hin]
          exact hin
        · rw [husedAdd, hbytes, take_memcpy h₁.room, h₁.content, Packet.wire_add, henc]
        · rw [heq, ← h₁.used]

structure Alloc.Gives (a : Alloc) : Prop where
  buf : ∀ n, ∃ x, a.buf n = some x
  attrs : ∀ n, a.attrs n = true

lemma addAttrToArray_of_gives {a : Alloc} (ha : a.Gives) (m : RadiusMsg) (x : ℤ) :
    ∃ m', radiusMsgAddAttrToArray a m x = some m' := by
  unfold radiusMsgAddAttrToArray
  split
  · simp [ha.attrs]
  · exact ⟨_, rfl⟩

lemma addAttr_of_gives {a : Alloc} (ha : a.Gives) (m : RadiusMsg) (type : UInt8) {data : Bytes}
    (hfit : data.length ≤ radiusMaxAttrLen) :
    ∃ m' x, radiusMsgAddAttr a m type data = (m', some x) := by
  unfold radiusMsgAddAttr
  rw [if_neg (Nat.not_lt.mpr hfit)]
  have hgrow : ∃ m₁, m.grow a (m.bufUsed + 2 + data.length) = some m₁ := by
    unfold RadiusMsg.grow
    split
    · obtain ⟨x, hx⟩ := ha.buf (doubled m.bytes.length (m.bufUsed + 2 + data.length))
      simp [hx]
    · exact ⟨_, rfl⟩
  obtain ⟨m₁, hm₁⟩ := hgrow
  obtain ⟨m₂, hm₂⟩ := addAttrToArray_of_gives ha { m₁ with
    bytes := memcpy m₁.bytes m₁.bufUsed (type :: UInt8.ofNat (2 + data.length) :: data)
    bufUsed := m₁.bufUsed + 2 + data.length } (m₁.buf + m₁.bufUsed)
  simp only [hm₁, hm₂]
  exact ⟨_, _, rfl⟩

/-- The attributes that a caller adds one after the other; it gives up at the first one that cannot be
added. -/
def addAttrs (a : Alloc) : RadiusMsg → List (UInt8 × Bytes) → Option RadiusMsg
  | m, [] => some m
  | m, (type, data) :: rest =>
      match radiusMsgAddAttr a m type data with
      | (_, none) => none
      | (m', some _) => addAttrs a m' rest

def avps (es : List Attr) : List (UInt8 × Bytes) := es.map fun e => (e.tag, e.body)

lemma addAttrs_carries {a : Alloc} {m m' : RadiusMsg} {p : Packet} {len : ℕ}
    {as : List (UInt8 × Bytes)} (h : m.Carries p len) (hadd : addAttrs a m as = some m') :
    ∃ es, avps es = as ∧ m'.Carries { p with attrs := p.attrs ++ es } len := by
  induction as generalizing m p with
  | nil =>
    obtain rfl := Option.some.inj hadd
    exact ⟨[], rfl, by simpa using h⟩
  | cons v as ih =>
    obtain ⟨type, data⟩ := v
    simp only [addAttrs] at hadd
    split at hadd
    case h_1 => cases hadd
    case h_2 m₁ x hm₁ =>
      obtain ⟨hfit, h₁, -⟩ := addAttr_carries h hm₁
      obtain ⟨es, hes, h'⟩ := ih h₁ hadd
      refine ⟨attr type data hfit :: es, ?_, ?_⟩
      · rw [← hes]
        rfl
      · simpa [Packet.add] using h'

lemma addAttrs_of_gives {a : Alloc} (ha : a.Gives) (m : RadiusMsg) (es : List Attr) :
    ∃ m', addAttrs a m (avps es) = some m' := by
  induction es generalizing m with
  | nil => exact ⟨m, rfl⟩
  | cons e es ih =>
    have hfit : e.body.length ≤ radiusMaxAttrLen := by
      have hlt := e.fits.2
      rw [Nat.div_one] at hlt
      simp only [radiusMaxAttrLen]
      omega
    obtain ⟨m₁, x, hm₁⟩ := addAttr_of_gives ha m e.tag hfit
    obtain ⟨m', hm'⟩ := ih m₁
    refine ⟨m', ?_⟩
    simp only [avps, List.map_cons, addAttrs, hm₁]
    exact hm'

lemma getD_add_of_drop {bs l : Bytes} {o : ℕ} (h : bs.drop o = l) (i : ℕ) (d : UInt8) :
    bs.getD (o + i) d = l.getD i d := by
  rw [← h, List.getD_eq_getElem?_getD, List.getD_eq_getElem?_getD, List.getElem?_drop]

lemma parseAttrs_encode {a : Alloc} {m : RadiusMsg} {pos : ℕ} {e : Attr} {rest : Bytes}
    (hused : m.bufUsed = m.bytes.length) (hdrop : m.bytes.drop pos = encode e ++ rest) :
    parseAttrs a m pos = (radiusMsgAddAttrToArray a m (m.buf + pos)).bind fun m' =>
      parseAttrs a m' (pos + (encode e).length) := by
  have hlen := congrArg List.length hdrop
  rw [List.length_drop, List.length_append, length_encode] at hlen
  have hunits := units_mul e
  rw [Nat.one_mul] at hunits
  have hbyte : (m.bytes.getD (pos + 1) 0).toNat = e.body.length + 2 := by
    rw [getD_add_of_drop hdrop, ← hunits]
    rfl
  rw [parseAttrs, if_pos (by omega), if_neg (by omega)]
  dsimp only
  rw [if_neg (by omega), hbyte, length_encode]
  cases radiusMsgAddAttrToArray a m (m.buf + pos) <;> rfl

lemma parseAttrs_of_read_none {a : Alloc} {m : RadiusMsg} {pos : ℕ} {bs : Bytes}
    (hused : m.bufUsed = m.bytes.length) (hdrop : m.bytes.drop pos = bs) (hne : bs ≠ [])
    (hread : read 1 bs = none) : parseAttrs a m pos = none := by
  have hlen := congrArg List.length hdrop
  rw [List.length_drop] at hlen
  have hpos : 0 < bs.length := List.length_pos_iff.mpr hne
  rw [parseAttrs, if_pos (by omega)]
  match bs, hread with
  | [b], _ =>
    rw [List.length_singleton] at hlen
    rw [if_pos (by omega)]
  | tag :: len :: rest, hread =>
    rw [read_eq_none_iff, Nat.one_mul] at hread
    simp only [List.length_cons] at hlen
    have hbyte : (m.bytes.getD (pos + 1) 0).toNat = len.toNat := by
      rw [getD_add_of_drop hdrop]
      rfl
    rw [if_neg (by omega)]
    dsimp only
    rw [if_pos (by omega)]

lemma parseAttrs_nil {a : Alloc} {m : RadiusMsg} {pos : ℕ} (h : m.bufUsed ≤ pos) :
    parseAttrs a m pos = some m := by
  rw [parseAttrs, if_neg (Nat.not_lt.mpr h)]

lemma parseAttrs_of_tiles {a : Alloc} (ha : a.Gives) (m : RadiusMsg) (pos : ℕ) (es : List Attr)
    (hused : m.bufUsed = m.bytes.length) (hsize : 0 < m.attrSize ∧ m.attrs.length ≤ m.attrSize)
    (hdrop : m.bytes.drop pos = encodeAll es) :
    ∃ m', parseAttrs a m pos = some m' ∧
      m' = { m with
        attrs := m.attrs ++ (starts pos es).map fun (o : ℕ) => m.buf + (o : ℤ)
        attrSize := m'.attrSize } ∧
      0 < m'.attrSize ∧ m'.attrs.length ≤ m'.attrSize := by
  induction es generalizing m pos with
  | nil =>
    have hlen := congrArg List.length hdrop
    rw [List.length_drop, encodeAll_nil, List.length_nil] at hlen
    refine ⟨m, parseAttrs_nil (by omega), ?_, hsize⟩
    simp [starts]
  | cons e es ih =>
    rw [encodeAll_cons] at hdrop
    obtain ⟨m₁, hm₁⟩ := addAttrToArray_of_gives ha m (m.buf + pos)
    obtain ⟨heq, hle, hlen⟩ := addAttrToArray_eq hm₁
    have hdrop₁ : m₁.bytes.drop (pos + (encode e).length) = encodeAll es := by
      rw [heq, ← List.drop_drop, hdrop, List.drop_left]
    have hused₁ : m₁.bufUsed = m₁.bytes.length := by
      rw [heq]
      exact hused
    obtain ⟨m', hm', heq', hsize'⟩ :=
      ih m₁ _ hused₁ ⟨hsize.1.trans_le hle, hlen hsize.1 hsize.2⟩ hdrop₁
    refine ⟨m', ?_, ?_, hsize'⟩
    · rw [parseAttrs_encode hused hdrop, hm₁, Option.bind_some, hm']
    · rw [heq', heq]
      simp [starts]

lemma tiles_of_parseAttrs {a : Alloc} {m m' : RadiusMsg} {pos : ℕ}
    (hused : m.bufUsed = m.bytes.length) (h : parseAttrs a m pos = some m') :
    ∃ es : List Attr, m.bytes.drop pos = encodeAll es := by
  generalize hdrop : m.bytes.drop pos = bs
  induction bs using Tlv.induction_on (u := 1) generalizing m pos with
  | nil => exact ⟨[], rfl⟩
  | bad bs hne hread =>
    rw [parseAttrs_of_read_none hused hdrop hne hread] at h
    cases h
  | cons e rest ih =>
    rw [parseAttrs_encode hused hdrop] at h
    obtain ⟨m₁, hm₁, h⟩ := Option.bind_eq_some_iff.mp h
    obtain ⟨heq, -, -⟩ := addAttrToArray_eq hm₁
    have hdrop₁ : m₁.bytes.drop (pos + (encode e).length) = rest := by
      rw [heq, ← List.drop_drop, hdrop, List.drop_left]
    have hused₁ : m₁.bufUsed = m₁.bytes.length := by
      rw [heq]
      exact hused
    obtain ⟨es, hes⟩ := ih hused₁ h hdrop₁
    exact ⟨e :: es, by rw [encodeAll_cons, hes]⟩

lemma Packet.drop_wire (p : Packet) (len : ℕ) (rest : Bytes) :
    (p.wire len ++ rest).drop radiusHdrLen = encodeAll p.attrs ++ rest := by
  have hhdr : (p.code :: p.identifier :: toBytes 2 len ++ p.authenticator).length = radiusHdrLen := by
    simp [p.authenticator_length, radiusHdrLen]
  rw [Packet.wire, ← hhdr, List.append_assoc, List.drop_left]

lemma Packet.length_field (p : Packet) (len : ℕ) (rest : Bytes) :
    ((p.wire len ++ rest).drop 2).take 2 = toBytes 2 len := by
  have htwo : (toBytes 2 len).length = 2 := length_toBytes 2 len
  simp only [Packet.wire, List.cons_append, List.drop_succ_cons, List.drop_zero, List.append_assoc]
  rw [List.take_append_of_le_length htwo.ge, List.take_of_length_le htwo.le]

lemma Packet.authenticator_field (p : Packet) (len : ℕ) (rest : Bytes) :
    ((p.wire len ++ rest).drop 4).take 16 = p.authenticator := by
  have hfour : (p.code :: p.identifier :: toBytes 2 len).length = 4 := by
    simp
  rw [Packet.wire, List.append_assoc, List.append_assoc, List.drop_left' hfour,
    List.take_left' p.authenticator_length]

lemma exists_header (bs : Bytes) (h : radiusHdrLen ≤ bs.length) :
    ∃ code identifier authenticator, authenticator.length = 16 ∧
      bs = code :: identifier :: (bs.drop 2).take 2 ++ authenticator ++ bs.drop radiusHdrLen := by
  match bs, h with
  | code :: identifier :: rest, h =>
    simp only [radiusHdrLen, List.length_cons] at h
    refine ⟨code, identifier, (rest.drop 2).take 16, ?_, ?_⟩
    · rw [List.length_take, List.length_drop]
      omega
    · simp only [radiusHdrLen, List.drop_succ_cons, List.drop_zero, List.cons_append, List.append_assoc]
      have hdrop : rest.drop 18 = (rest.drop 2).drop 16 := by rw [List.drop_drop]
      rw [hdrop, List.take_append_drop, List.take_append_drop]

lemma exists_packet {data : Bytes} {n : ℕ} {es : List Attr} (hn : radiusHdrLen ≤ n)
    (hle : n ≤ data.length) (hfield : ofBytes ((data.drop 2).take 2) = n)
    (hes : (data.take n).drop radiusHdrLen = encodeAll es) :
    ∃ p : Packet, p.size = n ∧ n < 2 ^ 16 ∧ p.attrs = es ∧ data.take n = p.wire n := by
  have htake : (data.take n).length = n := List.length_take_of_le hle
  obtain ⟨code, identifier, authenticator, hauth, hhdr⟩ := exists_header (data.take n) (by omega)
  have hsame : ((data.take n).drop 2).take 2 = (data.drop 2).take 2 := by
    simp only [radiusHdrLen] at hn
    rw [List.drop_take, List.take_take, Nat.min_eq_left (by omega)]
  have htwo : ((data.drop 2).take 2).length = 2 := by
    simp only [radiusHdrLen] at hn
    rw [List.length_take, List.length_drop]
    omega
  have hbytes : toBytes 2 n = (data.drop 2).take 2 := by
    rw [← hfield]
    nth_rewrite 1 [← htwo]
    exact toBytes_ofBytes _
  refine ⟨⟨code, identifier, authenticator, es, hauth⟩, ?_, ?_, rfl, ?_⟩
  · have hdrop := congrArg List.length hes
    rw [List.length_drop, htake] at hdrop
    simp only [Packet.size]
    omega
  · have hlt := ofBytes_lt ((data.drop 2).take 2)
    rw [htwo, hfield] at hlt
    exact hlt
  · rw [Packet.wire, hbytes, ← hsame, ← hes, ← hhdr]

lemma parse_wire {a : Alloc} (ha : a.Gives) (p : Packet) (rest : Bytes) (hsize : p.size < 2 ^ 16) :
    ∃ m, radiusMsgParse a (p.wire p.size ++ rest) = some m ∧ m.Holds p p.size := by
  have hlen : ofBytes (((p.wire p.size ++ rest).drop 2).take 2) = p.size := by
    rw [p.length_field, ofBytes_toBytes_of_lt hsize]
  have hge : radiusHdrLen ≤ p.size := Nat.le_add_right _ _
  have hdata : (p.wire p.size ++ rest).length = p.size + rest.length := by
    rw [List.length_append, p.length_wire]
  have htake : (p.wire p.size ++ rest).take p.size = p.wire p.size := by
    exact List.take_left' (p.length_wire p.size)
  obtain ⟨buf, hbuf⟩ := ha.buf p.size
  have hinit := initialize_eq_some_iff.mpr ⟨hge, ha.attrs radiusDefaultAttrCount, buf, hbuf, rfl⟩
  obtain ⟨m, hm, heq, harray⟩ := parseAttrs_of_tiles ha
    ⟨buf, p.wire p.size, p.size, [], radiusDefaultAttrCount⟩ radiusHdrLen p.attrs
    (p.length_wire p.size).symm ⟨Nat.zero_lt_succ 15, Nat.zero_le _⟩
    (by simpa using p.drop_wire p.size [])
  refine ⟨m, ?_, ⟨?_, ?_, ?_⟩, ?_, harray⟩
  · unfold radiusMsgParse
    rw [if_neg (by omega)]
    simp only [hlen]
    rw [if_neg (by omega), hinit, Option.bind_some]
    simp only [htake]
    exact hm
  · rw [heq]
  · rw [heq]
    exact (p.length_wire p.size).ge
  · rw [heq]
    exact List.take_of_length_le (p.length_wire p.size).le
  · rw [heq]
    simp

lemma wire_of_parse {a : Alloc} {data : Bytes} {m : RadiusMsg} (h : radiusMsgParse a data = some m) :
    ∃ (p : Packet) (rest : Bytes), p.size < 2 ^ 16 ∧ data = p.wire p.size ++ rest := by
  unfold radiusMsgParse at h
  split at h
  case isTrue => cases h
  case isFalse hdata =>
    dsimp only at h
    split at h
    case isTrue => cases h
    case isFalse hlen =>
      generalize hmsg : ofBytes ((data.drop 2).take 2) = msgLen at h hlen
      rw [not_or, Nat.not_lt, Nat.not_lt] at hlen
      obtain ⟨m₀, -, hparse⟩ := Option.bind_eq_some_iff.mp h
      have htake : (data.take msgLen).length = msgLen := by
        rw [List.length_take]
        omega
      obtain ⟨es, hes⟩ := tiles_of_parseAttrs htake.symm hparse
      obtain ⟨p, hsize, hlt, -, hwire⟩ := exists_packet hlen.1 hlen.2 hmsg hes
      refine ⟨p, data.drop msgLen, by omega, ?_⟩
      rw [hsize, ← hwire, List.take_append_drop]

/-- `radius_msg_parse` takes exactly the octets that start with a packet, whatever follows it, and the message
holds that packet. -/
theorem parse_exact {a : Alloc} (ha : a.Gives) (data : Bytes) :
    (∀ m, radiusMsgParse a data = some m → ∃ (p : Packet) (rest : Bytes),
        p.size < 2 ^ 16 ∧ data = p.wire p.size ++ rest ∧ m.Holds p p.size) ∧
      ∀ (p : Packet) (rest : Bytes), p.size < 2 ^ 16 → data = p.wire p.size ++ rest →
        ∃ m, radiusMsgParse a data = some m ∧ m.Holds p p.size := by
  constructor
  · intro m hparse
    obtain ⟨p, rest, hsize, rfl⟩ := wire_of_parse hparse
    obtain ⟨m', hparse', h⟩ := parse_wire ha p rest hsize
    obtain rfl : m' = m := Option.some.inj (hparse'.symm.trans hparse)
    exact ⟨p, rest, hsize, rfl, h⟩
  · rintro p rest hsize rfl
    exact parse_wire ha p rest hsize

def fixedAlloc : Alloc := ⟨fun _ => some 0, fun _ => true⟩

lemma fixedAlloc_gives : fixedAlloc.Gives := ⟨fun _ => ⟨0, rfl⟩, fun _ => rfl⟩

/-- An Access-Accept with a Reply-Message and a Message-Authenticator. -/
def textAccept : Packet :=
  ((emptyPacket 2 7).add (attr 18 [72, 105] (by decide))).add (attr 80 (List.replicate 16 0) (by decide))

theorem text_accept_parsed :
    ∃ m, radiusMsgParse fixedAlloc (textAccept.wire textAccept.size ++ [0]) = some m ∧
      m.Holds textAccept textAccept.size :=
  (parse_exact fixedAlloc_gives _).2 textAccept [0] (by decide) rfl

def fixedMsg (code : UInt8) : RadiusMsg :=
  radiusMsgSetHdr
    ⟨0, List.replicate radiusDefaultMsgSize 0, radiusHdrLen, [], radiusDefaultAttrCount⟩ code 7

lemma fixedMsg_new (code : UInt8) : radiusMsgNew fixedAlloc code 7 = some (fixedMsg code) := rfl

def RadiusMsg.offset (m : RadiusMsg) (x : ℤ) : ℕ := (x - m.buf).toNat

def RadiusMsg.attrType (m : RadiusMsg) (x : ℤ) : UInt8 := m.bytes.getD (m.offset x) 0

def RadiusMsg.attrLength (m : RadiusMsg) (x : ℤ) : ℕ := (m.bytes.getD (m.offset x + 1) 0).toNat

/-- The bytes behind the header of the attribute, as many as its length says. -/
def RadiusMsg.attrValue (m : RadiusMsg) (x : ℤ) : Bytes :=
  (m.bytes.drop (m.offset x + 2)).take (m.attrLength x - 2)

structure RadiusMsg.Points (m : RadiusMsg) (x : ℤ) (e : Attr) : Prop where
  type : m.attrType x = e.tag
  length : m.attrLength x = e.body.length + 2
  value : m.attrValue x = e.body

lemma points_of_at {m : RadiusMsg} {o : ℕ} {e : Attr} (h : At m.bytes o e) :
    m.Points (m.buf + o) e := by
  obtain ⟨rest, hdrop⟩ := h
  have hoff : m.offset (m.buf + o) = o := by
    simp [RadiusMsg.offset]
  have hunits := units_mul e
  rw [Nat.one_mul] at hunits
  have hlen : m.attrLength (m.buf + o) = e.body.length + 2 := by
    rw [RadiusMsg.attrLength, hoff, getD_add_of_drop hdrop, ← hunits]
    rfl
  refine ⟨?_, hlen, ?_⟩
  · rw [RadiusMsg.attrType, hoff]
    exact getD_add_of_drop hdrop 0 0
  · rw [RadiusMsg.attrValue, hlen, hoff, ← List.drop_drop, hdrop]
    simp [encode]

lemma RadiusMsg.Holds.points {m : RadiusMsg} {p : Packet} {len : ℕ} (h : m.Holds p len) :
    List.Forall₂ m.Points m.attrs p.attrs := by
  have hbytes : m.bytes = p.wire len ++ m.bytes.drop m.bufUsed := by
    rw [← h.content, List.take_append_drop]
  have hdrop : m.bytes.drop radiusHdrLen = encodeAll p.attrs ++ m.bytes.drop m.bufUsed := by
    nth_rewrite 1 [hbytes]
    exact p.drop_wire len _
  rw [h.attrs, List.forall₂_map_left_iff]
  exact (at_starts hdrop).imp fun o e hat => points_of_at hat

def RadiusMsg.read (m : RadiusMsg) (x : ℤ) : UInt8 × Bytes := (m.attrType x, m.attrValue x)

lemma RadiusMsg.Holds.map_read {m : RadiusMsg} {p : Packet} {len : ℕ} (h : m.Holds p len) :
    m.attrs.map m.read = avps p.attrs := by
  rw [avps, ← List.forall₂_eq_eq_eq, List.forall₂_map_left_iff, List.forall₂_map_right_iff]
  refine h.points.imp fun x e hxe => ?_
  rw [RadiusMsg.read, hxe.type, hxe.value]

lemma avps_of_wire {p q : Packet} {rest : Bytes} (hq : q.size < 2 ^ 16)
    (h : q.wire q.size = p.wire p.size ++ rest) : avps p.attrs = avps q.attrs := by
  have hlen := congrArg List.length h
  rw [Packet.length_wire, List.length_append, Packet.length_wire] at hlen
  obtain ⟨m, hm, hp⟩ := parse_wire fixedAlloc_gives p rest (by omega)
  obtain ⟨m', hm', hq'⟩ := parse_wire fixedAlloc_gives q [] hq
  rw [List.append_nil, h] at hm'
  obtain rfl : m = m' := Option.some.inj (hm.symm.trans hm')
  rw [← hp.map_read, hq'.map_read]

end LdapTgen.RadiusMessage
