import LdapTgen.RadDecode

/-! `rad_send`: the pairs of a packet as the octets that are sent. There is memory for them, and the
packet has a socket. -/
namespace LdapTgen.RadSend
open ByteOrder MppeKeys RadDecode RadPassword RadRecv RadiusAuthenticators RadiusMessage Tlv

inductive SendError
  /-- more attributes than there may be: the result is -1 -/
  | tooLong
  /-- octets would be read or written that are not the packet's -/
  | undefined
  deriving DecidableEq

def vendor (attr : ℕ) : ℕ := attr / 2 ^ 16 % 2 ^ 16

/-- What the packet is sent with; `offset` and `rand` are for the salts. -/
structure SendKeys where
  d : Digest
  secret : Bytes
  vector : Bytes
  offset : ℕ
  rand : ℕ → ℕ

/-- The state of the loop over the pairs: what is written behind the header, `total_length`,
`msg_auth_offset`, and how many salts were used. -/
structure Sending where
  written : Bytes
  totalLength : ℕ
  msgAuthOffset : ℕ
  salts : ℕ
  deriving DecidableEq

def encrypt (k : SendKeys) (salts : ℕ) (reply : ValuePair) : ValuePair × ℕ :=
  let reply := { reply with flags := { reply.flags with
    encrypt := encryptOf reply.name reply.attr reply.flags.encrypt } }
  match reply.flags.encrypt with
  | .none => (reply, salts)
  | .userPassword =>
      let sent := radPwencode k.d k.secret k.vector reply.strvalue reply.length.toNat
      ({ reply with strvalue := sent.1, length := sent.2 }, salts)
  | .tunnelPassword =>
      let sent := radTunnelPwencode k.d k.secret k.vector reply.strvalue reply.length.toNat
        (k.offset + salts) (k.rand (2 * salts)) (k.rand (2 * salts + 1))
      ({ reply with strvalue := sent.1, length := sent.2 }, salts + 1)
  | .ascendSecret =>
      let digest := makeSecret k.d k.secret k.vector reply.strvalue
      ({ reply with strvalue := memcpy reply.strvalue 0 digest, length := authVectorLen }, salts)

def tagOctets (flags : AttrFlags) : Bytes :=
  if flags.hasTag = true then
    if tagValid flags.tag then [flags.tag]
    else if flags.encrypt = .tunnelPassword then [0]
    else []
  else []

/-- What is written of a value, how much of it is counted, and the pair as it is left. -/
structure Written where
  octets : Bytes
  len : ℕ
  reply : ValuePair
  salts : ℕ

/-- The value of a pair. All of it is written, but only what is allowed is counted. -/
def writeValue (k : SendKeys) (allowed salts : ℕ) (reply : ValuePair) : Except SendError Written :=
  match reply.type with
  | .ifid | .ipv6addr | .ipv6prefixes | .abinary | .string | .octets =>
      if reply.length < 0 ∨ maxStringLen < reply.length then .error .undefined
      else
        let encrypted := encrypt k salts reply
        let reply := encrypted.1
        let octets := tagOctets reply.flags ++ reply.strvalue.take reply.length.toNat
        .ok ⟨octets, min octets.length allowed, reply, encrypted.2⟩
  | .integer =>
      if reply.flags.hasTag = true then
        let tag := if tagValid reply.flags.tag then reply.flags.tag else 0
        .ok ⟨tag :: toBytes 3 reply.lvalue, 4, { reply with flags := { reply.flags with tag := tag } },
          salts⟩
      else .ok ⟨toBytes 4 reply.lvalue, 4, reply, salts⟩
  | .ipaddr | .date => .ok ⟨toBytes 4 reply.lvalue, 4, reply, salts⟩
  | .other => .ok ⟨[], 0, reply, salts⟩

def header (attr len : ℕ) : Bytes :=
  if vendor attr = 0 then [UInt8.ofNat attr, UInt8.ofNat (2 + len)]
  else if vendor attr = vendorpecUsr then
    pwVendorSpecific :: UInt8.ofNat (10 + len) :: toBytes 4 (vendor attr) ++ toBytes 4 (attr % 2 ^ 16)
  else pwVendorSpecific :: UInt8.ofNat (8 + len) :: toBytes 4 (vendor attr) ++
    [UInt8.ofNat attr, UInt8.ofNat (2 + len)]

def headerLen (attr : ℕ) : ℕ :=
  if vendor attr = 0 then 2 else if vendor attr = vendorpecUsr then 10 else 8

/-- `MAX_PACKET_LEN + 256` octets are there for the packet. -/
def bufferLen : ℕ := maxPacketLen + 256

def sendPair (k : SendKeys) (s : Sending) (reply : ValuePair) : Except SendError (Sending × ValuePair) :=
  let mac := reply.attr = pwMessageAuthenticator.toNat
  let reply := if mac then { reply with
      length := authVectorLen
      strvalue := memcpy reply.strvalue 0 (List.replicate authVectorLen 0) } else reply
  match writeValue k (255 - headerLen reply.attr) s.salts reply with
  | .error e => .error e
  | .ok w =>
      let written := s.written ++ header reply.attr w.len ++ w.octets
      if bufferLen < authHdrLen + written.length then .error .undefined
      else .ok (⟨written, s.totalLength + headerLen reply.attr + w.len,
        if mac then s.totalLength else s.msgAuthOffset, w.salts⟩, w.reply)

def OnWire (vp : ValuePair) : Prop := ¬ (vendor vp.attr = 0 ∧ 0xff < vp.attr % 2 ^ 16)

instance : DecidablePred OnWire := fun _ => instDecidableNot

/-- The loop over the pairs; those that are not for the wire stay as they are. -/
def sendLoop (k : SendKeys) : Sending → List ValuePair → Except SendError (Sending × List ValuePair)
  | s, [] => .ok (s, [])
  | s, reply :: vps =>
      if ¬ OnWire reply then (sendLoop k s vps).map fun r => (r.1, reply :: r.2)
      else if maxPacketLen < s.totalLength then .error .tooLong
      else
        match sendPair k s reply with
        | .error e => .error e
        | .ok (s, reply) => (sendLoop k s vps).map fun r => (r.1, reply :: r.2)

def putMac (k : SendKeys) (code : UInt8) (original : Option Bytes) (offset : ℕ) (data : Bytes) : Bytes :=
  let data := keyed original code data
  let data := memcpy data (offset + 2) (List.replicate authVectorLen 0)
  let data := memcpy data (offset + 2) (k.d.hmacMd5 k.secret data)
  memcpy data 4 k.vector

/-- The authenticators of the octets that were built, and the vector of the packet. A Message-Authenticator
that is no text need not have the room for its digest in the `total_length` octets of the packet. -/
def authenticate (k : SendKeys) (code : UInt8) (original : Option Bytes) (s : Sending) (data : Bytes) :
    Except SendError (Bytes × Bytes) :=
  if s.msgAuthOffset ≠ 0 ∧ s.totalLength < s.msgAuthOffset + 2 + authVectorLen then .error .undefined
  else
    let data := if s.msgAuthOffset ≠ 0 then putMac k code original s.msgAuthOffset data else data
    if code ≠ pwAuthenticationRequest ∧ code ≠ pwStatusServer then
      let digest := k.d.md5 (data ++ k.secret)
      .ok (memcpy data 4 digest, digest)
    else .ok (data, k.vector)

structure SendPacket where
  code : UInt8
  id : UInt8
  vector : Bytes
  data : Option Bytes
  vps : List ValuePair
  deriving DecidableEq

def headerVector (packet : SendPacket) : Bytes :=
  if packet.code = pwAccountingRequest ∨ packet.code = pwDisconnectRequest then
    List.replicate authVectorLen 0
  else packet.vector

def radSend (d : Digest) (secret : Bytes) (offset : ℕ) (rand : ℕ → ℕ) (packet : SendPacket)
    (original : Option Bytes) : Except SendError (SendPacket × Bytes) :=
  match packet.data with
  | some data => .ok (packet, data)
  | none =>
      let k : SendKeys := ⟨d, secret, packet.vector, offset, rand⟩
      match sendLoop k ⟨[], authHdrLen, 0, 0⟩ packet.vps with
      | .error e => .error e
      | .ok (s, vps) =>
          let data := packet.code :: packet.id :: toBytes 2 s.totalLength ++ headerVector packet ++
            s.written.take (s.totalLength - authHdrLen)
          (authenticate k packet.code original s data).map fun sent =>
            ({ packet with vector := sent.2, data := some sent.1, vps := vps }, sent.1)

def textGroup : List PwType := [.ifid, .ipv6addr, .ipv6prefixes, .abinary, .string, .octets]

def bodyOf (k : SendKeys) (salts : ℕ) (vp : ValuePair) : Bytes :=
  match vp.type with
  | .ifid | .ipv6addr | .ipv6prefixes | .abinary | .string | .octets =>
      let reply := (encrypt k salts vp).1
      tagOctets reply.flags ++ reply.strvalue.take reply.length.toNat
  | .integer =>
      if vp.flags.hasTag = true then
        (if tagValid vp.flags.tag then vp.flags.tag else 0) :: toBytes 3 vp.lvalue
      else toBytes 4 vp.lvalue
  | .ipaddr | .date => toBytes 4 vp.lvalue
  | .other => []

def zeroedMac (vp : ValuePair) : ValuePair :=
  if vp.attr = pwMessageAuthenticator.toNat then { vp with
    length := authVectorLen
    strvalue := memcpy vp.strvalue 0 (List.replicate authVectorLen 0) }
  else vp

@[simp] lemma zeroedMac_attr (vp : ValuePair) : (zeroedMac vp).attr = vp.attr := by
  unfold zeroedMac
  split_ifs <;> rfl

@[simp] lemma zeroedMac_type (vp : ValuePair) : (zeroedMac vp).type = vp.type := by
  unfold zeroedMac
  split_ifs <;> rfl

lemma length_header (attr len : ℕ) : (header attr len).length = headerLen attr := by
  unfold header headerLen
  split_ifs <;> simp

lemma headerLen_le (attr : ℕ) : 2 ≤ headerLen attr ∧ headerLen attr ≤ 10 := by
  unfold headerLen
  split_ifs <;> omega

section Room
variable (k : SendKeys)

structure Room (vp : ValuePair) : Prop where
  length : vp.type ∈ textGroup → 0 ≤ (zeroedMac vp).length ∧ (zeroedMac vp).length ≤ maxStringLen
  body : ∀ salts, headerLen vp.attr + (bodyOf k salts (zeroedMac vp)).length ≤ 255
  mac : vp.attr = pwMessageAuthenticator.toNat →
    ∀ salts, authVectorLen ≤ (bodyOf k salts (zeroedMac vp)).length

variable {k} {vp : ValuePair}

lemma writeValue_eq {allowed salts : ℕ} (hlen : vp.type ∈ textGroup →
      0 ≤ vp.length ∧ vp.length ≤ maxStringLen) (hfit : (bodyOf k salts vp).length ≤ allowed) :
    ∃ reply salts', writeValue k allowed salts vp =
      .ok ⟨bodyOf k salts vp, (bodyOf k salts vp).length, reply, salts'⟩ := by
  unfold writeValue
  unfold bodyOf at hfit ⊢
  cases htype : vp.type with
  | ifid | ipv6addr | ipv6prefixes | abinary | string | octets =>
    rw [htype] at hlen hfit
    obtain ⟨hpos, hmax⟩ := hlen (by decide)
    refine ⟨(encrypt k salts vp).1, (encrypt k salts vp).2, ?_⟩
    dsimp only at hfit ⊢
    rw [if_neg (by omega), Nat.min_eq_left hfit]
  | integer =>
    by_cases htag : vp.flags.hasTag = true
    · simp only [if_pos htag, List.length_cons, length_toBytes]
      exact ⟨_, _, rfl⟩
    · simp only [if_neg htag, length_toBytes]
      exact ⟨_, _, rfl⟩
  | ipaddr | date =>
    simp only [length_toBytes]
    exact ⟨_, _, rfl⟩
  | other => exact ⟨_, _, rfl⟩

lemma sendPair_eq {s : Sending} (hroom : Room k vp)
    (hs : authHdrLen + s.written.length = s.totalLength) (hmax : s.totalLength ≤ maxPacketLen) :
    ∃ reply salts', sendPair k s vp =
      .ok (⟨s.written ++ header vp.attr (bodyOf k s.salts (zeroedMac vp)).length ++
          bodyOf k s.salts (zeroedMac vp),
        s.totalLength + headerLen vp.attr + (bodyOf k s.salts (zeroedMac vp)).length,
        if vp.attr = pwMessageAuthenticator.toNat then s.totalLength else s.msgAuthOffset, salts'⟩,
        reply) := by
  have hbody := hroom.body s.salts
  have hheader := headerLen_le vp.attr
  have hlen : (zeroedMac vp).type ∈ textGroup →
      0 ≤ (zeroedMac vp).length ∧ (zeroedMac vp).length ≤ maxStringLen := by
    rw [zeroedMac_type]
    exact hroom.length
  have hfit : (bodyOf k s.salts (zeroedMac vp)).length ≤ 255 - headerLen vp.attr := by omega
  obtain ⟨reply, salts', hwrite⟩ := writeValue_eq hlen hfit
  have hlength : authHdrLen + (s.written ++ header vp.attr (bodyOf k s.salts (zeroedMac vp)).length ++
      bodyOf k s.salts (zeroedMac vp)).length ≤ bufferLen := by
    have hbuffer : bufferLen = maxPacketLen + 256 := rfl
    simp only [List.length_append, length_header]
    omega
  refine ⟨reply, salts', ?_⟩
  have hmac : (if vp.attr = pwMessageAuthenticator.toNat then { vp with
      length := authVectorLen
      strvalue := memcpy vp.strvalue 0 (List.replicate authVectorLen 0) } else vp) = zeroedMac vp := rfl
  unfold sendPair
  simp only [hmac, zeroedMac_attr, hwrite]
  rw [if_neg (Nat.not_lt.mpr hlength)]

/-- The octets are counted, and the digest has its room. -/
structure Counted (s : Sending) : Prop where
  written : authHdrLen + s.written.length = s.totalLength
  mac : s.msgAuthOffset ≠ 0 → s.msgAuthOffset + 2 + authVectorLen ≤ s.totalLength

lemma sendPair_counted {s : Sending} (hroom : Room k vp) (hs : Counted s)
    (hmax : s.totalLength ≤ maxPacketLen) :
    ∃ s' reply, sendPair k s vp = .ok (s', reply) ∧ Counted s' := by
  obtain ⟨reply, salts', hsend⟩ := sendPair_eq hroom hs.written hmax
  have hwritten := hs.written
  have hheader := headerLen_le vp.attr
  refine ⟨_, reply, hsend, ?_, ?_⟩
  · simp only [List.length_append, length_header]
    omega
  · dsimp only
    split_ifs with hmac
    · have hbody := hroom.mac hmac s.salts
      omega
    · have hold := hs.mac
      omega

/-- Nothing but the packet's octets are written, as long as there is room in each attribute: the buffer has
that of one attribute more than the packet may have. -/
lemma sendLoop_counted {vps : List ValuePair} {s : Sending} (hroom : ∀ vp ∈ vps, OnWire vp → Room k vp)
    (hs : Counted s) :
    sendLoop k s vps = .error .tooLong ∨ ∃ s' vps', sendLoop k s vps = .ok (s', vps') ∧ Counted s' := by
  induction vps generalizing s with
  | nil => exact .inr ⟨s, [], rfl, hs⟩
  | cons vp vps ih =>
    obtain ⟨hvp, hvps⟩ := List.forall_mem_cons.mp hroom
    have hmap : ∀ {x : Except SendError (Sending × List ValuePair)} (reply : ValuePair),
        (x = .error .tooLong ∨ ∃ s' vps', x = .ok (s', vps') ∧ Counted s') →
        (x.map fun r => (r.1, reply :: r.2)) = .error .tooLong ∨
          ∃ s' vps', (x.map fun r => (r.1, reply :: r.2)) = .ok (s', vps') ∧ Counted s' := by
      rintro x reply (rfl | ⟨s', vps', rfl, hs'⟩)
      · exact .inl rfl
      · exact .inr ⟨s', reply :: vps', rfl, hs'⟩
    unfold sendLoop
    split_ifs with hwire hlong
    · exact .inl rfl
    · obtain ⟨s', reply, hsend, hs'⟩ := sendPair_counted (hvp hwire) hs (Nat.not_lt.mp hlong)
      simp only [hsend]
      exact hmap reply (ih hvps hs')
    · exact hmap vp (ih hvps hs)

end Room

/-- What a pair has to be like for its octets to be those of one attribute: a value that is not encrypted
is no longer than its attribute can hold, and a Message-Authenticator is a text. -/
structure Fitting (vp : ValuePair) : Prop where
  mac : vp.attr = pwMessageAuthenticator.toNat → vp.type ∈ textGroup
  length : vp.type ∈ textGroup → 0 ≤ vp.length ∧ vp.length ≤ maxStringLen
  plain : vp.type ∈ textGroup → encryptOf vp.name vp.attr vp.flags.encrypt = .none →
    headerLen vp.attr + (tagOctets ⟨vp.flags.hasTag, vp.flags.tag, .none⟩).length + vp.length ≤ 255

lemma length_tagOctets (flags : AttrFlags) : (tagOctets flags).length ≤ 1 := by
  unfold tagOctets
  split_ifs <;> simp

lemma length_filled {n len : ℕ} (h : len ≤ n) (hn : n % 16 = 0) :
    len + (if len % authPassLen ≠ 0 then authPassLen - len % authPassLen else 0) ≤ n := by
  rw [authPassLen]
  split_ifs <;> omega

lemma length_pwencode (d : Digest) (secret vector passwd : Bytes) (pwlen : ℕ) :
    (radPwencode d secret vector passwd pwlen).2 ≤ 128 := by
  have hclip : (if 128 < pwlen then 128 else pwlen) ≤ 128 := by split_ifs <;> omega
  unfold radPwencode
  dsimp only
  rw [apply_ite Prod.snd, ite_self]
  exact length_filled hclip rfl

lemma length_tunnelPwencode (d : Digest) (secret vector passwd : Bytes) (pwlen offset rand₀ rand₁ : ℕ) :
    (radTunnelPwencode d secret vector passwd pwlen offset rand₀ rand₁).2 ≤ 130 := by
  have hclip : (if 127 < pwlen then 127 else pwlen) + 1 ≤ 128 := by split_ifs <;> omega
  have hfilled := length_filled hclip rfl
  unfold radTunnelPwencode
  dsimp only
  omega

lemma length_encrypt_le (k : SendKeys) (salts : ℕ) {vp : ValuePair}
    (h : encryptOf vp.name vp.attr vp.flags.encrypt ≠ .none) : (encrypt k salts vp).1.length ≤ 130 := by
  unfold encrypt
  dsimp only
  split
  · contradiction
  · have hle := length_pwencode k.d k.secret k.vector vp.strvalue vp.length.toNat
    dsimp only
    omega
  · have hle := length_tunnelPwencode k.d k.secret k.vector vp.strvalue vp.length.toNat
      (k.offset + salts) (k.rand (2 * salts)) (k.rand (2 * salts + 1))
    dsimp only
    omega
  · exact (by decide : ((authVectorLen : ℕ) : ℤ) ≤ 130)

lemma encrypt_of_none (k : SendKeys) (salts : ℕ) {vp : ValuePair}
    (h : encryptOf vp.name vp.attr vp.flags.encrypt = .none) :
    encrypt k salts vp = ({ vp with flags := ⟨vp.flags.hasTag, vp.flags.tag, .none⟩ }, salts) := by
  unfold encrypt
  simp only [h]

lemma Fitting.zeroed {vp : ValuePair} (h : Fitting vp) : Fitting (zeroedMac vp) := by
  unfold zeroedMac
  split_ifs with hmac
  · refine ⟨h.mac, fun _ => ⟨Int.natCast_nonneg _, (by decide : ((authVectorLen : ℕ) : ℤ) ≤ maxStringLen)⟩,
      fun _ _ => ?_⟩
    have htag := length_tagOctets ⟨vp.flags.hasTag, vp.flags.tag, .none⟩
    have hheader : headerLen vp.attr = 2 := by
      rw [hmac]
      rfl
    have hsixteen : ((authVectorLen : ℕ) : ℤ) = 16 := rfl
    simp only [hheader, hsixteen]
    omega
  · exact h

lemma Fitting.length_bodyOf (k : SendKeys) (salts : ℕ) {vp : ValuePair} (h : Fitting vp) :
    headerLen vp.attr + (bodyOf k salts vp).length ≤ 255 := by
  have hheader := headerLen_le vp.attr
  have htext : vp.type ∈ textGroup → headerLen vp.attr + (tagOctets (encrypt k salts vp).1.flags ++
      (encrypt k salts vp).1.strvalue.take (encrypt k salts vp).1.length.toNat).length ≤ 255 := by
    intro htype
    have htag := length_tagOctets (encrypt k salts vp).1.flags
    have htake := List.length_take_le (encrypt k salts vp).1.length.toNat (encrypt k salts vp).1.strvalue
    rw [List.length_append]
    by_cases hnone : encryptOf vp.name vp.attr vp.flags.encrypt = .none
    · have hplain := h.plain htype hnone
      have hlength := h.length htype
      rw [encrypt_of_none k salts hnone] at htake ⊢
      dsimp only at htake ⊢
      omega
    · have hle := length_encrypt_le k salts hnone
      omega
  unfold bodyOf
  cases htype : vp.type with
  | ifid | ipv6addr | ipv6prefixes | abinary | string | octets =>
    exact htext (by rw [htype]; decide)
  | integer =>
    dsimp only
    split_ifs <;> simp <;> omega
  | ipaddr | date =>
    simp only [length_toBytes]
    omega
  | other =>
    simp only [List.length_nil]
    omega

section Mac

lemma length_le_memcpy (bs : Bytes) (o : ℕ) (data : Bytes) : bs.length ≤ (memcpy bs o data).length := by
  simp only [memcpy, List.length_append, List.length_take, List.length_drop]
  omega

lemma length_le_encodeLoop (d : Digest) (secret : Bytes) (len : ℕ) (passwd : Bytes) (n : ℕ) :
    passwd.length ≤ (encodeLoop d secret len passwd n).length := by
  fun_induction encodeLoop with
  | case1 passwd n h ih => exact (length_le_memcpy ..).trans ih
  | case2 => exact le_rfl

lemma length_le_tunnelEncodeLoop (d : Digest) (secret key : Bytes) (len : ℕ) (passwd : Bytes) (n : ℕ) :
    passwd.length ≤ (tunnelEncodeLoop d secret key len passwd n).length := by
  fun_induction tunnelEncodeLoop with
  | case1 passwd n h digest ih => exact (length_le_memcpy ..).trans ih
  | case2 => exact le_rfl

lemma length_le_encrypt (k : SendKeys) (salts : ℕ) (vp : ValuePair) :
    vp.strvalue.length ≤ (encrypt k salts vp).1.strvalue.length := by
  unfold encrypt
  dsimp only
  split
  · exact le_rfl
  · have hfilled := fun o data key =>
      (length_le_memcpy vp.strvalue o data).trans (length_le_memcpy (memcpy vp.strvalue o data) 0 key)
    unfold radPwencode
    generalize (if 128 < vp.length.toNat then 128 else vp.length.toNat) = len
    dsimp only
    generalize (if len % authPassLen ≠ 0 then authPassLen - len % authPassLen else 0) = pad
    split_ifs
    · exact hfilled ..
    · exact (hfilled ..).trans (length_le_encodeLoop ..)
  · have hmoved : ∀ data, vp.strvalue.length ≤ 2 + ((memcpy vp.strvalue 3 data).drop 2).length := by
      intro data
      have hle := length_le_memcpy vp.strvalue 3 data
      rw [List.length_drop]
      omega
    simp only [radTunnelPwencode, List.length_append, length_tunnelSalt]
    refine (hmoved (vp.strvalue.take ((if 127 < vp.length.toNat then 127 else vp.length.toNat) + 1))).trans
      (Nat.add_le_add_left ?_ 2)
    exact (((length_le_memcpy ..).trans (length_le_memcpy ..)).trans
      (length_le_tunnelEncodeLoop ..)).trans (length_le_memcpy ..)
  · exact length_le_memcpy ..

lemma le_length_encrypt (k : SendKeys) (salts : ℕ) {vp : ValuePair} (h : vp.length = authVectorLen) :
    (authVectorLen : ℤ) ≤ (encrypt k salts vp).1.length := by
  unfold encrypt
  dsimp only
  split
  · exact h.ge
  · simp only [h, Int.toNat_natCast, radPwencode]
    rw [apply_ite Prod.snd, ite_self]
    dsimp only
    decide
  · simp only [h, Int.toNat_natCast, radTunnelPwencode]
    decide
  · exact le_rfl

end Mac

lemma Fitting.room (k : SendKeys) {vp : ValuePair} (h : Fitting vp) : Room k vp := by
  refine ⟨fun htype => h.zeroed.length (by rwa [zeroedMac_type]), fun salts => ?_, fun hmac salts => ?_⟩
  · have hbody := h.zeroed.length_bodyOf k salts
    rwa [zeroedMac_attr] at hbody
  · have hzeroed : zeroedMac vp = { vp with
        length := authVectorLen
        strvalue := memcpy vp.strvalue 0 (List.replicate authVectorLen 0) } := if_pos hmac
    have hsixteen : authVectorLen ≤ (zeroedMac vp).strvalue.length := by
      rw [hzeroed, memcpy]
      simp
    have hlen := le_length_encrypt k salts (show (zeroedMac vp).length = authVectorLen by rw [hzeroed])
    have hroom := length_le_encrypt k salts (zeroedMac vp)
    have htext : authVectorLen ≤ (tagOctets (encrypt k salts (zeroedMac vp)).1.flags ++
        (encrypt k salts (zeroedMac vp)).1.strvalue.take
          (encrypt k salts (zeroedMac vp)).1.length.toNat).length := by
      rw [List.length_append, List.length_take]
      omega
    have htype := h.mac hmac
    rw [← zeroedMac_type] at htype
    unfold bodyOf
    cases hcase : (zeroedMac vp).type with
    | ifid | ipv6addr | ipv6prefixes | abinary | string | octets => exact htext
    | integer | ipaddr | date | other =>
      rw [hcase] at htype
      exact absurd htype (by decide)

/-- `rad_send` keeps to its buffers when every value fits into its attribute, however many there are. -/
theorem send_within_buffer (d : Digest) (secret : Bytes) (offset : ℕ) (rand : ℕ → ℕ)
    (packet : SendPacket) (original : Option Bytes)
    (h : ∀ vp ∈ packet.vps, OnWire vp → Fitting vp) :
    radSend d secret offset rand packet original ≠ .error .undefined := by
  have hloop := sendLoop_counted (k := ⟨d, secret, packet.vector, offset, rand⟩)
    (s := ⟨[], authHdrLen, 0, 0⟩) (fun vp hvp hwire => (h vp hvp hwire).room _)
    ⟨rfl, fun hne => absurd rfl hne⟩
  unfold radSend
  split
  · exact nofun
  · rcases hloop with hlong | ⟨s, vps, hok, hs⟩
    · simp [hlong]
    · have hmac := hs.mac
      simp only [hok, authenticate]
      rw [if_neg (by omega)]
      split_ifs <;> exact nofun

/-- An Access-Accept with a text, a tunnel password and a Message-Authenticator. -/
theorem accept_within_buffer : radSend zeroDigest [] 0 (fun _ => 0)
    ⟨2, 7, List.replicate 16 0, none,
      [⟨"Reply-Message", 18, .string, 2, 0, List.replicate maxStringLen 65, ⟨false, 0, .none⟩⟩,
        ⟨"Tunnel-Password", 69, .string, 20, 0, List.replicate maxStringLen 66, ⟨true, 1, .tunnelPassword⟩⟩,
        ⟨"Message-Authenticator", 80, .octets, 0, 0, List.replicate maxStringLen 0, ⟨false, 0, .none⟩⟩]⟩
    none ≠ .error .undefined := by
  refine send_within_buffer zeroDigest [] 0 (fun _ => 0) _ none fun vp hvp _ => ?_
  simp only [List.mem_cons, List.not_mem_nil, or_false] at hvp
  rcases hvp with rfl | rfl | rfl
  · exact ⟨by decide, fun _ => by decide, fun _ _ => by decide⟩
  · exact ⟨by decide, fun _ => by decide, fun _ hnone => absurd hnone (by decide)⟩
  · exact ⟨by decide, fun _ => by decide, fun _ _ => by decide⟩

end LdapTgen.RadSend
