import LdapTgen.RadiusMessage

/-! The authenticators of RADIUS messages: how a message is finished, and how a reply is verified. The
digests are those of a library. -/
namespace LdapTgen.RadiusAuthenticators
open ByteOrder Tlv RadiusMessage

structure Digest where
  md5 : Bytes → Bytes
  /-- The digest of data under a key. -/
  hmacMd5 : Bytes → Bytes → Bytes
  length_md5 : ∀ bs, (md5 bs).length = 16
  length_hmacMd5 : ∀ key bs, (hmacMd5 key bs).length = 16

def zeroDigest : Digest :=
  ⟨fun _ => List.replicate 16 0, fun _ _ => List.replicate 16 0, fun _ => List.length_replicate,
    fun _ _ => List.length_replicate⟩

def md5MacLen : ℕ := 16

def messageAuthenticator : UInt8 := 80

/-- The bytes from `buf` on that are used. -/
def usedBytes (m : RadiusMsg) : Bytes := m.bytes.take m.bufUsed

def write (m : RadiusMsg) (o : ℕ) (data : Bytes) : RadiusMsg := { m with bytes := memcpy m.bytes o data }

/-- `msg->hdr->length = htons(msg->buf_used)` -/
def setLength (m : RadiusMsg) : RadiusMsg := write m 2 (toBytes 2 m.bufUsed)

def tooLong (m : RadiusMsg) : ℤ := if 0xffff < m.bufUsed then -1 else 0

def radiusMsgFinish (d : Digest) (a : Alloc) (m : RadiusMsg) (secret : Option Bytes) : RadiusMsg × ℤ :=
  match secret with
  | none =>
      let m := setLength m
      (m, tooLong m)
  | some secret =>
      match radiusMsgAddAttr a m messageAuthenticator (List.replicate md5MacLen 0) with
      | (m, none) => (m, -1)
      | (m, some attr) =>
          let m := setLength m
          let m := write m (m.offset attr + 2) (d.hmacMd5 secret (usedBytes m))
          (m, tooLong m)

def radiusMsgFinishSrv (d : Digest) (a : Alloc) (m : RadiusMsg) (secret reqAuthenticator : Bytes) :
    RadiusMsg × ℤ :=
  match radiusMsgAddAttr a m messageAuthenticator (List.replicate md5MacLen 0) with
  | (m, none) => (m, -1)
  | (m, some attr) =>
      let m := setLength m
      let m := write m 4 reqAuthenticator
      let m := write m (m.offset attr + 2) (d.hmacMd5 secret (usedBytes m))
      let m := write m 4 (d.md5 (m.bytes.take 4 ++ reqAuthenticator ++ (usedBytes m).drop radiusHdrLen ++
        secret))
      (m, tooLong m)

def radiusMsgFinishAcct (d : Digest) (m : RadiusMsg) (secret : Bytes) : RadiusMsg :=
  let m := setLength m
  let m := write m 4 (List.replicate md5MacLen 0)
  write m 4 (d.md5 (usedBytes m ++ secret))

/-- `none` when the copy of the Message-Authenticator leaves the buffer. The message is given back as
the function leaves it, with 0 if it is right. -/
def radiusMsgVerifyMsgAuth (d : Digest) (m : RadiusMsg) (secret : Bytes) (reqAuth : Option Bytes) :
    Option (RadiusMsg × ℤ) :=
  match m.attrs.filter fun x => m.attrType x = messageAuthenticator with
  | [attr] =>
      let o := m.offset attr + 2
      if m.bytes.length < o + md5MacLen then none
      else
        let orig := (m.bytes.drop o).take md5MacLen
        let m := write m o (List.replicate md5MacLen 0)
        let origAuthenticator := (m.bytes.drop 4).take md5MacLen
        let m := match reqAuth with
          | some r => write m 4 r
          | none => m
        let auth := d.hmacMd5 secret (usedBytes m)
        let m := write m o orig
        let m := match reqAuth with
          | some _ => write m 4 origAuthenticator
          | none => m
        some (m, if orig = auth then 0 else 1)
  | _ => some (m, 1)

def authenticatorOf (m : RadiusMsg) : Bytes := (m.bytes.drop 4).take md5MacLen

def radiusMsgVerify (d : Digest) (m : RadiusMsg) (secret : Bytes) (sent : Option RadiusMsg)
    (auth : Bool) : Option (RadiusMsg × ℤ) :=
  match sent with
  | none => some (m, 1)
  | some sent => do
      let (m, rc) ← if auth then radiusMsgVerifyMsgAuth d m secret (some (authenticatorOf sent))
        else some (m, 0)
      if rc ≠ 0 then return (m, 1)
      let hash := d.md5 (m.bytes.take 4 ++ authenticatorOf sent ++ (usedBytes m).drop radiusHdrLen ++
        secret)
      return (m, if hash = authenticatorOf m then 0 else 1)

/-- Where the body of the attribute behind the given ones is. -/
def bodyAt (l : List Attr) : ℕ := radiusHdrLen + (encodeAll l).length + 2

def withBody (e : Attr) (body : Bytes) (h : body.length = e.body.length) : Attr :=
  ⟨e.tag, body, h ▸ e.fits⟩

def zeroed (e : Attr) : Attr :=
  if e.tag = messageAuthenticator then
    withBody e (List.replicate e.body.length 0) List.length_replicate
  else e

def zeroedPacket (p : Packet) : Packet := { p with attrs := p.attrs.map zeroed }

def withAuthenticator (p : Packet) (authenticator : Bytes) (h : authenticator.length = 16) : Packet :=
  { p with authenticator := authenticator, authenticator_length := h }

def messageDigest (d : Digest) (secret : Bytes) (p : Packet) : Bytes :=
  d.hmacMd5 secret ((zeroedPacket p).wire p.size)

/-- The authenticator of a reply to the request with the given authenticator. -/
def responseDigest (d : Digest) (secret reqAuthenticator : Bytes) (p : Packet) : Bytes :=
  d.md5 (p.code :: p.identifier :: toBytes 2 p.size ++ reqAuthenticator ++ encodeAll p.attrs ++ secret)

lemma length_zeroMac : (List.replicate md5MacLen (0 : UInt8)).length ≤ radiusMaxAttrLen := by
  rw [List.length_replicate]
  decide

lemma length_hmac_le (d : Digest) (key bs : Bytes) :
    (d.hmacMd5 key bs).length ≤ radiusMaxAttrLen := by
  rw [d.length_hmacMd5]
  decide

def zeroMac : Attr := attr messageAuthenticator (List.replicate md5MacLen 0) length_zeroMac

def signed (d : Digest) (secret : Bytes) (p : Packet) : Packet :=
  p.add (attr messageAuthenticator
    (d.hmacMd5 secret ((p.add zeroMac).wire (p.add zeroMac).size)) (length_hmac_le ..))

def reply (d : Digest) (secret reqAuthenticator : Bytes) (h : reqAuthenticator.length = 16)
    (p : Packet) : Packet :=
  let q := signed d secret (withAuthenticator p reqAuthenticator h)
  withAuthenticator q (responseDigest d secret reqAuthenticator q) (d.length_md5 _)

def accounted (d : Digest) (secret : Bytes) (p : Packet) : Packet :=
  withAuthenticator p (responseDigest d secret (List.replicate md5MacLen 0) p) (d.length_md5 _)

section Copies
variable {bs data data' : Bytes} {o o' n : ℕ}

lemma getElem?_memcpy (h : o + data.length ≤ bs.length) (i : ℕ) :
    (memcpy bs o data)[i]? =
      if i < o then bs[i]? else if i < o + data.length then data[i - o]? else bs[i]? := by
  have htake : (bs.take o).length = o := by
    rw [List.length_take]
    omega
  rw [memcpy, List.getElem?_append, List.length_append, htake, List.getElem?_append, htake,
    List.getElem?_take, List.getElem?_drop]
  split_ifs with h1 h2 h2
  · rfl
  · rfl
  · omega
  · congr 1
    omega

lemma memcpy_memcpy (h : o + data.length ≤ bs.length) (hlen : data'.length = data.length) :
    memcpy (memcpy bs o data) o data' = memcpy bs o data' := by
  have hl := length_memcpy h
  apply List.ext_getElem?
  intro i
  rw [getElem?_memcpy (by omega), getElem?_memcpy h, getElem?_memcpy (by omega)]
  split_ifs <;> first | rfl | omega

lemma memcpy_comm (h : o + data.length ≤ o') (h' : o' + data'.length ≤ bs.length) :
    memcpy (memcpy bs o' data') o data = memcpy (memcpy bs o data) o' data' := by
  have hl : (memcpy bs o data).length = bs.length := length_memcpy (by omega)
  have hl' := length_memcpy h'
  apply List.ext_getElem?
  intro i
  rw [getElem?_memcpy (by omega), getElem?_memcpy h', getElem?_memcpy (by omega),
    getElem?_memcpy (by omega)]
  split_ifs <;> first | rfl | omega

lemma memcpy_self (h : o + n ≤ bs.length) : memcpy bs o ((bs.drop o).take n) = bs := by
  have hlen : ((bs.drop o).take n).length = n := by
    rw [List.length_take, List.length_drop]
    omega
  rw [memcpy, hlen, List.append_assoc, ← List.drop_drop, List.take_append_drop, List.take_append_drop]

lemma take_drop_memcpy (h : o + data.length ≤ bs.length) (hn : o' + n ≤ o) :
    ((memcpy bs o data).drop o').take n = (bs.drop o').take n := by
  apply List.ext_getElem?
  intro i
  rw [List.getElem?_take, List.getElem?_take, List.getElem?_drop, List.getElem?_drop,
    getElem?_memcpy h]
  split_ifs <;> first | rfl | omega

lemma memcpy_restore (bs data data' : Bytes) (o o' : ℕ) {orig orig' : Bytes}
    (h : o + data.length ≤ o') (h' : o' + data'.length ≤ bs.length)
    (horig : orig = ((memcpy bs o' data').drop o).take data.length)
    (horig' : orig' = (bs.drop o').take data'.length) :
    memcpy (memcpy (memcpy (memcpy bs o' data') o data) o' orig') o orig = bs := by
  have hlen' : orig'.length = data'.length := by
    rw [horig', List.length_take, List.length_drop]
    omega
  have hl := length_memcpy h'
  have hlen : orig.length = data.length := by
    rw [horig, List.length_take, List.length_drop]
    omega
  rw [take_drop_memcpy h' h] at horig
  have hcomm : memcpy (memcpy (memcpy bs o' data') o' orig') o data =
      memcpy (memcpy (memcpy bs o' data') o data) o' orig' := memcpy_comm h (by omega)
  rw [← hcomm, memcpy_memcpy h' hlen', horig',
    memcpy_self h', memcpy_memcpy (by omega) hlen, horig, memcpy_self (by omega)]

end Copies

lemma setLength_carries {m : RadiusMsg} {p : Packet} {len : ℕ} (h : m.Carries p len) :
    (setLength m).Carries p p.size := by
  have hsize : 2 + (toBytes 2 m.bufUsed).length ≤ m.bufUsed := by
    rw [h.used, length_toBytes, Packet.size, radiusHdrLen]
    omega
  refine ⟨h.used, ?_, ?_⟩
  · simp only [setLength, write]
    rw [length_memcpy (hsize.trans h.room)]
    exact h.room
  · simp only [setLength, write]
    rw [take_memcpy_of_le hsize h.room, h.content, h.used]
    have hold : (toBytes 2 len).length = (toBytes 2 p.size).length := by
      rw [length_toBytes, length_toBytes]
    have hmid := memcpy_mid [p.code, p.identifier] (p.authenticator ++ encodeAll p.attrs) hold
    simpa [Packet.wire] using hmid

lemma Packet.memcpy_body {p : Packet} {l r : List Attr} {e : Attr} {body : Bytes}
    (hp : p.attrs = l ++ e :: r) (hlen : body.length = e.body.length) (len : ℕ) :
    memcpy (p.wire len) (bodyAt l) body =
      Packet.wire { p with attrs := l ++ withBody e body hlen :: r } len := by
  have hmid := memcpy_mid
    (p.code :: p.identifier :: toBytes 2 len ++ p.authenticator ++ encodeAll l ++
      [e.tag, UInt8.ofNat ((e.body.length + 2) / 1)]) (encodeAll r) hlen.symm
  have hbefore : (p.code :: p.identifier :: toBytes 2 len ++ p.authenticator ++ encodeAll l ++
      [e.tag, UInt8.ofNat ((e.body.length + 2) / 1)]).length = bodyAt l := by
    simp [p.authenticator_length, bodyAt, radiusHdrLen]
    omega
  rw [hbefore] at hmid
  simpa [Packet.wire, hp, encode, withBody, hlen] using hmid

lemma write_carries {m : RadiusMsg} {p : Packet} {len : ℕ} {l r : List Attr} {e : Attr} {body : Bytes}
    (h : m.Carries p len) (hp : p.attrs = l ++ e :: r) (hlen : body.length = e.body.length) :
    (write m (bodyAt l) body).Carries { p with attrs := l ++ withBody e body hlen :: r } len := by
  have hsize : p.size = bodyAt l + body.length + (encodeAll r).length := by
    simp only [bodyAt, Packet.size, hp, encodeAll_append, encodeAll_cons, List.length_append, length_encode]
    omega
  have hin : bodyAt l + body.length ≤ m.bufUsed := by
    rw [h.used]
    omega
  refine ⟨?_, ?_, ?_⟩
  · rw [show (write m (bodyAt l) body).bufUsed = m.bufUsed from rfl, h.used, hsize]
    simp only [bodyAt, Packet.size, encodeAll_append, encodeAll_cons, List.length_append, length_encode,
      withBody]
    omega
  · simp only [write]
    rw [length_memcpy (hin.trans h.room)]
    exact h.room
  · simp only [write]
    rw [take_memcpy_of_le hin h.room, h.content, Packet.memcpy_body hp hlen]

lemma write_authenticator_carries {m : RadiusMsg} {p : Packet} {len : ℕ} {authenticator : Bytes}
    (h : m.Carries p len) (hlen : authenticator.length = 16) :
    (write m 4 authenticator).Carries (withAuthenticator p authenticator hlen) len :=
  makeAuthenticator_carries h hlen

lemma offset_of_add {m : RadiusMsg} {p : Packet} {x : ℤ} (h : x = m.buf + (p.size : ℤ)) :
    m.offset x + 2 = bodyAt p.attrs := by
  rw [RadiusMsg.offset, h, add_sub_cancel_left, Int.toNat_natCast, Packet.size, bodyAt]

lemma usedBytes_of_carries {m : RadiusMsg} {p : Packet} {len : ℕ} (h : m.Carries p len) :
    usedBytes m = p.wire len := h.content

lemma take_of_carries {m : RadiusMsg} {p : Packet} {len n : ℕ} (h : m.Carries p len)
    (hn : n ≤ radiusHdrLen) : m.bytes.take n = (p.wire len).take n := by
  have hle : n ≤ m.bufUsed := by
    rw [h.used]
    exact hn.trans (Nat.le_add_right _ _)
  rw [← h.content, List.take_take, Nat.min_eq_left hle]

lemma header_of_carries {m : RadiusMsg} {p : Packet} {len : ℕ} (h : m.Carries p len) :
    m.bytes.take 4 = p.code :: p.identifier :: toBytes 2 len := by
  have hfour : (p.code :: p.identifier :: toBytes 2 len).length = 4 := by simp
  rw [take_of_carries h (by decide), Packet.wire, List.append_assoc, List.take_left' hfour]

lemma body_of_carries {m : RadiusMsg} {p : Packet} {len : ℕ} (h : m.Carries p len) :
    (usedBytes m).drop radiusHdrLen = encodeAll p.attrs := by
  have hdrop := p.drop_wire len []
  rw [List.append_nil, List.append_nil] at hdrop
  rw [usedBytes_of_carries h, hdrop]

lemma authenticatorOf_carries {m : RadiusMsg} {p : Packet} {len : ℕ} (h : m.Carries p len) :
    authenticatorOf m = p.authenticator := by
  have hhdr : (p.code :: p.identifier :: toBytes 2 len).length = 4 := by simp
  have htwenty : (p.code :: p.identifier :: toBytes 2 len ++ p.authenticator).length = radiusHdrLen := by
    rw [List.length_append, hhdr, p.authenticator_length, radiusHdrLen]
  have htake : m.bytes.take radiusHdrLen = p.code :: p.identifier :: toBytes 2 len ++ p.authenticator := by
    rw [take_of_carries h le_rfl, Packet.wire, List.take_left' htwenty]
  have hcut : (m.bytes.drop 4).take md5MacLen = (m.bytes.take radiusHdrLen).drop 4 := by
    rw [List.drop_take]
    rfl
  rw [authenticatorOf, hcut, htake, List.drop_left' hhdr]

lemma size_signed (d : Digest) (secret : Bytes) (p : Packet) :
    (signed d secret p).size = p.size + 18 := by
  simp only [signed, Packet.size_add, length_encode, attr, d.length_hmacMd5]

lemma size_add_zeroMac (p : Packet) : (p.add zeroMac).size = p.size + 18 := by
  simp only [zeroMac, Packet.size_add, length_encode, attr, List.length_replicate, md5MacLen]

lemma write_mac_carries (d : Digest) (secret : Bytes) {m : RadiusMsg} {p : Packet}
    (h : m.Carries (p.add zeroMac) (p.add zeroMac).size) :
    (write m (bodyAt p.attrs) (d.hmacMd5 secret (usedBytes m))).Carries
      (signed d secret p) (signed d secret p).size := by
  have hlen : (d.hmacMd5 secret (usedBytes m)).length = zeroMac.body.length := by
    rw [d.length_hmacMd5]
    exact List.length_replicate.symm
  have hwrite := write_carries (l := p.attrs) (r := []) h rfl hlen
  rw [size_signed, ← size_add_zeroMac]
  simp only [usedBytes_of_carries h] at hwrite ⊢
  exact hwrite

lemma signed_attrs (d : Digest) (secret : Bytes) (p : Packet) :
    ∃ mac : Attr, (signed d secret p).attrs = p.attrs ++ [mac] ∧ mac.tag = messageAuthenticator ∧
      mac.body = d.hmacMd5 secret ((p.add zeroMac).wire (p.add zeroMac).size) :=
  ⟨_, rfl, rfl, rfl⟩

section Finish
variable (d : Digest) (secret : Bytes) {a : Alloc} {m : RadiusMsg} {p : Packet} {len : ℕ}

lemma finish_carries (hgives : a.Gives) (h : m.Carries p len) :
    ∃ m', radiusMsgFinish d a m (some secret) =
        (m', if 0xffff < (signed d secret p).size then -1 else 0) ∧
      m'.Carries (signed d secret p) (signed d secret p).size := by
  obtain ⟨m₁, x, hadd⟩ := addAttr_of_gives hgives m messageAuthenticator length_zeroMac
  obtain ⟨hfit, h₁, hx⟩ := addAttr_carries h hadd
  have h₂ := setLength_carries h₁
  have hoff : (setLength m₁).offset x + 2 = bodyAt p.attrs := offset_of_add hx
  have h₃ := write_mac_carries d secret h₂
  refine ⟨_, ?_, h₃⟩
  simp only [radiusMsgFinish, hadd, hoff, tooLong]
  rw [← h₃.used]

lemma finishSrv_carries {reqAuthenticator : Bytes} (hgives : a.Gives) (h : m.Carries p len)
    (hreq : reqAuthenticator.length = 16) :
    ∃ m', radiusMsgFinishSrv d a m secret reqAuthenticator =
        (m', if 0xffff < (reply d secret reqAuthenticator hreq p).size then -1 else 0) ∧
      m'.Carries (reply d secret reqAuthenticator hreq p) (reply d secret reqAuthenticator hreq p).size := by
  obtain ⟨m₁, x, hadd⟩ := addAttr_of_gives hgives m messageAuthenticator length_zeroMac
  obtain ⟨hfit, h₁, hx⟩ := addAttr_carries h hadd
  have h₂ := write_authenticator_carries (setLength_carries h₁) hreq
  have hoff : (write (setLength m₁) 4 reqAuthenticator).offset x + 2 = bodyAt p.attrs := offset_of_add hx
  have h₃ := write_mac_carries d secret (p := withAuthenticator p reqAuthenticator hreq) h₂
  change (write _ (bodyAt p.attrs) _).Carries _ _ at h₃
  simp only [radiusMsgFinishSrv, hadd, hoff, tooLong]
  generalize write (write (setLength m₁) 4 reqAuthenticator) (bodyAt p.attrs) _ = m₃ at h₃ ⊢
  have h₄ := write_authenticator_carries h₃ (d.length_md5 (m₃.bytes.take 4 ++ reqAuthenticator ++
    (usedBytes m₃).drop radiusHdrLen ++ secret))
  have hreply : withAuthenticator (signed d secret (withAuthenticator p reqAuthenticator hreq)) _
      (d.length_md5 (m₃.bytes.take 4 ++ reqAuthenticator ++ (usedBytes m₃).drop radiusHdrLen ++ secret)) =
      reply d secret reqAuthenticator hreq p := by
    simp only [header_of_carries h₃, body_of_carries h₃]
    rfl
  rw [hreply] at h₄
  exact ⟨_, by rw [← h₄.used], h₄⟩

lemma finishAcct_carries (h : m.Carries p len) :
    (radiusMsgFinishAcct d m secret).Carries (accounted d secret p) (accounted d secret p).size := by
  have h₁ : (write (setLength m) 4 (List.replicate md5MacLen 0)).Carries
      (withAuthenticator p (List.replicate md5MacLen 0) List.length_replicate) p.size :=
    write_authenticator_carries (setLength_carries h) List.length_replicate
  have h₂ := write_authenticator_carries h₁ (d.length_md5
    (usedBytes (write (setLength m) 4 (List.replicate md5MacLen 0)) ++ secret))
  -- with the zeros in its place, the digest is that of an answer to a request with zeros
  simp only [usedBytes_of_carries h₁] at h₂
  rw [radiusMsgFinishAcct, usedBytes_of_carries h₁]
  exact h₂

end Finish

/-- The length that `radius_msg_verify_msg_auth` takes for granted. -/
def MacsFit (p : Packet) : Prop := ∀ e ∈ p.attrs, e.tag = messageAuthenticator → e.body.length = md5MacLen

/-- The packet has one Message-Authenticator, between the attributes `l` and `r`. -/
structure OneMac (p : Packet) (l : List Attr) (mac : Attr) (r : List Attr) : Prop where
  attrs : p.attrs = l ++ mac :: r
  tag : mac.tag = messageAuthenticator
  length : mac.body.length = md5MacLen
  left : ∀ e ∈ l, e.tag ≠ messageAuthenticator
  right : ∀ e ∈ r, e.tag ≠ messageAuthenticator

lemma map_zeroed_of_forall_ne {l : List Attr} (h : ∀ e ∈ l, e.tag ≠ messageAuthenticator) :
    l.map zeroed = l := by
  rw [List.map_eq_iff]
  intro i
  cases hi : l[i]? with
  | none => rfl
  | some e =>
    have he : e ∈ l := List.mem_of_getElem? hi
    simp only [Option.map_some, zeroed, if_neg (h e he)]

section Verify
variable (d : Digest) (secret : Bytes) {m sent : RadiusMsg} {p q : Packet} {len : ℕ}
  {l r : List Attr} {mac : Attr}

lemma OneMac.zeroedPacket_attrs (h : OneMac p l mac r)
    (hlen : (List.replicate md5MacLen (0 : UInt8)).length = mac.body.length) :
    (zeroedPacket p).attrs = l ++ withBody mac (List.replicate md5MacLen 0) hlen :: r := by
  have hmac : zeroed mac = withBody mac (List.replicate md5MacLen 0) hlen := by
    rw [zeroed, if_pos h.tag]
    simp only [h.length]
  simp only [zeroedPacket, h.attrs, List.map_append, List.map_cons, map_zeroed_of_forall_ne h.left,
    map_zeroed_of_forall_ne h.right, hmac]

lemma points_filter {xs : List ℤ} {es : List Attr} (h : List.Forall₂ m.Points xs es) :
    List.Forall₂ m.Points (xs.filter fun x => m.attrType x = messageAuthenticator)
      (es.filter fun e => e.tag = messageAuthenticator) := by
  refine List.rel_filter ?_ h
  intro x e hxe
  simp [hxe.type]

lemma filter_of_forall_ne {xs : List ℤ} {es : List Attr} (h : List.Forall₂ m.Points xs es)
    (hne : ∀ e ∈ es, e.tag ≠ messageAuthenticator) :
    (xs.filter fun x => m.attrType x = messageAuthenticator) = [] := by
  have hnil : (es.filter fun e => e.tag = messageAuthenticator) = [] := by
    rw [List.filter_eq_nil_iff]
    intro e he
    simpa using hne e he
  have hfilter := points_filter h
  rw [hnil, List.forall₂_nil_right_iff] at hfilter
  exact hfilter

lemma OneMac.filter_attrs (hmac : OneMac p l mac r) (h : m.Holds p len) :
    m.attrs.filter (fun x => m.attrType x = messageAuthenticator) =
      [m.buf + ((radiusHdrLen + (encodeAll l).length : ℕ) : ℤ)] := by
  have hpoints := h.points
  have hattrs := h.attrs
  rw [hmac.attrs, starts_append, List.map_append] at hattrs
  simp only [starts, List.map_cons] at hattrs
  rw [hattrs, hmac.attrs] at hpoints
  have hleft := List.forall₂_take_append _ _ _ hpoints
  have hright := List.forall₂_drop_append _ _ _ hpoints
  rw [List.take_left' (by simp)] at hleft
  rw [List.drop_left' (by simp), List.forall₂_cons] at hright
  have htype := hright.1.type
  rw [hattrs, List.filter_append, filter_of_forall_ne hleft hmac.left, List.filter_cons,
    filter_of_forall_ne hright.2 hmac.right]
  simp only [htype, hmac.tag, decide_true, if_true, List.nil_append]

lemma offset_natCast (m : RadiusMsg) (o : ℕ) : m.offset (m.buf + (o : ℤ)) = o := by
  rw [RadiusMsg.offset, add_sub_cancel_left, Int.toNat_natCast]

lemma OneMac.filter_eq (hmac : OneMac p l mac r) :
    (p.attrs.filter fun e => e.tag = messageAuthenticator) = [mac] := by
  rw [hmac.attrs, List.filter_append, List.filter_cons,
    List.filter_eq_nil_iff.mpr fun e he => by simpa using hmac.left e he,
    List.filter_eq_nil_iff.mpr fun e he => by simpa using hmac.right e he]
  simp only [hmac.tag, decide_true, if_true, List.nil_append]

lemma OneMac.points (hmac : OneMac p l mac r) (h : m.Holds p len) :
    m.Points (m.buf + ((radiusHdrLen + (encodeAll l).length : ℕ) : ℤ)) mac := by
  have hfilter := points_filter h.points
  rw [hmac.filter_attrs h, hmac.filter_eq, List.forall₂_cons] at hfilter
  exact hfilter.1

lemma OneMac.orig_eq (hmac : OneMac p l mac r) (h : m.Holds p len) :
    (m.bytes.drop (bodyAt l)).take md5MacLen = mac.body := by
  have hpoints := hmac.points h
  have hvalue := hpoints.value
  rw [RadiusMsg.attrValue, hpoints.length, offset_natCast, hmac.length] at hvalue
  exact hvalue

lemma OneMac.in_buffer (hmac : OneMac p l mac r) (h : m.Holds p len) :
    bodyAt l + md5MacLen ≤ m.bytes.length := by
  have hused := h.used
  have hroom := h.room
  simp only [Packet.size, hmac.attrs, encodeAll_append, encodeAll_cons, List.length_append,
    length_encode, hmac.length] at hused
  rw [bodyAt]
  omega

lemma OneMac.verifyMsgAuth_eq (hmac : OneMac p l mac r) (h : m.Holds p len) (reqAuth : Option Bytes) :
    let zeros := write m (bodyAt l) (List.replicate md5MacLen 0)
    let checked := reqAuth.elim zeros (write zeros 4)
    let m' := write checked (bodyAt l) mac.body
    radiusMsgVerifyMsgAuth d m secret reqAuth =
      some (reqAuth.elim m' fun _ => write m' 4 (authenticatorOf zeros),
        if mac.body = d.hmacMd5 secret (usedBytes checked) then 0 else 1) := by
  have horig := hmac.orig_eq h
  have hin := hmac.in_buffer h
  rw [bodyAt] at horig hin
  simp only [radiusMsgVerifyMsgAuth, hmac.filter_attrs h, offset_natCast]
  rw [if_neg (Nat.not_lt.mpr hin), horig]
  cases reqAuth <;> rfl

/-- The message is left as it was, and the result says whether its Message-Authenticator is right. -/
lemma verifyMsgAuth_of_oneMac (hmac : OneMac p l mac r) (h : m.Holds p p.size)
    {reqAuth : Bytes} (hreq : reqAuth.length = 16) :
    radiusMsgVerifyMsgAuth d m secret (some reqAuth) =
      some (m, if mac.body = messageDigest d secret (withAuthenticator p reqAuth hreq) then 0 else 1) := by
  have hzlen : (List.replicate md5MacLen (0 : UInt8)).length = mac.body.length := by
    rw [hmac.length, List.length_replicate]
  have horig := hmac.orig_eq h
  have hin := hmac.in_buffer h
  have h₁ := write_carries h.toCarries hmac.attrs hzlen
  have h₂ := write_authenticator_carries h₁ hreq
  have hpacket : withAuthenticator
      { p with attrs := l ++ withBody mac (List.replicate md5MacLen 0) hzlen :: r } reqAuth hreq =
      zeroedPacket (withAuthenticator p reqAuth hreq) := by
    have hattrs := hmac.zeroedPacket_attrs hzlen
    simp only [zeroedPacket] at hattrs
    simp only [withAuthenticator, zeroedPacket, hattrs]
  have hused : usedBytes (write (write m (bodyAt l) (List.replicate md5MacLen 0)) 4 reqAuth) =
      (zeroedPacket (withAuthenticator p reqAuth hreq)).wire p.size := by
    rw [usedBytes_of_carries h₂, hpacket]
  have hrestore : write (write (write (write m (bodyAt l) (List.replicate md5MacLen 0)) 4 reqAuth)
      (bodyAt l) mac.body) 4
      (authenticatorOf (write m (bodyAt l) (List.replicate md5MacLen 0))) = m := by
    have hbytes := memcpy_restore m.bytes reqAuth (List.replicate md5MacLen 0) 4 (bodyAt l)
      (by rw [hreq, bodyAt, radiusHdrLen]; omega) (by rw [List.length_replicate]; exact hin) rfl rfl
    rw [List.length_replicate, horig, hreq] at hbytes
    exact congrArg (fun bytes => { m with bytes := bytes }) hbytes
  simp only [hmac.verifyMsgAuth_eq d secret h, Option.elim_some, hused, hrestore]
  rfl

lemma write_authenticatorOf (h : m.Carries p len) : write m 4 p.authenticator = m := by
  have hroom := h.room
  have hroom' : 4 + md5MacLen ≤ m.bytes.length := by
    rw [h.used, Packet.size, radiusHdrLen] at hroom
    rw [md5MacLen]
    omega
  rw [← authenticatorOf_carries h]
  exact congrArg (fun bytes => { m with bytes := bytes }) (memcpy_self hroom')

/-- A request is verified like a reply to a request with its own authenticator. -/
lemma verifyMsgAuth_request (hmac : OneMac p l mac r) (h : m.Holds p p.size) :
    radiusMsgVerifyMsgAuth d m secret none =
      some (m, if mac.body = messageDigest d secret p then 0 else 1) := by
  have hzlen : (List.replicate md5MacLen (0 : UInt8)).length = mac.body.length := by
    rw [hmac.length, List.length_replicate]
  have h₁ := write_carries h.toCarries hmac.attrs hzlen
  have h₂ := write_carries h₁ rfl (show mac.body.length = _ from hzlen.symm)
  have hsame := verifyMsgAuth_of_oneMac d secret hmac h p.authenticator_length
  simp only [hmac.verifyMsgAuth_eq d secret h, Option.elim_some, Option.elim_none, authenticatorOf_carries h₁,
    write_authenticatorOf h₁, write_authenticatorOf h₂] at hsame ⊢
  exact hsame

lemma verifyMsgAuth_of_ne_one (h : m.Holds p len) (reqAuth : Option Bytes)
    (hne : (p.attrs.filter fun e => e.tag = messageAuthenticator).length ≠ 1) :
    radiusMsgVerifyMsgAuth d m secret reqAuth = some (m, 1) := by
  have hlen := (points_filter h.points).length_eq
  unfold radiusMsgVerifyMsgAuth
  split
  case h_1 x hx =>
    rw [hx] at hlen
    exact absurd hlen.symm hne
  case h_2 => rfl

lemma exists_oneMac (hmac : MacsFit p)
    (hone : (p.attrs.filter fun e => e.tag = messageAuthenticator).length = 1) :
    ∃ l mac r, OneMac p l mac r := by
  obtain ⟨mac, hf⟩ := List.length_eq_one_iff.mp hone
  obtain ⟨l, r, hattrs, hl, htag, hr⟩ := List.filter_eq_cons_iff.mp hf
  have hmem : mac ∈ p.attrs := by simp [hattrs]
  have htag' : mac.tag = messageAuthenticator := by simpa using htag
  refine ⟨l, mac, r, hattrs, htag', hmac mac hmem htag', ?_, ?_⟩
  · intro e he
    simpa using hl e he
  · intro e he
    simpa using List.filter_eq_nil_iff.mp hr e he

/-- What a reply to the request with the given authenticator has to carry. -/
structure Authentic (d : Digest) (secret reqAuth : Bytes) (hreq : reqAuth.length = 16) (p : Packet) :
    Prop where
  message : ∃ mac, (p.attrs.filter fun e => e.tag = messageAuthenticator) = [mac] ∧
    mac.body = messageDigest d secret (withAuthenticator p reqAuth hreq)
  response : p.authenticator = responseDigest d secret reqAuth p

/-- `radius_msg_verify` leaves the message as it was, and accepts exactly the authentic replies. -/
lemma verify_spec (hmac : MacsFit p) (h : m.Holds p p.size) (hsent : sent.Carries q len) :
    ∃ rc, radiusMsgVerify d m secret (some sent) true = some (m, rc) ∧
      (rc = 0 ↔ Authentic d secret q.authenticator q.authenticator_length p) := by
  simp only [radiusMsgVerify, if_true, authenticatorOf_carries hsent]
  by_cases hone : (p.attrs.filter fun e => e.tag = messageAuthenticator).length = 1
  · obtain ⟨l, mac, r, hm⟩ := exists_oneMac hmac hone
    have hauth : Authentic d secret q.authenticator q.authenticator_length p ↔
        mac.body = messageDigest d secret (withAuthenticator p q.authenticator q.authenticator_length) ∧
          responseDigest d secret q.authenticator p = p.authenticator := by
      constructor
      · rintro ⟨⟨mac', hfilter, hbody⟩, hresponse⟩
        cases hm.filter_eq.symm.trans hfilter
        exact ⟨hbody, hresponse.symm⟩
      · rintro ⟨hbody, hresponse⟩
        exact ⟨⟨mac, hm.filter_eq, hbody⟩, hresponse.symm⟩
    rw [verifyMsgAuth_of_oneMac d secret hm h q.authenticator_length, hauth]
    by_cases hdigest : mac.body =
        messageDigest d secret (withAuthenticator p q.authenticator q.authenticator_length)
    · simp [hdigest, authenticatorOf_carries h.toCarries, header_of_carries h.toCarries,
        body_of_carries h.toCarries, responseDigest]
    · simp [hdigest]
  · rw [verifyMsgAuth_of_ne_one d secret h _ hone]
    refine ⟨1, by simp, by simp, ?_⟩
    rintro ⟨⟨mac, hmac', -⟩, -⟩
    rw [hmac'] at hone
    exact absurd rfl hone

/-- The octets that a client takes for the answer to its request are those of an authentic packet, with
any octets behind it. -/
theorem accepted_iff {b : Alloc} (hb : b.Gives) (hsent : sent.Carries q len) (data : Bytes)
    (hmac : ∀ (p : Packet) (rest : Bytes), data = p.wire p.size ++ rest →
      ∀ e ∈ p.attrs, e.tag = messageAuthenticator → e.body.length = md5MacLen) :
    (∃ m, radiusMsgParse b data = some m ∧
        radiusMsgVerify d m secret (some sent) true = some (m, 0)) ↔
      ∃ (p : Packet) (rest : Bytes), p.size < 2 ^ 16 ∧ data = p.wire p.size ++ rest ∧
        Authentic d secret q.authenticator q.authenticator_length p := by
  constructor
  · rintro ⟨m, hparse, hverify⟩
    obtain ⟨p, rest, hsize, rfl⟩ := wire_of_parse hparse
    obtain ⟨m', hparse', h⟩ := parse_wire hb p rest hsize
    obtain rfl : m' = m := Option.some.inj (hparse'.symm.trans hparse)
    obtain ⟨rc, hrc, hiff⟩ := verify_spec d secret (hmac p rest rfl) h hsent
    have hzero : rc = 0 := congrArg Prod.snd (Option.some.inj (hrc.symm.trans hverify))
    exact ⟨p, rest, hsize, rfl, hiff.mp hzero⟩
  · rintro ⟨p, rest, hsize, rfl, hauth⟩
    obtain ⟨m, hparse, h⟩ := parse_wire hb p rest hsize
    obtain ⟨rc, hrc, hiff⟩ := verify_spec d secret (hmac p rest rfl) h hsent
    exact ⟨m, hparse, hiff.mpr hauth ▸ hrc⟩

theorem text_accept_accepted :
    ∃ m, radiusMsgParse fixedAlloc (textAccept.wire textAccept.size) = some m ∧
      radiusMsgVerify zeroDigest m [] (some (fixedMsg 1)) true = some (m, 0) := by
  have hmac : ∀ v ∈ avps textAccept.attrs, v.1 = messageAuthenticator → v.2.length = md5MacLen := by
    decide
  refine (accepted_iff zeroDigest [] fixedAlloc_gives (new_carries (fixedMsg_new 1)) _ ?_).mpr
    ⟨textAccept, [], by decide, (List.append_nil _).symm, ⟨_, rfl, rfl⟩, rfl⟩
  intro p rest hdata e he
  refine hmac (e.tag, e.body) ?_
  rw [← avps_of_wire (by decide) hdata]
  exact List.mem_map.mpr ⟨e, he, rfl⟩

lemma signed_oneMac (hne : ∀ e ∈ p.attrs, e.tag ≠ messageAuthenticator) :
    ∃ mac, OneMac (signed d secret p) p.attrs mac [] ∧
      mac.body = messageDigest d secret (signed d secret p) := by
  obtain ⟨mac, hattrs, htag, hbody⟩ := signed_attrs d secret p
  have hone : OneMac (signed d secret p) p.attrs mac [] :=
    ⟨hattrs, htag, by rw [hbody, d.length_hmacMd5, md5MacLen], hne, by simp⟩
  have hzlen : (List.replicate md5MacLen (0 : UInt8)).length = mac.body.length := by
    rw [hone.length, List.length_replicate]
  have hzero : withBody mac (List.replicate md5MacLen 0) hzlen = zeroMac := Element.ext htag rfl
  have hpacket : zeroedPacket (signed d secret p) = p.add zeroMac := by
    have hz := hone.zeroedPacket_attrs hzlen
    rw [hzero] at hz
    simp only [zeroedPacket] at hz
    simp only [zeroedPacket, hz]
    rfl
  exact ⟨mac, hone, by rw [messageDigest, hpacket, hbody, size_signed, size_add_zeroMac]⟩

lemma reply_attrs {reqAuth : Bytes} (hreq : reqAuth.length = 16) (p : Packet) :
    ∃ mac : Attr, (reply d secret reqAuth hreq p).attrs = p.attrs ++ [mac] ∧
      mac.tag = messageAuthenticator ∧ mac.body.length = md5MacLen :=
  ⟨_, rfl, rfl, d.length_hmacMd5 ..⟩

lemma reply_mac {reqAuth : Bytes} (hreq : reqAuth.length = 16) (hmac : MacsFit p) :
    MacsFit (reply d secret reqAuth hreq p) := by
  obtain ⟨mac, hattrs, -, hlen⟩ := reply_attrs d secret hreq p
  intro e he hetag
  rw [hattrs, List.mem_append, List.mem_singleton] at he
  rcases he with he | rfl
  · exact hmac e he hetag
  · exact hlen

lemma size_reply {reqAuth : Bytes} (hreq : reqAuth.length = 16) :
    (reply d secret reqAuth hreq p).size = p.size + 18 :=
  size_signed d secret (withAuthenticator p reqAuth hreq)

lemma reply_authentic {reqAuth : Bytes} (hreq : reqAuth.length = 16)
    (hne : ∀ e ∈ p.attrs, e.tag ≠ messageAuthenticator) :
    Authentic d secret reqAuth hreq (reply d secret reqAuth hreq p) := by
  obtain ⟨mac, hone, hbody⟩ :=
    signed_oneMac d secret (p := withAuthenticator p reqAuth hreq) hne
  exact ⟨⟨mac, hone.filter_eq, hbody⟩, rfl⟩

lemma reply_delivered {a b : Alloc} {n : ℕ} (hgives : a.Gives) (hb : b.Gives) (h : m.Carries p len)
    (hsent : sent.Carries q n) (hsize : p.size + 18 < 2 ^ 16) (rest : Bytes) :
    ∃ m' m'', radiusMsgFinishSrv d a m secret (authenticatorOf sent) = (m', 0) ∧
      radiusMsgParse b (usedBytes m' ++ rest) = some m'' ∧
      m''.Holds (reply d secret q.authenticator q.authenticator_length p)
        (reply d secret q.authenticator q.authenticator_length p).size := by
  have hreq := q.authenticator_length
  have hsize' := size_reply d secret (p := p) hreq
  obtain ⟨m', hfinish, h'⟩ := finishSrv_carries d secret hgives h hreq
  rw [if_neg (by omega)] at hfinish
  obtain ⟨m'', hparse, h''⟩ := parse_wire hb (reply d secret q.authenticator hreq p) rest (by omega)
  refine ⟨m', m'', ?_, ?_, h''⟩
  · rw [authenticatorOf_carries hsent]
    exact hfinish
  · rw [usedBytes_of_carries h']
    exact hparse

/-- A reply that the server finishes is accepted by the client that sent the request, unless it had a
Message-Authenticator before. -/
theorem reply_verified_iff {a b : Alloc} {n : ℕ} (hgives : a.Gives) (hb : b.Gives) (h : m.Carries p len)
    (hsent : sent.Carries q n)
    (hmac : ∀ e ∈ p.attrs, e.tag = messageAuthenticator → e.body.length = md5MacLen)
    (hsize : p.size + 18 < 2 ^ 16) (rest : Bytes) :
    ∃ m' m'' rc, radiusMsgFinishSrv d a m secret (authenticatorOf sent) = (m', 0) ∧
      radiusMsgParse b (usedBytes m' ++ rest) = some m'' ∧
      radiusMsgVerify d m'' secret (some sent) true = some (m'', rc) ∧
      (rc = 0 ↔ ∀ e ∈ p.attrs, e.tag ≠ messageAuthenticator) := by
  have hreq := q.authenticator_length
  obtain ⟨m', m'', hfinish, hparse, h''⟩ :=
    reply_delivered d secret hgives hb h hsent hsize rest
  obtain ⟨rc, hverify, hiff⟩ := verify_spec d secret (reply_mac d secret hreq hmac) h'' hsent
  refine ⟨m', m'', rc, hfinish, hparse, hverify, hiff.trans ⟨?_, reply_authentic d secret hreq⟩⟩
  -- the first Message-Authenticator and the one that was added are two
  rintro ⟨⟨mac', hfilter, -⟩, -⟩ e he hetag
  obtain ⟨mac, hattrs, htag, -⟩ := reply_attrs d secret hreq p
  have hlen := congrArg List.length hfilter
  rw [hattrs, List.filter_append, List.length_append] at hlen
  have hpos : 0 < (p.attrs.filter fun e => e.tag = messageAuthenticator).length :=
    List.length_pos_of_mem (List.mem_filter.mpr ⟨he, by simpa using hetag⟩)
  have hone : ([mac].filter fun e => e.tag = messageAuthenticator).length = 1 := by
    simp [htag]
  rw [hone, List.length_singleton] at hlen
  omega

/-- A reply with a Reply-Message is accepted. It is refused if the server has added a
Message-Authenticator to it already. -/
theorem text_reply_verified : ∃ m x m' m'',
    radiusMsgAddAttr fixedAlloc (fixedMsg 2) 18 [72, 105] = (m, some x) ∧
      radiusMsgFinishSrv zeroDigest fixedAlloc m [] (authenticatorOf (fixedMsg 1)) = (m', 0) ∧
      radiusMsgParse fixedAlloc (usedBytes m') = some m'' ∧
      radiusMsgVerify zeroDigest m'' [] (some (fixedMsg 1)) true = some (m'', 0) := by
  obtain ⟨m, x, hadd⟩ := addAttr_of_gives fixedAlloc_gives (fixedMsg 2) 18
    (show ([72, 105] : Bytes).length ≤ radiusMaxAttrLen by decide)
  obtain ⟨hfit, hm, -⟩ := addAttr_carries (new_carries (fixedMsg_new 2)) hadd
  obtain ⟨m', m'', rc, hfinish, hparse, hverify, hrc⟩ := reply_verified_iff zeroDigest [] fixedAlloc_gives
    fixedAlloc_gives hm (new_carries (fixedMsg_new 1))
    (by simp [Packet.add, emptyPacket, attr, messageAuthenticator])
    (by simp only [Packet.size_add, length_encode_attr, attr]; decide) []
  obtain rfl : rc = 0 := hrc.mpr (by simp [Packet.add, emptyPacket, attr, messageAuthenticator])
  rw [List.append_nil] at hparse
  exact ⟨m, x, m', m'', hadd, hfinish, hparse, hverify⟩

end Verify

end LdapTgen.RadiusAuthenticators
