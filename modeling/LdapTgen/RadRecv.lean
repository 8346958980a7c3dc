import LdapTgen.RadiusAuthenticators

/-! `rad_recv`: what the library takes for a RADIUS packet. The octets are looked at where they were
received, in a buffer on the stack, and some of those behind the packet are looked at as well. -/
namespace LdapTgen.RadRecv
open ByteOrder RadiusMessage Tlv

def maxPacketLen : ℕ := 4096
def authHdrLen : ℕ := 20
def authVectorLen : ℕ := 16

def pwVendorSpecific : UInt8 := 26
def pwEapMessage : UInt8 := 79
def pwMessageAuthenticator : UInt8 := 80

def vendorpecUsr : ℕ := 429

structure RadiusPacket where
  code : UInt8
  id : UInt8
  vector : Bytes
  data : Bytes
  deriving DecidableEq

abbrev Stack := ℕ → UInt8

def vendorcodeAt (data : Stack) (pos : ℕ) : ℕ :=
  ofBytes [data pos, data (pos + 1), data (pos + 2), data (pos + 3)]

def vendorLoop (data : Stack) (pos : ℕ) (vendorlen : ℤ) : Bool :=
  if 2 ≤ vendorlen then
    if _h : (data (pos + 1)).toNat < 2 then false
    else vendorLoop data (pos + (data (pos + 1)).toNat) (vendorlen - (data (pos + 1)).toNat)
  else vendorlen = 0
termination_by vendorlen.toNat
decreasing_by omega

/-- What an attribute adds to `seen_eap`, unless the packet is dropped for it. -/
def checkAttr (data : Stack) (pos : ℕ) : Option UInt8 :=
  let type := data pos
  let len := (data (pos + 1)).toNat
  if type = 0 then none
  else if len < 2 then none
  else if type = pwEapMessage then some pwEapMessage
  else if type = pwMessageAuthenticator then
    if len ≠ 2 + authVectorLen then none else some pwMessageAuthenticator
  else if type = pwVendorSpecific then
    if len < 6 then none
    else if vendorcodeAt data (pos + 2) = vendorpecUsr then if len < 8 then none else some 0
    else if vendorLoop data (pos + 6) ((len : ℤ) - 6) then some 0 else none
  else some 0

structure Walk where
  count : ℤ
  seenEap : UInt8
  numAttributes : ℕ

lemma two_le_of_checkAttr {data : Stack} {pos : ℕ} {bits : UInt8} (h : checkAttr data pos = some bits) :
    2 ≤ (data (pos + 1)).toNat := by
  by_contra hlt
  unfold checkAttr at h
  simp only [if_pos (Nat.not_le.mp hlt)] at h
  split at h <;> cases h

def attrLoop (data : Stack) (pos : ℕ) (w : Walk) : Option Walk :=
  if 0 < w.count then
    match _h : checkAttr data pos with
    | none => none
    | some bits => attrLoop data (pos + (data (pos + 1)).toNat)
        ⟨w.count - (data (pos + 1)).toNat, w.seenEap ||| bits, w.numAttributes + 1⟩
  else some w
termination_by w.count.toNat
decreasing_by
  have htwo := two_le_of_checkAttr _h
  omega

/-- The packet, of a datagram that was received into the buffer on the given stack. -/
def radRecv (maxAttributes : ℤ) (stack : Stack) (datagram : Bytes) : Option RadiusPacket :=
  let received := datagram.take maxPacketLen
  let dataLen := received.length
  if dataLen < authHdrLen then none
  else if maxPacketLen < dataLen then none
  else
    let code := received.getD 0 0
    let totallen := ofBytes ((received.drop 2).take 2)
    if code = 0 ∨ 52 ≤ code then none
    else if totallen < authHdrLen then none
    else if maxPacketLen < totallen then none
    else if dataLen < totallen then none
    else
      -- what is behind the packet is zeroed
      let data : Stack := fun i =>
        if i < totallen then received.getD i 0 else if i < dataLen then 0 else stack i
      match attrLoop data authHdrLen ⟨(totallen : ℤ) - authHdrLen, 0, 0⟩ with
      | none => none
      | some w =>
          if w.count ≠ 0 then none
          else if 0 < maxAttributes ∧ maxAttributes < w.numAttributes then none
          else if w.seenEap ≠ 0 ∧ w.seenEap ≠ pwMessageAuthenticator ∧
              w.seenEap ≠ pwEapMessage ||| pwMessageAuthenticator then none
          else some
            { code := code
              id := received.getD 1 0
              vector := (received.drop 4).take authVectorLen
              data := received.take totallen }

structure Valid (e : Attr) : Prop where
  type : e.tag ≠ 0
  mac : e.tag = pwMessageAuthenticator → e.body.length = authVectorLen
  vendor : e.tag = pwVendorSpecific → 4 ≤ e.body.length ∧
    if ofBytes (e.body.take 4) = vendorpecUsr then 6 ≤ e.body.length
    else ∃ subs : List Attr, e.body.drop 4 = encodeAll subs

def seenBits (e : Attr) : UInt8 :=
  if e.tag = pwEapMessage then pwEapMessage
  else if e.tag = pwMessageAuthenticator then pwMessageAuthenticator
  else 0

def Shows (data : Stack) (pos : ℕ) (bs : Bytes) : Prop := ∀ i b, bs[i]? = some b → data (pos + i) = b

section Loops
variable {data : Stack} {pos : ℕ} {bs cs : Bytes}

lemma Shows.left (h : Shows data pos (bs ++ cs)) : Shows data pos bs := fun i b hb =>
  h i b (by rw [List.getElem?_append_left (List.getElem?_eq_some_iff.mp hb).1]; exact hb)

lemma Shows.right (h : Shows data pos (bs ++ cs)) : Shows data (pos + bs.length) cs := by
  intro i b hb
  rw [Nat.add_assoc]
  refine h _ b ?_
  rw [List.getElem?_append_right (Nat.le_add_right _ _), Nat.add_sub_cancel_left]
  exact hb

lemma Shows.attr {e : Attr} (h : Shows data pos (encode e ++ cs)) :
    data pos = e.tag ∧ (data (pos + 1)).toNat = e.body.length + 2 ∧ Shows data (pos + 2) e.body ∧
      Shows data (pos + (e.body.length + 2)) cs := by
  have hunits := units_mul e
  rw [Nat.one_mul] at hunits
  have hlen : data (pos + 1) = UInt8.ofNat ((e.body.length + 2) / 1) := h 1 _ rfl
  have hhead : Shows data pos ([e.tag, UInt8.ofNat ((e.body.length + 2) / 1)] ++ e.body) := h.left
  exact ⟨h 0 e.tag rfl, by rw [hlen, hunits], hhead.right, h.right⟩

lemma Shows.bad (h : Shows data pos bs) (hne : bs ≠ []) (hread : Tlv.read 1 bs = none) :
    bs.length = 1 ∨ (data (pos + 1)).toNat < 2 ∨ bs.length < (data (pos + 1)).toNat := by
  match bs, hne, hread, h with
  | [_], _, _, _ => exact .inl rfl
  | type :: len :: rest, _, hread, h =>
    rw [read_eq_none_iff, Nat.one_mul] at hread
    have hlen : data (pos + 1) = len := h 1 len rfl
    rw [hlen, List.length_cons, List.length_cons]
    omega

lemma encodeAll_ne_of_read_none (hne : bs ≠ []) (hread : Tlv.read 1 bs = none) (es : List Attr) :
    bs ≠ encodeAll es := by
  rintro rfl
  cases es with
  | nil => exact hne rfl
  | cons e es =>
    rw [encodeAll_cons, read_encode_append] at hread
    cases hread

lemma encode_append_eq_encodeAll_iff {e : Attr} :
    (∃ es : List Attr, encode e ++ cs = encodeAll es) ↔ ∃ es : List Attr, cs = encodeAll es := by
  constructor
  · rintro ⟨es, hes⟩
    cases es with
    | nil => simp [encode] at hes
    | cons f es => exact ⟨es, (encode_append_inj hes).2⟩
  · rintro ⟨es, rfl⟩
    exact ⟨e :: es, rfl⟩

lemma vendorLoop_iff (h : Shows data pos bs) :
    vendorLoop data pos bs.length = true ↔ ∃ subs : List Attr, bs = encodeAll subs := by
  induction bs using Tlv.induction_on (u := 1) generalizing pos with
  | nil =>
    rw [vendorLoop, if_neg (by simp)]
    exact iff_of_true (by simp) ⟨[], rfl⟩
  | bad bs hne hread =>
    have hnone : ¬ ∃ subs : List Attr, bs = encodeAll subs := by
      rintro ⟨subs, hsubs⟩
      exact encodeAll_ne_of_read_none hne hread subs hsubs
    have hpos := List.length_pos_iff.mpr hne
    refine iff_of_false ?_ hnone
    rw [vendorLoop]
    by_cases htwo : 2 ≤ (bs.length : ℤ)
    · rw [if_pos htwo]
      rcases h.bad hne hread with hone | hlt | hgt
      · omega
      · rw [dif_pos hlt]
        exact Bool.false_ne_true
      · rw [dif_neg (by omega), vendorLoop, if_neg (by omega), decide_eq_true_iff]
        omega
    · rw [if_neg htwo, decide_eq_true_iff]
      omega
  | cons e rest ih =>
    obtain ⟨-, hlen, -, hrest⟩ := h.attr
    rw [vendorLoop, List.length_append, length_encode, if_pos (by omega), dif_neg (by omega), hlen,
      show ((e.body.length + 2 + rest.length : ℕ) : ℤ) - ((e.body.length + 2 : ℕ) : ℤ) = rest.length by
        omega, ih hrest]
    exact encode_append_eq_encodeAll_iff.symm

lemma Shows.vendorcode (h : Shows data pos bs) (hlen : 4 ≤ bs.length) :
    vendorcodeAt data pos = ofBytes (bs.take 4) := by
  match bs, hlen, h with
  | a :: b :: c :: d :: rest, _, h =>
    have h0 : data pos = a := h 0 a rfl
    have h1 : data (pos + 1) = b := h 1 b rfl
    have h2 : data (pos + 2) = c := h 2 c rfl
    have h3 : data (pos + 3) = d := h 3 d rfl
    rw [vendorcodeAt, h0, h1, h2, h3]
    rfl

lemma checkVendor_iff {e : Attr} (h : Shows data (pos + 2) e.body) (bits : UInt8) :
    (if e.body.length + 2 < 6 then none
      else if vendorcodeAt data (pos + 2) = vendorpecUsr then
        if e.body.length + 2 < 8 then none else some 0
      else if vendorLoop data (pos + 6) (((e.body.length + 2 : ℕ) : ℤ) - 6) then some 0 else none) =
        some bits ↔
      (4 ≤ e.body.length ∧ if ofBytes (e.body.take 4) = vendorpecUsr then 6 ≤ e.body.length
        else ∃ subs : List Attr, e.body.drop 4 = encodeAll subs) ∧ bits = 0 := by
  by_cases hshort : e.body.length + 2 < 6
  · rw [if_pos hshort]
    simp only [reduceCtorEq, false_iff]
    omega
  · have hfour : 4 ≤ e.body.length := by omega
    rw [if_neg hshort, h.vendorcode hfour]
    by_cases husr : ofBytes (e.body.take 4) = vendorpecUsr
    · simp only [if_pos husr, hfour, true_and]
      split_ifs with hlt
      · simp only [false_iff]
        omega
      · simp only [Option.some.injEq, eq_comm (a := bits)]
        exact ⟨fun heq => ⟨by omega, heq⟩, fun heq => heq.2⟩
    · have hsplit : Shows data (pos + 2) (e.body.take 4 ++ e.body.drop 4) := by
        rwa [List.take_append_drop]
      have hdrop := hsplit.right
      rw [List.length_take_of_le hfour, Nat.add_assoc] at hdrop
      have hloop := vendorLoop_iff hdrop
      rw [List.length_drop] at hloop
      rw [if_neg husr, if_neg husr,
        show ((e.body.length + 2 : ℕ) : ℤ) - 6 = ((e.body.length - 4 : ℕ) : ℤ) by omega, ← hloop]
      cases vendorLoop data (pos + (2 + 4)) ((e.body.length - 4 : ℕ) : ℤ) <;>
        simp [hfour, eq_comm (a := bits)]

lemma checkAttr_iff {e : Attr} (h : Shows data pos (encode e ++ cs)) {bits : UInt8} :
    checkAttr data pos = some bits ↔ Valid e ∧ bits = seenBits e := by
  obtain ⟨htype, hlen, hbody, -⟩ := h.attr
  have hvendor := checkVendor_iff hbody bits
  unfold checkAttr seenBits
  rw [htype, hlen]
  by_cases hzero : e.tag = 0
  · simp only [hzero, if_true, reduceCtorEq, false_iff]
    exact fun hvalid => hvalid.1.type hzero
  · simp only [hzero, if_false, if_neg (show ¬ e.body.length + 2 < 2 by omega)]
    by_cases heap : e.tag = pwEapMessage
    · simp only [heap, if_true, Option.some.injEq, eq_comm (a := bits)]
      refine ⟨fun heq => ⟨⟨hzero, ?_, ?_⟩, heq⟩, fun heq => heq.2⟩
      · rw [heap]
        exact fun habs => absurd habs (by decide)
      · rw [heap]
        exact fun habs => absurd habs (by decide)
    · by_cases hmac : e.tag = pwMessageAuthenticator
      · rw [if_neg heap, if_pos hmac, if_neg heap, if_pos hmac]
        have hvsa : e.tag ≠ pwVendorSpecific := by
          rw [hmac]
          decide
        split_ifs with hlong
        · simp only [false_iff]
          exact fun hvalid => hlong (by rw [hvalid.1.mac hmac, Nat.add_comm])
        · simp only [Option.some.injEq, eq_comm (a := bits)]
          exact ⟨fun heq => ⟨⟨hzero, fun _ => by omega, fun habs => absurd habs hvsa⟩, heq⟩,
            fun heq => heq.2⟩
      · by_cases hvsa : e.tag = pwVendorSpecific
        · simp only [heap, hmac, if_false]
          rw [if_pos hvsa, hvendor]
          refine and_congr_left fun _ => ⟨fun hvalid => ⟨hzero, fun habs => absurd habs hmac, fun _ => ?_⟩,
            fun hvalid => hvalid.vendor hvsa⟩
          exact hvalid
        · simp only [heap, hmac, hvsa, if_false, Option.some.injEq, eq_comm (a := bits)]
          exact ⟨fun heq => ⟨⟨hzero, fun habs => absurd habs hmac, fun habs => absurd habs hvsa⟩, heq⟩,
            fun heq => heq.2⟩

lemma attrLoop_iff (h : Shows data pos bs) (seen : UInt8) (num : ℕ) (w : Walk) :
    (attrLoop data pos ⟨bs.length, seen, num⟩ = some w ∧ w.count = 0) ↔
      ∃ es : List Attr, bs = encodeAll es ∧ (∀ e ∈ es, Valid e) ∧
        w = ⟨0, es.foldl (fun s e => s ||| seenBits e) seen, num + es.length⟩ := by
  induction bs using Tlv.induction_on (u := 1) generalizing pos seen num with
  | nil =>
    rw [attrLoop, if_neg (by simp)]
    constructor
    · rintro ⟨hw, -⟩
      obtain rfl := Option.some.inj hw
      exact ⟨[], rfl, by simp, rfl⟩
    · rintro ⟨es, hes, -, rfl⟩
      obtain rfl : es = [] := by
        cases es with
        | nil => rfl
        | cons e es => simp [encode] at hes
      exact ⟨rfl, rfl⟩
  | bad bs hne hread =>
    have hpos := List.length_pos_iff.mpr hne
    refine iff_of_false ?_ ?_
    · rintro ⟨hw, hzero⟩
      rw [attrLoop, if_pos (by simpa using hpos)] at hw
      split at hw
      · cases hw
      · rename_i bits hcheck
        have htwo := two_le_of_checkAttr hcheck
        have hbad := h.bad hne hread
        -- the count becomes negative, and stays so
        dsimp only at hw
        rw [attrLoop, if_neg (by dsimp only; omega)] at hw
        obtain rfl := Option.some.inj hw
        dsimp only at hzero
        omega
    · rintro ⟨es, hes, -⟩
      exact encodeAll_ne_of_read_none hne hread es hes
  | cons e rest ih =>
    obtain ⟨-, hlen, -, hrest⟩ := h.attr
    rw [attrLoop, if_pos (by simp; omega)]
    split
    · rename_i hcheck
      refine iff_of_false (fun hw => by cases hw.1) ?_
      rintro ⟨es, hes, hvalid, -⟩
      cases es with
      | nil => simp [encode] at hes
      | cons f es =>
        obtain ⟨rfl, -⟩ := encode_append_inj hes
        have hsome := (checkAttr_iff h).mpr ⟨hvalid e (by simp), rfl⟩
        rw [hcheck] at hsome
        cases hsome
    · rename_i bits hcheck
      obtain ⟨hvalid, rfl⟩ := (checkAttr_iff h).mp hcheck
      have hcount : (((encode e ++ rest).length : ℕ) : ℤ) - ((data (pos + 1)).toNat : ℤ) = rest.length := by
        rw [List.length_append, length_encode, hlen]
        omega
      dsimp only
      rw [hcount, hlen, ih hrest]
      constructor
      · rintro ⟨es, rfl, hes, rfl⟩
        refine ⟨e :: es, rfl, List.forall_mem_cons.mpr ⟨hvalid, hes⟩, ?_⟩
        rw [List.foldl_cons, List.length_cons, Nat.add_assoc, Nat.add_comm 1]
      · rintro ⟨es, hes, hall, rfl⟩
        cases es with
        | nil => simp [encode] at hes
        | cons f es =>
          obtain ⟨rfl, rfl⟩ := encode_append_inj hes
          refine ⟨es, rfl, (List.forall_mem_cons.mp hall).2, ?_⟩
          rw [List.foldl_cons, List.length_cons, Nat.add_assoc, Nat.add_comm 1]

end Loops

lemma foldl_seenBits (es : List Attr) (seen : UInt8) :
    es.foldl (fun s e => s ||| seenBits e) seen =
      seen ||| (if es.any (fun e => e.tag = pwEapMessage) then pwEapMessage else 0) |||
        (if es.any (fun e => e.tag = pwMessageAuthenticator) then pwMessageAuthenticator else 0) := by
  have hswap : ∀ a b c : UInt8, a ||| b ||| c = a ||| c ||| b := by
    intro a b c
    rw [UInt8.or_assoc, UInt8.or_comm b, ← UInt8.or_assoc]
  have htwice : ∀ a b : UInt8, a ||| b ||| b = a ||| b := by
    intro a b
    rw [UInt8.or_assoc, UInt8.or_self]
  have hne : pwMessageAuthenticator ≠ pwEapMessage := by decide
  induction es generalizing seen with
  | nil => simp
  | cons e es ih =>
    rw [List.foldl_cons, ih, List.any_cons, List.any_cons, seenBits]
    by_cases heap : e.tag = pwEapMessage
    · simp only [heap, if_true, decide_true, Bool.true_or, hne.symm, decide_false, Bool.false_or]
      split_ifs <;> simp [htwice]
    · by_cases hmac : e.tag = pwMessageAuthenticator
      · simp only [hmac, hne, if_true, if_false, decide_true, decide_false, Bool.true_or, Bool.false_or]
        split_ifs <;> simp [htwice, hswap _ pwMessageAuthenticator]
      · simp [heap, hmac]

lemma seen_insecure_iff (es : List Attr) :
    (es.foldl (fun s e => s ||| seenBits e) 0 ≠ 0 ∧
      es.foldl (fun s e => s ||| seenBits e) 0 ≠ pwMessageAuthenticator ∧
      es.foldl (fun s e => s ||| seenBits e) 0 ≠ pwEapMessage ||| pwMessageAuthenticator) ↔
    (∃ e ∈ es, e.tag = pwEapMessage) ∧ ∀ e ∈ es, e.tag ≠ pwMessageAuthenticator := by
  have heap : es.any (fun e => e.tag = pwEapMessage) = true ↔ ∃ e ∈ es, e.tag = pwEapMessage := by simp
  have hmac : es.any (fun e => e.tag = pwMessageAuthenticator) = false ↔
      ∀ e ∈ es, e.tag ≠ pwMessageAuthenticator := by simp
  rw [← heap, ← hmac, foldl_seenBits]
  generalize es.any (fun e => e.tag = pwEapMessage) = x
  generalize es.any (fun e => e.tag = pwMessageAuthenticator) = y
  revert x y
  decide

structure Receivable (maxAttributes : ℤ) (p : Packet) : Prop where
  size : p.size ≤ maxPacketLen
  code : p.code ≠ 0 ∧ p.code < 52
  attrs : ∀ e ∈ p.attrs, Valid e
  number : 0 < maxAttributes → (p.attrs.length : ℤ) ≤ maxAttributes
  eap : (∃ e ∈ p.attrs, e.tag = pwEapMessage) → ∃ e ∈ p.attrs, e.tag = pwMessageAuthenticator

lemma shows_attributes (received : Bytes) (n dataLen : ℕ) (stack : Stack) :
    Shows (fun i => if i < n then received.getD i 0 else if i < dataLen then 0 else stack i) authHdrLen
      ((received.take n).drop authHdrLen) := by
  intro i b hb
  rw [List.getElem?_drop] at hb
  have hlt := (List.getElem?_eq_some_iff.mp hb).1
  rw [List.length_take] at hlt
  rw [List.getElem?_take_of_lt (by omega)] at hb
  dsimp only
  rw [if_pos (by omega), List.getD_eq_getElem?_getD, hb, Option.getD_some]

lemma checks_iff {maxAttributes : ℤ} {data : Stack} {bs : Bytes} (h : Shows data authHdrLen bs)
    (r r' : RadiusPacket) :
    (match attrLoop data authHdrLen ⟨bs.length, 0, 0⟩ with
      | none => none
      | some w =>
          if w.count ≠ 0 then none
          else if 0 < maxAttributes ∧ maxAttributes < w.numAttributes then none
          else if w.seenEap ≠ 0 ∧ w.seenEap ≠ pwMessageAuthenticator ∧
              w.seenEap ≠ pwEapMessage ||| pwMessageAuthenticator then none
          else some r') = some r ↔
    ∃ es : List Attr, bs = encodeAll es ∧ (∀ e ∈ es, Valid e) ∧
      (0 < maxAttributes → (es.length : ℤ) ≤ maxAttributes) ∧
      ((∃ e ∈ es, e.tag = pwEapMessage) → ∃ e ∈ es, e.tag = pwMessageAuthenticator) ∧ r = r' := by
  have hloop := attrLoop_iff h 0 0
  constructor
  · intro heq
    split at heq
    · cases heq
    · rename_i w hw
      split_ifs at heq with hcount hnumber hseen
      rw [not_not] at hcount
      obtain ⟨es, hes, hvalid, rfl⟩ := (hloop w).mp ⟨hw, hcount⟩
      rw [seen_insecure_iff] at hseen
      refine ⟨es, hes, hvalid, fun hmax => ?_, fun heap => ?_, (Option.some.inj heq).symm⟩
      · dsimp only at hnumber
        omega
      · by_contra hnone
        exact hseen ⟨heap, fun e he htag => hnone ⟨e, he, htag⟩⟩
  · rintro ⟨es, hes, hvalid, hmax, heap, rfl⟩
    obtain ⟨hw, -⟩ := (hloop _).mpr ⟨es, hes, hvalid, rfl⟩
    simp only [hw]
    rw [if_neg (by simp), if_neg, if_neg]
    · rw [seen_insecure_iff]
      rintro ⟨hsome, hnone⟩
      obtain ⟨e, he, htag⟩ := heap hsome
      exact hnone e he htag
    · rintro ⟨hpos, hlt⟩
      have hle := hmax hpos
      omega

lemma radRecv_of_receivable {maxAttributes : ℤ} (stack : Stack) {datagram rest : Bytes} {p : Packet}
    (hdatagram : datagram.take maxPacketLen = p.wire p.size ++ rest)
    (hp : Receivable maxAttributes p) :
    radRecv maxAttributes stack datagram =
      some ⟨p.code, p.identifier, p.authenticator, p.wire p.size⟩ := by
  have hsize := hp.size
  have hge : authHdrLen ≤ p.size := Nat.le_add_right _ _
  have hlength : (p.wire p.size ++ rest).length = p.size + rest.length := by
    rw [List.length_append, p.length_wire]
  have hmax : (p.wire p.size ++ rest).length ≤ maxPacketLen := by
    rw [← hdatagram]
    exact List.length_take_le _ _
  have hn : ofBytes (((p.wire p.size ++ rest).drop 2).take 2) = p.size := by
    rw [p.length_field, ofBytes_toBytes_of_lt (Nat.lt_of_le_of_lt hsize (by decide))]
  have htake : (p.wire p.size ++ rest).take p.size = p.wire p.size := List.take_left' (p.length_wire _)
  have hcode : (p.wire p.size ++ rest).getD 0 0 = p.code := rfl
  have hattrs : ((p.wire p.size ++ rest).take p.size).drop authHdrLen = encodeAll p.attrs := by
    have hdrop := p.drop_wire p.size []
    rw [List.append_nil, List.append_nil] at hdrop
    rw [htake]
    exact hdrop
  have hcast : (p.size : ℤ) - (authHdrLen : ℤ) = ((encodeAll p.attrs).length : ℤ) := by
    have hcount : p.size = authHdrLen + (encodeAll p.attrs).length := rfl
    omega
  have hshows := shows_attributes (p.wire p.size ++ rest) p.size (p.wire p.size ++ rest).length stack
  rw [hattrs] at hshows
  unfold radRecv
  rw [hdatagram]
  dsimp only
  rw [hn, if_neg (by omega), if_neg (by omega), if_neg, if_neg (by omega), if_neg (by omega),
    if_neg (by omega), hcast, checks_iff hshows]
  · refine ⟨p.attrs, rfl, hp.attrs, hp.number, hp.eap, ?_⟩
    rw [htake]
    exact congrArg (fun vector => RadiusPacket.mk p.code p.identifier vector (p.wire p.size))
      (p.authenticator_field p.size rest).symm
  · rw [hcode, not_or]
    exact ⟨hp.code.1, UInt8.not_le.mpr hp.code.2⟩

lemma receivable_of_radRecv {maxAttributes : ℤ} {stack : Stack} {datagram : Bytes} {r : RadiusPacket}
    (h : radRecv maxAttributes stack datagram = some r) :
    ∃ (p : Packet) (rest : Bytes), datagram.take maxPacketLen = p.wire p.size ++ rest ∧
      Receivable maxAttributes p ∧
      r = ⟨p.code, p.identifier, p.authenticator, p.wire p.size⟩ := by
  unfold radRecv at h
  generalize datagram.take maxPacketLen = received at h ⊢
  dsimp only at h
  generalize hn : ofBytes ((received.drop 2).take 2) = n at h
  split_ifs at h with h1 h2 h3 h4 h5 h6
  have hlen : ((received.take n).drop authHdrLen).length = n - authHdrLen := by
    rw [List.length_drop, List.length_take]
    omega
  have hcast : (n : ℤ) - (authHdrLen : ℤ) = (((received.take n).drop authHdrLen).length : ℤ) := by
    rw [hlen]
    omega
  rw [hcast] at h
  obtain ⟨es, hes, hvalid, hnumber, heap, rfl⟩ :=
    (checks_iff (shows_attributes received n received.length stack) r _).mp h
  obtain ⟨p, hsize, -, rfl, hwire⟩ := exists_packet (Nat.not_lt.mp h4) (Nat.not_lt.mp h6) hn hes
  have hall : received = p.wire p.size ++ received.drop n := by
    rw [hsize, ← hwire, List.take_append_drop]
  have hcode : received.getD 0 0 = p.code := by
    rw [hall]
    rfl
  have hid : received.getD 1 0 = p.identifier := by
    rw [hall]
    rfl
  have hvector : (received.drop 4).take authVectorLen = p.authenticator := by
    rw [hall]
    exact p.authenticator_field _ _
  refine ⟨p, received.drop n, hall, ⟨by omega, ?_, hvalid, hnumber, heap⟩, ?_⟩
  · rw [hcode, not_or] at h3
    exact ⟨h3.1, UInt8.not_le.mp h3.2⟩
  · rw [hcode, hid, hvector, hwire, hsize]

/-- `rad_recv` takes exactly the octets of a receivable packet, with any octets behind it, and what is on
the stack makes no difference. -/
theorem radRecv_iff (maxAttributes : ℤ) (stack : Stack) (datagram : Bytes) (r : RadiusPacket) :
    radRecv maxAttributes stack datagram = some r ↔
      ∃ (p : Packet) (rest : Bytes), datagram.take maxPacketLen = p.wire p.size ++ rest ∧
        Receivable maxAttributes p ∧
        r = ⟨p.code, p.identifier, p.authenticator, p.wire p.size⟩ := by
  constructor
  · exact receivable_of_radRecv
  · rintro ⟨p, rest, hdatagram, hp, rfl⟩
    exact radRecv_of_receivable stack hdatagram hp

end LdapTgen.RadRecv
