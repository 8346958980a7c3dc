import LdapTgen.RadDecode

/-! The values of a packet that is decoded: which pairs there are, and when there is none to be made. -/
namespace LdapTgen.RadValues
open ByteOrder RadDecode RadPassword RadRecv RadiusAuthenticators RadiusMessage Tlv

def stackOf (body : Bytes) : Stack := fun i => body.getD i 0

def pairOf (dict : Dict) (k : Keys) (attr : ℕ) (body : Bytes) : Option ValuePair :=
  (decodePair dict k (stackOf body) attr body.length).join

def textTypes : List PwType := [.octets, .abinary, .string]

/-- The vector of the request is read: for a secret, and for a tunnel password of three octets or more
behind its tag. -/
def ReadsVector (encrypt : Encrypt) (tagged : Prop) (attrlen : ℤ) : Prop :=
  encrypt = .ascendSecret ∨ encrypt = .tunnelPassword ∧ (3 < attrlen ∨ ¬ tagged ∧ 3 ≤ attrlen)

/-- Nothing is read but the value: a tagged string has a tag, a secret its 16 octets, and there is an
original where its vector is read. -/
structure Inside (dict : Dict) (original : Option Bytes) (attr : ℕ) (body : Bytes) : Prop where
  tag : (entryOf dict attr).flags.hasTag = true → (entryOf dict attr).type = .string → body ≠ []
  vector : (entryOf dict attr).type ∈ textTypes →
    ReadsVector (encryptOf (entryOf dict attr).name attr (entryOf dict attr).flags.encrypt)
      ((entryOf dict attr).flags.hasTag = true ∧ (entryOf dict attr).type = .string) body.length →
    original ≠ none
  secret : (entryOf dict attr).type ∈ textTypes →
    encryptOf (entryOf dict attr).name attr (entryOf dict attr).flags.encrypt = .ascendSecret →
      authPassLen ≤ body.length

section Values
variable {k : Keys} {value value' : Stack} {n : ℕ}

def Agree (value value' : Stack) (n : ℕ) : Prop := ∀ i < n, value i = value' i

lemma octetsAt_congr (h : Agree value value' n) : octetsAt value n = octetsAt value' n :=
  List.map_congr_left fun i hi => h i (List.mem_range.mp hi)

lemma copied_congr {m : ℤ} (h : Agree value value' m.toNat) : copied value m = copied value' m := by
  rw [copied, copied, octetsAt_congr h]

lemma copied_isSome (value : Stack) {m : ℤ} (h : 0 ≤ m) : ∃ strvalue, copied value m = some strvalue :=
  ⟨_, if_neg (Int.not_lt.mpr h)⟩

lemma decrypt_inside {pair : ValuePair}
    (hvector : pair.flags.encrypt = .ascendSecret ∨ pair.flags.encrypt = .tunnelPassword ∧ 3 ≤ pair.length →
      k.original ≠ none)
    (hsecret : pair.flags.encrypt = .ascendSecret → Agree value value' authPassLen) :
    decrypt k value pair = decrypt k value' pair ∧ ∃ r, decrypt k value' pair = some r := by
  unfold decrypt
  split
  case h_1 => exact ⟨rfl, _, rfl⟩
  case h_2 => exact ⟨rfl, _, rfl⟩
  case h_3 hencrypt =>
    split_ifs with hshort
    · exact ⟨rfl, _, rfl⟩
    · obtain ⟨v, hv⟩ := Option.ne_none_iff_exists'.mp (hvector (.inr ⟨hencrypt, Int.not_lt.mp hshort⟩))
      rw [hv]
      exact ⟨rfl, _, rfl⟩
  case h_4 hencrypt =>
    obtain ⟨v, hv⟩ := Option.ne_none_iff_exists'.mp (hvector (.inl hencrypt))
    rw [hv, octetsAt_congr (hsecret hencrypt)]
    exact ⟨rfl, _, rfl⟩

/-- The decryption changes the kind of no value into that of a tunnel password. -/
lemma encrypt_of_tunnel {name : String} {attr : ℕ} {encrypt : Encrypt}
    (h : encryptOf name attr encrypt = .tunnelPassword) : encrypt = .tunnelPassword := by
  unfold encryptOf at h
  split_ifs at h
  exact h

/-- A value is read from its second octet when it has a tag; that of a tunnel password need not be valid. -/
lemma readsVector_iff {pair : ValuePair} {tagged : Prop} (valid : Prop) [Decidable tagged]
    [Decidable valid] {attrlen : ℤ} :
    (encryptOf pair.name pair.attr pair.flags.encrypt = .ascendSecret ∨
      encryptOf pair.name pair.attr pair.flags.encrypt = .tunnelPassword ∧ 3 ≤ attrlen -
        ((if tagged ∧ (valid ∨ pair.flags.encrypt = .tunnelPassword) then 1 else 0 : ℕ) : ℤ)) ↔
      ReadsVector (encryptOf pair.name pair.attr pair.flags.encrypt) tagged attrlen := by
  refine or_congr_right (and_congr_right fun htunnel => ?_)
  by_cases htagged : tagged
  · simp only [htagged, encrypt_of_tunnel htunnel, or_true, and_true, if_true, not_true, false_and, or_false]
    omega
  · simp only [htagged, false_and, if_false, not_false_eq_true, true_and]
    omega

lemma decodeText_inside (pair : ValuePair) (h : Agree value value' n)
    (htag : pair.flags.hasTag = true → pair.type = .string → 0 < n)
    (hvector : ReadsVector (encryptOf pair.name pair.attr pair.flags.encrypt)
      (pair.flags.hasTag = true ∧ pair.type = .string) n → k.original ≠ none)
    (hsecret : encryptOf pair.name pair.attr pair.flags.encrypt = .ascendSecret → authPassLen ≤ n) :
    decodeText k value n pair = decodeText k value' n pair ∧ ∃ r, decodeText k value' n pair = some r := by
  -- with the same tag and the same offset
  have hat : ∀ (offset : ℕ) (tag : UInt8), offset ≤ n →
      (encryptOf pair.name pair.attr pair.flags.encrypt = .ascendSecret ∨
        encryptOf pair.name pair.attr pair.flags.encrypt = .tunnelPassword ∧ 3 ≤ (n : ℤ) - offset →
        k.original ≠ none) →
      let f (value : Stack) := (copied (fun i => value (offset + i)) ((n : ℤ) - offset)).bind
        fun strvalue => decrypt k value { pair with
          strvalue := strvalue
          length := (n : ℤ) - offset
          flags := { pair.flags with
            tag := tag
            encrypt := encryptOf pair.name pair.attr pair.flags.encrypt } }
      f value = f value' ∧ ∃ r, f value' = some r := by
    intro offset tag hoffset hread f
    have hcopy : copied (fun i => value (offset + i)) ((n : ℤ) - offset) =
        copied (fun i => value' (offset + i)) ((n : ℤ) - offset) :=
      copied_congr fun i hi => h _ (by omega)
    obtain ⟨strvalue, hstr⟩ := copied_isSome (fun i => value' (offset + i))
      (show 0 ≤ (n : ℤ) - offset by omega)
    simp only [f, hcopy, hstr, Option.bind_some]
    exact decrypt_inside hread fun he i hi => h i (by have hle := hsecret he; omega)
  have hread := fun valid [Decidable valid] => hvector ∘ (readsVector_iff valid).mp
  unfold decodeText
  by_cases htagged : pair.flags.hasTag = true ∧ pair.type = .string
  · have hpos := htag htagged.1 htagged.2
    simp only [h 0 hpos]
    exact hat _ _ (by split_ifs <;> omega) (hread _)
  · have hzero := hread True
    simp only [htagged, false_and, if_false] at hzero ⊢
    exact hat _ _ (Nat.zero_le _) hzero

lemma decodeNumber_inside (dict : Dict) {pair : ValuePair} (h : Agree value value' n) (type : PwType) :
    decodeNumber dict value n type pair = decodeNumber dict value' n type pair ∧
      ∃ r, decodeNumber dict value' n type pair = some r := by
  unfold decodeNumber
  by_cases hfour : (n : ℤ) ≠ 4
  · obtain ⟨strvalue, hstr⟩ := copied_isSome value' (Int.natCast_nonneg n)
    rw [if_pos hfour, if_pos hfour, copied_congr (m := n) h, hstr]
    exact ⟨rfl, _, rfl⟩
  · rw [if_neg hfour, if_neg hfour, octetsAt_congr (n := 4) fun i hi => h i (by omega)]
    exact ⟨rfl, _, rfl⟩

lemma decodeOctets_inside {pair : ValuePair} (h : Agree value value' n) {kept kept' : Prop}
    [Decidable kept] [Decidable kept'] (hkept : kept ↔ kept') :
    decodeOctets value n kept pair = decodeOctets value' n kept' pair ∧
      ∃ r, decodeOctets value' n kept' pair = some r := by
  obtain ⟨strvalue, hstr⟩ := copied_isSome value' (Int.natCast_nonneg n)
  unfold decodeOctets
  rw [copied_congr (m := n) h, hstr]
  exact ⟨by simp only [hkept], _, rfl⟩

lemma map_inside {α β : Type} {x y : Option α} (f : α → β) (h : x = y ∧ ∃ r, y = some r) :
    x.map f = y.map f ∧ ∃ r, y.map f = some r := by
  obtain ⟨rfl, r, rfl⟩ := h
  exact ⟨rfl, _, rfl⟩

lemma decodePair_inside (dict : Dict) {attr ptr : ℕ} {mem : Stack} {body : Bytes}
    (h : Shows mem ptr body) (hinside : Inside dict k.original attr body) :
    decodePair dict k (fun i => mem (ptr + i)) attr body.length = some (pairOf dict k attr body) := by
  have hagree : Agree (fun i => mem (ptr + i)) (stackOf body) body.length := by
    intro i hi
    rw [stackOf, List.getD_eq_getElem?_getD, List.getElem?_eq_getElem hi, Option.getD_some]
    exact h i _ (List.getElem?_eq_getElem hi)
  have hsame : decodePair dict k (fun i => mem (ptr + i)) attr body.length =
      decodePair dict k (stackOf body) attr body.length ∧
        ∃ r, decodePair dict k (stackOf body) attr body.length = some r := by
    obtain ⟨htag, hvector, hsecret⟩ := hinside
    have hne : body ≠ [] → 0 < body.length := List.length_pos_iff.mpr
    have hprefix : 2 ≤ (body.length : ℤ) ∧ (body.length : ℤ) ≤ 18 ∧ mem (ptr + 1) ≤ 128 ↔
        2 ≤ (body.length : ℤ) ∧ (body.length : ℤ) ≤ 18 ∧ stackOf body 1 ≤ 128 :=
      and_congr_right fun htwo => by rw [← hagree 1 (by omega)]
    unfold decodePair
    generalize entryOf dict attr = entry at htag hvector hsecret
    obtain ⟨name, type, flags⟩ := entry
    have htext (h : type ∈ textTypes) := decodeText_inside (k := k) ⟨name, attr, type, body.length, 0,
      List.replicate maxStringLen 0, flags⟩ hagree (fun ha hb => hne (htag ha hb))
      (hvector h) (hsecret h)
    cases type with
    | string | abinary | octets => exact map_inside some (htext (by decide))
    | integer | date | ipaddr => exact map_inside some (decodeNumber_inside dict hagree _)
    | ifid | ipv6addr => exact map_inside some (decodeOctets_inside hagree Iff.rfl)
    | ipv6prefixes => exact map_inside some (decodeOctets_inside hagree hprefix)
    | other => exact ⟨rfl, _, rfl⟩
  obtain ⟨heq, r, hr⟩ := hsame
  rw [heq, pairOf, hr]
  rfl

def values (e : Attr) : List (ℕ × Bytes) :=
  match entered e with
  | none => [(e.tag.toNat, e.body)]
  | some vendorcode =>
      if vendorcode = vendorpecUsr then
        [(vendorAttribute vendorcode (ofBytes ((e.body.drop 4).take 4)), e.body.drop 8)]
      else (readPrefix 1 (e.body.drop 4)).map fun s => (vendorAttribute vendorcode s.tag.toNat, s.body)

def UsrTooShort (e : Attr) : Prop := entered e = some vendorpecUsr ∧ e.body.length = 7

lemma decodeEntries_single (dict : Dict) {attr ptr : ℕ} {mem : Stack} {body : Bytes}
    (h : Shows mem ptr body) (hinside : Inside dict k.original attr body) :
    decodeEntries dict k mem [⟨attr, ptr, body.length⟩] =
      some ([(attr, body)].filterMap fun x => pairOf dict k x.1 x.2) := by
  rw [decodeEntries, decodePair_inside dict h hinside]
  simp only [decodeEntries, Option.bind_some, Option.map_some, List.append_nil]
  cases hpair : pairOf dict k attr body <;> simp [hpair]

lemma decodeEntries_of_append (dict : Dict) {mem : Stack} {xs ys : List Entry} {vs ws : List (ℕ × Bytes)}
    (hxs : decodeEntries dict k mem xs = some (vs.filterMap fun x => pairOf dict k x.1 x.2))
    (hys : decodeEntries dict k mem ys = some (ws.filterMap fun x => pairOf dict k x.1 x.2)) :
    decodeEntries dict k mem (xs ++ ys) =
      some ((vs ++ ws).filterMap fun x => pairOf dict k x.1 x.2) := by
  rw [decodeEntries_append, hxs, hys, List.filterMap_append]
  rfl

lemma decodeEntries_subs (dict : Dict) {mem : Stack} {pos vendorcode : ℕ} (ss : List Attr)
    (h : Shows mem pos (encodeAll ss))
    (hinside : ∀ s ∈ ss, Inside dict k.original (vendorAttribute vendorcode s.tag.toNat) s.body) :
    decodeEntries dict k mem (subEntries vendorcode pos ss) =
      some ((ss.map fun s => (vendorAttribute vendorcode s.tag.toNat, s.body)).filterMap
        fun x => pairOf dict k x.1 x.2) := by
  induction ss generalizing pos with
  | nil => rfl
  | cons s ss ih =>
    obtain ⟨hs, hss⟩ := List.forall_mem_cons.mp hinside
    rw [encodeAll_cons] at h
    obtain ⟨-, -, hbody, hrest⟩ := h.attr
    exact decodeEntries_of_append dict (decodeEntries_single dict hbody hs) (ih hrest hss)

lemma entered_eq_some {e : Attr} {vendor : ℕ} (h : entered e = some vendor) :
    e.tag = pwVendorSpecific ∧ 6 < e.body.length ∧ ofBytes (e.body.take 4) = vendor := by
  unfold entered at h
  split_ifs at h with hcond
  exact ⟨hcond.1, hcond.2.1, Option.some.inj h⟩

lemma decodeEntries_attr (dict : Dict) {mem : Stack} {pos : ℕ} {e : Attr} (h : Shows mem pos (encode e))
    (hvalid : Valid e) (husr : ¬ UsrTooShort e)
    (hinside : ∀ x ∈ values e, Inside dict k.original x.1 x.2) :
    decodeEntries dict k mem (entriesOf mem pos e) =
      some ((values e).filterMap fun x => pairOf dict k x.1 x.2) := by
  have hattr : Shows mem pos (encode e ++ []) := by rwa [List.append_nil]
  unfold entriesOf
  unfold values at hinside ⊢
  cases hentered : entered e with
  | none =>
    rw [hentered] at hinside
    exact decodeEntries_single dict hattr.attr.2.2.1 (hinside _ (List.mem_singleton.mpr rfl))
  | some vendor =>
    obtain ⟨htag, hlong, rfl⟩ := entered_eq_some hentered
    have hshows := shows_vendor hattr (by omega)
    rw [List.append_nil] at hshows
    rw [hentered] at hinside
    dsimp only at hinside ⊢
    by_cases hcode : ofBytes (e.body.take 4) = vendorpecUsr
    · have hseven : e.body.length ≠ 7 := fun h => husr ⟨by rw [hentered, hcode], h⟩
      have hcut : Shows mem (pos + 6) ((e.body.drop 4).take 4 ++ e.body.drop 8) := by
        rw [← List.take_append_drop 4 (e.body.drop 4), List.drop_drop] at hshows
        exact hshows
      have hfour : ((e.body.drop 4).take 4).length = 4 := by
        rw [List.length_take, List.length_drop]
        omega
      have hright := hcut.right
      have hnumber := hcut.left.vendorcode hfour.ge
      rw [List.take_of_length_le hfour.le] at hnumber
      rw [hfour] at hright
      have hlen : ((e.body.drop 8).length : ℤ) = (e.body.length : ℤ) - 8 := by
        rw [List.length_drop]
        omega
      rw [if_pos hcode] at hinside ⊢
      rw [if_pos hcode, ← hlen, hnumber]
      exact decodeEntries_single dict hright (hinside _ (List.mem_singleton.mpr rfl))
    · obtain ⟨-, hsubs⟩ := hvalid.vendor htag
      rw [if_neg hcode] at hsubs hinside ⊢
      obtain ⟨ss, hss⟩ := hsubs
      rw [hss] at hshows hinside ⊢
      rw [readPrefix_encodeAll] at hinside ⊢
      rw [if_neg hcode]
      refine decodeEntries_subs dict ss hshows fun s hs => ?_
      exact hinside _ (List.mem_map_of_mem hs)

lemma decodeEntries_eq (dict : Dict) {mem : Stack} {pos : ℕ} {es : List Attr}
    (h : Shows mem pos (encodeAll es)) (hvalid : ∀ e ∈ es, Valid e) (husr : ∀ e ∈ es, ¬ UsrTooShort e)
    (hinside : ∀ e ∈ es, ∀ x ∈ values e, Inside dict k.original x.1 x.2) :
    decodeEntries dict k mem (entries mem pos es) =
      some ((es.flatMap values).filterMap fun x => pairOf dict k x.1 x.2) := by
  induction es generalizing pos with
  | nil => rfl
  | cons e es ih =>
    rw [encodeAll_cons] at h
    rw [entries, List.flatMap_cons]
    obtain ⟨he, hes⟩ := List.forall_mem_cons.mp hvalid
    obtain ⟨hu, hus⟩ := List.forall_mem_cons.mp husr
    obtain ⟨hi, his⟩ := List.forall_mem_cons.mp hinside
    exact decodeEntries_of_append dict (decodeEntries_attr dict h.left he hu hi)
      (ih h.attr.2.2.2 hes hus his)

end Values

section Results
variable (dict : Dict) (d : Digest) (secret : Bytes) (heap : Stack) {p : Packet}
  {original : Option RadiusPacket}

/-- The pairs of a packet that is signed are those of its values, one by one and in their order, when every
value can be read alone. What is behind the packet makes no difference then. -/
theorem radDecode_of_inside (hvalid : ∀ e ∈ p.attrs, Valid e)
    (horiginal : ∀ o, original = some o → o.vector.length = authVectorLen)
    (hsigned : Signed d secret original p) (husr : ∀ e ∈ p.attrs, ¬ UsrTooShort e)
    (hinside : ∀ e ∈ p.attrs, ∀ x ∈ values e, Inside dict (original.map RadiusPacket.vector) x.1 x.2) :
    radDecode dict d secret heap (received p) original = some
      { rc := 0
        data := (checkedData p).wire p.size
        vps := (p.attrs.flatMap values).filterMap fun x =>
          pairOf dict (keysOf d secret p original) x.1 x.2
        macs := macsOf d secret original p } := by
  rw [(radDecode_eq dict d secret heap hvalid horiginal).1 hsigned,
    decodeEntries_eq dict (shows_memoryOf p heap) hvalid husr hinside]
  rfl

def stringDict : Dict := ⟨fun _ => some ⟨"Reply-Message", .string, ⟨false, 0, .none⟩⟩, fun _ _ => none⟩

def challengePacket : Packet := (emptyPacket pwAccessChallenge 7).add (attr 18 [65] (by decide))

theorem challenge_decoded : ∃ r, radDecode stringDict zeroDigest [] (fun _ => 0) (received challengePacket)
    none = some r ∧ r.vps = [⟨"Reply-Message", 18, .string, 1, 0, 65 :: List.replicate 253 0,
      ⟨false, 0, .none⟩⟩] := by
  have hattrs : ∀ e ∈ challengePacket.attrs, e = attr 18 [65] (by decide) :=
    fun e he => List.mem_singleton.mp he
  refine ⟨_, radDecode_of_inside stringDict zeroDigest [] _ (fun e he => ?_) (fun _ ho => by cases ho)
    ⟨by decide, by decide⟩ (fun e he hshort => ?_) fun e he x hx => ?_, rfl⟩
  · rw [hattrs e he]
    exact ⟨by decide, by decide, fun htag => absurd htag (by decide)⟩
  · rw [hattrs e he] at hshort
    cases hshort.1
  · rw [hattrs e he] at hx
    obtain rfl := List.mem_singleton.mp hx
    refine ⟨by decide, fun _ hreads => ?_, fun _ hsecret => absurd hsecret (by decide)⟩
    rcases hreads with hsecret | ⟨htunnel, -⟩
    · exact absurd hsecret (by decide)
    · exact absurd htunnel (by decide)

lemma rc_of_signed (hvalid : ∀ e ∈ p.attrs, Valid e)
    (horiginal : ∀ o, original = some o → o.vector.length = authVectorLen)
    (hsigned : Signed d secret original p) {r : Decoded}
    (hr : radDecode dict d secret heap (received p) original = some r) : r.rc = 0 := by
  rw [(radDecode_eq dict d secret heap hvalid horiginal).1 hsigned] at hr
  obtain ⟨vps, -, rfl⟩ := Option.map_eq_some_iff.mp hr
  rfl

/-- An Accounting-Request that was finished by `radius_msg_finish_acct` is not refused. -/
lemma rc_of_finishAcct {m : RadiusMsg} {len : ℕ} (h : m.Carries p len)
    (hcode : p.code = pwAccountingRequest) (hvalid : ∀ e ∈ p.attrs, Valid e)
    (horiginal : ∀ o, original = some o → o.vector.length = authVectorLen) {r : Decoded}
    (hr : radDecode dict d secret heap ⟨p.code, p.identifier,
      authenticatorOf (radiusMsgFinishAcct d m secret),
      usedBytes (radiusMsgFinishAcct d m secret)⟩ original = some r) : r.rc = 0 := by
  have hfinish := finishAcct_carries d secret h
  rw [authenticatorOf_carries hfinish, usedBytes_of_carries hfinish] at hr
  have hvalid' : ∀ e ∈ (accounted d secret p).attrs, Valid e := hvalid
  exact rc_of_signed dict d secret heap hvalid' horiginal (signed_accounted d secret original hcode) hr

/-- A packet is refused exactly when it is not signed. The Message-Authenticator makes no difference, and
nothing is refused of what has another code. -/
theorem decode_refused_iff (hvalid : ∀ e ∈ p.attrs, Valid e)
    (horiginal : ∀ o, original = some o → o.vector.length = authVectorLen) :
    (∃ r, radDecode dict d secret heap (received p) original = some r ∧ r.rc ≠ 0) ↔
      ¬ Signed d secret original p := by
  constructor
  · rintro ⟨r, hr, hrc⟩ hsigned
    exact hrc (rc_of_signed dict d secret heap hvalid horiginal hsigned hr)
  · intro hsigned
    exact ⟨_, (radDecode_eq dict d secret heap hvalid horiginal).2 hsigned, Int.one_ne_zero⟩

/-- An Access-Accept to no request. -/
theorem unasked_accept_refused : ∃ r, radDecode stringDict zeroDigest [] (fun _ => 0)
    (received textAccept) none = some r ∧ r.rc ≠ 0 := by
  refine (decode_refused_iff stringDict zeroDigest [] _ (fun e he => ?_)
    (fun _ ho => by cases ho)).mpr fun hsigned => ?_
  · rcases (List.mem_pair.mp he : e = attr 18 [72, 105] _ ∨ e = attr 80 (List.replicate 16 0) _) with rfl | rfl
    · exact ⟨by decide, by decide, fun htag => absurd htag (by decide)⟩
    · exact ⟨by decide, by decide, fun htag => absurd htag (by decide)⟩
  obtain ⟨o, ho, -⟩ := hsigned.answer (.inl rfl)
  cases ho

end Results

/-- There is no pair to be made of a value: a negative number of octets would be copied, or the vector of
an original that is not there would be read. -/
def Faulty (dict : Dict) (original : Option Bytes) (value : Stack) (attr : ℕ) (attrlen : ℤ) : Prop :=
  (entryOf dict attr).type ≠ .other ∧ attrlen < 0 ∨
  ((entryOf dict attr).flags.hasTag = true ∧ (entryOf dict attr).type = .string) ∧
    (tagValid (value 0) ∨ (entryOf dict attr).flags.encrypt = .tunnelPassword) ∧ attrlen < 1 ∨
  (entryOf dict attr).type ∈ textTypes ∧
    ReadsVector (encryptOf (entryOf dict attr).name attr (entryOf dict attr).flags.encrypt)
      ((entryOf dict attr).flags.hasTag = true ∧ (entryOf dict attr).type = .string) attrlen ∧
    original = none

section Faults
variable {k : Keys} {value : Stack}

lemma copied_eq_none_iff {m : ℤ} : copied value m = none ↔ m < 0 := by
  unfold copied
  split_ifs with h <;> simp [h]

lemma decrypt_eq_none_iff {pair : ValuePair} : decrypt k value pair = none ↔
    (pair.flags.encrypt = .ascendSecret ∨ pair.flags.encrypt = .tunnelPassword ∧ 3 ≤ pair.length) ∧
      k.original = none := by
  unfold decrypt
  split
  case h_3 hencrypt => split_ifs with hshort <;> simp [hencrypt, hshort, Int.not_lt.mp]
  all_goals simp [*]

lemma decodeText_eq_none_iff {pair : ValuePair} {attrlen : ℤ} : decodeText k value attrlen pair = none ↔
    attrlen < 0 ∨
    (pair.flags.hasTag = true ∧ pair.type = .string) ∧
      (tagValid (value 0) ∨ pair.flags.encrypt = .tunnelPassword) ∧ attrlen < 1 ∨
    ReadsVector (encryptOf pair.name pair.attr pair.flags.encrypt)
      (pair.flags.hasTag = true ∧ pair.type = .string) attrlen ∧ k.original = none := by
  have hat : ∀ (offset : ℕ) (tag : UInt8),
      (copied (fun i => value (offset + i)) (attrlen - offset)).bind (fun strvalue =>
        decrypt k value { pair with
          strvalue := strvalue
          length := attrlen - offset
          flags := { pair.flags with
            tag := tag
            encrypt := encryptOf pair.name pair.attr pair.flags.encrypt } }) = none ↔
        attrlen < offset ∨ (encryptOf pair.name pair.attr pair.flags.encrypt = .ascendSecret ∨
          encryptOf pair.name pair.attr pair.flags.encrypt = .tunnelPassword ∧
            3 ≤ attrlen - offset) ∧ k.original = none := by
    intro offset tag
    have hcopy : copied (fun i => value (offset + i)) (attrlen - offset) = none ↔ _ := copied_eq_none_iff
    rw [sub_neg] at hcopy
    rw [← hcopy]
    cases copied (fun i => value (offset + i)) (attrlen - offset) with
    | none => simp
    | some strvalue => simp [decrypt_eq_none_iff]
  unfold decodeText
  dsimp only
  rw [hat, readsVector_iff]
  by_cases hone : (pair.flags.hasTag = true ∧ pair.type = .string) ∧
      (tagValid (value 0) ∨ pair.flags.encrypt = .tunnelPassword)
  · rw [if_pos hone, ← and_assoc, and_iff_right hone, ← or_assoc]
    refine or_congr_left ?_
    omega
  · rw [if_neg hone, Nat.cast_zero, or_congr_right (or_iff_right fun h => hone ⟨h.1, h.2.1⟩)]

lemma decodeNumber_eq_none_iff (dict : Dict) {pair : ValuePair} {attrlen : ℤ} {type : PwType} :
    decodeNumber dict value attrlen type pair = none ↔ attrlen < 0 := by
  unfold decodeNumber
  split_ifs with hfour
  · rw [Option.map_eq_none_iff, copied_eq_none_iff]
  · simp only [false_iff]
    omega

lemma decodePair_eq_none_iff (dict : Dict) {attr : ℕ} {attrlen : ℤ} :
    decodePair dict k value attr attrlen = none ↔ Faulty dict k.original value attr attrlen := by
  unfold decodePair Faulty
  generalize entryOf dict attr = entry
  obtain ⟨name, type, flags⟩ := entry
  cases type with
  | string | abinary | octets =>
    simp only [Option.map_eq_none_iff, decodeText_eq_none_iff]
    simp [textTypes]
  | integer | date | ipaddr =>
    simp only [Option.map_eq_none_iff, decodeNumber_eq_none_iff]
    simp [textTypes]
  | ifid | ipv6addr | ipv6prefixes =>
    simp only [Option.map_eq_none_iff, decodeOctets, copied_eq_none_iff]
    simp [textTypes]
  | other => simp [textTypes]

lemma decodeEntries_eq_none_iff (dict : Dict) {mem : Stack} {xs : List Entry} :
    decodeEntries dict k mem xs = none ↔
      ∃ x ∈ xs, Faulty dict k.original (fun i => mem (x.ptr + i)) x.attr x.attrlen := by
  induction xs with
  | nil => simp [decodeEntries]
  | cons x xs ih =>
    rw [List.exists_mem_cons_iff, ← ih, ← decodePair_eq_none_iff, decodeEntries]
    cases decodePair dict k (fun i => mem (x.ptr + i)) x.attr x.attrlen with
    | none => simp
    | some pair => simp

end Faults

/-- `rad_decode` of a packet that `rad_recv` lets through is undefined exactly when the packet is signed
and there is a value that no pair can be made of. -/
theorem decode_undefined_iff (dict : Dict) (d : Digest) (secret : Bytes) (heap : Stack) {p : Packet}
    {original : Option RadiusPacket} (hvalid : ∀ e ∈ p.attrs, Valid e)
    (horiginal : ∀ o, original = some o → o.vector.length = authVectorLen) :
    radDecode dict d secret heap (received p) original = none ↔
      Signed d secret original p ∧ ∃ x ∈ entries (memoryOf p heap) authHdrLen p.attrs,
        Faulty dict (original.map RadiusPacket.vector) (fun i => memoryOf p heap (x.ptr + i)) x.attr
          x.attrlen := by
  obtain ⟨hyes, hno⟩ := radDecode_eq dict d secret heap hvalid horiginal
  by_cases hsigned : Signed d secret original p
  · rw [hyes hsigned, Option.map_eq_none_iff, decodeEntries_eq_none_iff, and_iff_right hsigned]
    rfl
  · rw [hno hsigned]
    simp [hsigned]

def tunnelDict : Dict :=
  ⟨fun _ => some ⟨"Tunnel-Password", .string, ⟨true, 0, .tunnelPassword⟩⟩, fun _ _ => none⟩

def tunnelRequest : Packet := (emptyPacket 1 7).add (attr 69 [1, 128, 0, 65] (by decide))

theorem tunnel_request_undefined :
    radDecode tunnelDict zeroDigest [] (fun _ => 0) (received tunnelRequest) none = none := by
  refine (decode_undefined_iff tunnelDict zeroDigest [] _ (fun e he => ?_)
    (fun _ ho => by cases ho)).mpr ⟨⟨by decide, by decide⟩, ⟨69, 22, 4⟩, ?_, ?_⟩
  · obtain rfl := List.mem_singleton.mp he
    exact ⟨by decide, by decide, fun htag => absurd htag (by decide)⟩
  · exact List.mem_singleton.mpr rfl
  · exact .inr (.inr ⟨by decide, .inr ⟨by decide, .inl (by decide)⟩, rfl⟩)

end LdapTgen.RadValues
