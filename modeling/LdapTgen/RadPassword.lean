import LdapTgen.MppeKeys

/-! The passwords of the library: they are hidden and read in the `strvalue` of the pair that holds them,
in place. The buffers of the digests hold a secret of 255 octets; for a longer one the functions are not
defined, and the results below say nothing. -/
namespace LdapTgen.RadPassword
open ChainedBlocks MppeKeys RadiusAuthenticators RadiusMessage

def authPassLen : ℕ := 16

/-- `passwd[o + i] ^= key[i]` for the octets of the key. -/
def xorAt (passwd : Bytes) (o : ℕ) (key : Bytes) : Bytes :=
  memcpy passwd o (List.zipWith xorByte ((passwd.drop o).take key.length) key)

def block (passwd : Bytes) (o : ℕ) : Bytes := (passwd.drop o).take authPassLen

/-- The loop for the blocks behind the first one. It goes on for one block behind the password. -/
def encodeLoop (d : Digest) (secret : Bytes) (len : ℕ) (passwd : Bytes) (n : ℕ) : Bytes :=
  if n < 128 ∧ n + authPassLen ≤ len then
    encodeLoop d secret len
      (xorAt passwd (n + authPassLen) (blockDigest d secret (block passwd n))) (n + authPassLen)
  else passwd
termination_by 128 - n
decreasing_by
  simp only [authPassLen]
  omega

def radPwencode (d : Digest) (secret vector passwd : Bytes) (pwlen : ℕ) : Bytes × ℕ :=
  let len := if 128 < pwlen then 128 else pwlen
  let pad := if len % authPassLen ≠ 0 then authPassLen - len % authPassLen else 0
  let passwd := memcpy passwd len (List.replicate pad 0)
  let len := len + pad
  let passwd := xorAt passwd 0 (blockDigest d secret vector)
  if len ≤ authPassLen then (passwd, len) else (encodeLoop d secret len passwd 0, len)

/-- The loop from the last block back; `r` is what was received as the first one. -/
def decodeLoop (d : Digest) (secret r : Bytes) (pwlen : ℕ) : ℕ → Bytes → Bytes
  | 0, passwd => passwd
  | k + 1, passwd =>
      let n := (k + 1) * authPassLen
      let s := if k = 0 then r else block passwd (n - authPassLen)
      decodeLoop d secret r pwlen k (xorAt passwd n ((blockDigest d secret s).take (pwlen - n)))

def radPwdecode (d : Digest) (secret vector passwd : Bytes) (pwlen : ℕ) : Bytes :=
  let r := block passwd 0
  let passwd := xorAt passwd 0 ((blockDigest d secret vector).take pwlen)
  if pwlen ≤ authPassLen then memcpy passwd (pwlen + 1) [0]
  else memcpy (decodeLoop d secret r pwlen ((pwlen - 1) / authPassLen) passwd) pwlen [0]

/-- The salt: `offset` counts the passwords, the other two come from the generator. -/
def tunnelSalt (offset rand₀ rand₁ : ℕ) : Bytes :=
  [UInt8.ofNat (0x80 ||| (offset &&& 0x0f) <<< 3 ||| (rand₀ &&& 0x07)), UInt8.ofNat rand₁]

/-- The loop over the blocks from the first one on, which has a key of its own. -/
def tunnelEncodeLoop (d : Digest) (secret key : Bytes) (len : ℕ) (passwd : Bytes) (n : ℕ) : Bytes :=
  if n < len then
    let digest := if n = 0 then key else blockDigest d secret (block passwd (n - authPassLen))
    tunnelEncodeLoop d secret key len (xorAt passwd n digest) (n + authPassLen)
  else passwd
termination_by len - n
decreasing_by
  simp only [authPassLen]
  omega

def radTunnelPwencode (d : Digest) (secret vector strvalue : Bytes) (pwlen offset rand₀ rand₁ : ℕ) :
    Bytes × ℕ :=
  let len := if 127 < pwlen then 127 else pwlen
  let strvalue := memcpy strvalue 3 (strvalue.take (len + 1))
  let passwd := memcpy (strvalue.drop 2) 0 [UInt8.ofNat len]
  let len := len + 1
  let salt := tunnelSalt offset rand₀ rand₁
  let n := len % authPassLen
  let pad := if n ≠ 0 then authPassLen - n else 0
  let passwd := memcpy passwd len (List.replicate pad 0)
  let len := len + pad
  let passwd := tunnelEncodeLoop d secret (blockDigest d secret (vector ++ salt)) len passwd 0
  (salt ++ memcpy passwd len [0], len + 2)

def tunnelDecodeLoop (d : Digest) (secret key : Bytes) (len : ℕ) : ℕ → Bytes → Bytes
  | 0, passwd => xorAt passwd 0 (key.take len)
  | ntimes + 1, passwd =>
      let n := (ntimes + 1) * authPassLen
      let digest := blockDigest d secret (block passwd (authPassLen * ntimes))
      tunnelDecodeLoop d secret key len ntimes (xorAt passwd n (digest.take (len - n)))

def signedChar (c : UInt8) : ℤ := if c < 128 then c.toNat else c.toNat - 256

def radTunnelPwdecode (d : Digest) (secret vector strvalue : Bytes) (pwlen : ℕ) : Bytes × ℤ :=
  if pwlen < 3 then (strvalue, pwlen)
  else
    let salt := strvalue.take 2
    let passwd := strvalue.drop 2
    let len := pwlen - 2
    let passwd := tunnelDecodeLoop d secret (blockDigest d secret (vector ++ salt)) len
      ((len - 1) / authPassLen) passwd
    let passwd := memcpy passwd len [0]
    if len ≤ (passwd.getD 0 0).toNat then (salt ++ memcpy passwd 0 [0, 0], 2)
    else (salt ++ passwd, signedChar (passwd.getD 0 0))

def makeSecret (d : Digest) (secret vector value : Bytes) : Bytes :=
  List.zipWith xorByte (d.md5 (vector ++ secret)) (value.take authPassLen)

def cString (bs : Bytes) : Bytes := bs.takeWhile (· ≠ 0)

lemma xorAt_append {a b c key : Bytes} (hb : b.length = key.length) :
    xorAt (a ++ b ++ c) a.length key = a ++ List.zipWith xorByte b key ++ c := by
  have hdrop : (a ++ b ++ c).drop a.length = b ++ c := by
    rw [List.append_assoc, List.drop_left]
  have hzip : (List.zipWith xorByte b key).length = b.length := by
    rw [List.length_zipWith, hb, Nat.min_self]
  rw [xorAt, hdrop, List.take_left' hb, memcpy_mid a c hzip.symm]

lemma xorAt_zero {b key : Bytes} (c : Bytes) (hb : b.length = key.length) :
    xorAt (b ++ c) 0 key = List.zipWith xorByte b key ++ c :=
  xorAt_append (a := []) hb

lemma exists_split {l : Bytes} {n : ℕ} (h : n ≤ l.length) : ∃ a b, l = a ++ b ∧ a.length = n :=
  ⟨l.take n, l.drop n, (List.take_append_drop n l).symm, List.length_take_of_le h⟩

section Blocks
variable (d : Digest) (secret : Bytes) {key b l m : Bytes}

/-- The octets hidden in blocks of sixteen, the first one with the key. -/
def hidden (key l : Bytes) : Bytes := hide xorByte (blockDigest d secret) authPassLen key l

def revealed (key l : Bytes) : Bytes := unhide xorByte (blockDigest d secret) authPassLen key l

def keyAfter (key l : Bytes) : Bytes := nextKey (blockDigest d secret) authPassLen key l

lemma length_key (c : Bytes) : (blockDigest d secret c).length = authPassLen := length_blockDigest d secret c

lemma length_zip (hb : b.length = authPassLen) (hkey : key.length = authPassLen) :
    (List.zipWith xorByte b key).length = authPassLen := by
  rw [List.length_zipWith, hb, hkey, Nat.min_self]

lemma length_hidden (hkey : key.length = authPassLen) (l : Bytes) :
    (hidden d secret key l).length = l.length :=
  length_hide (length_key d secret) (by decide) hkey l

lemma length_revealed (hkey : key.length = authPassLen) (l : Bytes) :
    (revealed d secret key l).length = l.length :=
  length_unhide (length_key d secret) (by decide) hkey l

lemma length_keyAfter (hkey : key.length = authPassLen) (l : Bytes) :
    (keyAfter d secret key l).length = authPassLen :=
  length_nextKey (length_key d secret) hkey l

lemma hidden_nil (key : Bytes) : hidden d secret key [] = [] := hide_nil ..

lemma keyAfter_nil (key : Bytes) : keyAfter d secret key [] = key := nextKey_nil ..

lemma keyAfter_append (key l : Bytes) (hb : b.length = authPassLen) :
    keyAfter d secret key (l ++ b) = blockDigest d secret b := by
  have hne : l ++ b ≠ [] := List.append_ne_nil_of_right_ne_nil l (List.ne_nil_of_length_pos (hb ▸ by decide))
  rw [keyAfter, nextKey, if_neg hne, List.length_append, hb, Nat.add_sub_cancel, List.drop_left]

lemma hidden_block (hb : b.length = authPassLen) (l : Bytes) : hidden d secret key (b ++ l) =
    List.zipWith xorByte b key ++ hidden d secret (blockDigest d secret (List.zipWith xorByte b key)) l :=
  hide_block (by decide) hb l

lemma revealed_last (hl : l.length ≤ authPassLen) :
    revealed d secret key l = List.zipWith xorByte l key :=
  unhide_last (by decide) hl

lemma revealed_append (hm : authPassLen ∣ m.length) (l : Bytes) : revealed d secret key (m ++ l) =
    revealed d secret key m ++ revealed d secret (keyAfter d secret key m) l :=
  unhide_append (by decide) hm l

lemma revealed_hidden (hkey : key.length = authPassLen) (l : Bytes) :
    revealed d secret key (hidden d secret key l) = l :=
  unhide_hide (length_key d secret) xorByte_xorByte (by decide) hkey l

end Blocks

section Encode
variable (d : Digest) (secret : Bytes)

lemma encodeLoop_eq {len : ℕ} (hlen : len ≤ 128) (k : ℕ) (done c l rest : Bytes)
    (hc : c.length = authPassLen) (hn : done.length + k * authPassLen = len)
    (hl : l.length = k * authPassLen) :
    encodeLoop d secret len (done ++ c ++ l ++ rest) done.length =
      done ++ c ++ hidden d secret (blockDigest d secret c) l ++ rest := by
  have hsixteen : authPassLen = 16 := rfl
  induction k generalizing done c l with
  | zero =>
    obtain rfl : l = [] := List.length_eq_zero_iff.mp (by simpa using hl)
    rw [encodeLoop, if_neg (by omega), hidden_nil]
  | succ k ih =>
    rw [Nat.succ_mul] at hn hl
    obtain ⟨b, l, rfl, hb⟩ := exists_split (show authPassLen ≤ l.length by omega)
    rw [List.length_append] at hl
    have hkey := length_key d secret c
    have hblock : block (done ++ c ++ (b ++ l) ++ rest) done.length = c := by
      rw [block, List.append_assoc, List.append_assoc, List.drop_left, List.take_left' hc]
    have hxor := xorAt_append (a := done ++ c) (b := b) (c := l ++ rest) (hb.trans hkey.symm)
    have hstep := ih (done ++ c) (List.zipWith xorByte b (blockDigest d secret c)) l
      (length_zip hb hkey) (by rw [List.length_append]; omega) (by omega)
    rw [List.length_append, hc] at hxor hstep
    rw [encodeLoop, if_pos (by omega), hblock, hidden_block d secret hb]
    simp only [List.append_assoc] at hxor hstep ⊢
    rw [hxor, hstep]

lemma pad_eq (n : ℕ) : (if n % authPassLen ≠ 0 then authPassLen - n % authPassLen else 0) =
    (authPassLen - n % authPassLen) % authPassLen := by
  by_cases hzero : n % authPassLen = 0
  · rw [if_neg (not_not.mpr hzero), hzero, Nat.sub_zero, Nat.mod_self]
  · rw [if_pos hzero, Nat.mod_eq_of_lt (Nat.sub_lt (by decide) (Nat.pos_of_ne_zero hzero))]

lemma clipped_eq (n : ℕ) (pw : Bytes) : (if n < pw.length then n else pw.length) = (pw.take n).length := by
  rw [List.length_take]
  split_ifs <;> omega

lemma take_clipped (n : ℕ) (pw room : Bytes) : (pw ++ room).take (pw.take n).length = pw.take n := by
  rw [List.length_take, List.take_append_of_le_length (Nat.min_le_right _ _), ← List.take_eq_take_min]

/-- The password as it is hidden: its first 128 octets, filled up with zeros. -/
def padded (pw : Bytes) : Bytes :=
  let text := pw.take 128
  text ++ List.replicate ((authPassLen - text.length % authPassLen) % authPassLen) 0

lemma length_padded (pw : Bytes) : authPassLen ∣ (padded pw).length ∧ (padded pw).length ≤ 128 := by
  have hle : (pw.take 128).length ≤ 128 := List.length_take_le _ _
  simp only [padded, List.length_append, List.length_replicate, authPassLen]
  omega

lemma memcpy_padded {pw room : Bytes} (hroom : 144 ≤ (pw ++ room).length) :
    ∃ rest, 16 ≤ rest.length ∧
      memcpy (pw ++ room) (pw.take 128).length (List.replicate
        ((authPassLen - (pw.take 128).length % authPassLen) % authPassLen) 0) = padded pw ++ rest ∧
      (pw.take 128).length + (authPassLen - (pw.take 128).length % authPassLen) % authPassLen =
        (padded pw).length := by
  have hsame : (pw.take 128).length + (authPassLen - (pw.take 128).length % authPassLen) % authPassLen =
      (padded pw).length := by simp [padded]
  have hpadded := length_padded pw
  rw [memcpy, take_clipped, List.length_replicate, hsame]
  exact ⟨_, by rw [List.length_drop]; omega, rfl, rfl⟩

lemma pwencode_eq (vector : Bytes) {pw room : Bytes} (hroom : 144 ≤ (pw ++ room).length) :
    (radPwencode d secret vector (pw ++ room) pw.length).2 = (padded pw).length ∧
      (radPwencode d secret vector (pw ++ room) pw.length).1.take (padded pw).length =
        hidden d secret (blockDigest d secret vector) (padded pw) := by
  have hsixteen : authPassLen = 16 := rfl
  obtain ⟨rest, hrest, hcopy, hlen⟩ := memcpy_padded hroom
  obtain ⟨hdvd, hle⟩ := length_padded pw
  have hkey := length_key d secret vector
  simp only [radPwencode, clipped_eq, pad_eq, hcopy, hlen]
  generalize padded pw = text at hdvd hle
  rcases Nat.eq_zero_or_pos text.length with hzero | hpos
  · rw [List.length_eq_zero_iff.mp hzero, hidden_nil]
    exact ⟨rfl, rfl⟩
  obtain ⟨c, tail, rfl, hc⟩ := exists_split (Nat.le_of_dvd hpos hdvd)
  obtain ⟨x, rest, rfl, hx⟩ := exists_split hrest
  have hzip := length_zip hc hkey
  rw [List.append_assoc, xorAt_zero _ (hc.trans hkey.symm), hidden_block d secret hc]
  have hwhole : (List.zipWith xorByte c (blockDigest d secret vector) ++ hidden d secret (blockDigest d secret
      (List.zipWith xorByte c (blockDigest d secret vector))) tail).length = (c ++ tail).length := by
    rw [List.length_append, hzip, length_hidden d secret (length_key ..), List.length_append, hc]
  rw [List.length_append] at hdvd hle
  split_ifs with hshort
  · obtain rfl : tail = [] := by
      rw [List.length_append] at hshort
      exact List.length_eq_zero_iff.mp (by omega)
    refine ⟨rfl, ?_⟩
    simp only [hidden_nil, List.append_nil, List.nil_append] at hwhole ⊢
    rw [List.take_left' hwhole]
  · obtain ⟨k, hk⟩ := hdvd
    rw [Nat.mul_comm] at hk
    have htail : authPassLen ∣ tail.length := by
      rw [hsixteen] at hk hc ⊢
      omega
    have hloop := encodeLoop_eq d secret hle k [] _ (tail ++ x) rest hzip
      (by rw [List.length_nil]; omega) (by rw [List.length_append]; omega)
    rw [hidden, hide_append (length_key d secret) (by decide) (length_key ..) htail, ← hidden] at hloop
    simp only [List.nil_append, List.length_nil, List.append_assoc] at hloop
    rw [← List.length_append] at hloop
    refine ⟨rfl, ?_⟩
    rw [hloop, ← List.append_assoc, List.take_left' hwhole]

end Encode

section Decode
variable (d : Digest) (secret r : Bytes) {pwlen : ℕ}

lemma zipWith_take {last key : Bytes} {n : ℕ} (h : last.length ≤ n) :
    List.zipWith xorByte last (key.take n) = List.zipWith xorByte last key := by
  induction last generalizing key n with
  | nil => rfl
  | cons x last ih =>
    cases key with
    | nil => rw [List.take_nil]
    | cons y key =>
      cases n with
      | zero => simp at h
      | succ n =>
        rw [List.take_succ_cons, List.zipWith_cons_cons, List.zipWith_cons_cons, ih (by simpa using h)]

/-- The last block that is not read yet: the one before it is still hidden, but the first one is not. -/
lemma decodeLoop_succ (k : ℕ) {first mid last : Bytes} (tail : Bytes) (hfirst : first.length = authPassLen)
    (hmid : mid.length = k * authPassLen)
    (hlast : last.length = min (pwlen - (k + 1) * authPassLen) authPassLen) :
    decodeLoop d secret r pwlen (k + 1) (first ++ mid ++ last ++ tail) =
      decodeLoop d secret r pwlen k (first ++ mid ++ List.zipWith xorByte last
        (keyAfter d secret (blockDigest d secret r) mid) ++ tail) := by
  have hkey : blockDigest d secret (if k = 0 then r else
      block (first ++ mid ++ last ++ tail) ((k + 1) * authPassLen - authPassLen)) =
      keyAfter d secret (blockDigest d secret r) mid := by
    cases k with
    | zero =>
      obtain rfl : mid = [] := List.length_eq_zero_iff.mp (by simpa using hmid)
      rw [if_pos rfl, keyAfter_nil]
    | succ k =>
      rw [Nat.succ_mul] at hmid
      obtain ⟨mid, b, rfl, hm⟩ := exists_split (show k * authPassLen ≤ mid.length by omega)
      rw [List.length_append] at hmid
      have hat : (first ++ mid).length = (k + 1 + 1) * authPassLen - authPassLen := by
        rw [List.length_append, Nat.succ_mul, Nat.succ_mul]
        omega
      rw [if_neg (Nat.succ_ne_zero k), keyAfter_append d secret _ _ (by omega), block, ← hat,
        ← List.append_assoc first, List.append_assoc _ last, List.append_assoc _ b, List.drop_left,
        List.take_left' (by omega)]
  have hat : (first ++ mid).length = (k + 1) * authPassLen := by
    rw [List.length_append, Nat.succ_mul]
    omega
  have hlength : ((keyAfter d secret (blockDigest d secret r) mid).take
      (pwlen - (k + 1) * authPassLen)).length = last.length := by
    rw [List.length_take, length_keyAfter d secret (length_key d secret r), hlast]
  have hxor := xorAt_append (a := first ++ mid) (b := last) (c := tail) hlength.symm
  rw [hat, zipWith_take (by omega)] at hxor
  rw [decodeLoop, hkey, hxor]

lemma decodeLoop_eq (k : ℕ) {first mid : Bytes} (tail : Bytes) (hfirst : first.length = authPassLen)
    (hmid : mid.length = k * authPassLen) (hpwlen : (k + 1) * authPassLen ≤ pwlen) :
    decodeLoop d secret r pwlen k (first ++ mid ++ tail) =
      first ++ revealed d secret (blockDigest d secret r) mid ++ tail := by
  induction k generalizing mid tail with
  | zero =>
    obtain rfl : mid = [] := List.length_eq_zero_iff.mp (by simpa using hmid)
    rw [decodeLoop, revealed, unhide_nil]
  | succ k ih =>
    rw [Nat.succ_mul] at hmid hpwlen
    obtain ⟨mid, last, rfl, hm⟩ := exists_split (show k * authPassLen ≤ mid.length by omega)
    rw [List.length_append] at hmid
    rw [← List.append_assoc first, decodeLoop_succ d secret r k tail hfirst hm (by omega),
      List.append_assoc, ih _ hm (by omega), revealed_append d secret (Dvd.intro_left k hm.symm),
      revealed_last d secret (l := last) (by omega)]
    simp only [List.append_assoc]

lemma pwdecode_eq (vector text : Bytes) (z : UInt8) (rest : Bytes) :
    ∃ rest', radPwdecode d secret vector (text ++ z :: rest) text.length =
      revealed d secret (blockDigest d secret vector) text ++
        (if text.length ≤ authPassLen then z else 0) :: rest' := by
  have hsixteen : authPassLen = 16 := rfl
  have hkey := length_key d secret vector
  by_cases hshort : text.length ≤ authPassLen
  · have hzip : (List.zipWith xorByte text (blockDigest d secret vector) ++ [z]).length =
        text.length + 1 := by
      rw [List.length_append, List.length_zipWith, hkey]
      simpa using hshort
    refine ⟨0 :: rest.drop 1, ?_⟩
    rw [radPwdecode, xorAt_zero _ (by rw [List.length_take]; omega), zipWith_take le_rfl, if_pos hshort,
      if_pos hshort, revealed_last d secret hshort, List.append_cons, memcpy, List.take_left' hzip,
      ← List.drop_drop, List.drop_left' hzip]
    simp
  · obtain ⟨k, hk⟩ : ∃ k, (text.length - 1) / authPassLen = k + 1 :=
      Nat.exists_eq_add_one.mpr (Nat.div_pos (by omega) (by decide))
    have hlast : (k + 1) * authPassLen < text.length ∧
        text.length ≤ (k + 1) * authPassLen + authPassLen := by
      rw [hsixteen] at hk ⊢
      omega
    rw [Nat.succ_mul] at hlast
    have hlen := length_revealed d secret hkey text
    refine ⟨rest, ?_⟩
    rw [radPwdecode, if_neg hshort, if_neg hshort, hk]
    generalize hn : text.length = n at hlast hlen
    obtain ⟨first, text, rfl, hfirst⟩ := exists_split (show authPassLen ≤ text.length by omega)
    rw [List.length_append] at hn
    obtain ⟨mid, last, rfl, hmid⟩ := exists_split (show k * authPassLen ≤ text.length by omega)
    rw [List.length_append] at hn
    have hblock : block (first ++ (mid ++ last) ++ z :: rest) 0 = first := by
      rw [block, List.drop_zero, List.append_assoc, List.take_left' hfirst]
    have hplain := length_zip hfirst hkey
    have hread : revealed d secret (blockDigest d secret vector) (first ++ (mid ++ last)) =
        List.zipWith xorByte first (blockDigest d secret vector) ++
          revealed d secret (blockDigest d secret first) mid ++
          List.zipWith xorByte last (keyAfter d secret (blockDigest d secret first) mid) := by
      rw [revealed, unhide_block (by decide) hfirst, ← revealed,
        revealed_append d secret (Dvd.intro_left k hmid.symm),
        revealed_last d secret (l := last) (by omega), List.append_assoc]
    have hloop := decodeLoop_succ d secret first k (z :: rest) hplain hmid
      (show last.length = min (n - (k + 1) * authPassLen) authPassLen by rw [Nat.succ_mul]; omega)
    rw [List.append_assoc (_ ++ _) (List.zipWith ..),
      decodeLoop_eq d secret first k _ hplain hmid (by rw [Nat.succ_mul]; omega), ← List.append_assoc,
      ← hread] at hloop
    have hend := memcpy_mid (revealed d secret (blockDigest d secret vector) (first ++ (mid ++ last))) rest
      (show [z].length = [(0 : UInt8)].length from rfl)
    rw [hlen] at hend
    rw [hblock, List.append_assoc first, List.take_of_length_le (by omega),
      xorAt_zero _ (hfirst.trans hkey.symm)]
    simp only [List.append_assoc, List.singleton_append] at hloop hend ⊢
    rw [hloop, hend]

end Decode

lemma cString_append_zero (text rest : Bytes) : cString (text ++ 0 :: rest) = cString text := by
  induction text with
  | nil => rfl
  | cons c text ih =>
    rw [cString, cString, List.cons_append, List.takeWhile_cons, List.takeWhile_cons]
    split_ifs
    · rw [← cString, ← cString, ih]
    · rfl

lemma cString_append_replicate (text : Bytes) (n : ℕ) (rest : Bytes) :
    cString (text ++ List.replicate n 0 ++ 0 :: rest) = cString text := by
  cases n with
  | zero => rw [List.replicate_zero, List.append_nil, cString_append_zero]
  | succ n =>
    rw [List.replicate_succ, List.append_assoc, List.cons_append, cString_append_zero]

/-- A User-Password that is sent is read with the text of its first 128 octets, for a secret of at most 255
octets. -/
theorem password_read_back (d : Digest) (secret vector : Bytes) {pw room : Bytes}
    (hroom : 144 ≤ (pw ++ room).length) (rest : Bytes) :
    let sent := radPwencode d secret vector (pw ++ room) pw.length
    cString (radPwdecode d secret vector (sent.1.take sent.2 ++ 0 :: rest) sent.2) =
      cString (pw.take 128) := by
  obtain ⟨hlen, hsent⟩ := pwencode_eq d secret vector hroom
  have hkey := length_key d secret vector
  obtain ⟨rest', hread⟩ := pwdecode_eq d secret vector
    (hidden d secret (blockDigest d secret vector) (padded pw)) 0 rest
  rw [length_hidden d secret hkey, revealed_hidden d secret hkey, ite_self] at hread
  simp only [hlen, hsent, hread]
  rw [padded]
  exact cString_append_replicate _ _ _

def spareRoom : Bytes := List.replicate 200 0

lemma length_spareRoom : 144 ≤ ([1] ++ spareRoom).length := by
  rw [List.length_append, spareRoom, List.length_replicate]
  exact (by decide : 144 ≤ 1 + 200)

theorem password_read_back_one :
    let sent := radPwencode zeroDigest [] [] ([1] ++ spareRoom) [(1 : UInt8)].length
    cString (radPwdecode zeroDigest [] [] (sent.1.take sent.2 ++ 0 :: []) sent.2) = [1] :=
  password_read_back zeroDigest [] [] length_spareRoom []

section Tunnel
variable (d : Digest) (secret key : Bytes)

lemma tunnelEncodeLoop_eq (hkey : key.length = authPassLen) (k : ℕ) {done l : Bytes} (rest : Bytes)
    {len : ℕ} (hdone : done = [] ∨ authPassLen ≤ done.length) (hl : l.length = k * authPassLen)
    (hn : done.length + l.length = len) :
    tunnelEncodeLoop d secret key len (done ++ l ++ rest) done.length =
      done ++ hidden d secret (keyAfter d secret key done) l ++ rest := by
  have hsixteen : authPassLen = 16 := rfl
  induction k generalizing done l with
  | zero =>
    obtain rfl : l = [] := List.length_eq_zero_iff.mp (by simpa using hl)
    rw [tunnelEncodeLoop, if_neg (by simp at hn; omega), hidden_nil]
  | succ k ih =>
    rw [Nat.succ_mul] at hl
    obtain ⟨b, l, rfl, hb⟩ := exists_split (show authPassLen ≤ l.length by omega)
    rw [List.length_append] at hl hn
    have hnext : (if done.length = 0 then key else
        blockDigest d secret (block (done ++ (b ++ l) ++ rest) (done.length - authPassLen))) =
        keyAfter d secret key done := by
      rcases hdone with rfl | hdone
      · rw [List.length_nil, if_pos rfl, keyAfter_nil]
      · have hlast : (done.drop (done.length - authPassLen)).length = authPassLen := by
          rw [List.length_drop]
          omega
        rw [if_neg (by omega), List.append_assoc, block, List.drop_append_of_le_length (Nat.sub_le _ _),
          List.take_left' hlast, keyAfter, nextKey, if_neg (List.ne_nil_of_length_pos (by omega))]
    have hlength := length_keyAfter d secret hkey done
    have hzip := length_zip hb hlength
    have hxor := xorAt_append (a := done) (b := b) (c := l ++ rest) (hb.trans hlength.symm)
    have hstep := @ih (done ++ List.zipWith xorByte b (keyAfter d secret key done)) l
      (.inr (by rw [List.length_append]; omega)) (by omega) (by rw [List.length_append]; omega)
    rw [keyAfter_append d secret _ _ hzip, List.length_append, hzip] at hstep
    simp only [List.append_assoc] at hxor hstep hnext ⊢
    rw [tunnelEncodeLoop, if_pos (by omega)]
    simp only [hnext, hxor, hstep]
    rw [hidden_block d secret hb, List.append_assoc]

lemma tunnelDecodeLoop_eq (hkey : key.length = authPassLen) (k : ℕ) {mid last : Bytes} (tail : Bytes)
    {len : ℕ} (hmid : mid.length = k * authPassLen) (hpos : 0 < last.length)
    (hlast : last.length = min (len - k * authPassLen) authPassLen) :
    tunnelDecodeLoop d secret key len k (mid ++ last ++ tail) =
      revealed d secret key (mid ++ last) ++ tail := by
  induction k generalizing mid last tail with
  | zero =>
    obtain rfl : mid = [] := List.length_eq_zero_iff.mp (by simpa using hmid)
    rw [Nat.zero_mul] at hlast
    rw [tunnelDecodeLoop, List.nil_append, xorAt_zero _ (by rw [List.length_take]; omega),
      zipWith_take (by omega), revealed_last d secret (by omega)]
  | succ k ih =>
    rw [Nat.succ_mul] at hmid hlast
    obtain ⟨mid, b, rfl, hm⟩ := exists_split (show k * authPassLen ≤ mid.length by omega)
    rw [List.length_append] at hmid
    have hb : b.length = authPassLen := by omega
    have hblock : block (mid ++ b ++ last ++ tail) (authPassLen * k) = b := by
      rw [block, Nat.mul_comm, ← hm, List.append_assoc, List.append_assoc, List.drop_left,
        List.take_left' hb]
    have hxor := xorAt_append (a := mid ++ b) (b := last) (c := tail)
      (show last.length = ((blockDigest d secret b).take (len - (k + 1) * authPassLen)).length by
        rw [List.length_take, length_key, Nat.succ_mul, hlast])
    rw [zipWith_take (by rw [Nat.succ_mul]; omega), List.length_append,
      show mid.length + b.length = (k + 1) * authPassLen by rw [Nat.succ_mul]; omega] at hxor
    have hwhole : authPassLen ∣ (mid ++ b).length :=
      Dvd.intro_left (k + 1) (by rw [List.length_append, Nat.succ_mul]; omega)
    rw [tunnelDecodeLoop, hblock, hxor, List.append_assoc, ih _ hm (hb ▸ by decide) (by omega),
      revealed_append d secret hwhole, keyAfter_append d secret _ _ hb, revealed_last d secret (l := last)
      (by omega), List.append_assoc]

def tunnelText (pw : Bytes) : Bytes :=
  UInt8.ofNat pw.length :: pw ++
    List.replicate ((authPassLen - (pw.length + 1) % authPassLen) % authPassLen) 0

lemma length_tunnelText {pw : Bytes} (h : pw.length ≤ 127) :
    authPassLen ∣ (tunnelText pw).length ∧ pw.length < (tunnelText pw).length ∧
      (tunnelText pw).length ≤ 128 := by
  simp only [tunnelText, List.length_append, List.length_cons, List.length_replicate, authPassLen]
  omega

lemma length_tunnelSalt (offset rand₀ rand₁ : ℕ) : (tunnelSalt offset rand₀ rand₁).length = 2 := rfl

lemma tunnelText_placed (pw : Bytes) (x : UInt8) {rest : Bytes} (hrest : 2 ≤ rest.length) :
    ∃ rest', memcpy (memcpy ((memcpy (pw ++ x :: rest) 3 (pw ++ [x])).drop 2) 0 [UInt8.ofNat pw.length])
      (pw.length + 1) (List.replicate ((authPassLen - (pw.length + 1) % authPassLen) % authPassLen) 0) =
      tunnelText pw ++ rest' := by
  obtain ⟨y, z, w, before, hbefore⟩ : ∃ y z w before, pw ++ x :: rest = y :: z :: w :: before := by
    match hlist : pw ++ x :: rest with
    | y :: z :: w :: before => exact ⟨y, z, w, before, rfl⟩
    | [] | [_] | [_, _] =>
      have hlen := congrArg List.length hlist
      simp only [List.length_append, List.length_cons, List.length_nil] at hlen
      omega
  have hmoved : (memcpy (pw ++ x :: rest) 3 (pw ++ [x])).drop 2 =
      [] ++ [w] ++ (pw ++ [x] ++ before.drop (pw ++ [x]).length) := by
    rw [hbefore, memcpy, Nat.add_comm 3]
    simp
  have hlen : (UInt8.ofNat pw.length :: pw).length = pw.length + 1 := rfl
  have hfirst := memcpy_mid [] (pw ++ [x] ++ before.drop (pw ++ [x]).length)
    (show [w].length = [UInt8.ofNat pw.length].length from rfl)
  rw [List.length_nil] at hfirst
  rw [hmoved, hfirst]
  simp only [List.nil_append, List.singleton_append, List.append_assoc]
  rw [← List.cons_append, memcpy, List.take_left' hlen, ← hlen]
  exact ⟨_, rfl⟩

def tunnelHidden (vector salt pw : Bytes) : Bytes :=
  hidden d secret (blockDigest d secret (vector ++ salt)) (tunnelText pw)

lemma length_tunnelHidden (vector salt pw : Bytes) :
    (tunnelHidden d secret vector salt pw).length = (tunnelText pw).length :=
  length_hidden d secret (length_key ..) _

lemma tunnelPwencode_eq (vector : Bytes) (offset rand₀ rand₁ : ℕ) {pw room : Bytes}
    (hroom : 144 ≤ (pw ++ room).length) :
    ∃ rest, radTunnelPwencode d secret vector (pw ++ room) pw.length offset rand₀ rand₁ =
      (tunnelSalt offset rand₀ rand₁ ++
        tunnelHidden d secret vector (tunnelSalt offset rand₀ rand₁) (pw.take 127) ++ 0 :: rest,
        (tunnelText (pw.take 127)).length + 2) := by
  have hle : (pw.take 127).length ≤ 127 := List.length_take_le _ _
  obtain ⟨x, rest, hsplit, hrest⟩ : ∃ x rest, pw ++ room = pw.take 127 ++ x :: rest ∧
      2 ≤ rest.length := by
    have hcut := List.take_append_drop (pw.take 127).length (pw ++ room)
    have hdrop : 3 ≤ ((pw ++ room).drop (pw.take 127).length).length := by
      rw [List.length_drop]
      omega
    rw [take_clipped] at hcut
    cases hafter : (pw ++ room).drop (pw.take 127).length with
    | nil =>
      rw [hafter, List.length_nil] at hdrop
      omega
    | cons x rest =>
      rw [hafter, List.length_cons] at hdrop
      exact ⟨x, rest, by rw [← hafter, hcut], by omega⟩
  have htake : (pw ++ room).take ((pw.take 127).length + 1) = pw.take 127 ++ [x] := by
    rw [hsplit, List.append_cons, List.take_left' (by simp)]
  obtain ⟨rest', hplaced⟩ := tunnelText_placed (pw.take 127) x hrest
  have htext : (pw.take 127).length + 1 +
      (authPassLen - ((pw.take 127).length + 1) % authPassLen) % authPassLen =
      (tunnelText (pw.take 127)).length := by
    simp only [tunnelText, List.length_append, List.length_cons, List.length_replicate]
  obtain ⟨⟨k, hk⟩, -⟩ := length_tunnelText hle
  have hloop := tunnelEncodeLoop_eq d secret _ (length_key d secret (vector ++ tunnelSalt offset rand₀ rand₁))
    k (l := tunnelText (pw.take 127)) rest' (.inl (rfl : ([] : Bytes) = [])) (hk.trans (Nat.mul_comm _ _))
    (Nat.zero_add _)
  rw [List.nil_append, List.nil_append, List.length_nil, keyAfter_nil, ← tunnelHidden] at hloop
  refine ⟨rest'.drop 1, ?_⟩
  simp only [radTunnelPwencode, clipped_eq, htake, pad_eq]
  rw [hsplit, hplaced, htext, hloop, ← length_tunnelHidden d secret vector (tunnelSalt offset rand₀ rand₁),
    memcpy, List.take_left, ← List.drop_drop, List.drop_left]
  simp only [List.append_assoc, List.singleton_append, List.length_singleton]

lemma tunnelPwdecode_eq (vector : Bytes) {salt text : Bytes} (rest : Bytes) (hsalt : salt.length = 2)
    (hpos : 0 < text.length) :
    radTunnelPwdecode d secret vector (salt ++ text ++ rest) (text.length + 2) =
      let plain := revealed d secret (blockDigest d secret (vector ++ salt)) text ++ 0 :: rest.drop 1
      if text.length ≤ (plain.getD 0 0).toNat then (salt ++ memcpy plain 0 [0, 0], 2)
      else (salt ++ plain, signedChar (plain.getD 0 0)) := by
  have hsixteen : authPassLen = 16 := rfl
  have hkey := length_key d secret (vector ++ salt)
  obtain ⟨k, hk⟩ : ∃ k, (text.length - 1) / authPassLen = k := ⟨_, rfl⟩
  have hlast : k * authPassLen < text.length ∧ text.length ≤ k * authPassLen + authPassLen := by
    rw [hsixteen] at hk ⊢
    omega
  obtain ⟨mid, last, rfl, hmid⟩ := exists_split hlast.1.le
  have hparts : (mid ++ last).length = mid.length + last.length := List.length_append
  have hloop : tunnelDecodeLoop d secret _ (mid ++ last).length k (mid ++ last ++ rest) = _ :=
    tunnelDecodeLoop_eq d secret _ hkey k rest hmid (by omega) (by omega)
  simp only [radTunnelPwdecode]
  rw [if_neg (by omega), Nat.add_sub_cancel, hk, List.append_assoc salt, List.take_left' hsalt,
    List.drop_left' hsalt, hloop, memcpy, ← length_revealed d secret hkey, List.take_left, ← List.drop_drop,
    List.drop_left]
  simp only [List.append_assoc, List.singleton_append, List.length_singleton]

lemma encryptMsKey_eq (vector salt : Bytes) {pw : Bytes} (hpw : pw.length ≤ 127) :
    encryptMsKey d 128 pw salt vector secret = some (tunnelHidden d secret vector salt pw) := by
  have hlen := encryptedLen_eq (n := pw.length) (by omega)
  have hpad : encryptedLen pw.length - (1 + pw.length) =
      (authPassLen - (pw.length + 1) % authPassLen) % authPassLen := by
    rw [hlen, authPassLen]
    omega
  have htext : (UInt8.ofNat pw.length :: pw ++ List.replicate (encryptedLen pw.length -
      (1 + pw.length)) 0).take (encryptedLen pw.length) = tunnelText pw := by
    rw [List.take_of_length_le, hpad, tunnelText]
    simp only [List.length_append, List.length_cons, List.length_replicate]
    omega
  simp only [encryptMsKey]
  rw [if_neg (by omega), htext]
  rfl

end Tunnel

/-- What the library sends as a tunnel password is the key that the supplicant reads, for a secret of at
most 255 octets. -/
theorem tunnel_key_read (d : Digest) (secret vector : Bytes) (offset rand₀ rand₁ : ℕ) {pw room : Bytes}
    (hroom : 144 ≤ (pw ++ room).length) :
    let sent := radTunnelPwencode d secret vector (pw ++ room) pw.length offset rand₀ rand₁
    decryptMsKey d (sent.1.take sent.2) vector secret = some (pw.take 127) := by
  have hle : (pw.take 127).length ≤ 127 := List.length_take_le _ _
  obtain ⟨rest, hsent⟩ := tunnelPwencode_eq d secret vector offset rand₀ rand₁ hroom
  simp only [hsent]
  rw [List.take_left' (by rw [List.length_append, length_tunnelSalt, length_tunnelHidden, Nat.add_comm])]
  exact decrypt_encrypt d (by omega) (length_tunnelSalt ..) (encryptMsKey_eq d secret vector _ hle)

theorem tunnel_key_read_one :
    let sent := radTunnelPwencode zeroDigest [] [] ([1] ++ spareRoom) [(1 : UInt8)].length 0 0 0
    decryptMsKey zeroDigest (sent.1.take sent.2) [] [] = some [1] :=
  tunnel_key_read zeroDigest [] [] 0 0 0 length_spareRoom

/-- Read by the library itself it has the salt and its length in front, and its end is missing, for a secret
of at most 255 octets. -/
theorem tunnel_password_shifted (d : Digest) (secret vector : Bytes) (offset rand₀ rand₁ : ℕ)
    {pw room : Bytes} (hroom : 144 ≤ (pw ++ room).length) (rest : Bytes) :
    let sent := radTunnelPwencode d secret vector (pw ++ room) pw.length offset rand₀ rand₁
    let read := radTunnelPwdecode d secret vector (sent.1.take sent.2 ++ rest) sent.2
    0 ≤ read.2 ∧ read.1.take read.2.toNat = (tunnelSalt offset rand₀ rand₁ ++
      UInt8.ofNat (pw.take 127).length :: pw.take 127).take (pw.take 127).length := by
  have hle : (pw.take 127).length ≤ 127 := List.length_take_le _ _
  obtain ⟨rest', hsent⟩ := tunnelPwencode_eq d secret vector offset rand₀ rand₁ hroom
  obtain ⟨-, hlt, -⟩ := length_tunnelText hle
  have hsalt := length_tunnelSalt offset rand₀ rand₁
  have hlen := length_tunnelHidden d secret vector (tunnelSalt offset rand₀ rand₁) (pw.take 127)
  have hplain := revealed_hidden d secret (length_key d secret (vector ++ tunnelSalt offset rand₀ rand₁))
    (tunnelText (pw.take 127))
  rw [← tunnelHidden] at hplain
  generalize tunnelHidden d secret vector (tunnelSalt offset rand₀ rand₁) (pw.take 127) = hidden
    at hsent hplain hlen
  have hread := tunnelPwdecode_eq d secret vector rest hsalt (show 0 < hidden.length by omega)
  have hfirst : ((tunnelText (pw.take 127) ++ 0 :: rest.drop 1).getD 0 0).toNat =
      (pw.take 127).length := by
    rw [tunnelText, List.cons_append, List.cons_append, List.getD_cons_zero, UInt8.toNat_ofNat']
    omega
  have hsigned : signedChar ((tunnelText (pw.take 127) ++ 0 :: rest.drop 1).getD 0 0) =
      (pw.take 127).length := by
    rw [signedChar, if_pos (by rw [UInt8.lt_iff_toNat_lt, hfirst]; exact Nat.lt_succ_of_le hle), hfirst]
  have htake : (tunnelSalt offset rand₀ rand₁ ++ hidden).length = (tunnelText (pw.take 127)).length + 2 := by
    rw [List.length_append, hsalt, hlen, Nat.add_comm]
  simp only [hplain, hfirst, hsigned, hlen] at hread
  rw [if_neg (Nat.not_le.mpr hlt)] at hread
  simp only [hsent]
  rw [List.take_left' htake, hread, tunnelText]
  refine ⟨Int.natCast_nonneg _, ?_⟩
  simp only [List.append_assoc, List.cons_append, Int.toNat_natCast]
  rw [← List.cons_append, ← List.append_assoc, List.take_append_of_le_length]
  simp only [List.length_append, List.length_cons]
  omega

theorem tunnel_password_shifted_one :
    let sent := radTunnelPwencode zeroDigest [] [] ([1] ++ spareRoom) [(1 : UInt8)].length 0 0 0
    let read := radTunnelPwdecode zeroDigest [] [] (sent.1.take sent.2 ++ []) sent.2
    0 ≤ read.2 ∧ read.1.take read.2.toNat = [128] :=
  tunnel_password_shifted zeroDigest [] [] 0 0 0 length_spareRoom []

end LdapTgen.RadPassword
