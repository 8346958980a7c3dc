import LdapTgen.CString
import LdapTgen.SessionText

/-! The two functions that write a byte string in hexadecimal digits, `copyVSAAttrValue` of the RADIUS
client and `copyVSAAttrValue_TTLS` of the supplicant, as loops that move a pointer over an array. -/
namespace LdapTgen.HexEncoders
open CString
open SessionText (hexDigits hexByte flatMap_hexByte_length)

def hexLoop (buf : List Char) (pVSA : ℕ) : List UInt8 → Option (List Char)
  | [] => some buf
  | b :: bs => (strcpy buf pVSA (hexByte b)).bind fun buf => hexLoop buf (pVSA + 2) bs

def copyVSAAttrValue (destVSA : List Char) (srcVSA : List UInt8) : Option (List Char) :=
  if srcVSA.length = 0 then some destVSA
  else (strcpy destVSA 0 ['0', 'x']).bind fun destVSA => hexLoop destVSA 2 srcVSA

/-- With `isAdd0x` the prefix is written, but the loop starts at the same place. -/
def copyVSAAttrValueTTLS (destVSA : List Char) (srcVSA : List UInt8) (isAdd0x : ℤ) : Option (List Char) :=
  if srcVSA.length = 0 then some destVSA
  else
    (if isAdd0x ≠ 0 then strcpy destVSA 0 ['0', 'x'] else some destVSA).bind fun destVSA =>
      hexLoop destVSA 0 srcVSA

def written (result : Option (List Char)) : Option (List Char) := result.bind fun buf => strAt buf 0

section Digits
variable {b : UInt8} {bytes : List UInt8}

def hexValue (c : Char) : Option ℕ := hexDigits.idxOf? c

def decodeHex : List Char → Option (List UInt8)
  | [] => some []
  | [_] => none
  | c :: d :: s => do
      let hi ← hexValue c
      let lo ← hexValue d
      let rest ← decodeHex s
      some (UInt8.ofNat (16 * hi + lo) :: rest)

lemma hexValue_digit : ∀ n < 16, hexValue (hexDigits.getD n '0') = some n := by decide

lemma digit_mem : ∀ n < 16, hexDigits.getD n '0' ∈ hexDigits := by decide

lemma nul_notMem_hexDigits : nul ∉ hexDigits := by decide

lemma decodeHex_hexByte (b : UInt8) (s : List Char) :
    decodeHex (hexByte b ++ s) = (decodeHex s).map (b :: ·) := by
  have hb := b.toNat_lt
  have hhi := hexValue_digit (b.toNat / 16) (by omega)
  have hlo := hexValue_digit (b.toNat % 16) (by omega)
  have hbyte : UInt8.ofNat (16 * (b.toNat / 16) + b.toNat % 16) = b := by
    rw [Nat.div_add_mod, UInt8.ofNat_toNat]
  rw [hexByte, List.cons_append, List.singleton_append, decodeHex, hhi, hlo]
  simp only [Option.bind_eq_bind, Option.bind_some, hbyte]
  cases decodeHex s with
  | none => rfl
  | some rest => rfl

lemma decodeHex_digits (bytes : List UInt8) : decodeHex (bytes.flatMap hexByte) = some bytes := by
  induction bytes with
  | nil => rfl
  | cons b bytes ih => rw [List.flatMap_cons, decodeHex_hexByte, ih, Option.map_some]

lemma mem_hexDigits_of_mem {c : Char} (hc : c ∈ bytes.flatMap hexByte) : c ∈ hexDigits := by
  obtain ⟨b, -, hcb⟩ := List.mem_flatMap.mp hc
  have hb := b.toNat_lt
  rw [hexByte, List.mem_cons, List.mem_singleton] at hcb
  rcases hcb with rfl | rfl
  · exact digit_mem _ (by omega)
  · exact digit_mem _ (by omega)

lemma nul_notMem_digits (bytes : List UInt8) : nul ∉ bytes.flatMap hexByte :=
  fun h => nul_notMem_hexDigits (mem_hexDigits_of_mem h)

end Digits

section Loop
variable {u v : List Char} {bs : List UInt8}

lemma hexLoop_eq (hbs : bs ≠ []) (h : 2 * bs.length < v.length) :
    ∃ w, hexLoop (u ++ v) u.length bs = some (u ++ (bs.flatMap hexByte ++ nul :: w)) := by
  induction bs generalizing u v with
  | nil => exact absurd rfl hbs
  | cons b bs ih =>
    rw [List.length_cons] at h
    have htwo : (hexByte b).length = 2 := rfl
    have hwrite := strcpy_eq (u := u) (s := hexByte b) (v := v) (by omega)
    rw [hexLoop, hwrite, Option.bind_some]
    cases bs with
    | nil => exact ⟨v.drop 3, by simp [hexLoop, htwo]⟩
    | cons b' bs =>
      obtain ⟨w, hw⟩ := ih (u := u ++ hexByte b) (v := nul :: v.drop ((hexByte b).length + 1))
        (by simp) (by simp [htwo] at h ⊢; omega)
      refine ⟨w, ?_⟩
      rw [List.append_assoc, List.length_append, htwo] at hw
      rw [htwo, hw, List.flatMap_cons (x := b), List.append_assoc, List.append_assoc]

lemma written_hexLoop (hu : nul ∉ u) (hbs : bs ≠ []) (h : 2 * bs.length < v.length) :
    written (hexLoop (u ++ v) u.length bs) = some (u ++ bs.flatMap hexByte) := by
  obtain ⟨w, hw⟩ := hexLoop_eq (u := u) hbs h
  rw [hw, written, Option.bind_some, ← List.append_assoc]
  refine strAt_eq (u := []) rfl rfl ?_
  rw [List.mem_append, not_or]
  exact ⟨hu, nul_notMem_digits bs⟩

end Loop

section Encoders
variable {destVSA : List Char} {srcVSA : List UInt8}

lemma written_copyVSAAttrValue (hsrc : srcVSA ≠ []) (hroom : 2 * srcVSA.length + 2 < destVSA.length) :
    written (copyVSAAttrValue destVSA srcVSA) = some ('0' :: 'x' :: srcVSA.flatMap hexByte) := by
  have hwrite := strcpy_eq (u := []) (v := destVSA) (s := ['0', 'x']) (by simp; omega)
  rw [List.nil_append, List.length_nil, List.nil_append] at hwrite
  rw [copyVSAAttrValue, if_neg (by simpa using hsrc), hwrite, Option.bind_some]
  exact written_hexLoop (u := ['0', 'x']) (by decide) hsrc (by simp; omega)

lemma written_copyVSAAttrValueTTLS (hsrc : srcVSA ≠ []) (hroom : 2 * srcVSA.length + 2 < destVSA.length)
    (isAdd0x : ℤ) :
    written (copyVSAAttrValueTTLS destVSA srcVSA isAdd0x) = some (srcVSA.flatMap hexByte) := by
  have hpos := List.length_pos_of_ne_nil hsrc
  rw [copyVSAAttrValueTTLS, if_neg (by simpa using hsrc)]
  split
  · have hwrite := strcpy_eq (u := []) (v := destVSA) (s := ['0', 'x']) (by simp; omega)
    rw [List.nil_append, List.length_nil, List.nil_append] at hwrite
    rw [hwrite, Option.bind_some]
    exact written_hexLoop (u := []) (by simp) hsrc (by simp; omega)
  · rw [Option.bind_some]
    exact written_hexLoop (u := []) (by simp) hsrc (by omega)

/-- `copyVSAAttrValue` writes the prefix and two lower-case digits a byte, which decode to the bytes.
`copyVSAAttrValue_TTLS` writes these digits whatever its flag is, so it never writes the same text. -/
theorem encoders_exact (destVSA : List Char) (srcVSA : List UInt8) (hsrc : 1 ≤ srcVSA.length)
    (hroom : 2 * srcVSA.length + 2 < destVSA.length) :
    ∃ digits : List Char, digits.length = 2 * srcVSA.length ∧ (∀ c ∈ digits, c ∈ hexDigits) ∧
      decodeHex digits = some srcVSA ∧
      written (copyVSAAttrValue destVSA srcVSA) = some ('0' :: 'x' :: digits) ∧
      (∀ isAdd0x, written (copyVSAAttrValueTTLS destVSA srcVSA isAdd0x) = some digits) ∧
      ∀ isAdd0x, written (copyVSAAttrValueTTLS destVSA srcVSA isAdd0x) ≠
        written (copyVSAAttrValue destVSA srcVSA) := by
  have hne : srcVSA ≠ [] := by
    rintro rfl
    cases hsrc
  refine ⟨srcVSA.flatMap hexByte, flatMap_hexByte_length srcVSA, fun c => mem_hexDigits_of_mem,
    decodeHex_digits srcVSA, written_copyVSAAttrValue hne hroom,
    written_copyVSAAttrValueTTLS hne hroom, ?_⟩
  intro isAdd0x heq
  rw [written_copyVSAAttrValue hne hroom, written_copyVSAAttrValueTTLS hne hroom] at heq
  have hlen := congrArg List.length (Option.some.inj heq)
  rw [List.length_cons, List.length_cons] at hlen
  omega

theorem encoders_exact_one_byte : ∃ digits : List Char, digits.length = 2 * [(0xab : UInt8)].length ∧
    (∀ c ∈ digits, c ∈ hexDigits) ∧ decodeHex digits = some [0xab] ∧
    written (copyVSAAttrValue (List.replicate 8 nul) [0xab]) = some ('0' :: 'x' :: digits) ∧
    (∀ isAdd0x, written (copyVSAAttrValueTTLS (List.replicate 8 nul) [0xab] isAdd0x) = some digits) ∧
    ∀ isAdd0x, written (copyVSAAttrValueTTLS (List.replicate 8 nul) [0xab] isAdd0x) ≠
      written (copyVSAAttrValue (List.replicate 8 nul) [0xab]) :=
  encoders_exact (List.replicate 8 nul) [0xab] (by decide) (by decide)

/-- The flag asks for the prefix, and the digits overwrite it. -/
theorem zero_x_overwritten :
    written (copyVSAAttrValue (List.replicate 8 nul) [0xab]) = some ['0', 'x', 'a', 'b'] ∧
    written (copyVSAAttrValueTTLS (List.replicate 8 nul) [0xab] 1) = some ['a', 'b'] := by
  decide

end Encoders

end LdapTgen.HexEncoders
