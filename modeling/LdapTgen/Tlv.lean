import Mathlib

/-! Elements of a tag byte, a length byte and a body, one behind the other. The length byte counts units
of `u` bytes, the tag and the length byte included. -/
namespace LdapTgen.Tlv

variable {u : ℕ}

structure Element (u : ℕ) where
  tag : UInt8
  body : List UInt8
  fits : u ∣ body.length + 2 ∧ (body.length + 2) / u < 256
  deriving DecidableEq

@[ext] lemma Element.ext {e f : Element u} (htag : e.tag = f.tag) (hbody : e.body = f.body) : e = f := by
  cases e
  cases f
  cases htag
  cases hbody
  rfl

def encode (e : Element u) : List UInt8 :=
  e.tag :: UInt8.ofNat ((e.body.length + 2) / u) :: e.body

def encodeAll (es : List (Element u)) : List UInt8 := es.flatMap encode

@[simp] lemma length_encode (e : Element u) : (encode e).length = e.body.length + 2 := rfl

@[simp] lemma encodeAll_nil : encodeAll ([] : List (Element u)) = [] := rfl

@[simp] lemma encodeAll_cons (e : Element u) (es : List (Element u)) :
    encodeAll (e :: es) = encode e ++ encodeAll es := rfl

@[simp] lemma encodeAll_append (es fs : List (Element u)) :
    encodeAll (es ++ fs) = encodeAll es ++ encodeAll fs := List.flatMap_append

lemma units_mul (e : Element u) :
    u * (UInt8.ofNat ((e.body.length + 2) / u)).toNat = e.body.length + 2 := by
  obtain ⟨hdvd, hlt⟩ := e.fits
  rw [UInt8.toNat_ofNat', Nat.mod_eq_of_lt hlt, Nat.mul_div_cancel' hdvd]

lemma fits_of_mul {u n : ℕ} {b : UInt8} (hn : 2 ≤ u * b.toNat) (hlen : n = u * b.toNat - 2) :
    u ∣ n + 2 ∧ (n + 2) / u < 256 := by
  have hadd : n + 2 = u * b.toNat := by omega
  have hpos : 0 < u := by
    rcases Nat.eq_zero_or_pos u with rfl | hpos
    · simp at hn
    · exact hpos
  rw [hadd, Nat.mul_div_cancel_left _ hpos]
  exact ⟨Dvd.intro _ rfl, b.toNat_lt⟩

def read (u : ℕ) : List UInt8 → Option (Element u × List UInt8)
  | tag :: len :: rest =>
      if h : 2 ≤ u * len.toNat ∧ u * len.toNat ≤ rest.length + 2 then
        some (⟨tag, rest.take (u * len.toNat - 2),
          fits_of_mul h.1 (by rw [List.length_take]; omega)⟩, rest.drop (u * len.toNat - 2))
      else none
  | _ => none

lemma read_encode_append (e : Element u) (rest : List UInt8) :
    read u (encode e ++ rest) = some (e, rest) := by
  have hunits := units_mul e
  have hcond : 2 ≤ u * (UInt8.ofNat ((e.body.length + 2) / u)).toNat ∧
      u * (UInt8.ofNat ((e.body.length + 2) / u)).toNat ≤ (e.body ++ rest).length + 2 := by
    rw [hunits, List.length_append]
    omega
  have hcut : u * (UInt8.ofNat ((e.body.length + 2) / u)).toNat - 2 = e.body.length := by omega
  simp only [encode, List.cons_append, read, dif_pos hcond, hcut, List.take_left, List.drop_left]

lemma read_eq_some_iff {bs rest : List UInt8} {e : Element u} :
    read u bs = some (e, rest) ↔ bs = encode e ++ rest := by
  constructor
  · intro h
    match bs, h with
    | tag :: len :: tail, h =>
      simp only [read] at h
      split at h
      case isFalse => cases h
      case isTrue hcond =>
        obtain ⟨rfl, rfl⟩ := Prod.mk.inj (Option.some.inj h)
        have hlen : (tail.take (u * len.toNat - 2)).length + 2 = u * len.toNat := by
          rw [List.length_take]
          omega
        have hpos : 0 < u := by
          rcases Nat.eq_zero_or_pos u with rfl | hpos
          · simp at hcond
          · exact hpos
        simp only [encode, hlen, Nat.mul_div_cancel_left _ hpos, UInt8.ofNat_toNat, List.cons_append,
          List.take_append_drop]
  · rintro rfl
    exact read_encode_append e rest

lemma read_eq_none_iff {tag len : UInt8} {rest : List UInt8} :
    read u (tag :: len :: rest) = none ↔ u * len.toNat < 2 ∨ rest.length + 2 < u * len.toNat := by
  simp only [read]
  split <;> simp <;> omega

lemma encode_append_inj {e f : Element u} {r s : List UInt8} (h : encode e ++ r = encode f ++ s) :
    e = f ∧ r = s := by
  have hread := read_encode_append e r
  rw [h, read_encode_append] at hread
  obtain ⟨rfl, rfl⟩ := Prod.mk.inj (Option.some.inj hread)
  exact ⟨rfl, rfl⟩

/-- A string is empty, does not start with an element, or is an element and a string with the
property. -/
@[elab_as_elim]
theorem induction_on {motive : List UInt8 → Prop} (bs : List UInt8) (nil : motive [])
    (bad : ∀ bs, bs ≠ [] → read u bs = none → motive bs)
    (cons : ∀ (e : Element u) rest, motive rest → motive (encode e ++ rest)) : motive bs := by
  induction hn : bs.length using Nat.strong_induction_on generalizing bs with
  | _ n ih =>
    by_cases hnil : bs = []
    · rw [hnil]
      exact nil
    · cases hread : read u bs with
      | none => exact bad bs hnil hread
      | some p =>
        obtain rfl := read_eq_some_iff.mp (show read u bs = some (p.1, p.2) from hread)
        rw [List.length_append, length_encode] at hn
        exact cons p.1 p.2 (ih _ (by omega) p.2 rfl)

def readPrefix (u : ℕ) (bs : List UInt8) : List (Element u) :=
  match _h : read u bs with
  | none => []
  | some (e, rest) => e :: readPrefix u rest
termination_by bs.length
decreasing_by
  rw [read_eq_some_iff.mp _h, List.length_append, length_encode]
  omega

lemma readPrefix_of_none {bs : List UInt8} (h : read u bs = none) : readPrefix u bs = [] := by
  rw [readPrefix]
  split
  case h_1 => rfl
  case h_2 e rest hsome =>
    rw [h] at hsome
    cases hsome

lemma readPrefix_encode_append (e : Element u) (rest : List UInt8) :
    readPrefix u (encode e ++ rest) = e :: readPrefix u rest := by
  rw [readPrefix]
  split
  case h_1 hnone =>
    rw [read_encode_append] at hnone
    cases hnone
  case h_2 e' rest' hsome =>
    rw [read_encode_append] at hsome
    obtain ⟨rfl, rfl⟩ := Prod.mk.inj (Option.some.inj hsome)
    rfl

lemma readPrefix_encodeAll (es : List (Element u)) : readPrefix u (encodeAll es) = es := by
  induction es with
  | nil => exact readPrefix_of_none rfl
  | cons e es ih => rw [encodeAll_cons, readPrefix_encode_append, ih]

def starts : ℕ → List (Element u) → List ℕ
  | _, [] => []
  | o, e :: es => o :: starts (o + (encode e).length) es

@[simp] lemma length_starts (o : ℕ) (es : List (Element u)) : (starts o es).length = es.length := by
  induction es generalizing o with
  | nil => rfl
  | cons e es ih => simp [starts, ih]

lemma starts_append (o : ℕ) (es fs : List (Element u)) :
    starts o (es ++ fs) = starts o es ++ starts (o + (encodeAll es).length) fs := by
  induction es generalizing o with
  | nil => simp [starts]
  | cons e es ih =>
    simp only [List.cons_append, starts, encodeAll_cons, ih, List.length_append, Nat.add_assoc]

def At (bs : List UInt8) (o : ℕ) (e : Element u) : Prop := ∃ rest, bs.drop o = encode e ++ rest

lemma at_starts {bs post : List UInt8} {o : ℕ} {es : List (Element u)}
    (h : bs.drop o = encodeAll es ++ post) : List.Forall₂ (At bs) (starts o es) es := by
  induction es generalizing o with
  | nil => exact .nil
  | cons e es ih =>
    have hdrop : bs.drop (o + (encode e).length) = encodeAll es ++ post := by
      rw [← List.drop_drop, h, encodeAll_cons, List.append_assoc, List.drop_left]
    refine .cons ⟨encodeAll es ++ post, ?_⟩ (ih hdrop)
    rw [h, encodeAll_cons, List.append_assoc]

end LdapTgen.Tlv
