import LdapTgen.AttrBounds
import LdapTgen.Replacement

/-! The keywords in the value of an attribute. Only the first occurrence of one keyword is replaced,
where every occurrence of both should be. -/
namespace LdapTgen.Substitution
open CString AttrsBuild AttrBounds Replacement

def keywords : List (List Char) := [keywdRdn, keywdDn]

lemma nil_notMem_keywords : [] ∉ keywords := by decide

lemma keywdRdn_eq : keywdRdn = ['_', 'R', 'D', 'N', '_'] := rfl

lemma keywdDn_eq : keywdDn = ['_', 'D', 'N', '_'] := rfl

section Keywords
variable {a b m p q t v : List Char}

lemma strsub_first {word : List Char} (h : word <:+: t) : ∃ p q, t = p ++ (word ++ q) ∧
    (∀ new, strsub t word new = some (p ++ (new ++ q))) ∧
    ∀ p' q', t = p' ++ (word ++ q') → p.length ≤ p'.length := by
  obtain ⟨p, q, hpq, hpos, hmin⟩ := exists_strstr h
  refine ⟨p, q, hpq, fun new => ?_, hmin⟩
  have hdrop : t.drop (p.length + word.length) = q := by
    rw [hpq, ← List.append_assoc, ← List.length_append, List.drop_left]
  have htake : t.take p.length = p := by
    rw [hpq, List.take_left]
  rw [strsub, hpos, Option.map_some, hdrop, htake, List.append_assoc]

/-- `_RDN_` behind the start of `_DN_`: the two have at most one character in common. -/
lemma dn_before_rdn (h : keywdDn ++ b = m ++ (keywdRdn ++ q)) :
    (∃ m', m = keywdDn ++ m') ∨ (m = ['_', 'D', 'N'] ∧ b = 'R' :: ['D', 'N', '_'] ++ q) := by
  rw [keywdDn_eq, keywdRdn_eq] at h
  rcases m with _ | ⟨c, _ | ⟨d, _ | ⟨e, _ | ⟨f, m'⟩⟩⟩⟩
  · simp at h
  · simp at h
  · simp at h
  · right
    simp at h
    obtain ⟨rfl, rfl, rfl, rfl⟩ := h
    exact ⟨rfl, rfl⟩
  · left
    simp at h
    obtain ⟨rfl, rfl, rfl, rfl, -⟩ := h
    exact ⟨m', rfl⟩

lemma replace_rdn_iff (hclean : Clean keywords (replaceAll keywords v 0 t))
    (ht : t = p ++ (keywdRdn ++ q)) (hmin : ∀ p' q', t = p' ++ (keywdRdn ++ q') → p.length ≤ p'.length) :
    p ++ (v ++ q) = replaceAll keywords v 0 t ↔ found keywords 0 t = [keywdRdn] := by
  have hnot : ¬ Clean keywords t := fun h => h keywdRdn (by simp [keywords]) ⟨p, q, by simp [ht]⟩
  obtain ⟨a, b, w, hw, hab, hrep, hfound, hfirst⟩ := exists_first nil_notMem_keywords hnot
  have hle := hfirst p q keywdRdn (by simp [keywords]) ht
  rw [hrep v] at hclean ⊢
  rw [hfound]
  have hw : w = keywdRdn ∨ w = keywdDn := by simpa [keywords] using hw
  rcases hw with rfl | rfl
  · -- the same place
    obtain ⟨hpa, hqb⟩ : p = a ∧ keywdRdn ++ q = keywdRdn ++ b :=
      List.append_inj (ht.symm.trans hab) (Nat.le_antisymm (hmin a b hab) hle)
    have hq := List.append_cancel_left hqb
    have hcb : Clean keywords (replaceAll keywords v 0 b) :=
      hclean.of_infix ⟨a ++ v, [], by simp⟩
    rw [hpa, hq, List.append_cancel_left_eq, List.append_cancel_left_eq,
      eq_replaceAll_iff nil_notMem_keywords hcb]
    simp
  · -- `_DN_` is found before it
    have hne : keywdDn ≠ keywdRdn := by decide
    simp only [List.cons.injEq, hne, false_and, iff_false]
    intro heq
    obtain ⟨m, rfl⟩ : a <+: p := List.prefix_of_prefix_length_le ⟨_, hab.symm⟩ ⟨_, ht.symm⟩ hle
    rw [ht, List.append_assoc] at hab
    rcases dn_before_rdn (List.append_cancel_left hab).symm with ⟨m', rfl⟩ | ⟨rfl, rfl⟩
    · refine hclean keywdDn (by simp [keywords]) ?_
      rw [← heq]
      exact ⟨a, m' ++ (v ++ q), by simp⟩
    · have hR : replaceAll keywords v 0 ('R' :: ['D', 'N', '_'] ++ q) =
          'R' :: replaceAll keywords v 0 (['D', 'N', '_'] ++ q) := by
        have hword : wordAt keywords ('R' :: (['D', 'N', '_'] ++ q)) = none := by
          simp [wordAt_eq_none, keywords, keywdRdn_eq, keywdDn_eq]
        rw [List.cons_append, replaceAll, hword]
      rw [hR, List.append_assoc, List.append_cancel_left_eq] at heq
      have hmem := mem_of_append_eq (by simp) heq.symm
      simp at hmem

lemma replace_dn_iff {x : List Char} (hclean : Clean keywords (replaceAll keywords v 0 t))
    (hrdn : ¬ keywdRdn <:+: t) (ht : t = p ++ (keywdDn ++ q))
    (hmin : ∀ p' q', t = p' ++ (keywdDn ++ q') → p.length ≤ p'.length) :
    p ++ (v ++ x ++ q) = replaceAll keywords v 0 t ↔ x = [] ∧ found keywords 0 t = [keywdDn] := by
  have hnot : ¬ Clean keywords t := fun h => h keywdDn (by simp [keywords]) ⟨p, q, by simp [ht]⟩
  obtain ⟨a, b, w, hw, hab, hrep, hfound, hfirst⟩ := exists_first nil_notMem_keywords hnot
  have hle := hfirst p q keywdDn (by simp [keywords]) ht
  have hw : w = keywdRdn ∨ w = keywdDn := by simpa [keywords] using hw
  obtain rfl : w = keywdDn := hw.resolve_left fun h => hrdn ⟨a, b, by simp [hab, h]⟩
  obtain ⟨hpa, hqb⟩ : p = a ∧ keywdDn ++ q = keywdDn ++ b :=
    List.append_inj (ht.symm.trans hab) (Nat.le_antisymm (hmin a b hab) hle)
  have hq := List.append_cancel_left hqb
  rw [hrep v] at hclean ⊢
  have hcb : Clean keywords (replaceAll keywords v 0 b) := hclean.of_infix ⟨a ++ v, [], by simp⟩
  rw [hfound, hpa, hq, List.append_cancel_left_eq, List.append_assoc, List.append_cancel_left_eq]
  constructor
  · intro heq
    have hb : Clean keywords b := by
      refine Clean.of_infix ?_ (⟨x, [], by simp⟩ : b <:+: x ++ b)
      rw [heq]
      exact hcb
    rw [hb.replaceAll_eq.1] at heq
    exact ⟨by simpa using heq, by rw [(found_eq_nil nil_notMem_keywords).mpr hb]⟩
  · rintro ⟨rfl, hb⟩
    rw [List.nil_append, eq_replaceAll_iff nil_notMem_keywords hcb]
    simpa using hb

end Keywords

structure Ava where
  type : List Char
  value : List Char
  no_equal : '=' ∉ type
  type_nul : nul ∉ type
  value_nul : nul ∉ value
  value_head : ∀ c ∈ value.head?, isspace c = false

namespace Ava

def text (a : Ava) : List Char := a.type ++ '=' :: a.value

def rdnText (a : Ava) (as : List Ava) : List Char := joinPieces '+' ((a :: as).map text)

def others : List Ava → List Char
  | [] => []
  | a :: as => '+' :: rdnText a as

lemma rdnText_eq (a : Ava) (as : List Ava) : a.rdnText as = a.type ++ '=' :: (a.value ++ others as) := by
  cases as with
  | nil => simp [rdnText, others, text]
  | cons b as => simp [rdnText, others, text]

lemma others_eq_nil {as : List Ava} : others as = [] ↔ as = [] := by
  cases as <;> simp [others]

lemma nul_notMem_others (as : List Ava) : nul ∉ others as := by
  have htext : ∀ a : Ava, nul ∉ a.text := by
    intro a
    have hne : nul ≠ '=' := by decide
    simp [text, a.type_nul, a.value_nul, hne]
  cases as with
  | nil => simp [others]
  | cons a as =>
    have hne : nul ≠ '+' := by decide
    have hjoin : nul ∉ rdnText a as := notMem_joinPieces hne (by simp [htext])
    simp [others, hne, hjoin]

end Ava

/-- The library splits the name into its parts, and the first part into its values. -/
structure Splits (lib : LdapLib) (dn : List Char) (a : Ava) (as : List Ava) : Prop where
  explodeDn : ∃ rest, lib.ldapExplodeDn dn = some (a.rdnText as :: rest)
  explodeRdn : lib.ldapExplodeRdn (a.rdnText as) = some ((a :: as).map Ava.text)

lemma getWhat_eq {t z : List Char} (ht : '=' ∉ t) (htn : nul ∉ t) (hzn : nul ∉ z)
    (hhead : ∀ c ∈ z.head?, isspace c = false) :
    attrTypeValueGetWhat (t ++ '=' :: z) '=' = some (if z = [] then none else some z) := by
  have hne : nul ≠ '=' := by decide
  have hchr : strchr '=' (t ++ '=' :: z ++ [nul]) 0 = some (some t.length) := by
    have h := strchr_eq_some (u := []) (s := t) (c := '=') (t := z) (v := []) rfl rfl
      (by simp [htn, hzn, hne]) ht
    simpa using h
  obtain ⟨t', hlen, htrim⟩ := trimBack_within (u := []) (w := t) (v := '=' :: (z ++ [nul]))
    (show ([] : List Char).length ≤ 1 from Nat.zero_le _)
  have hput := put_eq (u := t') (c := '=') (v := z ++ [nul]) (p := t.length) rfl hlen.symm nul
  have hskip := skipSpace_eq (u := t' ++ [nul]) (w := []) (s := z) (v := []) (p := t.length + 1) rfl
    (by simp [hlen]) (by simp) hzn hhead
  have hval := strAt_eq (u := t' ++ [nul]) (s := z) (v := []) (p := t.length + 1) rfl (by simp [hlen]) hzn
  simp only [List.append_assoc, List.cons_append, List.nil_append, List.length_nil, Nat.zero_add,
    Nat.add_zero] at hchr htrim hskip hval
  simp only [attrTypeValueGetWhat, cutSign, List.append_assoc, List.cons_append, hchr, htrim, hput, hskip,
    hval, Option.bind_eq_bind, Option.bind_some]

section Name
variable {lib : LdapLib} {dn : List Char} {a : Ava} {as : List Ava}

lemma Splits.rdnValue_eq (h : Splits lib dn a as) :
    rdnValue lib dn = if a.value = [] then none else some a.value := by
  obtain ⟨rest, hdn⟩ := h.explodeDn
  have hwhat := getWhat_eq a.no_equal a.type_nul a.value_nul a.value_head
  rw [← Ava.text] at hwhat
  simp only [rdnValue, hdn, List.head?_cons, h.explodeRdn, List.map_cons, hwhat, Option.bind_eq_bind,
    Option.bind_some]

lemma Splits.dnValue_eq (h : Splits lib dn a as) :
    dnValue lib dn = if a.value ++ Ava.others as = [] then none else some (a.value ++ Ava.others as) := by
  obtain ⟨rest, hdn⟩ := h.explodeDn
  have hhead : ∀ c ∈ (a.value ++ Ava.others as).head?, isspace c = false := by
    by_cases hne : a.value = []
    · rw [hne, List.nil_append]
      cases as with
      | nil => simp [Ava.others]
      | cons b bs => simp [Ava.others, show isspace '+' = false by decide]
    · rw [List.head?_append_of_ne_nil _ hne]
      exact a.value_head
  have hwhat := getWhat_eq a.no_equal a.type_nul
    (by simp [a.value_nul, Ava.nul_notMem_others] : nul ∉ a.value ++ Ava.others as) hhead
  rw [← Ava.rdnText_eq] at hwhat
  simp only [dnValue, hdn, List.head?_cons, hwhat, Option.bind_eq_bind, Option.bind_some]

/-- One occurrence of one keyword: `_RDN_`, or `_DN_` without `_RDN_` around it in a name whose first
part has one value. -/
def OneKeyword (a : Ava) (as : List Ava) (t : List Char) : Prop :=
  a.value ≠ [] ∧ (found keywords 0 t = [keywdRdn] ∨
    as = [] ∧ ¬ keywdRdn <:+: t ∧ found keywords 0 t = [keywdDn])

instance decidableOneKeyword (a : Ava) (as : List Ava) (t : List Char) : Decidable (OneKeyword a as t) :=
  decidable_of_iff (a.value ≠ [] ∧ (found keywords 0 t = [keywdRdn] ∨
    as.isEmpty ∧ ¬ keywdRdn <:+: t ∧ found keywords 0 t = [keywdDn])) (by simp [OneKeyword])

lemma newValue_iff (h : Splits lib dn a as) {t : List Char} (ht : t ≠ [])
    (hclean : Clean keywords (replaceAll keywords a.value 0 t)) :
    newValue lib dn t = some (some (replaceAll keywords a.value 0 t)) ↔
      found keywords 0 t = [] ∨ OneKeyword a as t := by
  rw [newValue, if_neg ht, OneKeyword]
  by_cases hrdn : keywdRdn <:+: t
  · obtain ⟨p, q, hpq, hsub, hmin⟩ := strsub_first hrdn
    have hnil : found keywords 0 t ≠ [] := fun hf =>
      (found_eq_nil nil_notMem_keywords).mp hf keywdRdn (by simp [keywords]) hrdn
    rw [substitute_rdn hrdn, h.rdnValue_eq, ← replace_rdn_iff hclean hpq hmin]
    split_ifs with hv
    · simp [hv, hnil]
    · simp [hv, hnil, hsub, hrdn]
  · by_cases hdn : keywdDn <:+: t
    · obtain ⟨p, q, hpq, hsub, hmin⟩ := strsub_first hdn
      have hnil : found keywords 0 t ≠ [] := fun hf =>
        (found_eq_nil nil_notMem_keywords).mp hf keywdDn (by simp [keywords]) hdn
      have hnot : found keywords 0 t ≠ [keywdRdn] := fun hf =>
        hrdn (infix_of_found nil_notMem_keywords hf)
      have hrep := replace_dn_iff (x := Ava.others as) hclean hrdn hpq hmin
      rw [Ava.others_eq_nil] at hrep
      rw [substitute_dn hrdn hdn, h.dnValue_eq]
      split_ifs with hv
      · obtain ⟨hv, -⟩ := List.append_eq_nil_iff.mp hv
        simp [hv, hnil]
      · rw [Option.map_some, hsub, Option.some_inj, Option.some_inj, hrep]
        by_cases hnone : a.value = []
        · have has : as ≠ [] := fun has => hv (by simp [hnone, has, Ava.others])
          simp [hnone, has, hnil]
        · simp [hnone, hnil, hnot, hrdn]
    · have hc : Clean keywords t := by simp [Clean, keywords, hrdn, hdn]
      simp [substitute_plain hrdn hdn, hc.replaceAll_eq, (found_eq_nil nil_notMem_keywords).mpr hc]

end Name

/-- The keywords of a value are all replaced exactly when there is none or just one that is found as it
is written. -/
theorem keywords_replaced_iff (lib : LdapLib) (dn : List Char) (a : Ava) (as : List Ava)
    (hsplit : Splits lib dn a as) (u x w : List Char) (hx : nul ∉ x) (hvalue : valueText x ≠ [])
    (hclean : Clean keywords (replaceAll keywords a.value 0 (valueText x))) :
    (∃ buf type, attrTypeValueExplode lib dn (u ++ (x ++ nul :: w)) u.length =
      some (buf, type, some (replaceAll keywords a.value 0 (valueText x)))) ↔
    found keywords 0 (valueText x) = [] ∨ OneKeyword a as (valueText x) := by
  obtain ⟨y, type, -, hexp⟩ := explode_any (u := u) (v := w) hx
  rw [← newValue_iff hsplit hvalue hclean, hexp lib dn]
  constructor
  · rintro ⟨buf, type', h⟩
    obtain ⟨r, hr, heq⟩ := Option.map_eq_some_iff.mp h
    rw [Prod.mk.injEq, Prod.mk.injEq] at heq
    rw [hr, heq.2.2]
  · intro h
    exact ⟨_, type, by rw [h]; rfl⟩

def joe : Ava :=
  ⟨"cn".toList, "Joe".toList, by decide, by decide, by decide, (by decide : Trimmed "Joe".toList).head⟩

lemma splits_joe : Splits plainLib "cn=Joe,o=x".toList joe [] :=
  ⟨⟨["o=x".toList], by decide⟩, by decide⟩

/-- One keyword in the middle of a text. -/
theorem one_keyword_replaced :
    ∃ buf type, attrTypeValueExplode plainLib "cn=Joe,o=x".toList
      ([] ++ ("mail > _RDN_@x".toList ++ nul :: [])) 0 = some (buf, type, some "Joe@x".toList) := by
  have h := keywords_replaced_iff plainLib "cn=Joe,o=x".toList joe [] splits_joe []
    "mail > _RDN_@x".toList []
    (by decide) (by decide) (by decide)
  exact h.mpr (by decide)

/-- Two keywords: the second one remains. -/
theorem second_keyword_remains :
    Clean keywords (replaceAll keywords joe.value 0 "_RDN_ _RDN_".toList) ∧
    replaceAll keywords joe.value 0 "_RDN_ _RDN_".toList = "Joe Joe".toList ∧
    (attrTypeValueExplode plainLib "cn=Joe,o=x".toList ("cn>_RDN_ _RDN_".toList ++ [nul]) 0).map
      (·.2.2) = some (some "Joe _RDN_".toList) := by
  decide

end LdapTgen.Substitution
