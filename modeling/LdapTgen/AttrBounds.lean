import LdapTgen.AttrsBuild

/-! Any text as an attribute list: each function of the parser stays inside of the string that it is
given, whatever the string is. What is left to fail is the replacement of the keywords, which follows the
null pointers that the name of the entry can give. -/
namespace LdapTgen.AttrBounds
open CString AttrsBuild

/-- The text behind the sign of an item, without the blanks before it; empty without a sign. -/
def valueText (y : List Char) : List Char :=
  ((y.dropWhile (· != attrEquality)).drop 1).dropWhile isspace

def behindScope (y : List Char) : List Char :=
  if attrActionScope ∈ y then ((y.dropWhile (· != attrActionScope)).drop 1).dropWhile isspace else y

def trim (p : List Char) : List Char := (p.dropWhile isspace).rdropWhile isspace

/-- The items that are read: a delimiter at the end of the list does not start another one. -/
def items (attrList : List Char) : List (List Char) :=
  (attrList.splitOn attrDelimiter).take (attrList.dropLast.count attrDelimiter + 1)

def itemValue (p : List Char) : List Char := valueText (behindScope (trim p))

/-- The value of the first part of the name, as it is used for `_RDN_`. -/
def rdnValue (lib : LdapLib) (dn : List Char) : Option (List Char) := do
  let dne ← lib.ldapExplodeDn dn
  let rdn ← lib.ldapExplodeRdn (← dne.head?)
  let what ← attrTypeValueGetWhat (← rdn.head?) '='
  what

def dnValue (lib : LdapLib) (dn : List Char) : Option (List Char) := do
  let dne ← lib.ldapExplodeDn dn
  let what ← attrTypeValueGetWhat (← dne.head?) '='
  what

def Resolved (lib : LdapLib) (dn z : List Char) : Prop :=
  (keywdRdn <:+: z → (rdnValue lib dn).isSome) ∧
    (keywdDn <:+: z → ¬ keywdRdn <:+: z → (dnValue lib dn).isSome)

instance decidableResolved (lib : LdapLib) (dn z : List Char) : Decidable (Resolved lib dn z) :=
  inferInstanceAs (Decidable (_ ∧ _))

def newValue (lib : LdapLib) (dn z : List Char) : Option (Option (List Char)) :=
  if z = [] then some none else substitute lib dn z

section Values
variable {lib : LdapLib} {dn z : List Char}

lemma substitute_rdn (h : keywdRdn <:+: z) :
    substitute lib dn z = (rdnValue lib dn).map (strsub z keywdRdn) := by
  rw [substitute, if_pos (strstr_isSome.mpr h), rdnValue]
  simp only [Option.bind_eq_bind, Option.map_eq_bind, Option.bind_assoc, Function.comp_def]

lemma substitute_dn (hr : ¬ keywdRdn <:+: z) (h : keywdDn <:+: z) :
    substitute lib dn z = (dnValue lib dn).map (strsub z keywdDn) := by
  rw [substitute, strstr_eq_none hr, if_neg (by simp), if_pos (strstr_isSome.mpr h), dnValue]
  simp only [Option.bind_eq_bind, Option.map_eq_bind, Option.bind_assoc, Function.comp_def]

lemma newValue_isSome : (newValue lib dn z).isSome ↔ Resolved lib dn z := by
  by_cases hz : z = []
  · have hr : ¬ keywdRdn <:+: [] := by decide
    have hd : ¬ keywdDn <:+: [] := by decide
    simp [newValue, Resolved, hz, hr, hd]
  · rw [newValue, if_neg hz, Resolved]
    by_cases hr : keywdRdn <:+: z
    · simp [substitute_rdn hr, hr]
    · by_cases hd : keywdDn <:+: z
      · simp [substitute_dn hr hd, hr, hd]
      · simp [substitute_plain hr hd, hr, hd]

end Values

section Item
variable {lib : LdapLib} {dn u v : List Char}

lemma explode_any {y : List Char} (hy : nul ∉ y) : ∃ y' type, y'.length = y.length ∧ ∀ lib dn,
    attrTypeValueExplode lib dn (u ++ (y ++ nul :: v)) u.length =
      (newValue lib dn (valueText y)).map fun value => (u ++ (y' ++ nul :: v), type, value) := by
  by_cases heq : attrEquality ∈ y
  · obtain ⟨a, t, rfl, ha⟩ := List.eq_append_cons_of_mem heq
    obtain ⟨d, z, rfl, hd, hhead⟩ := exists_head?_not t
    have hvalue : valueText (a ++ attrEquality :: (d ++ z)) = z := by
      rw [valueText, dropWhile_ne_append ha]
      exact dropWhile_append_of_head hd hhead
    have hzn : nul ∉ z := fun h => hy (by simp [h])
    obtain ⟨a', hlen, htrim⟩ := trimBack_within (u := u) (w := a)
      (v := attrEquality :: (d ++ (z ++ nul :: v))) 
      (show u.length ≤ u.length + 1 from Nat.le_succ _)
    have hchr : strchr attrEquality (u ++ (a ++ attrEquality :: (d ++ z) ++ nul :: v)) u.length =
        some (some (u.length + a.length)) :=
      strchr_eq_some (v := v) (t := d ++ z) (by simp) rfl hy ha
    have hput := put_eq (u := u ++ a') (c := attrEquality) (v := d ++ (z ++ nul :: v)) rfl
      (p := u.length + a.length) (by simp [hlen]) nul
    have hskip := skipSpace_eq (u := u ++ (a' ++ [nul])) (w := d) (s := z) (v := v) rfl
      (p := u.length + a.length + 1) (by simp [hlen, Nat.add_assoc]) hd hzn hhead
    have hval := strAt_eq (u := u ++ (a' ++ nul :: d)) (s := z) (v := v) rfl
      (p := u.length + a.length + 1 + d.length) (by simp [hlen]; omega) hzn
    have htype := strAt_takeWhile (u := u) (s := a') (v := d ++ (z ++ nul :: v))
    refine ⟨a' ++ nul :: (d ++ z), a'.takeWhile (· != nul), by simp [hlen], fun lib dn => ?_⟩
    rw [hvalue]
    simp only [List.append_assoc, List.cons_append, List.nil_append] at hchr hput hskip hval ⊢
    simp only [attrTypeValueExplode, hchr, cutSign, htrim, hput, hskip, hval, htype, newValue,
      Option.bind_eq_bind, Option.bind_some, Option.map_eq_bind, Function.comp_def]
    split_ifs <;> rfl
  · have hvalue : valueText y = [] := by
      rw [valueText, List.dropWhile_eq_nil_iff.mpr (all_ne_of_notMem heq)]
      rfl
    refine ⟨y, y, rfl, fun lib dn => ?_⟩
    rw [explode_type hy heq, hvalue]
    rfl

lemma skipOpe_any {y : List Char} (hy : nul ∉ y) : ∃ ope f, y = f ++ behindScope y ∧
    skipOpe (u ++ (y ++ nul :: v)) u.length = some (ope, u.length + f.length) := by
  by_cases hcolon : attrActionScope ∈ y
  · rw [behindScope, if_pos hcolon]
    obtain ⟨q, t, rfl, hq⟩ := List.eq_append_cons_of_mem hcolon
    obtain ⟨b, z, rfl, hb, hhead⟩ := exists_head?_not t
    have hrest : ((q ++ attrActionScope :: (b ++ z)).dropWhile (· != attrActionScope)).drop 1 =
        b ++ z := by
      rw [dropWhile_ne_append hq]
      rfl
    refine ⟨attrOpe (q ++ attrActionScope :: (b ++ z)), q ++ attrActionScope :: b, ?_, ?_⟩
    · rw [hrest, dropWhile_append_of_head hb hhead]
      simp
    · exact skipOpe_colon (fun h => hy (by simp [h])) hq hb (fun h => hy (by simp [h])) hhead
  · rw [behindScope, if_neg hcolon]
    refine ⟨ldapModBvalues, [], rfl, ?_⟩
    simp [skipOpe, strchr_eq_none rfl rfl hy hcolon]

lemma trimBack_item {c b w : List Char} (hb : ∀ x ∈ b, isspace x)
    (hlast : ∀ x ∈ c.getLast?, isspace x = false) (hnil : c = [] → b = []) :
    trimBack (u.length + 1) (u ++ (c ++ (b ++ w))) (u.length + (c ++ b).length) =
      some (u ++ (c ++ (List.replicate b.length nul ++ w))) := by
  by_cases hne : c = []
  · rw [hnil hne, hne]
    exact trimBack_of_le (by simp)
  · have hpos : 0 < c.length := List.length_pos_iff.mpr hne
    rw [← List.append_assoc u, trimBack_eq (u := u ++ c) rfl (by simp [Nat.add_assoc]) hb
      (by simp; omega) (by rw [List.getLast?_append_of_ne_nil _ hne]; exact hlast), List.append_assoc]

lemma exists_trim (p : List Char) : ∃ a b, p = a ++ (trim p ++ b) ∧ (∀ c ∈ a, isspace c) ∧
    (∀ c ∈ b, isspace c) ∧ Trimmed (trim p) ∧ (trim p = [] → b = []) := by
  by_cases h : ∃ c ∈ p, isspace c = false
  · obtain ⟨a, z, b, rfl, ha, hb, hne, htrim⟩ := exists_trimmed h
    have hz : trim (a ++ (z ++ b)) = z := by
      have hhead : ∀ c ∈ (z ++ b).head?, isspace c = false := by
        rw [List.head?_append_of_ne_nil _ hne]
        exact htrim.head
      rw [trim, dropWhile_append_of_head ha hhead, rdropWhile_isspace_append hb htrim.last]
    rw [hz]
    exact ⟨a, b, rfl, ha, hb, htrim, fun h => absurd h hne⟩
  · have hblank : ∀ c ∈ p, isspace c := by simpa using h
    have hnil : trim p = [] := by
      rw [trim, List.dropWhile_eq_nil_iff.mpr hblank]
      rfl
    rw [hnil]
    exact ⟨p, [], by simp, hblank, by simp, ⟨by simp, by simp⟩, fun _ => rfl⟩

lemma attrsItem_any {p z : List Char} (size : ℕ) (hp : nul ∉ p) (hz : nul ∉ z)
    (hhead : ∀ c ∈ z.head?, c = attrDelimiter)
    (hcut : ∀ a y, p = a ++ y → cutItem size (u ++ (p ++ (z ++ [nul]))) (u.length + a.length) =
      some (u ++ (p ++ nul :: v), u.length + p.length + 1)) :
    ∃ x type ope, x.length = u.length + p.length + 1 ∧ ∀ lib dn,
      attrsItem lib dn size (u ++ (p ++ (z ++ [nul]))) u.length =
        (newValue lib dn (itemValue p)).map fun value => (x ++ v, x.length, ⟨type, value, ope⟩) := by
  obtain ⟨a, b, hab, ha, hb, htrim, hnil⟩ := exists_trim p
  rw [itemValue]
  generalize trim p = c at hab htrim hnil
  subst hab
  have hcn : nul ∉ c := fun h => hp (by simp [h])
  have hbn := nul_notMem_of_isspace hb
  have hskip : skipSpace (u ++ (a ++ (c ++ b) ++ (z ++ [nul]))) u.length =
      some (u.length + a.length) := by
    refine skipSpace_eq (s := c ++ (b ++ z)) (v := []) (by simp) rfl ha (by simp [hcn, hbn, hz]) ?_
    by_cases hne : c = []
    · -- nothing but blanks before the delimiter
      rw [hnil hne, hne]
      intro x hx
      rw [hhead x hx]
      decide
    · rw [List.head?_append_of_ne_nil _ hne]
      exact htrim.head
  have hback := trimBack_item (u := u ++ a) (w := nul :: v) hb htrim.last hnil
  obtain ⟨ope, f, hf, hope⟩ := skipOpe_any (u := u ++ a) (v := List.replicate b.length nul ++ v) hcn
  obtain ⟨y, type, hlen, hexp⟩ := explode_any (u := u ++ (a ++ f))
    (v := List.replicate b.length nul ++ v) (y := behindScope c)
    (fun h => hcn (by rw [hf]; simp [h]))
  have hx : (u ++ (a ++ (f ++ (y ++ nul :: List.replicate b.length nul)))).length =
      u.length + (a ++ (c ++ b)).length + 1 := by
    have hfc : c.length = f.length + (behindScope c).length := by
      rw [← List.length_append, ← hf]
    simp [hlen, hfc]
    omega
  refine ⟨_, type, ope, hx, fun lib dn => ?_⟩
  rw [replicate_append_cons] at hback
  have hstart : u ++ (a ++ (c ++ nul :: (List.replicate b.length nul ++ v))) =
      u ++ (a ++ f) ++ (behindScope c ++ nul :: (List.replicate b.length nul ++ v)) := by
    conv_lhs => rw [hf]
    simp
  have hcut := hcut a (c ++ b) rfl
  have hexp := hexp lib dn
  rw [← hstart] at hexp
  simp only [List.append_assoc, List.length_append, ← Nat.add_assoc] at hskip hback hope hexp hcut hx ⊢
  simp only [attrsItem, hskip, hcut, Option.bind_eq_bind, Option.bind_some, Nat.add_sub_cancel, hback,
    hope, hexp, hx, Option.map_eq_bind, Option.bind_assoc, Function.comp_def]
  simp

end Item

section List
variable {lib : LdapLib} {dn : List Char} {p : List Char} {ps : List (List Char)}

lemma cut_end {u a y : List Char} (hp : nul ∉ p ∧ attrDelimiter ∉ p) (h : p = a ++ y) :
    cutItem (u.length + p.length) (u ++ (p ++ ([] ++ [nul]))) (u.length + a.length) =
      some (u ++ (p ++ nul :: []), u.length + p.length + 1) := by
  subst h
  simp only [List.mem_append, not_or] at hp
  have hcut := cutItem_end (u := u ++ a) hp.1.2 hp.2.2
  simpa [Nat.add_assoc] using hcut

lemma cut_delimiter {u a y z : List Char} {size : ℕ} (hp : nul ∉ p ∧ attrDelimiter ∉ p)
    (hz : nul ∉ z) (h : p = a ++ y) :
    cutItem size (u ++ (p ++ (attrDelimiter :: z ++ [nul]))) (u.length + a.length) =
      some (u ++ (p ++ nul :: (z ++ [nul])), u.length + p.length + 1) := by
  subst h
  simp only [List.mem_append, not_or] at hp
  have hcut := cutItem_delimiter (u := u ++ a) hp.1.2 hp.2.2 hz size
  simpa [Nat.add_assoc] using hcut

lemma attrsLoop_succ {size n : ℕ} {u buf x v type : List Char} {ope : ℕ}
    (hitem : attrsItem lib dn size buf u.length = (newValue lib dn (itemValue p)).map fun value =>
      (x ++ v, x.length, ⟨type, value, ope⟩)) :
    (attrsLoop lib dn size (n + 1) buf u.length).isSome ↔ Resolved lib dn (itemValue p) ∧
      (attrsLoop lib dn size n (x ++ v) x.length).isSome := by
  rw [attrsLoop, hitem, ← newValue_isSome]
  cases newValue lib dn (itemValue p) with
  | none => simp
  | some value => cases h : attrsLoop lib dn size n (x ++ v) x.length <;> simp [h]

variable (lib dn) in
lemma attrsLoop_isSome {size n : ℕ} (u : List Char)
    (hps : ∀ q ∈ p :: ps, attrDelimiter ∉ q ∧ nul ∉ q) (hn : n ≤ (p :: ps).length)
    (hsize : size = u.length + (joinPieces attrDelimiter (p :: ps)).length) :
    (attrsLoop lib dn size n (u ++ (joinPieces attrDelimiter (p :: ps) ++ [nul])) u.length).isSome ↔
      ∀ q ∈ (p :: ps).take n, Resolved lib dn (itemValue q) := by
  have hp := (hps p List.mem_cons_self).symm
  induction ps generalizing u p n with
  | nil =>
    cases n with
    | zero => simp [attrsLoop]
    | succ n =>
      obtain rfl : n = 0 := by simpa using hn
      rw [joinPieces_singleton] at hsize ⊢
      subst hsize
      obtain ⟨x, type, ope, -, hitem⟩ := attrsItem_any (u := u) (z := []) _ hp.1 (by simp) (by simp)
        fun a y h => cut_end hp h
      rw [List.nil_append] at hitem
      rw [attrsLoop_succ (hitem lib dn)]
      simp [attrsLoop]
  | cons q ps ih =>
    have hqs : ∀ r ∈ q :: ps, attrDelimiter ∉ r ∧ nul ∉ r :=
      fun r hr => hps r (List.mem_cons_of_mem p hr)
    have hne : nul ≠ attrDelimiter := by decide
    have hz := notMem_joinPieces hne fun r hr => (hqs r hr).2
    cases n with
    | zero => simp [attrsLoop]
    | succ n =>
      rw [joinPieces_cons_cons] at hsize ⊢
      obtain ⟨x, type, ope, hx, hitem⟩ := attrsItem_any (u := u)
        (z := attrDelimiter :: joinPieces attrDelimiter (q :: ps)) size hp.1 (by simp [hne, hz]) (by simp)
        fun a y h => cut_delimiter hp hz h
      have hrest := ih (n := n) x hqs (by simpa using hn) (by simp [hsize, hx]; omega)
        (hqs q List.mem_cons_self).symm
      rw [List.append_assoc, attrsLoop_succ (hitem lib dn), List.take_succ_cons, List.forall_mem_cons]
      exact and_congr_right fun _ => hrest

lemma attrsLoop_length {size n : ℕ} {buf : List Char} {strAttr : ℕ} {attrs : List Attr}
    (h : attrsLoop lib dn size n buf strAttr = some attrs) : attrs.length = n := by
  induction n generalizing buf strAttr attrs with
  | zero =>
    obtain rfl := Option.some.inj h
    rfl
  | succ n ih =>
    simp only [attrsLoop, Option.bind_eq_bind, Option.bind_eq_some_iff] at h
    obtain ⟨t, -, rest, hrest, hattrs⟩ := h
    obtain rfl := Option.some.inj hattrs
    simp [ih hrest]

end List

/-- The number of attributes is one more than the number of delimiters but for the last character, and
each of them has a type. -/
def Complete (attrList : List Char) (attrs : Attrs) : Prop :=
  attrs.attrsNb = attrList.dropLast.count attrDelimiter + 1 ∧
    ∃ types : List (List Char), types.length = attrs.attrsNb ∧ attrs.attrsType = types.map some ++ [none]

lemma attrsBuild_iff (lib : LdapLib) (dn : List Char) {attrList : List Char} (hlist : nul ∉ attrList) :
    (∃ attrs, attrsBuild lib dn attrList = some attrs ∧ Complete attrList attrs) ↔
      ∀ p ∈ items attrList, Resolved lib dn (itemValue p) := by
  have hall := notMem_of_mem_splitOn (c := attrDelimiter) hlist
  have hjoin := joinPieces_splitOn attrDelimiter attrList
  have hlen := length_splitOn attrDelimiter attrList
  obtain ⟨p, ps, hps⟩ := List.exists_cons_of_ne_nil (List.splitOn_ne_nil attrDelimiter attrList)
  rw [items, hps]
  rw [hps] at hall hjoin hlen
  have hcount : attrList.dropLast.count attrDelimiter + 1 ≤ (p :: ps).length := by
    rw [hlen]
    exact Nat.succ_le_succ ((List.dropLast_sublist attrList).count_le attrDelimiter)
  have hloop := attrsLoop_isSome lib dn [] hall hcount rfl
  rw [hjoin, List.nil_append, List.length_nil, Nat.zero_add] at hloop
  rw [← hloop, Option.isSome_iff_exists]
  constructor
  · rintro ⟨attrs, h, -⟩
    simp only [attrsBuild, Option.bind_eq_bind, Option.bind_eq_some_iff] at h
    obtain ⟨as, has, -⟩ := h
    exact ⟨as, has⟩
  · rintro ⟨as, has⟩
    have hbuild : attrsBuild lib dn attrList = some ⟨as.map (some ·.type) ++ [none],
        as.map (·.value) ++ [none], as.map (·.ope) ++ [0],
        attrList.dropLast.count attrDelimiter + 1⟩ := by
      simp only [attrsBuild, has, Option.bind_eq_bind, Option.bind_some]
    exact ⟨_, hbuild, rfl, as.map (·.type), by simp [attrsLoop_length has], by simp⟩

lemma explode_iff (lib : LdapLib) (dn u v : List Char) {y : List Char} (hy : nul ∉ y) :
    (∃ y' type value, y'.length = y.length ∧
      attrTypeValueExplode lib dn (u ++ (y ++ nul :: v)) u.length =
        some (u ++ (y' ++ nul :: v), type, value)) ↔ Resolved lib dn (valueText y) := by
  obtain ⟨y', type, hlen, hexp⟩ := explode_any (u := u) (v := v) hy
  rw [hexp lib dn, ← newValue_isSome, Option.isSome_iff_exists]
  constructor
  · rintro ⟨_, _, value, -, h⟩
    obtain ⟨r, hr, -⟩ := Option.map_eq_some_iff.mp h
    exact ⟨r, hr⟩
  · rintro ⟨r, hr⟩
    exact ⟨y', type, r, hlen, by rw [hr]; rfl⟩

/-- Both functions return, and stay inside of the string, exactly when the name of the entry has a value
for each keyword that they find. -/
theorem parser_in_bounds_iff (lib : LdapLib) (dn attrList u y v : List Char) (hlist : nul ∉ attrList)
    (hy : nul ∉ y) :
    ((∃ attrs, attrsBuild lib dn attrList = some attrs ∧ Complete attrList attrs) ↔
      ∀ p ∈ items attrList, Resolved lib dn (itemValue p)) ∧
    ((∃ y' type value, y'.length = y.length ∧
      attrTypeValueExplode lib dn (u ++ (y ++ nul :: v)) u.length =
        some (u ++ (y' ++ nul :: v), type, value)) ↔ Resolved lib dn (valueText y)) :=
  ⟨attrsBuild_iff lib dn hlist, explode_iff lib dn u v hy⟩

def plainLib : LdapLib := ⟨fun dn => some (dn.splitOn ','), fun rdn => some (rdn.splitOn '+')⟩

/-- Separators at both ends, blanks only, and a keyword. -/
theorem separators_in_bounds :
    (∃ attrs, attrsBuild plainLib "cn=Joe,o=x".toList "|  |: > |sn>_RDN_|".toList = some attrs ∧
      Complete "|  |: > |sn>_RDN_|".toList attrs) ∧
    ∃ y' type value, y'.length = 4 ∧
      attrTypeValueExplode plainLib "cn=Joe,o=x".toList ([] ++ ("  > ".toList ++ nul :: [])) 0 =
        some ([] ++ (y' ++ nul :: []), type, value) := by
  have h := parser_in_bounds_iff plainLib "cn=Joe,o=x".toList "|  |: > |sn>_RDN_|".toList []
    "  > ".toList [] (by decide) (by decide)
  exact ⟨h.1.mpr (by decide), h.2.mpr (by decide)⟩

/-- The value of the name is empty: a null pointer takes the place of the keyword. -/
theorem empty_name_read :
    attrsBuild plainLib "cn=,o=x".toList "sn>_RDN_".toList = none ∧
    attrTypeValueExplode plainLib "cn=,o=x".toList ("sn>_RDN_".toList ++ [nul]) 0 = none ∧
    rdnValue plainLib "cn=,o=x".toList = none := by
  decide

end LdapTgen.AttrBounds
