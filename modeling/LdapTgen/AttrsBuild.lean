import LdapTgen.CString

/-! The attribute lists of the actions: `attrs_build` cuts one copy of the text in place, item by item,
and `attrTypeValue_explode` cuts each item into a type and a value. A list printed as in the ini files
is read back as it was printed. -/
namespace LdapTgen.AttrsBuild
open CString

def attrDelimiter : Char := '|'
def attrActionScope : Char := ':'
def attrEquality : Char := '>'
def keywdRdn : List Char := "_RDN_".toList
def keywdDn : List Char := "_DN_".toList

def ldapModAdd : ℕ := 0
def ldapModDelete : ℕ := 1
def ldapModReplace : ℕ := 2
def ldapModBvalues : ℕ := 128

structure LdapLib where
  ldapExplodeDn : List Char → Option (List (List Char))
  ldapExplodeRdn : List Char → Option (List (List Char))

/-- The blanks before the sign at `q` and the sign are set to null; the position of the text that
follows the sign and the blanks behind it. -/
def cutSign (lo : ℕ) (buf : List Char) (q : ℕ) : Option (List Char × ℕ) := do
  let buf ← trimBack lo buf q
  let buf ← put buf q nul
  some (buf, ← skipSpace buf (q + 1))

/-- `attrTypeValue_getWhat` for `whatIsValue`: the inner result is the pointer it returns. -/
def attrTypeValueGetWhat (attrTypeValue : List Char) (token : Char) :
    Option (Option (List Char)) := do
  let buf := attrTypeValue ++ [nul]
  match ← strchr token buf 0 with
  | none => some none
  | some strVal =>
      let (buf, strVal) ← cutSign 1 buf strVal
      let what ← strAt buf strVal
      some (if what = [] then none else some what)

def strsub (str replace new : List Char) : Option (List Char) :=
  (strstr replace str).map fun pos => str.take pos ++ new ++ str.drop (pos + replace.length)

/-- The value with `_RDN_`, or else `_DN_`, replaced. A null result of the library is dereferenced. -/
def substitute (lib : LdapLib) (dn strVal : List Char) : Option (Option (List Char)) :=
  if (strstr keywdRdn strVal).isSome then do
    let dne ← lib.ldapExplodeDn dn
    let rdn ← lib.ldapExplodeRdn (← dne.head?)
    let rdnValue ← ← attrTypeValueGetWhat (← rdn.head?) '='
    some (strsub strVal keywdRdn rdnValue)
  else if (strstr keywdDn strVal).isSome then do
    let dne ← lib.ldapExplodeDn dn
    let dnValue ← ← attrTypeValueGetWhat (← dne.head?) '='
    some (strsub strVal keywdDn dnValue)
  else some (some strVal)

def attrTypeValueExplode (lib : LdapLib) (dn buf : List Char) (attrTypeValue : ℕ) :
    Option (List Char × List Char × Option (List Char)) := do
  match ← strchr attrEquality buf attrTypeValue with
  | none => some (buf, ← strAt buf attrTypeValue, none)
  | some strVal =>
      let (buf, strVal) ← cutSign (attrTypeValue + 1) buf strVal
      let value ← strAt buf strVal
      let attrValue ← if value = [] then some none else substitute lib dn value
      some (buf, ← strAt buf attrTypeValue, attrValue)

/-- The operation is searched in the whole item; the case of `_getAsBase_` is overwritten. -/
def attrOpe (strAttr : List Char) : ℕ :=
  if (strstr "add".toList strAttr).isSome then ldapModAdd
  else if (strstr "delete".toList strAttr).isSome then ldapModDelete
  else if (strstr "replace".toList strAttr).isSome then ldapModReplace
  else ldapModAdd

structure Attr where
  type : List Char
  value : Option (List Char)
  ope : ℕ
  deriving DecidableEq, Repr

/-- The end of the item at `strAttr` is set to null; the position of the next one. -/
def cutItem (size : ℕ) (buf : List Char) (strAttr : ℕ) : Option (List Char × ℕ) := do
  match ← strchr attrDelimiter buf strAttr with
  | none => some (buf, size + 1)
  | some strAttrNext => some (← put buf strAttrNext nul, strAttrNext + 1)

/-- The operation of the item at `strAttr` and the position behind it. -/
def skipOpe (buf : List Char) (strAttr : ℕ) : Option (ℕ × ℕ) := do
  match ← strchr attrActionScope buf strAttr with
  | none => some (ldapModBvalues, strAttr)
  | some p => some (attrOpe (← strAt buf strAttr), ← skipSpace buf (p + 1))

/-- One turn of the loop of `attrs_build`. -/
def attrsItem (lib : LdapLib) (dn : List Char) (size : ℕ) (buf : List Char) (strAttr : ℕ) :
    Option (List Char × ℕ × Attr) := do
  let strAttr ← skipSpace buf strAttr
  let (buf, strAttrNext) ← cutItem size buf strAttr
  let buf ← trimBack (strAttr + 1) buf (strAttrNext - 1)
  let (ope, strAttr) ← skipOpe buf strAttr
  let (buf, type, value) ← attrTypeValueExplode lib dn buf strAttr
  some (buf, strAttrNext, ⟨type, value, ope⟩)

def attrsLoop (lib : LdapLib) (dn : List Char) (size : ℕ) :
    ℕ → List Char → ℕ → Option (List Attr)
  | 0, _, _ => some []
  | n + 1, buf, strAttr => do
      let (buf, strAttrNext, attr) ← attrsItem lib dn size buf strAttr
      some (attr :: (← attrsLoop lib dn size n buf strAttrNext))

/-- The arrays, each with the entry that ends it, and the number of attributes. -/
structure Attrs where
  attrsType : List (Option (List Char))
  attrsValue : List (Option (List Char))
  attrsOpe : List ℕ
  attrsNb : ℕ
  deriving DecidableEq, Repr

def attrsBuild (lib : LdapLib) (dn attrList : List Char) : Option Attrs := do
  let attrsSize := attrList.dropLast.count attrDelimiter + 1
  let attrs ← attrsLoop lib dn attrList.length attrsSize (attrList ++ [nul]) 0
  some ⟨attrs.map (some ·.type) ++ [none], attrs.map (·.value) ++ [none], attrs.map (·.ope) ++ [0],
    attrsSize⟩

def delimiters : List Char := [nul, attrDelimiter, attrActionScope, attrEquality]

structure Blanks where
  text : List Char
  blank : ∀ c ∈ text, isspace c

structure Field where
  text : List Char
  plain : ∀ c ∈ delimiters, c ∉ text
  trimmed : Trimmed text

/-- `op :` with the blanks around the colon. -/
structure Operation where
  word : Field
  before : Blanks
  after : Blanks

/-- `> value` with the blanks around the sign. -/
structure Value where
  before : Blanks
  after : Blanks
  field : Field
  ne_nil : field.text ≠ []
  no_rdn : ¬ keywdRdn <:+: field.text
  no_dn : ¬ keywdDn <:+: field.text

/-- One item of a list as it is printed: `[op :] type [> value]`, with blanks on both sides. -/
structure Printed where
  lead : Blanks
  op : Option Operation
  type : Field
  type_ne : type.text ≠ []
  value : Option Value
  trail : Blanks

namespace Printed
variable (p : Printed)

def typeValue : List Char :=
  p.type.text ++ match p.value with
    | none => []
    | some v => v.before.text ++ attrEquality :: (v.after.text ++ v.field.text)

def front : List Char :=
  p.lead.text ++ match p.op with
    | none => []
    | some o => o.word.text ++ (o.before.text ++ attrActionScope :: o.after.text)

def text : List Char := p.front ++ (p.typeValue ++ p.trail.text)

def core : List Char := (p.front ++ p.typeValue).dropWhile isspace

def attr : Attr :=
  ⟨p.type.text, p.value.map (·.field.text),
    if p.op.isSome then attrOpe p.core else ldapModBvalues⟩

end Printed

def printItems (ps : List Printed) : List Char :=
  [attrDelimiter].intercalate (ps.map Printed.text)

section Explode
variable {lib : LdapLib} {dn u v : List Char}

lemma nul_ne_attrEquality : nul ≠ attrEquality := by decide

lemma cutSign_eq {buf b d z : List Char} {c : Char} {k q : ℕ}
    (hbuf : buf = u ++ (b ++ c :: (d ++ (z ++ nul :: v)))) (hq : q = u.length + b.length)
    (hb : ∀ c ∈ b, isspace c) (hk : k ≤ u.length) (hlast : ∀ c ∈ u.getLast?, isspace c = false)
    (hd : ∀ c ∈ d, isspace c) (hz : nul ∉ z) (hhead : ∀ c ∈ z.head?, isspace c = false) :
    cutSign k buf q =
      some (u ++ (List.replicate b.length nul ++ nul :: (d ++ (z ++ nul :: v))), q + 1 + d.length) := by
  have htrim := trimBack_eq hbuf hq hb hk hlast
  have hput := put_eq (u := u ++ List.replicate b.length nul) (c := c) (v := d ++ (z ++ nul :: v))
    (p := q) rfl (by simp [hq]) nul
  rw [List.append_assoc, List.append_assoc] at hput
  have hskip := skipSpace_eq (u := u ++ (List.replicate b.length nul ++ [nul])) (w := d) (s := z)
    (v := v) (p := q + 1) rfl (by simp [hq, Nat.add_assoc]) hd hz hhead
  simp only [List.append_assoc, List.cons_append, List.nil_append] at hskip
  simp [cutSign, htrim, hput, hskip]

lemma explode_type {y : List Char} (hnul : nul ∉ y) (heq : attrEquality ∉ y) :
    attrTypeValueExplode lib dn (u ++ (y ++ nul :: v)) u.length =
      some (u ++ (y ++ nul :: v), y, none) := by
  simp [attrTypeValueExplode, strchr_eq_none rfl rfl hnul heq, strAt_eq rfl rfl hnul]

lemma substitute_plain {z : List Char} (hrdn : ¬ keywdRdn <:+: z) (hdn : ¬ keywdDn <:+: z) :
    substitute lib dn z = some (some z) := by
  simp [substitute, strstr_eq_none hrdn, strstr_eq_none hdn]

lemma explode_value {y b d z : List Char} {r : Option (List Char)} (hy : nul ∉ y)
    (hyeq : attrEquality ∉ y) (hyne : y ≠ []) (hlast : ∀ c ∈ y.getLast?, isspace c = false)
    (hb : ∀ c ∈ b, isspace c) (hd : ∀ c ∈ d, isspace c) (hz : nul ∉ z)
    (hhead : ∀ c ∈ z.head?, isspace c = false)
    (hsub : (if z = [] then some none else substitute lib dn z) = some r) :
    attrTypeValueExplode lib dn (u ++ (y ++ (b ++ attrEquality :: (d ++ (z ++ nul :: v))))) u.length =
      some (u ++ (y ++ (List.replicate b.length nul ++ nul :: (d ++ (z ++ nul :: v)))), y, r) := by
  have hbnul := nul_notMem_of_isspace hb
  have hdnul := nul_notMem_of_isspace hd
  have hbeq : attrEquality ∉ b := fun h => absurd (hb _ h) (by decide)
  have hpos : 0 < y.length := List.length_pos_iff.mpr hyne
  have hchr : strchr attrEquality (u ++ (y ++ (b ++ attrEquality :: (d ++ (z ++ nul :: v)))))
      u.length = some (some (u.length + (y.length + b.length))) := by
    rw [← List.length_append]
    exact strchr_eq_some (u := u) (s := y ++ b) (t := d ++ z) (v := v) (by simp) rfl
      (by simp [hy, hbnul, hdnul, hz, nul_ne_attrEquality]) (by simp [hyeq, hbeq])
  have hcut := cutSign_eq (u := u ++ y) (v := v) (c := attrEquality) (k := u.length + 1)
    (q := u.length + (y.length + b.length)) rfl (by simp [Nat.add_assoc]) hb (by simp; omega)
    (by rw [List.getLast?_append_of_ne_nil _ hyne]; exact hlast) hd hz hhead
  rw [List.append_assoc, List.append_assoc] at hcut
  have hval := strAt_eq (u := u ++ (y ++ (List.replicate b.length nul ++ nul :: d))) (s := z) (v := v)
    (p := u.length + (y.length + b.length) + 1 + d.length) rfl (by simp; omega) hz
  simp only [List.append_assoc, List.cons_append] at hval
  have htype := strAt_replicate (u := u) (s := y) (n := b.length) (v := d ++ (z ++ nul :: v))
    (p := u.length) rfl rfl hy
  by_cases hnil : z = []
  · rw [if_pos hnil] at hsub
    simp [attrTypeValueExplode, hchr, hcut, hval, htype, if_pos hnil, ← Option.some.inj hsub]
  · rw [if_neg hnil] at hsub
    simp [attrTypeValueExplode, hchr, hcut, hval, htype, if_neg hnil, hsub]

end Explode

lemma not_isspace_of_delimiter {c : Char} (hc : c ∈ delimiters) : isspace c = false := by
  fin_cases hc <;> decide

lemma Blanks.notMem (b : Blanks) {c : Char} (hc : c ∈ delimiters) : c ∉ b.text := by
  intro h
  have hblank := b.blank c h
  rw [not_isspace_of_delimiter hc] at hblank
  cases hblank

section Item
variable {lib : LdapLib} {dn u v : List Char} {attr : Attr}

structure ItemText where
  lead : Blanks
  core : List Char
  trail : Blanks
  ne_nil : core ≠ []
  trimmed : Trimmed core
  no_nul : nul ∉ core
  no_delimiter : attrDelimiter ∉ core

def ItemText.text (t : ItemText) : List Char := t.lead.text ++ (t.core ++ t.trail.text)

/-- Wherever the item stands, its operation, type and value are found, and the text behind it is left
as it is. -/
def Reads (lib : LdapLib) (dn core : List Char) (attr : Attr) : Prop :=
  ∀ u v, ∃ q y, y.length = core.length ∧
    skipOpe (u ++ (core ++ nul :: v)) u.length = some (attr.ope, q) ∧
    attrTypeValueExplode lib dn (u ++ (core ++ nul :: v)) q =
      some (u ++ (y ++ nul :: v), attr.type, attr.value)

lemma skipOpe_colon {q b y : List Char} (hq : nul ∉ q) (hcolon : attrActionScope ∉ q)
    (hb : ∀ c ∈ b, isspace c) (hy : nul ∉ y) (hhead : ∀ c ∈ y.head?, isspace c = false) :
    skipOpe (u ++ (q ++ attrActionScope :: (b ++ y) ++ nul :: v)) u.length =
      some (attrOpe (q ++ attrActionScope :: (b ++ y)),
        u.length + (q ++ attrActionScope :: b).length) := by
  have hnul : nul ∉ q ++ attrActionScope :: (b ++ y) := by
    have hne : nul ≠ attrActionScope := by decide
    simp [hq, hne, nul_notMem_of_isspace hb, hy]
  have hchr := strchr_eq_some (u := u) (v := v) rfl rfl hnul hcolon
  have hskip := skipSpace_eq (u := u ++ (q ++ [attrActionScope])) (w := b) (s := y) (v := v)
    (p := u.length + q.length + 1) rfl (by simp [Nat.add_assoc]) hb hy hhead
  have hstr := strAt_eq (u := u) (v := v) rfl rfl hnul
  simp only [List.append_assoc, List.cons_append, List.nil_append] at hchr hskip hstr ⊢
  simp [skipOpe, hchr, hskip, hstr]
  omega

lemma Reads.of_front {f g core : List Char} (hcore : core = f ++ g)
    (hope : ∀ u v, skipOpe (u ++ (core ++ nul :: v)) u.length = some (attr.ope, u.length + f.length))
    (hexp : ∀ u v, ∃ y, y.length = g.length ∧
      attrTypeValueExplode lib dn (u ++ (g ++ nul :: v)) u.length =
        some (u ++ (y ++ nul :: v), attr.type, attr.value)) :
    Reads lib dn core attr := by
  intro u v
  obtain ⟨y, hy, hexp⟩ := hexp (u ++ f) v
  refine ⟨u.length + f.length, f ++ y, by simp [hcore, hy], hope u v, ?_⟩
  rw [List.length_append] at hexp
  simpa [hcore] using hexp

lemma attrsItem_eq {t : ItemText} (hread : Reads lib dn t.core attr) {size : ℕ} {r z : List Char}
    (hr : r = z ++ [nul]) (hz : nul ∉ z)
    (hcut : cutItem size (u ++ (t.text ++ r)) (u.length + t.lead.text.length) =
      some (u ++ (t.text ++ nul :: v), u.length + t.text.length + 1)) :
    ∃ x, x.length = u.length + t.text.length + 1 ∧
      attrsItem lib dn size (u ++ (t.text ++ r)) u.length = some (x ++ v, x.length, attr) := by
  have htrailnul := t.trail.notMem (c := nul) (by decide)
  have hpos : 0 < t.core.length := List.length_pos_iff.mpr t.ne_nil
  have hskip : skipSpace (u ++ (t.text ++ r)) u.length = some (u.length + t.lead.text.length) :=
    skipSpace_eq (s := t.core ++ (t.trail.text ++ z)) (v := []) (by simp [ItemText.text, hr]) rfl
      t.lead.blank (by simp [t.no_nul, htrailnul, hz])
      (by rw [List.head?_append_of_ne_nil _ t.ne_nil]; exact t.trimmed.head)
  have htrim : trimBack (u.length + t.lead.text.length + 1) (u ++ (t.text ++ nul :: v))
      (u.length + t.text.length) =
        some (u ++ t.lead.text ++
          (t.core ++ nul :: (List.replicate t.trail.text.length nul ++ v))) := by
    rw [trimBack_eq (u := u ++ t.lead.text ++ t.core) (w := t.trail.text) (v := nul :: v)
      (by simp [ItemText.text]) (by simp [ItemText.text]; omega) t.trail.blank (by simp; omega)
      (by rw [List.getLast?_append_of_ne_nil _ t.ne_nil]; exact t.trimmed.last),
      replicate_append_cons, List.append_assoc]
  obtain ⟨q, y, hy, hope, hexp⟩ :=
    hread (u ++ t.lead.text) (List.replicate t.trail.text.length nul ++ v)
  rw [List.length_append] at hope
  have hlen : (u ++ t.lead.text ++ (y ++ nul :: List.replicate t.trail.text.length nul)).length
      = u.length + t.text.length + 1 := by
    simp [ItemText.text, hy]
    omega
  refine ⟨_, hlen, ?_⟩
  simp only [attrsItem, hskip, hcut, htrim, hope, hexp, hlen, Option.bind_eq_bind, Option.bind_some,
    Nat.add_sub_cancel]
  simp

lemma ItemText.delimiter_notMem_trail (t : ItemText) : attrDelimiter ∉ t.core ++ t.trail.text := by
  simp [t.no_delimiter, t.trail.notMem (c := attrDelimiter) (by decide)]

lemma ItemText.nul_notMem_trail (t : ItemText) : nul ∉ t.core ++ t.trail.text := by
  simp [t.no_nul, t.trail.notMem (c := nul) (by decide)]

lemma ItemText.delimiter_notMem (t : ItemText) : attrDelimiter ∉ t.text := by
  rw [text, List.mem_append, not_or]
  exact ⟨t.lead.notMem (by decide), t.delimiter_notMem_trail⟩

lemma ItemText.nul_notMem (t : ItemText) : nul ∉ t.text := by
  rw [text, List.mem_append, not_or]
  exact ⟨t.lead.notMem (by decide), t.nul_notMem_trail⟩

lemma cutItem_end {y : List Char} (hy : nul ∉ y) (hd : attrDelimiter ∉ y) :
    cutItem (u.length + y.length) (u ++ (y ++ [nul])) u.length =
      some (u ++ (y ++ [nul]), u.length + y.length + 1) := by
  have hchr : strchr attrDelimiter (u ++ (y ++ [nul])) u.length = some none :=
    strchr_eq_none (v := []) rfl rfl hy hd
  simp [cutItem, hchr]

lemma cutItem_delimiter {y z : List Char} (hy : nul ∉ y) (hd : attrDelimiter ∉ y) (hz : nul ∉ z)
    (size : ℕ) : cutItem size (u ++ (y ++ attrDelimiter :: (z ++ [nul]))) u.length =
      some (u ++ (y ++ nul :: (z ++ [nul])), u.length + y.length + 1) := by
  have hne : nul ≠ attrDelimiter := by decide
  have hchr : strchr attrDelimiter (u ++ (y ++ attrDelimiter :: (z ++ [nul]))) u.length =
      some (some (u.length + y.length)) :=
    strchr_eq_some (t := z) (v := []) rfl rfl (by simp [hne, hz, hy]) hd
  have hput := put_eq (u := u ++ y) (c := attrDelimiter) (v := z ++ [nul])
    (p := u.length + y.length) rfl (by simp) nul
  rw [List.append_assoc, List.append_assoc] at hput
  simp [cutItem, hchr, hput]

lemma cutItem_last (t : ItemText) : cutItem (u.length + t.text.length) (u ++ (t.text ++ [nul]))
    (u.length + t.lead.text.length) =
      some (u ++ (t.text ++ [nul]), u.length + t.text.length + 1) := by
  have h := cutItem_end (u := u ++ t.lead.text) t.nul_notMem_trail t.delimiter_notMem_trail
  simpa [ItemText.text, Nat.add_assoc] using h

lemma cutItem_next (t : ItemText) {size : ℕ} {z : List Char} (hz : nul ∉ z) :
    cutItem size (u ++ (t.text ++ attrDelimiter :: (z ++ [nul]))) (u.length + t.lead.text.length) =
      some (u ++ (t.text ++ nul :: (z ++ [nul])), u.length + t.text.length + 1) := by
  have h := cutItem_delimiter (u := u ++ t.lead.text) t.nul_notMem_trail t.delimiter_notMem_trail hz
    size
  simpa [ItemText.text, Nat.add_assoc] using h

end Item

section Items
variable {ι : Type} (item : ι → ItemText) (attr : ι → Attr) {lib : LdapLib} {dn : List Char}

def joinItems (is : List ι) : List Char := [attrDelimiter].intercalate (is.map fun i => (item i).text)

lemma joinItems_singleton (i : ι) : joinItems item [i] = (item i).text := by
  simp [joinItems]

lemma joinItems_cons_cons (i j : ι) (is : List ι) :
    joinItems item (i :: j :: is) = (item i).text ++ attrDelimiter :: joinItems item (j :: is) := by
  simp [joinItems]

lemma nul_notMem_joinItems (i : ι) (is : List ι) : nul ∉ joinItems item (i :: is) := by
  induction is generalizing i with
  | nil => simp [joinItems_singleton, (item i).nul_notMem]
  | cons j is ih =>
    have hne : nul ≠ attrDelimiter := by decide
    simp [joinItems_cons_cons, (item i).nul_notMem, ih, hne]

lemma attrsLoop_joinItems {size : ℕ} (u : List Char) (i : ι) (is : List ι)
    (hread : ∀ j ∈ i :: is, Reads lib dn (item j).core (attr j))
    (hsize : size = u.length + (joinItems item (i :: is)).length) :
    attrsLoop lib dn size (is.length + 1) (u ++ (joinItems item (i :: is) ++ [nul])) u.length =
      some ((i :: is).map attr) := by
  induction is generalizing u i with
  | nil =>
    rw [joinItems_singleton] at hsize ⊢
    subst hsize
    obtain ⟨x, -, hitem⟩ := attrsItem_eq (hread i (by simp)) (r := [nul]) (z := []) rfl (by simp)
      (cutItem_last (u := u) (item i))
    simp [attrsLoop, hitem]
  | cons j is ih =>
    have hz := nul_notMem_joinItems item j is
    have hr : nul ∉ attrDelimiter :: joinItems item (j :: is) := by
      have hne : nul ≠ attrDelimiter := by decide
      simp [hne, hz]
    rw [joinItems_cons_cons] at hsize ⊢
    rw [List.append_assoc, List.cons_append]
    obtain ⟨x, hx, hitem⟩ : ∃ x, x.length = u.length + (item i).text.length + 1 ∧
        attrsItem lib dn size
          (u ++ ((item i).text ++ attrDelimiter :: (joinItems item (j :: is) ++ [nul]))) u.length =
            some (x ++ (joinItems item (j :: is) ++ [nul]), x.length, attr i) :=
      attrsItem_eq (hread i (by simp)) rfl hr (cutItem_next (item i) hz)
    have hrest := ih x j (fun k hk => hread k (by simp [hk])) (by simp [hsize, hx]; omega)
    rw [List.length_cons, attrsLoop, hitem]
    simp [hrest]

lemma count_joinItems (i : ι) (is : List ι) :
    (joinItems item (i :: is)).dropLast.count attrDelimiter = is.length := by
  have hne : ∀ i is, joinItems item (i :: is) ≠ [] := by
    intro i is
    cases is with
    | nil => simp [joinItems_singleton, ItemText.text, (item i).ne_nil]
    | cons j is => simp [joinItems_cons_cons]
  induction is generalizing i with
  | nil =>
    rw [joinItems_singleton]
    exact List.count_eq_zero_of_not_mem fun h =>
      (item i).delimiter_notMem (List.dropLast_subset _ h)
  | cons j is ih =>
    have hdrop : (joinItems item (i :: j :: is)).dropLast =
        (item i).text ++ attrDelimiter :: (joinItems item (j :: is)).dropLast := by
      rw [joinItems_cons_cons, List.dropLast_append_of_ne_nil (by simp),
        List.dropLast_cons_of_ne_nil (hne j is)]
    simp [hdrop, ih, List.count_eq_zero_of_not_mem (item i).delimiter_notMem]

lemma attrsBuild_joinItems {is : List ι} (hne : is ≠ [])
    (hread : ∀ i ∈ is, Reads lib dn (item i).core (attr i)) :
    attrsBuild lib dn (joinItems item is) =
      some ⟨is.map (fun i => some (attr i).type) ++ [none], is.map (fun i => (attr i).value) ++ [none],
        is.map (fun i => (attr i).ope) ++ [0], is.length⟩ := by
  cases is with
  | nil => exact absurd rfl hne
  | cons i is =>
    have hloop : attrsLoop lib dn (joinItems item (i :: is)).length (is.length + 1)
        (joinItems item (i :: is) ++ [nul]) 0 = some ((i :: is).map attr) :=
      attrsLoop_joinItems item attr [] i is hread (by simp)
    simp [attrsBuild, count_joinItems, hloop]

end Items

/-- What stands before the colon, without blanks at its start, and the blanks behind the colon. -/
structure ScopeText where
  word : List Char
  after : Blanks
  plain : ∀ c ∈ delimiters, c ∉ word
  head : ∀ c ∈ word.head?, isspace c = false

/-- `> value` with the blanks around the sign; those behind the sign of an empty value belong to the
end of the item. -/
structure ValueText where
  before : Blanks
  after : Blanks
  field : Field
  after_nil : field.text = [] → after.text = []

structure Parts where
  scope : Option ScopeText
  type : Field
  type_ne : type.text ≠ []
  value : Option ValueText

namespace Parts
variable (t : Parts) {c : Char}

def scopeText : List Char :=
  match t.scope with
  | none => []
  | some o => o.word ++ attrActionScope :: o.after.text

def typeValue : List Char :=
  t.type.text ++ match t.value with
    | none => []
    | some v => v.before.text ++ attrEquality :: (v.after.text ++ v.field.text)

def core : List Char := t.scopeText ++ t.typeValue

def ope : ℕ := if t.scope.isSome then attrOpe t.core else ldapModBvalues

def newValue (lib : LdapLib) (dn : List Char) : Option (Option (List Char)) :=
  match t.value with
  | none => some none
  | some v => if v.field.text = [] then some none else substitute lib dn v.field.text

lemma notMem_scopeText (hc : c ∈ delimiters) (hne : c ≠ attrActionScope) : c ∉ t.scopeText := by
  cases ho : t.scope with
  | none => simp [scopeText, ho]
  | some o => simp [scopeText, ho, o.plain c hc, o.after.notMem hc, hne]

lemma notMem_typeValue (hc : c ∈ delimiters) (hne : c ≠ attrEquality) : c ∉ t.typeValue := by
  cases hv : t.value with
  | none => simp [typeValue, hv, t.type.plain c hc]
  | some v =>
    simp [typeValue, hv, t.type.plain c hc, v.before.notMem hc, v.after.notMem hc,
      v.field.plain c hc, hne]

lemma notMem_core (hc : c ∈ delimiters) (hop : c ≠ attrActionScope) (heq : c ≠ attrEquality) :
    c ∉ t.core := by
  simp [core, t.notMem_scopeText hc hop, t.notMem_typeValue hc heq]

lemma nul_notMem_core : nul ∉ t.core := t.notMem_core (by decide) (by decide) (by decide)

lemma delimiter_notMem_core : attrDelimiter ∉ t.core :=
  t.notMem_core (by decide) (by decide) (by decide)

lemma typeValue_ne_nil : t.typeValue ≠ [] := by
  simp [typeValue, t.type_ne]

lemma core_ne_nil : t.core ≠ [] := by
  simp [core, t.typeValue_ne_nil]

lemma typeValue_head : ∀ c ∈ t.typeValue.head?, isspace c = false := by
  rw [typeValue, List.head?_append_of_ne_nil _ t.type_ne]
  exact t.type.trimmed.head

lemma typeValue_last : ∀ c ∈ t.typeValue.getLast?, isspace c = false := by
  cases hv : t.value with
  | none =>
    simp only [typeValue, hv, List.append_nil]
    exact t.type.trimmed.last
  | some v =>
    by_cases hnil : v.field.text = []
    · -- the sign ends the item
      simp only [typeValue, hv, hnil, v.after_nil hnil]
      simp [show isspace attrEquality = false by decide]
    · have h : t.typeValue = (t.type.text ++ (v.before.text ++ attrEquality :: v.after.text)) ++
          v.field.text := by
        simp [typeValue, hv]
      rw [h, List.getLast?_append_of_ne_nil _ hnil]
      exact v.field.trimmed.last

lemma core_head : ∀ c ∈ t.core.head?, isspace c = false := by
  cases ho : t.scope with
  | none =>
    simp only [core, scopeText, ho, List.nil_append]
    exact t.typeValue_head
  | some o =>
    by_cases hnil : o.word = []
    · -- the colon starts the item
      simp [core, scopeText, ho, hnil, show isspace attrActionScope = false by decide]
    · simp only [core, scopeText, ho, List.append_assoc]
      rw [List.head?_append_of_ne_nil _ hnil]
      exact o.head

lemma core_last : ∀ c ∈ t.core.getLast?, isspace c = false := by
  rw [core, List.getLast?_append_of_ne_nil _ t.typeValue_ne_nil]
  exact t.typeValue_last

def item (lead trail : Blanks) : ItemText where
  lead := lead
  core := t.core
  trail := trail
  ne_nil := t.core_ne_nil
  trimmed := ⟨t.core_head, t.core_last⟩
  no_nul := t.nul_notMem_core
  no_delimiter := t.delimiter_notMem_core

lemma skipOpe_core {u v : List Char} : skipOpe (u ++ (t.core ++ nul :: v)) u.length =
    some (t.ope, u.length + t.scopeText.length) := by
  have htv := t.notMem_typeValue (c := attrActionScope) (by decide) (by decide)
  cases ho : t.scope with
  | none =>
    have hcolon : attrActionScope ∉ t.core := by
      simpa [core, scopeText, ho] using htv
    simp [skipOpe, strchr_eq_none rfl rfl t.nul_notMem_core hcolon, ope, scopeText, ho]
  | some o =>
    have hskip := skipOpe_colon (u := u) (v := v) (o.plain nul (by decide))
      (o.plain attrActionScope (by decide)) o.after.blank
      (t.notMem_typeValue (c := nul) (by decide) (by decide)) t.typeValue_head
    have hcore : t.core = o.word ++ attrActionScope :: (o.after.text ++ t.typeValue) := by
      simp [core, scopeText, ho]
    rw [← hcore] at hskip
    rw [hskip]
    simp [ope, scopeText, ho]

variable {lib : LdapLib} {dn : List Char} {r : Option (List Char)}

lemma explode_typeValue (hr : t.newValue lib dn = some r) (u v : List Char) :
    ∃ y, y.length = t.typeValue.length ∧
      attrTypeValueExplode lib dn (u ++ (t.typeValue ++ nul :: v)) u.length =
        some (u ++ (y ++ nul :: v), t.type.text, r) := by
  have htype : ∀ c ∈ delimiters, c ∉ t.type.text := t.type.plain
  cases hv : t.value with
  | none =>
    have h : t.typeValue = t.type.text := by
      simp [typeValue, hv]
    obtain rfl : none = r := by simpa [newValue, hv] using hr
    refine ⟨t.typeValue, rfl, ?_⟩
    rw [h, explode_type (htype nul (by decide)) (htype attrEquality (by decide))]
  | some z =>
    have h : t.typeValue = t.type.text ++
        (z.before.text ++ attrEquality :: (z.after.text ++ z.field.text)) := by
      simp [typeValue, hv]
    rw [newValue, hv] at hr
    refine ⟨t.type.text ++ (List.replicate z.before.text.length nul ++
      nul :: (z.after.text ++ z.field.text)), by simp [h], ?_⟩
    have hexp := explode_value (u := u) (v := v) (htype nul (by decide))
      (htype attrEquality (by decide)) t.type_ne t.type.trimmed.last z.before.blank z.after.blank
      (z.field.plain nul (by decide)) z.field.trimmed.head hr
    simpa [h] using hexp

lemma reads (hr : t.newValue lib dn = some r) : Reads lib dn t.core ⟨t.type.text, r, t.ope⟩ :=
  Reads.of_front rfl (fun _ _ => t.skipOpe_core) (t.explode_typeValue hr)

end Parts

namespace Printed
variable (p : Printed) {c : Char}

/-- What stands before the colon, without the blanks at the start of the item. -/
def scopeWord (o : Operation) : List Char :=
  (p.lead.text ++ (o.word.text ++ o.before.text)).dropWhile isspace

lemma scopeWord_plain (o : Operation) : ∀ c ∈ delimiters, c ∉ p.scopeWord o := by
  intro c hc h
  have hmem := (List.dropWhile_suffix isspace).subset h
  simp [p.lead.notMem hc, o.word.plain c hc, o.before.notMem hc] at hmem

lemma head_dropWhile (s : List Char) : ∀ c ∈ (s.dropWhile isspace).head?, isspace c = false := by
  intro c hc
  have h := List.head?_dropWhile_not isspace s
  rw [Option.mem_def] at hc
  rw [hc] at h
  exact h

def parts : Parts where
  scope := p.op.map fun o => ⟨p.scopeWord o, o.after, p.scopeWord_plain o, head_dropWhile _⟩
  type := p.type
  type_ne := p.type_ne
  value := p.value.map fun v => ⟨v.before, v.after, v.field, fun h => absurd h v.ne_nil⟩

lemma typeValue_eq : p.typeValue = p.parts.typeValue := by
  cases hv : p.value <;> simp [typeValue, Parts.typeValue, parts, hv]

lemma core_eq : p.core = p.parts.core := by
  cases ho : p.op with
  | none =>
    have hhead := p.parts.typeValue_head
    rw [← typeValue_eq] at hhead
    have hcore : p.parts.core = p.typeValue := by
      simp [Parts.core, Parts.scopeText, parts, ho, typeValue_eq]
    rw [hcore, core, front, ho, List.append_nil, dropWhile_append_of_head p.lead.blank hhead]
  | some o =>
    have h : p.front ++ p.typeValue = (p.lead.text ++ (o.word.text ++ o.before.text)) ++
        attrActionScope :: (o.after.text ++ p.typeValue) := by
      simp [front, ho]
    rw [core, h, dropWhile_append_cons (by decide), typeValue_eq]
    simp [Parts.core, Parts.scopeText, parts, ho, scopeWord]

def blanks : List Char := (p.front ++ p.typeValue).takeWhile isspace

lemma blanks_isspace : ∀ c ∈ p.blanks, isspace c := fun _ => List.mem_takeWhile_imp

def item : ItemText := p.parts.item ⟨p.blanks, p.blanks_isspace⟩ p.trail

lemma item_text : p.item.text = p.text := by
  have h : p.item.text = p.blanks ++ (p.core ++ p.trail.text) := by
    rw [core_eq]
    rfl
  rw [h, ← List.append_assoc, blanks, core, List.takeWhile_append_dropWhile, text, List.append_assoc]

lemma attr_eq : p.attr = ⟨p.parts.type.text, p.value.map (·.field.text), p.parts.ope⟩ := by
  simp [attr, Parts.ope, parts, core_eq]

lemma newValue_eq (lib : LdapLib) (dn : List Char) :
    p.parts.newValue lib dn = some (p.value.map (·.field.text)) := by
  cases hv : p.value with
  | none => simp [Parts.newValue, parts, hv]
  | some v => simp [Parts.newValue, parts, hv, v.ne_nil, substitute_plain v.no_rdn v.no_dn]

lemma reads (lib : LdapLib) (dn : List Char) : Reads lib dn p.item.core p.attr := by
  rw [attr_eq]
  exact p.parts.reads (p.newValue_eq lib dn)

end Printed

section List
variable (lib : LdapLib) (dn : List Char)

/-- The types and values of a printed list are read back, each array ends with a null entry. -/
theorem attrs_read_back (ps : List Printed) (hne : ps ≠ []) :
    ∃ attrs, attrsBuild lib dn (printItems ps) = some attrs ∧ attrs.attrsNb = ps.length ∧
      attrs.attrsType = ps.map (some ·.type.text) ++ [none] ∧
      attrs.attrsValue = ps.map (·.value.map (·.field.text)) ++ [none] := by
  have hjoin : printItems ps = joinItems Printed.item ps := by
    simp [printItems, joinItems, Printed.item_text]
  rw [hjoin, attrsBuild_joinItems Printed.item Printed.attr hne fun p _ => p.reads lib dn]
  exact ⟨_, rfl, rfl, rfl, rfl⟩

end List

def Blanks.ofText (s : List Char) (h : s.all isspace) : Blanks := ⟨s, isspace_of_all h⟩

def Field.ofText (s : List Char) (h : delimiters.all (· ∉ s)) (ht : Trimmed s) : Field :=
  ⟨s, by simpa using h, ht⟩

def replaceName : Printed where
  lead := .ofText [' '] isspace_blank
  op := some ⟨.ofText "replace".toList (by decide) (by decide), .ofText [' '] isspace_blank,
    .ofText [' '] isspace_blank⟩
  type := .ofText "cn".toList (by decide) (by decide)
  type_ne := by decide
  value := some ⟨.ofText [' '] isspace_blank, .ofText [' '] isspace_blank,
    .ofText "Joe Doe".toList (by decide) (by decide), by decide, by decide, by decide⟩
  trail := .ofText [' '] isspace_blank

def mailOnly : Printed where
  lead := .ofText [] (by decide)
  op := none
  type := .ofText "mail".toList (by decide) (by decide)
  type_ne := by decide
  value := none
  trail := .ofText [] (by decide)

theorem name_and_mail_read_back :
    ∃ attrs, attrsBuild ⟨fun _ => none, fun _ => none⟩ [] " replace : cn > Joe Doe |mail".toList =
        some attrs ∧ attrs.attrsNb = 2 ∧
      attrs.attrsType = [some "cn".toList, some "mail".toList, none] ∧
      attrs.attrsValue = [some "Joe Doe".toList, none, none] :=
  attrs_read_back ⟨fun _ => none, fun _ => none⟩ [] [replaceName, mailOnly] (by simp)

end LdapTgen.AttrsBuild
