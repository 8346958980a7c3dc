import LdapTgen.AttrsBuild

/-! The operations of an attribute list. `attrs_build` searches the words `add`, `delete` and `replace`
in the whole item, in this order, so that the type or the value can hide the word before the colon. -/
namespace LdapTgen.AttrsBuild
open CString

inductive Op
  | add
  | delete
  | replace
  deriving DecidableEq, Repr

namespace Op

def word : Op → List Char
  | add => "add".toList
  | delete => "delete".toList
  | replace => "replace".toList

def ope : Op → ℕ
  | add => ldapModAdd
  | delete => ldapModDelete
  | replace => ldapModReplace

def earlier : Op → List Op
  | add => []
  | delete => [add]
  | replace => [add, delete]

end Op

/-- `op :` with the blanks around the colon. -/
structure Scope where
  op : Op
  before : Blanks
  after : Blanks

section Words
variable {w o : Op} {b s t : List Char} {c : Char}

lemma Op.word_ne_nil : w.word ≠ [] := by
  cases w <;> decide

lemma Op.notMem_word (hc : c ∈ delimiters) : c ∉ w.word := by
  fin_cases hc <;> cases w <;> decide

lemma Op.word_all : w.word.all (!isspace ·) := by
  cases w <;> decide

lemma Op.blank_notMem_word (hc : isspace c) : c ∉ w.word := by
  intro h
  have hall := List.all_eq_true.mp (Op.word_all (w := w)) c h
  simp [hc] at hall

lemma Op.word_trimmed : Trimmed w.word := by
  cases w <;> decide

lemma Op.not_infix_of_earlier (h : w ∈ o.earlier) : ¬ w.word <:+: o.word := by
  cases o <;> cases w <;> revert h <;> decide

lemma infix_blanks_append (hb : ∀ c ∈ b, isspace c) : w.word <:+: b ++ t ↔ w.word <:+: t :=
  infix_append_disjoint Op.word_ne_nil fun c hc => Op.blank_notMem_word (hb c hc)

lemma infix_append_blanks (hb : ∀ c ∈ b, isspace c) : w.word <:+: s ++ b ↔ w.word <:+: s :=
  infix_append_disjoint_right Op.word_ne_nil fun c hc => Op.blank_notMem_word (hb c hc)

lemma infix_sign {a : List Char} (hc : c ∈ delimiters) (hb : ∀ c ∈ b, isspace c)
    (ha : ∀ c ∈ a, isspace c) :
    w.word <:+: s ++ (b ++ c :: (a ++ t)) ↔ w.word <:+: s ∨ w.word <:+: t := by
  rw [← List.append_assoc, infix_append_cons (Op.notMem_word hc), infix_append_blanks hb,
    infix_blanks_append ha]

lemma attrOpe_eq : attrOpe s =
    if Op.add.word <:+: s then ldapModAdd
    else if Op.delete.word <:+: s then ldapModDelete
    else if Op.replace.word <:+: s then ldapModReplace
    else ldapModAdd := by
  simp only [attrOpe, strstr_isSome]
  rfl

lemma attrOpe_eq_iff (ho : o.word <:+: s) :
    attrOpe s = o.ope ↔ ∀ w ∈ o.earlier, ¬ w.word <:+: s := by
  rw [attrOpe_eq]
  by_cases ha : Op.add.word <:+: s
  · cases o <;> simp [Op.ope, Op.earlier, ha, ldapModAdd, ldapModDelete, ldapModReplace]
  by_cases hd : Op.delete.word <:+: s
  · cases o with
    | add => exact absurd ho ha
    | delete => simp [Op.ope, Op.earlier, ha, hd]
    | replace => simp [Op.ope, Op.earlier, ha, hd, ldapModDelete, ldapModReplace]
  · cases o with
    | add => exact absurd ho ha
    | delete => exact absurd ho hd
    | replace => simp [Op.ope, Op.earlier, ha, hd, ho]

end Words

lemma Scope.plain (o : Scope) : ∀ c ∈ delimiters, c ∉ o.op.word ++ o.before.text := by
  intro c hc
  simp [Op.notMem_word hc, o.before.notMem hc]

lemma Scope.head (o : Scope) : ∀ c ∈ (o.op.word ++ o.before.text).head?, isspace c = false := by
  rw [List.head?_append_of_ne_nil _ Op.word_ne_nil]
  exact Op.word_trimmed.head

def Scope.text (o : Scope) : ScopeText := ⟨o.op.word ++ o.before.text, o.after, o.plain, o.head⟩

/-- One item `[op :] type [> value]`, the operation one of the three words. -/
structure Written where
  lead : Blanks
  scope : Option Scope
  type : Field
  type_ne : type.text ≠ []
  value : Option ValueText
  trail : Blanks

namespace Written
variable (p : Written)

def parts : Parts where
  scope := p.scope.map Scope.text
  type := p.type
  type_ne := p.type_ne
  value := p.value

def text : List Char := p.lead.text ++ (p.parts.core ++ p.trail.text)

def ope : ℕ :=
  match p.scope with
  | none => ldapModBvalues
  | some o => o.op.ope

def valueText : List Char :=
  match p.value with
  | none => []
  | some v => v.field.text

/-- Neither the type nor the value contains a word that is searched before the one written. -/
def Unhidden : Prop :=
  ∀ o ∈ p.scope, ∀ w ∈ o.op.earlier, ¬ w.word <:+: p.type.text ∧ ¬ w.word <:+: p.valueText

instance : Decidable p.Unhidden := by
  unfold Unhidden
  infer_instance

/-- The LDAP library finds the parts of the entry's name that the value asks for. -/
def Substitutes (lib : LdapLib) (dn : List Char) : Prop := (substitute lib dn p.valueText).isSome

end Written

def printWritten (ps : List Written) : List Char :=
  [attrDelimiter].intercalate (ps.map Written.text)

namespace Written
variable (p : Written)

def item : ItemText := p.parts.item p.lead p.trail

lemma reads {lib : LdapLib} {dn : List Char} (hsub : p.Substitutes lib dn) :
    ∃ r, Reads lib dn p.item.core ⟨p.type.text, r, p.parts.ope⟩ := by
  obtain ⟨r, hr⟩ : ∃ r, p.parts.newValue lib dn = some r := by
    rw [← Option.isSome_iff_exists]
    cases hv : p.value with
    | none => simp [Parts.newValue, parts, hv]
    | some z =>
      have hval : p.valueText = z.field.text := by
        simp [valueText, hv]
      rw [Substitutes, hval] at hsub
      simp only [Parts.newValue, parts, hv]
      split
      · rfl
      · exact hsub
  exact ⟨r, p.parts.reads hr⟩

lemma infix_core {o : Scope} (ho : p.scope = some o) (w : Op) :
    w.word <:+: p.parts.core ↔
      w.word <:+: o.op.word ∨ w.word <:+: p.type.text ∨ w.word <:+: p.valueText := by
  have hcore : p.parts.core =
      o.op.word ++ (o.before.text ++ attrActionScope :: (o.after.text ++ p.parts.typeValue)) := by
    simp [Parts.core, Parts.scopeText, parts, Scope.text, ho]
  rw [hcore, infix_sign (by decide) o.before.blank o.after.blank]
  cases hv : p.value with
  | none => simp [Parts.typeValue, parts, valueText, hv, Op.word_ne_nil]
  | some v =>
    simp only [Parts.typeValue, parts, valueText, hv]
    rw [infix_sign (by decide) v.before.blank v.after.blank]

lemma ope_eq_iff : p.parts.ope = p.ope ↔ p.Unhidden := by
  cases ho : p.scope with
  | none => simp [Parts.ope, parts, ope, Unhidden, ho]
  | some o =>
    have hown : o.op.word <:+: p.parts.core := (p.infix_core ho o.op).mpr (Or.inl List.infix_rfl)
    have hword : ∀ w ∈ o.op.earlier, (¬ w.word <:+: p.parts.core ↔
        ¬ w.word <:+: p.type.text ∧ ¬ w.word <:+: p.valueText) := by
      intro w hw
      rw [p.infix_core ho w, or_iff_right (Op.not_infix_of_earlier hw), not_or]
    have hscope : p.parts.scope.isSome := by
      simp [parts, ho]
    simp only [Parts.ope, hscope, if_true, ope, Unhidden, ho, attrOpe_eq_iff hown, Option.mem_def,
      Option.some.injEq, forall_eq']
    exact forall₂_congr hword

end Written

/-- Each item of a list gets the operation written before its colon exactly if neither its type nor its
value contains a word that is searched before that one. -/
theorem operations_built (lib : LdapLib) (dn : List Char) (ps : List Written) (hne : ps ≠ [])
    (hsub : ∀ p ∈ ps, p.Substitutes lib dn) :
    ∃ attrs, attrsBuild lib dn (printWritten ps) = some attrs ∧ attrs.attrsNb = ps.length ∧
      ∀ (i : ℕ) (p : Written), ps[i]? = some p → (attrs.attrsOpe[i]? = some p.ope ↔ p.Unhidden) := by
  classical
  -- the values do not matter here, so that they are only chosen
  choose! r hread using fun p (hp : p ∈ ps) => p.reads (hsub p hp)
  have hjoin : printWritten ps = joinItems Written.item ps := rfl
  have hbuild := attrsBuild_joinItems Written.item (fun p => ⟨p.type.text, r p, p.parts.ope⟩) hne hread
  refine ⟨_, hjoin ▸ hbuild, rfl, fun i p hp => ?_⟩
  obtain ⟨hi, -⟩ := List.getElem?_eq_some_iff.mp hp
  rw [List.getElem?_append_left (by simpa using hi), List.getElem?_map, hp, Option.map_some,
    Option.some.injEq]
  exact p.ope_eq_iff

def deleteType (type : Field) (hne : type.text ≠ []) : Written where
  lead := .ofText [] rfl
  scope := some ⟨.delete, .ofText [' '] isspace_blank, .ofText [' '] isspace_blank⟩
  type := type
  type_ne := hne
  value := none
  trail := .ofText [] rfl

def phoneType : Field := .ofText "phone".toList (by decide) (by decide)

def addressType : Field := .ofText "address".toList (by decide) (by decide)

/-- The word `add` in the type turns the deletion into an addition. -/
theorem delete_address_adds :
    printWritten [deleteType addressType (by decide)] = "delete : address".toList ∧
      (attrsBuild ⟨fun _ => none, fun _ => none⟩ [] "delete : address".toList).map (·.attrsOpe) =
        some [ldapModAdd, 0] ∧
      (deleteType addressType (by decide)).ope = ldapModDelete := by
  decide +kernel

theorem delete_phone_deletes :
    ∃ attrs, attrsBuild ⟨fun _ => none, fun _ => none⟩ [] "delete : phone".toList = some attrs ∧
      attrs.attrsNb = 1 ∧ attrs.attrsOpe[0]? = some ldapModDelete := by
  obtain ⟨attrs, hbuild, hnb, hope⟩ := operations_built ⟨fun _ => none, fun _ => none⟩ []
    [deleteType phoneType (by decide)] (by simp) (by simp [Written.Substitutes]; decide)
  exact ⟨attrs, hbuild, hnb, (hope 0 _ rfl).mpr (by decide)⟩

end LdapTgen.AttrsBuild
