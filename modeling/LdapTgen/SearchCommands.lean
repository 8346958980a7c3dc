import LdapTgen.AttrsBuild
import LdapTgen.SearchModes

/-! The commands of a search from their text to the result: `attrs_build` reads them as a list of
attributes, and `tLdap_SearchResult` runs them on the entry that was found. The number of `_getAsBase_` is
that of an addition, and every command looks for the attribute of the first item. -/
namespace LdapTgen.SearchCommands
open CString LdapControls AttrsBuild SearchModes

def keywdGetAsBase : Text := "_getAsBase_".toList

/-- The commands that `tLdap_SearchResult` finds in the arrays of `attrs_build`. -/
def commandsOf (attrs : Attrs) : List Cmd :=
  ((attrs.attrsType.zip attrs.attrsOpe).take attrs.attrsNb).map fun c => ⟨c.2, c.1.getD []⟩

/-- A command list on a search that succeeded: the result code and the base of `*cmd_res`. -/
def runCommands (lib : LdapLib) (dn cmdList : Text) (res : Message) : Option (ℤ × Option Text) := do
  let cmds ← parseCmds (fun t => (attrsBuild lib dn t).map commandsOf) cmdList
  let (rc, cmdRes) ← tLdapSearchResult cmdList ldapSuccess ⟨cmds, ldapSuccess, some res⟩
  some (rc, cmdRes.bind (·.base))

structure Attribute where
  type : Text
  first : Text
  more : List Text

def message (entry : List Attribute) : Message := entry.map fun a => (a.type, a.first :: a.more)

def firstValue (entry : List Attribute) (type : Text) : Option Text :=
  (ldapGetValues (message entry) type).bind List.head?

def isGetAsBase (p : Printed) : Bool := (p.op.map (·.word.text)) = some keywdGetAsBase

def namedTypes (ps : List Printed) : List Text := (ps.filter isGetAsBase).map (·.type.text)

/-- What the commands are for: the last named attribute that the entry has is the base, and an attribute
that it does not have is an error. -/
def meant (ps : List Printed) (entry : List Attribute) : ℤ × Option Text :=
  (if ∀ t ∈ namedTypes ps, (firstValue entry t).isSome then ldapSuccess else ldapOperationsError,
    (namedTypes ps).reverse.findSome? (firstValue entry))

section Entry
variable {entry : List Attribute} {type : Text}

variable (entry type) in
lemma getValues_message : ldapGetValues (message entry) type = none ∧ firstValue entry type = none ∨
    ∃ v vs, ldapGetValues (message entry) type = some (v :: vs) ∧ firstValue entry type = some v := by
  have hfind : ldapGetValues (message entry) type =
      (entry.find? (stricmp type ·.type)).map fun a => a.first :: a.more := by
    simp [ldapGetValues, message, List.find?_map, Function.comp_def]
  rw [firstValue, hfind]
  cases entry.find? (stricmp type ·.type) with
  | none => exact .inl ⟨rfl, rfl⟩
  | some a => exact .inr ⟨a.first, a.more, rfl, rfl⟩

lemma firstValue_congr {t : Text} (h : stricmp t type) : firstValue entry t = firstValue entry type := by
  have hmap : t.map Char.toLower = type.map Char.toLower := of_decide_eq_true h
  simp only [firstValue, ldapGetValues, stricmp, hmap]

lemma cmdLoop_present {m : Message} {v : Text} {vs : List Text} (h : ldapGetValues m type = some (v :: vs))
    (cs : List Cmd) (r : CmdRes) (rc : ℤ) :
    (cmdLoop (some m) type cs r rc).map (fun t => (t.1.base, t.2)) =
      some (if ∃ c ∈ cs, c.ope = cmdGetAsBase then some v else r.base, rc) := by
  induction cs generalizing r with
  | nil => simp [cmdLoop]
  | cons c cs ih =>
    by_cases hc : c.ope = cmdGetAsBase
    · rw [cmdLoop, if_pos hc]
      simp only [h]
      rw [ih, ite_self, if_pos ⟨c, List.mem_cons_self, hc⟩]
    · rw [cmdLoop, if_neg hc, ih]
      simp [hc]

lemma cmdLoop_absent {m : Message} (h : ldapGetValues m type = none) (cs : List Cmd) (r : CmdRes) (rc : ℤ) :
    (cmdLoop (some m) type cs r rc).map (fun t => (t.1.base, t.2)) =
      some (r.base, if ∃ c ∈ cs, c.ope = cmdGetAsBase then ldapOperationsError else rc) := by
  induction cs generalizing rc with
  | nil => simp [cmdLoop]
  | cons c cs ih =>
    by_cases hc : c.ope = cmdGetAsBase
    · rw [cmdLoop, if_pos hc]
      simp only [h]
      rw [ih, ite_self, if_pos ⟨c, List.mem_cons_self, hc⟩]
    · rw [cmdLoop, if_neg hc, ih]
      simp [hc]

end Entry

lemma take_zip_ends {α β γ : Type} (f : α → β) (g : α → γ) (l : List α) (b : β) (c : γ) :
    ((l.map f ++ [b]).zip (l.map g ++ [c])).take l.length = l.map fun a => (f a, g a) := by
  rw [List.zip_append (by simp), List.zip_map', List.take_left' (by simp)]

def fetched (entry : List Attribute) (type : Text) : ℤ × Option Text :=
  match firstValue entry type with
  | some v => (ldapSuccess, some v)
  | none => (ldapOperationsError, none)

section Commands
variable (lib : LdapLib) (dn : Text) (ps : List Printed)

def firstType (ps : List Printed) : Text := (ps.head?.map (·.type.text)).getD []

def HasGet (ps : List Printed) : Prop := ∃ p ∈ ps, p.attr.ope = ldapModAdd

instance decidableHasGet : Decidable (HasGet ps) := List.decidableBEx _ _

lemma commandsOf_printed (hne : ps ≠ []) :
    (attrsBuild lib dn (printItems ps)).map commandsOf =
      some (ps.map fun p => ⟨p.attr.ope, p.type.text⟩) := by
  have hjoin : printItems ps = joinItems Printed.item ps := by
    simp [printItems, joinItems, Printed.item_text]
  rw [hjoin, attrsBuild_joinItems Printed.item Printed.attr hne fun p _ => p.reads lib dn]
  simp only [Option.map_some, commandsOf, take_zip_ends, List.map_map, Function.comp_def,
    Option.getD_some]
  rfl

lemma printItems_ne_nil (hne : ps ≠ []) : printItems ps ≠ [] := by
  obtain ⟨p, ps, rfl⟩ := List.exists_cons_of_ne_nil hne
  have htext : p.text ≠ [] := by
    simp [Printed.text, Printed.typeValue, p.type_ne]
  cases ps <;> simp [printItems, htext]

lemma runCommands_of_loop {entry : List Attribute} {rc : ℤ} {base : Option Text} (hne : ps ≠ [])
    (h : (cmdLoop (some (message entry)) (firstType ps) (ps.map fun p => ⟨p.attr.ope, p.type.text⟩)
      ⟨none, none⟩ ldapSuccess).map (fun t => (t.1.base, t.2)) = some (base, rc)) :
    runCommands lib dn (printItems ps) (message entry) = some (rc, base) := by
  obtain ⟨⟨r, rc'⟩, hloop, hpair⟩ := Option.map_eq_some_iff.mp h
  cases hpair
  have htype : (((ps.map fun p => (⟨p.attr.ope, p.type.text⟩ : Cmd)).head?.map Cmd.type).getD []) =
      firstType ps := by
    simp [firstType, List.head?_map, Function.comp_def]
  have hexec : execCmds (printItems ps)
      ⟨ps.map fun p => ⟨p.attr.ope, p.type.text⟩, ldapSuccess, some (message entry)⟩ =
        some (some r, rc') := by
    rw [execCmds, if_pos ⟨printItems_ne_nil ps hne, rfl⟩]
    simp only [htype, hloop, Option.map_some]
  have hrc : (if rc' ≠ ldapSuccess then rc' else 0) = rc' := by
    by_cases hz : rc' = ldapSuccess
    · simp [hz, ldapSuccess]
    · simp [hz]
  rw [runCommands, parseCmds, if_pos (printItems_ne_nil ps hne), commandsOf_printed lib dn ps hne]
  simp only [Option.bind_eq_bind, Option.bind_some, tLdapSearchResult, hexec, Option.map_some, hrc]

lemma runCommands_eq (entry : List Attribute) : runCommands lib dn (printItems ps) (message entry) =
    some (if HasGet ps then fetched entry (firstType ps) else (ldapSuccess, none)) := by
  by_cases hne : ps = []
  · subst hne
    rfl
  have hget : (∃ c ∈ ps.map fun p => (⟨p.attr.ope, p.type.text⟩ : Cmd), c.ope = cmdGetAsBase) ↔
      HasGet ps := by
    simp [HasGet, cmdGetAsBase, ldapModAdd]
  rw [apply_ite some]
  rcases getValues_message entry (firstType ps) with ⟨hl, hf⟩ | ⟨v, vs, hl, hf⟩
  · have hloop := cmdLoop_absent hl (ps.map fun p => ⟨p.attr.ope, p.type.text⟩) ⟨none, none⟩ ldapSuccess
    simp only [hget] at hloop
    split_ifs at hloop ⊢ with h
    · rw [fetched, hf]
      exact runCommands_of_loop lib dn ps hne hloop
    · exact runCommands_of_loop lib dn ps hne hloop
  · have hloop := cmdLoop_present hl (ps.map fun p => ⟨p.attr.ope, p.type.text⟩) ⟨none, none⟩ ldapSuccess
    simp only [hget] at hloop
    split_ifs at hloop ⊢ with h
    · rw [fetched, hf]
      exact runCommands_of_loop lib dn ps hne hloop
    · exact runCommands_of_loop lib dn ps hne hloop

end Commands

/-- The number of the keyword occurs exactly if the keyword does, and every command names the first
type, in capitals or not. -/
def Uniform (ps : List Printed) : Prop :=
  (HasGet ps ↔ namedTypes ps ≠ []) ∧ ∀ t ∈ namedTypes ps, stricmp t (firstType ps)

instance (ps : List Printed) : Decidable (Uniform ps) := instDecidableAnd

section Meant
variable {ps : List Printed} {entry : List Attribute}

lemma findSome?_of_const {α β : Type} {f : α → Option β} {l : List α} {v : Option β} (hne : l ≠ [])
    (h : ∀ a ∈ l, f a = v) : l.findSome? f = v := by
  obtain ⟨a, l, rfl⟩ := List.exists_cons_of_ne_nil hne
  rw [List.findSome?_cons, h a List.mem_cons_self]
  cases v with
  | some v => rfl
  | none => exact List.findSome?_eq_none_iff.mpr fun b hb => h b (List.mem_cons_of_mem a hb)

lemma meant_of_one {type : Text} (hne : namedTypes ps ≠ []) (h : ∀ t ∈ namedTypes ps, stricmp t type) :
    meant ps entry = fetched entry type := by
  have hall : (∀ t ∈ namedTypes ps, (firstValue entry t).isSome) ↔ (firstValue entry type).isSome := by
    obtain ⟨t, ht⟩ := List.exists_mem_of_ne_nil _ hne
    constructor
    · intro hall
      rw [← firstValue_congr (h t ht)]
      exact hall t ht
    · intro hsome t ht
      rwa [firstValue_congr (h t ht)]
  have hlast : (namedTypes ps).reverse.findSome? (firstValue entry) = firstValue entry type :=
    findSome?_of_const (List.reverse_ne_nil_iff.mpr hne) fun t ht =>
      firstValue_congr (h t (List.mem_reverse.mp ht))
  rw [meant, hlast, fetched]
  cases hf : firstValue entry type with
  | some v => simp [hall, hf]
  | none => simp [hall, hf]

lemma meant_of_none (h : namedTypes ps = []) : meant ps entry = (ldapSuccess, none) := by
  simp [meant, h]

lemma meant_rc_of_absent {t : Text} (ht : t ∈ namedTypes ps) (h : firstValue entry t = none) :
    (meant ps entry).1 = ldapOperationsError := by
  rw [meant, if_neg]
  intro hall
  simpa [h] using hall t ht

end Meant

/-- The commands of a search do what they say, whatever the entry is, exactly if the list is uniform. -/
theorem search_commands_iff (lib : LdapLib) (dn : Text) (ps : List Printed) :
    (∀ entry, runCommands lib dn (printItems ps) (message entry) = some (meant ps entry)) ↔
      Uniform ps := by
  have hne : ldapSuccess ≠ ldapOperationsError := by decide
  have hrun : ∀ entry, runCommands lib dn (printItems ps) (message entry) = some (meant ps entry) ↔
      (if HasGet ps then fetched entry (firstType ps) else (ldapSuccess, none)) = meant ps entry := by
    intro entry
    rw [runCommands_eq, Option.some_inj]
  rw [forall_congr' hrun]
  constructor
  · intro h
    have hempty := h []
    have hone := h [⟨firstType ps, [], []⟩]
    refine ⟨⟨fun hget hnil => ?_, fun hnamed => ?_⟩, fun t ht => ?_⟩
    · -- nothing is named, and the code finds no attribute
      rw [if_pos hget, meant_of_none hnil] at hempty
      exact hne (congrArg Prod.fst hempty).symm
    · -- an attribute is named, and the code looks for none
      obtain ⟨t, ht⟩ := List.exists_mem_of_ne_nil _ hnamed
      by_contra hget
      rw [if_neg hget] at hempty
      exact hne ((congrArg Prod.fst hempty).trans (meant_rc_of_absent ht rfl))
    · -- the entry has the first type only
      by_contra htype
      have habsent : firstValue [⟨firstType ps, [], []⟩] t = none := by
        simp [firstValue, ldapGetValues, message, htype]
      have hfirst : firstValue [⟨firstType ps, [], []⟩] (firstType ps) = some [] := by
        simp [firstValue, ldapGetValues, message, stricmp_self]
      have hrc : (if HasGet ps then fetched [⟨firstType ps, [], []⟩] (firstType ps)
          else (ldapSuccess, none)).1 = ldapSuccess := by
        rw [fetched, hfirst]
        split_ifs <;> rfl
      rw [hone] at hrc
      exact hne (hrc.symm.trans (meant_rc_of_absent ht habsent))
  · rintro ⟨hget, htype⟩ entry
    by_cases hnamed : namedTypes ps = []
    · rw [if_neg fun hg => hget.mp hg hnamed, meant_of_none hnamed]
    · rw [if_pos (hget.mpr hnamed), meant_of_one hnamed htype]

/-- `word : type` -/
def command (word type : Field) (hne : type.text ≠ []) : Printed where
  lead := .ofText [] isspace_nil
  op := some ⟨word, .ofText [' '] isspace_blank, .ofText [' '] isspace_blank⟩
  type := type
  type_ne := hne
  value := none
  trail := .ofText [] isspace_nil

def getAsBase (type : Field) (hne : type.text ≠ []) : Printed :=
  command (.ofText keywdGetAsBase (by decide) (by decide)) type hne

def memberOf : Field := .ofText "memberOf".toList (by decide) (by decide)

/-- One attribute under two spellings. -/
example : Uniform [getAsBase memberOf (by decide),
    getAsBase (.ofText "MEMBEROF".toList (by decide) (by decide)) (by decide)] := by decide

def seeAlso : Field := .ofText "seeAlso".toList (by decide) (by decide)

def twoCommands : List Printed := [getAsBase memberOf (by decide), getAsBase seeAlso (by decide)]

def countCommand : List Printed :=
  [command (.ofText "count".toList (by decide) (by decide)) seeAlso (by decide)]

def memberEntry : List Attribute :=
  [⟨"memberOf".toList, ['x'], []⟩, ⟨"seeAlso".toList, ['y'], []⟩]

/-- The base is the value of the first type where the last one was named, and a word that is no keyword
is run. -/
theorem commands_misread :
    printItems twoCommands = "_getAsBase_ : memberOf|_getAsBase_ : seeAlso".toList ∧
    meant twoCommands memberEntry = (ldapSuccess, some ['y']) ∧
    meant countCommand [] = (ldapSuccess, none) ∧
    ∀ (lib : LdapLib) (dn : Text),
      runCommands lib dn (printItems twoCommands) (message memberEntry) =
        some (ldapSuccess, some ['x']) ∧
      runCommands lib dn (printItems countCommand) (message []) =
        some (ldapOperationsError, none) := by
  refine ⟨by decide, by decide, by decide, ?_⟩
  intro lib dn
  rw [runCommands_eq, runCommands_eq]
  decide

end LdapTgen.SearchCommands
