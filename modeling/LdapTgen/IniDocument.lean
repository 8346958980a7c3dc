import LdapTgen.ProfileLoad

/-! Documents printed as ini files: sections of keys and values, one item a line, with blanks, empty
lines and comments where the format allows them. Looking a key up in the printed file gives the value
of the document. -/
namespace LdapTgen.IniDocument
open CString Profile

structure Gap where
  text : List Char
  blank : ∀ c ∈ text, isspace c
  no_newline : '\n' ∉ text

structure Word where
  text : List Char
  plain : ∀ c ∈ text, isComment c = false
  no_nul : nul ∉ text
  no_newline : '\n' ∉ text
  trimmed : Trimmed text

structure Comment where
  text : List Char
  sign : ∀ c ∈ text.head?, isComment c
  no_newline : '\n' ∉ text

structure Margin where
  lead : Gap
  trail : Gap
  comment : Comment

def Margin.around (m : Margin) (item : List Char) : List Char :=
  m.lead.text ++ (item ++ (m.trail.text ++ m.comment.text))

/-- A key and its value, with the layout of its line and the empty lines above it. -/
structure Pair where
  key : Word
  value : Word
  key_ne : key.text ≠ []
  key_plain : '=' ∉ key.text
  key_head : key.text.head? ≠ some '[' ∧ key.text.head? ≠ some '$'
  before : Gap
  after : Gap
  margin : Margin
  above : List Margin

structure Sect where
  name : Word
  pairs : List Pair
  left : Gap
  right : Gap
  margin : Margin
  above : List Margin

structure Document where
  sections : List Sect
  below : List Margin

def emptyLines (ms : List Margin) : List (List Char) := ms.map (·.around [])

def Pair.item (p : Pair) : List Char :=
  p.key.text ++ (p.before.text ++ '=' :: (p.after.text ++ p.value.text))

def Pair.lines (p : Pair) : List (List Char) := emptyLines p.above ++ [p.margin.around p.item]

def Sect.item (s : Sect) : List Char :=
  '[' :: (s.left.text ++ (s.name.text ++ (s.right.text ++ [']'])))

def Sect.lines (s : Sect) : List (List Char) :=
  emptyLines s.above ++ s.margin.around s.item :: s.pairs.flatMap Pair.lines

def Document.lines (d : Document) : List (List Char) :=
  d.sections.flatMap Sect.lines ++ emptyLines d.below

/-- The lines with an end of line between them. A file that ends with one has an empty last line. -/
def Document.print (d : Document) : List Char := ['\n'].intercalate d.lines

def Document.lookup (d : Document) (sect key : List Char) : Option (List Char) := do
  let s ← d.sections.find? (stricmp ·.name.text sect)
  let p ← s.pairs.find? (stricmp key ·.key.text)
  some p.value.text

def found : Option (List Char) → Bool × List Char
  | none => (false, [])
  | some value => (true, value)

section Lines

lemma Gap.no_nul (g : Gap) : nul ∉ g.text := nul_notMem_of_isspace g.blank

lemma cText_append {s t : List Char} (hs : nul ∉ s) : cText (s ++ t) = s ++ cText t :=
  List.takeWhile_append_of_pos (all_ne_of_notMem hs)

lemma lineText_around (m : Margin) {item : List Char} (hnul : nul ∉ item)
    (hplain : ∀ c ∈ item, isComment c = false) (hitem : Trimmed item) :
    lineText (m.around item) = item := by
  have hcomment : ∀ c ∈ (cText m.comment.text).head?, isComment c := by
    intro c hc
    obtain ⟨rest, hrest⟩ := List.takeWhile_prefix (l := m.comment.text) (· != nul)
    apply m.comment.sign c
    rw [← hrest]
    exact List.mem_head?_append_of_mem_head? hc
  rw [lineText, Margin.around, cText_append m.lead.no_nul, cText_append hnul,
    cText_append m.trail.no_nul]
  exact strip_append m.lead.blank hplain hitem m.trail.blank hcomment

lemma newline_notMem_around (m : Margin) {item : List Char} (hitem : '\n' ∉ item) :
    '\n' ∉ m.around item := by
  simp [Margin.around, m.lead.no_newline, hitem, m.trail.no_newline, m.comment.no_newline]

lemma lineText_empty (m : Margin) : lineText (m.around []) = [] :=
  lineText_around m (by simp) (by simp) (by decide)

lemma lineTexts_flatMap {α : Type} (xs : List α) (f : α → List (List Char)) :
    lineTexts (xs.flatMap f) = xs.flatMap fun x => lineTexts (f x) := by
  induction xs with
  | nil => rfl
  | cons x xs ih => rw [List.flatMap_cons, List.flatMap_cons, lineTexts_append, ih]

lemma lineTexts_emptyLines (ms : List Margin) : lineTexts (emptyLines ms) = [] := by
  simp [lineTexts, emptyLines, lineText_empty]

/-- The line of a pair as it is stored: the blanks before a value that is empty are cut off. -/
def Pair.text (p : Pair) : List Char :=
  p.key.text ++ (p.before.text ++
    '=' :: (if p.value.text = [] then [] else p.after.text ++ p.value.text))

lemma Pair.head (p : Pair) : p.text.head? = p.key.text.head? :=
  List.head?_append_of_ne_nil _ p.key_ne

lemma not_isComment_gap (g : Gap) : ∀ c ∈ g.text, isComment c = false :=
  fun c hc => not_isComment_of_isspace (g.blank c hc)

lemma Pair.trimmed (p : Pair) : Trimmed p.text := by
  constructor
  · rw [p.head]
    exact p.key.trimmed.head
  · by_cases hv : p.value.text = []
    · have h : p.text = (p.key.text ++ p.before.text) ++ ['='] := by
        simp [text, hv]
      rw [h, List.getLast?_append_of_ne_nil _ (by simp)]
      simp [isspace]
    · have h : p.text = (p.key.text ++ (p.before.text ++ '=' :: p.after.text)) ++ p.value.text := by
        simp [text, hv]
      rw [h, List.getLast?_append_of_ne_nil _ hv]
      exact p.value.trimmed.last

lemma Pair.mem_text (p : Pair) {c : Char} (hc : c ∈ p.text) :
    c ∈ p.key.text ∨ c ∈ p.before.text ∨ c = '=' ∨ c ∈ p.after.text ∨ c ∈ p.value.text := by
  by_cases hv : p.value.text = [] <;> simp [text, hv] at hc <;> tauto

lemma Pair.notMem_text (p : Pair) {c : Char} (hkey : c ∉ p.key.text) (hgap : ∀ g : Gap, c ∉ g.text)
    (heq : c ≠ '=') (hvalue : c ∉ p.value.text) : c ∉ p.text := by
  intro hc
  rcases p.mem_text hc with h | h | h | h | h
  · exact hkey h
  · exact hgap _ h
  · exact heq h
  · exact hgap _ h
  · exact hvalue h

def Gap.append (g k : Gap) : Gap where
  text := g.text ++ k.text
  blank c hc := by
    rw [List.mem_append] at hc
    cases hc with
    | inl h => exact g.blank c h
    | inr h => exact k.blank c h
  no_newline := by simp [g.no_newline, k.no_newline]

lemma Pair.lineText_eq (p : Pair) : lineText (p.margin.around p.item) = p.text := by
  -- behind an empty value, the blanks after the equal sign belong to the margin
  have haround : ∃ m : Margin, p.margin.around p.item = m.around p.text := by
    by_cases hv : p.value.text = []
    · refine ⟨⟨p.margin.lead, p.after.append p.margin.trail, p.margin.comment⟩, ?_⟩
      simp [Margin.around, item, text, hv, Gap.append]
    · exact ⟨p.margin, by simp [Margin.around, item, text, hv]⟩
  obtain ⟨m, hm⟩ := haround
  rw [hm]
  apply lineText_around m _ _ p.trimmed
  · exact p.notMem_text p.key.no_nul Gap.no_nul (by decide) p.value.no_nul
  · intro c hc
    rcases p.mem_text hc with h | h | h | h | h
    · exact p.key.plain c h
    · exact not_isComment_gap _ c h
    · subst h
      decide
    · exact not_isComment_gap _ c h
    · exact p.value.plain c h

lemma Pair.text_ne_nil (p : Pair) : p.text ≠ [] := by
  simp [text]

lemma Pair.lineTexts_eq (p : Pair) : lineTexts p.lines = [p.text] := by
  rw [lines, lineTexts_append, lineTexts_emptyLines, List.nil_append,
    lineTexts_singleton (by rw [p.lineText_eq]; exact p.text_ne_nil), p.lineText_eq]

def Sect.Tight (s : Sect) : Prop := s.left.text = [] ∧ s.right.text = []

lemma Sect.lineText_eq (s : Sect) : lineText (s.margin.around s.item) = s.item := by
  apply lineText_around
  · have hne : nul ≠ '[' ∧ nul ≠ ']' := by decide
    simp [item, s.left.no_nul, s.right.no_nul, s.name.no_nul, hne]
  · intro c hc
    simp only [item, List.mem_cons, List.mem_append, List.not_mem_nil, or_false] at hc
    rcases hc with rfl | h | h | h | rfl
    · decide
    · exact not_isComment_gap _ c h
    · exact s.name.plain c h
    · exact not_isComment_gap _ c h
    · decide
  · constructor
    · simp [item, isspace]
    · have h : s.item = ('[' :: (s.left.text ++ (s.name.text ++ s.right.text))) ++ [']'] := by
        simp [item]
      rw [h, List.getLast?_append_of_ne_nil _ (by simp)]
      simp [isspace]

lemma Sect.lineTexts_eq (s : Sect) : lineTexts s.lines = s.item :: s.pairs.map Pair.text := by
  have hne : lineText (s.margin.around s.item) ≠ [] := by
    rw [s.lineText_eq]
    simp [item]
  rw [lines, lineTexts_append, lineTexts_emptyLines, List.nil_append, lineTexts_cons,
    lineTexts_singleton hne, s.lineText_eq, lineTexts_flatMap, List.singleton_append]
  simp only [Pair.lineTexts_eq, List.map_eq_flatMap]

lemma Document.lineTexts_eq (d : Document) :
    lineTexts d.lines = d.sections.flatMap fun s => s.item :: s.pairs.map Pair.text := by
  rw [lines, lineTexts_append, lineTexts_emptyLines, List.append_nil, lineTexts_flatMap]
  simp only [Sect.lineTexts_eq]

end Lines

section Lookup
variable {sect key : List Char}

lemma strip_word (w : Word) (g k : Gap) : strip (g.text ++ (w.text ++ k.text)) = w.text := by
  have h : strip (g.text ++ (w.text ++ (k.text ++ []))) = w.text :=
    strip_append g.blank w.plain w.trimmed k.blank (by simp)
  simpa using h

def noGap : Gap := ⟨[], by simp, by simp⟩

lemma equal_notMem_gap (g : Gap) : '=' ∉ g.text := fun h => absurd (g.blank '=' h) (by decide)

lemma Pair.lineValue_eq (p : Pair) :
    lineValue key p.text = if stricmp key p.key.text then some p.value.text else none := by
  obtain ⟨value, hvalue⟩ : ∃ value, value =
      if p.value.text = [] then [] else p.after.text ++ p.value.text := ⟨_, rfl⟩
  have htext : p.text = (p.key.text ++ p.before.text) ++ '=' :: value := by
    simp [text, hvalue]
  have hnot : '=' ∉ p.key.text ++ p.before.text := by
    simp [p.key_plain, equal_notMem_gap]
  have hkey : strip (p.key.text ++ p.before.text) = p.key.text := strip_word p.key noGap p.before
  have hval : strip value = p.value.text := by
    rw [hvalue]
    split_ifs with h
    · rw [h]
      rfl
    · simpa [noGap] using strip_word p.value p.after noGap
  have hmem : '=' ∈ (p.key.text ++ p.before.text) ++ '=' :: value := by simp
  simp only [lineValue, htext, takeWhile_ne_append hnot, dropWhile_ne_append hnot, hkey, hval, hmem,
    true_and, List.tail_cons]

lemma Pair.head_ne (p : Pair) : p.text.head? ≠ some '[' := by
  rw [p.head]
  exact p.key_head.1

lemma lookup_pairs_outside (ps : List Pair) (rest : List (List Char)) :
    lookupLines sect key (ps.map Pair.text ++ rest) false = lookupLines sect key rest false := by
  induction ps with
  | nil => rfl
  | cons p ps ih => simpa [lookupLines, p.head_ne] using ih

lemma lookup_pairs_inside (ps : List Pair) (rest : List (List Char)) :
    lookupLines sect key (ps.map Pair.text ++ rest) true =
      match ps.find? (stricmp key ·.key.text) with
      | some p => (true, p.value.text)
      | none => lookupLines sect key rest true := by
  induction ps with
  | nil => rfl
  | cons p ps ih =>
    by_cases hp : stricmp key p.key.text
    · simp [lookupLines, p.head_ne, p.lineValue_eq, hp]
    · simpa [lookupLines, p.head_ne, p.lineValue_eq, hp] using ih

lemma lookup_sections_inside (ss : List Sect) :
    lookupLines sect key (ss.flatMap fun s => s.item :: s.pairs.map Pair.text) true = (false, []) := by
  cases ss with
  | nil => rfl
  | cons s ss => simp [lookupLines, Sect.item]

lemma stricmp_item {s : Sect} (hs : s.Tight) :
    stricmp s.item ('[' :: (sect ++ [']'])) = stricmp s.name.text sect := by
  simp [stricmp, Sect.item, hs.1, hs.2]

lemma lookup_sections (ss : List Sect) (htight : ∀ s ∈ ss, s.Tight) :
    lookupLines ('[' :: (sect ++ [']'])) key
        (ss.flatMap fun s => s.item :: s.pairs.map Pair.text) false =
      found (Document.lookup ⟨ss, []⟩ sect key) := by
  induction ss with
  | nil => rfl
  | cons s ss ih =>
    have hs := htight s (by simp)
    have hhead : s.item.head? = some '[' := rfl
    rw [List.flatMap_cons, List.cons_append, lookupLines]
    simp only [hhead, true_and, stricmp_item hs]
    by_cases hname : stricmp s.name.text sect
    · simp only [hname, decide_true, lookup_pairs_inside, lookup_sections_inside, Document.lookup,
        List.find?_cons_of_pos, Option.bind_eq_bind, Option.bind_some]
      cases s.pairs.find? (stricmp key ·.key.text) <;> rfl
    · simp only [hname, Bool.false_eq_true, decide_false, lookup_pairs_outside]
      rw [ih fun t ht => htight t (by simp [ht])]
      simp [Document.lookup, hname]

end Lookup

section Load

lemma Pair.newline_notMem (p : Pair) : ∀ l ∈ p.lines, '\n' ∉ l := by
  intro l hl
  simp only [lines, emptyLines, List.mem_append, List.mem_map, List.mem_singleton] at hl
  rcases hl with ⟨m, -, rfl⟩ | rfl
  · exact newline_notMem_around m (by simp)
  · apply newline_notMem_around
    simp [item, p.key.no_newline, p.before.no_newline, p.after.no_newline, p.value.no_newline]

lemma Sect.newline_notMem (s : Sect) : ∀ l ∈ s.lines, '\n' ∉ l := by
  intro l hl
  simp only [lines, emptyLines, List.mem_append, List.mem_map, List.mem_cons, List.mem_flatMap] at hl
  rcases hl with ⟨m, -, rfl⟩ | rfl | ⟨p, -, hp⟩
  · exact newline_notMem_around m (by simp)
  · apply newline_notMem_around
    simp [item, s.left.no_newline, s.name.no_newline, s.right.no_newline]
  · exact p.newline_notMem l hp

lemma Document.newline_notMem (d : Document) : ∀ l ∈ d.lines, '\n' ∉ l := by
  intro l hl
  simp only [lines, emptyLines, List.mem_append, List.mem_map, List.mem_flatMap] at hl
  rcases hl with ⟨s, -, hs⟩ | ⟨m, -, rfl⟩
  · exact s.newline_notMem l hs
  · exact newline_notMem_around m (by simp)

lemma Document.includeName_eq_none (d : Document) : ∀ l ∈ d.lines, includeName l = none := by
  intro l hl
  have hhead : (lineText l).head? ≠ some '$' := by
    intro h
    have hmem : lineText l ∈ lineTexts d.lines := by
      simp only [lineTexts, List.mem_filter, List.mem_map, decide_eq_true_eq]
      refine ⟨⟨l, hl, rfl⟩, ?_⟩
      rintro hnil
      rw [hnil] at h
      cases h
    rw [d.lineTexts_eq, List.mem_flatMap] at hmem
    obtain ⟨s, -, hs⟩ := hmem
    rw [List.mem_cons, List.mem_map] at hs
    rcases hs with hs | ⟨p, -, hp⟩
    · rw [hs] at h
      exact absurd h (by simp [Sect.item])
    · rw [← hp, p.head] at h
      exact p.key_head.2 h
  rw [includeName, if_neg]
  rintro ⟨-, rest, hrest⟩
  apply hhead
  rw [← hrest, includeKeyword_cons]
  rfl

lemma Document.loadFile_eq (d : Document) {h : Host} {ini : List Char}
    (hini : h.files ini = some d.print) (hshort : ∀ l ∈ d.lines, l.length < fgetsRoom) :
    ∃ data, loadFile h ini = .ok data ∧
      Holds data (d.sections.flatMap fun s => s.item :: s.pairs.map Pair.text) := by
  have hcut := cutLines_intercalate d.newline_notMem
  have hsub : ∀ l ∈ cutLines d.print, l ∈ d.lines := by
    intro l hl
    rw [print, hcut] at hl
    split_ifs at hl
    · exact List.dropLast_subset _ hl
    · exact hl
  have htexts : lineTexts (cutLines d.print) = lineTexts d.lines := by
    rw [print, hcut]
    split_ifs with hlast
    · obtain ⟨ls, hls⟩ := List.getLast?_eq_some_iff.mp hlast
      rw [hls, List.dropLast_concat, lineTexts_append]
      simp [lineTexts, lineText, cText, strip]
    · rfl
  have hlines : ∀ l ∈ cutLines d.print, '\n' ∉ l ∧ l.length ≤ fgetsRoom ∧ includeName l = none :=
    fun l hl => ⟨d.newline_notMem l (hsub l hl), Nat.le_of_lt (hshort l (hsub l hl)),
      d.includeName_eq_none l (hsub l hl)⟩
  obtain ⟨hplain, hevents⟩ := plain_of_length_le hlines
  obtain ⟨data, hdata, hholds⟩ := loadFile_plain hini hplain
  rw [fileEvents, hevents, htexts, d.lineTexts_eq] at hholds
  exact ⟨data, hdata, hholds⟩

lemma Document.getString_eq (d : Document) (htight : ∀ s ∈ d.sections, s.Tight) {h : Host}
    {cache : Cache} (hv : cache.Valid h) {ini : List Char} (hini : h.files ini = some d.print)
    (hshort : ∀ l ∈ d.lines, l.length < fgetsRoom) {sect : List Char} (key : List Char)
    (hsect : sect.length < fgetsRoom) :
    ∃ after, after.Valid h ∧
      getString h cache ini sect key = .ok (after, found (d.lookup sect key)) := by
  obtain ⟨data, hdata, hholds⟩ := d.loadFile_eq hini hshort
  have hlen : sect.length + 3 ≤ maxLineLength := by
    simp only [fgetsRoom, maxLineLength] at hsect ⊢
    omega
  refine ⟨⟨some ini, data⟩, valid_loaded hdata, ?_⟩
  rw [Profile.getString_eq hv hdata hholds hlen, lookup_sections d.sections htight]
  rfl

/-- A lookup in the printed file gives the value of the document, whatever the layout around the
bracketed names, the keys, the equal signs and the values. -/
theorem lookup_read_back (d : Document) (htight : ∀ s ∈ d.sections, s.Tight)
    (hshort : ∀ l ∈ d.lines, l.length < 8190) (h : Host) (cache : Cache) (hv : cache.Valid h)
    (ini : List Char) (hini : h.files ini = some d.print) (sect key : List Char)
    (hsect : sect.length < 8190) :
    ∃ after, after.Valid h ∧
      getString h cache ini sect key = .ok (after, found (d.lookup sect key)) :=
  d.getString_eq htight hv hini hshort key hsect

end Load

section Samples

def Gap.ofText (s : List Char) (hb : s.all isspace) (hn : '\n' ∉ s) : Gap :=
  ⟨s, isspace_of_all hb, hn⟩

def Word.ofText (s : List Char) (hc : s.all (!isComment ·)) (hn : nul ∉ s) (hl : '\n' ∉ s)
    (ht : Trimmed s) : Word :=
  ⟨s, plain_of_all hc, hn, hl, ht⟩

def noMargin : Margin := ⟨noGap, noGap, ⟨[], by simp, by simp⟩⟩

def samplePair : Pair where
  key := .ofText "k".toList (by decide) (by decide) (by decide) (by decide)
  value := .ofText "v".toList (by decide) (by decide) (by decide) (by decide)
  key_ne := by decide
  key_plain := by decide
  key_head := by decide
  before := .ofText [' '] isspace_blank (by decide)
  after := noGap
  margin := noMargin
  above := []

/-- One section with a name in brackets, the given blanks around the name, and one key. -/
def sample (g : Gap) : Document where
  sections := [{
    name := .ofText "a".toList (by decide) (by decide) (by decide) (by decide)
    pairs := [samplePair]
    left := g
    right := g
    margin := ⟨.ofText [' '] isspace_blank (by decide), noGap, ⟨"; x".toList, by simp [isComment], by decide⟩⟩
    above := [] }]
  below := [noMargin]

def sampleHost (g : Gap) : Host := ⟨fun _ => some (sample g).print, ⟨id, fun _ => 0, fun _ => 0⟩, 0⟩

/-- ` [ a ]; x` is no line of the section `a`. -/
theorem inner_blanks_not_found :
    (sample (.ofText [' '] isspace_blank (by decide))).lookup "a".toList "k".toList = some "v".toList ∧
      (getString (sampleHost (.ofText [' '] isspace_blank (by decide))) ⟨none, none⟩ "x.ini".toList
        "a".toList "k".toList).map (·.2) = .ok (false, []) := by
  decide

theorem value_of_sample :
    (sample noGap).lookup "A".toList "K".toList = some "v".toList ∧
      ∃ after, after.Valid (sampleHost noGap) ∧
        getString (sampleHost noGap) ⟨none, none⟩ "x.ini".toList "A".toList "K".toList =
          .ok (after, true, "v".toList) :=
  ⟨by decide, lookup_read_back (sample noGap) (by simp [sample, Sect.Tight, noGap]) (by decide)
    (sampleHost noGap) ⟨none, none⟩ valid_start "x.ini".toList rfl "A".toList "K".toList (by decide)⟩

end Samples

end LdapTgen.IniDocument
