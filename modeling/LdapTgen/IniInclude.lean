import LdapTgen.ProfileLoad

/-! Files that include other files. The specification is textual inclusion: every include line is
replaced by the expanded text of the file it names, from the directory of the file it stands in. The
loaders give the same lookups as that single text when no included file is empty, the name that
`dirname` leaves behind has the same directory, its result is an `int`, and `fgets` tears no line that
matters. -/
namespace LdapTgen.IniInclude
open CString MachineInt Profile

section Expand
variable (files : Files)

def expandLine (included : List Char → Option (List Char)) (l : List Char) : Option (List Char) :=
  match includeName l with
  | some name => included name
  | none => some l

/-- The lines of a file with their ends, the include lines replaced by what they include. -/
def expandLines (included : List Char → Option (List Char)) : List (List Char) → Option (List Char)
  | [] => some []
  | l :: ls => do
      let text ← expandLine included l
      some (text ++ '\n' :: (← expandLines included ls))

/-- The file with all files it includes, nested at most `n` deep. -/
def expand : ℕ → List Char → Option (List Char)
  | 0, _ => none
  | n + 1, path => do
      let content ← files path
      expandLines (fun name => expand n (dirname path ++ '/' :: name)) (cutLines content)

def includes (content : List Char) : List (List Char) := (cutLines content).filterMap includeName

def Includes (path sub : List Char) : Prop :=
  ∃ content, files path = some content ∧ ∃ name ∈ includes content, sub = dirname path ++ '/' :: name

end Expand

/-- The next `k` calls of `dirname` on the name `fname`, each left as `leaves` says, give `dir` at an
address that is an `int`. -/
def Steady (leaves : List Char → List Char) (address : List Char → ℤ) (dir : List Char) :
    ℕ → List Char → Prop
  | 0, _ => True
  | k + 1, fname => dirname fname = dir ∧ FitsInt32 (address fname) ∧
      Steady leaves address dir k (leaves fname)

section Texts
variable {included : List Char → Option (List Char)}

lemma expandLine_some {l name : List Char} (h : includeName l = some name) :
    expandLine included l = included name := by
  rw [expandLine, h]

lemma expandLine_none {l : List Char} (h : includeName l = none) : expandLine included l = some l := by
  rw [expandLine, h]

lemma expandLines_cons {l text : List Char} {ls : List (List Char)}
    (h : expandLines included (l :: ls) = some text) :
    ∃ t rest, expandLines included ls = some rest ∧ text = t ++ '\n' :: rest ∧
      ((∃ name, includeName l = some name ∧ included name = some t) ∨ includeName l = none ∧ t = l) := by
  simp only [expandLines, Option.bind_eq_bind, Option.bind_eq_some_iff, Option.some.injEq] at h
  obtain ⟨t, ht, rest, hrest, rfl⟩ := h
  refine ⟨t, rest, hrest, rfl, ?_⟩
  cases hname : includeName l with
  | some name =>
    rw [expandLine_some hname] at ht
    exact .inl ⟨name, rfl, ht⟩
  | none =>
    rw [expandLine_none hname] at ht
    exact .inr ⟨rfl, (Option.some.inj ht).symm⟩

/-- A line that `fgets` may read in several pieces, but that still includes what the whole line
includes and nothing else. A line that fits is one. -/
def Whole (l : List Char) : Prop :=
  match includeName l with
  | some name => lineEvents l = [.includes name]
  | none => ∀ name, Event.includes name ∉ lineEvents l

lemma whole_of_length_le {l : List Char} (hl : '\n' ∉ l) (hlen : l.length ≤ fgetsRoom) : Whole l := by
  rw [Whole, lineEvents_of_length_le hl hlen]
  cases hname : includeName l with
  | some name => exact event_includes hname
  | none => exact includes_notMem_event hname

lemma Whole.lineEvents_eq {l name : List Char} (h : Whole l) (hname : includeName l = some name) :
    lineEvents l = [.includes name] := by
  rw [Whole, hname] at h
  exact h

lemma Whole.plain {l : List Char} (h : Whole l) (hl : '\n' ∉ l) (hname : includeName l = none) :
    Plain (lineEvents l) := by
  rw [Whole, hname] at h
  exact plain_lineEvents hl h

lemma runEvents_expand {get : List Char → List Char → Except Fault (List Char × Option (List Char))}
    {leaves : List Char → List Char} {address : List Char → ℤ} {dir fname text : List Char}
    {buf : Option (List Char)}
    {lines ts : List (List Char)} (hexp : expandLines included lines = some text)
    (hlines : ∀ l ∈ lines, '\n' ∉ l ∧ Whole l)
    (hget : ∀ f name t, dirname f = dir → FitsInt32 (address f) →
      name ∈ lines.filterMap includeName → included name = some t →
      ∃ d, get f name = .ok (leaves f, some d) ∧ Holds (some d) (eventTexts (fileEvents t)))
    (hsteady : Steady leaves address dir (lines.filterMap includeName).length fname) (hbuf : Holds buf ts) :
    ∃ data, runEvents get (lines.flatMap lineEvents) fname buf = .ok data ∧
      Holds data (ts ++ eventTexts (fileEvents text)) := by
  induction lines generalizing text fname buf ts with
  | nil =>
    cases hexp
    exact ⟨buf, rfl, by simpa [fileEvents, cutLines, eventTexts] using hbuf⟩
  | cons l ls ih =>
    obtain ⟨t, rest, hrest, rfl, hfirst⟩ := expandLines_cons hexp
    obtain ⟨hl, hwhole⟩ := hlines l (by simp)
    have hls := fun m hm => hlines m (List.mem_cons_of_mem l hm)
    rw [List.flatMap_cons, fileEvents_append, eventTexts_append, ← List.append_assoc]
    obtain ⟨name, hname, ht⟩ | ⟨hname, rfl⟩ := hfirst
    · rw [List.filterMap_cons_some hname, List.length_cons] at hsteady
      rw [List.filterMap_cons_some hname] at hget
      obtain ⟨d, hd, hholds⟩ := hget fname name t hsteady.1 hsteady.2.1 (by simp) ht
      have hnext := ih hrest hls
        (fun f n u hf hfits hn => hget f n u hf hfits (List.mem_cons_of_mem _ hn)) hsteady.2.2
        (hbuf.storeIncluded hholds)
      simpa only [hwhole.lineEvents_eq hname, List.singleton_append, runEvents, hd, ok_bind] using hnext
    · rw [List.filterMap_cons_none hname] at hget hsteady
      rw [fileEvents_last hl]
      obtain ⟨out, hout, hrun⟩ := runEvents_plain (hwhole.plain hl hname) hbuf
      rw [hrun]
      exact ih hrest hls hget hsteady hout

lemma plain_expandLines {lines : List (List Char)} {text : List Char}
    (hexp : expandLines included lines = some text) (hlines : ∀ l ∈ lines, '\n' ∉ l ∧ Whole l)
    (hsub : ∀ name ∈ lines.filterMap includeName, ∀ t, included name = some t →
      Plain (fileEvents t)) : Plain (fileEvents text) := by
  induction lines generalizing text with
  | nil =>
    cases hexp
    intro e he
    cases he
  | cons l ls ih =>
    obtain ⟨t, rest, hrest, rfl, hfirst⟩ := expandLines_cons hexp
    obtain ⟨hl, hwhole⟩ := hlines l (by simp)
    have hls := fun m hm => hlines m (List.mem_cons_of_mem l hm)
    rw [fileEvents_append]
    obtain ⟨name, hname, ht⟩ | ⟨hname, rfl⟩ := hfirst
    · rw [List.filterMap_cons_some hname] at hsub
      exact (hsub name (by simp) t ht).append (ih hrest hls fun n hn => hsub n (by simp [hn]))
    · rw [List.filterMap_cons_none hname] at hsub
      rw [fileEvents_last hl]
      exact (hwhole.plain hl hname).append (ih hrest hls hsub)

lemma eventTexts_expand_ne_nil {lines : List (List Char)} {text : List Char}
    (hexp : expandLines included lines = some text) (hlines : ∀ l ∈ lines, '\n' ∉ l ∧ Whole l)
    (hsub : ∀ name ∈ lines.filterMap includeName, ∀ t, included name = some t →
      eventTexts (fileEvents t) ≠ [])
    (hne : lines.flatMap lineEvents ≠ []) : eventTexts (fileEvents text) ≠ [] := by
  induction lines generalizing text with
  | nil => exact absurd rfl hne
  | cons l ls ih =>
    obtain ⟨t, rest, hrest, rfl, hfirst⟩ := expandLines_cons hexp
    obtain ⟨hl, hwhole⟩ := hlines l (by simp)
    rw [fileEvents_append, eventTexts_append]
    intro hnil
    obtain ⟨hblank, hnext⟩ := List.append_eq_nil_iff.mp hnil
    obtain ⟨name, hname, ht⟩ | ⟨hname, rfl⟩ := hfirst
    · rw [List.filterMap_cons_some hname] at hsub
      exact hsub name (by simp) t ht hblank
    · rw [List.filterMap_cons_none hname] at hsub
      rw [fileEvents_last hl] at hblank
      rw [List.flatMap_cons, (hwhole.plain hl hname).eq_nil hblank, List.nil_append] at hne
      exact ih hrest (fun m hm => hlines m (by simp [hm])) hsub hne hnext

end Texts

section Depth
variable {files : Files}

lemma expandLines_mono {f g : List Char → Option (List Char)} {lines : List (List Char)}
    {text : List Char}
    (h : ∀ name ∈ lines.filterMap includeName, ∀ t, f name = some t → g name = some t)
    (hexp : expandLines f lines = some text) : expandLines g lines = some text := by
  induction lines generalizing text with
  | nil => exact hexp
  | cons l ls ih =>
    obtain ⟨t, rest, hrest, rfl, hfirst⟩ := expandLines_cons hexp
    obtain ⟨name, hname, ht⟩ | ⟨hname, rfl⟩ := hfirst
    · rw [List.filterMap_cons_some hname] at h
      have hg := h name (by simp) t ht
      have hls := ih (fun n hn => h n (by simp [hn])) hrest
      simp [expandLines, expandLine_some hname, hg, hls]
    · rw [List.filterMap_cons_none hname] at h
      simp [expandLines, expandLine_none hname, ih h hrest]

lemma expand_succ {n : ℕ} {path text : List Char} (h : expand files n path = some text) :
    expand files (n + 1) path = some text := by
  induction n generalizing path text with
  | zero => cases h
  | succ n ih =>
    rw [expand, Option.bind_eq_bind, Option.bind_eq_some_iff] at h ⊢
    obtain ⟨content, hcontent, hexp⟩ := h
    exact ⟨content, hcontent, expandLines_mono (fun _ _ _ ht => ih ht) hexp⟩

lemma expand_mono {n m : ℕ} (hnm : n ≤ m) {path text : List Char}
    (h : expand files n path = some text) : expand files m path = some text := by
  induction hnm with
  | refl => exact h
  | step _ ih => exact expand_succ ih

lemma exists_expandLines (path : List Char) (lines : List (List Char))
    (h : ∀ name ∈ lines.filterMap includeName,
      ∃ n text, expand files n (dirname path ++ '/' :: name) = some text) :
    ∃ n text, expandLines (fun name => expand files n (dirname path ++ '/' :: name)) lines =
      some text := by
  induction lines with
  | nil => exact ⟨0, [], rfl⟩
  | cons l ls ih =>
    cases hname : includeName l with
    | some name =>
      rw [List.filterMap_cons_some hname] at h
      obtain ⟨n, rest, hrest⟩ := ih fun m hm => h m (by simp [hm])
      obtain ⟨k, t, ht⟩ := h name (by simp)
      have hls := expandLines_mono (fun _ _ _ hs => expand_mono (Nat.le_max_left n k) hs) hrest
      have hl := expand_mono (Nat.le_max_right n k) ht
      exact ⟨max n k, t ++ '\n' :: rest, by simp [expandLines, expandLine_some hname, hl, hls]⟩
    | none =>
      rw [List.filterMap_cons_none hname] at h
      obtain ⟨n, rest, hrest⟩ := ih h
      exact ⟨n, l ++ '\n' :: rest, by simp [expandLines, expandLine_none hname, hrest]⟩

/-- Files that exist and include one another without a cycle have an expanded text. -/
lemma exists_expand {path : List Char} (hacc : Acc (fun sub path => Includes files path sub) path)
    (hexist : ∀ p, Relation.ReflTransGen (Includes files) path p → (files p).isSome) :
    ∃ n text, expand files n path = some text := by
  induction hacc with
  | intro path _ ih =>
    obtain ⟨content, hcontent⟩ := Option.isSome_iff_exists.mp (hexist path .refl)
    have hsub : ∀ name ∈ (cutLines content).filterMap includeName,
        ∃ n text, expand files n (dirname path ++ '/' :: name) = some text := by
      intro name hname
      have hinc : Includes files path (dirname path ++ '/' :: name) :=
        ⟨content, hcontent, name, hname, rfl⟩
      exact ih _ hinc fun p hp => hexist p (.head hinc hp)
    obtain ⟨n, text, hexp⟩ := exists_expandLines path (cutLines content) hsub
    exact ⟨n + 1, text, by simp [expand, hcontent, hexp]⟩

end Depth

/-- A set of ini files: the files that the root includes, directly or not, exist, are in no cycle and
have names that fit their buffer. -/
structure FileSet (files : Files) (root : List Char) : Prop where
  exist : ∀ p, Relation.ReflTransGen (Includes files) root p → (files p).isSome
  acyclic : Acc (fun sub path => Includes files path sub) root
  fits : ∀ p, Relation.TransGen (Includes files) root p → p.length < maxFielnameLength

/-- What the loaders need: no line is torn by `fgets` in a way that changes what it includes, every
included file has a line to store or to include, the calls of `dirname` on the name of an included file
give its directory again for each of its include lines, and no pointer that they return is cut. -/
structure Loadable (files : Files) (lib : Dirname) (root : List Char) : Prop where
  whole : ∀ p content, Relation.ReflTransGen (Includes files) root p → files p = some content →
    ∀ l ∈ cutLines content, Whole l
  stored : ∀ p content, Relation.TransGen (Includes files) root p → files p = some content →
    fileEvents content ≠ []
  steady : ∀ p content, Relation.TransGen (Includes files) root p → files p = some content →
    Steady lib.leaves lib.arrayAt (dirname p) (includes content).length p
  returned : ∀ content, files root = some content → includes content ≠ [] → FitsInt32 (lib.copyAt root)

section Load
variable {files : Files} {lib : Dirname} {root : List Char}

lemma Loadable.lines (hload : Loadable files lib root) {p content : List Char}
    (hreach : Relation.ReflTransGen (Includes files) root p) (hcontent : files p = some content) :
    ∀ l ∈ cutLines content, '\n' ∉ l ∧ Whole l :=
  fun l hl => ⟨newline_notMem_cutLines content l hl, hload.whole p content hreach hcontent l hl⟩

lemma callDirname_of_fits {address : List Char → ℤ} {path : List Char}
    (h : FitsInt32 (address path)) : callDirname address path = .ok (dirname path) :=
  if_pos (int32_of_fits h)

lemma getIncludedFile_eq (hset : FileSet files root) (hload : Loadable files lib root) {n : ℕ}
    {dir name text : List Char}
    (hreach : Relation.TransGen (Includes files) root (dir ++ '/' :: name))
    (hexp : expand files n (dir ++ '/' :: name) = some text) :
    ∃ d, getIncludedFile files lib n dir name = .ok (some d) ∧
      Holds (some d) (eventTexts (fileEvents text)) := by
  induction n generalizing dir name text with
  | zero => cases hexp
  | succ n ih =>
    rw [expand, Option.bind_eq_bind, Option.bind_eq_some_iff] at hexp
    obtain ⟨content, hcontent, hexp⟩ := hexp
    have hlines := hload.lines hreach.to_reflTransGen hcontent
    have hsub : ∀ f name' t, dirname f = dirname (dir ++ '/' :: name) → FitsInt32 (lib.arrayAt f) →
        name' ∈ (cutLines content).filterMap includeName →
        expand files n (dirname (dir ++ '/' :: name) ++ '/' :: name') = some t →
        ∃ d, (callDirname lib.arrayAt f >>= fun dir => getIncludedFile files lib n dir name' >>=
            fun included => .ok (lib.leaves f, included)) = .ok (lib.leaves f, some d) ∧
          Holds (some d) (eventTexts (fileEvents t)) := by
      intro f name' t hf hfits hname ht
      obtain ⟨d, hd, hholds⟩ := ih (hreach.tail ⟨content, hcontent, name', hname, rfl⟩) ht
      exact ⟨d, by rw [callDirname_of_fits hfits, ok_bind, hf, hd]; rfl, hholds⟩
    obtain ⟨data, hdata, hholds⟩ := runEvents_expand hexp hlines hsub
      (hload.steady _ content hreach hcontent) holds_none
    have hne : eventTexts (fileEvents text) ≠ [] := by
      apply eventTexts_expand_ne_nil hexp hlines _ (hload.stored _ content hreach hcontent)
      intro name' hname t ht
      obtain ⟨d, -, hd⟩ := ih (hreach.tail ⟨content, hcontent, name', hname, rfl⟩) ht
      exact hd.ne_nil
    obtain ⟨d, rfl⟩ := hholds.ne_none hne
    refine ⟨d, ?_, hholds⟩
    rw [getIncludedFile]
    simp only [if_neg (Nat.not_le.mpr (hset.fits _ hreach)), hcontent, readLoop_file]
    exact hdata

lemma steady_id {address : List Char → ℤ} {dir fname : List Char} {k : ℕ} (h : dirname fname = dir)
    (hfits : k ≠ 0 → FitsInt32 (address fname)) : Steady id address dir k fname := by
  induction k with
  | zero => exact trivial
  | succ k ih => exact ⟨h, hfits k.succ_ne_zero, ih fun _ => hfits k.succ_ne_zero⟩

lemma loadFile_eq (hset : FileSet files root) (hload : Loadable files lib root) {n : ℕ}
    {text : List Char} (hexp : expand files (n + 1) root = some text) :
    ∃ data, loadFile ⟨files, lib, n⟩ root = .ok data ∧
      Holds data (eventTexts (fileEvents text)) := by
  rw [expand, Option.bind_eq_bind, Option.bind_eq_some_iff] at hexp
  obtain ⟨content, hcontent, hexp⟩ := hexp
  have hsub : ∀ f name t, dirname f = dirname root → FitsInt32 (lib.copyAt f) →
      name ∈ (cutLines content).filterMap includeName →
      expand files n (dirname root ++ '/' :: name) = some t →
      ∃ d, (callDirname lib.copyAt f >>= fun dir => getIncludedFile files lib n dir name >>=
          fun included => .ok (f, included)) = .ok (id f, some d) ∧
        Holds (some d) (eventTexts (fileEvents t)) := by
    intro f name t hf hfits hname ht
    obtain ⟨d, hd, hholds⟩ := getIncludedFile_eq hset hload
      (.single ⟨content, hcontent, name, hname, rfl⟩) ht
    exact ⟨d, by rw [callDirname_of_fits hfits, ok_bind, hf, hd]; rfl, hholds⟩
  have hsteady : Steady id lib.copyAt (dirname root) (includes content).length root :=
    steady_id rfl fun hne => hload.returned content hcontent fun hnil => hne (by rw [hnil]; rfl)
  obtain ⟨data, hdata, hholds⟩ := runEvents_expand hexp (hload.lines .refl hcontent) hsub hsteady
    holds_none
  refine ⟨data, ?_, hholds⟩
  simp only [loadFile, hcontent, readLoop_file]
  exact hdata

lemma expand_plain (hload : Loadable files lib root) {n : ℕ} {path text : List Char}
    (hreach : Relation.ReflTransGen (Includes files) root path)
    (hexp : expand files n path = some text) : Plain (fileEvents text) := by
  induction n generalizing path text with
  | zero => cases hexp
  | succ n ih =>
    rw [expand, Option.bind_eq_bind, Option.bind_eq_some_iff] at hexp
    obtain ⟨content, hcontent, hexp⟩ := hexp
    apply plain_expandLines hexp (hload.lines hreach hcontent)
    intro name hname t ht
    exact ih (hreach.tail ⟨content, hcontent, name, hname, rfl⟩) ht

lemma findKey_congr {d d' sect key : List Char} {ts : List (List Char)} (h : Holds (some d) ts)
    (h' : Holds (some d') ts) : findKey d sect key = findKey d' sect key := by
  by_cases hsect : sect.length + 3 ≤ maxLineLength
  · rw [h.findKey_eq hsect, h'.findKey_eq hsect]
  · rw [findKey, findKey, if_pos (Nat.lt_of_not_le hsect), if_pos (Nat.lt_of_not_le hsect)]

lemma getString_congr {h k : Host} {c e : Cache} {f g : List Char} {x y : Option (List Char)}
    {ts : List (List Char)} (hc : c.Valid h) (he : e.Valid k) (hx : loadFile h f = .ok x)
    (hy : loadFile k g = .ok y) (hxs : Holds x ts) (hys : Holds y ts) (sect key : List Char) :
    (getString h c f sect key).map (·.2) = (getString k e g sect key).map (·.2) := by
  rw [getString, getString, getIniFile_eq hc hx, getIniFile_eq he hy]
  by_cases hts : ts = []
  · subst hts
    cases x with
    | some d => exact absurd rfl hxs.ne_nil
    | none =>
      cases y with
      | some d => exact absurd rfl hys.ne_nil
      | none => rfl
  · obtain ⟨d, rfl⟩ := hxs.ne_none hts
    obtain ⟨d', rfl⟩ := hys.ne_none hts
    simp only [ok_bind, findKey_congr hxs hys]
    cases findKey d' sect key <;> rfl

/-- A file with its included files gives the same lookups as the single file of its expanded text. -/
theorem included_as_text (hset : FileSet files root) (hload : Loadable files lib root) :
    ∃ n text, expand files n root = some text ∧ ∀ depth ≥ n, ∀ (h : Host) (single : List Char),
      h.files single = some text →
      (∃ data, loadFile ⟨files, lib, depth⟩ root = .ok data) ∧
      ∀ (c e : Cache), c.Valid ⟨files, lib, depth⟩ → e.Valid h → ∀ sect key : List Char,
        (getString ⟨files, lib, depth⟩ c root sect key).map (·.2) =
          (getString h e single sect key).map (·.2) := by
  obtain ⟨n, text, hexp⟩ := exists_expand hset.acyclic hset.exist
  refine ⟨n, text, hexp, ?_⟩
  intro depth hdepth h single hsingle
  have hdeep := expand_mono (Nat.le_succ_of_le hdepth) hexp
  obtain ⟨x, hx, hxs⟩ := loadFile_eq hset hload hdeep
  obtain ⟨y, hy, hys⟩ := loadFile_plain hsingle (expand_plain hload .refl hexp)
  exact ⟨⟨x, hx⟩, fun c e hc he sect key => getString_congr hc he hx hy hxs hys sect key⟩

end Load

def filesOf (entries : List (String × String)) : Files := fun path =>
  (entries.find? (·.1.toList = path)).map (·.2.toList)

def emptyIncluded : Files :=
  filesOf [("a.ini", "$include b.ini\n[s]\nk=v\n"), ("./b.ini", "# nothing\n")]

/-- Pointers that fit, and a `dirname` that leaves its argument as it was. -/
def lowPointers : Dirname := ⟨id, fun _ => 4096, fun _ => 4096⟩

def cuttingDirname : Dirname := { lowPointers with leaves := dirname }

theorem empty_file_included :
    (expand emptyIncluded 2 "a.ini".toList).bind (fun text =>
        ((getString ⟨fun _ => some text, lowPointers, 0⟩ ⟨none, none⟩ [] "s".toList
          "k".toList).map (·.2)).toOption) = some (true, "v".toList) ∧
    getString ⟨emptyIncluded, lowPointers, 2⟩ ⟨none, none⟩ "a.ini".toList "s".toList "k".toList =
      .error .undefined := by
  decide

-- With 64 bits, what `dirname` returns for a name without a directory is in the library.
example : loadFile ⟨filesOf [("a.ini", "$include b.ini"), ("./b.ini", "[s]")],
    ⟨id, fun _ => 0x7f0000001000, fun _ => 0x7ffd00001000⟩, 2⟩ "a.ini".toList =
      .error .undefined := by
  decide

-- After the first include line of `d/b.ini`, a `dirname` that cuts its argument off has left `./d`:
-- the second line is read from the directory above.
example : loadFile ⟨filesOf [("a.ini", "$include d/b.ini"), ("./d/b.ini", "$include c.ini\n$include c.ini"),
    ("./d/c.ini", "[s]")], cuttingDirname, 3⟩ "a.ini".toList = .error .exit := by
  decide

def oneIncluded : Files :=
  filesOf [("a.ini", "$include b.ini\nk=v\n"), ("./b.ini", "[s]\nj=w")]

lemma oneIncluded_eq_some {path content : List Char} (h : oneIncluded path = some content) :
    path = "a.ini".toList ∧ content = "$include b.ini\nk=v\n".toList ∨
      path = "./b.ini".toList ∧ content = "[s]\nj=w".toList := by
  by_cases ha : "a.ini".toList = path
  · subst ha
    exact .inl ⟨rfl, (Option.some.inj h).symm⟩
  · by_cases hb : "./b.ini".toList = path
    · subst hb
      exact .inr ⟨rfl, (Option.some.inj h).symm⟩
    · simp only [oneIncluded, filesOf, List.find?_cons, decide_eq_false ha, decide_eq_false hb,
        List.find?_nil, Option.map_none] at h
      cases h

lemma includes_oneIncluded {path sub : List Char} (h : Includes oneIncluded path sub) :
    path = "a.ini".toList ∧ sub = "./b.ini".toList := by
  obtain ⟨content, hcontent, name, hname, rfl⟩ := h
  have ha : includes "$include b.ini\nk=v\n".toList = ["b.ini".toList] := by decide
  have hb : includes "[s]\nj=w".toList = [] := by decide
  rcases oneIncluded_eq_some hcontent with ⟨rfl, rfl⟩ | ⟨rfl, rfl⟩
  · rw [ha, List.mem_singleton] at hname
    subst hname
    exact ⟨rfl, by decide⟩
  · rw [hb] at hname
    cases hname

lemma reaches_oneIncluded {p : List Char}
    (h : Relation.TransGen (Includes oneIncluded) "a.ini".toList p) : p = "./b.ini".toList := by
  cases h with
  | single h => exact (includes_oneIncluded h).2
  | tail _ h => exact (includes_oneIncluded h).2

lemma fileSet_oneIncluded : FileSet oneIncluded "a.ini".toList where
  exist p hp := by
    rcases Relation.reflTransGen_iff_eq_or_transGen.mp hp with rfl | hp
    · decide
    · rw [reaches_oneIncluded hp]
      decide
  acyclic := by
    constructor
    intro sub hsub
    rw [(includes_oneIncluded hsub).2]
    constructor
    intro next hnext
    exact absurd (includes_oneIncluded hnext).1 (by decide)
  fits p hp := by
    rw [reaches_oneIncluded hp]
    decide

lemma loadable_oneIncluded : Loadable oneIncluded cuttingDirname "a.ini".toList where
  whole p content _ hcontent l hl := by
    have hlen : l.length ≤ fgetsRoom := by
      rcases oneIncluded_eq_some hcontent with ⟨-, rfl⟩ | ⟨-, rfl⟩
      · revert l
        decide
      · revert l
        decide
    exact whole_of_length_le (newline_notMem_cutLines content l hl) hlen
  stored p content hp hcontent := by
    rcases oneIncluded_eq_some hcontent with ⟨-, rfl⟩ | ⟨-, rfl⟩ <;> decide
  steady p content hp hcontent := by
    rw [reaches_oneIncluded hp] at hcontent
    obtain rfl := Option.some.inj hcontent
    exact trivial
  returned _ _ _ := show FitsInt32 4096 from ⟨by decide, by decide⟩

theorem one_file_included :
    ∃ n text, expand oneIncluded n "a.ini".toList = some text ∧
      ∀ depth ≥ n, ∀ (h : Host) (single : List Char), h.files single = some text →
        (∃ data, loadFile ⟨oneIncluded, cuttingDirname, depth⟩ "a.ini".toList = .ok data) ∧
        ∀ (c e : Cache), c.Valid ⟨oneIncluded, cuttingDirname, depth⟩ → e.Valid h → ∀ sect key : List Char,
          (getString ⟨oneIncluded, cuttingDirname, depth⟩ c "a.ini".toList sect key).map (·.2) =
            (getString h e single sect key).map (·.2) :=
  included_as_text fileSet_oneIncluded loadable_oneIncluded

end LdapTgen.IniInclude
