import LdapTgen.CString
import LdapTgen.MachineInt

/-! The ini files: the loaders `GetIncludedFile` and `GetIniFile`, which store the lines of a file
without blanks and comments, and `FindKey`, which cuts the stored text again to look a key up. The
files are a parameter, what `fopenexp` opens under a name. -/
namespace LdapTgen.Profile
open CString MachineInt

def maxLineLength : ℕ := 8192
def maxFielnameLength : ℕ := 128

/-- The ends of the program inside these functions; the last one is a limit of the model. -/
inductive Fault
  | exit
  | assertion
  | undefined
  | unfinished
  deriving DecidableEq, Repr

def checked {α : Type} : Option α → Except Fault α
  | some x => .ok x
  | none => .error .undefined

@[simp] lemma checked_some {α : Type} (x : α) : checked (some x) = .ok x := rfl

@[simp] lemma ok_bind {α β : Type} (x : α) (f : α → Except Fault β) : (Except.ok x >>= f) = f x := rfl

lemma bind_eq_ok {α β : Type} {x : Except Fault α} {f : α → Except Fault β} {b : β}
    (h : (x >>= f) = .ok b) : ∃ a, x = .ok a ∧ f a = .ok b := by
  cases x with
  | error e => cases h
  | ok a => exact ⟨a, rfl, h⟩

lemma map_eq_ok {α β : Type} {x : Except Fault α} {f : α → β} {b : β} (h : x.map f = .ok b) :
    ∃ a, x = .ok a ∧ f a = b := by
  cases x with
  | error e => cases h
  | ok a => exact ⟨a, rfl, Except.ok.inj h⟩

def isComment (c : Char) : Bool := c = ';' ∨ c = '#'

lemma plain_of_all {s : List Char} (h : s.all (!isComment ·)) : ∀ c ∈ s, isComment c = false := by
  simpa using h

/-- The loop that cuts a comment off: the buffer and the end of the text. -/
def stripComment (buf : List Char) (line : ℕ) : Option (List Char × ℕ) := do
  let s ← strAt buf line
  let p := line + (s.takeWhile (!isComment ·)).length
  if p < line + s.length then some (← put buf p nul, p) else some (buf, p)

/-- The buffer afterwards and the position of the first character that is no blank. -/
def stripWS (buf : List Char) (line : ℕ) : Option (List Char × ℕ) := do
  let line ← skipSpace buf line
  let (buf, p) ← stripComment buf line
  if (← buf[line]?) = nul then some (buf, line)
  else some (← trimBack line buf p, line)

/-- What `fopenexp` opens under each name. -/
abbrev Files := List Char → Option (List Char)

/-- `dirname`: the path without its last component, `.` when it has no directory. -/
def dirname (path : List Char) : List Char :=
  let base := path.rdropWhile (· == '/')
  if path ≠ [] ∧ base = [] then ['/']
  else if '/' ∈ base then
    match (base.rdropWhile (· != '/')).rdropWhile (· == '/') with
    | [] => ['/']
    | dir => dir
  else ['.']

/-- `realloc` and `memcpy` of a line at the end of the stored text, null at first. -/
def storeLine (buf : Option (List Char)) (p : List Char) : Option (List Char) :=
  some (buf.getD [] ++ (p ++ ['\n']))

def includeKeyword : List Char := "$include ".toList

/-- The loop of both loaders over the results of `fgets`. `included` reads the named file from the
directory of `fname` and gives back what the call of `dirname` left in `fname`. -/
def readLoop (included : List Char → List Char → Except Fault (List Char × Option (List Char))) :
    List (List Char) → List Char → Option (List Char) → Except Fault (Option (List Char))
  | [], _, buf => .ok buf
  | got :: rest, fname, buf => do
      let (line, p) ← checked (stripWS (got ++ [nul]) 0)
      let text ← checked (strAt line p)
      if text = [] then readLoop included rest fname buf
      else if text.head? = some '$' ∧ (← checked (strAt line 0)).take 9 = includeKeyword then
        match ← included fname (← checked (strAt line 9)) with
        -- `strlen` of the null pointer
        | (_, none) => .error .undefined
        | (fname, some text) => readLoop included rest fname (storeLine buf text)
      else readLoop included rest fname (storeLine buf text)

/-- The calls of `dirname`: what it leaves in its argument, and the addresses of what it returns for the
copy of the name in `GetIniFile` and for the array of `GetIncludedFile`. -/
structure Dirname where
  leaves : List Char → List Char
  copyAt : List Char → ℤ
  arrayAt : List Char → ℤ

/-- No header declares `dirname`, so its result is taken for an `int`, and the pointer made of it is
another one unless the address fits. -/
def callDirname (address : List Char → ℤ) (path : List Char) : Except Fault (List Char) :=
  if int32 (address path) = address path then .ok (dirname path) else .error .undefined

structure Host where
  files : Files
  lib : Dirname
  depth : ℕ

/-- `fgets(line, sizeof(line)-1, fp)` has room for two characters less than the buffer. -/
def fgetsRoom : ℕ := maxLineLength - 2

def getIncludedFile (files : Files) (lib : Dirname) :
    ℕ → List Char → List Char → Except Fault (Option (List Char))
  | 0, _, _ => .error .unfinished
  | depth + 1, dir, file =>
      let fname := dir ++ '/' :: file
      if maxFielnameLength ≤ fname.length then .error .undefined
      else match files fname with
        | none => .error .exit
        | some content =>
            readLoop (fun fname name => do
                let dir ← callDirname lib.arrayAt fname
                let included ← getIncludedFile files lib depth dir name
                .ok (lib.leaves fname, included))
              (readLines fgetsRoom content) fname none

/-- The part of `GetIniFile` that reads the file; `dirname` works on a copy of the name. -/
def loadFile (h : Host) (fname : List Char) : Except Fault (Option (List Char)) :=
  match h.files fname with
  | none => .ok none
  | some content =>
      readLoop (fun fname name => do
          let dir ← callDirname h.lib.copyAt fname
          let included ← getIncludedFile h.files h.lib h.depth dir name
          .ok (fname, included))
        (readLines fgetsRoom content) fname none

structure Cache where
  previousFile : Option (List Char)
  cachedFile : Option (List Char)
  deriving DecidableEq, Repr

def getIniFile (h : Host) (cache : Cache) (fname : List Char) :
    Except Fault (Cache × Option (List Char)) :=
  if cache.previousFile = some fname then .ok (cache, cache.cachedFile)
  else do
    let cachedFile ← loadFile h fname
    .ok (⟨some fname, cachedFile⟩, cachedFile)

/-- The value of the line at `p`, if it is the line of the key asked for. -/
def matchKey (key line : List Char) (p : ℕ) : Except Fault (Option (List Char)) := do
  match ← checked (strchr '=' line p) with
  | none => .ok none
  | some test =>
      let line ← checked (put line test nul)
      let (line, p) ← checked (stripWS line p)
      if stricmp key (← checked (strAt line p)) then
        let (line, test) ← checked (stripWS line (test + 1))
        .ok (some (← checked (strAt line test)))
      else .ok none

/-- The loop of `FindKey` over the pieces of the stored text: whether the key was found, and the
value. -/
def findLoop (sectionTest key : List Char) :
    List (List Char) → Bool → Except Fault (Bool × List Char)
  | [], _ => .ok (false, [])
  | piece :: rest, insideSection =>
      if maxLineLength ≤ piece.length then .error .assertion
      else do
        let (line, p) ← checked (stripWS (piece ++ [nul]) 0)
        let text ← checked (strAt line p)
        if text = [] then findLoop sectionTest key rest insideSection
        else if insideSection = false then
          findLoop sectionTest key rest (text.head? = some '[' ∧ stricmp text sectionTest)
        else if text.head? = some '[' then .ok (false, [])
        else match ← matchKey key line p with
          | none => findLoop sectionTest key rest true
          | some value => .ok (true, value)

/-- `sprintf` of the section needs room for two brackets and the terminator. -/
def findKey (data sect key : List Char) : Except Fault (Bool × List Char) :=
  if maxLineLength < sect.length + 3 then .error .undefined
  else findLoop ('[' :: (sect ++ [']'])) key (cutLines data) false

def getString (h : Host) (cache : Cache) (ini sect key : List Char) :
    Except Fault (Cache × Bool × List Char) := do
  match ← getIniFile h cache ini with
  | (cache, none) => .ok (cache, false, [])
  | (cache, some data) => .ok (cache, ← findKey data sect key)

/-- The text left in the buffer of `length` characters. -/
def profileGetString (h : Host) (cache : Cache) (ini sect key defvalue : List Char) (length : ℕ) :
    Except Fault (Cache × List Char) := do
  let (cache, found, value) ← getString h cache ini sect key
  .ok (cache, (if found then value else defvalue).take (length - 1))

def isHexDigit (c : Char) : Bool := c.isDigit || ('a' ≤ c.toLower && c.toLower ≤ 'f')

def digitValue (c : Char) : ℕ := if c.isDigit then c.toNat - 48 else c.toLower.toNat - 87

def digitsValue (base : ℕ) (ds : List Char) : ℤ := ds.foldl (fun n d => base * n + digitValue d) 0

/-- The result of `strtol`, a `long` of 64 bits, as the `int` that `atoi` and `ProfileGetInt` return. -/
def toInt (n : ℤ) : ℤ := int32 (max (-2 ^ 63) (min n (2 ^ 63 - 1)))

def atoi (s : List Char) : ℤ :=
  toInt <| match s.dropWhile isspace with
    | '-' :: ds => -digitsValue 10 (ds.takeWhile Char.isDigit)
    | '+' :: ds => digitsValue 10 (ds.takeWhile Char.isDigit)
    | ds => digitsValue 10 (ds.takeWhile Char.isDigit)

/-- A value that starts with `0x` is hexadecimal. -/
def profileGetInt (h : Host) (cache : Cache) (ini sect key : List Char) (defvalue : ℤ) :
    Except Fault (Cache × ℤ) := do
  let (cache, found, value) ← getString h cache ini sect key
  if found then
    if stricmp (value.take 2) "0x".toList then
      .ok (cache, toInt (digitsValue 16 ((value.drop 2).takeWhile isHexDigit)))
    else .ok (cache, atoi value)
  else .ok (cache, defvalue)

def strip (s : List Char) : List Char :=
  ((s.dropWhile isspace).takeWhile (!isComment ·)).rdropWhile isspace

structure Parts (s lead text trail comment : List Char) : Prop where
  eq : s = lead ++ (text ++ (trail ++ comment))
  lead_blank : ∀ c ∈ lead, isspace c
  trail_blank : ∀ c ∈ trail, isspace c
  plain : ∀ c ∈ text, isComment c = false
  trimmed : Trimmed text
  comment_head : ∀ c ∈ comment.head?, isComment c
  /-- Without a text, all blanks are before it. -/
  trail_eq_nil : text = [] → trail = []

section Strip
variable {buf u s v lead text trail comment : List Char} {p : ℕ}

lemma not_isComment_of_isspace {c : Char} (h : isspace c) : isComment c = false := by
  cases hc : isComment c with
  | false => rfl
  | true =>
    simp only [isComment, decide_eq_true_eq] at hc
    rcases hc with rfl | rfl <;> cases h

lemma takeWhile_not_comment {t : List Char} (ht : ∀ c ∈ t, isComment c = false)
    (hc : ∀ c ∈ comment.head?, isComment c) : (t ++ comment).takeWhile (!isComment ·) = t := by
  rw [List.takeWhile_append_of_pos (by simpa using ht)]
  cases comment with
  | nil => simp
  | cons c comment => simp [hc c rfl]

lemma strip_append (hlead : ∀ c ∈ lead, isspace c) (hplain : ∀ c ∈ text, isComment c = false)
    (htext : Trimmed text) (htrail : ∀ c ∈ trail, isspace c)
    (hcomment : ∀ c ∈ comment.head?, isComment c) :
    strip (lead ++ (text ++ (trail ++ comment))) = text := by
  cases text with
  | nil =>
    have hdrop : (lead ++ ([] ++ (trail ++ comment))).dropWhile isspace = comment := by
      rw [List.nil_append, ← List.append_assoc]
      apply dropWhile_append_of_head
      · intro c hc
        rw [List.mem_append] at hc
        cases hc with
        | inl h => exact hlead c h
        | inr h => exact htrail c h
      · intro c hc
        cases hs : isspace c with
        | false => rfl
        | true => exact absurd (hcomment c hc) (by simp [not_isComment_of_isspace hs])
    have htake := takeWhile_not_comment (t := []) (by simp) hcomment
    rw [List.nil_append] at htake
    rw [strip, hdrop, htake, List.rdropWhile_nil]
  | cons d text =>
    rw [strip, dropWhile_append_of_head hlead (by simpa using htext.head), ← List.append_assoc,
      takeWhile_not_comment _ hcomment, rdropWhile_isspace_append htrail htext.last]
    intro c hc
    rw [List.mem_append] at hc
    cases hc with
    | inl h => exact hplain c h
    | inr h => exact not_isComment_of_isspace (htrail c h)

lemma head_dropWhile_isspace (s : List Char) :
    ∀ c ∈ (s.dropWhile isspace).head?, isspace c = false := by
  intro c hc
  have h := List.head?_dropWhile_not isspace s
  rw [Option.mem_def.mp hc] at h
  exact h

lemma exists_parts (s : List Char) : ∃ lead trail comment, Parts s lead (strip s) trail comment := by
  obtain ⟨r, hr⟩ : ∃ r, r = s.dropWhile isspace := ⟨_, rfl⟩
  obtain ⟨a, ha⟩ : ∃ a, a = r.takeWhile (!isComment ·) := ⟨_, rfl⟩
  have hs : s.takeWhile isspace ++ r = s := hr ▸ List.takeWhile_append_dropWhile
  have hra : a ++ r.dropWhile (!isComment ·) = r := ha ▸ List.takeWhile_append_dropWhile
  have hat : a.rdropWhile isspace ++ a.rtakeWhile isspace = a := List.rdropWhile_append_rtakeWhile
  have hstrip : strip s = a.rdropWhile isspace := by rw [strip, ← hr, ← ha]
  have hhead : ∀ c ∈ a.head?, isspace c = false := by
    intro c hc
    apply head_dropWhile_isspace s
    rw [← hr, ← hra]
    exact List.mem_head?_append_of_mem_head? hc
  rw [hstrip]
  refine ⟨s.takeWhile isspace, a.rtakeWhile isspace, r.dropWhile (!isComment ·), ?_, ?_, ?_, ?_, ?_,
    ?_, ?_⟩
  · rw [← List.append_assoc (a.rdropWhile isspace), hat, hra, hs]
  · exact fun _ => List.mem_takeWhile_imp
  · exact fun _ => List.mem_rtakeWhile_imp
  · intro c hc
    have hca : c ∈ r.takeWhile (!isComment ·) := ha ▸ (List.rdropWhile_prefix _ _).subset hc
    simpa using List.mem_takeWhile_imp hca
  · constructor
    · intro c hc
      apply hhead
      rw [← hat]
      exact List.mem_head?_append_of_mem_head? hc
    · intro c hc
      obtain ⟨hne, hlast⟩ := List.mem_getLast?_eq_getLast hc
      have h := List.rdropWhile_last_not isspace a hne
      rw [← hlast] at h
      simpa using h
  · intro c hc
    have h := List.head?_dropWhile_not (!isComment ·) r
    rw [Option.mem_def.mp hc] at h
    simpa using h
  · intro hnil
    rw [List.rdropWhile_eq_nil_iff] at hnil
    cases a with
    | nil => rfl
    | cons c a => exact absurd (hnil c (by simp)) (by simp [hhead c rfl])

lemma Parts.rest_head (h : Parts s lead text trail comment) :
    ∀ c ∈ (text ++ (trail ++ comment)).head?, isspace c = false := by
  cases text with
  | nil =>
    rw [h.trail_eq_nil rfl]
    intro c hc
    cases hs : isspace c with
    | false => rfl
    | true => exact absurd (h.comment_head c hc) (by simp [not_isComment_of_isspace hs])
  | cons d text => simpa using h.trimmed.head

lemma Parts.takeWhile_eq (h : Parts s lead text trail comment) : s.takeWhile isspace = lead := by
  rw [h.eq]
  exact takeWhile_append_of_head h.lead_blank h.rest_head

lemma Parts.takeWhile_plain (h : Parts s lead text trail comment) :
    (text ++ (trail ++ comment)).takeWhile (!isComment ·) = text ++ trail := by
  rw [← List.append_assoc]
  apply takeWhile_not_comment _ h.comment_head
  intro c hc
  rw [List.mem_append] at hc
  cases hc with
  | inl hmem => exact h.plain c hmem
  | inr hmem => exact not_isComment_of_isspace (h.trail_blank c hmem)

lemma Parts.stripComment_eq (h : Parts s lead text trail comment)
    (hb : buf = u ++ (text ++ (trail ++ comment) ++ nul :: v)) (hp : p = u.length)
    (hnul : nul ∉ text ++ (trail ++ comment)) :
    ∃ x, x.length = comment.length ∧
      stripComment buf p =
        some (u ++ (text ++ (trail ++ nul :: (x ++ v))), p + (text ++ trail).length) := by
  have hstr := strAt_eq hb hp hnul
  simp only [stripComment, hstr, h.takeWhile_plain, Option.bind_eq_bind, Option.bind_some]
  cases comment with
  | nil => exact ⟨[], rfl, by simp [hb]⟩
  | cons c r =>
    have hput : put buf (p + (text ++ trail).length) nul =
        some (u ++ (text ++ trail) ++ nul :: (r ++ nul :: v)) :=
      put_eq (c := c) (by simp [hb]) (by simp [hp]) nul
    rw [if_pos (by simp), hput]
    exact ⟨r ++ [nul], by simp, by simp⟩

lemma stripWS_eq (hb : buf = u ++ (s ++ nul :: v)) (hp : p = u.length) (hs : nul ∉ s) :
    ∃ x, (s.takeWhile isspace).length + (strip s).length + x.length = s.length ∧
      stripWS buf p = some (u ++ (s.takeWhile isspace ++ (strip s ++ nul :: (x ++ v))),
        p + (s.takeWhile isspace).length) := by
  obtain ⟨lead, trail, comment, h⟩ := exists_parts s
  obtain ⟨text, ht⟩ : ∃ text, text = strip s := ⟨_, rfl⟩
  rw [← ht] at h
  rw [h.takeWhile_eq, ← ht]
  have hlen := congrArg List.length h.eq
  simp only [List.length_append] at hlen
  have hrnul : nul ∉ text ++ (trail ++ comment) := by
    intro hmem
    rw [h.eq] at hs
    exact hs (List.mem_append_right _ hmem)
  have hbuf : buf = u ++ lead ++ (text ++ (trail ++ comment) ++ nul :: v) := by
    rw [hb, h.eq]
    simp
  obtain ⟨q, hq⟩ : ∃ q, q = p + lead.length := ⟨_, rfl⟩
  have hskip : skipSpace buf p = some q :=
    hq ▸ skipSpace_eq (v := v) (by rw [hbuf, List.append_assoc]) hp h.lead_blank hrnul h.rest_head
  have hline : q = (u ++ lead).length := by
    rw [hq, hp, List.length_append]
  obtain ⟨x, hx, hcut⟩ := h.stripComment_eq hbuf hline hrnul
  rw [← hq]
  cases text with
  | nil =>
    obtain rfl := h.trail_eq_nil rfl
    have hget : (u ++ lead ++ ([] ++ ([] ++ nul :: (x ++ v))))[q]? = some nul := by
      simp [hline]
    refine ⟨x, by simp only [List.length_nil] at hlen ⊢; omega, ?_⟩
    simp only [stripWS, hskip, hcut, hget, Option.bind_eq_bind, Option.bind_some, if_true]
    simp
  | cons c text =>
    have hcnul : c ≠ nul := by
      rintro rfl
      exact hrnul (by simp)
    have hget : (u ++ lead ++ (c :: text ++ (trail ++ nul :: (x ++ v))))[q]? = some c := by
      simp [hline]
    have htrim : trimBack q (u ++ lead ++ (c :: text ++ (trail ++ nul :: (x ++ v))))
        (q + (c :: text ++ trail).length) =
          some (u ++ lead ++ c :: text ++ (List.replicate trail.length nul ++ nul :: (x ++ v))) :=
      trimBack_eq (by simp) (by simp [hline]; omega) h.trail_blank (by simp [hline])
        (by rw [List.getLast?_append_of_ne_nil _ (by simp)]; exact h.trimmed.last)
    refine ⟨List.replicate trail.length nul ++ x, ?_, ?_⟩
    · simp only [List.length_append, List.length_replicate]
      omega
    · simp only [stripWS, hskip, hcut, hget, htrim, Option.bind_eq_bind, Option.bind_some, if_neg hcnul,
        replicate_append_cons]
      simp

end Strip

/-- The value of a stripped line, if it is the line of the key asked for. -/
def lineValue (key text : List Char) : Option (List Char) :=
  if '=' ∈ text ∧ stricmp key (strip (text.takeWhile (· != '='))) then
    some (strip (text.dropWhile (· != '=')).tail)
  else none

/-- What `FindKey` finds in the stripped lines that are not empty. -/
def lookupLines (sectionTest key : List Char) : List (List Char) → Bool → Bool × List Char
  | [], _ => (false, [])
  | text :: rest, false =>
      lookupLines sectionTest key rest (text.head? = some '[' ∧ stricmp text sectionTest)
  | text :: rest, true =>
      if text.head? = some '[' then (false, [])
      else match lineValue key text with
        | none => lookupLines sectionTest key rest true
        | some value => (true, value)

def texts (lines : List (List Char)) : List (List Char) := (lines.map strip).filter (· ≠ [])

section Find
variable {sectionTest key : List Char}

lemma strip_subset (s : List Char) : strip s ⊆ s := by
  obtain ⟨lead, trail, comment, h⟩ := exists_parts s
  intro c hc
  rw [h.eq]
  simp [hc]

lemma splitLine {u k w x : List Char} (hk : nul ∉ k) (hw : nul ∉ w) :
    ∃ line p y q,
      stripWS (u ++ (k ++ nul :: (w ++ nul :: x))) u.length = some (line, p) ∧
      strAt line p = some (strip k) ∧
      stripWS line (u.length + k.length + 1) = some (y, q) ∧ strAt y q = some (strip w) := by
  obtain ⟨a, ha, hkey⟩ := stripWS_eq (u := u) (v := w ++ nul :: x) rfl rfl hk
  obtain ⟨b, -, hvalue⟩ := stripWS_eq
    (u := u ++ (k.takeWhile isspace ++ (strip k ++ nul :: a))) (s := w) (v := x)
    (p := u.length + k.length + 1) rfl (by simp; omega) hw
  have hsk : nul ∉ strip k := fun h => hk (strip_subset k h)
  have hsw : nul ∉ strip w := fun h => hw (strip_subset w h)
  simp only [List.append_assoc, List.cons_append] at hvalue
  refine ⟨_, _, _, _, hkey, ?_, hvalue, ?_⟩
  · exact strAt_eq (u := u ++ k.takeWhile isspace) (v := a ++ (w ++ nul :: x)) (by simp) (by simp) hsk
  · exact strAt_eq (u := u ++ (k.takeWhile isspace ++ (strip k ++ nul :: a)) ++ w.takeWhile isspace)
      (v := b ++ x) (by simp) (by simp; omega) hsw

lemma matchKey_eq {lead text x : List Char} (htext : nul ∉ text) :
    matchKey key (lead ++ (text ++ nul :: x)) lead.length = .ok (lineValue key text) := by
  by_cases heq : '=' ∈ text
  · obtain ⟨k, w, rfl, hk⟩ := List.eq_append_cons_of_mem heq
    have hknul : nul ∉ k := fun h => htext (by simp [h])
    have hwnul : nul ∉ w := fun h => htext (by simp [h])
    have hchr := strchr_eq_some (u := lead) (v := x) rfl rfl htext hk
    have hput := put_eq (u := lead ++ k) (c := '=') (v := w ++ nul :: x) (p := lead.length + k.length)
      rfl (by simp) nul
    obtain ⟨line, p, y, q, hkey, hkeystr, hvalue, hvaluestr⟩ := splitLine (u := lead) (x := x) hknul hwnul
    rw [List.append_assoc, List.append_assoc] at hput
    rw [List.append_assoc, List.cons_append]
    simp only [matchKey, hchr, hput, hkey, hkeystr, hvalue, hvaluestr, checked_some, ok_bind, lineValue,
      takeWhile_ne_append hk, dropWhile_ne_append hk, heq, true_and, List.tail_cons]
    split_ifs <;> rfl
  · have hchr := strchr_eq_none (u := lead) (v := x) rfl rfl htext heq
    simp [matchKey, hchr, lineValue, heq]

lemma findLoop_eq {lines : List (List Char)}
    (hlines : ∀ l ∈ lines, l.length < maxLineLength ∧ nul ∉ l) (inside : Bool) :
    findLoop sectionTest key lines inside =
      .ok (lookupLines sectionTest key (texts lines) inside) := by
  induction lines generalizing inside with
  | nil => rfl
  | cons l rest ih =>
    obtain ⟨hlen, hnul⟩ := hlines l (by simp)
    have hrest := ih fun m hm => hlines m (by simp [hm])
    obtain ⟨x, -, hstrip⟩ := stripWS_eq (u := []) (v := []) (p := 0) rfl rfl hnul
    have hsnul : nul ∉ strip l := fun h => hnul (strip_subset l h)
    obtain ⟨lead, hlead⟩ : ∃ lead, lead = l.takeWhile isspace := ⟨_, rfl⟩
    simp only [← hlead, List.nil_append, Nat.zero_add, List.append_nil] at hstrip
    have hstr : strAt (lead ++ (strip l ++ nul :: x)) lead.length = some (strip l) :=
      strAt_eq rfl rfl hsnul
    simp only [findLoop, if_neg (Nat.not_le.mpr hlen), hstrip, hstr, checked_some, ok_bind]
    by_cases htext : strip l = []
    · simp [htext, hrest, texts]
    · have htexts : texts (l :: rest) = strip l :: texts rest := by
        simp [texts, htext]
      rw [htexts, if_neg htext]
      cases inside with
      | false => simp only [if_true, hrest, lookupLines]
      | true =>
        simp only [lookupLines, Bool.true_eq_false, if_false]
        by_cases hhead : (strip l).head? = some '['
        · simp only [hhead, if_true]
        · simp only [hhead, if_false, matchKey_eq hsnul, ok_bind]
          cases lineValue key (strip l) with
          | none => exact hrest true
          | some value => rfl

end Find

end LdapTgen.Profile
