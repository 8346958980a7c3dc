import LdapTgen.Profile

/-! What the loaders of the ini files store. One turn of their loop depends on the line read only
through its stripped text and the file name it includes, if any; `FindKey` on the stored text depends
only on the stripped lines that are not empty. -/
namespace LdapTgen.Profile
open CString

def cText (got : List Char) : List Char := got.takeWhile (· != nul)

def lineText (got : List Char) : List Char := strip (cText got)

def includeName (got : List Char) : Option (List Char) :=
  if got.head? = some '$' ∧ includeKeyword <+: lineText got then some ((lineText got).drop 9)
  else none

section Turn
variable {got l : List Char}

lemma nul_notMem_cText : nul ∉ cText got := by
  intro h
  have := List.mem_takeWhile_imp h
  simp at this

lemma exists_cText (got : List Char) : ∃ v, got ++ [nul] = cText got ++ nul :: v := by
  by_cases h : nul ∈ got
  · obtain ⟨s, v, rfl, hs⟩ := List.eq_append_cons_of_mem h
    exact ⟨v ++ [nul], by simp [cText, takeWhile_ne_append hs]⟩
  · exact ⟨[], by rw [cText, List.takeWhile_eq_self_iff.mpr (all_ne_of_notMem h)]⟩

lemma lineText_subset : lineText got ⊆ got :=
  fun _ h => (List.takeWhile_prefix _).subset (strip_subset _ h)

lemma nul_notMem_lineText : nul ∉ lineText got := fun h => nul_notMem_cText (strip_subset _ h)

lemma stripWS_got (got : List Char) : ∃ x, stripWS (got ++ [nul]) 0 =
    some ((cText got).takeWhile isspace ++ (lineText got ++ nul :: x),
      ((cText got).takeWhile isspace).length) := by
  obtain ⟨v, hv⟩ := exists_cText got
  obtain ⟨x, -, h⟩ := stripWS_eq (u := []) (p := 0) hv rfl nul_notMem_cText
  exact ⟨x ++ v, by simpa [lineText] using h⟩

lemma length_strip_le (s : List Char) : (strip s).length ≤ s.length := by
  obtain ⟨lead, trail, comment, h⟩ := exists_parts s
  have hlen := congrArg List.length h.eq
  simp only [List.length_append] at hlen
  omega

lemma length_lineText_le : (lineText got).length ≤ got.length :=
  (length_strip_le _).trans (List.takeWhile_prefix _).length_le

lemma strip_newline (s : List Char) : strip (s ++ ['\n']) = strip s := by
  obtain ⟨lead, trail, comment, h⟩ := exists_parts s
  cases comment with
  | nil =>
    have heq : s ++ ['\n'] = lead ++ (strip s ++ (trail ++ ['\n'] ++ [])) := by
      conv_lhs => rw [h.eq]
      simp
    rw [heq]
    apply strip_append h.lead_blank h.plain h.trimmed _ h.comment_head
    intro c hc
    rw [List.mem_append] at hc
    cases hc with
    | inl ht => exact h.trail_blank c ht
    | inr hn => simp_all [isspace]
  | cons c r =>
    have heq : s ++ ['\n'] = lead ++ (strip s ++ (trail ++ c :: (r ++ ['\n']))) := by
      conv_lhs => rw [h.eq]
      simp
    rw [heq]
    exact strip_append h.lead_blank h.plain h.trimmed h.trail_blank h.comment_head

lemma lineText_newline (l : List Char) : lineText (l ++ ['\n']) = lineText l := by
  by_cases h : nul ∈ l
  · obtain ⟨s, v, rfl, hs⟩ := List.eq_append_cons_of_mem h
    simp [lineText, cText, takeWhile_ne_append hs]
  · have hl : cText l = l := List.takeWhile_eq_self_iff.mpr (all_ne_of_notMem h)
    have hn : cText (l ++ ['\n']) = l ++ ['\n'] := by
      apply List.takeWhile_eq_self_iff.mpr
      apply all_ne_of_notMem
      have hne : nul ≠ '\n' := by decide
      simp [h, hne]
    rw [lineText, lineText, hl, hn, strip_newline]

lemma includeName_newline (l : List Char) : includeName (l ++ ['\n']) = includeName l := by
  have hhead : (l ++ ['\n']).head? = some '$' ↔ l.head? = some '$' := by
    cases l with
    | nil => simp
    | cons c l => simp
  simp only [includeName, lineText_newline, hhead]

lemma includeKeyword_cons : includeKeyword = '$' :: "include ".toList := by decide

lemma take_eq_includeKeyword {t : List Char} : t.take 9 = includeKeyword ↔ includeKeyword <+: t := by
  rw [List.prefix_iff_eq_take]
  exact eq_comm

lemma blanks_eq_nil (h : got.head? = some '$') : (cText got).takeWhile isspace = [] := by
  cases got with
  | nil => cases h
  | cons c g =>
    cases h
    simp [cText, nul, isspace]

lemma include_iff (got : List Char) :
    ((lineText got).head? = some '$' ∧
        ((cText got).takeWhile isspace ++ lineText got).take 9 = includeKeyword) ↔
      got.head? = some '$' ∧ includeKeyword <+: lineText got := by
  obtain ⟨lead, trail, comment, h⟩ := exists_parts (cText got)
  rw [h.takeWhile_eq, take_eq_includeKeyword]
  constructor
  · rintro ⟨hhead, hpre⟩
    cases lead with
    | nil =>
      obtain ⟨text, htext⟩ : ∃ text, lineText got = '$' :: text :=
        ⟨_, List.eq_cons_of_mem_head? hhead⟩
      have hc : cText got = '$' :: (text ++ (trail ++ comment)) := by
        rw [h.eq, List.nil_append, ← lineText, htext, List.cons_append]
      obtain ⟨rest, hrest⟩ := List.takeWhile_prefix (l := got) (· != nul)
      rw [← cText, hc] at hrest
      exact ⟨by rw [← hrest]; rfl, hpre⟩
    | cons c lead =>
      rw [includeKeyword_cons, List.cons_append, List.cons_prefix_cons] at hpre
      obtain ⟨rfl, -⟩ := hpre
      exact absurd (h.lead_blank '$' (by simp)) (by decide)
  · rintro ⟨hgot, hpre⟩
    rw [← h.takeWhile_eq, blanks_eq_nil hgot]
    refine ⟨?_, hpre⟩
    obtain ⟨rest, hrest⟩ := hpre
    rw [← hrest, includeKeyword_cons]
    rfl

end Turn

section Loop
variable {included : List Char → List Char → Except Fault (List Char × Option (List Char))}
variable {fname : List Char} {buf : Option (List Char)}

lemma readLoop_cons (got : List Char) (rest : List (List Char)) :
    readLoop included (got :: rest) fname buf =
      match includeName got with
      | some name => (included fname name).bind fun r =>
          match r with
          | (_, none) => .error .undefined
          | (fname, some text) => readLoop included rest fname (storeLine buf text)
      | none => readLoop included rest fname
          (if lineText got = [] then buf else storeLine buf (lineText got)) := by
  obtain ⟨x, hx⟩ := stripWS_got got
  obtain ⟨lead, hlead⟩ : ∃ lead, lead = (cText got).takeWhile isspace := ⟨_, rfl⟩
  have hblank : ∀ c ∈ lead, isspace c := fun c hc => List.mem_takeWhile_imp (hlead ▸ hc)
  have hnul : nul ∉ lead ++ lineText got := by
    simp [nul_notMem_of_isspace hblank, nul_notMem_lineText]
  have hiff := include_iff got
  rw [← hlead] at hx hiff
  have hstr : strAt (lead ++ (lineText got ++ nul :: x)) lead.length = some (lineText got) :=
    strAt_eq rfl rfl nul_notMem_lineText
  have hzero : strAt (lead ++ (lineText got ++ nul :: x)) 0 = some (lead ++ lineText got) :=
    strAt_eq (u := []) (v := x) (by simp) rfl hnul
  simp only [readLoop, hx, hstr, hzero, checked_some, ok_bind, hiff, includeName]
  by_cases htext : lineText got = []
  · have hpre : ¬ includeKeyword <+: [] := by decide
    simp [htext, hpre]
  · simp only [htext, if_false]
    by_cases hcond : got.head? = some '$' ∧ includeKeyword <+: lineText got
    · have hnine : strAt (lead ++ (lineText got ++ nul :: x)) 9 = some ((lineText got).drop 9) := by
        rw [hlead, blanks_eq_nil hcond.1]
        have hlen := hcond.2.length_le
        apply strAt_eq (u := (lineText got).take 9) (v := x)
        · rw [List.nil_append, ← List.append_assoc, List.take_append_drop]
        · rw [List.length_take]
          exact (Nat.min_eq_left hlen).symm
        · exact fun h => nul_notMem_lineText ((List.drop_suffix _ _).subset h)
      simp only [hcond, and_self, if_true, hnine, checked_some, ok_bind]
      cases included fname ((lineText got).drop 9) with
      | error fault => rfl
      | ok r =>
        obtain ⟨left, text⟩ := r
        cases text <;> rfl
    · simp only [hcond, if_false]

end Loop

/-- The text that holds the given pieces, each with an end of line; null without any. -/
def stored (ls : List (List Char)) : Option (List Char) :=
  if ls = [] then none else some (ls.flatMap (· ++ ['\n']))

/-- A loader has stored lines whose stripped texts, without the empty ones, are `ts`. -/
def Holds (data : Option (List Char)) (ts : List (List Char)) : Prop :=
  ∃ ls, data = stored ls ∧ texts ls = ts ∧ (ts = [] → ls = []) ∧
    ∀ l ∈ ls, '\n' ∉ l ∧ nul ∉ l ∧ l.length < maxLineLength

section Store
variable {data : Option (List Char)} {ts : List (List Char)}

lemma holds_none : Holds none [] := ⟨[], by simp [stored, texts]⟩

lemma storeLine_stored (ls : List (List Char)) (p : List Char) :
    storeLine (stored ls) p = stored (ls ++ [p]) := by
  by_cases h : ls = [] <;> simp [storeLine, stored, h]

lemma storeLine_text (ls ms : List (List Char)) :
    storeLine (stored ls) (ms.flatMap (· ++ ['\n'])) = stored (ls ++ (ms ++ [[]])) := by
  by_cases h : ls = [] <;> simp [storeLine, stored, h]

lemma texts_append (ls ms : List (List Char)) : texts (ls ++ ms) = texts ls ++ texts ms := by
  simp [texts]

lemma strip_strip (s : List Char) : strip (strip s) = strip s := by
  obtain ⟨lead, trail, comment, h⟩ := exists_parts s
  have hs : strip ([] ++ (strip s ++ ([] ++ []))) = strip s :=
    strip_append (by simp) h.plain h.trimmed (by simp) (by simp)
  simpa using hs

lemma texts_singleton {u : List Char} (hs : strip u = u) (hne : u ≠ []) : texts [u] = [u] := by
  simp [texts, hs, hne]

structure Storable (u : List Char) : Prop where
  strip_eq : strip u = u
  ne_nil : u ≠ []
  newline : '\n' ∉ u
  nul : nul ∉ u
  length : u.length < maxLineLength

lemma storable_lineText {got : List Char} (hne : lineText got ≠ []) (hgot : '\n' ∉ got)
    (hlen : got.length < maxLineLength) : Storable (lineText got) where
  strip_eq := strip_strip _
  ne_nil := hne
  newline := fun h => hgot (lineText_subset h)
  nul := nul_notMem_lineText
  length := Nat.lt_of_le_of_lt length_lineText_le hlen

lemma Holds.storeText (h : Holds data ts) {u : List Char} (hu : Storable u) :
    Holds (storeLine data u) (ts ++ [u]) := by
  obtain ⟨ls, rfl, rfl, -, hls⟩ := h
  refine ⟨ls ++ [u], storeLine_stored ls _, ?_, by simp, ?_⟩
  · rw [texts_append, texts_singleton hu.strip_eq hu.ne_nil]
  · intro m hm
    rw [List.mem_append, List.mem_singleton] at hm
    cases hm with
    | inl hm => exact hls m hm
    | inr hm =>
      subst hm
      exact ⟨hu.newline, hu.nul, hu.length⟩

lemma Holds.storeIncluded (h : Holds data ts) {text : List Char} {us : List (List Char)}
    (ht : Holds (some text) us) : Holds (storeLine data text) (ts ++ us) := by
  obtain ⟨ls, rfl, rfl, -, hls⟩ := h
  obtain ⟨ms, hms, rfl, hmnil, hmls⟩ := ht
  have hne : ms ≠ [] := by
    rintro rfl
    simp [stored] at hms
  rw [stored, if_neg hne, Option.some_inj] at hms
  have hempty : texts [[]] = [] := by decide
  refine ⟨ls ++ (ms ++ [[]]), by rw [hms, storeLine_text], ?_, ?_, ?_⟩
  · rw [texts_append, texts_append, hempty, List.append_nil]
  · intro hnil
    exact absurd (hmnil (List.append_eq_nil_iff.mp hnil).2) hne
  · intro m hm
    simp only [List.mem_append, List.mem_singleton] at hm
    rcases hm with hm | hm | rfl
    · exact hls m hm
    · exact hmls m hm
    · exact ⟨by simp, by simp, by decide⟩

lemma Holds.ne_none (h : Holds data ts) (hne : ts ≠ []) : ∃ text, data = some text := by
  obtain ⟨ls, rfl, rfl, -, -⟩ := h
  have hls : ls ≠ [] := by
    rintro rfl
    exact hne rfl
  exact ⟨_, by rw [stored, if_neg hls]⟩

lemma Holds.ne_nil {d : List Char} (h : Holds (some d) ts) : ts ≠ [] := by
  rintro rfl
  obtain ⟨ls, hd, -, hnil, -⟩ := h
  rw [hnil rfl] at hd
  simp [stored] at hd

lemma Holds.findKey_eq {d sect key : List Char} (h : Holds (some d) ts)
    (hsect : sect.length + 3 ≤ maxLineLength) :
    findKey d sect key = .ok (lookupLines ('[' :: (sect ++ [']'])) key ts false) := by
  obtain ⟨ls, hd, rfl, -, hls⟩ := h
  have hne : ls ≠ [] := by
    rintro rfl
    simp [stored] at hd
  rw [stored, if_neg hne, Option.some_inj] at hd
  rw [findKey, if_neg (Nat.not_lt.mpr hsect), hd, cutLines_flatMap fun l hl => (hls l hl).1]
  exact findLoop_eq (fun l hl => ⟨(hls l hl).2.2, (hls l hl).2.1⟩) false

end Store

def Cache.Valid (h : Host) (cache : Cache) : Prop :=
  ∀ f, cache.previousFile = some f → loadFile h f = .ok cache.cachedFile

section Cached
variable {h : Host} {cache : Cache} {f : List Char} {data : Option (List Char)}

lemma valid_start : Cache.Valid h ⟨none, none⟩ := fun _ hf => by cases hf

lemma valid_loaded (hload : loadFile h f = .ok data) : Cache.Valid h ⟨some f, data⟩ := by
  intro g hg
  cases hg
  exact hload

lemma getIniFile_eq (hv : cache.Valid h) (hload : loadFile h f = .ok data) :
    getIniFile h cache f = .ok (⟨some f, data⟩, data) := by
  obtain ⟨previous, cached⟩ := cache
  by_cases hf : previous = some f
  · subst hf
    have hcached := hv f rfl
    rw [hload] at hcached
    cases hcached
    simp [getIniFile]
  · simp [getIniFile, hf, hload]

lemma getString_eq {sect key : List Char} {ts : List (List Char)} (hv : cache.Valid h)
    (hload : loadFile h f = .ok data) (hdata : Holds data ts) (hsect : sect.length + 3 ≤ maxLineLength) :
    getString h cache f sect key =
      .ok (⟨some f, data⟩, lookupLines ('[' :: (sect ++ [']'])) key ts false) := by
  rw [getString, getIniFile_eq hv hload]
  cases data with
  | none =>
    have hts : ts = [] := by
      by_contra hne
      obtain ⟨text, htext⟩ := hdata.ne_none hne
      cases htext
    subst hts
    rfl
  | some d => simp [hdata.findKey_eq hsect]

lemma getIniFile_ok {after : Cache} (hv : cache.Valid h) (hget : getIniFile h cache f = .ok (after, data)) :
    after.Valid h ∧ loadFile h f = .ok data := by
  unfold getIniFile at hget
  split at hget
  · rename_i hprev
    obtain ⟨rfl, rfl⟩ := Prod.mk.inj (Except.ok.inj hget)
    exact ⟨hv, hv f hprev⟩
  · obtain ⟨loaded, hload, hget⟩ := bind_eq_ok hget
    obtain ⟨rfl, rfl⟩ := Prod.mk.inj (Except.ok.inj hget)
    exact ⟨valid_loaded hload, hload⟩

end Cached

/-- What a reading gives when nothing was read before. -/
def fresh {α : Type} (f : Cache → Except Fault (Cache × α)) : Except Fault α :=
  (f ⟨none, none⟩).map Prod.snd

/-- A reading that does not depend on what was read before. -/
structure CacheFree {α : Type} (h : Host) (f : Cache → Except Fault (Cache × α)) : Prop where
  result : ∀ cache, cache.Valid h → (f cache).map Prod.snd = fresh f
  valid : ∀ cache after x, cache.Valid h → f cache = .ok (after, x) → after.Valid h

section CacheFree
variable {α β : Type} {h : Host} {f : Cache → Except Fault (Cache × α)}

lemma CacheFree.ok (hf : CacheFree h f) {cache after : Cache} {x : α} (hv : cache.Valid h)
    (hx : f cache = .ok (after, x)) : after.Valid h ∧ fresh f = .ok x := by
  refine ⟨hf.valid cache after x hv hx, ?_⟩
  rw [← hf.result cache hv, hx]
  rfl

lemma cacheFree_pure (x : α) : CacheFree h fun cache => .ok (cache, x) where
  result _ _ := rfl
  valid := by
    rintro cache after y hv hy
    cases hy
    exact hv

lemma cacheFree_map (r : Except Fault α) : CacheFree h fun cache => r.map (Prod.mk cache) := by
  cases r with
  | error fault => exact ⟨fun _ _ => rfl, fun _ _ _ _ hx => by cases hx⟩
  | ok x => exact cacheFree_pure x

lemma CacheFree.bind {g : α → Cache → Except Fault (Cache × β)} (hf : CacheFree h f)
    (hg : ∀ x, CacheFree h (g x)) : CacheFree h fun cache => f cache >>= fun r => g r.2 r.1 := by
  have hresult : ∀ cache, cache.Valid h →
      (f cache >>= fun r => g r.2 r.1).map Prod.snd = fresh f >>= fun x => fresh (g x) := by
    intro cache hv
    rw [← hf.result cache hv]
    cases hx : f cache with
    | error fault => rfl
    | ok r => exact (hg r.2).result r.1 (hf.valid cache r.1 r.2 hv hx)
  constructor
  · intro cache hv
    rw [hresult cache hv]
    exact (hresult _ valid_start).symm
  · intro cache after y hv hy
    obtain ⟨r, hr, hy⟩ := bind_eq_ok hy
    exact (hg r.2).valid r.1 after y (hf.valid cache r.1 r.2 hv hr) hy

lemma cacheFree_getIniFile (ini : List Char) : CacheFree h fun cache => getIniFile h cache ini := by
  have hresult : ∀ cache, cache.Valid h → (getIniFile h cache ini).map Prod.snd = loadFile h ini := by
    intro cache hv
    unfold getIniFile
    split
    · rename_i hprev
      exact (hv ini hprev).symm
    · cases loadFile h ini <;> rfl
  exact ⟨fun cache hv => (hresult cache hv).trans (hresult _ valid_start).symm,
    fun cache after data hv hget => (getIniFile_ok hv hget).1⟩

lemma cacheFree_getString (ini sect key : List Char) :
    CacheFree h fun cache => getString h cache ini sect key := by
  have hbind := (cacheFree_getIniFile (h := h) ini).bind (g := fun data cache =>
    (data.elim (.ok (false, [])) (findKey · sect key)).map (Prod.mk cache)) fun _ => cacheFree_map _
  convert hbind using 2 with cache
  unfold getString
  refine bind_congr ?_
  rintro ⟨after, _ | data⟩ <;> rfl

lemma cacheFree_profileGetString (ini sect key defvalue : List Char) (length : ℕ) :
    CacheFree h fun cache => profileGetString h cache ini sect key defvalue length :=
  (cacheFree_getString ini sect key).bind
    (g := fun r cache => .ok (cache, (if r.1 then r.2 else defvalue).take (length - 1)))
    fun _ => cacheFree_pure _

lemma cacheFree_profileGetInt (ini sect key : List Char) (defvalue : ℤ) :
    CacheFree h fun cache => profileGetInt h cache ini sect key defvalue := by
  refine (cacheFree_getString ini sect key).bind (g := fun r cache =>
    if r.1 then
      if stricmp (r.2.take 2) "0x".toList then
        .ok (cache, toInt (digitsValue 16 ((r.2.drop 2).takeWhile isHexDigit)))
      else .ok (cache, atoi r.2)
    else .ok (cache, defvalue)) fun r => ?_
  split_ifs
  · exact cacheFree_pure _
  · exact cacheFree_pure _
  · exact cacheFree_pure _

end CacheFree

/-- The stripped texts of lines read from a file, without the empty ones. -/
def lineTexts (lines : List (List Char)) : List (List Char) := (lines.map lineText).filter (· ≠ [])

lemma lineTexts_append (ls ms : List (List Char)) :
    lineTexts (ls ++ ms) = lineTexts ls ++ lineTexts ms := by
  simp [lineTexts]

lemma lineTexts_cons (l : List Char) (ls : List (List Char)) :
    lineTexts (l :: ls) = lineTexts [l] ++ lineTexts ls := lineTexts_append [l] ls

lemma lineTexts_singleton {l : List Char} (h : lineText l ≠ []) : lineTexts [l] = [lineText l] := by
  simp [lineTexts, h]

lemma lineTexts_blank {l : List Char} (h : lineText l = []) : lineTexts [l] = [] := by
  simp [lineTexts, h]

inductive Event
  | includes (name : List Char)
  | stores (text : List Char)
  deriving DecidableEq, Repr

def event (got : List Char) : List Event :=
  match includeName got with
  | some name => [.includes name]
  | none => if lineText got = [] then [] else [.stores (lineText got)]

def lineEvents (l : List Char) : List Event := (readLines fgetsRoom l).flatMap event

def fileEvents (text : List Char) : List Event := (cutLines text).flatMap lineEvents

def runEvents (get : List Char → List Char → Except Fault (List Char × Option (List Char))) :
    List Event → List Char → Option (List Char) → Except Fault (Option (List Char))
  | [], _, buf => .ok buf
  | .stores text :: es, fname, buf => runEvents get es fname (storeLine buf text)
  | .includes name :: es, fname, buf => do
      match ← get fname name with
      | (_, none) => .error .undefined
      | (fname, some text) => runEvents get es fname (storeLine buf text)

section Events
variable {get : List Char → List Char → Except Fault (List Char × Option (List Char))}
variable {got l name : List Char}

lemma event_includes (h : includeName got = some name) : event got = [.includes name] := by
  rw [event, h]

lemma event_blank (h : includeName got = none) (ht : lineText got = []) : event got = [] := by
  rw [event, h]
  exact if_pos ht

lemma event_stores (h : includeName got = none) (ht : lineText got ≠ []) :
    event got = [.stores (lineText got)] := by
  rw [event, h]
  exact if_neg ht

lemma event_newline (l : List Char) : event (l ++ ['\n']) = event l := by
  rw [event, event, includeName_newline, lineText_newline]

lemma event_nil : event [] = [] := by decide

lemma readLoop_eq (gots : List (List Char)) (fname : List Char) (buf : Option (List Char)) :
    readLoop get gots fname buf = runEvents get (gots.flatMap event) fname buf := by
  induction gots generalizing fname buf with
  | nil => rfl
  | cons got gots ih =>
    rw [readLoop_cons, List.flatMap_cons]
    cases hname : includeName got with
    | some name =>
      simp only [event_includes hname, List.singleton_append, runEvents, ih]
      rfl
    | none =>
      by_cases ht : lineText got = []
      · simp only [event_blank hname ht, ht, if_true, List.nil_append, ih]
      · simp only [event_stores hname ht, ht, if_false, List.singleton_append, runEvents, ih]

lemma fgetsRoom_pos : 0 < fgetsRoom := by decide

lemma readLoop_file (text fname : List Char) (buf : Option (List Char)) :
    readLoop get (readLines fgetsRoom text) fname buf = runEvents get (fileEvents text) fname buf := by
  rw [readLoop_eq, flatMap_readLines event_newline event_nil fgetsRoom_pos]
  rfl

lemma fileEvents_line (hl : '\n' ∉ l) (r : List Char) :
    fileEvents (l ++ '\n' :: r) = lineEvents l ++ fileEvents r := by
  rw [fileEvents, cutLines_line hl, List.flatMap_cons, fileEvents]

lemma fileEvents_last (hl : '\n' ∉ l) : fileEvents l = lineEvents l := by
  by_cases hne : l = []
  · subst hne
    decide
  · rw [fileEvents, cutLines_last hne hl, List.flatMap_singleton]

lemma fileEvents_append (t r : List Char) :
    fileEvents (t ++ '\n' :: r) = fileEvents t ++ fileEvents r := by
  induction t using lines_induction with
  | nil =>
    have hnil : fileEvents [] = lineEvents [] := fileEvents_last (by simp)
    rw [fileEvents_line (by simp), hnil]
  | last l hne hl => rw [fileEvents_line hl, fileEvents_last hl]
  | line l f hl ih =>
    rw [List.append_assoc, List.cons_append, fileEvents_line hl, ih, fileEvents_line hl,
      List.append_assoc]

lemma lineEvents_of_length_le (hl : '\n' ∉ l) (hlen : l.length ≤ fgetsRoom) :
    lineEvents l = event l := by
  by_cases hne : l = []
  · subst hne
    decide
  · rw [lineEvents, readLines_last hne hl hlen, List.flatMap_singleton]

def Plain (es : List Event) : Prop := ∀ e ∈ es, ∃ u, e = .stores u ∧ Storable u

def Event.text? : Event → Option (List Char)
  | .includes _ => none
  | .stores text => some text

def eventTexts (es : List Event) : List (List Char) := es.filterMap Event.text?

lemma eventTexts_append (es fs : List Event) :
    eventTexts (es ++ fs) = eventTexts es ++ eventTexts fs := List.filterMap_append

lemma Plain.append {es fs : List Event} (he : Plain es) (hf : Plain fs) : Plain (es ++ fs) := by
  intro e h
  rw [List.mem_append] at h
  cases h with
  | inl h => exact he e h
  | inr h => exact hf e h

lemma Plain.eq_nil {es : List Event} (h : Plain es) (hnil : eventTexts es = []) : es = [] := by
  cases es with
  | nil => rfl
  | cons e es =>
    obtain ⟨u, rfl, -⟩ := h e (by simp)
    simp [eventTexts, Event.text?] at hnil

lemma plain_lineEvents (hl : '\n' ∉ l) (h : ∀ name, Event.includes name ∉ lineEvents l) :
    Plain (lineEvents l) := by
  intro e he
  obtain ⟨got, hgot, hevent⟩ := List.mem_flatMap.mp he
  obtain ⟨hlen, hsub⟩ := mem_readLines fgetsRoom_pos hgot
  have hmax : got.length < maxLineLength := by
    simp only [fgetsRoom, maxLineLength] at hlen ⊢
    omega
  cases hname : includeName got with
  | some name =>
    rw [event_includes hname, List.mem_singleton] at hevent
    subst hevent
    exact absurd he (h name)
  | none =>
    by_cases ht : lineText got = []
    · rw [event_blank hname ht] at hevent
      cases hevent
    · rw [event_stores hname ht, List.mem_singleton] at hevent
      exact ⟨_, hevent, storable_lineText ht (fun hc => hl (hsub hc)) hmax⟩

lemma eventTexts_event (h : includeName l = none) : eventTexts (event l) = lineTexts [l] := by
  by_cases ht : lineText l = []
  · rw [event_blank h ht, lineTexts_blank ht]
    rfl
  · rw [event_stores h ht, lineTexts_singleton ht]
    rfl

lemma includes_notMem_event (h : includeName l = none) (name : List Char) :
    Event.includes name ∉ event l := by
  by_cases ht : lineText l = []
  · simp [event_blank h ht]
  · simp [event_stores h ht]

lemma plain_of_length_le {lines : List (List Char)}
    (h : ∀ l ∈ lines, '\n' ∉ l ∧ l.length ≤ fgetsRoom ∧ includeName l = none) :
    Plain (lines.flatMap lineEvents) ∧ eventTexts (lines.flatMap lineEvents) = lineTexts lines := by
  induction lines with
  | nil => exact ⟨List.forall_mem_nil _, rfl⟩
  | cons l ls ih =>
    obtain ⟨hl, hlen, hname⟩ := h l (by simp)
    obtain ⟨hplain, htexts⟩ := ih fun m hm => h m (by simp [hm])
    have hevent := lineEvents_of_length_le hl hlen
    have hfirst : Plain (lineEvents l) := by
      apply plain_lineEvents hl
      rw [hevent]
      exact includes_notMem_event hname
    rw [List.flatMap_cons, lineTexts_cons]
    refine ⟨hfirst.append hplain, ?_⟩
    rw [eventTexts_append, htexts, hevent, eventTexts_event hname]

lemma runEvents_plain {es : List Event} {buf : Option (List Char)} {ts : List (List Char)}
    (hes : Plain es) (hbuf : Holds buf ts) :
    ∃ out, Holds out (ts ++ eventTexts es) ∧
      ∀ rest fname, runEvents get (es ++ rest) fname buf = runEvents get rest fname out := by
  induction es generalizing buf ts with
  | nil => exact ⟨buf, by simpa [eventTexts] using hbuf, fun _ _ => rfl⟩
  | cons e es ih =>
    obtain ⟨u, rfl, hu⟩ := hes e (by simp)
    obtain ⟨out, hout, hrun⟩ := ih (fun f hf => hes f (by simp [hf])) (hbuf.storeText hu)
    refine ⟨out, ?_, hrun⟩
    simpa [eventTexts, Event.text?] using hout

end Events

lemma loadFile_plain {h : Host} {f text : List Char} (hfile : h.files f = some text)
    (hplain : Plain (fileEvents text)) :
    ∃ data, loadFile h f = .ok data ∧ Holds data (eventTexts (fileEvents text)) := by
  simp only [loadFile, hfile, readLoop_file]
  obtain ⟨data, hdata, hrun⟩ := runEvents_plain hplain holds_none
  refine ⟨data, ?_, hdata⟩
  have h := hrun [] f
  rw [List.append_nil] at h
  exact h

end LdapTgen.Profile
