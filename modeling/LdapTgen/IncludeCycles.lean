import LdapTgen.NestedCalls
import LdapTgen.ProfileLoad

/-! When the loading of a configuration ends. The loaders keep no record of the files that they are
reading. The include lines that they come to are the calls of a body, and the bound on nested includes
of the model is the depth of these calls. -/
namespace LdapTgen.IncludeCycles
open CString MachineInt Profile NestedCalls Relation

abbrev Reading := Body (List Char) (Option (List Char)) Fault

def reading (leaves : List Char → List Char) (address : List Char → ℤ) :
    List Event → List Char → Option (List Char) → Reading
  | [], _, buf => .done (.ok buf)
  | .stores text :: es, fname, buf => reading leaves address es fname (storeLine buf text)
  | .includes name :: es, fname, buf =>
      if int32 (address fname) = address fname then
        .call (dirname fname ++ '/' :: name) fun included =>
          match included with
          | none => .done (.error .undefined)
          | some text => reading leaves address es (leaves fname) (storeLine buf text)
      else .done (.error .undefined)

/-- `GetIncludedFile` under the name that it puts together. -/
def includedFile (files : Files) (lib : Dirname) (fname : List Char) : Reading :=
  if maxFielnameLength ≤ fname.length then .done (.error .undefined)
  else match files fname with
    | none => .done (.error .exit)
    | some content => reading lib.leaves lib.arrayAt (fileEvents content) fname none

/-- `GetIniFile` of a file that is not cached. -/
def iniFile (files : Files) (lib : Dirname) (fname : List Char) : Reading :=
  match files fname with
  | none => .done (.ok none)
  | some content => reading id lib.copyAt (fileEvents content) fname none

/-- While the configuration is loaded, the file `path` is opened. -/
def ComesTo (files : Files) (lib : Dirname) (root path : List Char) : Prop :=
  Reached (includedFile files lib) (iniFile files lib root) path

/-- While `path` is read, the loader comes to a line that includes `sub`. -/
def Includes (files : Files) (lib : Dirname) (path sub : List Char) : Prop :=
  Calls (includedFile files lib) path sub

def NoLine (files : Files) (lib : Dirname) (path : List Char) : Prop :=
  Gives (includedFile files lib) (includedFile files lib path) (.ok none)

/-- The loader comes to an include line at which the pointer that `dirname` returns is cut. -/
inductive Cut (body : List Char → Reading) (leaves : List Char → List Char) (address : List Char → ℤ) :
    List Event → List Char → Prop
  | here {name : List Char} {es : List Event} {fname : List Char}
      (h : int32 (address fname) ≠ address fname) : Cut body leaves address (.includes name :: es) fname
  | stored {text : List Char} {es : List Event} {fname : List Char} (h : Cut body leaves address es fname) :
      Cut body leaves address (.stores text :: es) fname
  | later {name text : List Char} {es : List Event} {fname : List Char}
      (hx : Gives body (body (dirname fname ++ '/' :: name)) (.ok (some text)))
      (h : Cut body leaves address es (leaves fname)) : Cut body leaves address (.includes name :: es) fname

/-- In `GetIncludedFile` under the name `path`. -/
def CutsPointer (files : Files) (lib : Dirname) (path : List Char) : Prop :=
  ∃ content, files path = some content ∧
    Cut (includedFile files lib) lib.leaves lib.arrayAt (fileEvents content) path

/-- In `GetIniFile`. -/
def CutsFirst (files : Files) (lib : Dirname) (root : List Char) : Prop :=
  ∃ content, files root = some content ∧
    Cut (includedFile files lib) id lib.copyAt (fileEvents content) root

def outcome (r : Option (Except Fault (Option (List Char)))) : Except Fault (Option (List Char)) :=
  r.getD (.error .unfinished)

section Model
variable {leaves : List Char → List Char} {address : List Char → ℤ} {files : Files}
variable {get : List Char → List Char → Except Fault (List Char × Option (List Char))}
variable {included : List Char → Option (Except Fault (Option (List Char)))}

lemma runEvents_eq
    (hget : ∀ fname name, get fname name = (callDirname address fname >>= fun dir =>
      (outcome (included (dir ++ '/' :: name))).map (Prod.mk (leaves fname))))
    (es : List Event) (fname : List Char) (buf : Option (List Char)) :
    runEvents get es fname buf = outcome ((reading leaves address es fname buf).eval included) := by
  induction es generalizing fname buf with
  | nil => rfl
  | cons ev es ih =>
    cases ev with
    | stores text => exact ih fname _
    | includes name =>
      rw [runEvents, hget, reading, callDirname]
      split_ifs with hfits
      swap
      · rfl
      rw [Body.eval, ok_bind]
      rcases included (dirname fname ++ '/' :: name) with _ | fault | _ | text
      · rfl
      · rfl
      · rfl
      · exact ih (leaves fname) _

lemma getIncludedFile_eq (files : Files) (lib : Dirname) (depth : ℕ)
    (dir file : List Char) : getIncludedFile files lib depth dir file =
      outcome (run (includedFile files lib) depth (dir ++ '/' :: file)) := by
  induction depth generalizing dir file with
  | zero => rfl
  | succ depth ih =>
    rw [getIncludedFile, run, includedFile]
    split_ifs with hlen
    · rfl
    · cases files (dir ++ '/' :: file) with
      | none => rfl
      | some content =>
        dsimp only
        rw [readLoop_file]
        apply runEvents_eq
        intro fname name
        refine bind_congr fun dir => ?_
        rw [ih]
        cases outcome (run (includedFile files lib) depth (dir ++ '/' :: name)) <;> rfl

lemma loadFile_eq (files : Files) (lib : Dirname) (depth : ℕ) (fname : List Char) :
    loadFile ⟨files, lib, depth⟩ fname =
      outcome ((iniFile files lib fname).eval (run (includedFile files lib) depth)) := by
  rw [loadFile, iniFile]
  dsimp only
  cases files fname with
  | none => rfl
  | some content =>
    dsimp only
    rw [readLoop_file]
    apply runEvents_eq
    intro fname name
    refine bind_congr fun dir => ?_
    rw [getIncludedFile_eq]
    cases outcome (run (includedFile files lib) depth (dir ++ '/' :: name)) <;> rfl

end Model

section Ends
variable {files : Files} {lib : Dirname} {leaves : List Char → List Char} {address : List Char → ℤ}
variable {body : List Char → Reading} {es : List Event} {fname root : List Char}
variable {buf : Option (List Char)} {fault : Fault}

lemma reading_cut {name : List Char} (h : int32 (address fname) ≠ address fname) :
    reading leaves address (.includes name :: es) fname buf = .done (.error .undefined) := if_neg h

lemma reading_call {name : List Char} (h : int32 (address fname) = address fname) :
    reading leaves address (.includes name :: es) fname buf =
      .call (dirname fname ++ '/' :: name) fun included =>
        match included with
        | none => .done (.error .undefined)
        | some text => reading leaves address es (leaves fname) (storeLine buf text) := if_pos h

lemma reading_endsWith_error : EndsWith body (reading leaves address es fname buf) (.error fault) ↔
    fault = .undefined ∧ ((∃ q, Reaches body (reading leaves address es fname buf) q ∧
      Gives body (body q) (.ok none)) ∨ Cut body leaves address es fname) := by
  induction es generalizing fname buf with
  | nil =>
    constructor
    · intro h
      cases h
    · rintro ⟨-, ⟨q, hq, -⟩ | hcut⟩
      · cases hq
      · cases hcut
  | cons ev es ih =>
    cases ev with
    | stores text =>
      rw [reading, ih]
      refine and_congr_right fun _ => or_congr_right ⟨.stored, fun h => ?_⟩
      cases h with
      | stored h => exact h
    | includes name =>
      by_cases hfits : int32 (address fname) = address fname
      · rw [reading_call hfits]
        constructor
        · intro h
          cases h with
          | @later _ _ x _ hx hr =>
            cases x with
            | none =>
              cases hr
              exact ⟨rfl, .inl ⟨_, .here _ _, hx⟩⟩
            | some text =>
              obtain ⟨hfault, ⟨q, hq, hnone⟩ | hcut⟩ := ih.mp hr
              · exact ⟨hfault, .inl ⟨q, .later hx hq, hnone⟩⟩
              · exact ⟨hfault, .inr (.later hx hcut)⟩
        · rintro ⟨rfl, ⟨q, hq, hnone⟩ | hcut⟩
          · cases hq with
            | here => exact .later hnone (.done _)
            | @later _ _ _ x hx hq =>
              cases x with
              | none => cases hq
              | some text => exact .later hx (ih.mpr ⟨rfl, .inl ⟨q, hq, hnone⟩⟩)
          · cases hcut with
            | here h => exact absurd hfits h
            | later hx h => exact .later hx (ih.mpr ⟨rfl, .inr h⟩)
      · rw [reading_cut hfits]
        constructor
        · intro h
          cases h
          exact ⟨rfl, .inr (.here hfits)⟩
        · rintro ⟨rfl, -⟩
          exact .done _

lemma includedFile_long (h : maxFielnameLength ≤ fname.length) :
    includedFile files lib fname = .done (.error .undefined) := if_pos h

lemma includedFile_missing (hlen : fname.length < maxFielnameLength) (h : files fname = none) :
    includedFile files lib fname = .done (.error .exit) := by
  rw [includedFile, if_neg (not_le.mpr hlen), h]

lemma includedFile_found {content : List Char} (hlen : fname.length < maxFielnameLength)
    (h : files fname = some content) :
    includedFile files lib fname = reading lib.leaves lib.arrayAt (fileEvents content) fname none := by
  rw [includedFile, if_neg (not_le.mpr hlen), h]

lemma includedFile_endsWith_error :
    EndsWith (includedFile files lib) (includedFile files lib fname) (.error fault) ↔
      fault = .undefined ∧ (maxFielnameLength ≤ fname.length ∨
          (∃ q, Includes files lib fname q ∧ NoLine files lib q) ∨ fname.length < maxFielnameLength ∧
            CutsPointer files lib fname) ∨
        fault = .exit ∧ fname.length < maxFielnameLength ∧ files fname = none := by
  unfold Includes Calls NoLine
  rcases le_or_gt maxFielnameLength fname.length with hlong | hlen
  · have hnot : ¬ fname.length < maxFielnameLength := not_lt.mpr hlong
    rw [includedFile_long hlong]
    constructor
    · intro h
      cases h
      exact .inl ⟨rfl, .inl hlong⟩
    · rintro (⟨rfl, -⟩ | ⟨-, hlt, -⟩)
      · exact .done _
      · exact absurd hlt hnot
  · cases hfile : files fname with
    | none =>
      rw [includedFile_missing hlen hfile]
      constructor
      · intro h
        cases h
        exact .inr ⟨rfl, hlen, rfl⟩
      · rintro (⟨-, hlong | ⟨q, hq, -⟩ | ⟨-, content, hcontent, -⟩⟩ | ⟨rfl, -⟩)
        · exact absurd hlen (not_lt.mpr hlong)
        · cases hq
        · exact absurd (hfile.symm.trans hcontent) (by simp)
        · exact .done _
    | some content =>
      rw [includedFile_found hlen hfile, reading_endsWith_error]
      simp [not_le.mpr hlen, hlen, CutsPointer, hfile]

lemma iniFile_endsWith_error :
    EndsWith (includedFile files lib) (iniFile files lib root) (.error fault) ↔
      fault = .undefined ∧ ((∃ q, Reaches (includedFile files lib) (iniFile files lib root) q ∧
        NoLine files lib q) ∨ CutsFirst files lib root) := by
  rw [iniFile, CutsFirst]
  cases files root with
  | none =>
    constructor
    · intro h
      cases h
    · rintro ⟨-, ⟨q, hq, -⟩ | ⟨content, hcontent, -⟩⟩
      · cases hq
      · cases hcontent
  | some content => simpa [NoLine] using reading_endsWith_error

lemma gives_error (h : Gives (includedFile files lib) (iniFile files lib root) (.error fault)) :
    fault = .exit ∨ fault = .undefined := by
  rcases gives_error_iff_reached.mp h with hend | ⟨p, -, hend⟩
  · exact .inr (iniFile_endsWith_error.mp hend).1
  · rcases includedFile_endsWith_error.mp hend with ⟨hfault, -⟩ | ⟨hfault, -⟩
    · exact .inr hfault
    · exact .inl hfault

lemma gives_undefined_iff :
    Gives (includedFile files lib) (iniFile files lib root) (.error .undefined) ↔
      CutsFirst files lib root ∨ ∃ p, ComesTo files lib root p ∧
        (maxFielnameLength ≤ p.length ∨ NoLine files lib p ∨ CutsPointer files lib p) := by
  rw [gives_error_iff_reached]
  constructor
  · rintro (hend | ⟨p, ⟨q, hq, hqp⟩, hend⟩)
    · obtain ⟨-, ⟨q, hq, hnone⟩ | hcut⟩ := iniFile_endsWith_error.mp hend
      · exact .inr ⟨q, ⟨q, hq, .refl⟩, .inr (.inl hnone)⟩
      · exact .inl hcut
    · right
      rcases includedFile_endsWith_error.mp hend with
        ⟨-, hlong | ⟨s, hps, hs⟩ | ⟨-, hcut⟩⟩ | ⟨hfault, -⟩
      · exact ⟨p, ⟨q, hq, hqp⟩, .inl hlong⟩
      · exact ⟨s, ⟨q, hq, hqp.tail hps⟩, .inr (.inl hs)⟩
      · exact ⟨p, ⟨q, hq, hqp⟩, .inr (.inr hcut)⟩
      · cases hfault
  · rintro (hfirst | ⟨p, ⟨q, hq, hqp⟩, hlong | hnone | hcut⟩)
    · exact .inl (iniFile_endsWith_error.mpr ⟨rfl, .inr hfirst⟩)
    · exact .inr ⟨p, ⟨q, hq, hqp⟩, includedFile_endsWith_error.mpr (.inl ⟨rfl, .inl hlong⟩)⟩
    · -- the null pointer is met in the file that includes `p`
      rcases hqp.cases_tail with rfl | ⟨s, hqs, hsp⟩
      · exact .inl (iniFile_endsWith_error.mpr ⟨rfl, .inl ⟨_, hq, hnone⟩⟩)
      · exact .inr ⟨s, ⟨q, hq, hqs⟩,
          includedFile_endsWith_error.mpr (.inl ⟨rfl, .inr (.inl ⟨p, hsp, hnone⟩)⟩)⟩
    · refine .inr ⟨p, ⟨q, hq, hqp⟩, includedFile_endsWith_error.mpr (.inl ⟨rfl, ?_⟩)⟩
      rcases le_or_gt maxFielnameLength p.length with hlong | hlen
      · exact .inl hlong
      · exact .inr (.inr ⟨hlen, hcut⟩)

lemma finite_callers : {p | ∃ q, Includes files lib p q}.Finite := by
  have : Finite Char := Finite.of_injective Char.val fun _ _ => Char.ext
  refine (List.finite_length_lt Char maxFielnameLength).subset ?_
  rintro p ⟨q, hq⟩
  by_contra hlong
  rw [Includes, Calls, includedFile_long (not_lt.mp hlong)] at hq
  cases hq

lemma loadFile_gives {r : Except Fault (Option (List Char))} (hr : r ≠ .error .unfinished) :
    (∃ depth, loadFile ⟨files, lib, depth⟩ root = r) ↔
      Gives (includedFile files lib) (iniFile files lib root) r := by
  apply exists_congr
  intro depth
  rw [loadFile_eq]
  cases (iniFile files lib root).eval (run (includedFile files lib) depth) with
  | none => simp [outcome, hr.symm]
  | some r' => simp [outcome]

lemma loadFile_ends_iff : (∃ depth, loadFile ⟨files, lib, depth⟩ root ≠ .error .unfinished) ↔
    ∀ p, ComesTo files lib root p → ¬ TransGen (Includes files lib) p p := by
  refine Iff.trans ?_ (gives_iff_no_cycle finite_callers (iniFile files lib root))
  constructor
  · rintro ⟨depth, hne⟩
    exact ⟨_, (loadFile_gives hne).mp ⟨depth, rfl⟩⟩
  · rintro ⟨r, hr⟩
    have hne : r ≠ .error .unfinished := by
      rintro rfl
      rcases gives_error hr with h | h <;> cases h
    obtain ⟨depth, hdepth⟩ := (loadFile_gives hne).mpr hr
    exact ⟨depth, hdepth ▸ hne⟩

lemma loadFile_returns_iff :
    (∃ depth, loadFile ⟨files, lib, depth⟩ root = .error .exit ∨
        ∃ data, loadFile ⟨files, lib, depth⟩ root = .ok data) ↔
      ¬ CutsFirst files lib root ∧ ∀ p, ComesTo files lib root p →
        ¬ TransGen (Includes files lib) p p ∧ p.length < maxFielnameLength ∧ ¬ NoLine files lib p ∧
          ¬ CutsPointer files lib p := by
  constructor
  · rintro ⟨depth, hr⟩
    have hne : loadFile ⟨files, lib, depth⟩ root ≠ .error .unfinished := by
      rcases hr with hr | ⟨data, hr⟩ <;> simp [hr]
    have hdefined : ¬ Gives (includedFile files lib) (iniFile files lib root) (.error .undefined) := by
      intro hundef
      have heq := ((loadFile_gives hne).mp ⟨depth, rfl⟩).unique hundef
      rcases hr with hr | ⟨data, hr⟩ <;> simp [hr] at heq
    rw [gives_undefined_iff] at hdefined
    refine ⟨fun hfirst => hdefined (.inl hfirst),
      fun p hp => ⟨loadFile_ends_iff.mp ⟨depth, hne⟩ p hp, ?_, ?_, ?_⟩⟩
    · exact not_le.mp fun hlong => hdefined (.inr ⟨p, hp, .inl hlong⟩)
    · exact fun hnone => hdefined (.inr ⟨p, hp, .inr (.inl hnone)⟩)
    · exact fun hcut => hdefined (.inr ⟨p, hp, .inr (.inr hcut)⟩)
  · rintro ⟨hfirst, h⟩
    obtain ⟨depth, hne⟩ := loadFile_ends_iff.mpr fun p hp => (h p hp).1
    refine ⟨depth, ?_⟩
    have hgives := (loadFile_gives hne).mp ⟨depth, rfl⟩
    cases hload : loadFile ⟨files, lib, depth⟩ root with
    | ok data => exact .inr ⟨data, rfl⟩
    | error fault =>
      rw [hload] at hgives
      rcases gives_error hgives with rfl | rfl
      · exact .inl rfl
      · rcases gives_undefined_iff.mp hgives with hcut | ⟨p, hp, hlong | hnone | hcut⟩
        · exact absurd hcut hfirst
        · exact absurd (h p hp).2.1 (not_lt.mpr hlong)
        · exact absurd hnone (h p hp).2.2.1
        · exact absurd hcut (h p hp).2.2.2

lemma getIniFile_cached {cache : Cache} (h : cache.previousFile = some root) (host : Host) :
    getIniFile host cache root = .ok (cache, cache.cachedFile) := if_pos h

lemma getIniFile_load {cache : Cache} (h : cache.previousFile ≠ some root) (host : Host) :
    getIniFile host cache root = (loadFile host root).map fun data => (⟨some root, data⟩, data) := by
  rw [getIniFile, if_neg h]
  cases loadFile host root <;> rfl

lemma map_eq_error_iff {α β : Type*} {r : Except Fault α} {f : α → β} :
    r.map f = .error fault ↔ r = .error fault := by
  cases r <;> simp [Except.map]

lemma exists_map_eq_ok_iff {α β : Type*} {r : Except Fault α} {f : α → β} :
    (∃ b, r.map f = .ok b) ↔ ∃ a, r = .ok a := by
  cases r <;> simp [Except.map]

end Ends

/-- `GetIniFile` ends if and only if the file is cached or the loading comes to no file that includes
itself, directly or through others, by lines that are come to. It returns or stops the program with its
message if and only if, besides, every name that is put together fits into its array, every included
file has a line to store, and no pointer that `dirname` returns is cut. -/
theorem getIniFile_ends_iff (files : Files) (lib : Dirname) (cache : Cache)
    (root : List Char) :
    ((∃ depth, getIniFile ⟨files, lib, depth⟩ cache root ≠ .error .unfinished) ↔
      cache.previousFile = some root ∨
        ∀ p, ComesTo files lib root p → ¬ TransGen (Includes files lib) p p) ∧
      ((∃ depth, getIniFile ⟨files, lib, depth⟩ cache root = .error .exit ∨
          ∃ r, getIniFile ⟨files, lib, depth⟩ cache root = .ok r) ↔
        cache.previousFile = some root ∨
          ¬ CutsFirst files lib root ∧ ∀ p, ComesTo files lib root p →
            ¬ TransGen (Includes files lib) p p ∧ p.length < maxFielnameLength ∧
              ¬ NoLine files lib p ∧ ¬ CutsPointer files lib p) := by
  by_cases hcache : cache.previousFile = some root
  · simp [getIniFile_cached hcache, hcache]
  · simp only [getIniFile_load hcache, hcache, false_or, ne_eq, map_eq_error_iff, exists_map_eq_ok_iff]
    exact ⟨loadFile_ends_iff, loadFile_returns_iff⟩

/-- One file, under the two names that a run from its directory gives it, that includes itself. -/
def selfIncluding : Files := fun fname =>
  if fname = "a.ini".toList ∨ fname = "./a.ini".toList then some "$include a.ini\n".toList else none

lemma selfIncluding_eq {fname : List Char} (h : fname = "a.ini".toList ∨ fname = "./a.ini".toList) :
    selfIncluding fname = some "$include a.ini\n".toList := if_pos h

lemma events_selfIncluding : fileEvents "$include a.ini\n".toList = [.includes "a.ini".toList] := by
  decide

/-- Pointers that fit. -/
def lowPointers (leaves : List Char → List Char) : Dirname := ⟨leaves, fun _ => 4096, fun _ => 4096⟩

lemma int32_low : int32 4096 = 4096 := by decide

lemma run_selfIncluding (leaves : List Char → List Char) (depth : ℕ) :
    run (includedFile selfIncluding (lowPointers leaves)) depth "./a.ini".toList = none := by
  induction depth with
  | zero => rfl
  | succ depth ih =>
    have hpath : dirname "./a.ini".toList ++ '/' :: "a.ini".toList = "./a.ini".toList := by decide
    have hlen : "./a.ini".toList.length < maxFielnameLength := by decide
    rw [run, includedFile_found hlen (selfIncluding_eq (.inr rfl)), events_selfIncluding,
      reading_call int32_low, hpath, Body.eval, ih]

theorem self_include_never_ends : {p | (selfIncluding p).isSome}.Finite ∧
    ∀ leaves depth, getIniFile ⟨selfIncluding, lowPointers leaves, depth⟩ ⟨none, none⟩ "a.ini".toList =
      .error .unfinished := by
  constructor
  · apply (Set.toFinite {"a.ini".toList, "./a.ini".toList}).subset
    intro p hp
    by_contra hother
    have hnone : selfIncluding p = none := if_neg hother
    simp [hnone] at hp
  · intro leaves depth
    have hpath : dirname "a.ini".toList ++ '/' :: "a.ini".toList = "./a.ini".toList := by decide
    have hload : loadFile ⟨selfIncluding, lowPointers leaves, depth⟩ "a.ini".toList = .error .unfinished := by
      rw [loadFile_eq, iniFile, selfIncluding_eq (.inl rfl)]
      dsimp only
      rw [events_selfIncluding, reading_call int32_low, hpath, Body.eval, run_selfIncluding]
      rfl
    rw [getIniFile_load (by simp), hload]
    rfl

end LdapTgen.IncludeCycles
