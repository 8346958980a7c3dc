import Mathlib

/-! Strings of C in memory. A buffer is a list of characters, a pointer into it is a position, and a
string extends from its position to the first null character. A read or a write outside the buffer has
no result. The lemmas take the buffer apart as `u ++ (s ++ nul :: v)` with the position behind `u`: they
give the string found there and leave `u` and `v` as they are. -/
namespace LdapTgen.CString

def nul : Char := '\x00'

def isspace (c : Char) : Bool :=
  c = ' ' ∨ c = '\t' ∨ c = '\n' ∨ c = '\x0b' ∨ c = '\x0c' ∨ c = '\r'

lemma isspace_nul : isspace nul = false := by decide

lemma isspace_blank : [' '].all isspace := by decide

lemma isspace_nil : [].all isspace := rfl

lemma isspace_of_all {s : List Char} (h : s.all isspace) : ∀ c ∈ s, isspace c :=
  List.all_eq_true.mp h

def strAt (buf : List Char) (p : ℕ) : Option (List Char) :=
  if nul ∈ buf.drop p then some ((buf.drop p).takeWhile (· != nul)) else none

def put (buf : List Char) (p : ℕ) (c : Char) : Option (List Char) :=
  if p < buf.length then some (buf.set p c) else none

def strchr (c : Char) (buf : List Char) (p : ℕ) : Option (Option ℕ) :=
  (strAt buf p).map fun s => if c ∈ s then some (p + s.idxOf c) else none

/-- `while (isspace(*p)) p++` -/
def skipSpace (buf : List Char) (p : ℕ) : Option ℕ :=
  (strAt buf p).map fun s => p + (s.takeWhile isspace).length

/-- `for (p--; p >= lo && isspace(*p); p--) *p = 0`, from the position `p` behind the text. -/
def trimBack (lo : ℕ) : List Char → ℕ → Option (List Char)
  | buf, 0 => some buf
  | buf, p + 1 =>
      if lo ≤ p then do
        let c ← buf[p]?
        if isspace c then trimBack lo (buf.set p nul) p else some buf
      else some buf

def strstr (word : List Char) : List Char → Option ℕ
  | [] => if word = [] then some 0 else none
  | c :: s => if word <+: c :: s then some 0 else (strstr word s).map (· + 1)

def stricmp (s t : List Char) : Bool := s.map Char.toLower = t.map Char.toLower

lemma stricmp_self (s : List Char) : stricmp s s := by simp [stricmp]

/-- One call of `strtok` at the saved position: the buffer, the new saved position and the token. -/
def strtok (delim : Char) (buf : List Char) (p : ℕ) : Option (List Char × ℕ × Option ℕ) := do
  let s ← strAt buf p
  let first := p + (s.takeWhile (· == delim)).length
  let t := s.dropWhile (· == delim)
  if t = [] then some (buf, first, none)
  else if delim ∈ t then
    let last := first + t.idxOf delim
    some (buf.set last nul, last + 1, some first)
  else some (buf, first + t.length, some first)

/-- One call of `fgets` with room for `n` characters: what it reads and what is left of the file. -/
def fgets : ℕ → List Char → List Char × List Char
  | 0, file => ([], file)
  | _ + 1, [] => ([], [])
  | n + 1, c :: file =>
      if c = '\n' then ([c], file) else (c :: (fgets n file).1, (fgets n file).2)

/-- The results of at most `k` calls of `fgets`, up to the end of the file. -/
def fgetsLoop (n : ℕ) : ℕ → List Char → List (List Char)
  | 0, _ => []
  | _ + 1, [] => []
  | k + 1, c :: file => (fgets n (c :: file)).1 :: fgetsLoop n k (fgets n (c :: file)).2

/-- The results of successive calls of `fgets` from the start of a file to its end. -/
def readLines (n : ℕ) (file : List Char) : List (List Char) := fgetsLoop n file.length file

/-- The pieces of a text between line ends; nothing is left behind a last line end. -/
def cutLines : List Char → List (List Char)
  | [] => []
  | c :: s =>
      if c = '\n' then [] :: cutLines s
      else match cutLines s with
        | [] => [[c]]
        | l :: ls => (c :: l) :: ls

section Strings
variable {buf u s t v w : List Char} {c : Char} {p : ℕ}

lemma all_ne_of_notMem (hs : c ∉ s) : ∀ x ∈ s, (x != c) = true := by
  intro x hx
  rw [bne_iff_ne]
  rintro rfl
  exact hs hx

lemma takeWhile_ne_append (hs : c ∉ s) : (s ++ c :: t).takeWhile (· != c) = s := by
  rw [List.takeWhile_append_of_pos (all_ne_of_notMem hs)]
  simp

lemma dropWhile_ne_append (hs : c ∉ s) : (s ++ c :: t).dropWhile (· != c) = c :: t := by
  rw [List.dropWhile_append_of_pos (all_ne_of_notMem hs)]
  simp

lemma strAt_eq (hb : buf = u ++ (s ++ nul :: v)) (hp : p = u.length) (hs : nul ∉ s) :
    strAt buf p = some s := by
  subst hb hp
  simp [strAt, takeWhile_ne_append hs]

lemma replicate_append_cons (n : ℕ) : List.replicate n c ++ c :: v = c :: (List.replicate n c ++ v) := by
  induction n with
  | zero => rfl
  | succ n ih => simp [List.replicate_succ, ih]

lemma strAt_replicate {n : ℕ} (hb : buf = u ++ (s ++ (List.replicate n nul ++ nul :: v)))
    (hp : p = u.length) (hs : nul ∉ s) : strAt buf p = some s := by
  rw [replicate_append_cons] at hb
  exact strAt_eq hb hp hs

lemma put_eq (hb : buf = u ++ c :: v) (hp : p = u.length) (d : Char) :
    put buf p d = some (u ++ d :: v) := by
  subst hb hp
  simp [put]

lemma strchr_eq_some (hb : buf = u ++ (s ++ c :: (t ++ nul :: v))) (hp : p = u.length)
    (hs : nul ∉ s ++ c :: t) (hc : c ∉ s) : strchr c buf p = some (some (p + s.length)) := by
  have h : strAt buf p = some (s ++ c :: t) := strAt_eq (u := u) (v := v) (by simp [hb]) hp hs
  simp [strchr, h, List.idxOf_append_of_notMem hc]

lemma strchr_eq_none (hb : buf = u ++ (s ++ nul :: v)) (hp : p = u.length) (hs : nul ∉ s)
    (hc : c ∉ s) : strchr c buf p = some none := by
  simp [strchr, strAt_eq hb hp hs, hc]

lemma nul_notMem_of_isspace (hw : ∀ c ∈ w, isspace c) : nul ∉ w := by
  intro h
  have := hw nul h
  rw [isspace_nul] at this
  cases this

structure Trimmed (s : List Char) : Prop where
  head : ∀ c ∈ s.head?, isspace c = false
  last : ∀ c ∈ s.getLast?, isspace c = false

instance decidableTrimmed (s : List Char) : Decidable (Trimmed s) :=
  decidable_of_iff (s.head?.all (!isspace ·) ∧ s.getLast?.all (!isspace ·))
    ⟨fun h => ⟨by simpa [Option.all_eq_true] using h.1, by simpa [Option.all_eq_true] using h.2⟩,
      fun h => ⟨by simpa [Option.all_eq_true] using h.1, by simpa [Option.all_eq_true] using h.2⟩⟩

section Span
variable {f : Char → Bool}

lemma takeWhile_append_of_head (hw : ∀ c ∈ w, f c) (hs : ∀ c ∈ s.head?, f c = false) :
    (w ++ s).takeWhile f = w := by
  rw [List.takeWhile_append_of_pos hw]
  cases s with
  | nil => simp
  | cons c s => simp [hs c rfl]

lemma dropWhile_append_of_head (hw : ∀ c ∈ w, f c) (hs : ∀ c ∈ s.head?, f c = false) :
    (w ++ s).dropWhile f = s := by
  rw [List.dropWhile_append_of_pos hw]
  cases s with
  | nil => simp
  | cons c s => simp [hs c rfl]

end Span

lemma rdropWhile_isspace_append (hw : ∀ c ∈ w, isspace c)
    (hs : ∀ c ∈ s.getLast?, isspace c = false) : (s ++ w).rdropWhile isspace = s := by
  induction w using List.reverseRecOn with
  | nil =>
    rw [List.append_nil, List.rdropWhile_eq_self_iff]
    intro hne
    simp [hs _ (List.getLast?_eq_some_getLast hne)]
  | append_singleton w c ih =>
    rw [← List.append_assoc, List.rdropWhile_concat_pos _ _ _ (hw c (by simp))]
    exact ih fun x hx => hw x (by simp [hx])

lemma exists_getLast?_not (s : List Char) : ∃ z b, s = z ++ b ∧ (∀ c ∈ b, isspace c) ∧
    ∀ c ∈ z.getLast?, isspace c = false := by
  refine ⟨s.rdropWhile isspace, s.rtakeWhile isspace, List.rdropWhile_append_rtakeWhile.symm,
    fun c hc => List.mem_rtakeWhile_imp hc, fun c hc => ?_⟩
  obtain ⟨hne, rfl⟩ := List.mem_getLast?_eq_getLast hc
  simpa using List.rdropWhile_last_not isspace s hne

lemma exists_head?_not (s : List Char) : ∃ a z, s = a ++ z ∧ (∀ c ∈ a, isspace c) ∧
    ∀ c ∈ z.head?, isspace c = false := by
  refine ⟨s.takeWhile isspace, s.dropWhile isspace, List.takeWhile_append_dropWhile.symm,
    fun c hc => List.mem_takeWhile_imp hc, fun c hc => ?_⟩
  have h := List.head?_dropWhile_not isspace s
  rw [Option.mem_def.mp hc] at h
  simpa using h

lemma exists_trimmed (h : ∃ c ∈ s, isspace c = false) : ∃ a z b, s = a ++ (z ++ b) ∧
    (∀ c ∈ a, isspace c) ∧ (∀ c ∈ b, isspace c) ∧ z ≠ [] ∧ Trimmed z := by
  obtain ⟨a, t, rfl, ha, hhead⟩ := exists_head?_not s
  obtain ⟨z, b, rfl, hb, hlast⟩ := exists_getLast?_not t
  have hne : z ≠ [] := by
    rintro rfl
    obtain ⟨c, hc, hblank⟩ := h
    have hspace : isspace c := by
      rcases List.mem_append.mp hc with hc | hc
      · exact ha c hc
      · exact hb c hc
    rw [hspace] at hblank
    cases hblank
  refine ⟨a, z, b, rfl, ha, hb, hne, fun c hc => hhead c ?_, hlast⟩
  rwa [List.head?_append_of_ne_nil _ hne]

lemma dropWhile_append_cons {f : Char → Bool} (hc : f c = false) :
    (s ++ c :: t).dropWhile f = s.dropWhile f ++ c :: t := by
  induction s with
  | nil => simp [hc]
  | cons d s ih => cases hd : f d <;> simp [hd, ih]

lemma skipSpace_eq (hb : buf = u ++ (w ++ (s ++ nul :: v))) (hp : p = u.length)
    (hw : ∀ c ∈ w, isspace c) (hs : nul ∉ s) (hh : ∀ c ∈ s.head?, isspace c = false) :
    skipSpace buf p = some (p + w.length) := by
  have hws : nul ∉ w ++ s := by
    simp [nul_notMem_of_isspace hw, hs]
  have h : strAt buf p = some (w ++ s) := strAt_eq (u := u) (v := v) (by simp [hb]) hp hws
  simp [skipSpace, h, takeWhile_append_of_head hw hh]

lemma trimBack_blanks {lo : ℕ} (hw : ∀ c ∈ w, isspace c) (hlo : lo ≤ u.length) :
    trimBack lo (u ++ (w ++ v)) (u.length + w.length) =
      trimBack lo (u ++ (List.replicate w.length nul ++ v)) u.length := by
  induction w using List.reverseRecOn generalizing v with
  | nil => simp
  | append_singleton w c ih =>
    have hlen : u.length + (w ++ [c]).length = (u.length + w.length) + 1 := by
      simp [Nat.add_assoc]
    have hget : (u ++ (w ++ [c] ++ v))[u.length + w.length]? = some c := by
      simp
    have hset : (u ++ (w ++ [c] ++ v)).set (u.length + w.length) nul = u ++ (w ++ (nul :: v)) := by
      simp
    rw [hlen, trimBack, if_pos (by omega), hget]
    simp only [Option.bind_eq_bind, Option.bind_some, hw c (by simp), if_true, hset]
    rw [ih fun x hx => hw x (by simp [hx])]
    simp [List.replicate_succ']

lemma trimBack_stop {lo : ℕ} (hu : ∀ c ∈ u.getLast?, isspace c = false) :
    trimBack lo (u ++ v) u.length = some (u ++ v) := by
  induction u using List.reverseRecOn with
  | nil => rfl
  | append_singleton u c _ =>
    have hc : isspace c = false := hu c (by simp)
    simp [trimBack, hc]

lemma trimBack_eq {lo : ℕ} (hb : buf = u ++ (w ++ v)) (hp : p = u.length + w.length)
    (hw : ∀ c ∈ w, isspace c) (hlo : lo ≤ u.length) (hu : ∀ c ∈ u.getLast?, isspace c = false) :
    trimBack lo buf p = some (u ++ (List.replicate w.length nul ++ v)) := by
  subst hb hp
  rw [trimBack_blanks hw hlo]
  exact trimBack_stop hu

lemma trimBack_of_le {lo : ℕ} (h : p ≤ lo) : trimBack lo buf p = some buf := by
  cases p with
  | zero => rfl
  | succ p =>
    have hlo : ¬ lo ≤ p := by omega
    simp [trimBack, hlo]

lemma trimBack_within {lo : ℕ} (hlo : u.length ≤ lo) : ∃ y, y.length = w.length ∧
    trimBack lo (u ++ (w ++ v)) (u.length + w.length) = some (u ++ (y ++ v)) := by
  induction w using List.reverseRecOn generalizing v with
  | nil => exact ⟨[], rfl, by simpa using trimBack_of_le hlo⟩
  | append_singleton w c ih =>
    have hlen : u.length + (w ++ [c]).length = (u.length + w.length) + 1 := by
      simp [Nat.add_assoc]
    have hget : (u ++ (w ++ [c] ++ v))[u.length + w.length]? = some c := by
      simp
    have hset : (u ++ (w ++ [c] ++ v)).set (u.length + w.length) nul = u ++ (w ++ (nul :: v)) := by
      simp
    rw [hlen, trimBack, hget]
    simp only [Option.bind_eq_bind, Option.bind_some, hset]
    split_ifs with hle hc
    · obtain ⟨y, hy, htrim⟩ := ih (v := nul :: v)
      exact ⟨y ++ [nul], by simp [hy], by simpa using htrim⟩
    · exact ⟨w ++ [c], rfl, rfl⟩
    · exact ⟨w ++ [c], rfl, rfl⟩

lemma strAt_takeWhile : strAt (u ++ (s ++ nul :: v)) u.length = some (s.takeWhile (· != nul)) := by
  by_cases hs : nul ∈ s
  · obtain ⟨a, b, rfl, ha⟩ := List.eq_append_cons_of_mem hs
    rw [takeWhile_ne_append ha]
    exact strAt_eq (v := b ++ nul :: v) (by simp) rfl ha
  · rw [List.takeWhile_eq_self_iff.mpr (all_ne_of_notMem hs)]
    exact strAt_eq rfl rfl hs

section Tokens
variable {delim : Char} {ds t u w x : List Char}

lemma takeWhile_delims (hds : ∀ c ∈ ds, c = delim) (ht : t.head? ≠ some delim) :
    (ds ++ t).takeWhile (· == delim) = ds := by
  induction ds with
  | nil =>
    cases t with
    | nil => rfl
    | cons c t => simpa using ht
  | cons c ds ih =>
    have hc := hds c (by simp)
    simp [hc, ih fun e he => hds e (by simp [he])]

lemma dropWhile_delims (hds : ∀ c ∈ ds, c = delim) (ht : t.head? ≠ some delim) :
    (ds ++ t).dropWhile (· == delim) = t := by
  have h := List.takeWhile_append_dropWhile (p := (· == delim)) (l := ds ++ t)
  rw [takeWhile_delims hds ht] at h
  exact List.append_cancel_left h

lemma head_ne_of_notMem (ht : delim ∉ t) (hne : t ≠ []) (r : List Char) :
    (t ++ r).head? ≠ some delim := by
  rw [List.head?_append_of_ne_nil _ hne]
  exact fun h => ht (List.mem_of_mem_head? h)

lemma strtok_cut (hds : ∀ c ∈ ds, c = delim) (hdelim : delim ≠ nul) (ht : delim ∉ t) (hne : t ≠ [])
    (htn : nul ∉ t) (hw : nul ∉ w) :
    strtok delim (u ++ (ds ++ (t ++ delim :: (w ++ nul :: x)))) u.length =
      some (u ++ (ds ++ (t ++ nul :: (w ++ nul :: x))), u.length + ds.length + t.length + 1,
        some (u.length + ds.length)) := by
  have hdsn : nul ∉ ds := fun h => hdelim (hds nul h).symm
  have hstr : strAt (u ++ (ds ++ (t ++ delim :: (w ++ nul :: x)))) u.length =
      some (ds ++ (t ++ delim :: w)) :=
    strAt_eq (v := x) (by simp) rfl (by simp [hdsn, htn, hw, hdelim.symm])
  have hhead := head_ne_of_notMem ht hne (delim :: w)
  have hidx : (t ++ delim :: w).idxOf delim = t.length := by
    rw [List.idxOf_append_of_notMem ht, List.idxOf_cons_self, Nat.add_zero]
  have hset : (u ++ (ds ++ (t ++ delim :: (w ++ nul :: x)))).set
      (u.length + ds.length + t.length) nul = u ++ (ds ++ (t ++ nul :: (w ++ nul :: x))) := by
    rw [List.set_append_right _ _ (by omega), List.set_append_right _ _ (by omega),
      List.set_append_right _ _ (by omega)]
    have hzero : u.length + ds.length + t.length - u.length - ds.length - t.length = 0 := by omega
    rw [hzero, List.set_cons_zero]
  simp only [strtok, hstr, Option.bind_eq_bind, Option.bind_some, takeWhile_delims hds hhead,
    dropWhile_delims hds hhead, hidx, hset]
  simp

lemma strtok_last (hds : ∀ c ∈ ds, c = delim) (hdelim : delim ≠ nul) (ht : delim ∉ t) (hne : t ≠ [])
    (htn : nul ∉ t) :
    strtok delim (u ++ (ds ++ (t ++ nul :: x))) u.length =
      some (u ++ (ds ++ (t ++ nul :: x)), u.length + ds.length + t.length,
        some (u.length + ds.length)) := by
  have hdsn : nul ∉ ds := fun h => hdelim (hds nul h).symm
  have hstr : strAt (u ++ (ds ++ (t ++ nul :: x))) u.length = some (ds ++ t) :=
    strAt_eq (v := x) (by simp) rfl (by simp [hdsn, htn])
  have hhead : t.head? ≠ some delim := fun h => ht (List.mem_of_mem_head? h)
  simp only [strtok, hstr, Option.bind_eq_bind, Option.bind_some, takeWhile_delims hds hhead,
    dropWhile_delims hds hhead, if_neg hne, if_neg ht]

lemma strtok_end : strtok delim (u ++ nul :: x) u.length = some (u ++ nul :: x, u.length, none) := by
  have hstr : strAt (u ++ nul :: x) u.length = some [] :=
    strAt_eq (v := x) (List.nil_append _ ▸ rfl) rfl List.not_mem_nil
  simp only [strtok, hstr, Option.bind_eq_bind, Option.bind_some, List.takeWhile_nil,
    List.dropWhile_nil, List.length_nil, Nat.add_zero, if_true]

end Tokens

lemma strstr_isSome {word : List Char} : (strstr word s).isSome ↔ word <:+: s := by
  induction s with
  | nil => by_cases h : word = [] <;> simp [strstr, h]
  | cons c s ih =>
    rw [List.infix_cons_iff, ← ih]
    by_cases h : word <+: c :: s <;> simp [strstr, h]

lemma strstr_eq_none {word : List Char} (h : ¬ word <:+: s) : strstr word s = none := by
  rwa [← strstr_isSome, Option.not_isSome_iff_eq_none] at h

lemma exists_strstr {word : List Char} (h : word <:+: s) : ∃ a b, s = a ++ (word ++ b) ∧
    strstr word s = some a.length ∧ ∀ a' b', s = a' ++ (word ++ b') → a.length ≤ a'.length := by
  induction s with
  | nil =>
    obtain rfl := List.infix_nil.mp h
    exact ⟨[], [], rfl, rfl, fun _ _ _ => Nat.zero_le _⟩
  | cons c s ih =>
    by_cases hp : word <+: c :: s
    · obtain ⟨b, hb⟩ := hp
      refine ⟨[], b, hb.symm, ?_, fun _ _ _ => Nat.zero_le _⟩
      simp [strstr, show word <+: c :: s from ⟨b, hb⟩]
    · obtain ⟨a, b, hab, hpos, hmin⟩ := ih ((List.infix_cons_iff.mp h).resolve_left hp)
      refine ⟨c :: a, b, by simp [hab], by simp [strstr, hp, hpos], fun a' b' hab' => ?_⟩
      cases a' with
      | nil => exact absurd ⟨b', hab'.symm⟩ hp
      | cons d a' =>
        rw [List.cons_append, List.cons.injEq] at hab'
        exact Nat.succ_le_succ (hmin a' b' hab'.2)

lemma prefix_append_cons {word : List Char} (hc : c ∉ word) : word <+: s ++ c :: t ↔ word <+: s := by
  induction s generalizing word with
  | nil =>
    cases word with
    | nil => simp
    | cons d word =>
      have hne : d ≠ c := fun h => hc (by simp [h])
      simp [List.cons_prefix_cons, hne]
  | cons a s ih =>
    cases word with
    | nil => simp
    | cons d word => simp [List.cons_prefix_cons, ih (List.not_mem_of_not_mem_cons hc)]

lemma infix_append_cons {word : List Char} (hc : c ∉ word) :
    word <:+: s ++ c :: t ↔ word <:+: s ∨ word <:+: t := by
  induction s with
  | nil =>
    have hpre : word <+: c :: t ↔ word = [] := by
      rw [← List.nil_append (c :: t), prefix_append_cons hc, List.prefix_nil]
    rw [List.nil_append, List.infix_cons_iff, hpre, List.infix_nil]
  | cons a s ih =>
    rw [List.cons_append, List.infix_cons_iff, ih, List.infix_cons_iff, ← List.cons_append,
      prefix_append_cons hc, or_assoc]

lemma infix_append_disjoint {word d : List Char} (hword : word ≠ []) (hd : ∀ c ∈ d, c ∉ word) :
    word <:+: d ++ t ↔ word <:+: t := by
  induction d with
  | nil => simp
  | cons c d ih =>
    have hsep := infix_append_cons (s := []) (t := d ++ t) (hd c (by simp))
    rw [List.nil_append, List.infix_nil] at hsep
    rw [List.cons_append, hsep, ih fun x hx => hd x (by simp [hx])]
    simp [hword]

lemma infix_append_disjoint_right {word d : List Char} (hword : word ≠ []) (hd : ∀ c ∈ d, c ∉ word) :
    word <:+: s ++ d ↔ word <:+: s := by
  cases d with
  | nil => simp
  | cons c d =>
    have hrest := infix_append_disjoint (t := []) hword fun x hx => hd x (List.mem_cons_of_mem c hx)
    rw [List.append_nil, List.infix_nil] at hrest
    rw [infix_append_cons (hd c (by simp)), hrest]
    simp [hword]

end Strings

section Lines
variable {l f : List Char} {n : ℕ}

@[elab_as_elim]
lemma lines_induction {motive : List Char → Prop} (file : List Char) (nil : motive [])
    (last : ∀ l, l ≠ [] → '\n' ∉ l → motive l)
    (line : ∀ l f, '\n' ∉ l → motive f → motive (l ++ '\n' :: f)) : motive file := by
  by_cases h : '\n' ∈ file
  · obtain ⟨l, f, heq, hl⟩ := List.eq_append_cons_of_mem h
    have : f.length < file.length := by
      rw [heq]
      simp
      omega
    rw [heq]
    exact line l f hl (lines_induction f nil last line)
  · by_cases hnil : file = []
    · exact hnil ▸ nil
    · exact last file hnil h
termination_by file.length

lemma cutLines_line (hl : '\n' ∉ l) : cutLines (l ++ '\n' :: f) = l :: cutLines f := by
  induction l with
  | nil => simp [cutLines]
  | cons c l ih =>
    simp only [List.mem_cons, not_or] at hl
    simp [cutLines, Ne.symm hl.1, ih hl.2]

lemma cutLines_last (hne : l ≠ []) (hl : '\n' ∉ l) : cutLines l = [l] := by
  induction l with
  | nil => exact absurd rfl hne
  | cons c l ih =>
    simp only [List.mem_cons, not_or] at hl
    cases l with
    | nil => simp [cutLines, Ne.symm hl.1]
    | cons d l => rw [cutLines, if_neg (Ne.symm hl.1), ih (by simp) hl.2]

lemma newline_notMem_cutLines (file : List Char) : ∀ l ∈ cutLines file, '\n' ∉ l := by
  induction file using lines_induction with
  | nil => simp [cutLines]
  | last l hne hl => simpa [cutLines_last hne hl] using hl
  | line l f hl ih =>
    rw [cutLines_line hl]
    simpa using ⟨hl, ih⟩

lemma cutLines_flatMap {ls : List (List Char)} (hls : ∀ l ∈ ls, '\n' ∉ l) :
    cutLines (ls.flatMap (· ++ ['\n'])) = ls := by
  induction ls with
  | nil => rfl
  | cons l ls ih =>
    have hl := hls l (by simp)
    have hcons : (l :: ls).flatMap (· ++ ['\n']) = l ++ '\n' :: ls.flatMap (· ++ ['\n']) := by
      simp
    rw [hcons, cutLines_line hl, ih fun m hm => hls m (by simp [hm])]

lemma cutLines_intercalate {ls : List (List Char)} (hls : ∀ l ∈ ls, '\n' ∉ l) :
    cutLines (['\n'].intercalate ls) = if ls.getLast? = some [] then ls.dropLast else ls := by
  induction ls with
  | nil => rfl
  | cons l ls ih =>
    have hl := hls l (by simp)
    cases ls with
    | nil =>
      by_cases hnil : l = []
      · simp [hnil, cutLines]
      · simp [hnil, cutLines_last hnil hl]
    | cons m ls =>
      rw [List.intercalate_cons_cons, List.append_assoc, List.singleton_append, cutLines_line hl,
        ih fun n hn => hls n (by simp [hn]), List.getLast?_cons_cons, List.dropLast_cons_cons]
      split_ifs <;> rfl

lemma fgets_line (hl : '\n' ∉ l) (hn : l.length < n) :
    fgets n (l ++ '\n' :: f) = (l ++ ['\n'], f) := by
  induction l generalizing n with
  | nil =>
    obtain ⟨m, rfl⟩ := Nat.exists_eq_succ_of_ne_zero (Nat.ne_of_gt hn)
    simp [fgets]
  | cons c l ih =>
    simp only [List.mem_cons, not_or] at hl
    obtain ⟨m, rfl⟩ := Nat.exists_eq_succ_of_ne_zero (Nat.ne_of_gt (Nat.zero_lt_of_lt hn))
    have hm : l.length < m := Nat.lt_of_succ_lt_succ hn
    simp [fgets, Ne.symm hl.1, ih hl.2 hm]

lemma fgets_last (hl : '\n' ∉ l) (hn : l.length ≤ n) : fgets n l = (l, []) := by
  induction l generalizing n with
  | nil => cases n <;> rfl
  | cons c l ih =>
    simp only [List.mem_cons, not_or] at hl
    obtain ⟨m, rfl⟩ : ∃ m, n = m + 1 := ⟨n - 1, by simp only [List.length_cons] at hn; omega⟩
    have hm : l.length ≤ m := Nat.le_of_succ_le_succ hn
    simp [fgets, Ne.symm hl.1, ih hl.2 hm]

lemma fgets_long (hl : '\n' ∉ l) (hn : n ≤ l.length) : fgets n (l ++ f) = (l.take n, l.drop n ++ f) := by
  induction n generalizing l with
  | zero => simp [fgets]
  | succ n ih =>
    cases l with
    | nil => simp at hn
    | cons c l =>
      simp only [List.mem_cons, not_or] at hl
      have hm : n ≤ l.length := Nat.le_of_succ_le_succ hn
      simp [fgets, Ne.symm hl.1, ih hl.2 hm]

lemma fgets_length (n : ℕ) (f : List Char) :
    (fgets n f).1 ++ (fgets n f).2 = f ∧ (fgets n f).1.length ≤ n := by
  induction f generalizing n with
  | nil => cases n <;> simp [fgets]
  | cons c f ih =>
    cases n with
    | zero => simp [fgets]
    | succ n => by_cases hc : c = '\n' <;> simp [fgets, hc, ih n]

lemma fgets_ne_nil (hn : 0 < n) (c : Char) (f : List Char) : (fgets n (c :: f)).1 ≠ [] := by
  obtain ⟨n, rfl⟩ := Nat.exists_eq_succ_of_ne_zero (Nat.ne_of_gt hn)
  by_cases hc : c = '\n' <;> simp [fgets, hc]

lemma fgets_rest_length (hn : 0 < n) (c : Char) (f : List Char) :
    (fgets n (c :: f)).2.length ≤ f.length := by
  have hlen := congrArg List.length (fgets_length n (c :: f)).1
  have hpos := List.length_pos_iff.mpr (fgets_ne_nil hn c f)
  simp only [List.length_append, List.length_cons] at hlen
  omega

lemma fgetsLoop_congr (hn : 0 < n) {k m : ℕ} (hk : f.length ≤ k) (hm : f.length ≤ m) :
    fgetsLoop n k f = fgetsLoop n m f := by
  induction k generalizing m f with
  | zero =>
    obtain rfl := List.length_eq_zero_iff.mp (Nat.le_zero.mp hk)
    cases m <;> rfl
  | succ k ih =>
    cases f with
    | nil => cases m <;> rfl
    | cons c f =>
      simp only [List.length_cons] at hk hm
      obtain ⟨m, rfl⟩ : ∃ j, m = j + 1 := ⟨m - 1, by omega⟩
      have hrest := fgets_rest_length hn c f
      have htail : fgetsLoop n k (fgets n (c :: f)).2 = fgetsLoop n m (fgets n (c :: f)).2 :=
        ih (by omega) (by omega)
      rw [fgetsLoop, fgetsLoop, htail]

lemma readLines_eq (hn : 0 < n) (hf : f ≠ []) :
    readLines n f = (fgets n f).1 :: readLines n (fgets n f).2 := by
  cases f with
  | nil => exact absurd rfl hf
  | cons c f =>
    rw [readLines, List.length_cons, fgetsLoop]
    exact congrArg _ (fgetsLoop_congr hn (fgets_rest_length hn c f) le_rfl)

lemma readLines_line (hl : '\n' ∉ l) (hn : l.length < n) :
    readLines n (l ++ '\n' :: f) = (l ++ ['\n']) :: readLines n f := by
  rw [readLines_eq (Nat.zero_lt_of_lt hn) (by simp), fgets_line hl hn]

lemma readLines_last (hne : l ≠ []) (hl : '\n' ∉ l) (hn : l.length ≤ n) : readLines n l = [l] := by
  have hpos := List.length_pos_iff.mpr hne
  rw [readLines_eq (by omega) hne, fgets_last hl hn]
  rfl

lemma readLines_long (hl : '\n' ∉ l) (hpos : 0 < n) (hn : n ≤ l.length) :
    readLines n (l ++ f) = l.take n :: readLines n (l.drop n ++ f) := by
  have hne : l ++ f ≠ [] := by
    intro h
    rw [(List.append_eq_nil_iff.mp h).1, List.length_nil] at hn
    omega
  rw [readLines_eq hpos hne, fgets_long hl hn]

lemma mem_readLines (hpos : 0 < n) {got : List Char} (h : got ∈ readLines n f) :
    got.length ≤ n ∧ got ⊆ f := by
  induction hk : f.length using Nat.strong_induction_on generalizing f with
  | _ k ih =>
    cases f with
    | nil => simp [readLines, fgetsLoop] at h
    | cons c f =>
      have hget := fgets_length n (c :: f)
      have hrest := fgets_rest_length hpos c f
      rw [readLines_eq hpos (by simp), List.mem_cons] at h
      rcases h with rfl | h
      · refine ⟨hget.2, ?_⟩
        conv_rhs => rw [← hget.1]
        exact List.subset_append_left _ _
      · rw [List.length_cons] at hk
        obtain ⟨hlen, hsub⟩ := ih _ (by omega) h rfl
        refine ⟨hlen, ?_⟩
        conv_rhs => rw [← hget.1]
        exact List.subset_append_of_subset_right _ hsub

section Pieces
variable {β : Type} {g : List Char → List β}

lemma flatMap_readLines_line (hg : ∀ l, g (l ++ ['\n']) = g l) (hnil : g [] = []) (hpos : 0 < n)
    (hl : '\n' ∉ l) : (readLines n (l ++ '\n' :: f)).flatMap g =
      (readLines n l).flatMap g ++ (readLines n f).flatMap g := by
  induction hk : l.length using Nat.strong_induction_on generalizing l with
  | _ k ih =>
    by_cases hn : l.length < n
    · rw [readLines_line hl hn, List.flatMap_cons, hg]
      by_cases hne : l = []
      · subst hne
        rw [hnil]
        rfl
      · rw [readLines_last hne hl hn.le]
        simp
    · have hlen : n ≤ l.length := Nat.le_of_not_lt hn
      have hdrop : '\n' ∉ l.drop n := fun h => hl ((List.drop_suffix _ _).subset h)
      have hnext := ih (l.drop n).length (by simp; omega) hdrop rfl
      have hself := readLines_long (f := []) hl hpos hlen
      rw [List.append_nil, List.append_nil] at hself
      rw [readLines_long hl hpos hlen, hself, List.flatMap_cons, List.flatMap_cons, hnext,
        List.append_assoc]

lemma flatMap_readLines (hg : ∀ l, g (l ++ ['\n']) = g l) (hnil : g [] = []) (hpos : 0 < n)
    (text : List Char) : (readLines n text).flatMap g =
      (cutLines text).flatMap fun l => (readLines n l).flatMap g := by
  induction text using lines_induction with
  | nil => rfl
  | last l hne hl => simp [cutLines_last hne hl]
  | line l f hl ih =>
    rw [flatMap_readLines_line hg hnil hpos hl, ih, cutLines_line hl, List.flatMap_cons]

end Pieces

end Lines

section Separated
variable {c d : Char} {s p q : List Char} {ps : List (List Char)}

def joinPieces (c : Char) : List (List Char) → List Char := [c].intercalate

@[simp]
lemma joinPieces_singleton : joinPieces c [p] = p := by
  simp [joinPieces]

@[simp]
lemma joinPieces_cons_cons : joinPieces c (p :: q :: ps) = p ++ c :: joinPieces c (q :: ps) := by
  simp [joinPieces]

lemma joinPieces_splitOn (c : Char) (s : List Char) : joinPieces c (s.splitOn c) = s :=
  List.intercalate_splitOn c

lemma length_le_joinPieces (p : List Char) (ps : List (List Char)) :
    ps.length ≤ (joinPieces c (p :: ps)).length := by
  induction ps generalizing p with
  | nil => simp
  | cons q ps ih =>
    have := ih q
    simp only [joinPieces_cons_cons, List.length_append, List.length_cons]
    omega

lemma notMem_joinPieces (hne : d ≠ c) (hps : ∀ q ∈ ps, d ∉ q) : d ∉ joinPieces c ps := by
  induction ps with
  | nil => simp [joinPieces]
  | cons p ps ih =>
    have hrest := ih fun q hq => hps q (List.mem_cons_of_mem p hq)
    cases ps with
    | nil => simp [hps p List.mem_cons_self]
    | cons q ps =>
      rw [joinPieces_cons_cons, List.mem_append, List.mem_cons, not_or, not_or]
      exact ⟨hps p List.mem_cons_self, hne, hrest⟩

lemma notMem_of_mem_splitOn (hd : d ∉ s) : ∀ q ∈ s.splitOn c, c ∉ q ∧ d ∉ q := by
  induction s with
  | nil => simp [List.splitOn]
  | cons x s ih =>
    have hih := ih (List.not_mem_of_not_mem_cons hd)
    rw [List.splitOn, List.splitOnP_cons_eq_if_modifyHead]
    rw [List.splitOn] at hih
    by_cases hx : x = c
    · simpa [hx] using hih
    · obtain ⟨p, ps, hps⟩ := List.exists_cons_of_ne_nil (List.splitOnP_ne_nil (· == c) s)
      have hdx : d ≠ x := fun h => hd (by simp [h])
      rw [hps] at hih ⊢
      simp only [List.forall_mem_cons] at hih
      simpa [hx, hdx, Ne.symm hx] using hih

lemma length_splitOn (c : Char) (s : List Char) : (s.splitOn c).length = s.count c + 1 := by
  induction s with
  | nil => simp [List.splitOn]
  | cons x s ih =>
    rw [List.splitOn] at ih ⊢
    rw [List.splitOnP_cons_eq_if_modifyHead]
    by_cases hx : x = c
    · simp [hx, ih]
    · simp [hx, ih]

end Separated

/-- The text and its terminator from the position `p` on, if the array has the room. -/
def strcpy (buf : List Char) (p : ℕ) (s : List Char) : Option (List Char) :=
  if p + s.length < buf.length then
    some (buf.take p ++ (s ++ nul :: buf.drop (p + s.length + 1)))
  else none

/-- `strcat`, and `strncat` for the first characters of a string. -/
def strcat (buf s : List Char) : Option (List Char) :=
  (strAt buf 0).bind fun t => strcpy buf t.length s

section Writing
variable {buf u v s t : List Char}

lemma strcpy_eq (h : s.length < v.length) :
    strcpy (u ++ v) u.length s = some (u ++ (s ++ nul :: v.drop (s.length + 1))) := by
  have hroom : u.length + s.length < (u ++ v).length := by
    rw [List.length_append]
    omega
  rw [strcpy, if_pos hroom, List.take_left, Nat.add_assoc, List.drop_length_add_append]

def HasText (buf t : List Char) : Prop := nul ∉ t ∧ ∃ v, buf = t ++ nul :: v

lemma HasText.strAt (h : HasText buf t) : strAt buf 0 = some t := by
  obtain ⟨ht, v, hv⟩ := h
  exact strAt_eq (u := []) hv rfl ht

/-- The result is the array with `e` behind the text `t`, or none for want of room. -/
def Appends (result : Option (List Char)) (size : ℕ) (t e : List Char) : Prop :=
  if t.length + e.length < size then ∃ out, result = some out ∧ out.length = size ∧ HasText out (t ++ e)
  else result = none

lemma appends_strcat (h : HasText buf t) (hs : nul ∉ s) : Appends (strcat buf s) buf.length t s := by
  rw [Appends, strcat, h.strAt, Option.bind_some]
  obtain ⟨ht, v, rfl⟩ := h
  split
  · rename_i hroom
    have hlt : s.length < (nul :: v).length := by
      rw [List.length_append] at hroom
      omega
    refine ⟨_, strcpy_eq hlt, ?_, ?_, (nul :: v).drop (s.length + 1), ?_⟩
    · simp at hlt ⊢
      omega
    · rw [List.mem_append, not_or]
      exact ⟨ht, hs⟩
    · rw [List.append_assoc]
  · rename_i hroom
    rw [strcpy, if_neg hroom]

lemma appends_nil (h : HasText buf t) : Appends (some buf) buf.length t [] := by
  rw [Appends, List.length_nil, Nat.add_zero, List.append_nil]
  obtain ⟨ht, v, rfl⟩ := h
  rw [if_pos (by simp)]
  exact ⟨_, rfl, rfl, ht, v, rfl⟩

lemma Appends.text {result : Option (List Char)} {size : ℕ} {e : List Char} (h : Appends result size t e) :
    (result.bind fun out => CString.strAt out 0) =
      if t.length + e.length < size then some (t ++ e) else none := by
  rw [Appends] at h
  split
  · rename_i hroom
    rw [if_pos hroom] at h
    obtain ⟨out, rfl, -, hout⟩ := h
    exact hout.strAt
  · rename_i hroom
    rw [if_neg hroom] at h
    rw [h, Option.bind_none]

lemma Appends.bind {result : Option (List Char)} {size : ℕ} {a b : List Char}
    {next : List Char → Option (List Char)} (ha : Appends result size t a)
    (hnext : ∀ out, out.length = size → HasText out (t ++ a) → Appends (next out) size (t ++ a) b) :
    Appends (result.bind next) size t (a ++ b) := by
  rw [Appends] at ha
  split at ha
  · obtain ⟨out, rfl, hlen, htext⟩ := ha
    have hb := hnext out hlen htext
    rwa [Appends, List.length_append, Nat.add_assoc, ← List.length_append, List.append_assoc] at hb
  · rename_i hroom
    rw [ha, Option.bind_none, Appends, if_neg]
    rw [List.length_append]
    omega

end Writing

end LdapTgen.CString
