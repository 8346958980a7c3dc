import LdapTgen.AttrsBuild

/-! The values of one attribute: `attrsValues_build` counts the values between the separators in a first
pass over the text, and cuts them out of it in a second one. The second pass ends a value only by the
blanks that it erases. -/
namespace LdapTgen.AttrValues
open CString AttrsBuild

def attrValueSeparator : Char := '&'

/-- The first loop, for at most `fuel` turns. -/
def countLoop : ℕ → List Char → ℕ → ℕ
  | 0, _, valueNb => valueNb
  | fuel + 1, attrsValue, valueNb =>
      match attrsValue.dropWhile (· != attrValueSeparator) with
      | [] => valueNb
      | found => countLoop fuel (found.dropWhile (· == attrValueSeparator)) (valueNb + 1)

def countValues (attrValue : List Char) : ℕ := countLoop (attrValue.length + 1) attrValue 1

def isSkipped (c : Char) : Bool := isspace c || c == attrValueSeparator

def valueStart (buf : List Char) (p : ℕ) : Option ℕ :=
  (strAt buf p).map fun s => p + (s.takeWhile isSkipped).length

def valueEnd (buf : List Char) (p : ℕ) : Option ℕ :=
  (strAt buf p).map fun s => p + (s.takeWhile (· != attrValueSeparator)).length

/-- `while (isspace(*--p)) *p = 0`; there is nothing to read before the text. -/
def eraseBack : List Char → ℕ → Option (List Char)
  | _, 0 => none
  | buf, p + 1 => do
      let c ← buf[p]?
      if isspace c then eraseBack (buf.set p nul) p else some buf

/-- One turn of the second loop: the buffer, the position of the next value, and the value. -/
def valuesTurn (buf : List Char) (attrsValue : ℕ) : Option (List Char × ℕ × List Char) := do
  let strVal ← valueStart buf attrsValue
  let next ← valueEnd buf strVal
  let buf ← eraseBack buf next
  some (buf, next, ← strAt buf strVal)

def valuesLoop : ℕ → List Char → ℕ → Option (List Char × List (List Char))
  | 0, buf, _ => some (buf, [])
  | n + 1, buf, attrsValue => do
      if (← buf[attrsValue]?) = nul then some (buf, [])
      else
        let (buf, next, value) ← valuesTurn buf attrsValue
        let (buf, values) ← valuesLoop n buf next
        some (buf, value :: values)

/-- An entry of the array, which comes from `malloc`. -/
inductive Entry
  | uninitialised
  | null
  | value (text : List Char)
  deriving DecidableEq, Repr

structure Values where
  buf : List Char
  valueNb : ℕ
  written : List (List Char)
  deriving DecidableEq, Repr

def Values.entries (r : Values) : List Entry :=
  r.written.map Entry.value ++ List.replicate (r.valueNb - r.written.length) Entry.uninitialised ++
    [Entry.null]

def buildValues (attrValue : List Char) : Option Values :=
  (valuesLoop (countValues attrValue) (attrValue ++ [nul]) 0).map fun r =>
    ⟨r.1, countValues attrValue, r.2⟩

def attrsValuesBuild : Option (List Char) → Option (Option Values)
  | none => some none
  | some attrValue => (buildValues attrValue).map some

section Count
variable {a rest : List Char}

lemma countLoop_last (ha : attrValueSeparator ∉ a) (fuel valueNb : ℕ) :
    countLoop fuel a valueNb = valueNb := by
  have hnone : a.dropWhile (· != attrValueSeparator) = [] :=
    List.dropWhile_eq_nil_iff.mpr (all_ne_of_notMem ha)
  cases fuel with
  | zero => rfl
  | succ fuel => simp [countLoop, hnone]

lemma countLoop_separator (ha : attrValueSeparator ∉ a) (fuel valueNb : ℕ) :
    countLoop (fuel + 1) (a ++ attrValueSeparator :: rest) valueNb =
      countLoop fuel (rest.dropWhile (· == attrValueSeparator)) (valueNb + 1) := by
  have hfound : (a ++ attrValueSeparator :: rest).dropWhile (· != attrValueSeparator) =
      attrValueSeparator :: rest :=
    dropWhile_append_of_head (all_ne_of_notMem ha) (by simp)
  simp [countLoop, hfound]

lemma dropWhile_separator (hne : a ≠ []) (ha : attrValueSeparator ∉ a) :
    (a ++ rest).dropWhile (· == attrValueSeparator) = a ++ rest := by
  obtain ⟨c, a, rfl⟩ := List.exists_cons_of_ne_nil hne
  have hc : c ≠ attrValueSeparator := fun h => ha (by simp [h])
  simp [hc]

end Count

section Turn
variable {u v w x z b r : List Char}

lemma eraseBack_blanks (hb : ∀ c ∈ b, isspace c) :
    eraseBack (u ++ (b ++ v)) (u.length + b.length) =
      eraseBack (u ++ (List.replicate b.length nul ++ v)) u.length := by
  induction b using List.reverseRecOn generalizing v with
  | nil => simp
  | append_singleton b c ih =>
    have hlen : u.length + (b ++ [c]).length = (u.length + b.length) + 1 := by
      simp [Nat.add_assoc]
    have hget : (u ++ (b ++ [c] ++ v))[u.length + b.length]? = some c := by
      simp
    have hset : (u ++ (b ++ [c] ++ v)).set (u.length + b.length) nul = u ++ (b ++ (nul :: v)) := by
      simp
    rw [hlen, eraseBack, hget]
    simp only [Option.bind_eq_bind, Option.bind_some, hb c (by simp), if_true, hset]
    rw [ih fun d hd => hb d (by simp [hd])]
    simp [List.replicate_succ']

lemma eraseBack_stop (hne : u ≠ []) (hlast : ∀ c ∈ u.getLast?, isspace c = false) :
    eraseBack (u ++ v) u.length = some (u ++ v) := by
  obtain ⟨a, c, rfl⟩ := (List.eq_nil_or_concat u).resolve_left hne
  have hc : isspace c = false := hlast c (by simp)
  simp [eraseBack, hc]

lemma eraseBack_eq (hne : u ≠ []) (hlast : ∀ c ∈ u.getLast?, isspace c = false)
    (hb : ∀ c ∈ b, isspace c) : eraseBack (u ++ (b ++ v)) (u.length + b.length) =
      some (u ++ (List.replicate b.length nul ++ v)) := by
  rw [eraseBack_blanks hb]
  exact eraseBack_stop hne hlast

lemma eraseBack_start (hb : ∀ c ∈ b, isspace c) : eraseBack (b ++ v) b.length = none := by
  have h := eraseBack_blanks (u := []) (v := v) hb
  rw [List.length_nil, Nat.zero_add] at h
  exact h

lemma isSkipped_nul : isSkipped nul = false := by decide

lemma isSkipped_of_isspace {c : Char} (h : isspace c) : isSkipped c := by
  simp [isSkipped, h]

lemma nul_notMem_of_isSkipped (hw : ∀ c ∈ w, isSkipped c) : nul ∉ w := by
  intro h
  have := hw nul h
  rw [isSkipped_nul] at this
  cases this

lemma valueStart_eq (hw : ∀ c ∈ w, isSkipped c) (hnul : nul ∉ z)
    (hhead : ∀ c ∈ z.head?, isSkipped c = false) :
    valueStart (u ++ (w ++ (z ++ nul :: x))) u.length = some (u.length + w.length) := by
  have hstr : strAt (u ++ (w ++ (z ++ nul :: x))) u.length = some (w ++ z) :=
    strAt_eq (v := x) (by simp) rfl (by simp [nul_notMem_of_isSkipped hw, hnul])
  rw [valueStart, hstr, Option.map_some, takeWhile_append_of_head hw hhead]

lemma valueEnd_eq (hz : attrValueSeparator ∉ z) (hr : ∀ c ∈ r.head?, c = attrValueSeparator)
    (hnul : nul ∉ z ++ r) :
    valueEnd (u ++ (z ++ (r ++ nul :: x))) u.length = some (u.length + z.length) := by
  have hstr : strAt (u ++ (z ++ (r ++ nul :: x))) u.length = some (z ++ r) :=
    strAt_eq (v := x) (by simp) rfl hnul
  have hstop : ∀ c ∈ r.head?, (c != attrValueSeparator) = false := fun c hc => by simp [hr c hc]
  rw [valueEnd, hstr, Option.map_some, takeWhile_append_of_head (all_ne_of_notMem hz) hstop]

lemma separator_notMem_blanks (hb : ∀ c ∈ b, isspace c) : attrValueSeparator ∉ b :=
  fun h => absurd (hb _ h) (by decide)

lemma valuesTurn_value (hw : ∀ c ∈ w, isSkipped c) (hz : z ≠ [])
    (hhead : ∀ c ∈ z.head?, isSkipped c = false) (hlast : ∀ c ∈ z.getLast?, isspace c = false)
    (hsep : attrValueSeparator ∉ z) (hb : ∀ c ∈ b, isspace c)
    (hr : ∀ c ∈ r.head?, c = attrValueSeparator) (hzn : nul ∉ z) (hrn : nul ∉ r) :
    valuesTurn (u ++ (w ++ (z ++ (b ++ (r ++ nul :: x))))) u.length =
      some (u ++ (w ++ (z ++ (List.replicate b.length nul ++ (r ++ nul :: x)))),
        u.length + w.length + z.length + b.length, if b = [] then z ++ r else z) := by
  have hbn := nul_notMem_of_isspace hb
  have hstart : valueStart (u ++ (w ++ (z ++ (b ++ (r ++ nul :: x))))) u.length =
      some (u.length + w.length) := by
    have h := valueStart_eq (u := u) (x := x) (z := z ++ (b ++ r)) hw (by simp [hzn, hbn, hrn])
      (by rw [List.head?_append_of_ne_nil _ hz]; exact hhead)
    simpa using h
  have hend : valueEnd (u ++ (w ++ (z ++ (b ++ (r ++ nul :: x))))) (u.length + w.length) =
      some (u.length + w.length + z.length + b.length) := by
    have h := valueEnd_eq (u := u ++ w) (x := x) (z := z ++ b)
      (by simp [hsep, separator_notMem_blanks hb]) hr (by simp [hzn, hbn, hrn])
    simpa [Nat.add_assoc] using h
  have herase : eraseBack (u ++ (w ++ (z ++ (b ++ (r ++ nul :: x)))))
      (u.length + w.length + z.length + b.length) =
        some (u ++ (w ++ (z ++ (List.replicate b.length nul ++ (r ++ nul :: x))))) := by
    have h := eraseBack_eq (u := u ++ (w ++ z)) (v := r ++ nul :: x) (by simp [hz])
      (by rw [← List.append_assoc, List.getLast?_append_of_ne_nil _ hz]; exact hlast) hb
    simpa [Nat.add_assoc] using h
  have hvalue : strAt (u ++ (w ++ (z ++ (List.replicate b.length nul ++ (r ++ nul :: x)))))
      (u.length + w.length) = some (if b = [] then z ++ r else z) := by
    cases b with
    | nil => exact strAt_eq (u := u ++ w) (v := x) (by simp) (by simp) (by simp [hzn, hrn])
    | cons c b =>
      rw [if_neg (List.cons_ne_nil c b)]
      exact strAt_eq (u := u ++ w) (v := List.replicate b.length nul ++ (r ++ nul :: x))
        (by simp [List.replicate_succ]) (by simp) hzn
  simp only [valuesTurn, hstart, hend, herase, hvalue, Option.bind_eq_bind, Option.bind_some]

lemma valuesLoop_end {buf : List Char} {p : ℕ} (h : buf[p]? = some nul) (n : ℕ) :
    valuesLoop n buf p = some (buf, []) := by
  cases n with
  | zero => rfl
  | succ n => simp [valuesLoop, h]

lemma valuesLoop_turn (hz : z ≠ []) (hnul : nul ∉ z) (n : ℕ) :
    valuesLoop (n + 1) (u ++ (z ++ v)) u.length =
      (valuesTurn (u ++ (z ++ v)) u.length).bind fun t =>
        (valuesLoop n t.1 t.2.1).map fun r => (r.1, t.2.2 :: r.2) := by
  obtain ⟨c, z, rfl⟩ := List.exists_cons_of_ne_nil hz
  have hc : c ≠ nul := fun h => hnul (by simp [h])
  have hget : (u ++ (c :: z ++ v))[u.length]? = some c := by simp
  rw [valuesLoop, hget]
  simp only [Option.bind_eq_bind, Option.bind_some, if_neg hc, Option.map_eq_bind]
  rfl

lemma valuesLoop_value (hw : ∀ c ∈ w, isSkipped c) (hz : z ≠ [])
    (hhead : ∀ c ∈ z.head?, isSkipped c = false) (hlast : ∀ c ∈ z.getLast?, isspace c = false)
    (hsep : attrValueSeparator ∉ z) (hb : ∀ c ∈ b, isspace c)
    (hr : ∀ c ∈ r.head?, c = attrValueSeparator) (hzn : nul ∉ z) (hrn : nul ∉ r) (n : ℕ) :
    valuesLoop (n + 1) (u ++ (w ++ (z ++ (b ++ (r ++ nul :: x))))) u.length =
      (valuesLoop n (u ++ (w ++ (z ++ (List.replicate b.length nul ++ (r ++ nul :: x)))))
        (u.length + w.length + z.length + b.length)).map
          fun t => (t.1, (if b = [] then z ++ r else z) :: t.2) := by
  have hloop := valuesLoop_turn (u := u) (v := b ++ (r ++ nul :: x)) (z := w ++ z) (by simp [hz])
    (by simp [nul_notMem_of_isSkipped hw, hzn]) n
  rw [List.append_assoc] at hloop
  rw [hloop, valuesTurn_value hw hz hhead hlast hsep hb hr hzn hrn]
  rfl

lemma valuesTurn_rest (hw : ∀ c ∈ w, isSkipped c) (hb : ∀ c ∈ b, isspace c) :
    ∃ buf, valuesTurn (u ++ (w ++ attrValueSeparator :: (b ++ [nul]))) u.length =
      some (buf, u.length + w.length + 1 + b.length, []) ∧
      buf[u.length + w.length + 1 + b.length]? = some nul := by
  have hall : ∀ c ∈ w ++ attrValueSeparator :: b, isSkipped c := by
    intro c hc
    rcases List.mem_append.mp hc with hc | hc
    · exact hw c hc
    · rcases List.mem_cons.mp hc with rfl | hc
      · decide
      · exact isSkipped_of_isspace (hb c hc)
  have hstart : valueStart (u ++ (w ++ attrValueSeparator :: (b ++ [nul]))) u.length =
      some (u.length + w.length + 1 + b.length) := by
    have h := valueStart_eq (u := u) (x := []) (z := []) hall (by simp) (by simp)
    simpa [Nat.add_assoc, Nat.add_comm 1] using h
  have hend : valueEnd (u ++ (w ++ attrValueSeparator :: (b ++ [nul])))
      (u.length + w.length + 1 + b.length) = some (u.length + w.length + 1 + b.length) := by
    have h := valueEnd_eq (u := u ++ (w ++ attrValueSeparator :: b)) (x := []) (z := []) (r := [])
      (by simp) (by simp) (by simp)
    simpa [Nat.add_assoc, Nat.add_comm 1] using h
  have herase : eraseBack (u ++ (w ++ attrValueSeparator :: (b ++ [nul])))
      (u.length + w.length + 1 + b.length) =
        some (u ++ (w ++ attrValueSeparator :: (List.replicate b.length nul ++ [nul]))) := by
    have h := eraseBack_eq (u := u ++ (w ++ [attrValueSeparator])) (v := [nul]) (by simp)
      (by simp; decide) hb
    simpa [Nat.add_assoc, Nat.add_comm 1] using h
  have hvalue : strAt (u ++ (w ++ attrValueSeparator :: (List.replicate b.length nul ++ [nul])))
      (u.length + w.length + 1 + b.length) = some [] :=
    strAt_eq (u := u ++ (w ++ attrValueSeparator :: List.replicate b.length nul)) (v := [])
      (by simp) (by simp; omega) (by simp)
  refine ⟨u ++ (w ++ attrValueSeparator :: (List.replicate b.length nul ++ [nul])), ?_, ?_⟩
  · simp only [valuesTurn, hstart, hend, herase, hvalue, Option.bind_eq_bind, Option.bind_some]
  · simp [Nat.add_assoc, Nat.add_comm 1]

lemma valuesTurn_blank (hb : ∀ c ∈ b, isspace c) : valuesTurn (b ++ [nul]) 0 = none := by
  have hstart : valueStart (b ++ [nul]) 0 = some b.length := by
    have h := valueStart_eq (u := []) (x := []) (z := []) (fun c hc => isSkipped_of_isspace (hb c hc))
      (by simp) (by simp)
    simpa using h
  have hend : valueEnd (b ++ [nul]) b.length = some b.length := by
    have h := valueEnd_eq (u := b) (x := []) (z := []) (r := []) (by simp) (by simp) (by simp)
    simpa using h
  have herase : eraseBack (b ++ [nul]) b.length = none := eraseBack_start hb
  simp only [valuesTurn, hstart, hend, herase, Option.bind_eq_bind, Option.bind_some, Option.bind_none]

end Turn

structure Value where
  text : List Char
  ne_nil : text ≠ []
  no_separator : attrValueSeparator ∉ text
  no_nul : nul ∉ text
  trimmed : Trimmed text

/-- `& value` with the blanks on both sides of the separator. -/
structure Next where
  before : Blanks
  after : Blanks
  value : Value

def printNext : List Next → List Char
  | [] => []
  | s :: ss => s.before.text ++ attrValueSeparator :: (s.after.text ++ (s.value.text ++ printNext ss))

def printValues (v : Value) (ss : List Next) : List Char := v.text ++ printNext ss

/-- The values that are read: without a blank before the separator a value goes on to the end of the
text. -/
def readValues : Value → List Next → List (List Char)
  | v, [] => [v.text]
  | v, s :: ss =>
      (if s.before.text = [] then v.text ++ printNext (s :: ss) else v.text) :: readValues s.value ss

section Print
variable {u w x : List Char} {v : Value}

lemma Value.head (v : Value) : ∀ c ∈ v.text.head?, isSkipped c = false := by
  intro c hc
  have hne : c ≠ attrValueSeparator := by
    rintro rfl
    exact v.no_separator (List.mem_of_mem_head? hc)
  simp [isSkipped, v.trimmed.1 c hc, hne]

lemma nul_notMem_printNext (ss : List Next) : nul ∉ printNext ss := by
  induction ss with
  | nil => simp [printNext]
  | cons s ss ih =>
    have hb := nul_notMem_of_isspace s.before.blank
    have ha := nul_notMem_of_isspace s.after.blank
    have hsep : nul ≠ attrValueSeparator := by decide
    simp [printNext, hb, ha, hsep, s.value.no_nul, ih]

lemma countLoop_printNext (ss : List Next) {a : List Char} (ha : attrValueSeparator ∉ a)
    (fuel valueNb : ℕ) (hfuel : ss.length < fuel) :
    countLoop fuel (a ++ printNext ss) valueNb = valueNb + ss.length := by
  induction ss generalizing a fuel valueNb with
  | nil =>
    rw [printNext, List.append_nil]
    exact countLoop_last ha fuel valueNb
  | cons s ss ih =>
    obtain ⟨fuel, rfl⟩ := Nat.exists_eq_add_one_of_ne_zero (Nat.ne_zero_of_lt hfuel)
    have hbefore : attrValueSeparator ∉ a ++ s.before.text := by
      simp [ha, separator_notMem_blanks s.before.blank]
    have hafter : attrValueSeparator ∉ s.after.text ++ s.value.text := by
      simp [separator_notMem_blanks s.after.blank, s.value.no_separator]
    have hdrop : (s.after.text ++ (s.value.text ++ printNext ss)).dropWhile
        (· == attrValueSeparator) = s.after.text ++ s.value.text ++ printNext ss := by
      rw [← List.append_assoc]
      exact dropWhile_separator (by simp [s.value.ne_nil]) hafter
    rw [printNext, ← List.append_assoc, countLoop_separator hbefore, hdrop,
      ih hafter fuel (valueNb + 1) (by simpa using hfuel), List.length_cons]
    omega

lemma length_le_printNext (ss : List Next) : ss.length ≤ (printNext ss).length := by
  induction ss with
  | nil => simp
  | cons s ss ih =>
    simp only [printNext, List.length_append, List.length_cons]
    omega

lemma countValues_printValues (v : Value) (ss : List Next) :
    countValues (printValues v ss) = ss.length + 1 := by
  have hlen := length_le_printNext ss
  rw [countValues, printValues, countLoop_printNext ss v.no_separator _ 1 (by simp; omega)]
  omega

lemma valuesLoop_printValues (hw : ∀ c ∈ w, isSkipped c) (ss : List Next) :
    ∃ buf, valuesLoop (ss.length + 1) (u ++ (w ++ (printValues v ss ++ [nul]))) u.length =
      some (buf, readValues v ss) := by
  induction ss generalizing u w v with
  | nil =>
    have hturn := valuesLoop_value (u := u) (x := []) (b := []) (r := []) hw v.ne_nil v.head
      v.trimmed.last v.no_separator (by simp) (by simp) v.no_nul (by simp) 0
    refine ⟨u ++ (w ++ (v.text ++ [nul])), ?_⟩
    simpa [printValues, printNext, readValues, valuesLoop] using hturn
  | cons s ss ih =>
    have hr : nul ∉ attrValueSeparator :: (s.after.text ++ (s.value.text ++ printNext ss)) := by
      have h := nul_notMem_printNext (s :: ss)
      simp only [printNext, List.mem_append, not_or] at h
      exact h.2
    have hturn := valuesLoop_value (u := u) (x := []) hw v.ne_nil v.head v.trimmed.last
      v.no_separator s.before.blank
      (r := attrValueSeparator :: (s.after.text ++ (s.value.text ++ printNext ss))) (by simp)
      v.no_nul hr (ss.length + 1)
    have hskip : ∀ c ∈ attrValueSeparator :: s.after.text, isSkipped c := by
      intro c hc
      rcases List.mem_cons.mp hc with rfl | hc
      · decide
      · exact isSkipped_of_isspace (s.after.blank c hc)
    obtain ⟨buf, hbuf⟩ := ih (v := s.value) hskip
      (u := u ++ (w ++ (v.text ++ List.replicate s.before.text.length nul)))
    refine ⟨buf, ?_⟩
    simp only [printValues, List.append_assoc, List.length_append, List.length_replicate,
      List.cons_append, Nat.add_assoc] at hbuf hturn
    simp only [printValues, printNext, List.length_cons, List.append_assoc, List.cons_append, hturn,
      hbuf, Option.map_some, readValues]
    split_ifs with hb <;> simp [hb]

lemma length_readValues (v : Value) (ss : List Next) :
    (readValues v ss).length = ss.length + 1 := by
  induction ss generalizing v with
  | nil => rfl
  | cons s ss ih => simp [readValues, ih]

lemma readValues_eq_iff (v : Value) (ss : List Next) :
    readValues v ss = v.text :: ss.map (·.value.text) ↔ ∀ s ∈ ss, s.before.text ≠ [] := by
  induction ss generalizing v with
  | nil => simp [readValues]
  | cons s ss ih =>
    rw [readValues, List.cons_eq_cons, List.map_cons, ih, List.forall_mem_cons]
    refine and_congr_left fun _ => ?_
    split_ifs with hb
    · simp [hb, printNext]
    · simp [hb]

end Print

/-- The values are split as written exactly when a blank stands before every separator. -/
theorem values_split_iff (v : Value) (ss : List Next) :
    (∃ r, attrsValuesBuild (some (printValues v ss)) = some (some r) ∧
      r.entries = Entry.value v.text :: ss.map (Entry.value ·.value.text) ++ [Entry.null]) ↔
      ∀ s ∈ ss, s.before.text ≠ [] := by
  obtain ⟨buf, hbuf⟩ := valuesLoop_printValues (u := []) (w := []) (v := v) (by simp) ss
  have hbuild : attrsValuesBuild (some (printValues v ss)) =
      some (some ⟨buf, ss.length + 1, readValues v ss⟩) := by
    simp only [List.nil_append, List.length_nil] at hbuf
    simp only [attrsValuesBuild, buildValues, countValues_printValues, hbuf, Option.map_some]
  have hentries : Values.entries ⟨buf, ss.length + 1, readValues v ss⟩ =
      (readValues v ss).map Entry.value ++ [Entry.null] := by
    simp [Values.entries, length_readValues]
  have hvalues : Entry.value v.text :: ss.map (Entry.value ·.value.text) =
      (v.text :: ss.map (·.value.text)).map Entry.value := by simp
  have hinj : Function.Injective Entry.value := fun _ _ h => Entry.value.inj h
  rw [← readValues_eq_iff v ss, hbuild]
  constructor
  · rintro ⟨r, hr, h⟩
    obtain rfl := Option.some.inj (Option.some.inj hr)
    rw [hentries, hvalues] at h
    exact List.map_injective_iff.mpr hinj (List.append_cancel_right h)
  · intro h
    refine ⟨_, rfl, ?_⟩
    rw [hentries, hvalues, h]

/-- Two values without blanks between them. -/
theorem values_not_split : ∃ (v : Value) (ss : List Next),
    v.text = ['a'] ∧ ss.map (·.value.text) = [['b']] ∧ printValues v ss = ['a', '&', 'b'] ∧
      attrsValuesBuild (some (printValues v ss)) =
        some (some ⟨['a', '&', 'b', nul], 2, [['a', '&', 'b'], ['b']]⟩) :=
  ⟨⟨['a'], by decide, by decide, by decide, by decide⟩,
    [⟨⟨[], by simp⟩, ⟨[], by simp⟩, ['b'], by decide, by decide, by decide, by decide⟩],
    by decide⟩

section Pieces

def isBlank (p : List Char) : Bool := p.all isspace

def runs : List (List Char) → ℕ
  | [] => 0
  | p :: ps => if p = [] ∧ ps ≠ [] then runs ps else runs ps + 1

/-- The turns of the second loop: one for each piece with a character that is no blank, and one for the
separators at the end. -/
def turns : List (List Char) → ℕ
  | [] => 0
  | p :: ps => if isBlank p then (if ps = [] then 1 else turns ps) else turns ps + 1

variable {p q : List Char} {ps : List (List Char)}

lemma countLoop_pieces (hps : ∀ q ∈ p :: ps, attrValueSeparator ∉ q) (fuel valueNb : ℕ)
    (hfuel : ps.length < fuel) :
    countLoop fuel ((joinPieces attrValueSeparator (p :: ps)).dropWhile (· == attrValueSeparator))
        valueNb + 1 =
      valueNb + runs (p :: ps) := by
  have hp := hps p List.mem_cons_self
  induction ps generalizing p fuel valueNb with
  | nil =>
    have hlast : attrValueSeparator ∉ p.dropWhile (· == attrValueSeparator) :=
      fun h => hp (List.dropWhile_subset _ h)
    simp [countLoop_last hlast, runs]
  | cons q ps ih =>
    have hqs : ∀ r ∈ q :: ps, attrValueSeparator ∉ r := fun r hr => hps r (List.mem_cons_of_mem p hr)
    have hq := hqs q List.mem_cons_self
    by_cases hpe : p = []
    · -- a separator right behind the one before it
      subst hpe
      have hskip := ih hqs fuel valueNb (by simp at hfuel; omega) hq
      rw [runs, if_pos ⟨rfl, List.cons_ne_nil q ps⟩, ← hskip]
      simp
    · obtain ⟨fuel, rfl⟩ := Nat.exists_eq_add_one_of_ne_zero (Nat.ne_zero_of_lt hfuel)
      have hnext := ih hqs fuel (valueNb + 1) (by simpa using hfuel) hq
      rw [runs, if_neg fun h => hpe h.1, joinPieces_cons_cons, dropWhile_separator hpe hp,
        countLoop_separator hp, hnext]
      omega

lemma countValues_pieces (hps : ∀ q ∈ p :: ps, attrValueSeparator ∉ q) :
    countValues (joinPieces attrValueSeparator (p :: ps)) = runs ps + 1 := by
  have hp := hps p List.mem_cons_self
  cases ps with
  | nil => simp [countValues, countLoop_last hp, runs]
  | cons q ps =>
    have hlen := length_le_joinPieces (c := attrValueSeparator) p (q :: ps)
    have hrest := countLoop_pieces (fun r hr => hps r (List.mem_cons_of_mem p hr))
      (joinPieces attrValueSeparator (p :: q :: ps)).length (1 + 1) (by simpa using hlen)
    rw [countValues]
    rw [joinPieces_cons_cons] at hrest ⊢
    rw [countLoop_separator hp]
    omega

lemma turns_pos (p : List Char) (ps : List (List Char)) : 0 < turns (p :: ps) := by
  induction ps generalizing p with
  | nil => cases h : isBlank p <;> simp [turns, h]
  | cons q ps ih =>
    rw [turns]
    split_ifs
    · contradiction
    · exact ih q
    · exact Nat.succ_pos _

lemma turns_runs (ps : List (List Char)) : turns ps ≤ runs ps ∧
    (turns ps = runs ps ↔ ∀ p ∈ ps.dropLast, p = [] ∨ isBlank p = false) := by
  induction ps with
  | nil => simp [turns, runs]
  | cons p ps ih =>
    obtain ⟨hle, heq⟩ := ih
    cases ps with
    | nil => simp [turns, runs]
    | cons q ps =>
      rw [List.dropLast_cons_cons, List.forall_mem_cons, turns, runs, if_neg (List.cons_ne_nil q ps)]
      by_cases hpe : p = []
      · have hblank : isBlank [] := rfl
        simp only [hpe, hblank, if_true, ne_eq, reduceCtorEq, not_false_eq_true, and_self, true_or,
          true_and]
        exact ⟨hle, heq⟩
      · cases hblank : isBlank p with
        | true =>
          simp only [if_true, hpe, false_and, if_false, or_self, Bool.true_eq_false, iff_false]
          omega
        | false =>
          simp only [Bool.false_eq_true, if_false, hpe, false_and, or_true, true_and,
            Nat.add_right_cancel_iff, Nat.add_le_add_iff_right]
          exact ⟨hle, heq⟩

lemma exists_last_separator {w : List Char} (hw : ∀ c ∈ w, isSkipped c)
    (hmem : attrValueSeparator ∈ w) : ∃ a b, w = a ++ attrValueSeparator :: b ∧
      (∀ c ∈ a, isSkipped c) ∧ ∀ c ∈ b, isspace c := by
  obtain ⟨b, a, hab, hb⟩ := List.eq_append_cons_of_mem (List.mem_reverse.mpr hmem)
  have hrev : w = a.reverse ++ attrValueSeparator :: b.reverse := by
    rw [← List.reverse_reverse w, hab]
    simp
  refine ⟨a.reverse, b.reverse, hrev, fun c hc => hw c (by simp [hrev, hc]), fun c hc => ?_⟩
  have hne : c ≠ attrValueSeparator := by
    rintro rfl
    exact hb (List.mem_reverse.mp hc)
  have hskip := hw c (by simp [hrev, hc])
  simpa [isSkipped, hne] using hskip

lemma exists_nonblank (h : isBlank p = false) : ∃ c ∈ p, isspace c = false := by
  simpa [isBlank] using h

lemma isSkipped_append {w b : List Char} (hw : ∀ c ∈ w, isSkipped c) (hb : ∀ c ∈ b, isspace c) :
    ∀ c ∈ w ++ b, isSkipped c := by
  intro c hc
  rcases List.mem_append.mp hc with hc | hc
  · exact hw c hc
  · exact isSkipped_of_isspace (hb c hc)

lemma valuesLoop_piece {u w r : List Char} (hw : ∀ c ∈ w, isSkipped c) (hp : isBlank p = false)
    (hsep : attrValueSeparator ∉ p) (hnul : nul ∉ p)
    (hr : ∀ c ∈ r.head?, c = attrValueSeparator) (hrn : nul ∉ r) (n : ℕ) :
    ∃ u' value, valuesLoop (n + 1) (u ++ (w ++ (p ++ (r ++ [nul])))) u.length =
      (valuesLoop n (u' ++ (r ++ [nul])) u'.length).map fun t => (t.1, value :: t.2) := by
  obtain ⟨a, z, b, rfl, ha, hb, hz, htrim⟩ := exists_trimmed (exists_nonblank hp)
  simp only [List.mem_append, not_or] at hsep hnul
  have hhead : ∀ c ∈ z.head?, isSkipped c = false := by
    intro c hc
    have hne : c ≠ attrValueSeparator := by
      rintro rfl
      exact hsep.2.1 (List.mem_of_mem_head? hc)
    simp [isSkipped, htrim.head c hc, hne]
  have hloop := valuesLoop_value (u := u) (x := []) (isSkipped_append hw ha) hz hhead htrim.last
    hsep.2.1 hb hr hnul.2.1 hrn n
  refine ⟨u ++ (w ++ (a ++ (z ++ List.replicate b.length nul))), if b = [] then z ++ r else z, ?_⟩
  simpa [Nat.add_assoc] using hloop

lemma valuesLoop_last_blank {u w : List Char} (hw : ∀ c ∈ w, isSkipped c)
    (hmem : attrValueSeparator ∈ w) (hblank : isBlank p) (n : ℕ) :
    ∃ buf, valuesLoop (n + 1) (u ++ (w ++ (p ++ [nul]))) u.length = some (buf, [[]]) := by
  have hpb : ∀ c ∈ p, isspace c := by simpa [isBlank] using hblank
  obtain ⟨a, b, rfl, ha, hb⟩ := exists_last_separator hw hmem
  have hbp : ∀ c ∈ b ++ p, isspace c := by
    intro c hc
    rcases List.mem_append.mp hc with hc | hc
    · exact hb c hc
    · exact hpb c hc
  obtain ⟨buf, hturn, hend⟩ := valuesTurn_rest (u := u) ha hbp
  have hloop := valuesLoop_turn (u := u) (v := [nul]) (z := a ++ attrValueSeparator :: (b ++ p))
    (by simp) (nul_notMem_of_isSkipped (by simpa using isSkipped_append hw hpb)) n
  refine ⟨buf, ?_⟩
  simp only [List.append_assoc, List.cons_append] at hturn hloop
  simp only [List.append_assoc, List.cons_append, hloop, hturn, Option.bind_some, valuesLoop_end hend,
    Option.map_some]

lemma valuesLoop_last_piece {u w : List Char} (hw : ∀ c ∈ w, isSkipped c) (hblank : isBlank p = false)
    (hp : attrValueSeparator ∉ p ∧ nul ∉ p) (n : ℕ) :
    ∃ buf value, valuesLoop (n + 1) (u ++ (w ++ (p ++ [nul]))) u.length = some (buf, [value]) := by
  obtain ⟨u', value, hloop⟩ := valuesLoop_piece (u := u) (r := []) hw hblank hp.1 hp.2
    (by simp) (by simp) n
  have hend : (u' ++ [nul])[u'.length]? = some nul := by simp
  rw [List.nil_append, valuesLoop_end hend] at hloop
  exact ⟨u' ++ [nul], value, by simpa using hloop⟩

lemma valuesLoop_last {u w : List Char} (hw : ∀ c ∈ w, isSkipped c)
    (hp : attrValueSeparator ∉ p ∧ nul ∉ p) (hok : attrValueSeparator ∈ w ∨ isBlank p = false) (n : ℕ) :
    ∃ buf vs, valuesLoop (n + 1) (u ++ (w ++ (p ++ [nul]))) u.length = some (buf, vs) ∧
      vs.length = turns [p] := by
  cases hblank : isBlank p with
  | true =>
    have hmem : attrValueSeparator ∈ w := by simpa [hblank] using hok
    obtain ⟨buf, hloop⟩ := valuesLoop_last_blank (u := u) hw hmem hblank n
    exact ⟨buf, [[]], hloop, by simp [turns, hblank]⟩
  | false =>
    obtain ⟨buf, value, hloop⟩ := valuesLoop_last_piece (u := u) hw hblank hp n
    exact ⟨buf, [value], hloop, by simp [turns, hblank]⟩

lemma isSkipped_blank {w : List Char} (hw : ∀ c ∈ w, isSkipped c) (hblank : isBlank p = true) :
    ∀ c ∈ w ++ (p ++ [attrValueSeparator]), isSkipped c := by
  have hpb : ∀ c ∈ p, isspace c := by simpa [isBlank] using hblank
  rw [← List.append_assoc]
  intro c hc
  rcases List.mem_append.mp hc with hc | hc
  · exact isSkipped_append hw hpb c hc
  · rw [List.mem_singleton.mp hc]
    decide

lemma valuesLoop_pieces {u w : List Char} (hw : ∀ c ∈ w, isSkipped c)
    (hps : ∀ q ∈ p :: ps, attrValueSeparator ∉ q ∧ nul ∉ q)
    (hok : attrValueSeparator ∈ w ∨ isBlank p = false ∨ ps ≠ []) (n : ℕ) (hn : turns (p :: ps) ≤ n) :
    ∃ buf vs, valuesLoop n (u ++ (w ++ (joinPieces attrValueSeparator (p :: ps) ++ [nul]))) u.length =
      some (buf, vs) ∧ vs.length = turns (p :: ps) := by
  have hp := hps p List.mem_cons_self
  have hsepnul : nul ≠ attrValueSeparator := by decide
  induction ps generalizing u w p n with
  | nil =>
    obtain ⟨n, rfl⟩ : ∃ m, n = m + 1 := Nat.exists_eq_add_one.mpr ((turns_pos p []).trans_le hn)
    rw [joinPieces_singleton]
    exact valuesLoop_last hw hp (by simpa using hok) n
  | cons q ps ih =>
    have hqs : ∀ r ∈ q :: ps, attrValueSeparator ∉ r ∧ nul ∉ r :=
      fun r hr => hps r (List.mem_cons_of_mem p hr)
    have hq := hqs q List.mem_cons_self
    cases hblank : isBlank p with
    | true =>
      have hskip := isSkipped_blank hw hblank
      have hturns : turns (p :: q :: ps) = turns (q :: ps) := by simp [turns, hblank]
      obtain ⟨buf, vs, hloop, hlen⟩ := ih (u := u) hskip hqs (.inl (by simp)) n (hturns ▸ hn) hq
      refine ⟨buf, vs, ?_, hlen.trans hturns.symm⟩
      simpa using hloop
    | false =>
      have hturns : turns (p :: q :: ps) = turns (q :: ps) + 1 := by
        rw [turns, hblank]
        rfl
      obtain ⟨n, rfl⟩ : ∃ m, n = m + 1 := Nat.exists_eq_add_one.mpr (by omega)
      obtain ⟨u', value, hpiece⟩ := valuesLoop_piece (u := u)
        (r := attrValueSeparator :: joinPieces attrValueSeparator (q :: ps)) hw hblank hp.1 hp.2 (by simp)
        (by simp [hsepnul, notMem_joinPieces hsepnul fun r hr => (hqs r hr).2]) n
      obtain ⟨buf, vs, hloop, hlen⟩ := ih (u := u') (w := [attrValueSeparator]) (by simp; decide) hqs
        (.inl (by simp)) n (by omega) hq
      refine ⟨buf, value :: vs, ?_, by simp [hlen, hturns]⟩
      simp only [List.cons_append, List.nil_append] at hpiece hloop
      rw [hloop] at hpiece
      simpa using hpiece

lemma build_pieces (hps : ∀ q ∈ p :: ps, attrValueSeparator ∉ q ∧ nul ∉ q)
    (hok : isBlank p = false ∨ ps ≠ []) :
    ∃ buf vs, attrsValuesBuild (some (joinPieces attrValueSeparator (p :: ps))) =
      some (some ⟨buf, runs ps + 1, vs⟩) ∧
      vs.length = turns (p :: ps) := by
  have hcount := countValues_pieces fun q hq => (hps q hq).1
  have hturns : turns (p :: ps) ≤ runs ps + 1 := by
    have := (turns_runs ps).1
    rw [turns]
    split_ifs <;> omega
  obtain ⟨buf, vs, hloop, hlen⟩ := valuesLoop_pieces (u := []) (w := []) (by simp) hps
    (.inr hok) (runs ps + 1) hturns
  rw [List.nil_append, List.nil_append, List.length_nil] at hloop
  refine ⟨buf, vs, ?_, hlen⟩
  simp only [attrsValuesBuild, buildValues, hcount, hloop, Option.map_some]

lemma build_blank (hne : p ≠ []) (hb : ∀ c ∈ p, isspace c) : attrsValuesBuild (some p) = none := by
  have hloop := valuesLoop_turn (u := []) (v := [nul]) hne (nul_notMem_of_isspace hb) 0
  rw [List.nil_append, List.length_nil, valuesTurn_blank hb, Option.bind_none, Nat.zero_add] at hloop
  simp [attrsValuesBuild, buildValues, countValues, countLoop_last (separator_notMem_blanks hb), hloop]

lemma turns_eq_iff (hok : isBlank p = false ∨ ps ≠ []) : turns (p :: ps) = runs ps + 1 ↔
    isBlank p = false ∧ ∀ q ∈ ps.dropLast, q = [] ∨ isBlank q = false := by
  obtain ⟨hle, heq⟩ := turns_runs ps
  rw [← heq, turns]
  cases hblank : isBlank p with
  | false => simp
  | true =>
    have hne : ps ≠ [] := by simpa [hblank] using hok
    simp only [if_true, if_neg hne, Bool.true_eq_false, false_and, iff_false]
    omega

end Pieces

/-- The first piece has a character that is no blank, and so has each other one but the last if it is not
empty. -/
def Filled (s : List Char) : Prop :=
  (∀ p ∈ (s.splitOn attrValueSeparator).head?, isBlank p = false) ∧
    ∀ p ∈ (s.splitOn attrValueSeparator).tail.dropLast, p = [] ∨ isBlank p = false

/-- The second loop writes the entries that the first one counted, and stays inside of the text, exactly
when the text is filled. -/
theorem passes_agree_iff (s : List Char) (hs : s ≠ []) (hnul : nul ∉ s) :
    (∃ r, attrsValuesBuild (some s) = some (some r) ∧ r.written.length = r.valueNb ∧
      Entry.uninitialised ∉ r.entries) ↔ Filled s := by
  have hall := notMem_of_mem_splitOn (c := attrValueSeparator) hnul
  have hjoin := joinPieces_splitOn attrValueSeparator s
  obtain ⟨p, ps, hps⟩ := List.exists_cons_of_ne_nil (List.splitOn_ne_nil attrValueSeparator s)
  have hfilled : Filled s ↔ isBlank p = false ∧ ∀ q ∈ ps.dropLast, q = [] ∨ isBlank q = false := by
    simp [Filled, hps]
  rw [hfilled]
  rw [hps] at hall hjoin
  by_cases hok : isBlank p = false ∨ ps ≠ []
  · obtain ⟨buf, vs, hbuild, hlen⟩ := build_pieces hall hok
    rw [hjoin] at hbuild
    rw [hbuild, ← turns_eq_iff hok, ← hlen]
    constructor
    · rintro ⟨r, hr, hcount, -⟩
      obtain rfl := Option.some.inj (Option.some.inj hr)
      exact hcount
    · intro hcount
      exact ⟨_, rfl, hcount, by simp [Values.entries, hcount]⟩
  · -- one piece, and only blanks
    simp only [not_or, Bool.not_eq_false, not_not] at hok
    obtain ⟨hblank, rfl⟩ := hok
    rw [joinPieces_singleton] at hjoin
    subst hjoin
    have hbuild := build_blank hs (by simpa [isBlank] using hblank)
    simp [hbuild, hblank]

/-- Blanks behind the last separator are an empty value. -/
theorem filled_text : Filled "a & b& ".toList ∧
    ∃ r, attrsValuesBuild (some "a & b& ".toList) = some (some r) ∧ r.written.length = r.valueNb ∧
      Entry.uninitialised ∉ r.entries := by
  have h : Filled "a & b& ".toList := by
    refine ⟨?_, ?_⟩ <;> decide
  exact ⟨h, (passes_agree_iff _ (by decide) (by decide)).mpr h⟩

/-- A separator at the start, blanks between two separators, and blanks only. -/
theorem passes_differ :
    attrsValuesBuild (some ['&', 'a']) = some (some ⟨['&', 'a', nul], 2, [['a']]⟩) ∧
    Values.entries ⟨['&', 'a', nul], 2, [['a']]⟩ =
      [Entry.value ['a'], Entry.uninitialised, Entry.null] ∧
    attrsValuesBuild (some ['a', '&', ' ', '&', 'b']) =
      some (some ⟨['a', '&', ' ', '&', 'b', nul], 3, [['a', '&', ' ', '&', 'b'], ['b']]⟩) ∧
    attrsValuesBuild (some [' ']) = none := by
  decide

end LdapTgen.AttrValues
