import LdapTgen.CString
import LdapTgen.LdapControls

/-! Lists of generic controls read back from their text. A control is printed as its OID, its
criticality and, where it has one, its value; the controls are separated by bars. -/
namespace LdapTgen.LdapControls

open CString

/-- A word that `%s` can read into an array of `n + 1` characters. -/
structure Word (n : ℕ) where
  text : Text
  ne_nil : text ≠ []
  no_space : ∀ c ∈ text, isSpace c = false
  length_le : text.length ≤ n

structure Written where
  oid : Word 31
  crit : ℤ
  value : Option (Word 127)
  value_start : ∀ v ∈ value, v.text.head? ≠ some '|'

def printInt : ℤ → Text
  | .ofNat n => Nat.toDigits 10 n
  | .negSucc n => '-' :: Nat.toDigits 10 (n + 1)

namespace Written

def valueText (c : Written) : Text :=
  match c.value with
  | none => []
  | some v => v.text

def tail (c : Written) : Text :=
  match c.value with
  | none => []
  | some v => ' ' :: v.text

def text (c : Written) : Text := ' ' :: (c.oid.text ++ ' ' :: (printInt c.crit ++ c.tail))

def control (c : Written) : Control := ⟨c.oid.text, c.valueText, c.crit⟩

def stored (c : Written) : Control := ⟨c.oid.text, c.valueText, c.crit.bmod 256⟩

end Written

def printControls (cs : List Written) : Text :=
  keywdLdapControl ++ " | ".toList.intercalate (cs.map Written.text)

section Scan
variable {b w t rest : Text} {c : Char}

lemma scanWord_of_ne (hu : t.dropWhile isSpace = w) (hne : w ≠ []) :
    scanWord t = some (w.takeWhile (!isSpace ·), w.dropWhile (!isSpace ·)) := by
  rw [scanWord, hu]
  cases w with
  | nil => exact absurd rfl hne
  | cons c w => rfl

lemma scanWord_eq (hb : ∀ c ∈ b, isSpace c) (hne : w ≠ []) (hw : ∀ c ∈ w, isSpace c = false)
    (hrest : ∀ c ∈ rest.head?, isSpace c) : scanWord (b ++ (w ++ rest)) = some (w, rest) := by
  have hhead : ∀ c ∈ (w ++ rest).head?, isSpace c = false := by
    rw [List.head?_append_of_ne_nil _ hne]
    exact fun c hc => hw c (List.mem_of_mem_head? hc)
  have hin : ∀ c ∈ w, (!isSpace c) = true := fun c hc => by simp [hw c hc]
  have hout : ∀ c ∈ rest.head?, (!isSpace c) = false := fun c hc => by simp [hrest c hc]
  rw [scanWord_of_ne (dropWhile_append_of_head hb hhead) (by simp [hne]), takeWhile_append_of_head hin hout,
    dropWhile_append_of_head hin hout]

lemma scanWord_nil : scanWord [] = none := rfl

lemma scanChar_eq (hb : ∀ c ∈ b, isSpace c) (hc : isSpace c = false) :
    scanChar (b ++ c :: rest) = some (c, rest) := by
  rw [scanChar, dropWhile_append_of_head hb (by simpa using hc)]

lemma scanChar_nil : scanChar [] = none := rfl

lemma digitsValue_eq {ds : Text} (hds : ∀ c ∈ ds, c.isDigit) :
    digitsValue ds = (Nat.ofDigitChars 10 ds 0 : ℕ) := by
  have hfold : ∀ (ds : Text) (k : ℕ), (∀ c ∈ ds, c.isDigit) →
      ds.foldl (fun v d => 10 * v + ((d.toNat : ℤ) - 48)) (k : ℤ) = (Nat.ofDigitChars 10 ds k : ℕ) := by
    intro ds
    induction ds with
    | nil => simp [Nat.ofDigitChars]
    | cons d ds ih =>
      intro k h
      have hd : 48 ≤ d.toNat := by
        have := h d (by simp)
        simp [Char.isDigit, UInt32.le_iff_toNat_le] at this
        exact this.1
      have hstep : (10 * (k : ℤ) + ((d.toNat : ℤ) - 48)) = ((10 * k + (d.toNat - 48) : ℕ) : ℤ) := by
        omega
      rw [List.foldl_cons, hstep, ih _ fun c hc => h c (by simp [hc])]
      rfl
  exact hfold ds 0 hds

lemma isDigit_toDigits (n : ℕ) : ∀ c ∈ Nat.toDigits 10 n, c.isDigit := fun _ hc =>
  Nat.isDigit_of_mem_toDigits (by decide) (by decide) hc

lemma digitsValue_toDigits (n : ℕ) : digitsValue (Nat.toDigits 10 n) = n := by
  rw [digitsValue_eq (isDigit_toDigits n), Nat.ofDigitChars_toDigits (by decide) (by decide)]

lemma scanInt_of_sign {u v : Text} (sign : ℤ) (hu : t.dropWhile isSpace = u)
    (hsign : u = '-' :: v ∧ sign = -1 ∨ u = v ∧ sign = 1 ∧ ∀ c ∈ u.head?, c ≠ '-' ∧ c ≠ '+')
    (hne : v.takeWhile Char.isDigit ≠ []) :
    scanInt t = some (sign * digitsValue (v.takeWhile Char.isDigit), v.dropWhile Char.isDigit) := by
  obtain ⟨d, ds, hds⟩ := List.exists_cons_of_ne_nil hne
  rw [scanInt, hu]
  rcases hsign with ⟨rfl, rfl⟩ | ⟨rfl, rfl, hhead⟩
  · simp only [hds]
  · cases u with
    | nil => cases hds
    | cons c u =>
      obtain ⟨hminus, hplus⟩ := hhead c (by simp)
      split
      next sign v heq =>
        split at heq
        next hcons => exact absurd (List.cons.inj hcons).1 hminus
        next hcons => exact absurd (List.cons.inj hcons).1 hplus
        next =>
          cases heq
          simp only [hds]

lemma scanInt_eq (hb : ∀ c ∈ b, isSpace c) (n : ℤ) (hrest : ∀ c ∈ rest.head?, c.isDigit = false) :
    scanInt (b ++ (printInt n ++ rest)) = some (n, rest) := by
  have htake : ∀ n, (Nat.toDigits 10 n ++ rest).takeWhile Char.isDigit = Nat.toDigits 10 n :=
    fun n => takeWhile_append_of_head (isDigit_toDigits n) hrest
  have hdrop : ∀ n, (Nat.toDigits 10 n ++ rest).dropWhile Char.isDigit = rest :=
    fun n => dropWhile_append_of_head (isDigit_toDigits n) hrest
  cases n with
  | ofNat n =>
    have hhead : ∀ c ∈ (Nat.toDigits 10 n ++ rest).head?, c.isDigit := by
      rw [List.head?_append_of_ne_nil _ Nat.toDigits_ne_nil]
      exact fun c hc => isDigit_toDigits n c (List.mem_of_mem_head? hc)
    have hdigit : ∀ c : Char, c.isDigit → isSpace c = false ∧ c ≠ '-' ∧ c ≠ '+' := by
      intro c hc
      refine ⟨?_, ?_, ?_⟩
      · rw [isSpace, decide_eq_false_iff_not]
        rintro (rfl | rfl | rfl | rfl | rfl | rfl) <;> revert hc <;> decide
      · rintro rfl
        exact absurd hc (by decide)
      · rintro rfl
        exact absurd hc (by decide)
    have hscan := scanInt_of_sign 1
      (dropWhile_append_of_head hb fun c hc => (hdigit c (hhead c hc)).1)
      (Or.inr ⟨rfl, rfl, fun c hc => (hdigit c (hhead c hc)).2⟩)
      (by rw [htake]; exact Nat.toDigits_ne_nil)
    rw [htake, hdrop, digitsValue_toDigits, one_mul] at hscan
    exact hscan
  | negSucc n =>
    have hminus : ∀ c ∈ ('-' :: (Nat.toDigits 10 (n + 1) ++ rest)).head?, isSpace c = false := by
      intro c hc
      cases hc
      decide
    have hscan := scanInt_of_sign (-1) (dropWhile_append_of_head hb hminus) (Or.inl ⟨rfl, rfl⟩)
      (by rw [htake]; exact Nat.toDigits_ne_nil)
    rw [htake, hdrop, digitsValue_toDigits, neg_one_mul] at hscan
    exact hscan

end Scan

section Loop
variable {cmds pre b r : Text} {c : Written} {n : ℕ} {g : Generic}

lemma isSpace_blank : ∀ c ∈ [' '], isSpace c := by
  intro c hc
  rw [List.mem_singleton.mp hc]
  decide

lemma isSpace_of_blank {t : Text} : ∀ c ∈ (' ' :: t).head?, isSpace c := by
  intro c hc
  cases hc
  decide

lemma Written.tail_head (hr : ∀ c ∈ r.head?, c = ' ') : ∀ d ∈ (c.tail ++ r).head?, d = ' ' := by
  cases hv : c.value with
  | none => simpa [tail, hv] using hr
  | some v => simp [tail, hv]

lemma drop_shift {t : Text} (pre : Text) (h : cmds = pre ++ t) :
    cmds.drop (cmds.length - t.length) = t := by
  simp [h]

lemma scan_oid_crit (hcmds : cmds = pre ++ (b ++ (c.text ++ r))) (hb : ∀ c ∈ b, isSpace c)
    (hr : ∀ c ∈ r.head?, c = ' ') :
    scanWord (cmds.drop pre.length) =
        some (c.oid.text, ' ' :: (printInt c.crit ++ (c.tail ++ r))) ∧
      scanInt (' ' :: (printInt c.crit ++ (c.tail ++ r))) = some (c.crit, c.tail ++ r) := by
  have hdrop : cmds.drop pre.length =
      (b ++ [' ']) ++ (c.oid.text ++ ' ' :: (printInt c.crit ++ (c.tail ++ r))) := by
    simp [hcmds, Written.text]
  have hblank : ∀ d ∈ b ++ [' '], isSpace d := by
    intro d hd
    rw [List.mem_append] at hd
    exact hd.elim (hb d) (isSpace_blank d)
  refine ⟨?_, ?_⟩
  · rw [hdrop, scanWord_eq hblank c.oid.ne_nil c.oid.no_space isSpace_of_blank]
  · refine scanInt_eq isSpace_blank c.crit fun d hd => ?_
    rw [Written.tail_head hr d hd]
    decide

lemma scanValue_eq {s : Text} {pos : ℕ} (hcmds : cmds = s ++ (c.tail ++ r))
    (hr : r = [] ∧ c.value.isSome ∨ ∃ rest, r = ' ' :: '|' :: ' ' :: rest) :
    scanValue cmds (cmds.length - (c.tail ++ r).length) pos =
      some (c.valueText, cmds.length - r.length) := by
  have hbar : isSpace '|' = false := by decide
  rw [scanValue, drop_shift _ hcmds]
  cases hv : c.value with
  | none =>
    obtain ⟨rest, rfl⟩ : ∃ rest, r = ' ' :: '|' :: ' ' :: rest := by
      simpa [hv] using hr
    have hscan : scanWord (' ' :: '|' :: ' ' :: rest) = some (['|'], ' ' :: rest) :=
      scanWord_eq (w := ['|']) isSpace_blank (by simp) (by simpa using hbar)
        isSpace_of_blank
    simp [Written.tail, Written.valueText, hv, hscan]
  | some v =>
    have hspace : ∀ d ∈ r.head?, isSpace d := by
      rcases hr with ⟨rfl, -⟩ | ⟨rest, rfl⟩
      · simp
      · exact isSpace_of_blank
    have hscan : scanWord (' ' :: (v.text ++ r)) = some (v.text, r) :=
      scanWord_eq isSpace_blank v.ne_nil v.no_space hspace
    have hlen : ¬ 127 < v.text.length := by
      have := v.length_le
      omega
    simp [Written.tail, Written.valueText, hv, hscan, hlen, c.value_start v hv]

lemma oid_fits (c : Written) : ¬ 31 < c.oid.text.length := by
  have := c.oid.length_le
  omega

def Written.front (c : Written) : Text := ' ' :: (c.oid.text ++ ' ' :: printInt c.crit)

lemma Written.text_eq (c : Written) : c.text = c.front ++ c.tail := by
  simp [text, front]

section Turn
variable (hcmds : cmds = pre ++ (b ++ (c.text ++ r))) (hb : ∀ c ∈ b, isSpace c)
  (hg : g.shift = pre.length)
include hcmds hg

lemma shift_lt : ¬ cmds.length ≤ g.shift := by
  simp [hcmds, hg, Written.text]

include hb

lemma genericLoop_unfit (hr : ∀ c ∈ r.head?, c = ' ') (hfit : ¬ fitsInt c.crit) :
    genericLoop cmds (n + 1) g = none := by
  obtain ⟨hword, hint⟩ := scan_oid_crit hcmds hb hr
  rw [genericLoop, if_neg (shift_lt hcmds hg), hg]
  simp [hword, hint, oid_fits, hfit]

lemma genericLoop_next {rest : Text} (hr : r = ' ' :: '|' :: ' ' :: rest) (hfit : fitsInt c.crit) :
    ∃ u, genericLoop cmds (n + 1) g = genericLoop cmds n
      ⟨g.nb + 1, g.ctrls ++ [c.stored], (pre ++ (b ++ (c.text ++ [' ', '|']))).length, u⟩ := by
  obtain ⟨hword, hint⟩ := scan_oid_crit (r := r) hcmds hb (by simp [hr])
  have hvalue : ∀ pos, scanValue cmds (cmds.length - (c.tail ++ r).length) pos =
      some (c.valueText, cmds.length - r.length) := fun pos =>
    scanValue_eq (s := pre ++ (b ++ c.front)) (by simp [hcmds, Written.text_eq]) (Or.inr ⟨rest, hr⟩)
  have hdrop : cmds.drop (cmds.length - r.length) = r :=
    drop_shift (pre ++ (b ++ c.text)) (by simp [hcmds])
  have hchar : scanChar r = some ('|', ' ' :: rest) := by
    rw [hr]
    exact scanChar_eq isSpace_blank (by decide)
  have hin : ¬ cmds.length < cmds.length - r.length := by
    omega
  have hshift : cmds.length - (' ' :: rest).length =
      (pre ++ (b ++ (c.text ++ [' ', '|']))).length := by
    simp [hcmds, hr]
    omega
  rw [genericLoop, if_neg (shift_lt hcmds hg), hg]
  simp only [hword, hint, if_neg (oid_fits c), if_neg (not_not.mpr hfit), hvalue, if_neg hin, hdrop,
    hchar, hshift]
  exact ⟨_, rfl⟩

lemma genericLoop_last (hr : r = []) (hval : c.value.isSome) (hfit : fitsInt c.crit) :
    ∃ u, genericLoop cmds (n + 1) g = some ⟨g.nb, g.ctrls ++ [c.stored], cmds.length, u⟩ := by
  obtain ⟨hword, hint⟩ := scan_oid_crit (r := r) hcmds hb (by simp [hr])
  have hvalue : ∀ pos, scanValue cmds (cmds.length - (c.tail ++ r).length) pos =
      some (c.valueText, cmds.length) := fun pos => by
    rw [scanValue_eq (s := pre ++ (b ++ c.front)) (by simp [hcmds, Written.text_eq])
      (Or.inl ⟨hr, hval⟩), hr, List.length_nil, Nat.sub_zero]
  rw [genericLoop, if_neg (shift_lt hcmds hg), hg]
  simp only [hword, hint, if_neg (oid_fits c), if_neg (not_not.mpr hfit), hvalue, lt_irrefl, if_false,
    List.drop_length, scanChar_nil]
  exact ⟨_, rfl⟩

lemma genericLoop_last_none (hr : r = []) (hval : c.value = none) (hfit : fitsInt c.crit) :
    genericLoop cmds (n + 1) g = none := by
  obtain ⟨hword, hint⟩ := scan_oid_crit (r := r) hcmds hb (by simp [hr])
  have htail : c.tail ++ r = [] := by
    simp [Written.tail, hval, hr]
  rw [htail] at hword hint
  have hpos : 0 < (cmds.drop pre.length).length := by
    simp [hcmds, Written.text]
  have hvalue : scanValue cmds cmds.length (cmds.drop pre.length).length =
      some ([], cmds.length + (cmds.drop pre.length).length) := by
    simp [scanValue, scanWord_nil]
  have hout : cmds.length < cmds.length + (cmds.drop pre.length).length := by
    omega
  rw [genericLoop, if_neg (shift_lt hcmds hg), hg]
  simp only [hword, hint, if_neg (oid_fits c), if_neg (not_not.mpr hfit), List.length_nil,
    Nat.sub_zero, hvalue, if_pos hout]

end Turn

def Readable (cs : List Written) : Prop :=
  (∀ c ∈ cs, fitsInt c.crit) ∧ ∃ c ∈ cs.getLast?, c.value.isSome

lemma genericLoop_print (pre b : Text) (c : Written) (cs : List Written) (hn : cs.length < n)
    (hcmds : cmds = pre ++ (b ++ " | ".toList.intercalate ((c :: cs).map Written.text)))
    (hb : ∀ c ∈ b, isSpace c) (hg : g.shift = pre.length) :
    (Readable (c :: cs) → ∃ u, genericLoop cmds n g =
      some ⟨g.nb + cs.length, g.ctrls ++ (c :: cs).map Written.stored, cmds.length, u⟩) ∧
    (¬ Readable (c :: cs) → genericLoop cmds n g = none) := by
  induction cs generalizing c n pre b g with
  | nil =>
    obtain ⟨n, rfl⟩ : ∃ m, n = m + 1 := ⟨n - 1, by simp at hn; omega⟩
    replace hcmds : cmds = pre ++ (b ++ (c.text ++ [])) := by simpa using hcmds
    by_cases hfit : fitsInt c.crit
    · cases hval : c.value with
      | none => simp [Readable, hval, genericLoop_last_none hcmds hb hg rfl hval hfit]
      | some v =>
        have hlast := genericLoop_last (n := n) hcmds hb hg rfl (by simp [hval]) hfit
        simp [Readable, hval, hfit, hlast]
    · simp [Readable, hfit, genericLoop_unfit hcmds hb hg (by simp) hfit]
  | cons d cs ih =>
    obtain ⟨n, rfl⟩ : ∃ m, n = m + 1 := ⟨n - 1, by simp at hn; omega⟩
    have hsplit : " | ".toList.intercalate ((c :: d :: cs).map Written.text) =
        c.text ++ ' ' :: '|' :: ' ' :: " | ".toList.intercalate ((d :: cs).map Written.text) := by
      simp
    rw [hsplit] at hcmds
    have hread : Readable (c :: d :: cs) ↔ fitsInt c.crit ∧ Readable (d :: cs) := by
      simp [Readable, and_assoc]
    by_cases hfit : fitsInt c.crit
    · obtain ⟨u, hnext⟩ := genericLoop_next (n := n) hcmds hb hg rfl hfit
      have hrest := ih (n := n)
        (g := ⟨g.nb + 1, g.ctrls ++ [c.stored], (pre ++ (b ++ (c.text ++ [' ', '|']))).length, u⟩)
        (pre ++ (b ++ (c.text ++ [' ', '|']))) [' '] d
        (by simpa using hn) (by simp [hcmds]) isSpace_blank rfl
      rw [hread, hnext]
      simpa [hfit, Nat.add_assoc, Nat.add_comm 1] using hrest
    · have hnone := genericLoop_unfit (n := n) hcmds hb hg (by simp) hfit
      simp [hread, hfit, hnone]

end Loop

lemma stored_eq_iff (c : Written) : c.stored = c.control ↔ -128 ≤ c.crit ∧ c.crit ≤ 127 := by
  simp only [Written.stored, Written.control, Control.mk.injEq, true_and]
  rw [Int.bmod_eq_iff (by decide)]
  omega

/-- A printed list of one to four controls is read back exactly if its last control has a value and
every criticality is the value of a `char`. -/
theorem controls_read_back_iff (cs : List Written) (hne : cs ≠ []) (hlen : cs.length ≤ 4) :
    (∃ unLimitSize, tExecBuildCtrlGeneric (printControls cs) =
      some ⟨cs.length, cs.map Written.control, (printControls cs).length, unLimitSize⟩) ↔
      (∃ c ∈ cs.getLast?, c.value.isSome) ∧ ∀ c ∈ cs, -128 ≤ c.crit ∧ c.crit ≤ 127 := by
  cases cs with
  | nil => exact absurd rfl hne
  | cons c cs =>
    have hgen : tExecBuildCtrlGeneric (printControls (c :: cs)) =
        genericLoop (printControls (c :: cs)) 4 ⟨1, [], keywdLdapControl.length, false⟩ := by
      rw [tExecBuildCtrlGeneric, if_pos (by simp [printControls])]
    obtain ⟨hsome, hnone⟩ := genericLoop_print (n := 4)
      (g := ⟨1, [], keywdLdapControl.length, false⟩) keywdLdapControl [] c cs (by simpa using hlen)
      (rfl : printControls (c :: cs) = _) (by simp) rfl
    have hstored : (c :: cs).map Written.stored = (c :: cs).map Written.control ↔
        ∀ d ∈ c :: cs, -128 ≤ d.crit ∧ d.crit ≤ 127 := by
      rw [List.map_inj_left]
      exact forall₂_congr fun d _ => stored_eq_iff d
    rw [hgen, ← hstored]
    by_cases hread : Readable (c :: cs)
    · obtain ⟨u, hu⟩ := hsome hread
      rw [hu, and_iff_right hread.2]
      simp [Nat.add_comm 1]
    · rw [hnone hread, hstored]
      simp only [reduceCtorEq, exists_false, false_iff]
      rintro ⟨hlast, hrange⟩
      refine hread ⟨fun d hd => ?_, hlast⟩
      have := hrange d hd
      constructor <;> omega

lemma no_space_of_all {t : Text} (h : t.all (!isSpace ·)) : ∀ c ∈ t, isSpace c = false := by
  simpa using h

def Word.ofText {n : ℕ} (t : Text) (hne : t ≠ []) (h : t.all (!isSpace ·)) (hlen : t.length ≤ n) :
    Word n := ⟨t, hne, no_space_of_all h, hlen⟩

/-- ` 1.2.840 1`, without value -/
def sortControl : Written where
  oid := .ofText "1.2.840".toList (by decide) (by decide) (by decide)
  crit := 1
  value := none
  value_start := by simp

/-- ` 1.3.6 0 on` -/
def sizeControl : Written where
  oid := .ofText "1.3.6".toList (by decide) (by decide) (by decide)
  crit := 0
  value := some (.ofText "on".toList (by decide) (by decide) (by decide))
  value_start := by simp [Word.ofText]

/-- The only control has no value: the text is left. -/
theorem last_without_value_lost :
    printControls [sortControl] = "_LDAPCTRL_ 1.2.840 1".toList ∧
      tExecBuildCtrlGeneric "_LDAPCTRL_ 1.2.840 1".toList = none := by
  decide +kernel

theorem two_controls_read_back :
    ∃ unLimitSize, tExecBuildCtrlGeneric "_LDAPCTRL_ 1.2.840 1 |  1.3.6 0 on".toList =
      some ⟨2, [⟨"1.2.840".toList, [], 1⟩, ⟨"1.3.6".toList, "on".toList, 0⟩], 34, unLimitSize⟩ :=
  (controls_read_back_iff [sortControl, sizeControl] (by simp) (by simp)).mpr
    ⟨⟨sizeControl, rfl, rfl⟩, by simp [sortControl, sizeControl]⟩

end LdapTgen.LdapControls
