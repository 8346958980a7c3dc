import LdapTgen.GenericControls

/-! Any text as a list of generic controls. The loop of `tExecBuildCtrl_Generic` returns the number of
controls that it stored, and leaves the position inside of the text, only if it ends right behind a
control: there are four ways out of it, and three of them have counted one control too many. -/
namespace LdapTgen.LdapControls

/-- `sscanf` of `%s %d`: the OID, the criticality and the text behind them. -/
def scanHead (t : Text) : Option (Text × ℤ × Text) := do
  let (oid, u) ← scanWord t
  let (critic, v) ← scanInt u
  some (oid, critic, v)

def FitsHead (oid : Text) (critic : ℤ) : Prop := oid.length ≤ 31 ∧ fitsInt critic

/-- A text of at most `n` controls that ends right behind the last one: behind its value, or without a
value in as many blanks as the control before them has characters. -/
inductive WellEnded : ℕ → Text → Prop
  | value {n : ℕ} {t oid v w rest : Text} {critic : ℤ} :
      scanHead t = some (oid, critic, v) → FitsHead oid critic → scanWord v = some (w, rest) →
      w.length ≤ 127 → w.head? ≠ some '|' → (∀ r, scanChar rest ≠ some ('|', r)) → WellEnded (n + 1) t
  | blanks {n : ℕ} {t oid v : Text} {critic : ℤ} :
      scanHead t = some (oid, critic, v) → FitsHead oid critic → scanWord v = none →
      t.length - v.length ≤ v.length → WellEnded (n + 1) t
  | nextValue {n : ℕ} {t oid v w rest r : Text} {critic : ℤ} :
      scanHead t = some (oid, critic, v) → FitsHead oid critic → scanWord v = some (w, rest) →
      w.length ≤ 127 → w.head? ≠ some '|' → scanChar rest = some ('|', r) → WellEnded n r →
      WellEnded (n + 1) t
  | next {n : ℕ} {t oid v w rest r : Text} {critic : ℤ} :
      scanHead t = some (oid, critic, v) → FitsHead oid critic → scanWord v = some (w, rest) →
      w.length ≤ 127 → w.head? = some '|' → scanChar v = some ('|', r) → WellEnded n r →
      WellEnded (n + 1) t

section Scan
variable {t u v w rest r : Text} {c : Char} {critic : ℤ}

lemma scanWord_suffix (h : scanWord t = some (w, rest)) : rest <:+ t := by
  rw [scanWord] at h
  split at h
  · cases h
  · cases h
    exact (List.dropWhile_suffix _).trans (List.dropWhile_suffix _)

lemma scanChar_suffix (h : scanChar t = some (c, rest)) : rest <:+ t := by
  rw [scanChar] at h
  split at h
  · cases h
  next heq =>
    cases h
    have hs := List.dropWhile_suffix isSpace (l := t)
    rw [heq] at hs
    exact (List.suffix_cons _ _).trans hs

lemma scanInt_suffix (h : scanInt u = some (critic, v)) : v <:+ u := by
  have hs : u.dropWhile isSpace <:+ u := List.dropWhile_suffix _
  rw [scanInt] at h
  simp only at h
  split at h
  · cases h
  · cases h
    refine (List.dropWhile_suffix _).trans ?_
    split
    next hu => exact (List.suffix_cons _ _).trans (hu ▸ hs)
    next hu => exact (List.suffix_cons _ _).trans (hu ▸ hs)
    next => exact hs

lemma scanHead_eq_some {oid : Text} : scanHead t = some (oid, critic, v) ↔
    ∃ u, scanWord t = some (oid, u) ∧ scanInt u = some (critic, v) := by
  simp only [scanHead, Option.bind_eq_bind, Option.bind_eq_some_iff]
  constructor
  · rintro ⟨⟨o, u⟩, hword, ⟨k, v'⟩, hint, hpair⟩
    cases hpair
    exact ⟨u, hword, hint⟩
  · rintro ⟨u, hword, hint⟩
    exact ⟨_, hword, _, hint, rfl⟩

lemma scanHead_suffix {oid : Text} (h : scanHead t = some (oid, critic, v)) : v <:+ t := by
  obtain ⟨u, hword, hint⟩ := scanHead_eq_some.mp h
  exact (scanInt_suffix hint).trans (scanWord_suffix hword)

lemma scanChar_of_word (h : scanWord v = some (w, rest)) (hw : w.head? = some c) :
    ∃ r, scanChar v = some (c, r) := by
  have hhead := List.head?_dropWhile_not isSpace v
  cases hu : v.dropWhile isSpace with
  | nil => simp [scanWord, hu] at h
  | cons d u =>
    have hd : isSpace d = false := by simpa [hu] using hhead
    have hword : d :: u.takeWhile (!isSpace ·) = w := by
      simp [scanWord, hu, hd] at h
      exact h.1
    obtain rfl : d = c := by simpa [← hword] using hw
    exact ⟨u, by simp [scanChar, hu]⟩

lemma scanChar_blank (h : scanWord v = none) (hr : r <:+ v) : scanChar r = none := by
  have hv : ∀ c ∈ v, isSpace c := by
    rw [scanWord] at h
    split at h
    next hu => exact List.dropWhile_eq_nil_iff.mp hu
    next => cases h
  have hblank : r.dropWhile isSpace = [] := List.dropWhile_eq_nil_iff.mpr fun c hc => hv c (hr.subset hc)
  simp [scanChar, hblank]

end Scan

/-- The result counts the controls, and the position is inside of the text. -/
def Counted (cmds : Text) (result : Option Generic) : Prop :=
  ∃ g, result = some g ∧ g.shift ≤ cmds.length ∧ g.nb = g.ctrls.length

section Loop
variable {cmds oid v : Text} {critic : ℤ} {n : ℕ} {g : Generic}

lemma drop_suffix {t : Text} (h : t <:+ cmds) : cmds.drop (cmds.length - t.length) = t := by
  obtain ⟨pre, hpre⟩ := h
  exact drop_shift pre hpre.symm

def turnEnd (cmds : Text) (n : ℕ) (g : Generic) (value : Text) (shift : ℕ) (oid : Text) (critic : ℤ)
    (unLimitSize : Bool) : Option Generic :=
  if cmds.length < shift then none
  else
    match scanChar (cmds.drop shift) with
    | some ('|', rest) =>
        genericLoop cmds n ⟨g.nb + 1, g.ctrls ++ [⟨oid, value, critic.bmod 256⟩],
          cmds.length - rest.length, unLimitSize⟩
    | _ => some ⟨g.nb, g.ctrls ++ [⟨oid, value, critic.bmod 256⟩], shift, unLimitSize⟩

lemma genericLoop_head (hlt : g.shift < cmds.length)
    (hhead : scanHead (cmds.drop g.shift) = some (oid, critic, v)) (hfits : FitsHead oid critic) :
    ∃ unLimitSize, genericLoop cmds (n + 1) g =
      (scanValue cmds (cmds.length - v.length) ((cmds.drop g.shift).length - v.length)).bind fun r =>
        turnEnd cmds n g r.1 r.2 oid critic unLimitSize := by
  obtain ⟨u, hword, hint⟩ := scanHead_eq_some.mp hhead
  refine ⟨g.unLimitSize || ldapControlCountEntries.isPrefixOf (cmds.drop g.shift), ?_⟩
  rw [genericLoop, if_neg (by omega)]
  have hlen : ¬ 31 < oid.length := by
    have := hfits.1
    omega
  simp only [hword, hint, if_neg hlen, if_neg (not_not.mpr hfits.2)]
  cases hval : scanValue cmds (cmds.length - v.length) ((cmds.drop g.shift).length - v.length) with
  | none => rfl
  | some r => rfl

lemma not_counted_none : ¬ Counted cmds none := by
  rintro ⟨g, hg, -⟩
  cases hg

lemma genericLoop_no_head
    (h : ∀ oid critic v, scanHead (cmds.drop g.shift) = some (oid, critic, v) → ¬ FitsHead oid critic) :
    genericLoop cmds (n + 1) g = some g ∨ genericLoop cmds (n + 1) g = none := by
  rw [genericLoop]
  by_cases hlt : cmds.length ≤ g.shift
  · exact .inl (if_pos hlt)
  rw [if_neg hlt]
  cases hword : scanWord (cmds.drop g.shift) with
  | none => simp only [hword, true_or]
  | some w =>
    obtain ⟨oid, u⟩ := w
    by_cases hlen : 31 < oid.length
    · simp only [hword, if_pos hlen, or_true]
    cases hint : scanInt u with
    | none => simp only [hword, if_neg hlen, hint, true_or]
    | some k =>
      obtain ⟨critic, v⟩ := k
      have hfits := h oid critic v (scanHead_eq_some.mpr ⟨u, hword, hint⟩)
      have hunfit : ¬ fitsInt critic := fun hfit => hfits ⟨by omega, hfit⟩
      simp only [hword, if_neg hlen, hint, if_pos hunfit, or_true]

lemma not_counted_of_head (hnb : g.nb = g.ctrls.length + 1)
    (h : ∀ oid critic v, scanHead (cmds.drop g.shift) = some (oid, critic, v) → ¬ FitsHead oid critic) :
    ¬ Counted cmds (genericLoop cmds (n + 1) g) := by
  rcases genericLoop_no_head (n := n) h with hg | hg
  · rw [hg]
    rintro ⟨g', hg', -, hcount⟩
    cases hg'
    omega
  · rw [hg]
    exact not_counted_none

lemma WellEnded.exists_head {t : Text} (h : WellEnded (n + 1) t) :
    ∃ oid critic v, scanHead t = some (oid, critic, v) ∧ FitsHead oid critic := by
  cases h with
  | value hhead hfits => exact ⟨_, _, _, hhead, hfits⟩
  | blanks hhead hfits => exact ⟨_, _, _, hhead, hfits⟩
  | nextValue hhead hfits => exact ⟨_, _, _, hhead, hfits⟩
  | next hhead hfits => exact ⟨_, _, _, hhead, hfits⟩

lemma WellEnded.iff_of_head {t : Text} (hhead : scanHead t = some (oid, critic, v))
    (hfits : FitsHead oid critic) : WellEnded (n + 1) t ↔
      (scanWord v = none ∧ t.length - v.length ≤ v.length) ∨
      ∃ w rest, scanWord v = some (w, rest) ∧ w.length ≤ 127 ∧
        ((w.head? ≠ some '|' ∧ ((∀ r, scanChar rest ≠ some ('|', r)) ∨
          ∃ r, scanChar rest = some ('|', r) ∧ WellEnded n r)) ∨
        (w.head? = some '|' ∧ ∃ r, scanChar v = some ('|', r) ∧ WellEnded n r)) := by
  constructor
  · intro h
    cases h with
    | value hhead' _ hword hlen hstart hlast =>
      cases hhead.symm.trans hhead'
      exact .inr ⟨_, _, hword, hlen, .inl ⟨hstart, .inl hlast⟩⟩
    | blanks hhead' _ hnone hroom =>
      cases hhead.symm.trans hhead'
      exact .inl ⟨hnone, hroom⟩
    | nextValue hhead' _ hword hlen hstart hbar hnext =>
      cases hhead.symm.trans hhead'
      exact .inr ⟨_, _, hword, hlen, .inl ⟨hstart, .inr ⟨_, hbar, hnext⟩⟩⟩
    | next hhead' _ hword hlen hstart hbar hnext =>
      cases hhead.symm.trans hhead'
      exact .inr ⟨_, _, hword, hlen, .inr ⟨hstart, _, hbar, hnext⟩⟩
  · rintro (⟨hnone, hroom⟩ | ⟨w, rest, hword, hlen, ⟨hstart, hlast | ⟨r, hbar, hnext⟩⟩ |
      ⟨hstart, r, hbar, hnext⟩⟩)
    · exact .blanks hhead hfits hnone hroom
    · exact .value hhead hfits hword hlen hstart hlast
    · exact .nextValue hhead hfits hword hlen hstart hbar hnext
    · exact .next hhead hfits hword hlen hstart hbar hnext

lemma turnEnd_bar {value r : Text} {shift : ℕ} {unLimitSize : Bool} (hshift : shift ≤ cmds.length)
    (hbar : scanChar (cmds.drop shift) = some ('|', r)) :
    turnEnd cmds n g value shift oid critic unLimitSize =
      genericLoop cmds n ⟨g.nb + 1, g.ctrls ++ [⟨oid, value, critic.bmod 256⟩],
        cmds.length - r.length, unLimitSize⟩ := by
  have hin : ¬ cmds.length < shift := by omega
  simp only [turnEnd, if_neg hin, hbar]

lemma turnEnd_last {value : Text} {shift : ℕ} {unLimitSize : Bool} (hshift : shift ≤ cmds.length)
    (hnb : g.nb = g.ctrls.length + 1) (hlast : ∀ r, scanChar (cmds.drop shift) ≠ some ('|', r)) :
    Counted cmds (turnEnd cmds n g value shift oid critic unLimitSize) := by
  refine ⟨⟨g.nb, g.ctrls ++ [⟨oid, value, critic.bmod 256⟩], shift, unLimitSize⟩, ?_, hshift, ?_⟩
  · rw [turnEnd, if_neg (by omega)]
    split
    next r hbar => exact absurd hbar (hlast r)
    next => rfl
  · simp [hnb]

lemma counted_next_iff {rest r value : Text} {unLimitSize : Bool} (hnb : g.nb = g.ctrls.length + 1)
    (hrec : ∀ {g : Generic}, g.nb = g.ctrls.length + 1 → g.shift ≤ cmds.length →
      (Counted cmds (genericLoop cmds n g) ↔ WellEnded n (cmds.drop g.shift)))
    (hrest : rest <:+ cmds) (hbar : scanChar rest = some ('|', r)) :
    Counted cmds (turnEnd cmds n g value (cmds.length - rest.length) oid critic unLimitSize) ↔
      WellEnded n r := by
  have hr : r <:+ cmds := (scanChar_suffix hbar).trans hrest
  rw [turnEnd_bar (Nat.sub_le _ _) (by rw [drop_suffix hrest, hbar]),
    hrec (by simp [hnb]) (Nat.sub_le _ _), drop_suffix hr]

lemma counted_turn_iff (hnb : g.nb = g.ctrls.length + 1)
    (hhead : scanHead (cmds.drop g.shift) = some (oid, critic, v)) (hfits : FitsHead oid critic)
    (hrec : ∀ {g : Generic}, g.nb = g.ctrls.length + 1 → g.shift ≤ cmds.length →
      (Counted cmds (genericLoop cmds n g) ↔ WellEnded n (cmds.drop g.shift))) :
    Counted cmds (genericLoop cmds (n + 1) g) ↔ WellEnded (n + 1) (cmds.drop g.shift) := by
  have hv : v <:+ cmds := (scanHead_suffix hhead).trans (List.drop_suffix _ _)
  have hvlen := hv.length_le
  have hlt : g.shift < cmds.length := by
    by_contra hge
    rw [List.drop_eq_nil_of_le (by omega)] at hhead
    cases hhead
  obtain ⟨unLimitSize, hloop⟩ := genericLoop_head (n := n) hlt hhead hfits
  rw [hloop, WellEnded.iff_of_head hhead hfits, scanValue, drop_suffix hv]
  cases hword : scanWord v with
  | none =>
    simp only [Option.bind_some, true_and, reduceCtorEq, false_and, exists_false, or_false]
    constructor
    · rintro ⟨g', hg', -⟩
      by_contra hroom
      rw [turnEnd, if_pos (by omega)] at hg'
      cases hg'
    · intro hroom
      refine turnEnd_last (by omega) hnb fun r => ?_
      rw [← List.drop_drop, drop_suffix hv, scanChar_blank hword (List.drop_suffix _ _)]
      simp
  | some p =>
    obtain ⟨w, rest⟩ := p
    have hrest : rest <:+ cmds := (scanWord_suffix hword).trans hv
    simp only [reduceCtorEq, false_and, false_or, Option.some.injEq, Prod.mk.injEq]
    by_cases hlen : 127 < w.length
    · rw [if_pos hlen]
      refine iff_of_false not_counted_none ?_
      rintro ⟨_, _, ⟨rfl, rfl⟩, hle, -⟩
      omega
    · by_cases hstart : w.head? = some '|'
      · obtain ⟨r, hbar⟩ := scanChar_of_word hword hstart
        rw [if_neg hlen, if_pos hstart, Option.bind_some,
          counted_next_iff hnb hrec hv hbar]
        simp [hstart, hbar, Nat.not_lt.mp hlen]
      · rw [if_neg hlen, if_neg hstart, Option.bind_some]
        by_cases hlast : ∀ r, scanChar rest ≠ some ('|', r)
        · refine iff_of_true (turnEnd_last (Nat.sub_le _ _) hnb ?_)
            ⟨w, rest, ⟨rfl, rfl⟩, Nat.not_lt.mp hlen, .inl ⟨hstart, .inl hlast⟩⟩
          rwa [drop_suffix hrest]
        · obtain ⟨r, hbar⟩ : ∃ r, scanChar rest = some ('|', r) := by simpa using hlast
          rw [counted_next_iff hnb hrec hrest hbar]
          simp [hstart, hbar, Nat.not_lt.mp hlen]

lemma counted_loop_iff (hnb : g.nb = g.ctrls.length + 1) (hshift : g.shift ≤ cmds.length) :
    Counted cmds (genericLoop cmds n g) ↔ WellEnded n (cmds.drop g.shift) := by
  induction n generalizing g with
  | zero =>
    constructor
    · rintro ⟨g', hg', -, hcount⟩
      cases hg'
      omega
    · intro h
      cases h
  | succ n ih =>
    by_cases hfit : ∃ oid critic v, scanHead (cmds.drop g.shift) = some (oid, critic, v) ∧
        FitsHead oid critic
    · obtain ⟨oid, critic, v, hhead, hfits⟩ := hfit
      exact counted_turn_iff hnb hhead hfits ih
    · refine iff_of_false (not_counted_of_head hnb ?_) fun h => hfit h.exists_head
      exact fun oid critic v hhead hfits => hfit ⟨oid, critic, v, hhead, hfits⟩

end Loop

/-- For any commands, the position stays inside of the text and the result is the number of controls
stored exactly when there is no list of controls, or the list ends well. -/
theorem generic_counted_iff (cmds : Text) :
    Counted cmds (tExecBuildCtrlGeneric cmds) ↔
      ¬ keywdLdapControl <+: cmds ∨ WellEnded 4 (cmds.drop keywdLdapControl.length) := by
  rw [tExecBuildCtrlGeneric]
  by_cases hkey : keywdLdapControl <+: cmds
  · rw [if_pos (List.isPrefixOf_iff_prefix.mpr hkey), counted_loop_iff rfl hkey.length_le]
    simp [hkey]
  · rw [if_neg (by simpa using hkey)]
    exact iff_of_true ⟨_, rfl, Nat.zero_le _, rfl⟩ (.inl hkey)

/-- A last control without a value, a list without controls, and a bar at the end of the list. -/
theorem generic_not_counted :
    tExecBuildCtrlGeneric "_LDAPCTRL_ 1.2.840 1".toList = none ∧
    tExecBuildCtrlGeneric "_LDAPCTRL_".toList = some ⟨1, [], 10, false⟩ ∧
    tExecBuildCtrlGeneric "_LDAPCTRL_ 1.2 1 a |".toList =
      some ⟨2, [⟨"1.2".toList, ['a'], 1⟩], 20, false⟩ := by
  decide

end LdapTgen.LdapControls
