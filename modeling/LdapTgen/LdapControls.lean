import LdapTgen.Common

/-! The LDAP controls written in the commands of an action: `tExecBuildCtrl_UMA` and
`tExecBuildCtrl_Generic`. A text is a list of characters; a read or a write that leaves its buffer,
or goes through a null pointer, has no result. -/
namespace LdapTgen.LdapControls

abbrev Text := List Char

def isSpace (c : Char) : Bool :=
  c = ' ' ∨ c = '\t' ∨ c = '\n' ∨ c = '\r' ∨ c = '\x0b' ∨ c = '\x0c'

/-- `%s`: the next word and the text after it; nothing at the end of the text. -/
def scanWord (t : Text) : Option (Text × Text) :=
  match t.dropWhile isSpace with
  | [] => none
  | u => some (u.takeWhile (!isSpace ·), u.dropWhile (!isSpace ·))

/-- `%1s` -/
def scanChar (t : Text) : Option (Char × Text) :=
  match t.dropWhile isSpace with
  | [] => none
  | c :: u => some (c, u)

def digitsValue (ds : Text) : ℤ :=
  ds.foldl (fun v d => 10 * v + ((d.toNat : ℤ) - 48)) 0

/-- `%d` -/
def scanInt (t : Text) : Option (ℤ × Text) :=
  let u := t.dropWhile isSpace
  let (sign, v) : ℤ × Text := match u with
    | '-' :: v => (-1, v)
    | '+' :: v => (1, v)
    | v => (1, v)
  match v.takeWhile Char.isDigit with
  | [] => none
  | ds => some (sign * digitsValue ds, v.dropWhile Char.isDigit)

def keywdLdapControl : Text := "_LDAPCTRL_".toList
def keywdScrubbing : Text := "_SCRUB_".toList
def keywdIhlr : Text := "_IHLR_".toList
def keywdCotf : Text := "_COTF_".toList
def keywdDynamicScrubbing : Text := "_DYNAMICSCRUB_".toList
def ldapControlCountEntries : Text := " 1.3.6.1.4.1.637.81.2.10.9".toList

structure Control where
  oid : Text
  value : Text
  critic : ℤ
  deriving DecidableEq, Repr

/-- `sscanf` of `%d %s` -/
def scanIntWord (t : Text) : Option Text := do
  let (_, t) ← scanInt t
  let (_, t) ← scanWord t
  return t

/-- The parameters of a control of UMA are complete: a count and a pattern, once or twice. -/
def umaComplete (twice : Bool) (t : Text) : Bool :=
  (if twice then (scanIntWord t).bind scanIntWord else scanIntWord t).isSome

/-- The value `*waitForRc` of a creation on the fly: not allowed for most IMSI. -/
def cotfWaitForRc (imsi : Option Text) : ℤ :=
  match imsi with
  | some i => if i[i.length - 4]? ≠ some '1' then ldapNoSuchObject else ldapSuccess
  | none => ldapSuccess

/-- The keyword in front of the commands, whether its parameters were read, and `*waitForRc`. -/
def umaKeyword (cmds : Text) (imsi : Option Text) : Option (Text × Bool × ℤ) :=
  if keywdIhlr.isPrefixOf cmds then
    some (keywdIhlr, umaComplete false (cmds.drop keywdIhlr.length), ldapSuccess)
  else if keywdScrubbing.isPrefixOf cmds then
    some (keywdScrubbing, umaComplete true (cmds.drop keywdScrubbing.length), ldapSuccess)
  else if keywdDynamicScrubbing.isPrefixOf cmds then
    some (keywdDynamicScrubbing, umaComplete true (cmds.drop keywdDynamicScrubbing.length),
      ldapSuccess)
  else if keywdCotf.isPrefixOf cmds then some (keywdCotf, true, cotfWaitForRc imsi)
  else none

/-- Number of controls added, `*waitForRc` and `*shift`. The array of controls is a null pointer, so
a control to store, that is an OID that is not empty, ends the program. When the parameters were not
read the OID is what the stack holds: `stackOid` says whether it is not empty. -/
def tExecBuildCtrlUMA (cmds : Text) (imsi : Option Text) (stackOid : Bool) : Option (ℕ × ℤ × ℕ) :=
  match umaKeyword cmds imsi with
  | none => some (0, ldapSuccess, 0)
  | some (keywd, complete, waitForRc) =>
      if complete ∨ stackOid then none else some (0, waitForRc, keywd.length)

structure Generic where
  nb : ℕ
  ctrls : List Control
  shift : ℕ
  unLimitSize : Bool
  deriving DecidableEq, Repr

/-- The value of a control and the new shift. At the end of the text `sscanf` leaves `pos` as the
previous call set it, and the shift moves on by that. -/
def scanValue (cmds : Text) (shift pos : ℕ) : Option (Text × ℕ) :=
  match scanWord (cmds.drop shift) with
  | none => some ([], shift + pos)
  | some (w, rest) =>
      if 127 < w.length then none
      else if w.head? = some '|' then some ([], shift)
      else some (w, cmds.length - rest.length)

/-- A number that `%d` can store. -/
def fitsInt (n : ℤ) : Prop := -2 ^ 31 ≤ n ∧ n < 2 ^ 31

instance (n : ℤ) : Decidable (fitsInt n) := inferInstanceAs (Decidable (_ ∧ _))

/-- The loop over at most four controls, from the control number `g.nb`. The criticality is kept in a
`char`. The null that `%1s` writes behind `sep` is taken to fall on no variable. -/
def genericLoop (cmds : Text) : ℕ → Generic → Option Generic
  | 0, g => some g
  | n + 1, g =>
      if cmds.length ≤ g.shift then some g
      else
        let t := cmds.drop g.shift
        match scanWord t with
        | none => some g
        | some (oid, u) =>
            if 31 < oid.length then none
            else
              match scanInt u with
              | none => some g
              | some (critic, v) =>
                  if ¬ fitsInt critic then none
                  else
                    let unLimitSize := g.unLimitSize || ldapControlCountEntries.isPrefixOf t
                    match scanValue cmds (cmds.length - v.length) (t.length - v.length) with
                    | none => none
                    | some (value, shift) =>
                        let ctrls := g.ctrls ++ [⟨oid, value, critic.bmod 256⟩]
                        if cmds.length < shift then none
                        else
                          match scanChar (cmds.drop shift) with
                          | some ('|', rest) =>
                              genericLoop cmds n
                                ⟨g.nb + 1, ctrls, cmds.length - rest.length, unLimitSize⟩
                          | _ => some ⟨g.nb, ctrls, shift, unLimitSize⟩

def tExecBuildCtrlGeneric (cmds : Text) : Option Generic :=
  if keywdLdapControl.isPrefixOf cmds then
    genericLoop cmds 4 ⟨1, [], keywdLdapControl.length, false⟩
  else some ⟨0, [], 0, false⟩

/-- The controls of a search action: those of UMA, else the generic ones. -/
def searchControls (cmds : Text) (imsi : Option Text) (stackOid : Bool) : Option (Generic × ℤ) := do
  let (ret, waitForRc, shift) ← tExecBuildCtrlUMA cmds imsi stackOid
  if ret ≠ 0 then return (⟨ret, [], shift, false⟩, waitForRc)
  else return (← tExecBuildCtrlGeneric cmds, waitForRc)

lemma umaKeyword_cases {cmds keywd : Text} {imsi : Option Text} {complete : Bool} {waitForRc : ℤ}
    (h : umaKeyword cmds imsi = some (keywd, complete, waitForRc)) :
    complete = true ∨ waitForRc = ldapSuccess := by
  unfold umaKeyword at h
  split_ifs at h <;> simp_all

/-- No control of UMA can be stored: the calls that return add none and wait for success. -/
lemma tExecBuildCtrlUMA_returns {cmds : Text} {imsi : Option Text} {stackOid : Bool} {ret shift : ℕ}
    {waitForRc : ℤ} (h : tExecBuildCtrlUMA cmds imsi stackOid = some (ret, waitForRc, shift)) :
    ret = 0 ∧ waitForRc = ldapSuccess := by
  unfold tExecBuildCtrlUMA at h
  cases hk : umaKeyword cmds imsi with
  | none => simp_all
  | some k =>
    obtain ⟨keywd, complete, w⟩ := k
    simp only [hk] at h
    split_ifs at h with hc
    have hw := (umaKeyword_cases hk).resolve_left fun hcomplete => hc (.inl hcomplete)
    simp_all

lemma searchControls_returns {cmds : Text} {imsi : Option Text} {stackOid : Bool} {g : Generic}
    {waitForRc : ℤ} (h : searchControls cmds imsi stackOid = some (g, waitForRc)) :
    waitForRc = ldapSuccess ∧ tExecBuildCtrlGeneric cmds = some g := by
  simp only [searchControls, Option.bind_eq_bind, Option.bind_eq_some_iff] at h
  obtain ⟨⟨ret, w, shift⟩, huma, hrest⟩ := h
  obtain ⟨rfl, rfl⟩ := tExecBuildCtrlUMA_returns huma
  obtain ⟨g', hg, hpair⟩ : ∃ g', tExecBuildCtrlGeneric cmds = some g' ∧
      (g', ldapSuccess) = (g, waitForRc) := by
    simpa [Option.bind_eq_some_iff] using hrest
  cases hpair
  exact ⟨rfl, hg⟩

end LdapTgen.LdapControls
