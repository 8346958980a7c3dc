import LdapTgen.CString
import LdapTgen.LdapControls

/-! The controls of UMA with their values: the parameters behind the keyword, the value that is put
together from them, the draws and the clock, and the array that should hold the control. The array is a
pointer that starts as null, so that no control is ever stored. -/
namespace LdapTgen.UmaControls
open CString LdapControls

def ldapControlScrubbing : Text := "1.1.2.3.1.1001".toList
def ldapAddImsiIfNotExist : Text := "1.1.2.3.1.1002".toList
def ldapControlIhlr : Text := "1.1.2.3.1.1004".toList
def ldapControlScrubbing2 : Text := "1.1.2.3.1.1005".toList
def ihlrRegistrationDataSize : ℕ := 25

/-- What the call finds beside the commands: the IMSI of the user, the results of `rand` in their order,
the clock with its width in bytes, what `sprintf` makes of a pattern and a number, and the strings that the
stack holds in the arrays of the function. -/
structure Env where
  imsi : Option Text
  rand1 : ℕ
  rand2 : ℕ
  time : ℕ
  timeSize : ℕ
  sprintf : Text → ℤ → Option Text
  stackOid : Text
  stackValue : Text

/-- A number in memory, `size` bytes from the lowest one. -/
def bytesOf : ℕ → ℕ → Text
  | 0, _ => []
  | size + 1, n => Char.ofNat (n % 256) :: bytesOf size (n / 256)

def revertBytes (tab : Text) : Text := tab.reverse

/-- The binary record of `_IHLR_` as it is written: timestamp, status, addresses, indicators, and the MAC
as a number of eight bytes. -/
def registrationData (e : Env) : Text :=
  revertBytes (bytesOf e.timeSize e.time) ++ Char.ofNat (e.rand2 % 2) ::
    (bytesOf 4 0x12344423 ++ (bytesOf 4 0x22334523 ++ (bytesOf 4 0xFFFFFFFF ++
      Char.ofNat 1 :: Char.ofNat 2 :: bytesOf 8 0x4523FFFFFFFF)))

/-- `sscanf` of `%d %s` into a word of 200 characters; the inner result tells if both were read. -/
def scanPair (t : Text) : Option (Option (ℤ × Text × Text)) :=
  match scanInt t with
  | none => some none
  | some (nb, u) =>
      if ¬ fitsInt nb then none
      else
        match scanWord u with
        | none => some none
        | some (pattern, v) => if 200 ≤ pattern.length then none else some (some (nb, pattern, v))

/-- A name of the pattern with a number drawn below `nb`. -/
def drawName (e : Env) (pattern : Text) (nb : ℤ) (rand : ℕ) : Option Text := do
  if nb = 0 then none
  else
    let modified ← e.sprintf pattern ((rand : ℤ).tmod nb)
    if 200 ≤ modified.length then none else some modified

structure Locals where
  ctrlOID : Text
  ctrlValue : Text
  ctrlvaluelength : ℕ
  pos : ℕ

def Env.unset (e : Env) : Locals := ⟨e.stackOid, e.stackValue, 0, 0⟩

/-- The conversion `%n` at the end of the format, behind the blanks. -/
def scanPos (t rest : Text) : ℕ := t.length - (rest.dropWhile isSpace).length

def ihlr (e : Env) (t : Text) : Option Locals := do
  match ← scanPair t with
  | none => some e.unset
  | some (nbSubscribersInTest, subImsiPattern, rest) =>
      let imsiModified ← drawName e subImsiPattern nbSubscribersInTest e.rand1
      let ctrlvaluelength := ihlrRegistrationDataSize + "IMSI=".length + ",registrationData=".length +
        imsiModified.length
      let buf := "IMSI=".toList ++ (imsiModified ++ (",registrationData=".toList ++ registrationData e))
      if 128 < ctrlvaluelength then none
      else some ⟨ldapControlIhlr, buf.take ctrlvaluelength, ctrlvaluelength, scanPos t rest⟩

/-- The two controls of scrubbing, by their OID and what ends their value. -/
def scrubbingWith (ctrlOID ending : Text) (e : Env) (t : Text) : Option Locals := do
  match ← scanPair t with
  | none => some e.unset
  | some (nbAPInTest, apPattern, u) =>
      match ← scanPair u with
      | none => some e.unset
      | some (nbCGIInTest, cgiPattern, rest) =>
          let apModified ← drawName e apPattern nbAPInTest e.rand1
          let cgiModified ← drawName e cgiPattern nbCGIInTest e.rand2
          let buf := "MAC=".toList ++ (apModified ++ (",CGIRule=".toList ++ (cgiModified ++ ending)))
          if 128 ≤ buf.length then none else some ⟨ctrlOID, buf, 0, scanPos t rest⟩

def scrubbing : Env → Text → Option Locals := scrubbingWith ldapControlScrubbing []

def dynamicScrubbing : Env → Text → Option Locals :=
  scrubbingWith ldapControlScrubbing2 ",SSID=nom_reseau_radio".toList

def cotf (e : Env) : Locals := ⟨ldapAddImsiIfNotExist, e.stackValue, 0, 0⟩

/-- The keyword, the variables and `*waitForRc`; nothing inside without a keyword. -/
def readControl (e : Env) (cmds : Text) : Option (Option (Text × Locals × ℤ)) :=
  if keywdIhlr.isPrefixOf cmds then
    (ihlr e (cmds.drop keywdIhlr.length)).map fun l => some (keywdIhlr, l, ldapSuccess)
  else if keywdScrubbing.isPrefixOf cmds then
    (scrubbing e (cmds.drop keywdScrubbing.length)).map fun l => some (keywdScrubbing, l, ldapSuccess)
  else if keywdDynamicScrubbing.isPrefixOf cmds then
    (dynamicScrubbing e (cmds.drop keywdDynamicScrubbing.length)).map fun l =>
      some (keywdDynamicScrubbing, l, ldapSuccess)
  else if keywdCotf.isPrefixOf cmds then some (some (keywdCotf, cotf e, cotfWaitForRc e.imsi))
  else some none

/-- A control in memory: `strdup` copies the value up to its first null. -/
structure Stored where
  ldctlOid : Text
  bvVal : Text
  bvLen : ℕ
  deriving DecidableEq

abbrev Ctrls := Option (List (Option Stored))

/-- `ctrls[0] = c` -/
def setFirst (ctrls : Ctrls) (c : Stored) : Option Ctrls := ctrls.map fun cs => some (cs.set 0 (some c))

/-- `LDAPControl **ctrls = { NULL, NULL }`: a pointer takes the first value. -/
def noControls : Ctrls := none

structure Uma where
  ret : ℕ
  sctrl : Ctrls
  waitForRc : ℤ
  shift : ℕ

def Locals.control (l : Locals) : Stored :=
  let strlen := (l.ctrlValue.takeWhile (· != nul)).length
  ⟨l.ctrlOID, l.ctrlValue.takeWhile (· != nul),
    if l.ctrlvaluelength = 0 then strlen else l.ctrlvaluelength⟩

/-- `*shift` behind the keyword and its parameters. -/
def shiftBehind (keywd : Text) (pos : ℕ) : ℕ := keywd.length + if pos = 0 then 0 else pos + 1

/-- `tExecBuildCtrl_UMA` with its values. -/
def tExecBuildCtrlUMAValue (e : Env) (cmds : Text) : Option Uma := do
  match ← readControl e cmds with
  | none => some ⟨0, none, ldapSuccess, 0⟩
  | some (keywd, l, waitForRc) =>
      if l.ctrlOID = [] then some ⟨0, noControls, waitForRc, shiftBehind keywd l.pos⟩
      else some ⟨1, ← setFirst noControls l.control, waitForRc, shiftBehind keywd l.pos⟩

section Locals
variable {e : Env} {t cmds keywd : Text} {l : Locals} {waitForRc : ℤ}

lemma scanIntWord_eq_none (h : scanPair t = some none) : scanIntWord t = none := by
  rw [scanPair] at h
  cases hint : scanInt t with
  | none => simp [scanIntWord, hint]
  | some p =>
    obtain ⟨nb, u⟩ := p
    cases hword : scanWord u with
    | none => simp [scanIntWord, hint, hword]
    | some q =>
      simp only [hint, hword] at h
      split_ifs at h
      cases h

lemma scanIntWord_eq_some {nb : ℤ} {pattern u : Text} (h : scanPair t = some (some (nb, pattern, u))) :
    scanIntWord t = some u := by
  rw [scanPair] at h
  cases hint : scanInt t with
  | none => simp [hint] at h
  | some p =>
    obtain ⟨k, v⟩ := p
    cases hword : scanWord v with
    | none =>
      simp only [hint, hword] at h
      split_ifs at h
      simp at h
    | some q =>
      obtain ⟨w, x⟩ := q
      simp only [hint, hword] at h
      split_ifs at h
      cases h
      simp [scanIntWord, hint, hword]

def SetIf (complete : Bool) (e : Env) (l : Locals) : Prop :=
  l.ctrlOID ≠ [] ∨ complete = false ∧ l = e.unset

lemma ihlr_set (h : ihlr e t = some l) : SetIf (umaComplete false t) e l := by
  simp only [ihlr, Option.bind_eq_bind, Option.bind_eq_some_iff] at h
  obtain ⟨p, hp, h⟩ := h
  cases p with
  | none =>
    cases h
    exact .inr ⟨by simp [umaComplete, scanIntWord_eq_none hp], rfl⟩
  | some p =>
    simp only [Option.bind_eq_some_iff] at h
    obtain ⟨imsi, -, h⟩ := h
    split_ifs at h
    cases h
    have hoid : ldapControlIhlr ≠ [] := by decide
    exact .inl hoid

lemma scrubbingWith_set {ctrlOID ending : Text} (hoid : ctrlOID ≠ [])
    (h : scrubbingWith ctrlOID ending e t = some l) : SetIf (umaComplete true t) e l := by
  simp only [scrubbingWith, Option.bind_eq_bind, Option.bind_eq_some_iff] at h
  obtain ⟨p, hp, h⟩ := h
  cases p with
  | none =>
    cases h
    exact .inr ⟨by simp [umaComplete, scanIntWord_eq_none hp], rfl⟩
  | some p =>
    obtain ⟨nb, pattern, u⟩ := p
    simp only [Option.bind_eq_some_iff] at h
    obtain ⟨q, hq, h⟩ := h
    cases q with
    | none =>
      cases h
      exact .inr ⟨by simp [umaComplete, scanIntWord_eq_some hp, scanIntWord_eq_none hq], rfl⟩
    | some q =>
      simp only [Option.bind_eq_some_iff] at h
      obtain ⟨ap, -, cgi, -, h⟩ := h
      split_ifs at h
      cases h
      exact .inl hoid

lemma readControl_keyword (h : readControl e cmds = some (some (keywd, l, waitForRc))) :
    ∃ complete, umaKeyword cmds e.imsi = some (keywd, complete, waitForRc) ∧ SetIf complete e l := by
  rw [readControl] at h
  rw [umaKeyword]
  split_ifs at h ⊢
  · obtain ⟨l', hl, heq⟩ := Option.map_eq_some_iff.mp h
    cases heq
    exact ⟨_, rfl, ihlr_set hl⟩
  · obtain ⟨l', hl, heq⟩ := Option.map_eq_some_iff.mp h
    cases heq
    exact ⟨_, rfl, scrubbingWith_set (by decide) hl⟩
  · obtain ⟨l', hl, heq⟩ := Option.map_eq_some_iff.mp h
    cases heq
    exact ⟨_, rfl, scrubbingWith_set (by decide) hl⟩
  · cases h
    have hoid : (cotf e).ctrlOID ≠ [] := (by decide : ldapAddImsiIfNotExist ≠ [])
    exact ⟨true, rfl, .inl hoid⟩
  · cases h

lemma readControl_none (h : readControl e cmds = some none) : umaKeyword cmds e.imsi = none := by
  rw [readControl] at h
  rw [umaKeyword]
  split_ifs at h ⊢
  · obtain ⟨l, -, hl⟩ := Option.map_eq_some_iff.mp h
    cases hl
  · obtain ⟨l, -, hl⟩ := Option.map_eq_some_iff.mp h
    cases hl
  · obtain ⟨l, -, hl⟩ := Option.map_eq_some_iff.mp h
    cases hl
  · cases h
  · rfl

end Locals

lemma uma_returns {e : Env} {cmds : Text} {r : Uma} (h : tExecBuildCtrlUMAValue e cmds = some r) :
    r.ret = 0 ∧ r.sctrl = none ∧
      tExecBuildCtrlUMA cmds e.imsi (e.stackOid ≠ []) = some (r.ret, r.waitForRc, r.shift) := by
  simp only [tExecBuildCtrlUMAValue, Option.bind_eq_bind, Option.bind_eq_some_iff] at h
  obtain ⟨p, hp, h⟩ := h
  cases p with
  | none =>
    cases h
    exact ⟨rfl, rfl, by simp [tExecBuildCtrlUMA, readControl_none hp]⟩
  | some p =>
    obtain ⟨keywd, l, waitForRc⟩ := p
    obtain ⟨complete, hkey, hset⟩ := readControl_keyword hp
    simp only at h
    split_ifs at h with hoid
    · cases h
      obtain ⟨rfl, rfl⟩ := hset.resolve_left (not_not.mpr hoid)
      have hstack : e.stackOid = [] := hoid
      exact ⟨rfl, rfl, by simp [tExecBuildCtrlUMA, hkey, hstack, Env.unset, shiftBehind]⟩
    · simp [setFirst, noControls] at h

/-- A keyword with all its parameters: no control is delivered, the first one is written through a null
pointer, whatever is drawn and whatever the clock shows. -/
theorem uma_control_lost (e : Env) (cmds keywd : Text) (waitForRc : ℤ)
    (h : umaKeyword cmds e.imsi = some (keywd, true, waitForRc)) :
    tExecBuildCtrlUMAValue e cmds = none := by
  cases hr : tExecBuildCtrlUMAValue e cmds with
  | none => rfl
  | some r =>
    obtain ⟨-, -, habs⟩ := uma_returns hr
    simp [tExecBuildCtrlUMA, h] at habs

/-- A user of `_IHLR_` with a pattern that has no number in it. -/
def exampleEnv : Env where
  imsi := none
  rand1 := 7
  rand2 := 1
  time := 1700000000
  timeSize := 8
  sprintf := fun pattern _ => some pattern
  stackOid := []
  stackValue := []

theorem ihlr_lost : umaKeyword "_IHLR_ 10 2080".toList exampleEnv.imsi =
      some (keywdIhlr, true, ldapSuccess) ∧
    tExecBuildCtrlUMAValue exampleEnv "_IHLR_ 10 2080".toList = none :=
  ⟨by decide, uma_control_lost exampleEnv _ keywdIhlr ldapSuccess (by decide)⟩

/-- The variables are all set when the control is to be stored. -/
theorem cotf_and_scrubbing_lost :
    (readControl exampleEnv "_SCRUB_ 10 00:11 5 cgi".toList).map (·.map fun p => p.2.1.ctrlValue) =
      some (some "MAC=00:11,CGIRule=cgi".toList) ∧
    (tExecBuildCtrlUMAValue exampleEnv "_SCRUB_ 10 00:11 5 cgi".toList).isNone ∧
    (tExecBuildCtrlUMAValue exampleEnv "_COTF_".toList).isNone := by
  decide

end LdapTgen.UmaControls
