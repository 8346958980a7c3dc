import LdapTgen.Common
import LdapTgen.IniDocument

/-! Loading a scenario: the section of the ini file is read key by key, and each action is cut out of
its value with `strtok`. A section in which a list of actions is written gives back the list. -/
namespace LdapTgen.ScenarioLoad
open CString Profile IniDocument

structure Action where
  requestId : RequestName
  cmds : Option (List Char)
  attrs : Option (List Char)
  deriving DecidableEq, Repr

def actionNames : List (String × RequestName) := [
  ("LDAP_Bind_Rq", .ldapBindRq),
  ("LDAP_UnBind_Rq", .ldapUnBindRq),
  ("LDAP_Search_Rq", .ldapSearchRq),
  ("LDAP_Modify_Rq", .ldapModifyRq),
  ("LDAP_Add_Rq", .ldapAddRq),
  ("LDAP_Delete_Rq", .ldapDeleteRq),
  ("RADIUS_Auth_Rq", .radiusAuthRq),
  ("RADIUS_AuthWP_Rq", .radiusAuthWPRq),
  ("RADIUS_AccessEapId_Rq", .radiusAccessEapIdRq),
  ("RADIUS_AccessEapStart_Rq", .radiusAccessEapStartRq),
  ("RADIUS_AccessEapChal_Rq", .radiusAccessEapChalRq),
  ("RADIUS_AccessEapCliErr_Rq", .radiusAccessEapCliErrRq),
  ("RADIUS_AccessEapNotif_Rq", .radiusAccessEapNotifRq),
  ("RADIUS_AccessEapFast_Rq", .radiusAccessEapFastRq),
  ("RADIUS_AccessEapTtls_Rq", .radiusAccessEapTtlsRq),
  ("RADIUS_AccessEapTls_Rq", .radiusAccessEapTlsRq),
  ("RADIUS_AccountStart_Rq", .radiusAccountStartRq),
  ("RADIUS_AccountInterim_Rq", .radiusAccountInterimRq),
  ("RADIUS_AccountStop_Rq", .radiusAccountStopRq),
  ("RADIUS_AccountOn_Rq", .radiusAccountOnRq),
  ("RADIUS_AccountOff_Rq", .radiusAccountOffRq),
  ("RADIUS_AccessEapAKAChal_Rq", .radiusAccessEapAKAChalRq),
  ("RADIUS_AccessEapAKARej_Rq", .radiusAccessEapAKARejRq),
  ("RADIUS_AccessEapAKASynfail_Rq", .radiusAccessEapAKASynfailRq),
  ("RADIUS_AccessEapAKAIdentity_Rq", .radiusAccessEapAKAIdentityRq),
  ("SCE_Wait", .sceWait),
  ("SCE_Begin", .sceBegin),
  ("SCE_End", .sceEnd)]

def tSceStringActionToEnumAction (actionName : List Char) : Option RequestName :=
  (actionNames.find? (·.1.toList = actionName)).map (·.2)

/-- `pch = strtok(..)` from the saved position, and the text at `pch`. -/
def nextToken (delim : Char) (buf : List Char) (saved : ℕ) :
    Except Fault (List Char × ℕ × Option (List Char)) :=
  match strtok delim buf saved with
  | none => .error .undefined
  | some (buf, saved, none) => .ok (buf, saved, none)
  | some (buf, saved, some pch) => do
      let text ← checked (strAt buf pch)
      .ok (buf, saved, some text)

def cmdsOf (pch : List Char) : List Char := if pch = "\\0".toList then [] else pch

def attrsOf (pch : List Char) : List Char := if pch = "\\*".toList then ['*'] else pch

/-- The two tokens behind the first parameter: what stands between the quotes, and the second one. -/
def loadAttrs (buf : List Char) (saved : ℕ) : Except Fault (Option (List Char)) := do
  let (buf, saved, pch) ← nextToken '"' buf saved
  if pch = none then .ok none
  else
    let (_, _, pch) ← nextToken '"' buf saved
    .ok (pch.map attrsOf)

def loadParams (requestId : RequestName) (buf : List Char) (saved : ℕ) : Except Fault Action := do
  let (buf, saved, pch) ← nextToken '"' buf saved
  match pch with
  | none => .ok ⟨requestId, none, none⟩
  | some pch =>
      let attrs ← loadAttrs buf saved
      .ok ⟨requestId, some (cmdsOf pch), attrs⟩

/-- The action in `param_val`; none where the loader gives up. -/
def loadAction (paramVal : List Char) : Except Fault (Option Action) := do
  let (buf, saved, pch) ← nextToken ',' (paramVal ++ [nul]) 0
  match pch.bind tSceStringActionToEnumAction with
  | none => .ok none
  | some requestId =>
      let action ← loadParams requestId buf saved
      .ok (some action)

def actionKey (iact : ℕ) : List Char := "action".toList ++ Nat.toDigits 10 iact

/-- The loop over the numbered keys, for at most `fuel` turns. -/
def loadActions (h : Host) (ini sect : List Char) :
    ℕ → ℕ → Cache → List Action → Except Fault (Cache × Option (List Action))
  | 0, _, _, _ => .error .unfinished
  | fuel + 1, iact, cache, actTab => do
      let (cache, paramVal) ← profileGetString h cache ini sect (actionKey (iact + 1)) [] 8192
      if paramVal = [] then .ok (cache, some actTab)
      else
        match ← loadAction paramVal with
        | none => .ok (cache, none)
        | some action => loadActions h ini sect fuel (iact + 1) cache (actTab ++ [action])

structure Registration where
  description : List Char
  actTab : List Action
  rate : ℤ
  exclusion : ℤ
  population : List Char
  deriving DecidableEq, Repr

/-- `tSceLoadScenario` up to its call of `tSceRegister`, or none where it returns 1 before. -/
def readScenario (h : Host) (ini : List Char) (fuel : ℕ) (cache : Cache) (sceName : List Char)
    (rate : ℤ) : Except Fault (Cache × Option Registration) := do
  let (cache, description) ← profileGetString h cache ini sceName "description".toList [] 256
  if description = [] then .ok (cache, none)
  else
    let (cache, exclusion) ← profileGetInt h cache ini sceName "exclusion".toList 0
    let (cache, population) ← profileGetString h cache ini sceName "population".toList [] 32
    let (cache, actTab) ← loadActions h ini sceName fuel 0 cache []
    .ok (cache, actTab.map fun actTab => ⟨description, actTab, rate, exclusion, population⟩)

/-- `register` is what `tSceRegister` makes of its arguments and of a state: the new state and the status. -/
def tSceLoadScenario {σ : Type} (register : Registration → σ → σ × ℤ) (h : Host) (ini : List Char) (fuel : ℕ)
    (cache : Cache) (sceName : List Char) (rate : ℤ) (s : σ) : Except Fault (Cache × σ × ℤ) := do
  let (cache, registration) ← readScenario h ini fuel cache sceName rate
  match registration with
  | none => .ok (cache, s, 1)
  | some r => .ok (cache, register r s)

structure Param where
  text : List Char
  ne_nil : text ≠ []
  no_quote : '"' ∉ text
  plain : ∀ c ∈ text, isComment c = false
  no_newline : '\n' ∉ text
  no_nul : nul ∉ text

inductive Params
  | none
  | one (cmds : Param)
  | two (cmds attrs : Param)

def quoted (p : Param) : List Char := ',' :: '"' :: (p.text ++ ['"'])

def Params.print : Params → List Char
  | .none => []
  | .one cmds => quoted cmds
  | .two cmds attrs => quoted cmds ++ quoted attrs

structure Printed where
  name : List Char
  requestId : RequestName
  known : tSceStringActionToEnumAction name = some requestId
  params : Params

def Printed.print (a : Printed) : List Char := a.name ++ a.params.print

def Printed.action (a : Printed) : Action :=
  match a.params with
  | .none => ⟨a.requestId, none, none⟩
  | .one cmds => ⟨a.requestId, some (cmdsOf cmds.text), none⟩
  | .two cmds attrs => ⟨a.requestId, some (cmdsOf cmds.text), some (attrsOf attrs.text)⟩

/-- The actions are written in the section under their numbers, with a description and no further
number. -/
structure Written (d : Document) (sect : List Char) (actions : List Printed) : Prop where
  description : ∃ text, text ≠ [] ∧ d.lookup sect "description".toList = some text
  numbered : ∀ i a, actions[i]? = some a → d.lookup sect (actionKey (i + 1)) = some a.print
  stop : (d.lookup sect (actionKey (actions.length + 1))).getD [] = []

section Tokens
variable {u v w x t : List Char} {delim : Char}

lemma nextToken_cut {ds : List Char} (hds : ∀ c ∈ ds, c = delim) (hdelim : delim ≠ nul)
    (ht : delim ∉ t) (hne : t ≠ []) (htn : nul ∉ t) (hw : nul ∉ w) :
    nextToken delim (u ++ (ds ++ (t ++ delim :: (w ++ nul :: x)))) u.length =
      .ok ((u ++ (ds ++ (t ++ [nul]))) ++ (w ++ nul :: x), (u ++ (ds ++ (t ++ [nul]))).length,
        some t) := by
  have hstr : strAt (u ++ (ds ++ (t ++ nul :: (w ++ nul :: x)))) (u.length + ds.length) = some t :=
    strAt_eq (u := u ++ ds) (v := w ++ nul :: x) (by simp only [List.append_assoc])
      (by rw [List.length_append]) htn
  have hbuf : (u ++ (ds ++ (t ++ [nul]))) ++ (w ++ nul :: x) =
      u ++ (ds ++ (t ++ nul :: (w ++ nul :: x))) := by
    simp only [List.append_assoc, List.singleton_append]
  have hlen : (u ++ (ds ++ (t ++ [nul]))).length = u.length + ds.length + t.length + 1 := by
    simp only [List.length_append, List.length_singleton]
    omega
  rw [hbuf, hlen]
  simp only [nextToken, strtok_cut hds hdelim ht hne htn hw, hstr, checked_some, ok_bind]

lemma nextToken_last (hdelim : delim ≠ nul) (ht : delim ∉ t) (hne : t ≠ []) (htn : nul ∉ t) :
    nextToken delim (u ++ (t ++ nul :: x)) u.length =
      .ok ((u ++ t) ++ nul :: x, (u ++ t).length, some t) := by
  have htok : strtok delim (u ++ ([] ++ (t ++ nul :: x))) u.length = _ :=
    strtok_last (List.forall_mem_nil _) hdelim ht hne htn
  have hstr : strAt (u ++ (t ++ nul :: x)) u.length = some t := strAt_eq rfl rfl htn
  rw [List.nil_append] at htok
  rw [List.append_assoc, List.length_append]
  simp only [nextToken, htok, List.length_nil, Nat.add_zero, hstr, checked_some, ok_bind]

lemma nextToken_end : nextToken delim (u ++ nul :: x) u.length = .ok (u ++ nul :: x, u.length, none) := by
  simp only [nextToken, strtok_end]

end Tokens

section Parse

lemma known_name {name : List Char} {r : RequestName}
    (h : tSceStringActionToEnumAction name = some r) :
    name ≠ [] ∧ ',' ∉ name ∧ nul ∉ name ∧ '\n' ∉ name ∧ name.all (!isComment ·) ∧ Trimmed name := by
  have hall : ∀ e ∈ actionNames, e.1.toList ≠ [] ∧ ',' ∉ e.1.toList ∧ nul ∉ e.1.toList ∧
      '\n' ∉ e.1.toList ∧ e.1.toList.all (!isComment ·) ∧ Trimmed e.1.toList := by decide +kernel
  obtain ⟨e, he, -⟩ := Option.map_eq_some_iff.mp h
  have hname := List.find?_some he
  rw [decide_eq_true_eq] at hname
  subst hname
  exact hall e (List.mem_of_find?_eq_some he)

lemma quoteDelim : ∀ c ∈ ['"'], c = '"' := by simp

lemma quote_ne_nul : '"' ≠ nul := by decide

lemma comma_ne_nul : ',' ≠ nul := by decide

lemma loadAttrs_end (u x : List Char) : loadAttrs (u ++ nul :: x) u.length = .ok none := by
  simp only [loadAttrs, nextToken_end, ok_bind, if_true]

lemma loadAttrs_quoted (u : List Char) (attrs : Param) :
    loadAttrs (u ++ (quoted attrs ++ [nul])) u.length = .ok (some (attrsOf attrs.text)) := by
  -- the comma up to the opening quote, then the text up to the closing one
  have hcomma : nextToken '"' (u ++ ([] ++ ([','] ++ '"' :: ((attrs.text ++ ['"']) ++ nul :: []))))
      u.length = _ :=
    nextToken_cut (List.forall_mem_nil _) quote_ne_nul (by decide) (by simp) (by decide)
      (by simp [attrs.no_nul, quote_ne_nul.symm])
  have htext : ∀ u : List Char, nextToken '"'
      (u ++ ([] ++ (attrs.text ++ '"' :: ([] ++ nul :: [])))) u.length = _ := fun u =>
    nextToken_cut (List.forall_mem_nil _) quote_ne_nul attrs.no_quote attrs.ne_nil attrs.no_nul
      List.not_mem_nil
  have hbuf : u ++ (quoted attrs ++ [nul]) =
      u ++ ([] ++ ([','] ++ '"' :: ((attrs.text ++ ['"']) ++ nul :: []))) := by
    simp only [quoted, List.nil_append, List.cons_append, List.append_assoc]
  have hnext : (attrs.text ++ ['"']) ++ nul :: [] =
      [] ++ (attrs.text ++ '"' :: ([] ++ nul :: [])) := by
    simp only [List.nil_append, List.append_assoc, List.singleton_append]
  rw [hbuf]
  simp only [loadAttrs, hcomma, ok_bind, reduceCtorEq, if_false]
  rw [hnext]
  simp only [htext, ok_bind, Option.map_some]

lemma nul_notMem_quoted (p : Param) : nul ∉ quoted p := by
  simp [quoted, p.no_nul, comma_ne_nul.symm, quote_ne_nul.symm]

lemma loadParams_quoted (requestId : RequestName) (u : List Char) (cmds : Param) {r : List Char}
    (hr : nul ∉ r) {attrs : Option (List Char)}
    (hattrs : ∀ u : List Char, loadAttrs (u ++ (r ++ nul :: [])) u.length = .ok attrs) :
    loadParams requestId (u ++ (['"'] ++ (cmds.text ++ '"' :: (r ++ nul :: [])))) u.length =
      .ok ⟨requestId, some (cmdsOf cmds.text), attrs⟩ := by
  have hcmds : nextToken '"' (u ++ (['"'] ++ (cmds.text ++ '"' :: (r ++ nul :: [])))) u.length = _ :=
    nextToken_cut quoteDelim quote_ne_nul cmds.no_quote cmds.ne_nil cmds.no_nul hr
  simp only [loadParams, hcmds, ok_bind, hattrs]

lemma loadAction_quoted (a : Printed) (cmds : Param) {r : List Char} (hr : nul ∉ r)
    {attrs : Option (List Char)}
    (hattrs : ∀ u : List Char, loadAttrs (u ++ (r ++ nul :: [])) u.length = .ok attrs) :
    loadAction (a.name ++ (quoted cmds ++ r)) =
      .ok (some ⟨a.requestId, some (cmdsOf cmds.text), attrs⟩) := by
  obtain ⟨hne, hcomma, hnul, -⟩ := known_name a.known
  have hrest : nul ∉ ['"'] ++ (cmds.text ++ '"' :: r) := by
    simp [cmds.no_nul, hr, quote_ne_nul.symm]
  have hname : nextToken ','
      ([] ++ ([] ++ (a.name ++ ',' :: ((['"'] ++ (cmds.text ++ '"' :: r)) ++ nul :: [])))) 0 = _ :=
    nextToken_cut (u := []) (List.forall_mem_nil _) comma_ne_nul hcomma hne hnul hrest
  have hbuf : a.name ++ (quoted cmds ++ r) ++ [nul] =
      [] ++ ([] ++ (a.name ++ ',' :: ((['"'] ++ (cmds.text ++ '"' :: r)) ++ nul :: []))) := by
    simp only [quoted, List.nil_append, List.cons_append, List.append_assoc]
  have hparams := fun u => loadParams_quoted a.requestId u cmds hr hattrs
  have hnext : (['"'] ++ (cmds.text ++ '"' :: r)) ++ nul :: [] =
      ['"'] ++ (cmds.text ++ '"' :: (r ++ nul :: [])) := by
    simp only [List.append_assoc, List.cons_append]
  rw [loadAction, hbuf, hname, hnext]
  simp only [ok_bind, Option.bind_some, a.known, hparams]

lemma loadAction_print (a : Printed) : loadAction a.print = .ok (some a.action) := by
  rw [Printed.print, Printed.action]
  cases a.params with
  | none =>
    obtain ⟨hne, hcomma, hnul, -⟩ := known_name a.known
    have hname : nextToken ',' (a.name ++ nul :: []) 0 = _ :=
      nextToken_last (u := []) comma_ne_nul hcomma hne hnul
    have hend : loadParams a.requestId (([] ++ a.name) ++ nul :: []) ([] ++ a.name).length =
        .ok ⟨a.requestId, none, none⟩ := by
      simp only [loadParams, nextToken_end, ok_bind]
    rw [Params.print, List.append_nil, loadAction, hname]
    simp only [ok_bind, Option.bind_some, a.known, hend]
  | one cmds =>
    have h := loadAction_quoted a cmds List.not_mem_nil fun u => loadAttrs_end u []
    rwa [List.append_nil] at h
  | two cmds attrs =>
    exact loadAction_quoted a cmds (nul_notMem_quoted attrs) fun u => loadAttrs_quoted u attrs

lemma print_ne_nil (a : Printed) : a.print ≠ [] := by
  intro h
  exact (known_name a.known).1 (List.append_eq_nil_iff.mp h).1

end Parse

section Load
variable {d : Document} {h : Host} {ini sect : List Char}

lemma length_lookup_lt {key value : List Char} {n : ℕ} (hshort : ∀ l ∈ d.lines, l.length < n)
    (hvalue : d.lookup sect key = some value) : value.length < n := by
  simp only [Document.lookup, Option.bind_eq_bind, Option.bind_eq_some_iff, Option.some.injEq] at hvalue
  obtain ⟨s, hs, p, hp, rfl⟩ := hvalue
  have hline : p.margin.around p.item ∈ d.lines := by
    have hpair : p.margin.around p.item ∈ p.lines := by simp [Pair.lines]
    have hsect : p.margin.around p.item ∈ s.lines := by
      simp only [Sect.lines, List.mem_append, List.mem_cons, List.mem_flatMap]
      exact .inr (.inr ⟨p, List.mem_of_find?_eq_some hp, hpair⟩)
    simp only [Document.lines, List.mem_append, List.mem_flatMap]
    exact .inl ⟨s, List.mem_of_find?_eq_some hs, hsect⟩
  have hlen := hshort _ hline
  simp only [Margin.around, Pair.item, List.length_append, List.length_cons] at hlen
  omega

structure Readable (h : Host) (ini : List Char) (d : Document) : Prop where
  file : h.files ini = some d.print
  tight : ∀ s ∈ d.sections, s.Tight
  short : ∀ l ∈ d.lines, l.length < fgetsRoom

lemma profileGetString_eq (hd : Readable h ini d) {cache : Cache} (hv : cache.Valid h)
    (hsect : sect.length < fgetsRoom) (key : List Char) (length : ℕ) :
    ∃ after, after.Valid h ∧ profileGetString h cache ini sect key [] length =
      .ok (after, ((d.lookup sect key).getD []).take (length - 1)) := by
  obtain ⟨after, hafter, hget⟩ := d.getString_eq hd.tight hv hd.file hd.short key hsect
  refine ⟨after, hafter, ?_⟩
  rw [profileGetString, hget]
  cases d.lookup sect key <;> rfl

lemma profileGetInt_eq (hd : Readable h ini d) {cache : Cache} (hv : cache.Valid h)
    (hsect : sect.length < fgetsRoom) (key : List Char) (defvalue : ℤ) :
    ∃ after n, after.Valid h ∧ profileGetInt h cache ini sect key defvalue = .ok (after, n) := by
  obtain ⟨after, hafter, hget⟩ := d.getString_eq hd.tight hv hd.file hd.short key hsect
  simp only [profileGetInt, hget, ok_bind]
  split_ifs
  · exact ⟨after, _, hafter, rfl⟩
  · exact ⟨after, _, hafter, rfl⟩
  · exact ⟨after, _, hafter, rfl⟩

lemma loadActions_eq (hd : Readable h ini d) (hsect : sect.length < fgetsRoom)
    (actions : List Printed) {iact fuel : ℕ} {cache : Cache} (hv : cache.Valid h)
    (actTab : List Action)
    (hnumbered : ∀ i a, actions[i]? = some a →
      d.lookup sect (actionKey (iact + i + 1)) = some a.print)
    (hstop : (d.lookup sect (actionKey (iact + actions.length + 1))).getD [] = [])
    (hfuel : actions.length < fuel) :
    ∃ after, after.Valid h ∧ loadActions h ini sect fuel iact cache actTab =
      .ok (after, some (actTab ++ actions.map Printed.action)) := by
  induction actions generalizing iact fuel cache actTab with
  | nil =>
    obtain ⟨fuel, rfl⟩ := Nat.exists_eq_add_one_of_ne_zero (Nat.ne_of_gt hfuel)
    obtain ⟨after, hafter, hget⟩ := profileGetString_eq hd hv hsect (actionKey (iact + 1)) 8192
    rw [List.length_nil, Nat.add_zero] at hstop
    rw [hstop, List.take_nil] at hget
    exact ⟨after, hafter, by simp [loadActions, hget]⟩
  | cons a actions ih =>
    rw [List.length_cons] at hfuel hstop
    obtain ⟨fuel, rfl⟩ := Nat.exists_eq_add_one_of_ne_zero (Nat.ne_zero_of_lt hfuel)
    have hfirst := hnumbered 0 a rfl
    rw [Nat.add_zero] at hfirst
    obtain ⟨next, hnext, hget⟩ := profileGetString_eq hd hv hsect (actionKey (iact + 1)) 8192
    -- the line of the action fits into `param_val`
    have hlen := length_lookup_lt hd.short hfirst
    have htake : a.print.take (8192 - 1) = a.print := by
      apply List.take_of_length_le
      simp only [fgetsRoom, maxLineLength] at hlen
      omega
    rw [hfirst, Option.getD_some, htake] at hget
    have hrest : ∀ i b, actions[i]? = some b →
        d.lookup sect (actionKey (iact + 1 + i + 1)) = some b.print := by
      intro i b hb
      rw [Nat.add_right_comm iact 1 i]
      exact hnumbered (i + 1) b hb
    have hend : (d.lookup sect (actionKey (iact + 1 + actions.length + 1))).getD [] = [] := by
      rwa [Nat.add_right_comm iact 1]
    obtain ⟨after, hafter, hloop⟩ := ih hnext (actTab ++ [a.action]) hrest hend
      (Nat.lt_of_succ_lt_succ hfuel)
    refine ⟨after, hafter, ?_⟩
    simp only [loadActions, hget, ok_bind, if_neg (print_ne_nil a), loadAction_print, hloop,
      List.map_cons, List.append_assoc, List.singleton_append]

lemma cacheFree_loadActions (ini sect : List Char) (fuel iact : ℕ) (actTab : List Action) :
    CacheFree h fun cache => loadActions h ini sect fuel iact cache actTab := by
  induction fuel generalizing iact actTab with
  | zero => exact cacheFree_map (.error .unfinished)
  | succ fuel ih =>
    refine (cacheFree_profileGetString ini sect (actionKey (iact + 1)) [] 8192).bind
      (g := fun paramVal cache => if paramVal = [] then .ok (cache, some actTab) else do
        match ← loadAction paramVal with
        | none => .ok (cache, none)
        | some action => loadActions h ini sect fuel (iact + 1) cache (actTab ++ [action]))
      fun paramVal => ?_
    split_ifs
    · exact cacheFree_pure _
    · cases loadAction paramVal with
      | error fault => exact cacheFree_map (.error fault)
      | ok action =>
        cases action with
        | none => exact cacheFree_pure none
        | some action => exact ih (iact + 1) (actTab ++ [action])

lemma cacheFree_readScenario (ini : List Char) (fuel : ℕ) (sceName : List Char) (rate : ℤ) :
    CacheFree h fun cache => readScenario h ini fuel cache sceName rate := by
  refine (cacheFree_profileGetString ini sceName "description".toList [] 256).bind
    (g := fun description cache => if description = [] then .ok (cache, none) else do
      let (cache, exclusion) ← profileGetInt h cache ini sceName "exclusion".toList 0
      let (cache, population) ← profileGetString h cache ini sceName "population".toList [] 32
      let (cache, actTab) ← loadActions h ini sceName fuel 0 cache []
      .ok (cache, actTab.map fun actTab => Registration.mk description actTab rate exclusion population))
    fun description => ?_
  split_ifs
  · exact cacheFree_pure none
  · exact (cacheFree_profileGetInt ini sceName "exclusion".toList 0).bind fun exclusion =>
      (cacheFree_profileGetString ini sceName "population".toList [] 32).bind fun population =>
        (cacheFree_loadActions ini sceName fuel 0 []).bind fun actTab => cacheFree_pure
          (actTab.map fun actTab => Registration.mk description actTab rate exclusion population)

/-- A section in which a list of actions is written is loaded as this list. -/
theorem scenario_read_back (d : Document) (h : Host) (ini : List Char) (hd : Readable h ini d)
    (sect : List Char) (hsect : sect.length < 8190) (actions : List Printed)
    (hwritten : Written d sect actions) (cache : Cache) (hv : cache.Valid h) (rate : ℤ) (fuel : ℕ)
    (hfuel : actions.length < fuel) :
    ∃ after r, after.Valid h ∧ r.actTab = actions.map Printed.action ∧
      ∀ {σ : Type} (register : Registration → σ → σ × ℤ) (s : σ),
        tSceLoadScenario register h ini fuel cache sect rate s = .ok (after, register r s) := by
  obtain ⟨text, hne, htext⟩ := hwritten.description
  obtain ⟨first, hfirst, hdescription⟩ :=
    profileGetString_eq hd hv hsect "description".toList 256
  obtain ⟨second, exclusion, hsecond, hexclusion⟩ :=
    profileGetInt_eq hd hfirst hsect "exclusion".toList 0
  obtain ⟨third, hthird, hpopulation⟩ :=
    profileGetString_eq hd hsecond hsect "population".toList 32
  obtain ⟨population, hpop⟩ : ∃ population, population =
      ((d.lookup sect "population".toList).getD []).take (32 - 1) := ⟨_, rfl⟩
  rw [← hpop] at hpopulation
  have hnumbered : ∀ i a, actions[i]? = some a →
      d.lookup sect (actionKey (0 + i + 1)) = some a.print := by
    simpa using hwritten.numbered
  obtain ⟨after, hafter, hactions⟩ := loadActions_eq hd hsect actions hthird [] hnumbered
    (by simpa using hwritten.stop) hfuel
  have hdesc : text.take (256 - 1) ≠ [] := by
    simp [hne]
  rw [htext, Option.getD_some] at hdescription
  refine ⟨after, ⟨text.take 255, actions.map Printed.action, rate, exclusion, population⟩, hafter, rfl,
    fun register s => ?_⟩
  simp only [tSceLoadScenario, readScenario, hdescription, ok_bind, if_neg hdesc, hexclusion, hpopulation,
    hactions, List.nil_append, Option.map_some]

end Load

section Keys

lemma isAlphanum_actionKey {n : ℕ} : ∀ c ∈ actionKey n, c.isAlphanum := by
  intro c hc
  cases List.mem_append.mp hc with
  | inl hc =>
    have hall : "action".toList.all Char.isAlphanum := by decide
    exact List.all_eq_true.mp hall c hc
  | inr hc =>
    have hdigit := Nat.isDigit_of_mem_toDigits (by decide) (by decide) hc
    simp [Char.isAlphanum, hdigit]

lemma notMem_actionKey {c : Char} (hc : c.isAlphanum = false) (n : ℕ) : c ∉ actionKey n := by
  intro h
  have halpha := isAlphanum_actionKey c h
  rw [hc] at halpha
  cases halpha

lemma actionKey_cons (n : ℕ) : actionKey n = 'a' :: ("ction".toList ++ Nat.toDigits 10 n) := rfl

lemma not_isComment_actionKey (n : ℕ) : ∀ c ∈ actionKey n, isComment c = false := by
  intro c hc
  by_contra h
  simp only [isComment, Bool.not_eq_false, decide_eq_true_eq] at h
  rcases h with rfl | rfl
  · exact notMem_actionKey (by decide) n hc
  · exact notMem_actionKey (by decide) n hc

lemma not_isspace_actionKey (n : ℕ) {c : Char} (hc : c ∈ actionKey n) : isspace c = false := by
  by_contra h
  simp only [isspace, Bool.not_eq_false, decide_eq_true_eq] at h
  rcases h with rfl | rfl | rfl | rfl | rfl | rfl <;> exact notMem_actionKey (by decide) n hc

lemma toLower_of_isDigit {c : Char} (hc : c.isDigit) : c.toLower = c := by
  have hupper : ¬ (c.isUpper = true) := by
    simp only [Char.isDigit, Char.isUpper, Bool.and_eq_true, decide_eq_true_eq] at hc ⊢
    intro h
    have hnine : c.val.toNat ≤ 57 := UInt32.le_iff_toNat_le.mp hc.2
    have hletter : 65 ≤ c.val.toNat := UInt32.le_iff_toNat_le.mp h.1
    omega
  exact Char.toLower_eq_of_not_isUpper hupper

lemma toLower_toDigits (n : ℕ) : (Nat.toDigits 10 n).map Char.toLower = Nat.toDigits 10 n := by
  have h : ∀ c ∈ Nat.toDigits 10 n, c.toLower = id c := fun c hc =>
    toLower_of_isDigit (Nat.isDigit_of_mem_toDigits (by decide) (by decide) hc)
  rw [List.map_congr_left h, List.map_id]

lemma toLower_actionKey (n : ℕ) : (actionKey n).map Char.toLower = actionKey n := by
  have hword : "action".toList.map Char.toLower = "action".toList := by decide
  exact List.map_append.trans (congrArg₂ (· ++ ·) hword (toLower_toDigits n))

lemma stricmp_actionKey (m n : ℕ) : stricmp (actionKey m) (actionKey n) ↔ m = n := by
  rw [stricmp, toLower_actionKey m, toLower_actionKey n, decide_eq_true_eq]
  constructor
  · intro h
    have hread := congrArg (Nat.ofDigitChars 10 · 0) (List.append_cancel_left h)
    simpa using hread
  · rintro rfl
    rfl

lemma stricmp_actionKey_description (n : ℕ) : stricmp (actionKey n) "description".toList = false := by
  simp [stricmp, actionKey_cons]

end Keys

section Write

def actionKeyWord (n : ℕ) : Word where
  text := actionKey n
  plain := not_isComment_actionKey n
  no_nul := notMem_actionKey (by decide) n
  no_newline := notMem_actionKey (by decide) n
  trimmed := ⟨fun _ hc => not_isspace_actionKey n (List.mem_of_mem_head? hc),
    fun _ hc => not_isspace_actionKey n (List.mem_of_mem_getLast? hc)⟩

lemma not_isComment_quoted (p : Param) : ∀ c ∈ quoted p, isComment c = false := by
  intro c hc
  simp only [quoted, List.mem_cons, List.mem_append, List.not_mem_nil, or_false] at hc
  rcases hc with rfl | rfl | hc | rfl
  · decide
  · decide
  · exact p.plain c hc
  · decide

lemma newline_notMem_quoted (p : Param) : '\n' ∉ quoted p := by
  simp [quoted, p.no_newline]

lemma getLast_quoted (p : Param) (s : List Char) : (s ++ quoted p).getLast? = some '"' := by
  have h : s ++ quoted p = (s ++ ',' :: '"' :: p.text) ++ ['"'] := by
    simp [quoted]
  rw [h, List.getLast?_concat]

lemma Printed.forall_mem_print (a : Printed) {P : Char → Prop} (hname : ∀ c ∈ a.name, P c)
    (hquoted : ∀ p : Param, ∀ c ∈ quoted p, P c) : ∀ c ∈ a.print, P c := by
  intro c hc
  rw [Printed.print, List.mem_append] at hc
  cases hc with
  | inl hc => exact hname c hc
  | inr hc =>
    cases hparams : a.params with
    | none =>
      rw [hparams] at hc
      cases hc
    | one cmds =>
      rw [hparams] at hc
      exact hquoted cmds c hc
    | two cmds attrs =>
      rw [hparams, Params.print, List.mem_append] at hc
      cases hc with
      | inl hc => exact hquoted cmds c hc
      | inr hc => exact hquoted attrs c hc

lemma Printed.notMem_print (a : Printed) {c : Char} (hname : c ∉ a.name)
    (hquoted : ∀ p : Param, c ∉ quoted p) : c ∉ a.print := by
  intro h
  exact a.forall_mem_print (P := (· ≠ c)) (fun _ he hc => hname (hc ▸ he))
    (fun p _ he hc => hquoted p (hc ▸ he)) c h rfl

lemma Printed.trimmed_print (a : Printed) : Trimmed a.print := by
  obtain ⟨hne, -, -, -, -, htrim⟩ := known_name a.known
  have hquote : isspace '"' = false := by decide
  constructor
  · rw [Printed.print, List.head?_append_of_ne_nil _ hne]
    exact htrim.head
  · rw [Printed.print]
    cases a.params with
    | none =>
      rw [Params.print, List.append_nil]
      exact htrim.last
    | one cmds =>
      rw [Params.print, getLast_quoted]
      simpa using hquote
    | two cmds attrs =>
      rw [Params.print, ← List.append_assoc, getLast_quoted]
      simpa using hquote

def Printed.word (a : Printed) : Word where
  text := a.print
  plain := a.forall_mem_print (plain_of_all (known_name a.known).2.2.2.2.1) not_isComment_quoted
  no_nul := a.notMem_print (known_name a.known).2.2.1 nul_notMem_quoted
  no_newline := a.notMem_print (known_name a.known).2.2.2.1 newline_notMem_quoted
  trimmed := a.trimmed_print

def actionPair (n : ℕ) (a : Printed) : Pair where
  key := actionKeyWord n
  value := a.word
  key_ne := by simp [actionKeyWord, actionKey_cons]
  key_plain := notMem_actionKey (by decide) n
  key_head := by simp [actionKeyWord, actionKey_cons]
  before := noGap
  after := noGap
  margin := noMargin
  above := []

def actionPairs : ℕ → List Printed → List Pair
  | _, [] => []
  | n, a :: actions => actionPair n a :: actionPairs (n + 1) actions

def descriptionPair (description : Word) : Pair where
  key := .ofText "description".toList (by decide) (by decide) (by decide) (by decide)
  value := description
  key_ne := by decide
  key_plain := by decide
  key_head := by decide
  before := noGap
  after := noGap
  margin := noMargin
  above := []

def scenario (name description : Word) (actions : List Printed) : Document where
  sections := [{
    name := name
    pairs := descriptionPair description :: actionPairs 1 actions
    left := noGap
    right := noGap
    margin := noMargin
    above := [] }]
  below := []

lemma find_actionPairs (actions : List Printed) (n i : ℕ) :
    (actionPairs n actions).find? (stricmp (actionKey (n + i)) ·.key.text) =
      actions[i]?.map (actionPair (n + i)) := by
  induction actions generalizing n i with
  | nil => rfl
  | cons a actions ih =>
    have hkey : stricmp (actionKey (n + i)) (actionPair n a).key.text ↔ n + i = n :=
      stricmp_actionKey _ _
    rw [actionPairs, List.find?_cons]
    cases i with
    | zero =>
      rw [hkey.mpr rfl]
      rfl
    | succ i =>
      have hother : stricmp (actionKey (n + (i + 1))) (actionPair n a).key.text = false := by
        rw [Bool.eq_false_iff]
        intro h
        have hn := hkey.mp h
        omega
      have hnext := ih (n + 1) i
      rw [Nat.add_right_comm n 1 i, Nat.add_assoc] at hnext
      simpa only [hother, List.getElem?_cons_succ] using hnext

lemma lookup_scenario (name description : Word) (actions : List Printed) (i : ℕ) :
    (scenario name description actions).lookup name.text (actionKey (i + 1)) =
      actions[i]?.map Printed.print := by
  have hdesc : stricmp (actionKey (i + 1)) (descriptionPair description).key.text = false :=
    stricmp_actionKey_description _
  have hfind := find_actionPairs actions 1 i
  rw [Nat.add_comm 1 i] at hfind
  simp only [Document.lookup, scenario, List.find?_cons, stricmp_self, Option.bind_eq_bind,
    Option.bind_some, hdesc, hfind]
  cases actions[i]? <;> rfl

lemma written_scenario (name description : Word) (hne : description.text ≠ [])
    (actions : List Printed) :
    Written (scenario name description actions) name.text actions where
  description := by
    have hkey : stricmp "description".toList (descriptionPair description).key.text := stricmp_self _
    refine ⟨description.text, hne, ?_⟩
    simp only [Document.lookup, scenario, List.find?_cons, stricmp_self, hkey, Option.bind_eq_bind,
      Option.bind_some]
    rfl
  numbered i a ha := by
    rw [lookup_scenario, ha]
    rfl
  stop := by
    rw [lookup_scenario, List.getElem?_eq_none (Nat.le_refl _)]
    rfl

end Write

section Samples

def Param.ofText (s : List Char) (hne : s ≠ []) (hq : '"' ∉ s) (hc : s.all (!isComment ·))
    (hl : '\n' ∉ s) (hn : nul ∉ s) : Param :=
  ⟨s, hne, hq, plain_of_all hc, hl, hn⟩

def sampleName : Word := .ofText "S".toList (by decide) (by decide) (by decide) (by decide)

/-- `LDAP_Search_Rq,"\0","\*"` and `SCE_End`. -/
def sampleActions : List Printed := [
  ⟨"LDAP_Search_Rq".toList, .ldapSearchRq, by decide +kernel,
    .two (.ofText "\\0".toList (by decide) (by decide) (by decide) (by decide) (by decide))
      (.ofText "\\*".toList (by decide) (by decide) (by decide) (by decide) (by decide))⟩,
  ⟨"SCE_End".toList, .sceEnd, by decide +kernel, .none⟩]

def hostOf (d : Document) : Host := ⟨fun _ => some d.print, ⟨id, fun _ => 0, fun _ => 0⟩, 0⟩

theorem search_and_end_read_back :
    ∃ after r, after.Valid (hostOf (scenario sampleName sampleName sampleActions)) ∧
      r.actTab = [⟨.ldapSearchRq, some [], some ['*']⟩, ⟨.sceEnd, none, none⟩] ∧
      ∀ {σ : Type} (register : Registration → σ → σ × ℤ) (s : σ),
        tSceLoadScenario register (hostOf (scenario sampleName sampleName sampleActions)) "x.ini".toList 3
          ⟨none, none⟩ "S".toList 100 s = .ok (after, register r s) :=
  scenario_read_back (scenario sampleName sampleName sampleActions) _ "x.ini".toList
    ⟨rfl, by simp [scenario, Sect.Tight, noGap], by decide⟩ "S".toList (by decide) sampleActions
    (written_scenario sampleName sampleName (by decide) sampleActions) ⟨none, none⟩ valid_start 100 3
    (by decide)

def undescribed : Document where
  sections := [{
    name := sampleName
    pairs := actionPairs 1 sampleActions
    left := noGap
    right := noGap
    margin := noMargin
    above := [] }]
  below := []

theorem undescribed_not_loaded :
    undescribed.lookup "S".toList (actionKey 1) = sampleActions[0]?.map Printed.print ∧
      undescribed.lookup "S".toList (actionKey 2) = sampleActions[1]?.map Printed.print ∧
      undescribed.lookup "S".toList (actionKey 3) = none ∧
      (tSceLoadScenario (fun r _ => (some r, 0)) (hostOf undescribed) "x.ini".toList 3 ⟨none, none⟩
        "S".toList 100 none).map (·.2) = .ok (none, 1) := by
  decide

end Samples

end LdapTgen.ScenarioLoad
