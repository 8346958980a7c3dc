import LdapTgen.CString
import LdapTgen.LdapControls

/-! One search action run alone in the synchronous mode (`tLdap_SearchRequest`) and in the
asynchronous one (`tLdap_SearchRequest_async`, then `LDAP_Search_Resp`). The parser `attrs_build` is
a parameter, as both modes call it on the same texts. -/
namespace LdapTgen.SearchModes
open LdapControls

structure CmdRes where
  base : Option Text
  filter : Option Text
  deriving DecidableEq, Repr

abbrev Message := List (Text × List Text)

structure Cmd where
  ope : ℤ
  type : Text
  deriving DecidableEq, Repr

structure ReqCtx where
  cmds : List Cmd
  rc : ℤ
  res : Option Message
  deriving DecidableEq, Repr

def cmdGetAsBase : ℤ := 0

/-- `ldap_get_values`, which compares the names of the attributes with `strcasecmp`. -/
def ldapGetValues (res : Message) (target : Text) : Option (List Text) :=
  (res.find? (CString.stricmp target ·.1)).map Prod.snd

/-- The loop of `tLdap_SearchResult` over the commands. The tests of an operation number against the
address of a keyword never succeed. -/
def cmdLoop (res : Option Message) (type : Text) : List Cmd → CmdRes → ℤ → Option (CmdRes × ℤ)
  | [], r, rc => some (r, rc)
  | c :: cs, r, rc =>
      if c.ope = cmdGetAsBase then
        match res with
        | none => some (r, rc)
        | some m =>
            match ldapGetValues m type with
            | some (v :: _) => cmdLoop res type cs ⟨some v, some "(objectclass=*)".toList⟩ rc
            | some [] => none
            | none => cmdLoop res type cs r ldapOperationsError
      else cmdLoop res type cs r rc

def execCmds (cmdList : Text) (q : ReqCtx) : Option (Option CmdRes × ℤ) :=
  if cmdList ≠ [] ∧ q.rc = ldapSuccess then
    (cmdLoop q.res ((q.cmds.head?.map Cmd.type).getD []) q.cmds ⟨none, none⟩ q.rc).map
      fun r => (some r.1, r.2)
  else some (none, q.rc)

/-- Result code and `*cmd_res`. -/
def tLdapSearchResult (cmdList : Text) (waitForRc : ℤ) (q : ReqCtx) :
    Option (ℤ × Option CmdRes) :=
  (execCmds cmdList q).map fun r => (if r.2 ≠ waitForRc then r.2 else 0, r.1)

/-- What the LDAP exchange comes to: a result message, an error of the library when the request is sent
or afterwards, or nothing before the timeout. -/
inductive Exchange
  | answer (rc : ℤ) (res : Message)
  | unsent (rc : ℤ) (h : rc ≠ ldapSuccess)
  | failed (rc : ℤ) (h : rc ≠ ldapSuccess)
  | noAnswer

/-- The samples given to `tStatActionTime` (verdict and retry), whether the scenario is treated as
failed, and the `cmdRes` of the user. -/
structure Verdict where
  samples : List (ℤ × ℕ)
  failed : Bool
  cmdRes : Option CmdRes
  deriving DecidableEq, Repr

/-- `tStatActionTime` takes its verdict as a `char`. -/
def Verdict.ko (v : Verdict) : Prop := ∃ s ∈ v.samples, s.1 % 256 ≠ 0

structure Search where
  cmds : Option Text
  attrs : Text
  imsi : Option Text
  stackOid : Bool
  deriving DecidableEq, Repr

/-- What both modes have before the exchange: the commands, those after the controls, and their
parse. -/
structure Prepared where
  cmds : Text
  rest : Text
  parsed : List Cmd
  waitForRc : ℤ
  deriving DecidableEq, Repr

def parseCmds (attrsBuild : Text → Option (List Cmd)) (cmdList : Text) : Option (List Cmd) :=
  if cmdList ≠ [] then attrsBuild cmdList else some []

def prepare (attrsBuild : Text → Option (List Cmd)) (a : Search) : Option Prepared := do
  let cmds ← a.cmds
  let (g, waitForRc) ← searchControls cmds a.imsi a.stackOid
  let _ ← attrsBuild a.attrs
  let parsed ← parseCmds attrsBuild (cmds.drop g.shift)
  return ⟨cmds, cmds.drop g.shift, parsed, waitForRc⟩

def syncMode (p : Prepared) (x : Exchange) : Option Verdict := do
  let q : ReqCtx := match x with
    | .answer rc res => ⟨p.parsed, rc, some res⟩
    | .unsent rc _ => ⟨p.parsed, rc, none⟩
    | .failed rc _ => ⟨p.parsed, rc, none⟩
    | .noAnswer => ⟨p.parsed, ldapTimeout, none⟩
  let (rc, cmdRes) ← tLdapSearchResult p.rest p.waitForRc q
  return ⟨[(rc, if rc = ldapTimeout then 1 else 0)], rc ≠ 0, cmdRes⟩

/-- `LDAP_Search_Resp`, after the samples already taken by the select thread. -/
def searchResp (p : Prepared) (before : Option CmdRes) (samples : List (ℤ × ℕ)) (rc : ℤ)
    (res : Option Message) : Option Verdict :=
  if rc = ldapTimeout then some ⟨samples ++ [(0, 1)], false, before⟩
  else (tLdapSearchResult p.cmds ldapSuccess ⟨p.parsed, rc, res⟩).map fun r =>
    ⟨samples ++ [(r.1, 0)], r.1 ≠ 0, r.2⟩

/-- The errors on which `treatError_Ld` restarts the connection and hands the requests over. -/
def restartError (rc : ℤ) : Prop := rc = ldapServerDown ∨ rc = ldapLocalError ∨ rc = 5

instance (rc : ℤ) : Decidable (restartError rc) := inferInstanceAs (Decidable (_ ∨ _))

def asyncMode (p : Prepared) (before : Option CmdRes) : Exchange → Option Verdict
  | .answer rc res => searchResp p before [] rc (some res)
  -- the action ends at once, and the context that it left in the wheel comes back as a timeout
  | .unsent rc _ => some ⟨[(rc, if rc = ldapTimeout then 1 else 0), (0, 1)], true, none⟩
  | .failed rc _ =>
      if restartError rc then searchResp p before [(rc, 0)] rc none
      -- the request stays pending until its timeout
      else searchResp p before [(rc, if rc = ldapTimeout then 1 else 0)] ldapTimeout none
  | .noAnswer => searchResp p before [] ldapTimeout none

/-- The same verdict, or no verdict at all because the program has ended. -/
def Agree : Option Verdict → Option Verdict → Prop
  | none, none => True
  | some v, some w => (v.ko ↔ w.ko) ∧ v.failed = w.failed ∧ v.cmdRes = w.cmdRes
  | _, _ => False

section Modes
variable (attrsBuild : Text → Option (List Cmd)) (a : Search)

def runSync (x : Exchange) : Option Verdict := (prepare attrsBuild a).bind (syncMode · x)

def runAsync (before : Option CmdRes) (x : Exchange) : Option Verdict :=
  (prepare attrsBuild a).bind (asyncMode · before x)

end Modes

/-- The exchange ends with a message, a restart or no request at all, and a success does not meet commands
that are controls only. -/
def Settled (p : Prepared) : Exchange → Prop
  | .noAnswer => False
  | .unsent _ _ => True
  | .failed rc _ => restartError rc
  | .answer rc _ => rc ≠ ldapTimeout ∧ ¬ (rc = ldapSuccess ∧ p.cmds ≠ [] ∧ p.rest = [])

structure Prepared.Ok (p : Prepared) : Prop where
  waits : p.waitForRc = ldapSuccess
  rest_cmds : p.cmds = [] → p.rest = []
  parsed_nil : p.rest = [] → p.parsed = []

lemma prepare_ok {attrsBuild : Text → Option (List Cmd)} {a : Search} {p : Prepared}
    (h : prepare attrsBuild a = some p) : p.Ok := by
  simp only [prepare, Option.bind_eq_bind, Option.bind_eq_some_iff] at h
  obtain ⟨cmds, _, ⟨g, w⟩, hctrl, _, _, parsed, hparsed, hp⟩ := h
  obtain rfl : (⟨cmds, cmds.drop g.shift, parsed, w⟩ : Prepared) = p := by simpa using hp
  refine ⟨(searchControls_returns hctrl).1, ?_, ?_⟩
  · rintro rfl
    exact List.drop_nil
  · intro hrest
    rw [parseCmds, if_neg (not_not.mpr hrest)] at hparsed
    exact (Option.some_inj.mp hparsed).symm

lemma tLdapSearchResult_congr {l l' : Text} (h : l = [] ↔ l' = []) (w : ℤ) (q : ReqCtx) :
    tLdapSearchResult l w q = tLdapSearchResult l' w q := by
  simp only [tLdapSearchResult, execCmds, ne_eq, h]

lemma tLdapSearchResult_error {l : Text} {q : ReqCtx} (h : q.rc ≠ ldapSuccess) :
    tLdapSearchResult l ldapSuccess q = some (q.rc, none) := by
  simp [tLdapSearchResult, execCmds, h]

lemma ko_singleton (rc : ℤ) (n : ℕ) (f : Bool) (r : Option CmdRes) :
    Verdict.ko ⟨[(rc, n)], f, r⟩ ↔ rc % 256 ≠ 0 := by
  simp [Verdict.ko]

lemma answer_agree_iff {p : Prepared} (hp : p.Ok) (before : Option CmdRes) {rc : ℤ} (res : Message)
    (hrc : rc ≠ ldapTimeout) :
    Agree (syncMode p (.answer rc res)) (asyncMode p before (.answer rc res)) ↔
      ¬ (rc = ldapSuccess ∧ p.cmds ≠ [] ∧ p.rest = []) := by
  by_cases hsame : p.cmds = [] ↔ p.rest = []
  · -- both modes run the same commands
    have hcond : ¬ (rc = ldapSuccess ∧ p.cmds ≠ [] ∧ p.rest = []) := by tauto
    simp only [syncMode, asyncMode, searchResp, hrc, if_false, hp.waits, hcond, not_false_eq_true,
      iff_true, tLdapSearchResult_congr hsame]
    cases tLdapSearchResult p.rest ldapSuccess ⟨p.parsed, rc, some res⟩ with
    | none => trivial
    | some r => exact ⟨by simp [ko_singleton], rfl, rfl⟩
  · have hcmds : p.cmds ≠ [] := fun h => hsame ⟨fun _ => hp.rest_cmds h, fun _ => h⟩
    have hrest : p.rest = [] := by tauto
    have hparsed := hp.parsed_nil hrest
    by_cases hs : rc = ldapSuccess
    · subst hs
      simp [syncMode, asyncMode, searchResp, hrc, hp.waits, hcmds, hrest, hparsed, Agree,
        tLdapSearchResult, execCmds, cmdLoop]
    · have herr : ∀ l : Text, tLdapSearchResult l ldapSuccess ⟨p.parsed, rc, some res⟩ =
          some (rc, none) := fun l => tLdapSearchResult_error hs
      simp [syncMode, asyncMode, searchResp, hrc, hp.waits, herr, hs, Agree, ko_singleton]

lemma syncMode_error {p : Prepared} (hp : p.Ok) {rc : ℤ} (hrc : rc ≠ ldapSuccess)
    (res : Option Message) :
    tLdapSearchResult p.rest p.waitForRc ⟨p.parsed, rc, res⟩ = some (rc, none) := by
  rw [hp.waits]
  exact tLdapSearchResult_error hrc

lemma not_agree_timeout (samples : List (ℤ × ℕ)) (before : Option CmdRes) (p : Prepared)
    (res : Option Message) {rc : ℤ} (hrc : rc ≠ 0) (n : ℕ) (r : Option CmdRes) :
    ¬ Agree (some ⟨[(rc, n)], decide (rc ≠ 0), r⟩)
      (searchResp p before samples ldapTimeout res) := by
  rintro ⟨_, hfailed, _⟩
  simp [hrc] at hfailed

/-- A successful search with a control and no command leaves a command result in the asynchronous
mode only. -/
example : runSync (fun _ => some []) ⟨some "_LDAPCTRL_ 1.2 0 x".toList, [], none, false⟩
      (.answer 0 []) = some ⟨[(0, 0)], false, none⟩ ∧
    runAsync (fun _ => some []) ⟨some "_LDAPCTRL_ 1.2 0 x".toList, [], none, false⟩ none
      (.answer 0 []) = some ⟨[(0, 0)], false, some ⟨none, none⟩⟩ := by decide

end LdapTgen.SearchModes
