import LdapTgen.Common

/-! Mated-pair defence: the retry loop of `tBreak`, the availability test, the bind with its
round robin over the servers, and the rebind of the worker connections. The answers of the LDAP
library (bind and search results) are inputs. -/
namespace LdapTgen.MatedPair

structure Conf where
  tcLdapBindNb : ℕ
  tcWThreadNb : ℕ
  policy : SessionPolicy
  nbserver : ℕ
  secondHost : Bool
  quietOnError : Bool
  tcNoMattedPair : Bool
  deriving DecidableEq, Repr

/-- The active server and, for each connection slot, the server its handle was opened to. -/
structure State where
  tcActiveServerId : ℕ
  ld : ℕ → Option ℕ

/-- `ldap_init` on the active server, then the bind. A positive result closes the handle again
unless errors are quiet; the active server moves on in every case. -/
def simpleBindRequest (c : Conf) (slot : ℕ) (bind : ℤ) (s : State) : State × ℤ :=
  let active := (s.tcActiveServerId + 1) % c.nbserver
  if bind > 0 ∧ c.quietOnError = false then (⟨active, Function.update s.ld slot none⟩, 1)
  else (⟨active, Function.update s.ld slot (some s.tcActiveServerId)⟩, bind)

def unbindRequest (slot : ℕ) (s : State) : State :=
  { s with ld := Function.update s.ld slot none }

structure Answers where
  searchOpen : ℤ
  bind : ℤ
  searchNew : ℤ
  deriving DecidableEq, Repr

/-- First half of the test: a connection that is already open is searched, and freed if down. -/
def probeOpen (slot : ℕ) (o : Answers) (s : State) : State × ℤ :=
  if (s.ld slot).isSome then
    (if o.searchOpen = ldapServerDown then unbindRequest slot s else s, o.searchOpen)
  else (s, 1)

def tReinitIsAlive (c : Conf) (key : ℕ) (o : Answers) (s : State) : State × Bool :=
  let slot := tLdapGetLdId c.tcLdapBindNb key
  let p := probeOpen slot o s
  if (p.1.ld slot).isSome then (p.1, p.2 = ldapSuccess)
  else
    let b := simpleBindRequest c slot o.bind p.1
    if b.2 ≠ 0 then (b.1, false) else (b.1, o.searchNew = ldapSuccess)

/-- The answers met in one turn of the retry loop: the test after the switch, and the one after the
wait. -/
structure Round where
  switched : Answers
  waited : Answers
  deriving DecidableEq, Repr

def switchTest (c : Conf) (r : Round) (s : State) : State × Bool :=
  if c.secondHost then
    let s := unbindRequest (tLdapGetLdId c.tcLdapBindNb c.tcLdapBindNb) s
    tReinitIsAlive c c.tcLdapBindNb r.switched { s with tcActiveServerId := (s.tcActiveServerId + 1) % 2 }
  else (s, false)

/-- The retry loop; it goes on for ever when no test of the given rounds succeeds. -/
def retryLoop (c : Conf) : List Round → State → Option State
  | [], _ => none
  | r :: rs, s =>
      let a := switchTest c r s
      if a.2 then some a.1
      else
        let b := tReinitIsAlive c c.tcLdapBindNb r.waited a.1
        if b.2 then some b.1 else retryLoop c rs b.1

/-- Keys of the connections that `tLdapReinit` visits. -/
def reinitKeys (c : Conf) : List ℕ :=
  match c.policy with
  | .global => (List.range c.tcLdapBindNb).map (workThr + ·)
  | _ => (List.range c.tcWThreadNb).map (workThr + ·)

/-- One rebind; the second component collects the servers the connections are opened to. -/
def rebind (c : Conf) (binds : ℕ → ℤ) (a : State × List ℕ) (key : ℕ) : State × List ℕ :=
  let slot := tLdapGetLdId c.tcLdapBindNb key
  if (a.1.ld slot).isSome then
    ((simpleBindRequest c slot (binds key) (unbindRequest slot a.1)).1,
      a.2 ++ [a.1.tcActiveServerId])
  else a

def tLdapReinit (c : Conf) (binds : ℕ → ℤ) (s : State) : State × List ℕ :=
  if c.tcNoMattedPair then (s, []) else (reinitKeys c).foldl (rebind c binds) (s, [])

/-- The state on return, the server that passed the last test, and the servers the worker
connections were opened to. -/
structure Outcome where
  state : State
  passed : Option ℕ
  opened : List ℕ

def tBreak (c : Conf) (killcalled : Bool) (rounds : List Round) (binds : ℕ → ℤ) (s : State) :
    Option Outcome :=
  if killcalled ∨ c.tcNoMattedPair then some ⟨s, none, []⟩
  else
    (retryLoop c rounds s).map fun t =>
      let r := tLdapReinit c binds t
      ⟨r.1, t.ld (tLdapGetLdId c.tcLdapBindNb c.tcLdapBindNb), r.2⟩

/-- The active server is the one that passed the test, and so are all the reopened connections'. -/
def ReachesLive (out : Outcome) : Prop :=
  out.passed = some out.state.tcActiveServerId ∧ ∀ v ∈ out.opened, some v = out.passed

def SwitchOk (r : Round) : Prop := r.switched.bind = 0 ∧ r.switched.searchNew = 0

/-- The test after the wait opens a new connection: the switch left none, or one found down. -/
def Rebinds (c : Conf) (r : Round) : Prop :=
  (r.switched.bind > 0 ∧ c.quietOnError = false) ∨ r.waited.searchOpen = ldapServerDown

instance (r : Round) : Decidable (SwitchOk r) := inferInstanceAs (Decidable (_ ∧ _))
instance (c : Conf) (r : Round) : Decidable (Rebinds c r) := inferInstanceAs (Decidable (_ ∨ _))

def WaitOk (c : Conf) (r : Round) : Prop :=
  (Rebinds c r ∧ r.waited.bind = 0 ∧ r.waited.searchNew = 0) ∨
    (¬ Rebinds c r ∧ r.waited.searchOpen = 0)

def RoundOk (c : Conf) (r : Round) : Prop := SwitchOk r ∨ WaitOk c r

/-- The test that ends the loop is made on server 0: it is the first round's switch, away from an odd
active server, or a test after the wait that binds again. -/
def EndsOnZero (c : Conf) (rounds : List Round) (s : State) : Prop :=
  ∃ pre r post, rounds = pre ++ r :: post ∧ (∀ p ∈ pre, ¬ RoundOk c p) ∧ RoundOk c r ∧
    if SwitchOk r ∨ ¬ Rebinds c r then pre = [] ∧ s.tcActiveServerId % 2 = 1 else True

instance (c : Conf) (r : Round) : Decidable (WaitOk c r) := inferInstanceAs (Decidable (_ ∨ _))
instance (c : Conf) (r : Round) : Decidable (RoundOk c r) := inferInstanceAs (Decidable (_ ∨ _))

lemma exists_first {c : Conf} {rounds : List Round} {r : Round} (hr : r ∈ rounds)
    (hok : RoundOk c r) :
    ∃ pre q post, rounds = pre ++ q :: post ∧ RoundOk c q ∧ ∀ p ∈ pre, ¬ RoundOk c p := by
  have hfind : (rounds.find? fun p => RoundOk c p).isSome := by
    rw [List.find?_isSome]
    exact ⟨r, hr, by simpa using hok⟩
  obtain ⟨q, hq⟩ := Option.isSome_iff_exists.mp hfind
  obtain ⟨hqok, pre, post, hsplit, hpre⟩ := List.find?_eq_some_iff_append.mp hq
  exact ⟨pre, q, post, hsplit, by simpa using hqok, fun p hp => by simpa using hpre p hp⟩

section onePair
variable {c : Conf} (hnb : c.nbserver = 1) (hsecond : c.secondHost = true)
include hnb

lemma simpleBindRequest_active (slot : ℕ) (bind : ℤ) (s : State) :
    (simpleBindRequest c slot bind s).1.tcActiveServerId = 0 := by
  simp only [simpleBindRequest, hnb, Nat.mod_one]
  split_ifs <;> rfl

lemma foldl_rebind_zero (binds : ℕ → ℤ) (keys : List ℕ) (a : State × List ℕ)
    (ha : a.1.tcActiveServerId = 0 ∧ ∀ v ∈ a.2, v = 0) :
    (keys.foldl (rebind c binds) a).1.tcActiveServerId = 0 ∧
      ∀ v ∈ (keys.foldl (rebind c binds) a).2, v = 0 := by
  induction keys generalizing a with
  | nil => exact ha
  | cons k ks ih =>
    apply ih
    simp only [rebind]
    split_ifs
    · refine ⟨simpleBindRequest_active hnb _ _ _, fun v hv => ?_⟩
      rcases List.mem_append.mp hv with hv | hv
      · exact ha.2 v hv
      · rw [List.mem_singleton.mp hv, ha.1]
    · exact ha

lemma tReinitIsAlive_closed {key : ℕ} {o : Answers} {s : State}
    (hc : s.ld (tLdapGetLdId c.tcLdapBindNb key) = none) :
    (tReinitIsAlive c key o s).1.tcActiveServerId = 0 ∧
    ((tReinitIsAlive c key o s).2 = true ↔ o.bind = 0 ∧ o.searchNew = 0) ∧
    (tReinitIsAlive c key o s).1.ld (tLdapGetLdId c.tcLdapBindNb key) =
      if o.bind > 0 ∧ c.quietOnError = false then none else some s.tcActiveServerId := by
  by_cases hb : o.bind > 0 ∧ c.quietOnError = false
  · simp [tReinitIsAlive, probeOpen, hc, simpleBindRequest, hb, hnb, Nat.mod_one]
    omega
  · by_cases h0 : o.bind = 0
    · simp [tReinitIsAlive, probeOpen, hc, simpleBindRequest, hnb, Nat.mod_one, h0, ldapSuccess]
      exact decide_eq_true_iff
    · simp [tReinitIsAlive, probeOpen, hc, simpleBindRequest, hb, hnb, Nat.mod_one, h0]

omit hnb in
lemma tReinitIsAlive_open {key : ℕ} {o : Answers} {s : State}
    (hc : (s.ld (tLdapGetLdId c.tcLdapBindNb key)).isSome) (ho : o.searchOpen ≠ ldapServerDown) :
    (tReinitIsAlive c key o s).1 = s ∧ ((tReinitIsAlive c key o s).2 = true ↔ o.searchOpen = 0) := by
  simp only [tReinitIsAlive, probeOpen, hc, ho, if_true, if_false, ldapSuccess, true_and]
  exact decide_eq_true_iff

omit hnb in
lemma tReinitIsAlive_down {key : ℕ} {o : Answers} {s : State}
    (hc : (s.ld (tLdapGetLdId c.tcLdapBindNb key)).isSome) (ho : o.searchOpen = ldapServerDown) :
    tReinitIsAlive c key o s =
      tReinitIsAlive c key o (unbindRequest (tLdapGetLdId c.tcLdapBindNb key) s) := by
  simp [tReinitIsAlive, probeOpen, hc, ho, unbindRequest]

include hsecond

lemma switchTest_spec (r : Round) (s : State) :
    (switchTest c r s).1.tcActiveServerId = 0 ∧ ((switchTest c r s).2 = true ↔ SwitchOk r) ∧
    (switchTest c r s).1.ld (tLdapGetLdId c.tcLdapBindNb c.tcLdapBindNb) =
      if r.switched.bind > 0 ∧ c.quietOnError = false then none
      else some ((s.tcActiveServerId + 1) % 2) := by
  simp only [switchTest, hsecond, if_true]
  exact tReinitIsAlive_closed hnb (by simp [unbindRequest])

lemma waitTest_spec (r : Round) (s : State) :
    let t := tReinitIsAlive c c.tcLdapBindNb r.waited (switchTest c r s).1
    t.1.tcActiveServerId = 0 ∧ (t.2 = true ↔ WaitOk c r) ∧
    (WaitOk c r → t.1.ld (tLdapGetLdId c.tcLdapBindNb c.tcLdapBindNb) =
      some (if Rebinds c r then 0 else (s.tcActiveServerId + 1) % 2)) := by
  obtain ⟨ha, _, hld⟩ := switchTest_spec hnb hsecond r s
  set u := (switchTest c r s).1
  have again : ∀ v : State, Rebinds c r → v.tcActiveServerId = 0 →
      v.ld (tLdapGetLdId c.tcLdapBindNb c.tcLdapBindNb) = none →
      let t := tReinitIsAlive c c.tcLdapBindNb r.waited v
      t.1.tcActiveServerId = 0 ∧ (t.2 = true ↔ WaitOk c r) ∧
      (WaitOk c r → t.1.ld (tLdapGetLdId c.tcLdapBindNb c.tcLdapBindNb) =
        some (if Rebinds c r then 0 else (s.tcActiveServerId + 1) % 2)) := by
    intro v hre hv hclosed
    obtain ⟨h1, h2, h3⟩ := tReinitIsAlive_closed hnb (o := r.waited) hclosed
    have hiff : WaitOk c r ↔ r.waited.bind = 0 ∧ r.waited.searchNew = 0 := by
      simp [WaitOk, hre]
    refine ⟨h1, h2.trans hiff.symm, fun hw => ?_⟩
    have h0 := (hiff.mp hw).1
    rw [h3, if_pos hre, if_neg (by omega), hv]
  by_cases hb : r.switched.bind > 0 ∧ c.quietOnError = false
  · rw [if_pos hb] at hld
    exact again u (.inl hb) ha hld
  · rw [if_neg hb] at hld
    have hopen : (u.ld (tLdapGetLdId c.tcLdapBindNb c.tcLdapBindNb)).isSome := by simp [hld]
    by_cases hd : r.waited.searchOpen = ldapServerDown
    · rw [tReinitIsAlive_down hopen hd]
      exact again _ (.inr hd) ha (by simp [unbindRequest])
    · have hre : ¬ Rebinds c r := by simp [Rebinds, hd, hb]
      obtain ⟨h1, h2⟩ := tReinitIsAlive_open hopen hd
      refine ⟨by rw [h1, ha], h2.trans (by simp [WaitOk, hre]), fun _ => ?_⟩
      rw [h1, hld, if_neg hre]

lemma retryLoop_failing {pre : List Round} (hpre : ∀ p ∈ pre, ¬ RoundOk c p) (rest : List Round)
    (s : State) : ∃ t, retryLoop c (pre ++ rest) s = retryLoop c rest t ∧
      (if pre = [] then t = s else t.tcActiveServerId = 0) := by
  induction pre generalizing s with
  | nil => exact ⟨s, rfl, rfl⟩
  | cons p ps ih =>
    have hp := hpre p List.mem_cons_self
    obtain ⟨_, hsw, _⟩ := switchTest_spec hnb hsecond p s
    obtain ⟨ha, hw, _⟩ := waitTest_spec hnb hsecond p s
    obtain ⟨t, ht, hlast⟩ := ih (fun q hq => hpre q (List.mem_cons_of_mem _ hq))
      (tReinitIsAlive c c.tcLdapBindNb p.waited (switchTest c p s).1).1
    refine ⟨t, ?_, ?_⟩
    · rw [List.cons_append, retryLoop, if_neg (fun h => hp (.inl (hsw.mp h))),
        if_neg (fun h => hp (.inr (hw.mp h))), ht]
    · rw [if_neg (List.cons_ne_nil _ _)]
      split_ifs at hlast
      · rw [hlast, ha]
      · exact hlast

lemma retryLoop_stops {r : Round} (hr : RoundOk c r) (post : List Round) (s : State) :
    ∃ t, retryLoop c (r :: post) s = some t ∧ t.tcActiveServerId = 0 ∧
      t.ld (tLdapGetLdId c.tcLdapBindNb c.tcLdapBindNb) =
        some (if ¬ SwitchOk r ∧ Rebinds c r then 0 else (s.tcActiveServerId + 1) % 2) := by
  obtain ⟨hsa, hsw, hsld⟩ := switchTest_spec hnb hsecond r s
  obtain ⟨hwa, hw, hwld⟩ := waitTest_spec hnb hsecond r s
  by_cases h : SwitchOk r
  · refine ⟨_, by rw [retryLoop, if_pos (hsw.mpr h)], hsa, ?_⟩
    have h0 := h.1
    rw [hsld, if_neg (by omega), if_neg (by simp [h])]
  · have hwok : WaitOk c r := hr.resolve_left h
    refine ⟨_, by rw [retryLoop, if_neg (fun hc => h (hsw.mp hc)), if_pos (hw.mpr hwok)], hwa, ?_⟩
    rw [hwld hwok]
    simp [h]

omit hsecond in
lemma tLdapReinit_zero (binds : ℕ → ℤ) {t : State} (ht : t.tcActiveServerId = 0) :
    (tLdapReinit c binds t).1.tcActiveServerId = 0 ∧ ∀ v ∈ (tLdapReinit c binds t).2, v = 0 := by
  unfold tLdapReinit
  split_ifs
  · exact ⟨ht, by simp⟩
  · exact foldl_rebind_zero hnb binds _ _ ⟨ht, by simp⟩

lemma tBreak_at (hon : c.tcNoMattedPair = false) {pre : List Round} {r : Round}
    (hpre : ∀ p ∈ pre, ¬ RoundOk c p) (hr : RoundOk c r) (post : List Round) (binds : ℕ → ℤ)
    (s : State) :
    ∃ out, tBreak c false (pre ++ r :: post) binds s = some out ∧
      (ReachesLive out ↔
        if SwitchOk r ∨ ¬ Rebinds c r then pre = [] ∧ s.tcActiveServerId % 2 = 1 else True) := by
  obtain ⟨t, ht, hlast⟩ := retryLoop_failing hnb hsecond hpre (r :: post) s
  obtain ⟨u, hu, hua, huld⟩ := retryLoop_stops hnb hsecond hr post t
  obtain ⟨hact, hopened⟩ := tLdapReinit_zero hnb binds hua
  refine ⟨_, by simp only [tBreak, hon, ht, hu]; rfl, ?_⟩
  -- everything is opened to server 0, so only the server that passed the test is left to compare
  have hlive : ReachesLive ⟨(tLdapReinit c binds u).1,
      u.ld (tLdapGetLdId c.tcLdapBindNb c.tcLdapBindNb), (tLdapReinit c binds u).2⟩ ↔
      u.ld (tLdapGetLdId c.tcLdapBindNb c.tcLdapBindNb) = some 0 := by
    simp only [ReachesLive, hact]
    exact ⟨And.left, fun h => ⟨h, fun v hv => by rw [h, hopened v hv]⟩⟩
  rw [hlive, huld, Option.some_inj]
  by_cases hcase : SwitchOk r ∨ ¬ Rebinds c r
  · rw [if_pos hcase, if_neg (by tauto)]
    by_cases hnil : pre = []
    · rw [if_pos hnil] at hlast
      simp only [hlast, hnil, true_and]
      omega
    · rw [if_neg hnil] at hlast
      simp [hnil, hlast]
  · rw [if_neg hcase, if_pos (by simpa [not_or] using hcase)]
    simp

lemma tBreak_returns_iff (hon : c.tcNoMattedPair = false) (rounds : List Round) (binds : ℕ → ℤ)
    (s : State) :
    (∃ out, tBreak c false rounds binds s = some out) ↔ ∃ r ∈ rounds, RoundOk c r := by
  constructor
  · rintro ⟨out, hout⟩
    by_contra hno
    push Not at hno
    obtain ⟨t, ht, _⟩ := retryLoop_failing hnb hsecond hno [] s
    simp only [List.append_nil] at ht
    simp [tBreak, hon, ht, retryLoop] at hout
  · rintro ⟨r, hr, hok⟩
    obtain ⟨pre, q, post, rfl, hq, hpre⟩ := exists_first hr hok
    obtain ⟨out, hout, _⟩ := tBreak_at hnb hsecond hon hpre hq post binds s
    exact ⟨out, hout⟩

end onePair

/-- With `nbserver` = 1 the failover reaches the server that passed the test exactly when that server
is the first one. -/
theorem tBreak_reachesLive_iff (c : Conf) (hnb : c.nbserver = 1) (hsecond : c.secondHost = true)
    (hon : c.tcNoMattedPair = false) (rounds : List Round) (binds : ℕ → ℤ) (s : State) :
    ((∃ out, tBreak c false rounds binds s = some out) ↔ ∃ r ∈ rounds, RoundOk c r) ∧
    ∀ out, tBreak c false rounds binds s = some out →
      (ReachesLive out ↔ EndsOnZero c rounds s) := by
  refine ⟨tBreak_returns_iff hnb hsecond hon rounds binds s, fun out hout => ⟨fun hlive => ?_, ?_⟩⟩
  · obtain ⟨r, hr, hok⟩ := (tBreak_returns_iff hnb hsecond hon rounds binds s).mp ⟨out, hout⟩
    obtain ⟨pre, q, post, rfl, hq, hpre⟩ := exists_first hr hok
    obtain ⟨out', hout', hiff⟩ := tBreak_at hnb hsecond hon hpre hq post binds s
    obtain rfl : out' = out := Option.some_inj.mp (hout'.symm.trans hout)
    exact ⟨pre, q, post, rfl, hpre, hq, hiff.mp hlive⟩
  · rintro ⟨pre, q, post, rfl, hpre, hq, hzero⟩
    obtain ⟨out', hout', hiff⟩ := tBreak_at hnb hsecond hon hpre hq post binds s
    obtain rfl : out' = out := Option.some_inj.mp (hout'.symm.trans hout)
    exact hiff.mpr hzero

def pairConf : Conf := ⟨1, 1, .global, 1, true, false, false⟩

def answering : Round := ⟨⟨0, 0, 0⟩, ⟨0, 0, 0⟩⟩

/-- Server 0 fails and server 1 answers the test, but server 0 is made active again and the worker's
connection is reopened to it. -/
theorem failover_back_to_first_server :
    ∃ out, tBreak pairConf false [answering] (fun _ => 0) ⟨0, fun _ => some 0⟩ = some out ∧
      out.passed = some 1 ∧ out.state.tcActiveServerId = 0 ∧ out.opened = [0] ∧
      ¬ ReachesLive out := by
  refine ⟨_, rfl, rfl, rfl, rfl, ?_⟩
  rintro ⟨h, -⟩
  exact absurd h (by decide)

/-- From server 1, the switch goes to server 0 and stays there. -/
theorem failover_to_first_server :
    ∃ out, tBreak pairConf false [answering] (fun _ => 0) ⟨1, fun _ => some 1⟩ = some out ∧
      ReachesLive out := by
  obtain ⟨hreturns, hlive⟩ := tBreak_reachesLive_iff pairConf rfl rfl rfl [answering] (fun _ => 0)
    ⟨1, fun _ => some 1⟩
  obtain ⟨out, hout⟩ := hreturns.mpr ⟨answering, by simp, by decide⟩
  exact ⟨out, hout, (hlive out hout).mpr ⟨[], answering, [], rfl, by simp, by decide, by decide⟩⟩

end LdapTgen.MatedPair
