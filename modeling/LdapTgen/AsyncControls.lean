import LdapTgen.AsyncMoves

/-! The controls in force on a connection when `ldap_search` is called. A request with controls sets
them on the handle, which all requests of the connection share, and they stay until the result of
some request with controls is treated or the handle is replaced. -/
namespace LdapTgen.AsyncControls
open LabelledRun LdapLists AsyncSystem

/-- Every call of `ldap_search` so far was made under the controls of its own request. -/
def OwnControls (s : State) : Prop :=
  ∀ d k own inForce, .searched d k own inForce ∈ s.log → inForce = own

/-- The last event on the connection that touches its controls is a search with controls. -/
def armed (d : ℕ) : List Event → Bool
  | [] => false
  | .searched d' _ own _ :: l => if d' = d ∧ own.isSome then true else armed d l
  | .treated d' _ ctrls :: l => if d' = d ∧ ctrls.isSome then false else armed d l
  | .restarted d' :: l => if d' = d then false else armed d l
  | .started _ :: l => armed d l
  | .completed _ :: l => armed d l
  | .sample _ :: l => armed d l

def sendsPlain : Pc → Bool
  | .sending _ _ none => true
  | _ => false

/-- A request without controls is not sent on a connection where controls were set last. -/
def Unarmed (c : Conf) (s : State) : Label → Prop
  | .worker w _ => sendsPlain (s.pc w) = true → armed (ldId c w) s.log = false
  | _ => True

instance (c : Conf) (s : State) : ∀ e, Decidable (Unarmed c s e)
  | .worker _ _ => inferInstanceAs (Decidable (_ → _))
  | .deliver _ _ _ => .isTrue trivial
  | .connError _ _ _ => .isTrue trivial
  | .topTU => .isTrue trivial
  | .main => .isTrue trivial

def Tracked (s : State) : Prop := ∀ d, (s.conn d).ctrls.isSome = armed d s.log

def neutral : Event → Bool
  | .started _ | .completed _ | .sample _ => true
  | _ => false

inductive Effect (c : Conf) (s : State) : Label → State → Prop
  | keep {e t l} (hctrls : ∀ d, (t.conn d).ctrls = (s.conn d).ctrls) (hlog : t.log = l ++ s.log)
      (hl : ∀ ev ∈ l, neutral ev = true)
      (he : ∀ w i, e = .worker w i → sendsPlain (s.pc w) = false) : Effect c s e t
  | search {w i t k r sctrl} (hpc : s.pc w = .sending k r sctrl)
      (hctrls : ∀ d, (t.conn d).ctrls =
        if d = ldId c w ∧ sctrl.isSome then sctrl else (s.conn d).ctrls)
      (hlog : t.log = .searched (ldId c w) k sctrl
        (if sctrl.isSome then sctrl else (s.conn (ldId c w)).ctrls) :: s.log) :
      Effect c s (.worker w i) t
  | treat {w i t k ctrls} (hpc : sendsPlain (s.pc w) = false)
      (hctrls : ∀ d, (t.conn d).ctrls =
        if d = ldId c w ∧ ctrls.isSome then none else (s.conn d).ctrls)
      (hlog : t.log = .treated (ldId c w) k ctrls :: s.log) : Effect c s (.worker w i) t
  | restart {d myerrno reopened t l}
      (hctrls : ∀ d', (t.conn d').ctrls = if d' = d then none else (s.conn d').ctrls)
      (hlog : t.log = l ++ .restarted d :: s.log) (hl : ∀ ev ∈ l, neutral ev = true) :
      Effect c s (.connError d myerrno reopened) t

section Effects
variable {c : Conf} {s t : State}

lemma setConn_ctrls (s : State) (d : ℕ) (x : Conn) (d' : ℕ) :
    ((s.setConn d x).conn d').ctrls = if d' = d then x.ctrls else (s.conn d').ctrls := by
  by_cases h : d' = d
  · subst h
    simp [State.setConn]
  · simp [State.setConn, h]

lemma setConn_same_ctrls (s : State) (d : ℕ) (x : Conn) (hx : x.ctrls = (s.conn d).ctrls) (d' : ℕ) :
    ((s.setConn d x).conn d').ctrls = (s.conn d').ctrls := by
  rw [setConn_ctrls]
  by_cases h : d' = d
  · rw [if_pos h, hx, h]
  · rw [if_neg h]

lemma setLists_ctrls (s : State) (d : ℕ) (l : LdapLd) (d' : ℕ) :
    ((s.setLists d l).conn d').ctrls = (s.conn d').ctrls := setConn_same_ctrls s d _ (by rfl) d'

lemma armed_append {d : ℕ} {l m : List Event} (hl : ∀ ev ∈ l, neutral ev = true) :
    armed d (l ++ m) = armed d m := by
  induction l with
  | nil => rfl
  | cons ev l ih =>
    have hev : neutral ev = true := hl ev (by simp)
    have hrest := ih fun ev' h => hl ev' (by simp [h])
    cases ev with
    | started | completed | sample => exact hrest
    | searched | treated | restarted => cases hev

lemma markPending_effect {heap : TailedList.Heap Entry} {myerrno : ℤ} {n : ℕ} {a : Option ℕ}
    (h : markPending heap myerrno n a s = some t) :
    t.conn = s.conn ∧ ∃ l, t.log = l ++ s.log ∧ ∀ ev ∈ l, neutral ev = true := by
  refine markPending_invariant
    (P := fun u => u.conn = s.conn ∧ ∃ l, u.log = l ++ s.log ∧ ∀ ev ∈ l, neutral ev = true) ?_ h
    ⟨rfl, [], rfl, by simp⟩
  intro u e x r q hu _ _ _ _
  obtain ⟨hconn, l, hlog, hl⟩ := hu
  refine ⟨hconn, .sample (some e.sleepCtx) :: l, ?_, ?_⟩
  · simp [State.record, State.setReq, hlog]
  · intro ev hev
    rcases List.mem_cons.mp hev with rfl | hev
    · rfl
    · exact hl ev hev

variable {w : ℕ} {i : Input}

lemma keep_worker {p : Pc} (hpc : s.pc w = p) (hp : sendsPlain p = false)
    (hctrls : ∀ d, (t.conn d).ctrls = (s.conn d).ctrls) {l : List Event} (hlog : t.log = l ++ s.log)
    (hl : ∀ ev ∈ l, neutral ev = true) : Effect c s (.worker w i) t := by
  refine .keep hctrls hlog hl fun w' i' he => ?_
  cases he
  rw [hpc]
  exact hp

lemma prepareSend_effect {u : State} {k r : ℕ} {sctrl : Ctrls}
    (h : prepareSend c w s k r sctrl = some u) :
    (∀ d, (u.conn d).ctrls = if d = ldId c w ∧ sctrl.isSome then sctrl else (s.conn d).ctrls) ∧
      u.log = .searched (ldId c w) k sctrl
        (if sctrl.isSome then sctrl else (s.conn (ldId c w)).ctrls) :: s.log := by
  obtain ⟨q, _, _, rfl⟩ := prepareSend_some h
  refine ⟨fun d => ?_, rfl⟩
  refine (setConn_ctrls (s.setReq r _) (ldId c w) _ d).trans ?_
  by_cases hd : d = ldId c w
  · simp [hd]
  · simp [hd, State.setReq]

theorem worker_effect (hm : WorkerMove c w s i t) : Effect c s (.worker w i) t := by
  cases hm with
  | readResp hpc | readStray hpc | markResp hpc | pop hpc | noPop hpc | wake hpc | expire hpc
  | discard hpc | markTimeout hpc | lookAgain hpc | notEnding hpc | leave hpc | newScenario hpc
  | close hpc | finish hpc | startWait hpc | other hpc | setSleep hpc | refuseSleep hpc | insert hpc
  | nullLd hpc | newReq hpc =>
    exact keep_worker hpc rfl (fun _ => rfl) (l := []) rfl (by simp)
  | response hpc | noResponse hpc | removeRequest hpc =>
    exact keep_worker hpc rfl (setLists_ctrls s _ _) (l := []) rfl (by simp)
  | startSearch hpc =>
    exact keep_worker hpc rfl (fun _ => rfl) (l := [.started s.nextCtx]) rfl (by simp [neutral])
  | @failed _ k _ hpc | @freeTimeout _ k _ _ _ hpc | @freeReq _ k _ _ _ hpc =>
    exact keep_worker hpc rfl (fun _ => rfl) (l := [.completed k, .sample (some k)]) rfl
      (by simp [neutral])
  | @sent _ _ _ u _ _ _ hpc hu =>
    obtain ⟨hctrls, hlog⟩ := prepareSend_effect hu
    refine .search hpc (fun d => ?_) hlog
    rw [← hctrls d]
    exact setConn_same_ctrls u (ldId c w) _ (by rfl) d
  | sendError hpc hu =>
    obtain ⟨hctrls, hlog⟩ := prepareSend_effect hu
    exact .search hpc hctrls hlog
  | treat hpc =>
    refine .treat (by rw [hpc]; rfl) (fun d => ?_) rfl
    refine (setConn_ctrls s (ldId c w) _ d).trans ?_
    by_cases hd : d = ldId c w
    · simp [hd]
    · simp [hd]

lemma keep_other {e : Label} (he : ∀ w i, e ≠ .worker w i)
    (hctrls : ∀ d, (t.conn d).ctrls = (s.conn d).ctrls) {l : List Event} (hlog : t.log = l ++ s.log)
    (hl : ∀ ev ∈ l, neutral ev = true) : Effect c s e t :=
  .keep hctrls hlog hl fun w i h => absurd h (he w i)

theorem step_effect {e : Label} (h : step c s e = some t) : Effect c s e t := by
  cases step_move h with
  | worker hw hm => exact worker_effect hm
  | @unknown d | @delivered d =>
    exact keep_other (by simp) (fun d' => setConn_same_ctrls s d _ (by rfl) d') (l := []) rfl (by simp)
  | @restart d _ reopened u l he hu =>
    obtain ⟨hconn, m, hlog, hm⟩ := markPending_effect hu
    refine .restart (fun d' => ?_) hlog hm
    rw [setLists_ctrls, hconn]
    exact setConn_ctrls s d _ d'
  | otherError =>
    exact keep_other (by simp) (fun _ => rfl) (l := [.sample none]) rfl (by simp [neutral])
  | topTU ht =>
    rw [stepTopTU_frame ht]
    exact keep_other (by simp) (fun _ => rfl) (l := []) rfl (by simp)
  | main ht =>
    rw [stepMain_frame ht]
    exact keep_other (by simp) (fun _ => rfl) (l := []) rfl (by simp)

theorem effect_tracked {e : Label} (hs : Tracked s) (h : Effect c s e t) : Tracked t := by
  intro d
  have hd := hs d
  cases h with
  | keep hctrls hlog hl he => rw [hctrls, hlog, armed_append hl, hd]
  | @search w i _ k r sctrl hpc hctrls hlog =>
    rw [hctrls, hlog, armed]
    by_cases hc : d = ldId c w ∧ sctrl.isSome = true
    · rw [if_pos hc, if_pos ⟨hc.1.symm, hc.2⟩, hc.2]
    · rw [if_neg hc, if_neg (fun h => hc ⟨h.1.symm, h.2⟩), hd]
  | @treat w i _ k ctrls hpc hctrls hlog =>
    rw [hctrls, hlog, armed]
    by_cases hc : d = ldId c w ∧ ctrls.isSome = true
    · rw [if_pos hc, if_pos ⟨hc.1.symm, hc.2⟩, Option.isSome_none]
    · rw [if_neg hc, if_neg (fun h => hc ⟨h.1.symm, h.2⟩), hd]
  | @restart d' _ _ _ l hctrls hlog hl =>
    rw [hctrls, hlog, armed_append hl, armed]
    by_cases hc : d = d'
    · rw [if_pos hc, if_pos hc.symm, Option.isSome_none]
    · rw [if_neg hc, if_neg (Ne.symm hc), hd]

lemma effect_log {e : Label} (h : Effect c s e t) : s.log ⊆ t.log := by
  cases h with
  | keep hctrls hlog => simp [hlog]
  | search hpc hctrls hlog => simp [hlog]
  | treat hpc hctrls hlog => simp [hlog]
  | restart hctrls hlog => exact hlog ▸ fun ev hev => by simp [hev]

lemma effect_foreign {e : Label} (hs : ¬ OwnControls s) (h : Effect c s e t) : ¬ OwnControls t :=
  fun ht => hs fun d k own inForce hev => ht d k own inForce (effect_log h hev)

/-- A request without controls sent after one with controls goes out under foreign controls. -/
lemma armed_foreign {e : Label} (hs : Tracked s) (he : ¬ Unarmed c s e) (h : Effect c s e t) :
    ¬ OwnControls t := by
  intro ht
  cases e with
  | worker w i =>
    simp only [Unarmed, Classical.not_imp, Bool.not_eq_false] at he
    obtain ⟨hplain, harmed⟩ := he
    cases h with
    | keep _ _ _ hno => simp [hno w i rfl] at hplain
    | treat hpc => simp [hpc] at hplain
    | @search _ _ _ k r sctrl hpc hctrls hlog =>
      rw [hpc] at hplain
      cases sctrl with
      | some l => cases hplain
      | none =>
        have hnone := ht (ldId c w) k none (s.conn (ldId c w)).ctrls (by simp [hlog])
        have hsome := (hs (ldId c w)).trans harmed
        simp [hnone] at hsome
  | deliver | connError | topTU | main => exact he trivial

theorem effect_own {e : Label} (hs : Tracked s) (hown : OwnControls s) (he : Unarmed c s e)
    (h : Effect c s e t) : OwnControls t := by
  intro d k own inForce hev
  cases h with
  | keep hctrls hlog hl =>
    rw [hlog] at hev
    rcases List.mem_append.mp hev with hev | hev
    · exact absurd (hl _ hev) (by simp [neutral])
    · exact hown d k own inForce hev
  | @search w i _ k' r sctrl hpc hctrls hlog =>
    rw [hlog] at hev
    rcases List.mem_cons.mp hev with hnew | hev
    · cases hnew
      cases own with
      | some l => rfl
      | none =>
        have hnone := he (by rw [hpc]; rfl)
        rw [← hs (ldId c w)] at hnone
        simpa using hnone
    · exact hown d k own inForce hev
  | treat hpc hctrls hlog =>
    rw [hlog] at hev
    rcases List.mem_cons.mp hev with hnew | hev
    · cases hnew
    · exact hown d k own inForce hev
  | restart hctrls hlog hl =>
    rw [hlog] at hev
    rcases List.mem_append.mp hev with hev | hev
    · exact absurd (hl _ hev) (by simp [neutral])
    · rcases List.mem_cons.mp hev with hnew | hev
      · cases hnew
      · exact hown d k own inForce hev

end Effects

lemma init_tracked : Tracked init := fun _ => rfl

lemma init_own : OwnControls init := by simp [OwnControls, init]

/-- In a run every search was sent under its own controls exactly when no request without controls
was sent on a connection where controls were set last. -/
theorem own_controls_iff (c : Conf) (es : List Label) (t : State)
    (hrun : run (step c) init es = some t) :
    OwnControls t ↔ Guarded (step c) (Unarmed c) init es := by
  constructor
  · intro hown
    have hcases := guarded_or_persistent (I := Tracked) (B := fun s => ¬ OwnControls s)
      (G := Unarmed c) (fun s e t hs h => effect_tracked hs (step_effect h))
      (fun s e t _ hb h => effect_foreign hb (step_effect h))
      (fun s e t hs he h => armed_foreign hs he (step_effect h)) init_tracked hrun
    exact hcases.resolve_right fun hb => hb hown
  · intro hg
    have hboth : Tracked t ∧ OwnControls t :=
      run_invariant (I := fun s => Tracked s ∧ OwnControls s)
        (fun s e t hs he h => ⟨effect_tracked hs.1 (step_effect h),
          effect_own hs.1 hs.2 he (step_effect h)⟩) ⟨init_tracked, init_own⟩ hg hrun
    exact hboth.2

def searchLabels (sctrl : Ctrls) (a : ℕ) : List Label :=
  List.replicate 4 (Label.worker 0 .tau) ++ .worker 0 (.search sctrl none) ::
    List.replicate 3 (.worker 0 .tau) ++ [.worker 0 (.sent a 0)]

/-- A search with controls and then one without, on the same connection and before the result of the
first: the second is sent under the controls of the first. -/
theorem plain_search_under_foreign_controls :
    ∃ s, run (step ⟨1, 1, 400, 5, false⟩) init (searchLabels (some 7) 0 ++ searchLabels none 1) =
        some s ∧ .searched 0 1 none (some 7) ∈ s.log ∧ ¬ OwnControls s := by
  have hrun : (run (step ⟨1, 1, 400, 5, false⟩) init
      (searchLabels (some 7) 0 ++ searchLabels none 1)).map
      (fun s => decide (.searched 0 1 none (some 7) ∈ s.log)) = some true := by decide +kernel
  obtain ⟨s, hs, hmem⟩ := Option.map_eq_some_iff.mp hrun
  have hev := of_decide_eq_true hmem
  refine ⟨s, hs, hev, fun hown => ?_⟩
  cases hown 0 1 none (some 7) hev

/-- The two searches the other way round. -/
theorem plain_search_first :
    ∃ s, run (step ⟨1, 1, 400, 5, false⟩) init (searchLabels none 0 ++ searchLabels (some 7) 1) =
        some s ∧ .searched 0 0 none none ∈ s.log ∧ OwnControls s := by
  have hrun : (run (step ⟨1, 1, 400, 5, false⟩) init
      (searchLabels none 0 ++ searchLabels (some 7) 1)).map
      (fun s => decide (.searched 0 0 none none ∈ s.log)) = some true := by decide +kernel
  obtain ⟨s, hs, hmem⟩ := Option.map_eq_some_iff.mp hrun
  exact ⟨s, hs, of_decide_eq_true hmem, (own_controls_iff ⟨1, 1, 400, 5, false⟩
    (searchLabels none 0 ++ searchLabels (some 7) 1) s hs).mpr (by decide +kernel)⟩

end LdapTgen.AsyncControls
