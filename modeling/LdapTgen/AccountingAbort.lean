import LdapTgen.UserTable

/-! Accounting-On/Off: the sweep of `tRadius_accountRq` over the users of a NAS, one `tUserAbort` at
a time, against the reservations, releases and abort checks of the other workers. -/
namespace LdapTgen.AccountingAbort
open LabelledRun UserTable

structure Conf extends UserTable.Conf where
  tcRadiusNbNas : ℕ
  deriving DecidableEq, Repr

/-- A scenario instance in progress. `sweep` is the index of the abort loop while the instance is
inside its own Accounting-On/Off request. -/
structure Instance where
  user : ℕ
  sweep : Option ℕ
  deriving DecidableEq, Repr

structure System where
  sys : UserTable.State
  insts : List Instance

/-- What a worker does for one of the instances, `i` being its rank in the list. -/
inductive Event
  | start (sce : Option TSce) (rand : ℕ) (now : ℤ)
  | finish (i : ℕ) (now : ℤ)
  | abortCheck (i : ℕ) (now : ℤ)
  | accountOnOff (i : ℕ)
  | sweep (i : ℕ) (now : ℤ)

def release (s : System) (i : ℕ) (inst : Instance) (now : ℤ) : System :=
  ⟨tUserFree inst.user now s.sys, s.insts.eraseIdx i⟩

/-- `finish` is the end of a scenario, normal or on error; `abortCheck` the test made before each
RADIUS request. Both are made by an instance that is not inside the abort loop. -/
def step (c : Conf) (s : System) : Event → Option System
  | .start sce rand now => (tUserGetRandomly c.toConf sce rand now s.sys).map fun r =>
      ⟨r.1, r.2.toList.map (⟨·, none⟩) ++ s.insts⟩
  | .finish i now => do
      let inst ← s.insts[i]?
      if inst.sweep = none then some (release s i inst now) else none
  | .abortCheck i now => do
      let inst ← s.insts[i]?
      if inst.sweep = none then
        some (if tUserIsAborted inst.user s.sys then release s i inst now else s)
      else none
  | .accountOnOff i => do
      let inst ← s.insts[i]?
      if inst.sweep = none ∧ c.tcRadiusNbNas ≠ 0 then
        some { s with insts := s.insts.set i { inst with sweep := some (inst.user % c.tcRadiusNbNas) } }
      else none
  | .sweep i now => do
      let inst ← s.insts[i]?
      let uid ← inst.sweep
      if uid < c.tcUserNb then
        some ⟨tUserAbort uid now s.sys, s.insts.set i { inst with sweep := some (uid + c.tcRadiusNbNas) }⟩
      else some { s with insts := s.insts.set i { inst with sweep := none } }

def Reserved (s : System) (u : ℕ) : Prop := ∃ inst ∈ s.insts, inst.user = u

def NoStranded (s : System) : Prop := ∀ u, (s.sys.tab u).exeState = .abort → Reserved s u

def SweepsReserved (c : Conf) (s : System) : Event → Prop
  | .sweep i _ => ∀ inst uid, s.insts[i]? = some inst → inst.sweep = some uid →
      uid < c.tcUserNb → Reserved s uid
  | _ => True

lemma reserved_set {s : System} {i : ℕ} {inst : Instance} (hi : s.insts[i]? = some inst)
    (w : Option ℕ) (u : ℕ) (sys : UserTable.State) :
    Reserved ⟨sys, s.insts.set i { inst with sweep := w }⟩ u ↔ Reserved s u := by
  have hmap : (s.insts.set i { inst with sweep := w }).map Instance.user = s.insts.map Instance.user := by
    apply List.ext_getElem?
    intro j
    by_cases hj : i = j
    · subst hj
      obtain ⟨hlt, he⟩ := List.getElem?_eq_some_iff.mp hi
      simp [hlt, he]
    · simp [hj]
  have key : ∀ l : List Instance, (∃ x ∈ l, x.user = u) ↔ u ∈ l.map Instance.user := by simp
  simp only [Reserved, key, hmap]

lemma tUserGetRandomly_keeps_aborted {c : UserTable.Conf} {sce : Option TSce} {rand : ℕ} {now : ℤ}
    {s : UserTable.State} {r : UserTable.State × Option ℕ}
    (h : tUserGetRandomly c sce rand now s = some r) {u : ℕ} (hu : (r.1.tab u).exeState = .abort) :
    (s.tab u).exeState = .abort := by
  obtain ⟨i, _, ⟨_, rfl⟩ | ⟨_, rfl⟩⟩ := tUserGetRandomly_cases h
  · exact hu
  · by_cases he : u = i.toNat
    · simp [he, reserve] at hu
    · simpa [reserve, Function.update, he] using hu

lemma release_noStranded {s : System} (hs : NoStranded s) {i : ℕ} {inst : Instance}
    (hi : s.insts[i]? = some inst) (now : ℤ) : NoStranded (release s i inst now) := by
  intro u hu
  by_cases he : u = inst.user
  · simp [release, tUserFree, he] at hu
  · have ha : (s.sys.tab u).exeState = .abort := by
      simpa [release, tUserFree, Function.update, he] using hu
    obtain ⟨x, hx, rfl⟩ := hs u ha
    refine ⟨x, ?_, rfl⟩
    -- x is another instance than the one that ends, since it runs another user
    obtain ⟨j, hj⟩ := List.mem_iff_getElem?.mp hx
    have hij : j ≠ i := by
      rintro rfl
      rw [hi] at hj
      exact he (congrArg Instance.user (Option.some.inj hj)).symm
    exact List.mem_eraseIdx_iff_getElem?.mpr ⟨j, hij, hj⟩

lemma sweep_noStranded_iff {s : System} (hs : NoStranded s) {i uid : ℕ} {now : ℤ}
    {inst : Instance} (hi : s.insts[i]? = some inst) (w : Option ℕ) :
    NoStranded ⟨tUserAbort uid now s.sys, s.insts.set i { inst with sweep := w }⟩ ↔
      Reserved s uid := by
  constructor
  · intro h
    exact (reserved_set hi w uid _).mp (h uid (by simp [tUserAbort]))
  · intro hr u hu
    refine (reserved_set hi w u _).mpr ?_
    by_cases he : u = uid
    · exact he ▸ hr
    · exact hs u (by simpa [tUserAbort, Function.update, he] using hu)

lemma sweepsReserved_iff {c : Conf} {s : System} {i uid : ℕ} {now : ℤ} {inst : Instance}
    (hi : s.insts[i]? = some inst) (hw : inst.sweep = some uid) :
    SweepsReserved c s (.sweep i now) ↔ (uid < c.tcUserNb → Reserved s uid) := by
  constructor
  · intro hg
    exact hg inst uid hi hw
  · intro hr inst' uid' hi' hw'
    obtain rfl : inst = inst' := Option.some.inj (hi.symm.trans hi')
    obtain rfl : uid = uid' := Option.some.inj (hw.symm.trans hw')
    exact hr

lemma step_noStranded_iff {c : Conf} {s t : System} {e : Event} (hs : NoStranded s)
    (h : step c s e = some t) : NoStranded t ↔ SweepsReserved c s e := by
  cases e with
  | start sce rand now =>
    obtain ⟨r, hr, rfl⟩ := Option.map_eq_some_iff.mp h
    refine iff_of_true (fun u hu => ?_) trivial
    obtain ⟨x, hx, hxu⟩ := hs u (tUserGetRandomly_keeps_aborted hr hu)
    exact ⟨x, List.mem_append_right _ hx, hxu⟩
  | finish i now =>
    simp only [step, Option.bind_eq_bind, Option.bind_eq_some_iff] at h
    obtain ⟨inst, hi, h⟩ := h
    split_ifs at h
    obtain rfl := Option.some.inj h
    exact iff_of_true (release_noStranded hs hi now) trivial
  | abortCheck i now =>
    simp only [step, Option.bind_eq_bind, Option.bind_eq_some_iff] at h
    obtain ⟨inst, hi, h⟩ := h
    split_ifs at h
    · obtain rfl := Option.some.inj h
      exact iff_of_true (release_noStranded hs hi now) trivial
    · obtain rfl := Option.some.inj h
      exact iff_of_true hs trivial
  | accountOnOff i =>
    simp only [step, Option.bind_eq_bind, Option.bind_eq_some_iff] at h
    obtain ⟨inst, hi, h⟩ := h
    split_ifs at h
    obtain rfl := Option.some.inj h
    exact iff_of_true (fun u hu => (reserved_set hi _ u _).mpr (hs u hu)) trivial
  | sweep i now =>
    simp only [step, Option.bind_eq_bind, Option.bind_eq_some_iff] at h
    obtain ⟨inst, hi, uid, hw, h⟩ := h
    rw [sweepsReserved_iff hi hw]
    split_ifs at h with hlt
    · obtain rfl := Option.some.inj h
      rw [sweep_noStranded_iff hs hi]
      exact ⟨fun hr _ => hr, fun hg => hg hlt⟩
    · obtain rfl := Option.some.inj h
      exact iff_of_true (fun u hu => (reserved_set hi _ u _).mpr (hs u hu)) (absurd · hlt)

lemma step_defined {c : Conf} {s : System} {e : Event} (h : ¬ SweepsReserved c s e) :
    ∃ t, step c s e = some t := by
  cases e with
  | sweep i now =>
    simp only [SweepsReserved, not_forall] at h
    obtain ⟨inst, uid, hi, hw, hlt, _⟩ := h
    simp [step, hi, hw, hlt]
  | _ => exact absurd trivial h

end LdapTgen.AccountingAbort
