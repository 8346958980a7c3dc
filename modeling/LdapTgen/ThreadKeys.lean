import LdapTgen.Common

/-! Keys of the threads and the connection slots they address: the numbers that `tConfInit` leaves in
force, the keys handed out by `tThreadStart`, and `tLdap_getLdId` on each of them. -/
namespace LdapTgen.ThreadKeys

def mainThr : ℕ := 0
def statThr : ℕ := 1
def slctThr : ℕ := 2
def globalMaxLdapbind : ℕ := 50

/-- What `tConfInit` starts from: the options `-z` and `-b`, and the keys `nb_threads` and
`bind_policy` of the ini file. -/
structure Settings where
  optThreads : Option ℕ+
  optBind : Option ℕ+
  nbThreads : Option ℕ+
  bindPolicy : Option ℤ
  deriving DecidableEq

structure Conf where
  tcWThreadNb : ℕ+
  tcLdapBindNb : ℕ+
  tcLdapSessionPolicy : ℤ
  deriving DecidableEq

def ldapSesPolicyGlobal : ℤ := 1
def ldapSesPolicyLocalThr : ℤ := 3

/-- The part of `tConfInit` that sets the numbers of threads and of connections. -/
def tConfInit (g : Settings) : Conf :=
  let tcWThreadNb := g.optThreads.getD (g.nbThreads.getD 1)
  let tcLdapBindNb := g.optBind.getD 1
  let policy := g.bindPolicy.getD ldapSesPolicyLocalThr
  if policy = ldapSesPolicyGlobal then
    ⟨tcWThreadNb, if globalMaxLdapbind < tcLdapBindNb then 50 else tcLdapBindNb, policy⟩
  else ⟨tcWThreadNb, tcWThreadNb, policy⟩

def Global (c : Conf) : Prop := c.tcLdapSessionPolicy = ldapSesPolicyGlobal

instance (c : Conf) : Decidable (Global c) := inferInstanceAs (Decidable (_ = _))

def selectKeys (c : Conf) : List ℕ :=
  if Global c then List.range' slctThr c.tcLdapBindNb else []

def workerKeys (c : Conf) : List ℕ := List.range' workThr c.tcWThreadNb

/-- The keys that `tThreadStart` passes to `pthread_create`: all of them for `num = 0`, else only the
one asked for. -/
def tThreadStart (c : Conf) (num : ℕ) : List ℕ :=
  (statThr :: selectKeys c ++ workerKeys c).filter fun key => num = 0 ∨ num = key

/-- Number of entries that `tThreadInit` allocates for `tThreadConfTab`. -/
def tThreadConfTabSize (c : Conf) : ℕ := c.tcWThreadNb + workThr

/-- The main thread, and the threads that `tThreadInit` starts. -/
def tThreadInit (c : Conf) : List ℕ := mainThr :: tThreadStart c 0

def KeysDistinct (c : Conf) : Prop := (tThreadInit c).Nodup

def KeysInTable (c : Conf) : Prop := ∀ key ∈ tThreadInit c, key < tThreadConfTabSize c

def ldapCallers (c : Conf) : List ℕ := mainThr :: (selectKeys c ++ workerKeys c)

/-- No caller addresses a slot beyond the last one of `tLdapLdTab`. -/
def SlotsInTable (c : Conf) : Prop :=
  ∀ key ∈ ldapCallers c, tLdapGetLdId c.tcLdapBindNb key ≤ c.tcLdapBindNb

/-- The slot that the main thread monitors the server with is no worker's. -/
def MonitorApart (c : Conf) : Prop :=
  ∀ key ∈ workerKeys c,
    tLdapGetLdId c.tcLdapBindNb c.tcLdapBindNb ≠ tLdapGetLdId c.tcLdapBindNb key

instance (c : Conf) : Decidable (KeysDistinct c) := inferInstanceAs (Decidable (List.Nodup _))
instance (c : Conf) : Decidable (KeysInTable c) :=
  inferInstanceAs (Decidable (∀ key ∈ tThreadInit c, _))
instance (c : Conf) : Decidable (SlotsInTable c) :=
  inferInstanceAs (Decidable (∀ key ∈ ldapCallers c, _))
instance (c : Conf) : Decidable (MonitorApart c) :=
  inferInstanceAs (Decidable (∀ key ∈ workerKeys c, _))

lemma ldId_of_lt {b key : ℕ} (h : key < 12) : tLdapGetLdId b key = key := if_pos h

lemma ldId_of_le {b key : ℕ} (h : 12 ≤ key) : tLdapGetLdId b key = (key - 12) % b :=
  if_neg (Nat.not_lt.mpr h)

lemma mem_workerKeys {c : Conf} {key : ℕ} :
    key ∈ workerKeys c ↔ 12 ≤ key ∧ key < 12 + c.tcWThreadNb :=
  List.mem_range'_1

lemma mem_selectKeys {c : Conf} {key : ℕ} :
    key ∈ selectKeys c ↔ Global c ∧ 2 ≤ key ∧ key < 2 + c.tcLdapBindNb := by
  unfold selectKeys
  split_ifs with hg
  · simp [hg, slctThr]
  · simp [hg]

lemma tThreadInit_eq (c : Conf) : tThreadInit c = 0 :: 1 :: (selectKeys c ++ workerKeys c) := by
  simp [tThreadInit, tThreadStart, mainThr, statThr]

lemma nodup_selectKeys (c : Conf) : (selectKeys c).Nodup := by
  unfold selectKeys
  split_ifs
  · exact List.nodup_range'
  · exact List.nodup_nil

lemma keysDistinct_iff_disjoint (c : Conf) :
    KeysDistinct c ↔ List.Disjoint (selectKeys c) (workerKeys c) := by
  have h0 : 0 ∉ selectKeys c ++ workerKeys c := by
    simp [mem_selectKeys, mem_workerKeys]
  have h1 : 1 ∉ selectKeys c ++ workerKeys c := by
    simp [mem_selectKeys, mem_workerKeys]
  have hw : (workerKeys c).Nodup := List.nodup_range'
  rw [KeysDistinct, tThreadInit_eq, List.nodup_cons, List.nodup_cons, List.nodup_append']
  simp [h0, h1, hw, nodup_selectKeys]

lemma disjoint_keys_iff (c : Conf) :
    List.Disjoint (selectKeys c) (workerKeys c) ↔ (Global c → (c.tcLdapBindNb : ℕ) ≤ 10) := by
  have hw := c.tcWThreadNb.pos
  constructor
  · intro hd hg
    by_contra hb
    exact hd (a := 12) (mem_selectKeys.mpr ⟨hg, by omega, by omega⟩)
      (mem_workerKeys.mpr ⟨le_rfl, by omega⟩)
  · intro hb key hs hk
    obtain ⟨hg, h2, hlt⟩ := mem_selectKeys.mp hs
    have := (mem_workerKeys.mp hk).1
    have := hb hg
    omega

lemma keysInTable_of_le {c : Conf} (hb : Global c → (c.tcLdapBindNb : ℕ) ≤ 10) :
    KeysInTable c := by
  intro key hkey
  have hw := c.tcWThreadNb.pos
  rw [tThreadInit_eq] at hkey
  simp only [List.mem_cons, List.mem_append, mem_selectKeys, mem_workerKeys] at hkey
  simp only [tThreadConfTabSize, workThr]
  rcases hkey with rfl | rfl | ⟨hg, _, hlt⟩ | ⟨_, hlt⟩
  · omega
  · omega
  · have := hb hg
    omega
  · omega

lemma tConfInit_global_iff (g : Settings) :
    Global (tConfInit g) ↔ g.bindPolicy.getD ldapSesPolicyLocalThr = ldapSesPolicyGlobal := by
  dsimp only [Global, tConfInit]
  split_ifs with h <;> exact Iff.rfl

lemma tConfInit_threads (g : Settings) :
    (tConfInit g).tcWThreadNb = g.optThreads.getD (g.nbThreads.getD 1) := by
  dsimp only [tConfInit]
  split_ifs <;> rfl

lemma tConfInit_bind_global {g : Settings} (hg : Global (tConfInit g)) :
    ((tConfInit g).tcLdapBindNb : ℕ) = min (g.optBind.getD 1 : ℕ) 50 := by
  rw [tConfInit_global_iff] at hg
  unfold tConfInit
  rw [if_pos hg]
  dsimp only
  split_ifs with h
  · exact (Nat.min_eq_right (Nat.le_of_lt h)).symm
  · exact (Nat.min_eq_left (Nat.le_of_not_lt h)).symm

lemma tConfInit_bind_local {g : Settings} (hg : ¬ Global (tConfInit g)) :
    (tConfInit g).tcLdapBindNb = (tConfInit g).tcWThreadNb := by
  rw [tConfInit_global_iff] at hg
  unfold tConfInit
  rw [if_neg hg]

/-- The keys of all threads are distinct and fit in the table exactly when the global policy, if it is
chosen, is used with at most ten connections. -/
theorem thread_keys_iff (g : Settings) :
    KeysDistinct (tConfInit g) ∧ KeysInTable (tConfInit g) ↔
      (g.bindPolicy.getD ldapSesPolicyLocalThr = ldapSesPolicyGlobal →
        (g.optBind.getD 1 : ℕ) ≤ 10) := by
  rw [keysDistinct_iff_disjoint, disjoint_keys_iff, ← tConfInit_global_iff]
  constructor
  · rintro ⟨h, _⟩ hg
    have := h hg
    rw [tConfInit_bind_global hg] at this
    omega
  · intro h
    have hb : Global (tConfInit g) → ((tConfInit g).tcLdapBindNb : ℕ) ≤ 10 := by
      intro hg
      have := h hg
      rw [tConfInit_bind_global hg]
      omega
    exact ⟨hb, keysInTable_of_le hb⟩

/-- Eleven connections and one worker: the last select thread and the worker share key 12. -/
theorem eleventh_select_is_first_worker :
    ¬ (KeysDistinct (tConfInit ⟨some 1, some 11, none, some 1⟩) ∧
      KeysInTable (tConfInit ⟨some 1, some 11, none, some 1⟩)) := by decide

section Slots
variable {c : Conf}

lemma workerSlot_lt {key : ℕ} (hk : key ∈ workerKeys c) :
    tLdapGetLdId c.tcLdapBindNb key < c.tcLdapBindNb := by
  rw [ldId_of_le (mem_workerKeys.mp hk).1]
  exact Nat.mod_lt _ c.tcLdapBindNb.pos

lemma selectSlot_le {key : ℕ} (hb : 11 ≤ (c.tcLdapBindNb : ℕ)) :
    tLdapGetLdId c.tcLdapBindNb key ≤ c.tcLdapBindNb := by
  rcases Nat.lt_or_ge key 12 with hk | hk
  · rw [ldId_of_lt hk]
    omega
  · rw [ldId_of_le hk]
    exact (Nat.mod_lt _ c.tcLdapBindNb.pos).le

lemma slotsInTable_iff : SlotsInTable c ↔ (Global c → 11 ≤ (c.tcLdapBindNb : ℕ)) := by
  have hpos := c.tcLdapBindNb.pos
  constructor
  · intro h hg
    by_contra hlt
    -- the last select key is one above the last slot
    have hkey : (c.tcLdapBindNb : ℕ) + 1 ∈ ldapCallers c := by
      simp only [ldapCallers, List.mem_cons, List.mem_append, mem_selectKeys]
      exact .inr (.inl ⟨hg, by omega, by omega⟩)
    have hle := h _ hkey
    rw [ldId_of_lt (by omega)] at hle
    omega
  · intro hb key hkey
    simp only [ldapCallers, List.mem_cons, List.mem_append] at hkey
    rcases hkey with rfl | hs | hw
    · rw [ldId_of_lt (by decide)]
      exact Nat.zero_le _
    · exact selectSlot_le (hb (mem_selectKeys.mp hs).1)
    · exact (workerSlot_lt hw).le

/-- The slot of the monitoring key: the last one, until the key is folded like a worker's. -/
lemma monitorSlot : tLdapGetLdId c.tcLdapBindNb c.tcLdapBindNb =
    if (c.tcLdapBindNb : ℕ) < 12 then (c.tcLdapBindNb : ℕ) else c.tcLdapBindNb - 12 := by
  split_ifs with hb
  · exact ldId_of_lt hb
  · rw [ldId_of_le (by omega)]
    exact Nat.mod_eq_of_lt (by omega)

lemma monitorApart_iff :
    MonitorApart c ↔ (12 ≤ (c.tcLdapBindNb : ℕ) → (c.tcWThreadNb : ℕ) + 12 ≤ c.tcLdapBindNb) := by
  constructor
  · intro h hb
    by_contra hlt
    -- the worker with the key of the monitoring slot's number
    have hkey : (c.tcLdapBindNb : ℕ) ∈ workerKeys c := mem_workerKeys.mpr ⟨hb, by omega⟩
    exact h _ hkey rfl
  · intro h key hkey heq
    have hlt := workerSlot_lt hkey
    rw [← heq, monitorSlot] at hlt
    split_ifs at hlt with hb
    · omega
    · rw [monitorSlot, if_neg hb] at heq
      obtain ⟨h12, hk⟩ := mem_workerKeys.mp hkey
      have hw := h (by omega)
      rw [ldId_of_le h12, Nat.mod_eq_of_lt (by omega)] at heq
      omega

end Slots

/-- Slots are addressed in range and the monitoring slot is apart exactly when: under the global
policy there are eleven connections, or at least twelve more than workers; under the others there
are at most eleven workers. -/
theorem slots_addressed_iff (g : Settings) :
    SlotsInTable (tConfInit g) ∧ MonitorApart (tConfInit g) ↔
      if g.bindPolicy.getD ldapSesPolicyLocalThr = ldapSesPolicyGlobal then
        (g.optBind.getD 1 : ℕ) = 11 ∨
          (g.optThreads.getD (g.nbThreads.getD 1) : ℕ) + 12 ≤ min (g.optBind.getD 1 : ℕ) 50
      else (g.optThreads.getD (g.nbThreads.getD 1) : ℕ) ≤ 11 := by
  rw [slotsInTable_iff, monitorApart_iff, tConfInit_threads]
  have hw := (g.optThreads.getD (g.nbThreads.getD 1)).pos
  split_ifs with hp
  · have hg := (tConfInit_global_iff g).mpr hp
    rw [tConfInit_bind_global hg]
    constructor
    · rintro ⟨h11, h12⟩
      have := h11 hg
      omega
    · intro h
      exact ⟨fun _ => by omega, fun _ => by omega⟩
  · have hg : ¬ Global (tConfInit g) := fun h => hp ((tConfInit_global_iff g).mp h)
    rw [tConfInit_bind_local hg, tConfInit_threads]
    constructor
    · rintro ⟨_, h12⟩
      omega
    · intro h
      exact ⟨fun h => absurd h hg, fun _ => by omega⟩

/-- The global policy with its default of one connection: the select thread, key 2, addresses slot 2
of a table of two. Twelve threads with a connection each: the monitoring slot is the first worker's. -/
theorem select_thread_beyond_table :
    ¬ SlotsInTable (tConfInit ⟨none, none, none, some 1⟩) ∧
      ¬ MonitorApart (tConfInit ⟨some 12, none, none, none⟩) := by decide

end LdapTgen.ThreadKeys
