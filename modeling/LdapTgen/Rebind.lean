import LdapTgen.BindLocks

/-! `tLdap_Rebind` on the table of the connections. The thread looks for its slot and tries the server of
that slot until a bind succeeds; the flag `rebind` that it writes is that of another slot. What the local
variables hold at the beginning is an input, and so are the answers of the LDAP library. An access behind
the table, and a loop that has not ended, have no result. -/
namespace LdapTgen.Rebind
open BindLocks ConnectionOwners
variable {S : Type*}

structure Conf where
  tcWThreadNb : ℕ+
  tcLdapBindNb : ℕ+
  quietOnError : Bool

/-- The table, the slots whose flag was written, and the attempts with the server they went to. -/
structure Trace (S : Type*) where
  tLdapLdTab : ℕ → Slot S
  written : List ℕ
  attempts : List (S × Library)

def Trace.setLd (i : ℕ) (ld : Option ℕ) (t : Trace S) : Trace S :=
  { t with tLdapLdTab := Function.update t.tLdapLdTab i { t.tLdapLdTab i with ld := ld } }

def Trace.setRebind (i : ℕ) (b : Bool) (t : Trace S) : Trace S :=
  { t with
    tLdapLdTab := Function.update t.tLdapLdTab i { t.tLdapLdTab i with rebind := b }
    written := t.written ++ [i] }

def Trace.tries (found : ℕ) (l : Library) (t : Trace S) : Trace S :=
  { t with attempts := t.attempts ++ [((t.tLdapLdTab found).server, l)] }

/-- The slot that `indiceTab` gets: the last one recorded for the thread. -/
def search (n key : ℕ) (tab : ℕ → Slot S) : Option ℕ :=
  (List.range n).reverse.find? fun i => (tab i).keyThead = key

/-- The loop, with `i` behind the last slot of the search. -/
def retryLoop (quietOnError : Bool) (i ld found : ℕ) :
    List Library → ℤ → Trace S → Option (ℤ × Trace S)
  | [], rc, t => if rc = 0 then some (0, t.setRebind i false) else none
  | l :: ls, rc, t =>
      if rc = 0 then some (0, t.setRebind i false)
      else
        let t := (t.setRebind i true).tries found l
        match l.created with
        | none => some (1, t.setLd ld none)
        | some h =>
            if l.setVersion ≠ 0 then some (1, t.setLd ld (some h))
            else
              let (rc, conn) := bindResult quietOnError h l.bind
              retryLoop quietOnError i ld found ls rc (t.setLd ld (conn.map Conn.id))

/-- `rc` and `indiceTab` are what the variables hold before they are set. The table has one slot more than
there are connections. -/
def tLdapRebind (c : Conf) (key : ℕ) (rc : ℤ) (indiceTab : ℕ) (ls : List Library) (tab : ℕ → Slot S) :
    Option (ℤ × Trace S) :=
  let ld := tLdapGetLdId c.tcLdapBindNb key
  let i : ℕ := c.tcWThreadNb
  if (c.tcLdapBindNb : ℕ) + 1 < i then none
  else
    let found := (search i key tab).getD indiceTab
    let t := Trace.setLd ld none ⟨tab, [], []⟩
    if (t.tLdapLdTab found).rebind then some (0, t)
    else if (c.tcLdapBindNb : ℕ) < i then none
    else retryLoop c.quietOnError i ld found ls rc t

def Succeeds : List Library → Prop
  | [] => False
  | l :: ls => ReachesBind false l ∧ (l.bind = 0 ∨ Succeeds ls)

/-- The last attempt was a bind that succeeded, on the server of a slot of the thread, and the thread's
handle is the one it gave. -/
def Rebound (c : Conf) (key : ℕ) (tab : ℕ → Slot S) (t : Trace S) : Prop :=
  ∃ i < (c.tcWThreadNb : ℕ), (tab i).keyThead = key ∧
    ∃ l h, t.attempts.getLast? = some ((tab i).server, l) ∧ ReachesBind false l ∧ l.bind = 0 ∧
      l.created = some h ∧ (t.tLdapLdTab (tLdapGetLdId c.tcLdapBindNb key)).ld = some h

section Loop
variable {quietOnError : Bool} {i ld found : ℕ} {ls : List Library} {rc code : ℤ} {t t' : Trace S}

@[simp]
lemma setLd_server (o : Option ℕ) (j : ℕ) :
    ((t.setLd ld o).tLdapLdTab j).server = (t.tLdapLdTab j).server := by
  by_cases hj : j = ld
  · subst hj
    simp [Trace.setLd]
  · simp [Trace.setLd, hj]

@[simp]
lemma setLd_rebind (o : Option ℕ) (j : ℕ) :
    ((t.setLd ld o).tLdapLdTab j).rebind = (t.tLdapLdTab j).rebind := by
  by_cases hj : j = ld
  · subst hj
    simp [Trace.setLd]
  · simp [Trace.setLd, hj]

@[simp]
lemma setLd_ld (o : Option ℕ) : ((t.setLd ld o).tLdapLdTab ld).ld = o := by
  simp [Trace.setLd]

@[simp]
lemma setLd_written (o : Option ℕ) : (t.setLd ld o).written = t.written := rfl

@[simp]
lemma setLd_attempts (o : Option ℕ) : (t.setLd ld o).attempts = t.attempts := rfl

@[simp]
lemma setRebind_server (b : Bool) (j : ℕ) :
    ((t.setRebind i b).tLdapLdTab j).server = (t.tLdapLdTab j).server := by
  by_cases hj : j = i
  · subst hj
    simp [Trace.setRebind]
  · simp [Trace.setRebind, hj]

@[simp]
lemma setRebind_ld (b : Bool) (j : ℕ) :
    ((t.setRebind i b).tLdapLdTab j).ld = (t.tLdapLdTab j).ld := by
  by_cases hj : j = i
  · subst hj
    simp [Trace.setRebind]
  · simp [Trace.setRebind, hj]

@[simp]
lemma setRebind_written (b : Bool) : (t.setRebind i b).written = t.written ++ [i] := rfl

@[simp]
lemma setRebind_attempts (b : Bool) : (t.setRebind i b).attempts = t.attempts := rfl

@[simp]
lemma tries_tab (l : Library) : (t.tries found l).tLdapLdTab = t.tLdapLdTab := rfl

@[simp]
lemma tries_written (l : Library) : (t.tries found l).written = t.written := rfl

@[simp]
lemma tries_attempts (l : Library) :
    (t.tries found l).attempts = t.attempts ++ [((t.tLdapLdTab found).server, l)] := rfl

lemma retryLoop_zero (ls : List Library) (t : Trace S) :
    retryLoop quietOnError i ld found ls 0 t = some (0, t.setRebind i false) := by
  cases ls <;> simp [retryLoop]

lemma retryLoop_early {l : Library} (hz : rc ≠ 0) (h : ¬ ReachesBind false l) :
    retryLoop quietOnError i ld found (l :: ls) rc t =
      some (1, ((t.setRebind i true).tries found l).setLd ld l.created) := by
  rw [retryLoop, if_neg hz]
  cases hc : l.created with
  | none => rfl
  | some x =>
    have hv : l.setVersion ≠ 0 := fun hv => h ⟨by simp [hc], hv, by simp⟩
    simp [hv]

lemma exists_created {l : Library} (h : ReachesBind false l) :
    ∃ x, l.created = some x ∧ l.setVersion = 0 := by
  obtain ⟨hc, hv, -⟩ := h
  obtain ⟨x, hx⟩ := Option.isSome_iff_exists.mp hc
  exact ⟨x, hx, hv⟩

lemma retryLoop_bind {l : Library} {x : ℕ} (hz : rc ≠ 0) (hx : l.created = some x)
    (hv : l.setVersion = 0) :
    retryLoop quietOnError i ld found (l :: ls) rc t =
      retryLoop quietOnError i ld found ls (bindResult quietOnError x l.bind).1
        (((t.setRebind i true).tries found l).setLd ld
          ((bindResult quietOnError x l.bind).2.map Conn.id)) := by
  rw [retryLoop, if_neg hz, hx]
  simp [hv]

lemma retryLoop_written (h : retryLoop quietOnError i ld found ls rc t = some (code, t')) (j : ℕ) :
    j ∈ t'.written ↔ j ∈ t.written ∨ j = i := by
  induction ls generalizing rc t with
  | nil =>
    rw [retryLoop] at h
    split_ifs at h
    cases h
    simp
  | cons l ls ih =>
    by_cases hz : rc = 0
    · rw [hz, retryLoop_zero] at h
      cases h
      simp
    · by_cases hr : ReachesBind false l
      · obtain ⟨x, hx, hv⟩ := exists_created hr
        rw [retryLoop_bind hz hx hv] at h
        rw [ih h]
        simp
      · rw [retryLoop_early hz hr] at h
        cases h
        simp

lemma retryLoop_rebound (hz : rc ≠ 0)
    (h : retryLoop quietOnError i ld found ls rc t = some (0, t')) :
    ∃ l x, t'.attempts.getLast? = some ((t.tLdapLdTab found).server, l) ∧ ReachesBind false l ∧
      l.bind = 0 ∧ l.created = some x ∧ (t'.tLdapLdTab ld).ld = some x := by
  induction ls generalizing rc t with
  | nil => simp [retryLoop, hz] at h
  | cons l ls ih =>
    by_cases hr : ReachesBind false l
    · obtain ⟨x, hx, hv⟩ := exists_created hr
      rw [retryLoop_bind hz hx hv] at h
      by_cases hb : l.bind = 0
      · rw [bindResult_code.mpr hb, retryLoop_zero] at h
        cases h
        exact ⟨l, x, by simp, hr, hb, hx, by simp [bindResult, hb]⟩
      · obtain ⟨l', x', hlast, hrest⟩ := ih (fun hc => hb (bindResult_code.mp hc)) h
        exact ⟨l', x', by simpa using hlast, hrest⟩
    · rw [retryLoop_early hz hr] at h
      cases h

lemma retryLoop_succeeds_iff (hz : rc ≠ 0) :
    (retryLoop quietOnError i ld found ls rc t).map Prod.fst = some 0 ↔ Succeeds ls := by
  induction ls generalizing rc t with
  | nil => simp [retryLoop, hz, Succeeds]
  | cons l ls ih =>
    by_cases hr : ReachesBind false l
    · obtain ⟨x, hx, hv⟩ := exists_created hr
      rw [retryLoop_bind hz hx hv]
      by_cases hb : l.bind = 0
      · rw [bindResult_code.mpr hb, retryLoop_zero]
        simp [Succeeds, hr, hb]
      · rw [ih (fun hc => hb (bindResult_code.mp hc))]
        simp [Succeeds, hr, hb]
    · rw [retryLoop_early hz hr]
      simp [Succeeds, hr]

lemma retryLoop_of_succeeds (hok : Succeeds ls) (rc : ℤ) :
    (retryLoop quietOnError i ld found ls rc t).map Prod.fst = some 0 := by
  by_cases hz : rc = 0
  · rw [hz, retryLoop_zero]
    rfl
  · exact (retryLoop_succeeds_iff hz).mpr hok

/-- This is the loop of the model with the mutexes: the same result, and the same handle. -/
lemma retryLoop_locks {s : State} (hld : (t.tLdapLdTab ld).ld = s.ld.map Conn.id) :
    (retryLoop quietOnError i ld found ls rc t).map (fun p => (p.1, (p.2.tLdapLdTab ld).ld)) =
      (rebindLoop quietOnError ls rc s).map fun p => (if p.1 then 0 else 1, p.2.ld.map Conn.id) := by
  induction ls generalizing rc t s with
  | nil =>
    by_cases hz : rc = 0
    · simp [retryLoop, rebindLoop, hz, hld]
    · simp [retryLoop, rebindLoop, hz]
  | cons l ls ih =>
    by_cases hz : rc = 0
    · simp [retryLoop, rebindLoop, hz, hld]
    · simp only [retryLoop, rebindLoop, hz, if_false]
      cases hc : l.created with
      | none => simp
      | some x =>
        by_cases hv : l.setVersion = 0
        · simp only [hv, ne_eq, not_true_eq_false, if_false]
          exact ih (by simp)
        · simp [hv]

end Loop

section Table
variable {c : Conf} {key : ℕ} {tab : ℕ → Slot S}

lemma search_own {n : ℕ} (hown : ∃ i < n, (tab i).keyThead = key) :
    ∃ i < n, (tab i).keyThead = key ∧ search n key tab = some i := by
  cases hs : search n key tab with
  | none =>
    obtain ⟨i, hi, hkey⟩ := hown
    have hno := List.find?_eq_none.mp hs i (by simpa using hi)
    simp [hkey] at hno
  | some i =>
    have hi : i < n := by simpa using List.mem_of_find?_eq_some hs
    have hkey : (tab i).keyThead = key := by simpa using List.find?_some hs
    exact ⟨i, hi, hkey, rfl⟩

/-- With its own flag at 0, the thread comes to the loop unless the flag that it is to write is behind
the table. -/
lemma tLdapRebind_loop (hown : ∃ i < (c.tcWThreadNb : ℕ), (tab i).keyThead = key)
    (hflag : ∀ i < (c.tcWThreadNb : ℕ), (tab i).keyThead = key → (tab i).rebind = false) :
    ∃ found < (c.tcWThreadNb : ℕ), (tab found).keyThead = key ∧ ∀ rc indiceTab ls,
      tLdapRebind c key rc indiceTab ls tab =
        if (c.tcLdapBindNb : ℕ) < c.tcWThreadNb then none
        else retryLoop c.quietOnError c.tcWThreadNb (tLdapGetLdId c.tcLdapBindNb key) found ls rc
          (Trace.setLd (tLdapGetLdId c.tcLdapBindNb key) none ⟨tab, [], []⟩) := by
  obtain ⟨found, hlt, hkey, hs⟩ := search_own hown
  refine ⟨found, hlt, hkey, ?_⟩
  intro rc indiceTab ls
  simp only [tLdapRebind, hs, Option.getD_some, setLd_rebind, hflag found hlt hkey, Bool.false_eq_true,
    if_false]
  by_cases hout : (c.tcLdapBindNb : ℕ) + 1 < c.tcWThreadNb
  · rw [if_pos hout, if_pos (by omega)]
  · rw [if_neg hout]

end Table

/-- A rebind that returns 0 has rebound unless the unset `rc` was 0. It has a result that does not depend on
what is unset exactly if its attempts succeed and the table is long enough for it. The flag that it writes
is never one of the thread's own. -/
theorem rebind_of_unset (c : Conf) (key : ℕ) (ls : List Library) (tab : ℕ → Slot S)
    (hown : ∃ i < (c.tcWThreadNb : ℕ), (tab i).keyThead = key)
    (hflag : ∀ i < (c.tcWThreadNb : ℕ), (tab i).keyThead = key → (tab i).rebind = false) :
    (∀ rc indiceTab t, tLdapRebind c key rc indiceTab ls tab = some (0, t) →
      (Rebound c key tab t ↔ rc ≠ 0)) ∧
    ((∃ code, ∀ rc indiceTab, (tLdapRebind c key rc indiceTab ls tab).map Prod.fst = some code) ↔
      c.tcWThreadNb ≤ c.tcLdapBindNb ∧ Succeeds ls) ∧
    ∀ rc indiceTab code t, tLdapRebind c key rc indiceTab ls tab = some (code, t) →
      (∀ j, j ∈ t.written ↔ j = c.tcWThreadNb) ∧
      ∀ j < (c.tcWThreadNb : ℕ), (tab j).keyThead = key → j ∉ t.written := by
  obtain ⟨found, hlt, hkey, hrun⟩ := tLdapRebind_loop hown hflag
  simp only [hrun]
  by_cases hshort : (c.tcLdapBindNb : ℕ) < c.tcWThreadNb
  · have hlong : ¬ c.tcWThreadNb ≤ c.tcLdapBindNb := not_le.mpr hshort
    simp [hshort, hlong]
  · have hlong : c.tcWThreadNb ≤ c.tcLdapBindNb := not_lt.mp hshort
    simp only [hshort, if_false, hlong, true_and]
    refine ⟨?_, ?_, ?_⟩
    · intro rc indiceTab t h
      constructor
      · rintro ⟨i, -, -, l, x, hlast, -⟩ rfl
        rw [retryLoop_zero] at h
        cases h
        simp at hlast
      · intro hz
        obtain ⟨l, x, hlast, hrest⟩ := retryLoop_rebound hz h
        exact ⟨found, hlt, hkey, l, x, by simpa using hlast, hrest⟩
    · constructor
      · rintro ⟨code, hsame⟩
        rw [← retryLoop_succeeds_iff one_ne_zero, hsame 1 0, ← hsame 0 0, retryLoop_zero]
        rfl
      · exact fun hok => ⟨0, fun rc _ => retryLoop_of_succeeds hok rc⟩
    · intro rc _ code t h
      have hw : ∀ j, j ∈ t.written ↔ j = c.tcWThreadNb := by
        intro j
        simpa using retryLoop_written h j
      refine ⟨hw, ?_⟩
      intro j hj _ hmem
      have := (hw j).mp hmem
      omega

def oneWorker : Conf := ⟨Nat.succPNat 0, Nat.succPNat 0, false⟩

def ownSlot : ℕ → Slot ℕ := fun i => if i = 0 then ⟨some 3, 389, 12, false⟩ else ⟨none, 0, 0, false⟩

theorem unset_zero_not_rebound :
    ∃ t, tLdapRebind oneWorker 12 0 7 [] ownSlot = some (0, t) ∧ ¬ Rebound oneWorker 12 ownSlot t :=
  ⟨_, rfl, fun h => ((rebind_of_unset oneWorker 12 [] ownSlot ⟨0, by decide, rfl⟩ (by decide)).1
    0 7 _ rfl).mp h rfl⟩

/-- No handle can be created: the call returns 0 or 1 as `rc` was 0 or not, without a connection, and the
flag is that of the slot behind the worker's. -/
theorem rebind_by_chance :
    (tLdapRebind oneWorker 12 0 7 [⟨none, 0, 0, 0⟩] ownSlot).map
        (fun p => (p.1, p.2.written, p.2.attempts.length, (p.2.tLdapLdTab 0).ld)) =
      some (0, [1], 0, none) ∧
    (tLdapRebind oneWorker 12 5 7 [⟨none, 0, 0, 0⟩] ownSlot).map
        (fun p => (p.1, p.2.written, p.2.attempts.length, (p.2.tLdapLdTab 0).ld)) =
      some (1, [1], 1, none) := by
  decide

end LdapTgen.Rebind
