import LdapTgen.ThreadKeys

/-! The connections of the global policy from `tLdapInit` to `tLdapClose`: which slots are bound, and
which are still open at the end. Both functions go through `tLdap_getLdId`, the first one with slot numbers
and the second one with the keys of the workers. All binds succeed. -/
namespace LdapTgen.ConnectionSlots
open ThreadKeys

/-- The handles of the table, and the slots in the order of the binds, which number the handles. -/
structure Table where
  ld : ℕ → Option ℕ
  binds : List ℕ

def Table.empty : Table := ⟨fun _ => none, []⟩

/-- `simpleBindRequest` writes the new handle over the old one. -/
def simpleBindRequest (i : ℕ) (t : Table) : Table :=
  ⟨Function.update t.ld i (some t.binds.length), t.binds ++ [i]⟩

def unbindRequest (i : ℕ) (t : Table) : Table := { t with ld := Function.update t.ld i none }

def initSlots (c : Conf) : List ℕ := (List.range c.tcLdapBindNb).map (tLdapGetLdId c.tcLdapBindNb)

def tLdapInit (c : Conf) : Table := (initSlots c).foldl (fun t i => simpleBindRequest i t) .empty

def monitorSlotOf (c : Conf) : ℕ := tLdapGetLdId c.tcLdapBindNb c.tcLdapBindNb

/-- The slots of the workers, and the one that the server is monitored with. -/
def closeSlots (c : Conf) : List ℕ :=
  (workerKeys c).map (tLdapGetLdId c.tcLdapBindNb) ++ [monitorSlotOf c]

def tLdapClose (c : Conf) (t : Table) : Table := (closeSlots c).foldl (fun t i => unbindRequest i t) t

inductive Call
  | bind (key : ℕ)
  | unbind (key : ℕ)
  deriving DecidableEq, Repr

def Call.key : Call → ℕ
  | .bind key => key
  | .unbind key => key

def exec (c : Conf) (t : Table) : Call → Table
  | .bind key => simpleBindRequest (tLdapGetLdId c.tcLdapBindNb key) t
  | .unbind key => unbindRequest (tLdapGetLdId c.tcLdapBindNb key) t

def Traffic (c : Conf) (es : List Call) : Prop :=
  ∀ e ∈ es, e.key ∈ workerKeys c ∨ e.key = c.tcLdapBindNb

def BoundOnce (c : Conf) : Prop := ∀ i < (c.tcLdapBindNb : ℕ), (tLdapInit c).binds.count i = 1

def AllClosed (c : Conf) : Prop :=
  ∀ es, Traffic c es → ∀ i ≤ (c.tcLdapBindNb : ℕ),
    (tLdapClose c (es.foldl (exec c) (tLdapInit c))).ld i = none

section Folds
variable {t : Table} {is : List ℕ} {i : ℕ}

lemma foldl_bind_binds : (is.foldl (fun t i => simpleBindRequest i t) t).binds = t.binds ++ is := by
  induction is generalizing t with
  | nil => simp
  | cons j is ih =>
    rw [List.foldl_cons, ih]
    simp [simpleBindRequest]

lemma foldl_bind_ld (hi : t.ld i ≠ none ∨ i ∈ is) :
    (is.foldl (fun t i => simpleBindRequest i t) t).ld i ≠ none := by
  induction is generalizing t with
  | nil => simpa using hi
  | cons j is ih =>
    rw [List.foldl_cons]
    apply ih
    by_cases hj : i = j
    · subst hj
      exact .inl (by simp [simpleBindRequest])
    · simpa [simpleBindRequest, hj] using hi

lemma foldl_bind_frame (hi : i ∉ is) :
    (is.foldl (fun t i => simpleBindRequest i t) t).ld i = t.ld i := by
  induction is generalizing t with
  | nil => rfl
  | cons j is ih =>
    rw [List.mem_cons, not_or] at hi
    rw [List.foldl_cons, ih hi.2]
    simp [simpleBindRequest, hi.1]

lemma foldl_unbind_ld :
    (is.foldl (fun t i => unbindRequest i t) t).ld i = if i ∈ is then none else t.ld i := by
  induction is generalizing t with
  | nil => rfl
  | cons j is ih =>
    rw [List.foldl_cons, ih]
    by_cases hj : i = j
    · subst hj
      simp [unbindRequest]
    · simp [unbindRequest, hj]

end Folds

section Slots
variable {c : Conf} {i : ℕ}

lemma tLdapInit_binds : (tLdapInit c).binds = initSlots c := by
  rw [tLdapInit, foldl_bind_binds]
  rfl

lemma tLdapInit_open_iff : (tLdapInit c).ld i ≠ none ↔ i ∈ initSlots c := by
  constructor
  · intro h
    by_contra hi
    exact h (foldl_bind_frame hi)
  · intro hi
    exact foldl_bind_ld (.inr hi)

lemma exec_frame {t : Table} {e : Call} (he : e.key ∈ workerKeys c ∨ e.key = c.tcLdapBindNb)
    (hi : i ∉ closeSlots c) : (exec c t e).ld i = t.ld i := by
  have hne : i ≠ tLdapGetLdId c.tcLdapBindNb e.key := by
    rintro rfl
    apply hi
    rcases he with he | he
    · exact List.mem_append_left _ (List.mem_map_of_mem he)
    · rw [he]
      exact List.mem_append_right _ List.mem_cons_self
  cases e with
  | bind key => exact Function.update_of_ne hne ..
  | unbind key => exact Function.update_of_ne hne ..

lemma traffic_frame {t : Table} {es : List Call} (hes : Traffic c es) (hi : i ∉ closeSlots c) :
    (es.foldl (exec c) t).ld i = t.ld i := by
  induction es generalizing t with
  | nil => rfl
  | cons e es ih =>
    rw [List.foldl_cons, ih (fun e he => hes e (List.mem_cons_of_mem _ he)),
      exec_frame (hes e List.mem_cons_self) hi]

lemma allClosed_iff : AllClosed c ↔ ∀ i ≤ (c.tcLdapBindNb : ℕ), i ∈ initSlots c → i ∈ closeSlots c := by
  constructor
  · intro h i hi hinit
    by_contra hclose
    have hnone := h [] (by simp [Traffic]) i hi
    rw [tLdapClose, foldl_unbind_ld, if_neg hclose] at hnone
    exact tLdapInit_open_iff.mpr hinit hnone
  · intro h es hes i hi
    rw [tLdapClose, foldl_unbind_ld]
    split_ifs with hclose
    · rfl
    · rw [traffic_frame hes hclose]
      by_contra hopen
      exact hclose (h i hi (tLdapInit_open_iff.mp hopen))

lemma initSlots_of_le (hb : (c.tcLdapBindNb : ℕ) ≤ 12) : initSlots c = List.range c.tcLdapBindNb := by
  rw [initSlots, List.map_congr_left, List.map_id]
  intro i hi
  rw [List.mem_range] at hi
  exact ldId_of_lt (by omega)

/-- Twelve and more are folded down by twelve, so that nothing reaches the last slot. -/
lemma last_not_mem_initSlots (hb : 12 < (c.tcLdapBindNb : ℕ)) :
    (c.tcLdapBindNb : ℕ) - 1 ∉ initSlots c := by
  intro hmem
  obtain ⟨key, hkey, hslot⟩ := List.mem_map.mp hmem
  rw [List.mem_range] at hkey
  rcases Nat.lt_or_ge key 12 with hlt | hge
  · rw [ldId_of_lt hlt] at hslot
    omega
  · rw [ldId_of_le hge, Nat.mod_eq_of_lt (by omega)] at hslot
    omega

lemma boundOnce_iff : BoundOnce c ↔ (c.tcLdapBindNb : ℕ) ≤ 12 := by
  have hpos := c.tcLdapBindNb.pos
  unfold BoundOnce
  rw [tLdapInit_binds]
  constructor
  · intro h
    by_contra hb
    have hlast := h (c.tcLdapBindNb - 1) (by omega)
    rw [List.count_eq_zero_of_not_mem (last_not_mem_initSlots (by omega))] at hlast
    omega
  · intro hb i hi
    rw [initSlots_of_le hb]
    exact List.count_eq_one_of_mem List.nodup_range (List.mem_range.mpr hi)

lemma monitorSlotOf_eq_zero (hb : (c.tcLdapBindNb : ℕ) ≤ 12) (hi : i < c.tcLdapBindNb) :
    i = monitorSlotOf c → i = 0 := by
  intro hmon
  rcases Nat.lt_or_ge c.tcLdapBindNb 12 with hlt | hge
  · rw [monitorSlotOf, ldId_of_lt hlt] at hmon
    omega
  · rw [monitorSlotOf, ldId_of_le hge, show (c.tcLdapBindNb : ℕ) - 12 = 0 by omega,
      Nat.zero_mod] at hmon
    exact hmon

lemma mem_closeSlots_iff (hb : (c.tcLdapBindNb : ℕ) ≤ 12) (hi : i < c.tcLdapBindNb) :
    i ∈ closeSlots c ↔ i < c.tcWThreadNb := by
  have hw := c.tcWThreadNb.pos
  rw [closeSlots, List.mem_append, List.mem_singleton, List.mem_map]
  constructor
  · rintro (⟨key, hkey, rfl⟩ | hmon)
    · obtain ⟨hge, hlt⟩ := mem_workerKeys.mp hkey
      rw [ldId_of_le hge]
      have := Nat.mod_le (key - 12) c.tcLdapBindNb
      omega
    · rw [monitorSlotOf_eq_zero hb hi hmon]
      exact hw
  · intro hlt
    refine .inl ⟨12 + i, mem_workerKeys.mpr ⟨by omega, by omega⟩, ?_⟩
    rw [ldId_of_le (by omega), Nat.add_sub_cancel_left, Nat.mod_eq_of_lt hi]

lemma allClosed_iff_le (hb : (c.tcLdapBindNb : ℕ) ≤ 12) :
    AllClosed c ↔ (c.tcLdapBindNb : ℕ) ≤ c.tcWThreadNb := by
  have hpos := c.tcLdapBindNb.pos
  rw [allClosed_iff, initSlots_of_le hb]
  constructor
  · intro h
    have hlast := h (c.tcLdapBindNb - 1) (by omega) (List.mem_range.mpr (by omega))
    rw [mem_closeSlots_iff hb (by omega)] at hlast
    omega
  · intro hle i _ hi
    rw [List.mem_range] at hi
    exact (mem_closeSlots_iff hb hi).mpr (by omega)

end Slots

/-- Every connection of the global policy is opened once and closed exactly when there are at most twelve
of them, and a worker for each. -/
theorem connections_once_and_closed_iff (g : Settings) (hg : Global (tConfInit g)) :
    BoundOnce (tConfInit g) ∧ AllClosed (tConfInit g) ↔
      (g.optBind.getD 1 : ℕ) ≤ 12 ∧ g.optBind.getD 1 ≤ (tConfInit g).tcWThreadNb := by
  have hbind := tConfInit_bind_global hg
  rw [boundOnce_iff, ← PNat.coe_le_coe]
  constructor
  · rintro ⟨hb, hclosed⟩
    rw [allClosed_iff_le hb] at hclosed
    omega
  · rintro ⟨hb, hle⟩
    have hb' : ((tConfInit g).tcLdapBindNb : ℕ) ≤ 12 := by omega
    rw [allClosed_iff_le hb']
    omega

theorem two_workers_close_two :
    Global (tConfInit ⟨some 2, some 2, none, some 1⟩) ∧
      BoundOnce (tConfInit ⟨some 2, some 2, none, some 1⟩) ∧
        AllClosed (tConfInit ⟨some 2, some 2, none, some 1⟩) :=
  ⟨by decide, (connections_once_and_closed_iff ⟨some 2, some 2, none, some 1⟩ (by decide)).mpr
    ⟨by decide, by decide⟩⟩

/-- One worker and two connections: the second one is never closed. Thirteen workers and thirteen
connections: the first slot is bound twice and the last one not at all. -/
theorem second_connection_left_open :
    (tLdapClose (tConfInit ⟨some 1, some 2, none, some 1⟩)
        (tLdapInit (tConfInit ⟨some 1, some 2, none, some 1⟩))).ld 1 = some 1 ∧
      (tLdapInit (tConfInit ⟨some 13, some 13, none, some 1⟩)).binds.count 0 = 2 ∧
        (tLdapInit (tConfInit ⟨some 13, some 13, none, some 1⟩)).binds.count 12 = 0 := by
  decide

end LdapTgen.ConnectionSlots
