import LdapTgen.LdapControls
import LdapTgen.TimerDelays

/-! The action `SCE_Wait`: the texts that give the time, the draw between two bounds, and the insertion
into the timetable. What the variable `wait` holds before it is set, the draw and the success of the
allocations are inputs. A division by zero, a number that no `int` holds and an index in front of the
table have no result. -/
namespace LdapTgen.SceWait
open LdapControls TimerWheel

def keywdRand : Text := "_RAND_".toList
def keywdValue : Text := "_VALUE_".toList

/-- `sscanf` of `%d %d`: both numbers, if there are two. -/
def scanInts (t : Text) : Option (Option (ℤ × ℤ)) :=
  match scanInt t with
  | none => some none
  | some (a, t) =>
      if fitsInt a then
        match scanInt t with
        | none => some none
        | some (b, _) => if fitsInt b then some (some (a, b)) else none
      else none

/-- `rc` and `wait` before the insertion. -/
def readWait (n draw : ℕ) (wait : ℤ) (cmds attrs : Option Text) : Option (ℤ × ℤ) :=
  let wmax : ℤ := n - 1
  match cmds, attrs with
  | some cmds, some attrs =>
      if cmds = keywdRand then
        match scanInts attrs with
        | none => none
        | some none => some (1, wait)
        | some (some (imin, imax)) =>
            if 0 < imin ∧ imin ≤ wmax ∧ 0 < imax ∧ imax ≤ wmax ∧ imin ≤ imax then
              if imax - imin = 0 then none else some (0, Int.tmod draw (imax - imin) + imin)
            else some (1, wait)
      else if cmds = keywdValue then
        match scanInt attrs with
        | none => some (1, wait)
        | some (v, _) =>
            if fitsInt v then some (if 0 < v ∧ v ≤ wmax then 0 else 1, v) else none
      else some (0, wait)
  | _, _ => some (0, wait)

/-- The time is an `int` here; `elem` tells if the list element could be allocated. -/
def tTimerSetUserToSleep (n k : ℕ) (elem : Bool) (nbTimeUnit : ℤ) (w : Wheel) : Option (ℤ × Wheel) :=
  if n ≤ nbTimeUnit then some (1, w)
  else if elem = false then some (1, w)
  else
    let delay := if w.tableClosed then 0 else nbTimeUnit
    let resumeIndex := Int.tmod (w.currentIndex + delay) n
    if resumeIndex < 0 then none
    else some (0, setSlot w resumeIndex.toNat (k :: w.tTimerCircularTable resumeIndex.toNat))

/-- The result code of the reading is replaced by that of the insertion; `ctx` tells if the context
could be allocated. -/
def sceWait (n k draw : ℕ) (ctx elem : Bool) (wait : ℤ) (cmds attrs : Option Text) (w : Wheel) :
    Option (ℤ × Wheel) :=
  if ctx = false then some (1, w)
  else (readWait n draw wait cmds attrs).bind fun r => tTimerSetUserToSleep n k elem r.2 w

def asked (n : ℕ) (cmds attrs : Option Text) : Option (ℤ × ℤ) := do
  let cmds ← cmds
  let attrs ← attrs
  let (a, t) ← scanInt attrs
  if cmds = keywdRand then
    let (b, _) ← scanInt t
    if 0 < a ∧ a ≤ b ∧ b ≤ n - 1 then some (a, b) else none
  else if cmds = keywdValue ∧ 0 < a ∧ a ≤ n - 1 then some (a, a)
  else none

section Timer
variable {n k : ℕ} {w : Wheel}

lemma tTimerSetUserToSleep_nat (u : ℕ) :
    tTimerSetUserToSleep n k true u w =
      some (((TimerDelays.tTimerSetUserToSleep n k u w).map fun v => (0, v)).getD (1, w)) := by
  unfold tTimerSetUserToSleep TimerDelays.tTimerSetUserToSleep sleepDelay
  by_cases hu : n ≤ u
  · simp [hu]
  · have hdelay : (if w.tableClosed then 0 else (u : ℤ)) =
        ((if w.tableClosed then 0 else u : ℕ) : ℤ) := by
      split_ifs <;> rfl
    simp only [Nat.cast_le, hu, if_false, Bool.true_eq_false, hdelay, ← Nat.cast_add, ← Int.ofNat_tmod]
    rw [if_neg (Int.not_lt.mpr (Int.natCast_nonneg _)), Int.toNat_natCast]
    rfl

lemma sleeps (hw : w.tableClosed = false) {u : ℤ} (h0 : 0 ≤ u) (hn : u < n) :
    tTimerSetUserToSleep n k true u w = some (0, insertSleep n k u.toNat w) := by
  obtain ⟨m, rfl⟩ := Int.eq_ofNat_of_zero_le h0
  have hm : ¬ n ≤ m := by omega
  rw [tTimerSetUserToSleep_nat]
  simp [TimerDelays.tTimerSetUserToSleep, sleepDelay, hm, hw]

lemma tTimerSetUserToSleep_full (u : ℤ) : tTimerSetUserToSleep n k false u w = some (1, w) := by
  simp [tTimerSetUserToSleep]

lemma refused_iff {elem : Bool} {u : ℤ} :
    (∃ rc, rc ≠ 0 ∧ tTimerSetUserToSleep n k elem u w = some (rc, w)) ↔ elem = false ∨ n ≤ u := by
  cases elem with
  | false => simp [tTimerSetUserToSleep_full]
  | true =>
    unfold tTimerSetUserToSleep
    by_cases hu : (n : ℤ) ≤ u
    · simp [hu]
    · simp only [hu, if_false, Bool.true_eq_false, or_false, iff_false]
      rintro ⟨rc, hrc, h⟩
      split_ifs at h <;> simp_all

lemma insertSleep_inj {u v : ℕ} (hu : u < n) (hv : v < n)
    (h : insertSleep n k u w = insertSleep n k v w) : u = v := by
  have hslot : (w.currentIndex + u) % n = (w.currentIndex + v) % n := by
    by_contra hne
    have hl := congrArg (fun t => (t.tTimerCircularTable ((w.currentIndex + u) % n)).length) h
    simp [insertSleep, setSlot, Function.update_of_ne hne] at hl
  have hmod : u ≡ v [MOD n] := Nat.ModEq.add_left_cancel' w.currentIndex hslot
  rwa [Nat.ModEq, Nat.mod_eq_of_lt hu, Nat.mod_eq_of_lt hv] at hmod

end Timer

/-- The action does what its texts ask for: each draw gives a time between the bounds, each time between
them has a draw, and texts that give no bounds make it fail with the timetable as it was. -/
def Honoured (n k : ℕ) (ctx elem : Bool) (wait : ℤ) (cmds attrs : Option Text) (w : Wheel) : Prop :=
  match asked n cmds attrs with
  | some (a, b) =>
      (∀ draw, ∃ u : ℕ, a ≤ u ∧ u ≤ b ∧
        sceWait n k draw ctx elem wait cmds attrs w = some (0, insertSleep n k u w)) ∧
      ∀ u : ℕ, a ≤ u → u ≤ b →
        ∃ draw, sceWait n k draw ctx elem wait cmds attrs w = some (0, insertSleep n k u w)
  | none => ∀ draw, ∃ rc, rc ≠ 0 ∧ sceWait n k draw ctx elem wait cmds attrs w = some (rc, w)

section Wait
variable {n k : ℕ} {wait : ℤ} {cmds attrs : Option Text} {w : Wheel}

lemma asked_cases {a b : ℤ} (h : asked n cmds attrs = some (a, b)) :
    0 < a ∧ a ≤ b ∧ b ≤ n - 1 ∧
      ((∃ s t u, cmds = some keywdRand ∧ attrs = some s ∧ scanInt s = some (a, t) ∧
          scanInt t = some (b, u)) ∨
        ∃ s t, cmds = some keywdValue ∧ attrs = some s ∧ scanInt s = some (a, t) ∧ a = b) := by
  simp only [asked, Option.bind_eq_bind, Option.bind_eq_some_iff] at h
  obtain ⟨c, rfl, s, rfl, ⟨x, t⟩, hx, h⟩ := h
  by_cases hc : c = keywdRand
  · simp only [hc, if_true, Option.bind_eq_some_iff] at h
    obtain ⟨⟨y, u⟩, hy, h⟩ := h
    split_ifs at h with hb
    cases h
    exact ⟨hb.1, hb.2.1, hb.2.2, Or.inl ⟨s, t, u, by rw [hc], rfl, hx, hy⟩⟩
  · simp only [hc, if_false] at h
    split_ifs at h with hb
    cases h
    exact ⟨hb.2.1, le_refl _, hb.2.2, Or.inr ⟨s, t, by rw [hb.1], rfl, hx, rfl⟩⟩

lemma fitsInt_of_mem (hint : n < 2 ^ 31) {z : ℤ} (h0 : 0 < z) (hn : z ≤ n - 1) : fitsInt z := by
  unfold fitsInt
  omega

lemma readWait_rand (hint : n < 2 ^ 31) {a b : ℤ} {s t u : Text} (draw : ℕ) (h0 : 0 < a) (hab : a ≤ b)
    (hb : b ≤ n - 1) (hs : scanInt s = some (a, t)) (ht : scanInt t = some (b, u)) :
    readWait n draw wait (some keywdRand) (some s) =
      if b - a = 0 then none else some (0, Int.tmod draw (b - a) + a) := by
  have hfa : fitsInt a := fitsInt_of_mem hint h0 (by omega)
  have hfb : fitsInt b := fitsInt_of_mem hint (by omega) hb
  have hscan : scanInts s = some (some (a, b)) := by simp [scanInts, hs, ht, hfa, hfb]
  have hbounds : 0 < a ∧ a ≤ (n : ℤ) - 1 ∧ 0 < b ∧ b ≤ (n : ℤ) - 1 ∧ a ≤ b := by omega
  simp only [readWait, if_true, hscan, if_pos hbounds]

lemma readWait_value (hint : n < 2 ^ 31) {a : ℤ} {s t : Text} (draw : ℕ) (h0 : 0 < a) (hb : a ≤ n - 1)
    (hs : scanInt s = some (a, t)) :
    readWait n draw wait (some keywdValue) (some s) = some (0, a) := by
  have hne : keywdValue ≠ keywdRand := by decide
  simp only [readWait, if_neg hne, if_true, hs, if_pos (fitsInt_of_mem hint h0 hb),
    if_pos (And.intro h0 hb)]

lemma draw_lt {a b : ℤ} (hab : a < b) (draw : ℕ) :
    a ≤ Int.tmod draw (b - a) + a ∧ Int.tmod draw (b - a) + a < b := by
  have h0 := Int.tmod_nonneg (b - a) (Int.natCast_nonneg draw)
  have hlt := Int.tmod_lt_of_pos (draw : ℤ) (show 0 < b - a by omega)
  omega

lemma rand_not_honoured (hint : n < 2 ^ 31) (hw : w.tableClosed = false) {a b : ℤ} {s t u : Text}
    {ctx elem : Bool} (h0 : 0 < a) (hab : a ≤ b) (hb : b ≤ n - 1)
    (hs : scanInt s = some (a, t)) (ht : scanInt t = some (b, u)) (draw : ℕ) :
    sceWait n k draw ctx elem wait (some keywdRand) (some s) w ≠
      some (0, insertSleep n k b.toNat w) := by
  intro h
  unfold sceWait at h
  cases ctx with
  | false => simp at h
  | true =>
    rw [readWait_rand hint draw h0 hab hb hs ht] at h
    by_cases hz : b - a = 0
    · simp [hz] at h
    · obtain ⟨hlo, hhi⟩ := draw_lt (show a < b by omega) draw
      simp only [Bool.true_eq_false, if_false, hz, Option.bind_some] at h
      cases elem with
      | false => simp [tTimerSetUserToSleep_full] at h
      | true =>
        rw [sleeps hw (by omega) (by omega)] at h
        have heq := insertSleep_inj (by omega) (by omega) (Prod.mk.inj (Option.some.inj h)).2
        omega

lemma refused_always_iff {ctx elem : Bool} :
    (∀ draw, ∃ rc, rc ≠ 0 ∧ sceWait n k draw ctx elem wait cmds attrs w = some (rc, w)) ↔
      ctx = false ∨
        ∀ draw, ∃ rc u, readWait n draw wait cmds attrs = some (rc, u) ∧ (elem = false ∨ n ≤ u) := by
  cases ctx with
  | false => simp [sceWait]
  | true =>
    simp only [Bool.true_eq_false, false_or]
    refine forall_congr' fun draw => ?_
    simp only [sceWait, Bool.true_eq_false, if_false]
    cases hr : readWait n draw wait cmds attrs with
    | none => simp
    | some r =>
      rw [Option.bind_some, refused_iff]
      constructor
      · intro h
        exact ⟨r.1, r.2, rfl, h⟩
      · rintro ⟨rc, u, he, h⟩
        cases he
        exact h

lemma value_sleeps_iff (hint : n < 2 ^ 31) (hw : w.tableClosed = false) {a : ℤ} {s t : Text}
    {ctx elem : Bool} (h0 : 0 < a) (hb : a ≤ n - 1) (hs : scanInt s = some (a, t)) (draw u : ℕ) :
    sceWait n k draw ctx elem wait (some keywdValue) (some s) w = some (0, insertSleep n k u w) ↔
      (ctx = true ∧ elem = true) ∧ insertSleep n k a.toNat w = insertSleep n k u w := by
  have hsl : tTimerSetUserToSleep n k true a w = some (0, insertSleep n k a.toNat w) :=
    sleeps hw (by omega) (by omega)
  unfold sceWait
  rw [readWait_value hint draw h0 hb hs, Option.bind_some]
  cases ctx <;> cases elem <;> simp [tTimerSetUserToSleep_full, hsl]

end Wait

/-- The action honours a single time, if memory is there. It honours no pair of bounds: the upper one is
never drawn, and equal ones divide by zero. Other texts make it fail only if what is left in `wait` is
too long for the timetable, or if memory is short. -/
theorem wait_honoured_iff (n k : ℕ) (hint : n < 2 ^ 31) (ctx elem : Bool) (wait : ℤ)
    (cmds attrs : Option Text) (w : Wheel) (hw : w.tableClosed = false) :
    Honoured n k ctx elem wait cmds attrs w ↔
      ((asked n cmds attrs).isSome ∧ cmds = some keywdValue ∧ ctx = true ∧ elem = true) ∨
      (asked n cmds attrs = none ∧ (ctx = false ∨
        ∀ draw, ∃ rc u, readWait n draw wait cmds attrs = some (rc, u) ∧ (elem = false ∨ n ≤ u))) := by
  unfold Honoured
  cases ha : asked n cmds attrs with
  | none => simp [refused_always_iff]
  | some r =>
    obtain ⟨a, b⟩ := r
    obtain ⟨h0, hab, hb, h⟩ := asked_cases ha
    simp only [Option.isSome_some, true_and, reduceCtorEq, false_and, or_false]
    rcases h with ⟨s, t, u, rfl, rfl, hs, ht⟩ | ⟨s, t, rfl, rfl, hs, rfl⟩
    · have hne : keywdRand ≠ keywdValue := by decide
      simp only [Option.some.injEq, hne, false_and, iff_false]
      rintro ⟨-, hall⟩
      obtain ⟨draw, hd⟩ := hall b.toNat (by omega) (by omega)
      exact rand_not_honoured hint hw h0 hab hb hs ht draw hd
    · simp only [value_sleeps_iff hint hw h0 hb hs, true_and]
      constructor
      · rintro ⟨hall, -⟩
        obtain ⟨u, -, -, hmem, -⟩ := hall 0
        exact hmem
      · intro hmem
        refine ⟨fun _ => ⟨a.toNat, by omega, by omega, hmem, rfl⟩, ?_⟩
        intro u hlo hhi
        have hu : u = a.toNat := by omega
        exact ⟨0, hmem, by rw [hu]⟩

/-- A fixed time of five units in the table of the program. -/
theorem fixed_time_honoured :
    tTimerInit.tableClosed = false ∧
      Honoured 400 0 true true 0 (some keywdValue) (some "5".toList) tTimerInit :=
  ⟨rfl, (wait_honoured_iff 400 0 (by norm_num) true true 0 _ _ tTimerInit rfl).mpr
    (Or.inl ⟨by decide, rfl, rfl, rfl⟩)⟩

/-- Between two and three units, three is not drawn; three and three divide by zero; a text without
numbers, and a time of zero, put the user to sleep; a negative time leaves the table. -/
theorem bounds_not_honoured :
    (∀ draw, sceWait 400 0 draw true true 0 (some keywdRand) (some "2 3".toList) tTimerInit ≠
      some (0, insertSleep 400 0 3 tTimerInit)) ∧
    sceWait 400 0 9 true true 0 (some keywdRand) (some "3 3".toList) tTimerInit = none ∧
    (sceWait 400 0 9 true true 7 (some keywdRand) (some "x".toList) tTimerInit).map Prod.fst = some 0 ∧
    (sceWait 400 0 9 true true 7 (some keywdValue) (some "0".toList) tTimerInit).map Prod.fst = some 0 ∧
    sceWait 400 0 9 true true 7 (some keywdValue) (some "-1".toList) tTimerInit = none := by
  refine ⟨?_, rfl, by decide, by decide, rfl⟩
  intro draw
  have hs : scanInt "2 3".toList = some (2, " 3".toList) := by decide
  have ht : scanInt " 3".toList = some (3, []) := by decide
  exact rand_not_honoured (by norm_num) rfl (by norm_num) (by norm_num) (by norm_num) hs ht draw

end LdapTgen.SceWait
