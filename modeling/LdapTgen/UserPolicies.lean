import LdapTgen.UserSearch

/-! The answers of successive calls of `tUserGetRandomly` under the policies that count with the static
index, in the order in which the workers get the mutex. Users are released and aborted in between. -/
namespace LdapTgen.UserPolicies
open LabelledRun Rotation UserSearch UserTable

inductive Event
  | get (worker : ℕ) (sce : Option TSce) (rand : ℕ) (now : ℤ)
  | free (user : ℕ) (now : ℤ)
  | abort (user : ℕ) (now : ℤ)

structure Log where
  sys : State
  returned : List (ℕ × Option ℕ)

def step (c : Conf) (p : Log) : Event → Option Log
  | .get worker sce rand now => (tUserGetRandomly c sce rand now p.sys).map fun r =>
      ⟨r.1, p.returned ++ [(worker, r.2)]⟩
  | .free user now => some { p with sys := tUserFree user now p.sys }
  | .abort user now => some { p with sys := tUserAbort user now p.sys }

/-- The workers that call `tUserGetRandomly`, in lock order. -/
def callers : List Event → List ℕ
  | [] => []
  | .get worker _ _ _ :: es => worker :: callers es
  | .free _ _ :: es => callers es
  | .abort _ _ :: es => callers es

/-- The answers are the first ones of a sequence, and the static index is one that goes with their
number. -/
structure Follows (f : ℕ → Option ℕ) (R : ℕ → ℤ → Prop) (p : Log) : Prop where
  answers : p.returned.map Prod.snd = (List.range p.returned.length).map f
  index : R p.returned.length p.sys.tUseri

def Serves (c : Conf) (f : ℕ → Option ℕ) (R : ℕ → ℤ → Prop) (G : Log → Event → Prop) : Prop :=
  ∀ p worker sce rand now, R p.returned.length p.sys.tUseri → G p (.get worker sce rand now) →
    ∃ s, tUserGetRandomly c sce rand now p.sys = some (s, f p.returned.length) ∧
      R (p.returned.length + 1) s.tUseri

section Run
variable {c : Conf} {f : ℕ → Option ℕ} {R : ℕ → ℤ → Prop} {G : Log → Event → Prop}

lemma Follows.snoc {p : Log} (hp : Follows f R p) {s : State} {worker : ℕ}
    (hR : R (p.returned.length + 1) s.tUseri) :
    Follows f R ⟨s, p.returned ++ [(worker, f p.returned.length)]⟩ where
  answers := by
    simp only [List.map_append, List.map_cons, List.map_nil, List.length_append, List.length_cons,
      List.length_nil, hp.answers, List.range_succ]
  index := by simpa using hR

lemma run_follows (hserve : Serves c f R G) {es : List Event} {p : Log} (hp : Follows f R p)
    (hg : Guarded (step c) G p es) :
    ∃ q, run (step c) p es = some q ∧ Follows f R q ∧
      q.returned.map Prod.fst = p.returned.map Prod.fst ++ callers es := by
  induction es generalizing p with
  | nil => exact ⟨p, rfl, hp, (List.append_nil _).symm⟩
  | cons e es ih =>
    cases e with
    | get worker sce rand now =>
      obtain ⟨s, hget, hR⟩ := hserve p worker sce rand now hp.index hg.1
      have hstep : step c p (.get worker sce rand now) =
          some ⟨s, p.returned ++ [(worker, f p.returned.length)]⟩ := by
        simp only [step, hget, Option.map_some]
      obtain ⟨q, hrun, hq, hworkers⟩ := ih (hp.snoc hR) (hg.2 _ hstep)
      refine ⟨q, run_cons_eq_some.mpr ⟨_, hstep, hrun⟩, hq, ?_⟩
      rw [hworkers, callers, List.map_append, List.append_assoc, List.map_singleton,
        List.singleton_append]
    | free user now =>
      have hfreed : Follows f R { p with sys := tUserFree user now p.sys } := ⟨hp.answers, hp.index⟩
      exact ih hfreed (hg.2 _ rfl)
    | abort user now =>
      have haborted : Follows f R { p with sys := tUserAbort user now p.sys } := ⟨hp.answers, hp.index⟩
      exact ih haborted (hg.2 _ rfl)

lemma run_from (hserve : Serves c f R G) {s : State} (hs : R 0 s.tUseri) {es : List Event}
    (hg : Guarded (step c) G ⟨s, []⟩ es) :
    ∃ q, run (step c) ⟨s, []⟩ es = some q ∧ q.returned.map Prod.fst = callers es ∧
      q.returned.map Prod.snd = (List.range (callers es).length).map f := by
  obtain ⟨q, hrun, hq, hworkers⟩ := run_follows hserve (p := ⟨s, []⟩) ⟨rfl, hs⟩ hg
  have hlength : q.returned.length = (callers es).length := by
    simpa using congrArg List.length hworkers
  refine ⟨q, hrun, hworkers, ?_⟩
  rw [hq.answers, hlength]

end Run

lemma tUserGetRandomly_of_index {c : Conf} {sce : Option TSce} {rand : ℕ} {now : ℤ} {s : State} {i : ℤ}
    (hi : nextIndex c sce rand now s = some i) :
    ∃ t, tUserGetRandomly c sce rand now s = some (t, if i < 0 then none else some i.toNat) ∧
      t.tUseri = i := by
  rw [tUserGetRandomly, hi, Option.map_some]
  split_ifs with hneg
  · exact ⟨_, rfl, rfl⟩
  · exact ⟨_, rfl, rfl⟩

/-- The static index after `k` calls: the user of the last one, or the mark of the end. -/
def sequentialIndex (nb k : ℕ) : ℤ := if k ≤ nb then k - 1 else -2

def sequentialUser (nb k : ℕ) : Option ℕ := if k < nb then some k else none

lemma sequentialUser_eq (nb k : ℕ) :
    (if sequentialIndex nb (k + 1) < 0 then none else some (sequentialIndex nb (k + 1)).toNat) =
      sequentialUser nb k := by
  by_cases hk : k < nb
  · have hindex : sequentialIndex nb (k + 1) = k := by simp [sequentialIndex, Nat.succ_le_of_lt hk]
    simp [hindex, sequentialUser, hk]
  · have hindex : sequentialIndex nb (k + 1) = -2 := by
      rw [sequentialIndex, if_neg (by omega)]
    simp [hindex, sequentialUser, hk]

lemma nextIndex_sequential {c : Conf} (hpol : c.tcUserGetPolicy = 1) (sce : Option TSce) (rand : ℕ)
    (now : ℤ) {s : State} {k : ℕ} (hs : s.tUseri = sequentialIndex c.tcUserNb k) :
    nextIndex c sce rand now s = some (sequentialIndex c.tcUserNb (k + 1)) := by
  rw [nextIndex, if_neg (by omega), if_pos hpol, hs]
  congr 1
  simp only [sequentialIndex]
  split_ifs <;> omega

lemma serves_sequential {c : Conf} (hpol : c.tcUserGetPolicy = 1) :
    Serves c (sequentialUser c.tcUserNb) (fun k t => t = sequentialIndex c.tcUserNb k)
      (fun _ _ => True) := by
  intro p worker sce rand now hindex _
  have hget := tUserGetRandomly_of_index (nextIndex_sequential hpol sce rand now hindex)
  rwa [sequentialUser_eq] at hget

/-- Under policy 1 the k-th call in lock order returns user k, whoever makes it, and the calls behind the
end of the table return no user. -/
theorem sequential_once (c : Conf) (hpol : c.tcUserGetPolicy = 1) (tab : ℕ → TUser) (es : List Event) :
    ∃ q, run (step c) ⟨⟨tab, -1⟩, []⟩ es = some q ∧ q.returned.map Prod.fst = callers es ∧
      q.returned.map Prod.snd =
        (List.range (callers es).length).map fun k => if k < c.tcUserNb then some k else none :=
  run_from (serves_sequential hpol) (by simp [sequentialIndex]) (guarded_of_forall (by simp) _)

def twoWorkers : List Event :=
  [.get 0 none 0 10, .get 1 none 0 11, .free 0 12, .get 0 none 0 13, .get 1 none 0 14]

theorem two_workers_once :
    ∃ q, run (step ⟨2, 1⟩) ⟨⟨idleTable.tab, -1⟩, []⟩ twoWorkers = some q ∧
      q.returned.map Prod.fst = [0, 1, 0, 1] ∧
      q.returned.map Prod.snd = [some 0, some 1, none, none] :=
  sequential_once ⟨2, 1⟩ rfl idleTable.tab twoWorkers

section Loop
variable {c : Conf} {sce : Option TSce} {nb min : ℕ}

def AllEligible (c : Conf) (sce : Option TSce) (p : Log) : Event → Prop
  | .get _ other _ now => other = sce ∧
      ∀ u, (population c sce).1 ≤ u → u < (population c sce).1 + (population c sce).2 →
        Eligible now (p.sys.tab u)
  | .free _ _ => True
  | .abort _ _ => True

instance (c : Conf) (sce : Option TSce) (p : Log) (e : Event) : Decidable (AllEligible c sce p e) := by
  cases e <;> unfold AllEligible <;> infer_instance

lemma tUserCheckExclusion_eligible {tab : ℕ → TUser} {now : ℤ} {i : ℕ} (hnb : 0 < nb)
    (h : Eligible now (tab i)) : tUserCheckExclusion tab now i nb min = some (i : ℤ) := by
  obtain ⟨fuel, rfl⟩ := Nat.exists_eq_add_one_of_ne_zero hnb.ne'
  have hfree := busy_eq_false_iff.mpr h
  simp only [tUserCheckExclusion, searchFree, hfree, Bool.false_eq_true, if_false, ite_self]

def loopStart (nb min : ℕ) (t : ℤ) : ℕ := (t + 1).toNat % nb + min

lemma loopStart_mem (hnb : 0 < nb) (min : ℕ) (t : ℤ) :
    min ≤ loopStart nb min t ∧ loopStart nb min t < min + nb := by
  have hmod : (t + 1).toNat % nb < nb := Nat.mod_lt _ hnb
  rw [loopStart]
  omega

lemma nextIndex_loop (hpol : c.tcUserGetPolicy = 2) (hpop : population c sce = (min, nb))
    (hnb : 0 < nb) (rand : ℕ) {now : ℤ} {s : State}
    (h : Eligible now (s.tab (loopStart nb min s.tUseri))) :
    nextIndex c sce rand now s = some (loopStart nb min s.tUseri : ℤ) := by
  have hstart : startIndex c s sce rand = some (loopStart nb min s.tUseri) := by
    simp only [startIndex, hpop, hpol]
    rw [if_neg hnb.ne', if_neg (by decide)]
    rfl
  rw [nextIndex, if_pos (.inr hpol), hstart, Option.bind_some, hpop]
  exact tUserCheckExclusion_eligible hnb h

lemma serves_loop (hpol : c.tcUserGetPolicy = 2) (hpop : population c sce = (min, nb)) (hnb : 0 < nb)
    (initial : ℕ) :
    Serves c (fun k => some (visited nb min initial k))
      (fun k t => loopStart nb min t = visited nb min initial k) (AllEligible c sce) := by
  rintro p worker _ rand now hindex ⟨rfl, hall⟩
  rw [hpop] at hall
  have hmem := loopStart_mem hnb min p.sys.tUseri
  have hget := tUserGetRandomly_of_index
    (nextIndex_loop hpol hpop hnb rand (hall _ hmem.1 hmem.2))
  rw [hindex] at hget
  obtain ⟨t, ht, hnext⟩ := hget
  rw [if_neg (by omega), Int.toNat_natCast] at ht
  refine ⟨t, ht, ?_⟩
  simp only [hnext, loopStart]
  exact visited_succ nb min initial p.returned.length

lemma visited_perm_iff (hnb : 0 < nb) (initial : ℕ) :
    ((List.range nb).map fun k => some (visited nb min initial k)).Perm
      ((List.range' min nb).map some) ↔ (min + 1).Coprime nb := by
  rw [← turn_perm_iff (a := initial - min) hnb,
    ← List.map_perm_map_iff (f := fun x => some (min + x)) (fun x y h => by simpa using h),
    List.range'_eq_map_range, List.map_map, List.map_map]
  simp only [Function.comp_def, visited_eq_walk, Nat.add_comm]

end Loop

/-- As many calls in a row as the population has users, with everybody eligible at each of them, return
everybody once exactly if the step of the search and the size of the population are coprime. -/
theorem loops_once_iff (c : Conf) (hpol : c.tcUserGetPolicy = 2) (sce : Option TSce) {min nb : ℕ}
    (hpop : population c sce = (min, nb)) (hnb : 1 ≤ nb) (s : State) (es : List Event)
    (hg : Guarded (step c) (AllEligible c sce) ⟨s, []⟩ es) (hcalls : (callers es).length = nb) :
    ∃ q, run (step c) ⟨s, []⟩ es = some q ∧ q.returned.map Prod.fst = callers es ∧
      ((q.returned.map Prod.snd).Perm ((List.range' min nb).map some) ↔ (min + 1).Coprime nb) := by
  have hmem := loopStart_mem hnb min s.tUseri
  have hserve := serves_loop hpol hpop hnb (loopStart nb min s.tUseri)
  obtain ⟨q, hrun, hworkers, hanswers⟩ := run_from hserve (visited_zero hmem.1 hmem.2).symm hg
  refine ⟨q, hrun, hworkers, ?_⟩
  rw [hanswers, hcalls]
  exact visited_perm_iff hnb _

/-- The calls of two workers for a scenario whose users follow one other user. Each user is released
before the next call, and its delay is over then. -/
def releasedInTime (nb second : ℕ) : List Event :=
  [.get 0 (some ⟨5, 1, nb⟩) 0 10, .free 1 20, .get 1 (some ⟨5, 1, nb⟩) 0 30, .free second 40]

theorem three_users_looped :
    ∃ q, run (step ⟨4, 2⟩) ⟨idleTable, []⟩ (releasedInTime 3 3 ++ [.get 0 (some ⟨5, 1, 3⟩) 0 50]) = some q ∧
      q.returned.map Prod.fst = [0, 1, 0] ∧
      ((q.returned.map Prod.snd).Perm [some 1, some 2, some 3] ↔ (1 + 1).Coprime 3) :=
  loops_once_iff ⟨4, 2⟩ rfl (some ⟨5, 1, 3⟩) rfl (by decide) idleTable
    (releasedInTime 3 3 ++ [.get 0 (some ⟨5, 1, 3⟩) 0 50]) (by decide) rfl

/-- With two users the same one is returned again, although both are eligible at each call. -/
theorem first_of_two_returned_twice :
    Guarded (step ⟨3, 2⟩) (AllEligible ⟨3, 2⟩ (some ⟨5, 1, 2⟩)) ⟨idleTable, []⟩ (releasedInTime 2 1) ∧
    (run (step ⟨3, 2⟩) ⟨idleTable, []⟩ (releasedInTime 2 1)).map Log.returned =
      some [(0, some 1), (1, some 1)] := by
  decide

end LdapTgen.UserPolicies
