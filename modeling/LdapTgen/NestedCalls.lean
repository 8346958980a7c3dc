import Mathlib

/-! Recursive reading without a measure. What belongs to a key is a body: it ends with a result or an
error, or it calls for another key and goes on with what that call gives. `run` follows calls up to a
depth, and `Gives` is what some depth is enough for. A body gives something exactly when the calls it
comes to are well founded, and with finitely many callers exactly when none of them is in a cycle. -/
namespace LdapTgen.NestedCalls
open Relation

section Cycles
variable {κ : Type*} {R : κ → κ → Prop}

lemma not_acc_of_cycle {p : κ} (h : TransGen R p p) : ¬ Acc (flip R) p := by
  intro hacc
  induction hacc with
  | intro p _ ih =>
    obtain ⟨q, hpq, hqp⟩ := TransGen.head'_iff.mp h
    exact ih q hpq (TransGen.tail' hqp hpq)

lemma acc_of_reflTransGen {k p : κ} (hk : Acc (flip R) k) (h : ReflTransGen R k p) :
    Acc (flip R) p := by
  induction h with
  | refl => exact hk
  | tail _ hstep ih => exact ih.inv hstep

lemma transGen_of_lt {f : ℕ → κ} (hf : ∀ n, R (f n) (f (n + 1))) {i j : ℕ} (hij : i < j) :
    TransGen R (f i) (f j) := by
  induction hij with
  | refl => exact .single (hf i)
  | step _ ih => exact ih.tail (hf _)

/-- With finitely many callers, the only way not to end is to come back to a caller. -/
theorem acc_iff_no_cycle (hfin : {k | ∃ q, R k q}.Finite) (k : κ) :
    Acc (flip R) k ↔ ∀ p, ReflTransGen R k p → ¬ TransGen R p p := by
  constructor
  · intro hk p hp hcycle
    exact not_acc_of_cycle hcycle (acc_of_reflTransGen hk hp)
  · intro hno
    by_contra hk
    obtain ⟨f, hf0, hf⟩ := not_acc_iff_exists_descending_chain.mp hk
    have hstep : ∀ n, R (f n) (f (n + 1)) := hf
    -- infinitely many steps between finitely many callers meet one of them twice
    have hcaller : Set.MapsTo f Set.univ {k | ∃ q, R k q} := fun n _ => ⟨_, hstep n⟩
    obtain ⟨i, -, j, -, hne, heq⟩ := Set.infinite_univ.exists_ne_map_eq_of_mapsTo hcaller hfin
    have hreach : ∀ n, ReflTransGen R k (f n) := by
      intro n
      induction n with
      | zero => rw [hf0]
      | succ n ih => exact ih.tail (hstep n)
    rcases Nat.lt_or_gt_of_ne hne with hij | hji
    · have hcycle := transGen_of_lt hstep hij
      rw [← heq] at hcycle
      exact hno _ (hreach i) hcycle
    · have hcycle := transGen_of_lt hstep hji
      rw [heq] at hcycle
      exact hno _ (hreach j) hcycle

end Cycles

/-- What belongs to a key: an end, or a call and what follows when the call gives a result. An error of
the call is passed on. -/
inductive Body (κ ρ ε : Type*)
  | done (r : Except ε ρ)
  | call (key : κ) (next : ρ → Body κ ρ ε)

variable {κ ρ ε : Type*}

def Body.eval (get : κ → Option (Except ε ρ)) : Body κ ρ ε → Option (Except ε ρ)
  | .done r => some r
  | .call key next =>
      match get key with
      | none => none
      | some (.error e) => some (.error e)
      | some (.ok x) => (next x).eval get

def run (body : κ → Body κ ρ ε) : ℕ → κ → Option (Except ε ρ)
  | 0, _ => none
  | depth + 1, key => (body key).eval (run body depth)

section Eval
variable {get get' : κ → Option (Except ε ρ)} {key : κ} {next : ρ → Body κ ρ ε} {r : Except ε ρ}

lemma eval_call : (Body.call key next).eval get = some r ↔
    (∃ x, get key = some (.ok x) ∧ (next x).eval get = some r) ∨
      ∃ e, get key = some (.error e) ∧ r = .error e := by
  rw [Body.eval]
  rcases get key with _ | e | x
  · simp
  · simp [eq_comm]
  · simp

lemma eval_mono (h : ∀ k r, get k = some r → get' k = some r) (b : Body κ ρ ε)
    (hb : b.eval get = some r) : b.eval get' = some r := by
  induction b with
  | done r => exact hb
  | call key next ih =>
    rw [eval_call] at hb ⊢
    rcases hb with ⟨x, hx, hr⟩ | ⟨e, he, hr⟩
    · exact .inl ⟨x, h key _ hx, ih x hr⟩
    · exact .inr ⟨e, h key _ he, hr⟩

end Eval

variable {body : κ → Body κ ρ ε}

lemma run_succ {depth : ℕ} {key : κ} {r : Except ε ρ} (h : run body depth key = some r) :
    run body (depth + 1) key = some r := by
  induction depth generalizing key r with
  | zero => cases h
  | succ depth ih => exact eval_mono (fun k r => ih) (body key) h

lemma run_le {depth more : ℕ} (hle : depth ≤ more) {key : κ} {r : Except ε ρ}
    (h : run body depth key = some r) : run body more key = some r := by
  induction hle with
  | refl => exact h
  | step _ ih => exact run_succ ih

/-- Some depth of nested calls is enough for the body to end, and this is what it ends with. -/
def Gives (body : κ → Body κ ρ ε) (b : Body κ ρ ε) (r : Except ε ρ) : Prop :=
  ∃ depth, b.eval (run body depth) = some r

/-- The body comes to a call for the key: all calls before it have given results. -/
inductive Reaches (body : κ → Body κ ρ ε) : Body κ ρ ε → κ → Prop
  | here (key : κ) (next : ρ → Body κ ρ ε) : Reaches body (.call key next) key
  | later {key q : κ} {next : ρ → Body κ ρ ε} {x : ρ} (hx : Gives body (body key) (.ok x))
      (hq : Reaches body (next x) q) : Reaches body (.call key next) q

inductive EndsWith (body : κ → Body κ ρ ε) : Body κ ρ ε → Except ε ρ → Prop
  | done (r : Except ε ρ) : EndsWith body (.done r) r
  | later {key : κ} {next : ρ → Body κ ρ ε} {x : ρ} {r : Except ε ρ}
      (hx : Gives body (body key) (.ok x)) (hr : EndsWith body (next x) r) :
      EndsWith body (.call key next) r

/-- Under `key`, the call for `sub` is come to. -/
def Calls (body : κ → Body κ ρ ε) (key sub : κ) : Prop := Reaches body (body key) sub

/-- The keys that are called for, directly or under another one, while `b` is worked off. -/
def Reached (body : κ → Body κ ρ ε) (b : Body κ ρ ε) (key : κ) : Prop :=
  ∃ q, Reaches body b q ∧ ReflTransGen (Calls body) q key

section Gives
variable {b : Body κ ρ ε} {key q : κ} {next : ρ → Body κ ρ ε} {r r' : Except ε ρ}

lemma eval_run_le {depth more : ℕ} (hle : depth ≤ more) (h : b.eval (run body depth) = some r) :
    b.eval (run body more) = some r := eval_mono (fun _ _ => run_le hle) b h

lemma Gives.unique (h : Gives body b r) (h' : Gives body b r') : r = r' := by
  obtain ⟨d, hd⟩ := h
  obtain ⟨d', hd'⟩ := h'
  have hl := eval_run_le (Nat.le_max_left d d') hd
  have hr := eval_run_le (Nat.le_max_right d d') hd'
  exact Option.some_inj.mp (hl.symm.trans hr)

lemma gives_of_run {depth : ℕ} (h : run body depth key = some r) : Gives body (body key) r := by
  cases depth with
  | zero => cases h
  | succ depth => exact ⟨depth, h⟩

lemma gives_done (r : Except ε ρ) : Gives body (.done r) r := ⟨0, rfl⟩

lemma gives_call : Gives body (.call key next) r ↔
    (∃ x, Gives body (body key) (.ok x) ∧ Gives body (next x) r) ∨
      ∃ e, Gives body (body key) (.error e) ∧ r = .error e := by
  constructor
  · rintro ⟨d, hd⟩
    rcases eval_call.mp hd with ⟨x, hx, hr⟩ | ⟨e, he, hr⟩
    · exact .inl ⟨x, gives_of_run hx, d, hr⟩
    · exact .inr ⟨e, gives_of_run he, hr⟩
  · rintro (⟨x, ⟨d, hd⟩, d', hd'⟩ | ⟨e, ⟨d, hd⟩, rfl⟩)
    · have hkey : run body (max (d + 1) d') key = some (.ok x) := run_le (le_max_left _ _) hd
      have hrest := eval_run_le (le_max_right (d + 1) d') hd'
      exact ⟨_, eval_call.mpr (.inl ⟨x, hkey, hrest⟩)⟩
    · exact ⟨d + 1, eval_call.mpr (.inr ⟨e, hd, rfl⟩)⟩

lemma run_of_reaches {depth : ℕ} (h : b.eval (run body depth) = some r) (hq : Reaches body b q) :
    ∃ r', run body depth q = some r' := by
  induction hq with
  | here key next =>
    rcases eval_call.mp h with ⟨x, hx, -⟩ | ⟨e, he, -⟩
    · exact ⟨_, hx⟩
    · exact ⟨_, he⟩
  | later hx _ ih =>
    rcases eval_call.mp h with ⟨y, hy, hr⟩ | ⟨e, he, -⟩
    · cases (gives_of_run hy).unique hx
      exact ih hr
    · cases (gives_of_run he).unique hx

lemma exists_gives (b : Body κ ρ ε) (h : ∀ q, Reaches body b q → ∃ r, Gives body (body q) r) :
    ∃ r, Gives body b r := by
  induction b with
  | done r => exact ⟨r, gives_done r⟩
  | call key next ih =>
    obtain ⟨rk, hk⟩ := h key (.here key next)
    cases rk with
    | error e => exact ⟨_, gives_call.mpr (.inr ⟨e, hk, rfl⟩)⟩
    | ok x =>
      obtain ⟨r, hr⟩ := ih x fun q hq => h q (.later hk hq)
      exact ⟨r, gives_call.mpr (.inl ⟨x, hk, hr⟩)⟩

lemma acc_of_eval {depth : ℕ} (h : b.eval (run body depth) = some r) (hq : Reaches body b q) :
    Acc (flip (Calls body)) q := by
  induction depth generalizing b q r with
  | zero =>
    obtain ⟨r', hr'⟩ := run_of_reaches h hq
    cases hr'
  | succ depth ih =>
    obtain ⟨r', hr'⟩ := run_of_reaches h hq
    exact Acc.intro q fun p hp => ih hr' hp

lemma gives_of_acc (h : Acc (flip (Calls body)) q) : ∃ r, Gives body (body q) r := by
  induction h with
  | intro q _ ih => exact exists_gives (body q) ih

/-- A body ends exactly when the calls it comes to are well founded. -/
theorem gives_iff_acc (b : Body κ ρ ε) :
    (∃ r, Gives body b r) ↔ ∀ q, Reaches body b q → Acc (flip (Calls body)) q := by
  constructor
  · rintro ⟨r, d, hd⟩ q hq
    exact acc_of_eval hd hq
  · intro h
    exact exists_gives b fun q hq => gives_of_acc (h q hq)

/-- A body ends exactly when it comes to no key that is called for again under itself. -/
theorem gives_iff_no_cycle (hfin : {k | ∃ q, Calls body k q}.Finite) (b : Body κ ρ ε) :
    (∃ r, Gives body b r) ↔ ∀ p, Reached body b p → ¬ TransGen (Calls body) p p := by
  rw [gives_iff_acc]
  constructor
  · rintro h p ⟨q, hq, hqp⟩
    exact (acc_iff_no_cycle hfin q).mp (h q hq) p hqp
  · intro h q hq
    exact (acc_iff_no_cycle hfin q).mpr fun p hqp => h p ⟨q, hq, hqp⟩

end Gives

section Errors
variable {b : Body κ ρ ε} {e : ε}

lemma gives_error_iff : Gives body b (.error e) ↔
    EndsWith body b (.error e) ∨ ∃ q, Reaches body b q ∧ Gives body (body q) (.error e) := by
  constructor
  · intro h
    induction b with
    | done r =>
      cases (gives_done r).unique h
      exact .inl (.done _)
    | call key next ih =>
      rcases gives_call.mp h with ⟨x, hx, hr⟩ | ⟨e', he', heq⟩
      · rcases ih x hr with hend | ⟨q, hq, hgives⟩
        · exact .inl (.later hx hend)
        · exact .inr ⟨q, .later hx hq, hgives⟩
      · cases heq
        exact .inr ⟨key, .here key next, he'⟩
  · rintro (hend | ⟨q, hq, hgives⟩)
    · generalize hr : (Except.error e : Except ε ρ) = r at hend
      induction hend with
      | done r =>
        subst hr
        exact gives_done _
      | later hx _ ih => exact gives_call.mpr (.inl ⟨_, hx, ih hr⟩)
    · induction hq with
      | here key next => exact gives_call.mpr (.inr ⟨e, hgives, rfl⟩)
      | later hx _ ih => exact gives_call.mpr (.inl ⟨_, hx, ih hgives⟩)

lemma exists_endsWith {depth : ℕ} {q : κ} (h : run body depth q = some (.error e)) :
    ∃ p, ReflTransGen (Calls body) q p ∧ EndsWith body (body p) (.error e) := by
  induction depth generalizing q with
  | zero => cases h
  | succ depth ih =>
    rcases gives_error_iff.mp (gives_of_run h) with hend | ⟨p, hp, hgives⟩
    · exact ⟨q, .refl, hend⟩
    · -- the call fails within the smaller depth
      obtain ⟨r, hr⟩ := run_of_reaches (b := body q) h hp
      cases (gives_of_run hr).unique hgives
      obtain ⟨s, hps, hs⟩ := ih hr
      exact ⟨s, .head hp hps, hs⟩

lemma gives_error_of_reached {q p : κ} (hqp : ReflTransGen (Calls body) q p)
    (hp : EndsWith body (body p) (.error e)) : Gives body (body q) (.error e) := by
  induction hqp using ReflTransGen.head_induction_on with
  | refl => exact gives_error_iff.mpr (.inl hp)
  | head hstep _ ih => exact gives_error_iff.mpr (.inr ⟨_, hstep, ih⟩)

/-- An error comes from the body itself or from that of a key it comes to. -/
theorem gives_error_iff_reached : Gives body b (.error e) ↔
    EndsWith body b (.error e) ∨ ∃ p, Reached body b p ∧ EndsWith body (body p) (.error e) := by
  rw [gives_error_iff]
  apply or_congr_right
  constructor
  · rintro ⟨q, hq, d, hd⟩
    have hrun : run body (d + 1) q = some (.error e) := hd
    obtain ⟨p, hqp, hp⟩ := exists_endsWith hrun
    exact ⟨p, ⟨q, hq, hqp⟩, hp⟩
  · rintro ⟨p, ⟨q, hq, hqp⟩, hp⟩
    exact ⟨q, hq, gives_error_of_reached hqp hp⟩

end Errors

end LdapTgen.NestedCalls
