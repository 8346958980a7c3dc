import LdapTgen.CString
import LdapTgen.Profile

/-! The names of files: `expenv` replaces the variables of the environment in a name, and `fopenexp` opens
the file under the name that results. -/
namespace LdapTgen.FileNames
open CString

/-- `getenv`, whose values are strings. -/
structure Env where
  getenv : List Char → Option (List Char)
  nul_notMem : ∀ name value, getenv name = some value → nul ∉ value

def tmpSize : ℕ := 256

/-- `if ((q = strchr(p, '/')) == NULL) q = p + strlen(p)` -/
def nameEnd (inp : List Char) (p : ℕ) : Option ℕ := do
  match ← strchr '/' inp p with
  | some q => some q
  | none => (strAt inp p).map fun s => p + s.length

/-- `if (p = getenv(tmp)) strcat(out, p)` -/
def appendValue (env : Env) (tmp out : List Char) : Option (List Char) :=
  match env.getenv tmp with
  | some value => strcat out value
  | none => some out

/-- The loop of `expenv`: `inp` is the array that holds the name, and `p` the position in it. -/
def expenvLoop (env : Env) (inp : List Char) : ℕ → ℕ → List Char → Option (List Char)
  | 0, _, _ => none
  | fuel + 1, p, out => do
      match ← strchr '$' inp p with
      | none => strcat out (← strAt inp p)
      | some q =>
          let out ← strcat out ((← strAt inp p).take (q - p))
          let p := q
          let q ← nameEnd inp p
          let tmp := (← strAt inp (p + 1)).take (q - p - 1)
          if tmpSize ≤ tmp.length then none
          else
            let out ← appendValue env tmp out
            expenvLoop env inp fuel q out

/-- `out[0] = '\0'` and the loop; every turn but the last one passes a character of the name. -/
def expenv (env : Env) (out inp : List Char) : Option (List Char) := do
  let out ← put out 0 nul
  expenvLoop env inp inp.length 0 out

inductive Piece
  | kept (c : Char)
  | var (name : List Char)
  deriving DecidableEq, Repr

/-- A variable extends from its `$` to the next `/` or to the end. -/
def pieces : List Char → List Piece
  | [] => []
  | c :: s =>
      if c = '$' then .var (s.takeWhile (· != '/')) :: pieces (s.dropWhile (· != '/'))
      else .kept c :: pieces s
termination_by s => s.length
decreasing_by
  · exact Nat.lt_succ_of_le (List.dropWhile_sublist _).length_le
  · exact Nat.lt_succ_self _

def Piece.value (env : Env) : Piece → List Char
  | .kept c => [c]
  | .var name => (env.getenv name).getD []

def expand (env : Env) (s : List Char) : List Char := (pieces s).flatMap (Piece.value env)

/-- No name is too long for the array `tmp`. -/
def NamesFit (s : List Char) : Prop := ∀ name, .var name ∈ pieces s → name.length < tmpSize

section Pieces
variable {env : Env} {a b s : List Char}

lemma pieces_kept (ha : '$' ∉ a) (s : List Char) : pieces (a ++ s) = a.map .kept ++ pieces s := by
  induction a with
  | nil => rfl
  | cons c a ih =>
    rw [List.mem_cons, not_or] at ha
    rw [List.cons_append, pieces, if_neg (Ne.symm ha.1), ih ha.2, List.map_cons, List.cons_append]

lemma pieces_variable (b : List Char) : pieces ('$' :: b) =
    .var (b.takeWhile (· != '/')) :: pieces (b.dropWhile (· != '/')) := by
  rw [pieces, if_pos rfl]

lemma flatMap_kept (a : List Char) : (a.map Piece.kept).flatMap (Piece.value env) = a := by
  rw [List.flatMap_map]
  exact List.flatMap_singleton' a

lemma expand_kept (ha : '$' ∉ a) : expand env a = a := by
  have hpieces := pieces_kept ha []
  rw [List.append_nil, pieces, List.append_nil] at hpieces
  rw [expand, hpieces, flatMap_kept]

lemma expand_variable (ha : '$' ∉ a) : expand env (a ++ '$' :: b) =
    a ++ ((env.getenv (b.takeWhile (· != '/'))).getD [] ++ expand env (b.dropWhile (· != '/'))) := by
  rw [expand, pieces_kept ha, pieces_variable, List.flatMap_append, flatMap_kept, List.flatMap_cons]
  rfl

lemma namesFit_variable (ha : '$' ∉ a) (h : NamesFit (a ++ '$' :: b)) :
    (b.takeWhile (· != '/')).length < tmpSize ∧ NamesFit (b.dropWhile (· != '/')) := by
  rw [NamesFit, pieces_kept ha, pieces_variable] at h
  exact ⟨h _ (by simp), fun name hmem => h name (by simp [hmem])⟩

end Pieces

section Loop
variable {env : Env} {inp u v s a b out t : List Char} {fuel p : ℕ}

lemma nameEnd_eq (hinp : inp = u ++ ('$' :: b ++ nul :: v)) (hp : p = u.length) (hb : nul ∉ b) :
    nameEnd inp p = some (p + 1 + (b.takeWhile (· != '/')).length) := by
  by_cases hslash : '/' ∈ b
  · obtain ⟨name, rest, rfl, hname⟩ := List.eq_append_cons_of_mem hslash
    have hfound : strchr '/' inp p = some (some (p + ('$' :: name).length)) := by
      refine strchr_eq_some (t := rest) (v := v) (u := u) ?_ hp ?_ ?_
      · rw [hinp]
        simp
      · simpa [nul] using hb
      · simpa using hname
    rw [nameEnd, hfound, takeWhile_ne_append hname]
    simp
    omega
  · have hnone : strchr '/' inp p = some none := by
      refine strchr_eq_none hinp hp ?_ ?_
      · simpa [nul] using hb
      · simpa using hslash
    have hstr : strAt inp p = some ('$' :: b) := strAt_eq hinp hp (by simpa [nul] using hb)
    have hall : b.takeWhile (· != '/') = b := List.takeWhile_eq_self_iff.mpr (all_ne_of_notMem hslash)
    rw [nameEnd, hnone, hall]
    simp [hstr]
    omega

lemma appends_value (hout : HasText out t) (name : List Char) :
    Appends (appendValue env name out) out.length t ((env.getenv name).getD []) := by
  cases hvalue : env.getenv name with
  | none =>
    rw [appendValue, hvalue]
    exact appends_nil hout
  | some value =>
    rw [appendValue, hvalue]
    exact appends_strcat hout (env.nul_notMem name value hvalue)

lemma expenvLoop_turn (hinp : inp = u ++ (a ++ '$' :: b ++ nul :: v)) (hp : p = u.length)
    (hs : nul ∉ a ++ '$' :: b) (ha : '$' ∉ a) (hname : (b.takeWhile (· != '/')).length < tmpSize) :
    expenvLoop env inp (fuel + 1) p out = (strcat out a).bind fun out =>
      (appendValue env (b.takeWhile (· != '/')) out).bind fun out =>
        expenvLoop env inp fuel (p + a.length + 1 + (b.takeWhile (· != '/')).length) out := by
  have hb : nul ∉ b := fun h => hs (by simp [h])
  have hstr : strAt inp p = some (a ++ '$' :: b) := strAt_eq hinp hp hs
  have hfound : strchr '$' inp p = some (some (p + a.length)) :=
    strchr_eq_some (u := u) (t := b) (v := v) (by rw [hinp]; simp) hp hs ha
  have hend : nameEnd inp (p + a.length) =
      some (p + a.length + 1 + (b.takeWhile (· != '/')).length) :=
    nameEnd_eq (u := u ++ a) (v := v) (by rw [hinp]; simp) (by rw [hp, List.length_append]) hb
  have hrest : strAt inp (p + a.length + 1) = some b :=
    strAt_eq (u := u ++ (a ++ ['$'])) (v := v) (by rw [hinp]; simp) (by simp [hp]; omega) hb
  have htmp : b.take (b.takeWhile (· != '/')).length = b.takeWhile (· != '/') :=
    List.prefix_iff_eq_take.mp (List.takeWhile_prefix _) |>.symm
  have harith : p + a.length + 1 + (b.takeWhile (· != '/')).length - (p + a.length) - 1 =
      (b.takeWhile (· != '/')).length := by omega
  rw [expenvLoop]
  simp only [hfound, hstr, hend, hrest, harith, htmp, Option.bind_eq_bind, Option.bind_some,
    Nat.add_sub_cancel_left, List.take_left, if_neg (not_le.mpr hname)]

lemma expenvLoop_appends (hinp : inp = u ++ (s ++ nul :: v)) (hp : p = u.length) (hs : nul ∉ s)
    (hnames : NamesFit s) (hfuel : s.length < fuel) (hout : HasText out t) :
    Appends (expenvLoop env inp fuel p out) out.length t (expand env s) := by
  induction fuel generalizing u s p out t with
  | zero => cases hfuel
  | succ fuel ih =>
    have hstr : strAt inp p = some s := strAt_eq hinp hp hs
    by_cases hdollar : '$' ∈ s
    · obtain ⟨a, b, rfl, ha⟩ := List.eq_append_cons_of_mem hdollar
      obtain ⟨hname, hrest⟩ := namesFit_variable ha hnames
      rw [expenvLoop_turn hinp hp hs ha hname, expand_variable ha]
      refine (appends_strcat hout fun h => hs (by simp [h])).bind fun out₁ hlen₁ hout₁ => ?_
      rw [← hlen₁]
      refine (appends_value hout₁ _).bind fun out₂ hlen₂ hout₂ => ?_
      rw [← hlen₂]
      have hsplit : b.takeWhile (· != '/') ++ b.dropWhile (· != '/') = b :=
        List.takeWhile_append_dropWhile
      refine ih (u := u ++ (a ++ '$' :: b.takeWhile (· != '/'))) ?_ ?_ ?_ hrest ?_ hout₂
      · simp only [hinp, List.append_assoc, List.cons_append]
        rw [← List.append_assoc (b.takeWhile _), hsplit]
      · simp [hp]
        omega
      · intro h
        exact hs (by simp [(List.dropWhile_sublist _).subset h])
      · have hle := (List.dropWhile_sublist (l := b) (· != '/')).length_le
        rw [List.length_append, List.length_cons] at hfuel
        omega
    · have hnone : strchr '$' inp p = some none := strchr_eq_none hinp hp hs hdollar
      rw [expenvLoop, hnone, hstr, expand_kept hdollar]
      exact appends_strcat hout hs

lemma expenv_appends (hs : nul ∉ s) (hnames : NamesFit s) (out : List Char) :
    Appends (expenv env out (s ++ [nul])) out.length [] (expand env s) := by
  cases out with
  | nil => simp [Appends, expenv, put]
  | cons c out =>
    have hput : put (c :: out) 0 nul = some (nul :: out) := rfl
    have hout : HasText (nul :: out) [] := ⟨List.not_mem_nil, out, rfl⟩
    rw [expenv, hput, Option.bind_eq_bind, Option.bind_some]
    exact expenvLoop_appends (u := []) (v := []) rfl rfl hs hnames (by simp) hout

end Loop

section Expansion
variable {env : Env}

/-- `expenv` comes to its end and leaves the expansion in `out`, if the array has the room for it: the
variables are replaced by their values, those that are not set by nothing, and the rest is kept. -/
theorem expenv_expands (env : Env) (s out : List Char) (hs : nul ∉ s)
    (hnames : ∀ name, .var name ∈ pieces s → name.length < 256) :
    ((expenv env out (s ++ [nul])).bind fun out => strAt out 0) =
      if (expand env s).length < out.length then some (expand env s) else none := by
  have happ : Appends (expenv env out (s ++ [nul])) out.length [] (expand env s) :=
    expenv_appends hs hnames out
  have htext := happ.text
  rwa [List.length_nil, Nat.zero_add, List.nil_append] at htext

def homeEnv : Env where
  getenv name := if name = "HOME".toList then some "/root".toList else none
  nul_notMem name value h := by
    split at h
    · obtain rfl := Option.some.inj h
      decide
    · cases h

theorem expenv_expands_home :
    ((expenv homeEnv (List.replicate 16 nul) ("$HOME/a$X".toList ++ [nul])).bind fun out => strAt out 0) =
      some "/root/a".toList := by
  rw [expenv_expands homeEnv "$HOME/a$X".toList (List.replicate 16 nul) (by decide) (by simp [pieces])]
  simp [expand, pieces, Piece.value, homeEnv]

/-- `exp_fname` -/
abbrev ExpFname := { a : List Char // a.length = 1024 }

def fopenexp (env : Env) (fopen : Profile.Files) (expFname : ExpFname) (fname : List Char) :
    Option (Option (List Char)) :=
  ((expenv env expFname (fname ++ [nul])).bind fun out => strAt out 0).map fopen

def files (env : Env) (fopen : Profile.Files) : Profile.Files := fun fname => fopen (expand env fname)

lemma fopenexp_eq {fname : List Char} (hfname : nul ∉ fname) (hnames : NamesFit fname)
    (hroom : (expand env fname).length < 1024) (fopen : Profile.Files) (expFname : ExpFname) :
    fopenexp env fopen expFname fname = some (files env fopen fname) := by
  have happ : Appends (expenv env expFname (fname ++ [nul])) expFname.1.length [] (expand env fname) :=
    expenv_appends hfname hnames expFname
  have htext := happ.text
  rw [List.length_nil, Nat.zero_add, expFname.2, if_pos hroom, List.nil_append] at htext
  rw [fopenexp, htext, Option.map_some, files]

end Expansion

end LdapTgen.FileNames
