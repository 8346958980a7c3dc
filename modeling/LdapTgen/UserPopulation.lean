import LdapTgen.LabelledRun
import LdapTgen.MachineInt
import LdapTgen.Profile

/-! The table of the users: where `tUserGet` finds a user, and how `tUserPopulInit` fills the table from
the sections of the populations (with `tcTrafficInfo` not set). -/
namespace LdapTgen.UserPopulation
open LabelledRun MachineInt Profile

def maxUsrMemory : ℤ := 25000000

inductive Block
  | tUserPopul
  | tUserPopul1
  deriving DecidableEq, Repr

structure Cell where
  block : Block
  offset : ℤ
  deriving DecidableEq, Repr

def place (userIndex : ℤ) : Block × ℤ :=
  if userIndex ≤ maxUsrMemory then (.tUserPopul, userIndex)
  else (.tUserPopul1, userIndex - maxUsrMemory)

def tUserGet (tUserSize userIndex : ℤ) : Cell :=
  ⟨(place userIndex).1, int32 (tUserSize * (place userIndex).2)⟩

/-- Bytes that `tUserPopulInit` allocates for a number of users. -/
def allocated (tUserSize tcUserNb : ℤ) : Block → ℤ
  | .tUserPopul =>
      if tcUserNb ≤ maxUsrMemory then int32 (tUserSize * tcUserNb) else int32 (tUserSize * maxUsrMemory)
  | .tUserPopul1 =>
      if tcUserNb ≤ maxUsrMemory then 0 else int32 (tUserSize * (tcUserNb - maxUsrMemory))

/-- The user lies entirely in a block that was allocated for the number of users. -/
def Inside (tUserSize tcUserNb userIndex : ℤ) : Prop :=
  let cell := tUserGet tUserSize userIndex
  0 ≤ cell.offset ∧ cell.offset + tUserSize ≤ allocated tUserSize tcUserNb cell.block

section Blocks
variable {size total i j : ℤ}

lemma product_fits (hpos : 0 < size) (hsize : size ≤ 80) (hi : 0 ≤ i) (hmax : i ≤ maxUsrMemory) :
    FitsInt32 (size * i) := by
  have hlo : 0 ≤ size * i := mul_nonneg hpos.le hi
  have hhi : size * i ≤ 80 * maxUsrMemory := mul_le_mul hsize hmax hi (by decide)
  rw [maxUsrMemory] at hhi
  constructor <;> omega

lemma place_bounds (hi : 0 ≤ i) (htotal : i ≤ 2 * maxUsrMemory) :
    0 ≤ (place i).2 ∧ (place i).2 ≤ maxUsrMemory := by
  unfold place
  split_ifs
  · exact ⟨hi, by assumption⟩
  · constructor <;> omega

lemma tUserGet_offset (hpos : 0 < size) (hsize : size ≤ 80) (hi : 0 ≤ i) (htotal : i ≤ 2 * maxUsrMemory) :
    (tUserGet size i).offset = size * (place i).2 := by
  obtain ⟨hlo, hhi⟩ := place_bounds hi htotal
  exact int32_of_fits (product_fits hpos hsize hlo hhi)

lemma tUserGet_apart (hpos : 0 < size) (hsize : size ≤ 80) (hi : 0 ≤ i) (hij : i < j)
    (htotal : j ≤ 2 * maxUsrMemory) (hblock : (tUserGet size i).block = (tUserGet size j).block) :
    (tUserGet size i).offset + size ≤ (tUserGet size j).offset := by
  rw [tUserGet_offset hpos hsize hi (hij.le.trans htotal),
    tUserGet_offset hpos hsize (hi.trans hij.le) htotal]
  have hplace : (place i).2 + 1 ≤ (place j).2 := by
    simp only [tUserGet, place] at hblock ⊢
    split_ifs at hblock ⊢ <;> omega
  calc size * (place i).2 + size = size * ((place i).2 + 1) := by ring
    _ ≤ size * (place j).2 := mul_le_mul_of_nonneg_left hplace hpos.le

def room (tcUserNb : ℤ) : Block → ℤ
  | .tUserPopul => if tcUserNb ≤ maxUsrMemory then tcUserNb else maxUsrMemory
  | .tUserPopul1 => if tcUserNb ≤ maxUsrMemory then 0 else tcUserNb - maxUsrMemory

lemma allocated_eq (hpos : 0 < size) (hsize : size ≤ 80) (h0 : 0 ≤ total) (htotal : total ≤ 2 * maxUsrMemory)
    (b : Block) : allocated size total b = size * room total b := by
  have hmax : 0 ≤ maxUsrMemory := by decide
  cases b with
  | tUserPopul =>
    simp only [allocated, room]
    split_ifs with hle
    · exact int32_of_fits (product_fits hpos hsize h0 hle)
    · exact int32_of_fits (product_fits hpos hsize hmax le_rfl)
  | tUserPopul1 =>
    simp only [allocated, room]
    split_ifs with hle
    · exact (mul_zero size).symm
    · exact int32_of_fits (product_fits hpos hsize (by omega) (by omega))

lemma inside_iff_lt_room (hpos : 0 < size) (hsize : size ≤ 80) (hi : 0 ≤ i) (hit : i < total)
    (htotal : total ≤ 2 * maxUsrMemory) :
    Inside size total i ↔ (place i).2 < room total (place i).1 := by
  have hoffset := tUserGet_offset hpos hsize hi (hit.le.trans htotal)
  have hplace := place_bounds hi (hit.le.trans htotal)
  have hroom := allocated_eq hpos hsize (hi.trans hit.le) htotal (place i).1
  have hend : size * (place i).2 + size = size * ((place i).2 + 1) := by ring
  simp only [Inside, hoffset]
  rw [tUserGet, hroom, hend, mul_le_mul_iff_right₀ hpos, Int.add_one_le_iff]
  exact and_iff_right (mul_nonneg hpos.le hplace.1)

lemma inside_iff (hpos : 0 < size) (hsize : size ≤ 80) (hi : 0 ≤ i) (hit : i < total)
    (htotal : total ≤ 2 * maxUsrMemory) : Inside size total i ↔ i ≠ maxUsrMemory := by
  rw [inside_iff_lt_room hpos hsize hi hit htotal]
  rcases lt_trichotomy i maxUsrMemory with hlt | rfl | hgt
  · simp only [place, if_pos hlt.le, room]
    split_ifs <;> omega
  · simp only [place, le_refl, if_true, room, if_neg (not_le.mpr hit)]
    omega
  · simp only [place, if_neg (not_le.mpr hgt), room, if_neg (not_le.mpr (hgt.trans hit))]
    omega

end Blocks

/-- All users of the table lie in the blocks allocated for it, apart from each other and at offsets that
do not overflow, exactly if one block is enough for them. -/
theorem cells_inside_iff (tUserSize tcUserNb : ℤ) (hpos : 0 < tUserSize) (hsize : tUserSize ≤ 80)
    (hmax : tcUserNb ≤ 2 * maxUsrMemory) :
    ((∀ i, 0 ≤ i → i < tcUserNb → Inside tUserSize tcUserNb i) ∧
      (∀ i j, 0 ≤ i → i < j → j < tcUserNb →
        (tUserGet tUserSize i).block = (tUserGet tUserSize j).block →
          (tUserGet tUserSize i).offset + tUserSize ≤ (tUserGet tUserSize j).offset) ∧
      ∀ i, 0 ≤ i → i < tcUserNb → FitsInt32 (tUserSize * (place i).2)) ↔
    tcUserNb ≤ maxUsrMemory := by
  have hzero : 0 ≤ maxUsrMemory := by decide
  constructor
  · rintro ⟨hinside, -, -⟩
    by_contra hmore
    have hlast : maxUsrMemory < tcUserNb := not_le.mp hmore
    exact (inside_iff hpos hsize hzero hlast hmax).mp (hinside _ hzero hlast) rfl
  · intro hone
    refine ⟨fun i hi hit => ?_, fun i j hi hij hj hblock => ?_, fun i hi hit => ?_⟩
    · exact (inside_iff hpos hsize hi hit hmax).mpr (by omega)
    · exact tUserGet_apart hpos hsize hi hij (hj.le.trans hmax) hblock
    · obtain ⟨hlo, hhi⟩ := place_bounds hi (hit.le.trans hmax)
      exact product_fits hpos hsize hlo hhi

theorem ten_users_inside : 10 ≤ maxUsrMemory ∧ ∀ i, 0 ≤ i → i < 10 → Inside 72 10 i :=
  ⟨by decide, ((cells_inside_iff 72 10 (by decide) (by decide) (by decide)).mpr (by decide)).1⟩

/-- One user more than the first block has room for: the user behind its end is looked for there. -/
theorem user_behind_first_block :
    tUserGet 72 25000000 = ⟨.tUserPopul, 1800000000⟩ ∧ allocated 72 25000001 .tUserPopul = 1800000000 ∧
      ¬ Inside 72 25000001 25000000 := by
  refine ⟨by decide, by decide, fun h => ?_⟩
  exact absurd h.2 (by decide)

/-- The keys of a population's section, as `ProfileGetInt` and `ProfileGetString` return them. -/
structure Popul where
  description : List Char
  min : Int32
  max : Int32
  /-- No value: the key is missing. -/
  nb : Option Int32
  scope : ℤ
  pdn : List Char
  rdn_i : List Char
  filter_i : List Char
  nai_i : List Char
  passwd_i : List Char
  authtype : ℤ

structure LdapEntry where
  base : List Char
  dn : List Char
  filter : List Char
  scope : ℤ

structure Auth where
  nai : List Char
  authType : ℤ
  passwd : List Char

/-- The parts of a user that are filled; `none` is what the memory held before. -/
structure User where
  id : ℤ
  cnt : ℤ
  ldapE : Option LdapEntry
  auth : Option Auth

/-- Configuration, and the size of a user in memory. The texts of a user come from its number by
`sprintf` with the format of the population. -/
structure Env where
  sameUserPasswd : Bool
  tUserSize : ℤ
  sprintf : List Char → ℤ → List Char

structure Mallocs where
  ldapE : Bool
  auth : Bool
  sess : Bool

/-- A call of `tUserPopulInit`: the population, and what the host answers. `realloc` tells whether there
is memory for all users. -/
structure Call where
  popul : Popul
  frmkb : ℕ
  realloc : Bool
  malloc : ℤ → Mallocs

structure State where
  tcUserNb : ℤ
  tUserCurrentIndex : ℤ
  users : ℤ → Option User

def start : State := ⟨0, 0, fun _ => none⟩

/-- The LDAP part of `tUserPopulFillIn`: nothing is done for an empty `rdn`, and `none` is a failure. -/
def fillLdapE (granted : Bool) (scope : ℤ) (pdn rdn filter : List Char) : Option (Option LdapEntry) :=
  if rdn = [] then some none
  else if granted = false then none
  else if scope ≠ 0 ∧ scope ≠ 1 ∧ scope ≠ 2 then none
  else some (some ⟨rdn ++ ',' :: pdn, rdn ++ ',' :: pdn, filter, scope⟩)

def authtypeEapsim : ℤ := 6

def fillAuth (env : Env) (m : Mallocs) (nai passwd : List Char) (authType : ℤ) : Option (Option Auth) :=
  if nai = [] then some none
  else if m.auth = false ∨ m.sess = false then none
  else some (some ⟨nai, authType,
    if env.sameUserPasswd ∧ authType ≠ authtypeEapsim then "jean".toList else passwd⟩)

def tUserPopulFillIn (env : Env) (m : Mallocs) (scope : ℤ) (pdn rdn filter nai passwd : List Char)
    (authType idx : ℤ) : User × ℤ :=
  match fillLdapE m.ldapE scope pdn rdn filter with
  | none => (⟨idx, 0, none, none⟩, 1)
  | some ldapE =>
      match fillAuth env m nai passwd authType with
      | none => (⟨idx, 0, ldapE, none⟩, 1)
      | some auth => (⟨idx, 0, ldapE, auth⟩, 0)

/-- The body of the loop of `tUserPopulInit` for the number `i`. -/
def fillNext (env : Env) (e : Call) (i : ℤ) (s : State) : State × ℤ :=
  let p := e.popul
  let r := tUserPopulFillIn env (e.malloc s.tUserCurrentIndex) p.scope p.pdn (env.sprintf p.rdn_i i)
    (env.sprintf p.filter_i i) (env.sprintf p.nai_i i) (env.sprintf p.passwd_i i) p.authtype
    s.tUserCurrentIndex
  ({ s with
      tUserCurrentIndex := s.tUserCurrentIndex + 1
      users := Function.update s.users s.tUserCurrentIndex (some r.1) }, r.2)

/-- The loop of `tUserPopulInit`, with the number of users that the table has still room for. -/
def fillLoop (env : Env) (e : Call) (userMax : ℤ) : ℕ → ℤ → State → Except Fault (State × ℤ)
  | 0, i, s => if i ≤ userMax then .error .undefined else .ok (s, 0)
  | room + 1, i, s =>
      if i ≤ userMax then
        let r := fillNext env e i s
        if r.2 = 0 then fillLoop env e userMax room (int32 (i + 1)) r.1 else .ok r
      else .ok (s, 0)

def userNbMax (p : Popul) : ℤ := int32 (p.max.toInt - p.min.toInt + 1)

def userNb (p : Popul) : ℤ :=
  let nb := (p.nb.map Int32.toInt).getD (userNbMax p)
  if nb > userNbMax p then userNbMax p else nb

def userMax (p : Popul) : ℤ :=
  if userNb p < userNbMax p then int32 (p.min.toInt + userNb p - 1) else p.max.toInt

/-- The new state and the return code. The free memory `frmkb` is compared as an unsigned number. -/
def tUserPopulInit (env : Env) (e : Call) (s : State) : Except Fault (State × ℤ) :=
  let p := e.popul
  if p.description = [] then .ok (s, 1)
  else if p.min.toInt ≥ p.max.toInt then .error .exit
  else
    let total := int32 (s.tcUserNb + userNb p)
    let s := { s with tcUserNb := total }
    let memUtil := env.tUserSize * total.tdiv 100
    if memUtil < 0 ∨ e.frmkb < memUtil then .ok (s, 1)
    else if total < 0 ∨ e.realloc = false then .ok (s, 1)
    else fillLoop env e (userMax p) (total - s.tUserCurrentIndex).toNat p.min.toInt s

def step (env : Env) (s : State) (e : Call) : Option State :=
  match tUserPopulInit env e s with
  | .ok (t, rc) => if rc = 0 then some t else none
  | .error _ => none

/-- The users with an index below `n` are filled, each with its index, and no others. -/
structure Filled (n : ℤ) (users : ℤ → Option User) : Prop where
  below : ∀ i, 0 ≤ i → i < n → ∃ u, users i = some u ∧ u.id = i
  others : ∀ i, i < 0 ∨ n ≤ i → users i = none

structure Counted (s : State) : Prop where
  count : s.tcUserNb = s.tUserCurrentIndex
  filled : Filled s.tcUserNb s.users

section Fill
variable {env : Env} {e : Call} {s t : State} {i last : ℤ} {room : ℕ}

lemma tUserPopulFillIn_id (env : Env) (m : Mallocs) (scope : ℤ) (pdn rdn filter nai passwd : List Char)
    (authType idx : ℤ) :
    (tUserPopulFillIn env m scope pdn rdn filter nai passwd authType idx).1.id = idx := by
  unfold tUserPopulFillIn
  split
  · rfl
  · split <;> rfl

lemma fillNext_filled (hs : 0 ≤ s.tUserCurrentIndex) (h : Filled s.tUserCurrentIndex s.users) :
    Filled (s.tUserCurrentIndex + 1) (fillNext env e i s).1.users where
  below j h0 hj := by
    by_cases hnew : j = s.tUserCurrentIndex
    · rw [hnew]
      exact ⟨_, Function.update_self .., tUserPopulFillIn_id ..⟩
    · obtain ⟨u, hu, hid⟩ := h.below j h0 (by omega)
      exact ⟨u, (Function.update_of_ne hnew ..).trans hu, hid⟩
  others j hj := (Function.update_of_ne (by omega) ..).trans (h.others j (by omega))

/-- What a completed loop has done: one user for each number up to the last, which is not the largest
one that there is. -/
structure Completed (s t : State) (i last : ℤ) (room : ℕ) : Prop where
  count : t.tcUserNb = s.tcUserNb
  index : t.tUserCurrentIndex = s.tUserCurrentIndex + (last - i + 1).toNat
  room : (last - i + 1).toNat ≤ room
  last : i ≤ last → last < 2 ^ 31 - 1
  filled : 0 ≤ s.tUserCurrentIndex → Filled s.tUserCurrentIndex s.users →
    Filled t.tUserCurrentIndex t.users

lemma completed_of_lt (h : last < i) : Completed s s i last room where
  count := rfl
  index := by omega
  room := by omega
  last hle := by omega
  filled _ hfilled := hfilled

lemma completed_cons (hi : FitsInt32 i) (hle : i ≤ last)
    (h : Completed (fillNext env e i s).1 t (int32 (i + 1)) last room) :
    Completed s t i last (room + 1) := by
  have hindex := h.index
  have hroom := h.room
  have hlast := h.last
  simp only [fillNext] at hindex
  obtain ⟨hlo, hhi⟩ := hi
  rcases int32_cases (x := i + 1) (by omega) (by omega) with ⟨⟨-, hfits⟩, hnext⟩ | ⟨htop, hnext⟩ | ⟨hbelow, -⟩
  · rw [hnext] at hindex hroom hlast
    constructor
    · exact h.count
    · omega
    · omega
    · omega
    · intro hs hfilled
      exact h.filled (by simp only [fillNext]; omega) (fillNext_filled hs hfilled)
  · rw [hnext] at hlast
    omega
  · omega

lemma fillLoop_completed (hi : FitsInt32 i) (h : fillLoop env e last room i s = .ok (t, 0)) :
    Completed s t i last room := by
  induction room generalizing i s with
  | zero =>
    simp only [fillLoop] at h
    split_ifs at h with hle
    cases h
    exact completed_of_lt (not_le.mp hle)
  | succ room ih =>
    simp only [fillLoop] at h
    split_ifs at h with hle hrc
    · have hrest := ih (int32_fits _) h
      exact completed_cons hi hle hrest
    · exact absurd (congrArg Prod.snd (Except.ok.inj h)) hrc
    · cases h
      exact completed_of_lt (not_le.mp hle)

end Fill

def NbNonneg (p : Popul) : Prop := ∀ n, p.nb = some n → 0 ≤ n.toInt

section Count
variable {p : Popul}

lemma userNb_none (h : p.nb = none) : userNb p = userNbMax p := by
  simp [userNb, h]

lemma userNb_some {n : Int32} (h : p.nb = some n) : userNb p = min n.toInt (userNbMax p) := by
  simp only [userNb, h, Option.map_some, Option.getD_some]
  split_ifs <;> omega

lemma nbNonneg_none (h : p.nb = none) : NbNonneg p := by
  simp [NbNonneg, h]

lemma nbNonneg_some {n : Int32} (h : p.nb = some n) : NbNonneg p ↔ 0 ≤ n.toInt := by
  simp [NbNonneg, h]

lemma userNbMax_cases (hrange : p.min.toInt < p.max.toInt) :
    (p.max.toInt - p.min.toInt + 1 < 2 ^ 31 ∧ userNbMax p = p.max.toInt - p.min.toInt + 1) ∨
      (2 ^ 31 ≤ p.max.toInt - p.min.toInt + 1 ∧
        userNbMax p = p.max.toInt - p.min.toInt + 1 - 2 ^ 32) := by
  have hmin := p.min.le_toInt
  have hmax := p.max.toInt_lt
  rcases int32_cases (x := p.max.toInt - p.min.toInt + 1) (by omega) (by omega) with
    ⟨hfits, h⟩ | ⟨hmore, h⟩ | ⟨hless, -⟩
  · exact .inl ⟨hfits.2, h⟩
  · exact .inr ⟨hmore, h⟩
  · omega

lemma userMax_eq_max (h : userNb p = userNbMax p) : userMax p = p.max.toInt := by
  simp [userMax, h]

lemma userMax_of_lt (h : userNb p < userNbMax p) :
    userMax p = int32 (p.min.toInt + userNb p - 1) := if_pos h

lemma userNb_bounds (p : Popul) : -2 ^ 31 ≤ userNb p ∧ userNb p ≤ userNbMax p := by
  have hfits : -2 ^ 31 ≤ userNbMax p := (int32_fits _).1
  cases hnb : p.nb with
  | none =>
    rw [userNb_none hnb]
    exact ⟨hfits, le_rfl⟩
  | some n =>
    rw [userNb_some hnb]
    have hn := n.le_toInt
    omega

/-- The numbers up to the last one are as many as were counted, unless the count is negative: a range of
which the size overflows has more numbers than there can be users. -/
lemma numbers_eq (hrange : p.min.toInt < p.max.toInt)
    (hfew : (userMax p - p.min.toInt + 1).toNat < 2 ^ 31) :
    ((userMax p - p.min.toInt + 1).toNat : ℤ) = max (userNb p) 0 := by
  have hmin := p.min.le_toInt
  have hmax := p.max.toInt_lt
  obtain ⟨hlo, hhi⟩ := userNb_bounds p
  have hcases := userNbMax_cases hrange
  rcases hhi.eq_or_lt with hfull | hcut
  · rw [userMax_eq_max hfull] at hfew ⊢
    omega
  · rw [userMax_of_lt hcut] at hfew ⊢
    rcases int32_cases (x := p.min.toInt + userNb p - 1) (by omega) (by omega) with
      ⟨-, h⟩ | ⟨h, -⟩ | ⟨-, h⟩
    · rw [h]
      omega
    · omega
    · rw [h] at hfew
      omega

lemma nbNonneg_iff (hrange : p.min.toInt < p.max.toInt)
    (hfew : (userMax p - p.min.toInt + 1).toNat < 2 ^ 31) : NbNonneg p ↔ 0 ≤ userNb p := by
  have hmin := p.min.le_toInt
  have hmax := p.max.toInt_lt
  have hcases := userNbMax_cases hrange
  have hfull : userNb p = userNbMax p → 0 < userNbMax p := by
    intro h
    rw [userMax_eq_max h] at hfew
    omega
  cases hnb : p.nb with
  | none =>
    have hcount := userNb_none hnb
    have hpos := hfull hcount
    exact iff_of_true (nbNonneg_none hnb) (by omega)
  | some n =>
    have hcount := userNb_some hnb
    rw [nbNonneg_some hnb]
    omega

end Count

section Calls
variable {env : Env} {e : Call} {s t : State}

structure Loaded (s t : State) (p : Popul) : Prop where
  range : p.min.toInt < p.max.toInt
  count : t.tcUserNb = int32 (s.tcUserNb + userNb p)
  nonneg : 0 ≤ t.tcUserNb
  loop : Completed { s with tcUserNb := t.tcUserNb } t p.min.toInt (userMax p)
    (t.tcUserNb - s.tUserCurrentIndex).toNat

lemma tUserPopulInit_loaded (h : tUserPopulInit env e s = .ok (t, 0)) : Loaded s t e.popul := by
  simp only [tUserPopulInit] at h
  split_ifs at h with hdescription hrange hmemory hrealloc
  · simp at h
  · simp at h
  · simp at h
  · have hloop := fillLoop_completed ⟨Int32.le_toInt _, Int32.toInt_lt _⟩ h
    have hcount : t.tcUserNb = int32 (s.tcUserNb + userNb e.popul) := hloop.count
    refine ⟨not_le.mp hrange, hcount, ?_, ?_⟩
    · rw [hcount]
      omega
    · rw [hcount]
      exact hloop

lemma step_loaded (h : step env s e = some t) : Loaded s t e.popul := by
  unfold step at h
  split at h
  · rename_i t' rc hinit
    split_ifs at h with hrc
    cases h
    rw [hrc] at hinit
    exact tUserPopulInit_loaded hinit
  · cases h

/-- The index is never behind the count, which falls behind it by the negative keys. -/
structure Tally (s : State) : Prop where
  nonneg : 0 ≤ s.tcUserNb
  fits : s.tcUserNb < 2 ^ 31
  behind : s.tcUserNb ≤ s.tUserCurrentIndex
  filled : Filled s.tUserCurrentIndex s.users

lemma tally_start : Tally start where
  nonneg := le_rfl
  fits := by decide
  behind := le_rfl
  filled := ⟨fun i h0 hi => absurd hi (not_lt.mpr h0), fun _ _ => rfl⟩

lemma Tally.loaded (hs : Tally s) {p : Popul} (h : Loaded s t p) :
    Tally t ∧ t.tcUserNb = s.tcUserNb + userNb p ∧
      t.tUserCurrentIndex = s.tUserCurrentIndex + max (userNb p) 0 ∧ (NbNonneg p ↔ 0 ≤ userNb p) := by
  obtain ⟨h0, hfits, hbehind, hfilled⟩ := hs
  have hindex := h.loop.index
  have hroom := h.loop.room
  have htotal : FitsInt32 t.tcUserNb := h.count ▸ int32_fits _
  have hfew : (userMax p - p.min.toInt + 1).toNat < 2 ^ 31 := by
    have hlt := htotal.2
    omega
  rw [numbers_eq h.range hfew] at hindex
  simp only at hindex
  have hnb := userNb_bounds p
  have hmax : userNbMax p < 2 ^ 31 := (int32_fits _).2
  have hcount : t.tcUserNb = s.tcUserNb + userNb p := by
    have ht := h.nonneg
    have heq := h.count
    rcases int32_cases (x := s.tcUserNb + userNb p) (by omega) (by omega) with
      ⟨-, hexact⟩ | ⟨-, hturn⟩ | ⟨hless, -⟩ <;> omega
  refine ⟨⟨h.nonneg, htotal.2, by omega, ?_⟩, hcount, hindex, nbNonneg_iff h.range hfew⟩
  exact h.loop.filled (h0.trans hbehind) hfilled

lemma run_tally {es : List Call} (hs : Tally s) (hr : run (step env) s es = some t) :
    Tally t ∧ (t.tcUserNb = t.tUserCurrentIndex ↔
      s.tcUserNb = s.tUserCurrentIndex ∧ ∀ e ∈ es, NbNonneg e.popul) := by
  induction es generalizing s with
  | nil =>
    cases hr
    simpa using hs
  | cons e es ih =>
    obtain ⟨u, hstep, hrest⟩ := run_cons_eq_some.mp hr
    obtain ⟨hu, hcount, hindex, hnb⟩ := hs.loaded (step_loaded hstep)
    obtain ⟨ht, hiff⟩ := ih hu hrest
    refine ⟨ht, ?_⟩
    have hgap : u.tcUserNb = u.tUserCurrentIndex ↔
        s.tcUserNb = s.tUserCurrentIndex ∧ 0 ≤ userNb e.popul := by
      have hbehind := hs.behind
      omega
    rw [hiff, hgap, List.forall_mem_cons, hnb, and_assoc]

end Calls

/-- After successful calls the count of the users is right exactly if no population had a negative
number of users. -/
theorem users_counted_iff (env : Env) {es : List Call} {s : State}
    (hr : run (step env) start es = some s) : Counted s ↔ ∀ e ∈ es, NbNonneg e.popul := by
  obtain ⟨htally, hiff⟩ := run_tally tally_start hr
  have hcount : s.tcUserNb = s.tUserCurrentIndex ↔ ∀ e ∈ es, NbNonneg e.popul := by
    rw [hiff]
    exact and_iff_right rfl
  rw [← hcount]
  constructor
  · exact Counted.count
  · intro h
    exact ⟨h, h ▸ htally.filled⟩

def sampleEnv : Env := ⟨false, 72, fun format i => format ++ Nat.toDigits 10 i.toNat⟩

def tenNumbers (nb : Option Int32) : Call where
  popul := ⟨"ten".toList, 0, 9, nb, 0, "o=root".toList, "uid=".toList, [], [], [], authtypeEapsim⟩
  frmkb := 1000
  realloc := true
  malloc := fun _ => ⟨true, true, true⟩

lemma two_populations : (run (step sampleEnv) start [tenNumbers none, tenNumbers (some 3)]).map
    (fun s => (s.tcUserNb, s.tUserCurrentIndex)) = some (13, 13) := by
  decide

theorem thirteen_users_counted :
    ∃ s, run (step sampleEnv) start [tenNumbers none, tenNumbers (some 3)] = some s ∧
      s.tcUserNb = 13 ∧ Counted s := by
  obtain ⟨s, hs, hcount⟩ := Option.map_eq_some_iff.mp two_populations
  refine ⟨s, hs, congrArg Prod.fst hcount, (users_counted_iff sampleEnv hs).mpr ?_⟩
  simp [NbNonneg, tenNumbers]

/-- A negative key takes users off the count that stay in the table. -/
theorem negative_number_of_users :
    (run (step sampleEnv) start [tenNumbers none, tenNumbers (some (-5))]).map
      (fun s => (s.tcUserNb, s.tUserCurrentIndex)) = some (5, 10) := by
  decide

end LdapTgen.UserPopulation
