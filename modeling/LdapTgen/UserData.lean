import Mathlib

/-! The data that a user keeps between requests, as `tuser.c` stores them: arrays of a fixed size with
the number of bytes in use. -/
namespace LdapTgen.UserData

/-- The bytes in use of an array of `n` bytes. -/
@[ext] structure Field (n : ℕ) where
  bytes : List UInt8
  length_le : bytes.length ≤ n
  deriving DecidableEq, Repr

namespace Field
variable {n : ℕ}

def empty : Field n := ⟨[], n.zero_le⟩

/-- What is left of a value that is stored whole: its first `n` bytes. -/
def ofBytes (src : List UInt8) : Field n := ⟨src.take n, by simp⟩

/-- A setter of `tuser.c`, which copies `length` bytes of its argument, `n` at most. The copy has no
result when `length` is negative or goes beyond the argument. -/
def store (src : List UInt8) (length : ℤ) : Option (Field n) :=
  if 0 ≤ length ∧ min length.toNat n ≤ src.length then some (ofBytes (src.take length.toNat))
  else none

lemma store_length (src : List UInt8) : store (n := n) src src.length = some (ofBytes src) := by
  simp [store]

lemma store_cut {v r : List UInt8} {k : ℕ} (hk : (v.take k ++ r).length = k) :
    store (n := n) (v.take k ++ r) v.length =
      if min v.length n ≤ k then some (ofBytes v) else none := by
  rw [store, hk, Int.toNat_natCast]
  by_cases hfit : min v.length n ≤ k
  · have htake : ((v.take k ++ r).take v.length).take n = v.take n := by
      rw [List.take_take, List.take_append_of_le_length (by rw [List.length_take]; omega),
        List.take_take]
      exact List.take_eq_take_iff.mpr (by omega)
    rw [if_pos ⟨Int.natCast_nonneg _, hfit⟩, if_pos hfit, Option.some.injEq]
    exact Field.ext htake
  · rw [if_neg (fun h => hfit h.2), if_neg hfit]

lemma ofBytes_bytes_eq_iff {src : List UInt8} :
    (ofBytes src : Field n).bytes = src ↔ src.length ≤ n := by
  simp [ofBytes]

end Field

/-- The attributes of a user that the server gives, two of them for each value of the relocation
flag. -/
@[ext] structure User where
  classAttrib : Bool → Field 160
  stateAttrib : Bool → Field 160
  aaaSessionId : Field 32
  ppaq : Field 128

namespace User

def setClassAttrib (u : User) (reloc : Bool) (f : Field 160) : User :=
  { u with classAttrib := Function.update u.classAttrib reloc f }

def setStateAttrib (u : User) (reloc : Bool) (f : Field 160) : User :=
  { u with stateAttrib := Function.update u.stateAttrib reloc f }

def clearSession (u : User) : User := { u with aaaSessionId := .empty, ppaq := .empty }

def Cleared (u : User) : Prop := u.aaaSessionId.bytes.length = 0 ∧ u.ppaq.bytes.length = 0

lemma clearSession_cleared (u : User) : u.clearSession.Cleared := ⟨rfl, rfl⟩

lemma setClassAttrib_eq_self_iff {u : User} {reloc : Bool} {f : Field 160} :
    u.setClassAttrib reloc f = u ↔ u.classAttrib reloc = f := by
  constructor
  · intro h
    rw [← h]
    exact Function.update_self ..
  · rintro rfl
    exact User.ext (Function.update_eq_self ..) rfl rfl rfl

lemma setStateAttrib_eq_self_iff {u : User} {reloc : Bool} {f : Field 160} :
    u.setStateAttrib reloc f = u ↔ u.stateAttrib reloc = f := by
  constructor
  · intro h
    rw [← h]
    exact Function.update_self ..
  · rintro rfl
    exact User.ext rfl (Function.update_eq_self ..) rfl rfl

end User

end LdapTgen.UserData
