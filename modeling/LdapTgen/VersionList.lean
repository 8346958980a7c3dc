import LdapTgen.EapExchange

/-! AT_VERSION_LIST in `process_eap_start`. Its first two octets are the number of octets in the list, and
the loop over the list takes this number for that of the versions. -/
namespace LdapTgen.VersionList
open EapClient

/-- The search for the version, with the positions that it reads: the turns left and the index. -/
def searchLoop (versions : Octets) : ℕ → ℕ → ℕ × List ℕ
  | 0, _ => (0, [])
  | k + 1, i =>
      if versions.short (i + 1) = eapSimVersion then (eapSimVersion, [i + 1])
      else
        let r := searchLoop versions k (i + 1)
        (r.1, (i + 1) :: r.2)

def tooShort (versions : Octets) : Bool :=
  versions.length < 4 ∨ versions.length ≤ versions.short 0 + 2

/-- The versions that are read, by the search and for the trace of a search that failed. -/
def versionReads (versions : Octets) : List ℕ :=
  if tooShort versions then []
  else
    let r := searchLoop versions (versions.short 0) 0
    if r.1 = 0 then r.2 ++ (List.range (versions.short 0)).map (· + 1) else r.2

/-- One of the `n` versions that the list declares is the one supported. -/
def Declared (versions : Octets) (n : ℕ) : Prop := ∃ i < n, versions.short (i + 1) = eapSimVersion

instance (versions : Octets) (n : ℕ) : Decidable (Declared versions n) :=
  inferInstanceAs (Decidable (∃ i < n, _))

/-- A start message with this list that asks for one kind of identity at most. -/
def Offers (req : Request) (versions : Octets) : Prop :=
  req.versionList = some versions ∧ req.idReqClash = false

/-- The list of `n` versions is not too short, nothing behind it is read, and the right version is
selected. -/
structure Negotiated (versions : Octets) (n : ℕ) : Prop where
  accepted : ∀ req nonce x, Offers req versions →
    (processEapStart req nonce x).2.rep.subtype = some .start
  inside : ∀ i ∈ versionReads versions, i ≤ n
  selected : ∀ req nonce x, Offers req versions →
    (processEapStart req nonce x).2.keys.versionSelect = if Declared versions n then eapSimVersion else 0

section Search
variable {versions : Octets} {k i n : ℕ}

lemma searchLoop_select (k i : ℕ) :
    (searchLoop versions k i).1 =
      if ∃ j < k, versions.short (i + j + 1) = eapSimVersion then eapSimVersion else 0 := by
  induction k generalizing i with
  | zero => simp [searchLoop]
  | succ k ih =>
    by_cases hi : versions.short (i + 1) = eapSimVersion
    · rw [searchLoop, if_pos hi, if_pos ⟨0, Nat.succ_pos k, by simpa using hi⟩]
    · have hshift : (∃ j < k + 1, versions.short (i + j + 1) = eapSimVersion) ↔
          ∃ j < k, versions.short (i + 1 + j + 1) = eapSimVersion := by
        rw [Nat.exists_lt_succ_left]
        simp only [Nat.add_zero, hi, false_or, Nat.add_assoc, Nat.add_comm 1]
      simp only [searchLoop, if_neg hi, ih, hshift]

lemma searchLoop_selectVersion (count : ℕ) :
    (searchLoop versions count 0).1 = selectVersion versions count := by
  rw [searchLoop_select, selectVersion]
  simp

lemma searchLoop_inside_iff (versions : Octets) (hi : i ≤ n) (hk : n < i + k) :
    (∀ j ∈ (searchLoop versions k i).2, j ≤ n) ↔
      ∃ j, i ≤ j ∧ j < n ∧ versions.short (j + 1) = eapSimVersion := by
  induction k generalizing i with
  | zero => omega
  | succ k ih =>
    rcases Nat.eq_or_lt_of_le hi with rfl | hlt
    · -- the next version read is the first one behind the list
      refine iff_of_false (fun h => ?_) (by rintro ⟨j, hij, hji, -⟩; omega)
      have hmem : i + 1 ∈ (searchLoop versions (k + 1) i).2 := by
        rw [searchLoop]
        split_ifs
        · exact List.mem_singleton_self _
        · exact List.mem_cons_self
      exact absurd (h (i + 1) hmem) (by omega)
    · by_cases hmatch : versions.short (i + 1) = eapSimVersion
      · rw [searchLoop, if_pos hmatch]
        refine iff_of_true ?_ ⟨i, le_rfl, hlt, hmatch⟩
        intro j hj
        rw [List.mem_singleton.mp hj]
        exact hlt
      · have hnext := ih (i := i + 1) hlt (by omega)
        simp only [searchLoop, if_neg hmatch, List.forall_mem_cons]
        rw [hnext]
        constructor
        · rintro ⟨-, j, hij, hjn, hj⟩
          exact ⟨j, by omega, hjn, hj⟩
        · rintro ⟨j, hij, hjn, hj⟩
          refine ⟨hlt, j, ?_, hjn, hj⟩
          rcases Nat.eq_or_lt_of_le hij with rfl | hlt'
          · exact absurd hj hmatch
          · exact hlt'

lemma declared_iff :
    Declared versions n ↔ ∃ j, 0 ≤ j ∧ j < n ∧ versions.short (j + 1) = eapSimVersion := by
  simp [Declared]

lemma versionReads_inside_iff (hn : 1 ≤ n) (hcount : versions.short 0 = 2 * n)
    (hlong : tooShort versions = false) :
    (∀ i ∈ versionReads versions, i ≤ n) ↔ Declared versions n := by
  have hsearch := searchLoop_inside_iff versions (k := 2 * n) n.zero_le (by omega)
  rw [← declared_iff] at hsearch
  have hreads : versionReads versions =
      if (searchLoop versions (2 * n) 0).1 = 0 then
        (searchLoop versions (2 * n) 0).2 ++ (List.range (2 * n)).map (· + 1)
      else (searchLoop versions (2 * n) 0).2 := by
    simp [versionReads, hlong, hcount]
  rw [hreads]
  constructor
  · intro h
    apply hsearch.mp
    intro j hj
    split_ifs at h
    · exact h j (List.mem_append_left _ hj)
    · exact h j hj
  · intro hdecl
    have hfound : (searchLoop versions (2 * n) 0).1 ≠ 0 := by
      obtain ⟨j, hj, hmatch⟩ := hdecl
      rw [searchLoop_select, if_pos ⟨j, by omega, by simpa using hmatch⟩]
      decide
    rw [if_neg hfound]
    exact hsearch.mpr hdecl

end Search

section Start
variable {versions : Octets} {req : Request} {nonce : Bytes} {x : Client} {n : ℕ}

lemma processEapStart_tooShort (hoffer : Offers req versions) (hshort : tooShort versions) :
    processEapStart req nonce x = (false, { x with rep := cleanresp x.rep }) := by
  have hlen : versions.length < 4 ∨ versions.length ≤ versions.short 0 + 2 := by
    simpa [tooShort] using hshort
  simp only [processEapStart, hoffer.1]
  split_ifs with h4 hcount
  · rfl
  · rfl
  · exact absurd hlen (by omega)
  · exact absurd hlen (by omega)

lemma processEapStart_long (hoffer : Offers req versions) (hlong : tooShort versions = false) :
    (processEapStart req nonce x).2.rep.subtype = some .start ∧
      (processEapStart req nonce x).2.keys.versionSelect =
        (searchLoop versions (versions.short 0) 0).1 := by
  obtain ⟨h4, hcount⟩ : ¬ versions.length < 4 ∧ ¬ versions.length ≤ versions.short 0 + 2 := by
    simpa [tooShort] using hlong
  rw [searchLoop_selectVersion]
  simp only [processEapStart, hoffer.1, if_neg h4, if_neg hcount, hoffer.2]
  simp only [Bool.false_eq_true, if_false, Client.respondAs]
  split
  · exact ⟨rfl, rfl⟩
  · exact ⟨rfl, rfl⟩

end Start

/-- A list of `n` versions is handled as it should be exactly if it is padded and the supported version is
one of them. -/
theorem negotiated_iff (versions : Octets) (n : ℕ) (hn : 1 ≤ n) (hcount : versions.short 0 = 2 * n) :
    Negotiated versions n ↔ 2 * n + 2 < versions.length ∧ Declared versions n := by
  have hshort : tooShort versions = false ↔ 2 * n + 2 < versions.length := by
    rw [tooShort, decide_eq_false_iff_not, hcount]
    omega
  rw [← hshort]
  let req : Request := { plainRequest .start with versionList := some versions }
  have hoffer : Offers req versions := ⟨rfl, rfl⟩
  constructor
  · intro h
    have hlong : tooShort versions = false := by
      by_contra hno
      have hacc := h.accepted req [] ⟨cardResponse, oldKeys, []⟩ hoffer
      rw [processEapStart_tooShort hoffer (by simpa using hno)] at hacc
      cases hacc
    exact ⟨hlong, (versionReads_inside_iff hn hcount hlong).mp h.inside⟩
  · rintro ⟨hlong, hdecl⟩
    refine ⟨fun req nonce x ho => (processEapStart_long ho hlong).1,
      (versionReads_inside_iff hn hcount hlong).mpr hdecl, fun req nonce x ho => ?_⟩
    obtain ⟨j, hj, hmatch⟩ := hdecl
    rw [(processEapStart_long ho hlong).2, searchLoop_select, hcount,
      if_pos ⟨j, by omega, by simpa using hmatch⟩, if_pos ⟨j, hj, hmatch⟩]

/-- The list of the supported version alone, of `length` octets with its padding. -/
def versionOne (length : ℕ) (h : length ≤ 254) : Octets := ⟨length, fun i => [0, 2, 0, 1].getD i 0, h⟩

theorem padded_version_negotiated : Negotiated (versionOne 6 (by decide)) 1 :=
  (negotiated_iff (versionOne 6 (by decide)) 1 le_rfl rfl).mpr ⟨by decide, by decide⟩

/-- Without padding the list is too short. With version 2 alone and version 1 in the padding, the padding
is read and version 1 selected. -/
theorem unpadded_version_rejected :
    tooShort (versionOne 4 (by decide)) = true ∧
      versionReads ⟨6, fun i => [0, 2, 0, 2, 0, 1].getD i 0, by decide⟩ = [1, 2] ∧
      (processEapStart
        { plainRequest .start with
          versionList := some ⟨6, fun i => [0, 2, 0, 2, 0, 1].getD i 0, by decide⟩ } []
        ⟨cardResponse, oldKeys, []⟩).2.keys.versionSelect = eapSimVersion :=
  ⟨rfl, rfl, rfl⟩

end LdapTgen.VersionList
