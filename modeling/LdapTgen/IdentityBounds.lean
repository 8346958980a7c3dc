import LdapTgen.ChallengeResponse

/-! The memory that the identity of a fast re-authentication goes through: AT_ENCR_DATA is decrypted into
an array of 200 bytes, and the identity is copied from there into one of 64. Its length is taken from the
decrypted data. -/
namespace LdapTgen.IdentityBounds
open EapClient FastReauth ChallengeResponse

def decryptSize : ℕ := 200
def myEncrDataLenMax : ℕ := 64

/-- The handlers that read an identity, with the subtype that they then answer with and where
AT_NEXT_REAUTH_ID is expected. -/
def identityAt : Handler → Option (Subtype × ℕ)
  | .challenge => some (.challenge, 0)
  | .akaChallenge => some (.akaChallenge, 0)
  | .reauth => some (.reauth, 24)
  | _ => none

/-- The positions that are written by the decryption, read by the copy, and written by the copy and for
the two terminators, one before and one behind it. -/
structure Accesses where
  decrypted : List ℕ
  source : List ℕ
  frId : List ℕ

def frIdLen (decrypt : ℕ → UInt8) (offset : ℕ) : ℕ :=
  256 * (decrypt (offset + 2)).toNat + (decrypt (offset + 3)).toNat

def accesses (encr : Octets) (decrypt : ℕ → UInt8) (offset : ℕ) : Accesses where
  decrypted := List.range (encr.length - 2)
  source := if decrypt offset = pwEapSimNextReauthId then
    List.range' (offset + 4) (frIdLen decrypt offset) else []
  frId := if decrypt offset = pwEapSimNextReauthId then 0 :: List.range (frIdLen decrypt offset + 1)
    else [0]

structure InBounds (a : Accesses) : Prop where
  decrypted : ∀ i ∈ a.decrypted, i < decryptSize
  source : ∀ i ∈ a.source, i ∈ a.decrypted
  frId : ∀ i ∈ a.frId, i < myEncrDataLenMax

section Accesses
variable {lib : Libeap} {req : Request} {input : Input} {x : Client} {encr iv : Octets} {offset : ℕ}

def decryptWith (lib : Libeap) (encr iv : Octets) (kEncr : Bytes) : ℕ → UInt8 :=
  lib.eapsimAesdecrypt (encr.bytes 2 (encr.length - 2)) (iv.bytes 2 16) kEncr

lemma nextReauthId_eq (lib : Libeap) (kEncr : Bytes) (offset : ℕ) (hencr : req.encrData = some encr)
    (hiv : req.iv = some iv) :
    nextReauthId lib kEncr offset req =
      (accesses encr (decryptWith lib encr iv kEncr) offset).source.map (decryptWith lib encr iv kEncr) := by
  by_cases hmark : decryptWith lib encr iv kEncr offset = pwEapSimNextReauthId
  · simp only [accesses, if_pos hmark, List.range'_eq_map_range, List.map_map]
    rw [decryptWith] at hmark
    simp [nextReauthId, hencr, hiv, hmark, decryptWith, frIdLen, Function.comp_def]
  · simp only [accesses, if_neg hmark, List.map_nil]
    rw [decryptWith] at hmark
    simp [nextReauthId, hencr, hiv, hmark]

lemma range'_subset_range {a n m : ℕ} :
    (∀ i ∈ List.range' a n, i ∈ List.range m) ↔ (n ≠ 0 → a + n ≤ m) := by
  simp only [List.mem_range'_1, List.mem_range]
  constructor
  · intro h hn
    have := h (a + n - 1) (by omega)
    omega
  · intro h i hi
    have := h (by omega)
    omega

lemma range_lt_iff {n m : ℕ} : (∀ i ∈ List.range n, i < m) ↔ n ≤ m := by
  simp only [List.mem_range]
  constructor
  · intro h
    by_contra hlong
    exact absurd (h m (by omega)) (by omega)
  · intro h i hi
    omega

lemma inBounds_iff (encr : Octets) (decrypt : ℕ → UInt8) (offset : ℕ) :
    InBounds (accesses encr decrypt offset) ↔
      encr.length ≤ 202 ∧ (decrypt offset = pwEapSimNextReauthId →
        frIdLen decrypt offset < 64 ∧
          (frIdLen decrypt offset ≠ 0 → offset + 6 + frIdLen decrypt offset ≤ encr.length)) := by
  have hdec : (∀ i ∈ List.range (encr.length - 2), i < decryptSize) ↔ encr.length ≤ 202 := by
    rw [range_lt_iff, decryptSize]
    omega
  by_cases hmark : decrypt offset = pwEapSimNextReauthId
  · have hacc : accesses encr decrypt offset = ⟨List.range (encr.length - 2),
        List.range' (offset + 4) (frIdLen decrypt offset),
        0 :: List.range (frIdLen decrypt offset + 1)⟩ := by
      simp [accesses, hmark]
    have hfrId : (∀ i ∈ 0 :: List.range (frIdLen decrypt offset + 1), i < myEncrDataLenMax) ↔
        frIdLen decrypt offset < 64 := by
      rw [List.forall_mem_cons, range_lt_iff, myEncrDataLenMax]
      omega
    have hsub := range'_subset_range (a := offset + 4) (n := frIdLen decrypt offset)
      (m := encr.length - 2)
    rw [hacc]
    constructor
    · rintro ⟨h1, h2, h3⟩
      refine ⟨hdec.mp h1, fun _ => ⟨hfrId.mp h3, fun hne => ?_⟩⟩
      have := hsub.mp h2 hne
      omega
    · rintro ⟨h1, h2⟩
      obtain ⟨hshort, hinside⟩ := h2 hmark
      refine ⟨hdec.mpr h1, hsub.mpr fun hne => ?_, hfrId.mpr hshort⟩
      have := hinside hne
      omega
  · have hacc : accesses encr decrypt offset = ⟨List.range (encr.length - 2), [], [0]⟩ := by
      simp [accesses, hmark]
    rw [hacc]
    constructor
    · rintro ⟨h1, -, -⟩
      exact ⟨hdec.mp h1, fun h => absurd h hmark⟩
    · rintro ⟨h1, -⟩
      exact ⟨hdec.mpr h1, by simp, by simp [myEncrDataLenMax]⟩

end Accesses

lemma process_frId {lib : Libeap} {req : Request} {input : Input} {x : Client} {h : Handler} {t : Subtype}
    {offset : ℕ} (hat : identityAt h = some (t, offset)) (hr : (h.process lib req input x).1 = true)
    (hsub : (h.process lib req input x).2.rep.subtype = some t) :
    (h.process lib req input x).2.frId =
      nextReauthId lib (h.process lib req input x).2.keys.kEncr offset req := by
  cases h with
  | challenge =>
    cases hat
    exact (challenge_true hr).2.2.2
  | reauth =>
    cases hat
    exact (reauth_true hr).2
  | akaChallenge =>
    cases hat
    rcases akaChallenge_true rfl hr with hreject | hsync | ⟨-, -, -, hid⟩
    · cases hreject.symm.trans hsub
    · cases hsync.symm.trans hsub
    · exact hid
  | start | notification | clientError | akaIdentity => cases hat

/-- The handlers leave the identity that their copy reads, and keep to their arrays exactly if AT_ENCR_DATA
has at most 202 octets and an identity in it is shorter than 64 and ends within it. -/
theorem identity_in_bounds_iff (lib : Libeap) (req : Request) (input : Input) (x : Client) (h : Handler)
    (t : Subtype) (offset : ℕ) (hat : identityAt h = some (t, offset))
    (hr : (h.process lib req input x).1 = true)
    (hsub : (h.process lib req input x).2.rep.subtype = some t) (encr iv : Octets)
    (hencr : req.encrData = some encr) (hiv : req.iv = some iv) (decrypt : ℕ → UInt8)
    (hdecrypt : decrypt = decryptWith lib encr iv (h.process lib req input x).2.keys.kEncr) :
    (h.process lib req input x).2.frId = (accesses encr decrypt offset).source.map decrypt ∧
      (InBounds (accesses encr decrypt offset) ↔
        encr.length ≤ 202 ∧ (decrypt offset = pwEapSimNextReauthId → frIdLen decrypt offset < 64 ∧
          (frIdLen decrypt offset ≠ 0 → offset + 6 + frIdLen decrypt offset ≤ encr.length))) := by
  subst hdecrypt
  exact ⟨(process_frId hat hr hsub).trans (nextReauthId_eq lib _ offset hencr hiv),
    inBounds_iff encr _ offset⟩

def dataOfLength (length : ℕ) (h : length ≤ 254) : Octets := ⟨length, fun _ => 0, h⟩

def challengeWith (encr : Octets) : Request :=
  { plainRequest .challenge with encrData := some encr, iv := some .zero }

def nonceClient : Client := ⟨cardResponse, { oldKeys with nonceMt := [1] }, []⟩

theorem short_identity_in_bounds :
    InBounds (accesses (dataOfLength 18 (by decide))
      (decryptWith nonceLib (dataOfLength 18 (by decide)) .zero [1]) 0) :=
  (identity_in_bounds_iff nonceLib (challengeWith (dataOfLength 18 (by decide))) ⟨[], false⟩ nonceClient
    .challenge .challenge 0 rfl rfl rfl (dataOfLength 18 (by decide)) .zero rfl rfl _ rfl).2.mpr
    ⟨by decide, fun _ => ⟨by decide, fun _ => by decide⟩⟩

def longIdentityLib : Libeap :=
  { nonceLib with eapsimAesdecrypt := fun _ _ _ i => [133, 2, 0, 64].getD i 0 }

/-- An identity of 64 octets is copied from 16 decrypted ones, and its terminator is written behind the
array. 253 octets are decrypted beyond the end of theirs. -/
theorem long_identity_out_of_bounds :
    ((processEapChallenge longIdentityLib (challengeWith (dataOfLength 18 (by decide))) nonceClient).1 =
        true ∧
      (processEapChallenge longIdentityLib (challengeWith (dataOfLength 18 (by decide)))
        nonceClient).2.frId.length = 64 ∧
      64 ∈ (accesses (dataOfLength 18 (by decide))
        (decryptWith longIdentityLib (dataOfLength 18 (by decide)) .zero [1]) 0).frId) ∧
    200 ∈ (accesses (dataOfLength 253 (by decide))
      (decryptWith nonceLib (dataOfLength 253 (by decide)) .zero [1]) 0).decrypted := by
  refine ⟨⟨rfl, rfl, ?_⟩, ?_⟩
  · decide
  · decide

end LdapTgen.IdentityBounds
