import LdapTgen.WimaxSession

/-! The texts that `copyVSAAttrValue` makes of the attributes of a WiMAX session, and the local arrays
that they are written to. -/
namespace LdapTgen.SessionText
open UserData AccessIdentifiers WimaxSession

def hexDigits : List Char := "0123456789abcdef".toList

def hexByte (b : UInt8) : List Char :=
  [hexDigits.getD (b.toNat / 16) '0', hexDigits.getD (b.toNat % 16) '0']

def copyVSAAttrValue (srcVSA : List UInt8) : List Char :=
  if srcVSA.length = 0 then [] else '0' :: 'x' :: srcVSA.flatMap hexByte

def ppaqUpdateReasonQuotaReached : List Char := "080304".toList
def ppaqUpdateReasonAccessServiceTerminated : List Char := "080308".toList

structure Copy where
  size : ℕ
  text : List Char
  deriving DecidableEq

def Copy.Fits (c : Copy) : Prop := c.text.length < c.size

instance (c : Copy) : Decidable c.Fits := inferInstanceAs (Decidable (_ < _))

def sessionIdCopies (u : User) : List Copy :=
  if u.aaaSessionId.bytes.length ≠ 0 then [⟨32, copyVSAAttrValue u.aaaSessionId.bytes⟩] else []

/-- The copies of `putWimaxVSA`. -/
def ppaqCopies (u : User) (creditSessionAction : ℤ) : List Copy :=
  if u.ppaq.bytes.length = 0 then []
  else if creditSessionAction = 2 then
    [⟨128, copyVSAAttrValue u.ppaq.bytes ++ ppaqUpdateReasonQuotaReached⟩]
  else if creditSessionAction = 3 then
    [⟨128, copyVSAAttrValue u.ppaq.bytes ++ ppaqUpdateReasonAccessServiceTerminated⟩]
  else []

/-- The copies behind the session id, for the types that come to `putWimaxVSA`. -/
def vsaCopies (r : Request) (u : User) : List Copy :=
  match r.authType with
  | .eapSim | .eapAka => ppaqCopies u r.creditSessionAction
  | _ => []

/-- The copies of `tRadius_accessRq`, in their order. Without a session id it may return before the second
one. -/
def accessCopies (r : Request) (u : User) : List Copy :=
  if r.alloc = false then []
  else if u.aaaSessionId.bytes.length = 0 ∧ (r.relocation ∨ 2 ≤ r.creditSessionAction) then []
  else sessionIdCopies u ++ vsaCopies r u

def accountCopies (u : User) : List Copy := sessionIdCopies u

def TextsFit (u : User) : Prop :=
  (∀ r, ∀ c ∈ accessCopies r u, c.Fits) ∧ ∀ c ∈ accountCopies u, c.Fits

section Lengths
variable {u : User} {r : Request}

lemma flatMap_hexByte_length (bytes : List UInt8) :
    (bytes.flatMap hexByte).length = 2 * bytes.length := by
  induction bytes with
  | nil => rfl
  | cons b bytes ih =>
    rw [List.flatMap_cons, List.length_append, ih, List.length_cons, hexByte, List.length_cons,
      List.length_singleton]
    omega

lemma copyVSAAttrValue_length {bytes : List UInt8} (h : bytes.length ≠ 0) :
    (copyVSAAttrValue bytes).length = 2 + 2 * bytes.length := by
  rw [copyVSAAttrValue, if_neg h, List.length_cons, List.length_cons, flatMap_hexByte_length]
  omega

lemma hexFits_iff {bytes : List UInt8} (h : bytes.length ≠ 0) (size : ℕ) (suffix : List Char) :
    hexFits size suffix.length bytes = true ↔ (Copy.mk size (copyVSAAttrValue bytes ++ suffix)).Fits := by
  rw [hexFits, decide_eq_true_eq, Copy.Fits, List.length_append, copyVSAAttrValue_length h]

lemma sessionIdCopies_fit_iff :
    (∀ c ∈ sessionIdCopies u, c.Fits) ↔ u.aaaSessionId.bytes.length ≤ 14 := by
  unfold sessionIdCopies
  split_ifs with hlen
  · simp only [List.forall_mem_singleton, Copy.Fits, copyVSAAttrValue_length hlen]
    omega
  · simp only [List.not_mem_nil, false_implies, implies_true, true_iff]
    omega

lemma ppaqCopies_fit {creditSessionAction : ℤ} (h : u.ppaq.bytes.length ≤ 59) :
    ∀ c ∈ ppaqCopies u creditSessionAction, c.Fits := by
  have hroom : ∀ suffix : List Char, suffix.length = 6 → u.ppaq.bytes.length ≠ 0 →
      (Copy.mk 128 (copyVSAAttrValue u.ppaq.bytes ++ suffix)).Fits := by
    intro suffix hsuffix hlen
    simp only [Copy.Fits, List.length_append, copyVSAAttrValue_length hlen, hsuffix]
    omega
  unfold ppaqCopies
  split_ifs with hlen h2 h3
  · simp
  · simpa using hroom ppaqUpdateReasonQuotaReached rfl hlen
  · simpa using hroom ppaqUpdateReasonAccessServiceTerminated rfl hlen
  · simp

lemma ppaqCopies_update_fit_iff : (∀ c ∈ ppaqCopies u 2, c.Fits) ↔ u.ppaq.bytes.length ≤ 59 := by
  refine ⟨fun h => ?_, ppaqCopies_fit⟩
  by_contra hlong
  have hlen : u.ppaq.bytes.length ≠ 0 := by omega
  simp only [ppaqCopies, if_neg hlen, if_true, List.forall_mem_singleton, Copy.Fits, List.length_append,
    copyVSAAttrValue_length hlen] at h
  have hsuffix : ppaqUpdateReasonQuotaReached.length = 6 := rfl
  omega

lemma mem_vsaCopies {c : Copy} (hc : c ∈ vsaCopies r u) :
    c ∈ ppaqCopies u r.creditSessionAction ∧ 2 ≤ r.creditSessionAction := by
  have hppaq : c ∈ ppaqCopies u r.creditSessionAction := by
    unfold vsaCopies at hc
    split at hc
    · exact hc
    · exact hc
    · cases hc
  refine ⟨hppaq, ?_⟩
  unfold ppaqCopies at hppaq
  split_ifs at hppaq with hlen h2 h3
  · cases hppaq
  · omega
  · omega
  · cases hppaq

end Lengths

section Build
variable {u : User} {r : Request}

/-- The model of the session has no result exactly when one of its texts does not fit. -/
lemma putWimaxVSA_none_iff (creditSessionAction : ℤ) :
    putWimaxVSA u creditSessionAction = none ↔ ∃ c ∈ ppaqCopies u creditSessionAction, ¬ c.Fits := by
  by_cases hlen : u.ppaq.bytes.length = 0
  · by_cases hsel : creditSessionAction = 2 ∨ creditSessionAction = 3
    · simp [putWimaxVSA, ppaqCopies, hlen, hsel]
    · simp [putWimaxVSA, ppaqCopies, hlen, hsel]
  · have hquota := hexFits_iff hlen 128 ppaqUpdateReasonQuotaReached
    have hended := hexFits_iff hlen 128 ppaqUpdateReasonAccessServiceTerminated
    have hsix : ppaqUpdateReasonQuotaReached.length = 6 := rfl
    have hsix' : ppaqUpdateReasonAccessServiceTerminated.length = 6 := rfl
    rw [hsix] at hquota
    rw [hsix'] at hended
    by_cases h2 : creditSessionAction = 2
    · simp [putWimaxVSA, ppaqCopies, hlen, h2, ← hquota]
    · by_cases h3 : creditSessionAction = 3
      · simp [putWimaxVSA, ppaqCopies, hlen, h3, ← hended]
      · simp [putWimaxVSA, ppaqCopies, hlen, h2, h3]

lemma putAuthType_none_iff : putAuthType r u = none ↔ ∃ c ∈ vsaCopies r u, ¬ c.Fits := by
  cases htype : r.authType <;> simp only [putAuthType, vsaCopies, htype, putWimaxVSA_none_iff] <;> simp

lemma buildRequest_none_iff (hotp : r.authType ≠ .otp) :
    buildRequest r u = none ↔ ∃ c ∈ accessCopies r u, ¬ c.Fits := by
  cases halloc : r.alloc with
  | false => simp [buildRequest, accessCopies, halloc]
  | true =>
    by_cases hlen : u.aaaSessionId.bytes.length = 0
    · by_cases hearly : r.relocation ∨ 2 ≤ r.creditSessionAction
      · simp [buildRequest, accessCopies, halloc, hlen, hearly]
      · simp [buildRequest, accessCopies, halloc, hlen, hearly, hotp, sessionIdCopies,
          putAuthType_none_iff]
    · have hfits := hexFits_iff hlen 32 []
      rw [List.append_nil, List.length_nil] at hfits
      by_cases hroom : hexFits 32 0 u.aaaSessionId.bytes
      · have hcopy := hfits.mp hroom
        simp [buildRequest, accessCopies, halloc, hlen, hotp, sessionIdCopies, hroom, hcopy,
          putAuthType_none_iff]
      · have hcopy := mt hfits.mpr hroom
        simp [buildRequest, accessCopies, halloc, hlen, sessionIdCopies, hroom, hcopy]

end Build

/-- An Update with EAP-SIM, which comes to both copies if there is a session id. -/
def update : Request := ⟨.eapSim, .ack, 2, false, true, false, false, 0, none⟩

/-- The texts fit exactly for a session id of at most 14 bytes, and a PPAQ of at most 59 beside it. -/
theorem texts_fit_iff (u : User) :
    TextsFit u ↔ u.aaaSessionId.bytes.length ≤ 14 ∧
      (u.aaaSessionId.bytes.length ≠ 0 → u.ppaq.bytes.length ≤ 59) := by
  constructor
  · rintro ⟨haccess, haccount⟩
    refine ⟨sessionIdCopies_fit_iff.mp haccount, fun hlen => ppaqCopies_update_fit_iff.mp ?_⟩
    intro c hc
    apply haccess update c
    simp only [accessCopies, update, hlen]
    simpa [vsaCopies] using Or.inr hc
  · rintro ⟨hid, hppaq⟩
    refine ⟨fun r c hc => ?_, sessionIdCopies_fit_iff.mpr hid⟩
    unfold accessCopies at hc
    split_ifs at hc with halloc hearly
    · cases hc
    · cases hc
    · rcases List.mem_append.mp hc with hc | hc
      · exact sessionIdCopies_fit_iff.mpr hid c hc
      · -- an Update or a Termination has not returned for want of a session id
        obtain ⟨hc, h2⟩ := mem_vsaCopies hc
        exact ppaqCopies_fit (hppaq fun hlen => hearly ⟨hlen, .inr h2⟩) c hc

def withLengths (m n : ℕ) : User :=
  ⟨fun _ => .empty, fun _ => .empty, .ofBytes (List.replicate m 0), .ofBytes (List.replicate n 0)⟩

/-- A session id of 15 bytes fills the array but for its terminator, and so does a PPAQ of 60. -/
theorem long_session_id_overflows :
    ¬ TextsFit (withLengths 15 0) ∧
      (∃ c ∈ accountCopies (withLengths 15 0), c.text.length = 32 ∧ c.size = 32) ∧
      ∃ c ∈ accessCopies update (withLengths 1 60), c.text.length = 128 ∧ c.size = 128 := by
  refine ⟨?_, ⟨_, List.mem_cons_self, rfl, rfl⟩,
    ⟨_, List.mem_cons_of_mem _ List.mem_cons_self, rfl, rfl⟩⟩
  rintro ⟨-, haccount⟩
  exact absurd (haccount _ List.mem_cons_self) (by decide)

end LdapTgen.SessionText
