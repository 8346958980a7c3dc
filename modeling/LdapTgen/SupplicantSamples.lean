import LdapTgen.LabelledRun
import LdapTgen.SupplicantReceive

/-! The samples that a supplicant gives to the statistics, beside the requests that leave its list
because they were answered or given up. `radius_client_receive` counts a matching packet as good before its
handlers see it, and comes to its failure label without a request too. -/
namespace LdapTgen.SupplicantSamples
open LabelledRun LinkedCells RadiusClient SupplicantReceive

inductive Cause
  | accepted
  | refused
  | givenUp
  deriving DecidableEq, Repr

/-- Why a request left the list, if one did, and the samples of `tStatActionTime` that go with it, with
`true` for KO. -/
structure Record where
  left : Option Cause
  samples : List Bool
  deriving DecidableEq, Repr

/-- No handler takes the message: the one that there is takes authentication only. Its result does not
depend on the user. -/
def refused (verify : Msg → Entry → Bool) (msgType : RadiusType) (m : Msg) (req : Entry)
    (s : Supplicant) : Bool :=
  msgType ≠ .auth ∨
    (receiveAuth s.creditSessionAction (verify m req) m s.user).map Prod.snd = some .unknown

/-- What `radius_client_receive` records. -/
def receiveRecords (verify : Msg → Entry → Bool) (msgType : RadiusType) (frame : Option Msg)
    (s : Supplicant) : List Record :=
  match frame with
  | none => []
  | some m =>
      match (pending s.client).find? (answers msgType m.identifier) with
      | none => [⟨none, [true]⟩]
      | some req => if refused verify msgType m req s then [⟨some .refused, [false, true]⟩]
          else [⟨some .accepted, [false]⟩]

/-- What `radius_client_retransmit` records of a message that is due. -/
def retransmitRecord (conf : Conf) (now : ℕ) (e : Entry) : Option Record :=
  if e.due now ∧ conf.tcRadiusRetries < (e.attempts + 1 : ℕ) then some ⟨some .givenUp, [true]⟩ else none

def timerRecords (conf : Conf) (now : ℕ) (es : List Entry) : List Record :=
  es.filterMap (retransmitRecord conf now)

structure System where
  supplicant : Supplicant
  records : List Record

def System.client (s : System) : Client := s.supplicant.client

inductive Event
  | listAdd (m : Message) (malloc : Bool) (firstTry now tv : ℕ)
  | listDel (msgType : RadiusType) (addr : Option Addr)
  | getId (ident : UInt8)
  | timer (now tv tvAuth tvAcct : ℕ) (sends : List SendResult)
  | receive (msgType : RadiusType) (frame : Option Msg)

def System.set (s : System) (rs : List Record) (c : Client) : System :=
  ⟨{ s.supplicant with client := c }, s.records ++ rs⟩

def step (conf : Conf) (verify : Msg → Entry → Bool) (s : System) : Event → Option System
  | .listAdd m malloc firstTry now tv =>
      (radiusClientListAdd conf m malloc firstTry now tv s.client).map (s.set [])
  | .listDel msgType addr => (radiusClientListDel msgType addr s.client).map (s.set [])
  | .getId ident => (radiusClientGetId ident s.client).map (s.set [])
  | .timer now tv tvAuth tvAcct sends =>
      (radiusClientTimer conf now tv tvAuth tvAcct sends s.client).map
        (s.set (timerRecords conf now (pending s.client)))
  | .receive msgType frame =>
      (SupplicantReceive.radiusClientReceive verify msgType frame s.supplicant).map fun t =>
        ⟨t, s.records ++ receiveRecords verify msgType frame s.supplicant⟩

def samples (rs : List Record) : ℕ := (rs.map (·.samples.length)).sum

def departed (rs : List Record) : ℕ := rs.countP (·.left.isSome)

/-- A request is counted KO exactly if it was not answered to the liking of a handler. -/
def KoRight (rs : List Record) : Prop :=
  ∀ r ∈ rs, ∀ c, r.left = some c → (true ∈ r.samples ↔ c = .givenUp ∨ c = .refused)

def OneSample (rs : List Record) : Prop := samples rs = departed rs ∧ KoRight rs

def Taken (verify : Msg → Entry → Bool) (s : System) : Event → Prop
  | .receive msgType (some m) =>
      ∃ req, (pending s.client).find? (answers msgType m.identifier) = some req ∧
        refused verify msgType m req s.supplicant = false
  | _ => True

section List
variable {conf : Conf} {now : ℕ} {es ws : List Entry}

lemma timerVisit_removed {t u : Turn} {e w : Entry} {removed : Bool}
    (h : timerVisit conf now t e = some (u, w, removed)) :
    removed = (retransmitRecord conf now e).isSome := by
  by_cases hdue : e.nextTry ≤ now
  · by_cases hsend : t.sends.head? = some .reconnect
    · simp [timerVisit, hdue, radiusClientRetransmit, hsend] at h
    · by_cases hmany : conf.tcRadiusRetries < (e.attempts + 1 : ℕ)
      · have hrec : (retransmitRecord conf now e).isSome = true := by
          rw [retransmitRecord, if_pos ⟨by simpa [Entry.due] using hdue, hmany⟩]
          rfl
        simp only [timerVisit, hdue, radiusClientRetransmit, hsend, hmany] at h
        simp at h
        rw [hrec, ← h.2.2]
      · have hrec : (retransmitRecord conf now e).isSome = false := by
          rw [retransmitRecord, if_neg (fun hboth => hmany hboth.2)]
          rfl
        simp only [timerVisit, hdue, radiusClientRetransmit, hsend, hmany] at h
        simp at h
        rw [hrec, ← h.2.2]
  · have hrec : (retransmitRecord conf now e).isSome = false := by
      rw [retransmitRecord, if_neg (fun hboth => hdue (by simpa [Entry.due] using hboth.1))]
      rfl
    simp only [timerVisit, hdue] at h
    simp at h
    rw [hrec, ← h.2.2]

/-- So the records of a turn of the timer are as many as the messages that its loop takes out. -/
lemma sweepList_records {t u : Turn} (h : sweepList (timerVisit conf now) t es = some (ws, u)) :
    ws.length + (timerRecords conf now es).length = es.length := by
  induction es generalizing t u ws with
  | nil =>
    cases h
    rfl
  | cons e es ih =>
    cases hvisit : timerVisit conf now t e with
    | none =>
      rw [sweepList_cons_none hvisit] at h
      cases h
    | some r =>
      obtain ⟨t', w, removed⟩ := r
      have hremoved := timerVisit_removed hvisit
      rw [sweepList_cons hvisit] at h
      obtain ⟨⟨us, u'⟩, hrest, hpair⟩ := Option.map_eq_some_iff.mp h
      obtain ⟨rfl, rfl⟩ := Prod.mk.inj hpair
      have hlen := ih hrest
      cases hrec : retransmitRecord conf now e with
      | none =>
        rw [hrec] at hremoved
        simp only [timerRecords, List.filterMap_cons, hrec, hremoved] at hlen ⊢
        simp
        omega
      | some r =>
        rw [hrec] at hremoved
        simp only [timerRecords, List.filterMap_cons, hrec, hremoved] at hlen ⊢
        simp
        omega

/-- A packet takes a request out of the list exactly if it has a record with a cause. -/
lemma receive_departed {verify : Msg → Entry → Bool} {msgType : RadiusType} {m : Msg}
    {s : Supplicant} {c : Client} (hs : s.client.Has es)
    (h : RadiusClient.radiusClientReceive msgType m.identifier s.client = some c) :
    (pending c).length + departed (receiveRecords verify msgType (some m) s) = es.length := by
  obtain ⟨heap, msgs, hreceive, hheld⟩ := receive_spec hs msgType m.identifier
  have hlist : c.Has (es.eraseP (answers msgType m.identifier)) := by
    rw [← Option.some.inj (hreceive.symm.trans h)]
    exact hheld
  rw [hlist.pending]
  cases hfind : es.find? (answers msgType m.identifier) with
  | none =>
    rw [List.eraseP_of_forall_not (by simpa using hfind)]
    simp [receiveRecords, hs.pending, hfind, departed]
  | some req =>
    have hmem := List.mem_of_find?_eq_some hfind
    have hpos := List.length_pos_of_mem hmem
    rw [List.length_eraseP_of_mem hmem (List.find?_some hfind)]
    by_cases href : refused verify msgType m req s
    · simp [receiveRecords, hs.pending, hfind, departed, href]
      omega
    · simp [receiveRecords, hs.pending, hfind, departed, href]
      omega

end List

section Records
variable {conf : Conf} {verify : Msg → Entry → Bool} {rs qs : List Record}

@[simp] lemma samples_append : samples (rs ++ qs) = samples rs + samples qs := by
  simp [samples]

@[simp] lemma departed_append : departed (rs ++ qs) = departed rs + departed qs :=
  List.countP_append ..

lemma koRight_append : KoRight (rs ++ qs) ↔ KoRight rs ∧ KoRight qs := List.forall_mem_append

lemma timerRecords_givenUp {now : ℕ} {es : List Entry} {r : Record} (hr : r ∈ timerRecords conf now es) :
    r = ⟨some .givenUp, [true]⟩ := by
  obtain ⟨e, -, he⟩ := List.mem_filterMap.mp hr
  unfold retransmitRecord at he
  split_ifs at he
  exact (Option.some.inj he).symm

lemma samples_of_givenUp (h : ∀ r ∈ rs, r = ⟨some .givenUp, [true]⟩) : samples rs = departed rs := by
  induction rs with
  | nil => rfl
  | cons r rs ih =>
    obtain rfl := h r List.mem_cons_self
    have hrest := ih fun r hr => h r (List.mem_cons_of_mem _ hr)
    simp only [samples, departed] at hrest
    simp [samples, departed, hrest, Nat.add_comm]

lemma timerRecords_spec (conf : Conf) (now : ℕ) (es : List Entry) :
    samples (timerRecords conf now es) = departed (timerRecords conf now es) ∧
      KoRight (timerRecords conf now es) := by
  refine ⟨samples_of_givenUp fun r hr => timerRecords_givenUp hr, fun r hr c hc => ?_⟩
  obtain rfl := timerRecords_givenUp hr
  obtain rfl := Option.some.inj hc
  simp

lemma receiveRecords_spec (verify : Msg → Entry → Bool) (s : System) (msgType : RadiusType)
    (frame : Option Msg) :
    KoRight (receiveRecords verify msgType frame s.supplicant) ∧
      (Taken verify s (.receive msgType frame) ∧
          samples (receiveRecords verify msgType frame s.supplicant) =
            departed (receiveRecords verify msgType frame s.supplicant) ∨
        ¬ Taken verify s (.receive msgType frame) ∧
          samples (receiveRecords verify msgType frame s.supplicant) =
            departed (receiveRecords verify msgType frame s.supplicant) + 1) := by
  cases frame with
  | none => simp [receiveRecords, KoRight, Taken, samples, departed]
  | some m =>
    have hpend : s.supplicant.client = s.client := rfl
    cases hfind : (pending s.client).find? (answers msgType m.identifier) with
    | none =>
      have hrec : receiveRecords verify msgType (some m) s.supplicant = [⟨none, [true]⟩] := by
        simp only [receiveRecords, hpend, hfind]
      rw [hrec]
      simp [KoRight, Taken, hfind, samples, departed]
    | some req =>
      cases href : refused verify msgType m req s.supplicant with
      | true =>
        have hrec : receiveRecords verify msgType (some m) s.supplicant =
            [⟨some .refused, [false, true]⟩] := by
          simp only [receiveRecords, hpend, hfind, href, if_true]
        rw [hrec]
        simp [KoRight, Taken, hfind, href, samples, departed]
      | false =>
        have hrec : receiveRecords verify msgType (some m) s.supplicant =
            [⟨some .accepted, [false]⟩] := by
          simp only [receiveRecords, hpend, hfind, href, Bool.false_eq_true, if_false]
        rw [hrec]
        simp [KoRight, Taken, hfind, href, samples, departed]

end Records

section Steps
variable {conf : Conf} {verify : Msg → Entry → Bool} {s t : System} {e : Event}

lemma records_of_set {s t : System} {o : Option Client} (h : o.map (s.set []) = some t) :
    t.records = s.records := by
  obtain ⟨c, -, rfl⟩ := Option.map_eq_some_iff.mp h
  exact List.append_nil _

structure Adds (verify : Msg → Entry → Bool) (s : System) (e : Event) (rs : List Record) : Prop where
  ko : KoRight rs
  le : departed rs ≤ samples rs
  eq_iff : samples rs = departed rs ↔ Taken verify s e

lemma adds_nil (htaken : Taken verify s e) : Adds verify s e [] where
  ko := by simp [KoRight]
  le := le_rfl
  eq_iff := iff_of_true rfl htaken

lemma step_adds (h : step conf verify s e = some t) :
    ∃ rs, t.records = s.records ++ rs ∧ Adds verify s e rs := by
  cases e with
  | listAdd m malloc firstTry now tv =>
    exact ⟨[], by rw [List.append_nil, records_of_set h], adds_nil trivial⟩
  | listDel msgType addr => exact ⟨[], by rw [List.append_nil, records_of_set h], adds_nil trivial⟩
  | getId ident => exact ⟨[], by rw [List.append_nil, records_of_set h], adds_nil trivial⟩
  | timer now tv tvAuth tvAcct sends =>
    obtain ⟨c, -, rfl⟩ := Option.map_eq_some_iff.mp h
    obtain ⟨hcount, hko⟩ := timerRecords_spec conf now (pending s.client)
    exact ⟨_, rfl, hko, hcount.ge, iff_of_true hcount trivial⟩
  | receive msgType frame =>
    obtain ⟨u, -, rfl⟩ := Option.map_eq_some_iff.mp h
    obtain ⟨hko, ⟨htaken, hcount⟩ | ⟨hnot, hcount⟩⟩ := receiveRecords_spec verify s msgType frame
    · exact ⟨_, rfl, hko, hcount.ge, iff_of_true hcount htaken⟩
    · exact ⟨_, rfl, hko, by omega, iff_of_false (by omega) hnot⟩

def Enough (s : System) : Prop := departed s.records ≤ samples s.records ∧ KoRight s.records

lemma Enough.step (hs : Enough s) (h : step conf verify s e = some t) : Enough t := by
  obtain ⟨rs, hrs, hadds⟩ := step_adds h
  have hle := hadds.le
  rw [Enough, hrs, samples_append, departed_append, koRight_append]
  exact ⟨Nat.add_le_add hs.1 hle, hs.2, hadds.ko⟩

lemma surplus_step (hs : departed s.records < samples s.records) (h : step conf verify s e = some t) :
    departed t.records < samples t.records := by
  obtain ⟨rs, hrs, hadds⟩ := step_adds h
  have hle := hadds.le
  rw [hrs, samples_append, departed_append]
  omega

lemma surplus_of_not_taken (hs : Enough s) (hnot : ¬ Taken verify s e)
    (h : step conf verify s e = some t) : departed t.records < samples t.records := by
  obtain ⟨rs, hrs, hadds⟩ := step_adds h
  have hle := hadds.le
  have hne := mt hadds.eq_iff.mp hnot
  have hbefore := hs.1
  rw [hrs, samples_append, departed_append]
  omega

lemma oneSample_step (hs : OneSample s.records) (htaken : Taken verify s e)
    (h : step conf verify s e = some t) : OneSample t.records := by
  obtain ⟨rs, hrs, hadds⟩ := step_adds h
  rw [OneSample, hrs, samples_append, departed_append, koRight_append, hs.1, hadds.eq_iff.mpr htaken]
  exact ⟨rfl, hs.2, hadds.ko⟩

end Steps

/-- Whatever happens to a supplicant, there is one sample for each request that was answered or given up,
KO for those given up or refused, exactly if every packet that can be parsed has a request and is taken by
a handler. -/
theorem one_sample_iff (conf : Conf) (verify : Msg → Entry → Bool) (s₀ : Supplicant) (es : List Event)
    (s : System) (hrun : run (step conf verify) ⟨s₀, []⟩ es = some s) :
    OneSample s.records ↔ Guarded (step conf verify) (Taken verify) ⟨s₀, []⟩ es := by
  have hinit : OneSample (System.mk s₀ []).records := ⟨rfl, by simp [KoRight]⟩
  constructor
  · intro hone
    rcases guarded_or_persistent (I := Enough) (B := fun s => departed s.records < samples s.records)
      (fun _ _ _ hs h => hs.step h) (fun _ _ _ _ hb h => surplus_step hb h)
      (fun _ _ _ hs hnot h => surplus_of_not_taken hs hnot h) ⟨hinit.1.ge, hinit.2⟩ hrun with hg | hb
    · exact hg
    · exact absurd hone.1 (by omega)
  · intro hg
    exact run_invariant (fun _ _ _ hs htaken h => oneSample_step hs htaken h) hinit hg hrun

def oneAnswer : List Event :=
  [.listAdd ⟨none, 0, .auth⟩ true 100 100 100000000, .receive .auth (some (withClass .accessAccept))]

theorem authentic_answer_one_sample :
    ∃ s, run (step ⟨5, 3, [[]], []⟩ fun _ _ => true) ⟨idle, []⟩ oneAnswer = some s ∧
      s.records = [⟨some .accepted, [false]⟩] ∧ OneSample s.records := by
  refine ⟨_, rfl, rfl, (one_sample_iff ⟨5, 3, [[]], []⟩ (fun _ _ => true) idle oneAnswer _ rfl).mpr ?_⟩
  refine ⟨trivial, fun t ht => ⟨?_, fun _ _ => trivial⟩⟩
  obtain rfl := Option.some.inj ht
  exact ⟨_, rfl, rfl⟩

/-- An answer that cannot be verified is counted twice, and a packet without a request once. -/
theorem refused_answer_two_samples :
    (∃ s, run (step ⟨5, 3, [[]], []⟩ fun _ _ => false) ⟨idle, []⟩ oneAnswer = some s ∧
      samples s.records = 2 ∧ departed s.records = 1) ∧
    ∃ s, run (step ⟨5, 3, [[]], []⟩ fun _ _ => true) ⟨idle, []⟩
        [.receive .auth (some (withClass .accessAccept))] = some s ∧
      samples s.records = 1 ∧ departed s.records = 0 :=
  ⟨⟨_, rfl, rfl, rfl⟩, _, rfl, rfl, rfl⟩

end LdapTgen.SupplicantSamples
