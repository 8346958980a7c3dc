import LdapTgen.LabelledRun
import LdapTgen.ThreadKeys

/-! Which thread owns which connection, under the policies with one connection per worker: the
records that `simpleBindRequest` makes in `tLdapLdTab` by comparing handles, and the rebind that looks
them up. The answers of the LDAP library and the values of uninitialised variables are inputs. -/
namespace LdapTgen.ConnectionOwners
open LabelledRun ThreadKeys
variable {S : Type*}

/-- `tcServer` gives host and port of a server; `noServer` stands for the null host of an unused
slot. -/
structure Conf (S : Type*) where
  tcWThreadNb : ℕ+
  nbserver : ℕ+
  tcServer : ℕ → S
  noServer : S
  quietOnError : Bool

structure Slot (S : Type*) where
  ld : Option ℕ
  server : S
  keyThead : ℕ
  rebind : Bool

/-- `rebinding` holds `indiceTab` for the threads inside the loop of `tLdap_Rebind`, `lastServer` the
server of a thread's last successful bind. -/
structure State (S : Type*) where
  tLdapLdTab : ℕ → Slot S
  tcActiveServerId : ℕ
  bindMutexLost : Bool
  rebinding : ℕ → Option ℕ
  lastServer : ℕ → Option S

def tLdapInit (c : Conf S) : State S :=
  ⟨fun _ => ⟨none, c.noServer, 0, false⟩, 0, false, fun _ => none, fun _ => none⟩

/-- What opening a connection comes to: no handle, a handle that refuses an option, or a handle with
the result of the bind. -/
inductive Opened
  | noHandle
  | refused (ld : ℕ)
  | bound (ld : ℕ) (rc : ℤ)
  deriving DecidableEq, Repr

inductive Label
  | bind (key : ℕ) (o : Opened)
  | unbind (key : ℕ)
  | rebind (key indiceTab : ℕ) (rc : ℤ)
  | rebindTry (key : ℕ) (o : Opened)
  deriving DecidableEq, Repr

section Model
variable (c : Conf S)

def slotOf (key : ℕ) : ℕ := tLdapGetLdId c.tcWThreadNb key

def IsWorker (key : ℕ) : Prop := workThr ≤ key ∧ key < workThr + c.tcWThreadNb

instance (key : ℕ) : Decidable (IsWorker c key) := inferInstanceAs (Decidable (_ ∧ _))

def Fresh (s : State S) : Opened → Prop
  | .noHandle => True
  | .refused h => ∀ i ≤ (c.tcWThreadNb : ℕ), (s.tLdapLdTab i).ld ≠ some h
  | .bound h _ => ∀ i ≤ (c.tcWThreadNb : ℕ), (s.tLdapLdTab i).ld ≠ some h

instance decidableFresh (s : State S) : ∀ o, Decidable (Fresh c s o)
  | .noHandle => inferInstanceAs (Decidable True)
  | .refused h => inferInstanceAs (Decidable (∀ i ≤ (c.tcWThreadNb : ℕ), (s.tLdapLdTab i).ld ≠ some h))
  | .bound h _ => inferInstanceAs (Decidable (∀ i ≤ (c.tcWThreadNb : ℕ), (s.tLdapLdTab i).ld ≠ some h))

def setLd (i : ℕ) (ld : Option ℕ) (s : State S) : State S :=
  { s with tLdapLdTab := Function.update s.tLdapLdTab i { s.tLdapLdTab i with ld := ld } }

/-- A bind with a positive result closes its handle again, unless errors are quiet. -/
def handleAfter (h : ℕ) (rc : ℤ) : Option ℕ :=
  if 0 < rc ∧ c.quietOnError = false then none else some h

/-- The loop at the end of `simpleBindRequest`: every slot with the caller's handle is recorded as the
caller's. -/
def record (key : ℕ) (server : S) (s : State S) : State S :=
  { s with tLdapLdTab := fun i =>
      if i < c.tcWThreadNb ∧ (s.tLdapLdTab i).ld = (s.tLdapLdTab (slotOf c key)).ld then
        { s.tLdapLdTab i with server := server, keyThead := key, rebind := false }
      else s.tLdapLdTab i }

/-- The returns without a bind leave `bindMutex` locked. -/
def simpleBindRequest (key : ℕ) (s : State S) : Opened → State S
  | .noHandle => { setLd (slotOf c key) none s with bindMutexLost := true }
  | .refused h => { setLd (slotOf c key) (some h) s with bindMutexLost := true }
  | .bound h rc =>
      let server := c.tcServer s.tcActiveServerId
      let s := record c key server (setLd (slotOf c key) (handleAfter c h rc) s)
      { s with
        tcActiveServerId := (s.tcActiveServerId + 1) % c.nbserver
        lastServer := if rc = 0 then Function.update s.lastServer key (some server) else s.lastServer }

def unbindRequest (key : ℕ) (s : State S) : State S := setLd (slotOf c key) none s

/-- The search of `tLdap_Rebind`: the last slot recorded for the thread. -/
def searchKey (key : ℕ) (s : State S) : Option ℕ :=
  (List.range c.tcWThreadNb).reverse.find? fun i => (s.tLdapLdTab i).keyThead = key

/-- The writes to `rebind` use the loop variable, which is past the workers' slots. -/
def setRebind (b : Bool) (s : State S) : State S :=
  let i : ℕ := c.tcWThreadNb
  { s with tLdapLdTab := Function.update s.tLdapLdTab i { s.tLdapLdTab i with rebind := b } }

/-- `tLdap_Rebind` up to its loop; `indiceTab` and `rc` are what the variables hold when they are not
set. The loop is entered unless `rc` is zero. -/
def rebindStart (key indiceTab : ℕ) (rc : ℤ) (s : State S) : State S :=
  let found := (searchKey c key s).getD indiceTab
  let s := unbindRequest c key s
  if (s.tLdapLdTab found).rebind then s
  else if rc = 0 then setRebind c false s
  else { setRebind c true s with rebinding := Function.update s.rebinding key (some found) }

/-- One turn of the loop of `tLdap_Rebind`, on the server of slot `found`. -/
def rebindTurn (key found : ℕ) (s : State S) : Opened → State S
  | .noHandle => { setLd (slotOf c key) none s with rebinding := Function.update s.rebinding key none }
  | .refused h =>
      { setLd (slotOf c key) (some h) s with rebinding := Function.update s.rebinding key none }
  | .bound h rc =>
      let server := (s.tLdapLdTab found).server
      let s := setLd (slotOf c key) (handleAfter c h rc) s
      if rc = 0 then
        { setRebind c false s with
          rebinding := Function.update s.rebinding key none
          lastServer := Function.update s.lastServer key (some server) }
      else s

/-- A worker makes its calls outside the loop of `tLdap_Rebind`. -/
def step (s : State S) : Label → Option (State S)
  | .bind key o =>
      if IsWorker c key ∧ s.rebinding key = none ∧ s.bindMutexLost = false ∧ Fresh c s o then
        some (simpleBindRequest c key s o)
      else none
  | .unbind key =>
      if IsWorker c key ∧ s.rebinding key = none then some (unbindRequest c key s) else none
  | .rebind key indiceTab rc =>
      if IsWorker c key ∧ s.rebinding key = none then some (rebindStart c key indiceTab rc s) else none
  | .rebindTry key o =>
      match s.rebinding key with
      | some found =>
          if IsWorker c key ∧ Fresh c s o then some (rebindTurn c key found s o) else none
      | none => none

/-- A slot recorded for a worker is that worker's own; a rebind finds the server that the thread was
last connected to, and so does each turn of its loop. -/
structure Owned (s : State S) : Prop where
  own : ∀ i < (c.tcWThreadNb : ℕ), ∀ key, IsWorker c key → (s.tLdapLdTab i).keyThead = key →
    i = slotOf c key
  found : ∀ key v, IsWorker c key → s.lastServer key = some v →
    ∃ i, searchKey c key s = some i ∧ (s.tLdapLdTab i).server = v
  turn : ∀ key i v, IsWorker c key → s.rebinding key = some i → s.lastServer key = some v →
    (s.tLdapLdTab i).server = v

/-- A bind that fails goes to the server that the thread was last connected to, and when it leaves a
null handle no other worker has one. A rebind is made by a thread that is recorded in the table. -/
def Sound (s : State S) : Label → Prop
  | .bind key (.bound h rc) => rc ≠ 0 →
      (s.lastServer key = none ∨ s.lastServer key = some (c.tcServer s.tcActiveServerId)) ∧
      (handleAfter c h rc = none →
        ∀ i < (c.tcWThreadNb : ℕ), i ≠ slotOf c key → (s.tLdapLdTab i).ld ≠ none)
  | .rebind key _ _ => ∃ i < (c.tcWThreadNb : ℕ), (s.tLdapLdTab i).keyThead = key
  | _ => True

instance decidableSound [DecidableEq S] (s : State S) : ∀ e, Decidable (Sound c s e)
  | .bind key (.bound h rc) => inferInstanceAs (Decidable (rc ≠ 0 →
      (s.lastServer key = none ∨ s.lastServer key = some (c.tcServer s.tcActiveServerId)) ∧
      (handleAfter c h rc = none →
        ∀ i < (c.tcWThreadNb : ℕ), i ≠ slotOf c key → (s.tLdapLdTab i).ld ≠ none)))
  | .rebind key _ _ =>
      inferInstanceAs (Decidable (∃ i < (c.tcWThreadNb : ℕ), (s.tLdapLdTab i).keyThead = key))
  | .bind _ .noHandle => inferInstanceAs (Decidable True)
  | .bind _ (.refused _) => inferInstanceAs (Decidable True)
  | .unbind _ => inferInstanceAs (Decidable True)
  | .rebindTry _ _ => inferInstanceAs (Decidable True)

end Model

section Slots
variable {c : Conf S} {key k : ℕ}

lemma slotOf_eq (hk : IsWorker c key) : slotOf c key = key - 12 := by
  have hlt : key - 12 < c.tcWThreadNb := by
    have := hk.2
    simp only [workThr] at this
    have := c.tcWThreadNb.pos
    omega
  rw [slotOf, ldId_of_le hk.1, Nat.mod_eq_of_lt hlt]

lemma slotOf_lt (hk : IsWorker c key) : slotOf c key < c.tcWThreadNb := by
  rw [slotOf, ldId_of_le hk.1]
  exact Nat.mod_lt _ c.tcWThreadNb.pos

lemma slotOf_ne (hk : IsWorker c key) (hk' : IsWorker c k) (hne : k ≠ key) :
    slotOf c k ≠ slotOf c key := by
  have h1 : 12 ≤ key := hk.1
  have h2 : 12 ≤ k := hk'.1
  rw [slotOf_eq hk, slotOf_eq hk']
  omega

end Slots

/-- The records behind `Owned`: handles in use are distinct, and the slot of a worker that was
connected, or that is rebinding, is recorded as its own. -/
structure Ledger (c : Conf S) (s : State S) : Prop where
  distinct : ∀ i ≤ (c.tcWThreadNb : ℕ), ∀ j ≤ (c.tcWThreadNb : ℕ), ∀ h,
    (s.tLdapLdTab i).ld = some h → (s.tLdapLdTab j).ld = some h → i = j
  own : ∀ i < (c.tcWThreadNb : ℕ), ∀ key, IsWorker c key → (s.tLdapLdTab i).keyThead = key →
    i = slotOf c key
  known : ∀ key v, IsWorker c key → s.lastServer key = some v →
    (s.tLdapLdTab (slotOf c key)).keyThead = key ∧ (s.tLdapLdTab (slotOf c key)).server = v
  loop : ∀ key i, IsWorker c key → s.rebinding key = some i →
    i = slotOf c key ∧ (s.tLdapLdTab (slotOf c key)).keyThead = key

section Ledger
variable {c : Conf S} {s t : State S} {key : ℕ}

lemma Ledger.searchKey_eq (h : Ledger c s) (hk : IsWorker c key)
    (hrec : ∃ i < (c.tcWThreadNb : ℕ), (s.tLdapLdTab i).keyThead = key) :
    searchKey c key s = some (slotOf c key) := by
  cases hfind : searchKey c key s with
  | none =>
    obtain ⟨i, hi, hkey⟩ := hrec
    have hnone := List.find?_eq_none.mp hfind i (by simpa using hi)
    simp [hkey] at hnone
  | some i =>
    have hi : i < (c.tcWThreadNb : ℕ) := by simpa using List.mem_of_find?_eq_some hfind
    have hkey : (s.tLdapLdTab i).keyThead = key := by simpa using List.find?_some hfind
    rw [h.own i hi key hk hkey]

lemma Ledger.owned (h : Ledger c s) : Owned c s where
  own := h.own
  found key v hk hv := by
    obtain ⟨hkey, hserver⟩ := h.known key v hk hv
    exact ⟨_, h.searchKey_eq hk ⟨_, slotOf_lt hk, hkey⟩, hserver⟩
  turn key i v hk hi hv := by
    rw [(h.loop key i hk hi).1]
    exact (h.known key v hk hv).2

lemma ledger_tLdapInit : Ledger c (tLdapInit c) where
  distinct i _ j _ h hi := by cases hi
  own i _ key hk hkey := by
    have h12 : 12 ≤ key := hk.1
    have hzero : key = 0 := hkey.symm
    omega
  known key v _ hv := by cases hv
  loop key i _ hi := by cases hi

def SameRecord (a b : Slot S) : Prop := a.ld = b.ld ∧ a.server = b.server ∧ a.keyThead = b.keyThead

/-- A worker's step: only its own slot changes, to a handle that no other slot has, and it is recorded
for the worker if it was before, or if the worker is connected or rebinding after the step. -/
lemma Ledger.touch (h : Ledger c s) (hk : IsWorker c key)
    (hframe : ∀ i, i ≠ slotOf c key → SameRecord (t.tLdapLdTab i) (s.tLdapLdTab i))
    (hld : ∀ l, (t.tLdapLdTab (slotOf c key)).ld = some l →
      ∀ i ≤ (c.tcWThreadNb : ℕ), i ≠ slotOf c key → (s.tLdapLdTab i).ld ≠ some l)
    (hkey : (t.tLdapLdTab (slotOf c key)).keyThead = (s.tLdapLdTab (slotOf c key)).keyThead ∨
      (t.tLdapLdTab (slotOf c key)).keyThead = key)
    (hothers : ∀ k, k ≠ key → t.lastServer k = s.lastServer k ∧ t.rebinding k = s.rebinding k)
    (hknown : ∀ v, t.lastServer key = some v →
      (t.tLdapLdTab (slotOf c key)).keyThead = key ∧ (t.tLdapLdTab (slotOf c key)).server = v)
    (hloop : ∀ i, t.rebinding key = some i →
      i = slotOf c key ∧ (t.tLdapLdTab (slotOf c key)).keyThead = key) : Ledger c t where
  distinct i hi j hj l hil hjl := by
    by_cases hio : i = slotOf c key
    · by_cases hjo : j = slotOf c key
      · rw [hio, hjo]
      · rw [(hframe j hjo).1] at hjl
        rw [hio] at hil
        exact absurd hjl (hld l hil j hj hjo)
    · rw [(hframe i hio).1] at hil
      by_cases hjo : j = slotOf c key
      · rw [hjo] at hjl
        exact absurd hil (hld l hjl i hi hio)
      · rw [(hframe j hjo).1] at hjl
        exact h.distinct i hi j hj l hil hjl
  own i hi k hk' hik := by
    by_cases hio : i = slotOf c key
    · subst hio
      rcases hkey with hsame | hmine
      · exact h.own _ hi k hk' (hsame.symm.trans hik)
      · rw [← hmine.symm.trans hik]
    · exact h.own i hi k hk' ((hframe i hio).2.2.symm.trans hik)
  known k v hk' hv := by
    by_cases hkk : k = key
    · subst hkk
      exact hknown v hv
    · obtain ⟨_, hserver, hthead⟩ := hframe _ (slotOf_ne hk hk' hkk)
      rw [hserver, hthead]
      exact h.known k v hk' ((hothers k hkk).1.symm.trans hv)
  loop k i hk' hi := by
    by_cases hkk : k = key
    · subst hkk
      exact hloop i hi
    · rw [(hframe _ (slotOf_ne hk hk' hkk)).2.2]
      exact h.loop k i hk' ((hothers k hkk).2.symm.trans hi)

lemma setLd_self (i : ℕ) (ld : Option ℕ) (s : State S) :
    (setLd i ld s).tLdapLdTab i = { s.tLdapLdTab i with ld := ld } := Function.update_self ..

lemma setLd_of_ne {i j : ℕ} (hne : j ≠ i) (ld : Option ℕ) (s : State S) :
    (setLd i ld s).tLdapLdTab j = s.tLdapLdTab j := Function.update_of_ne hne ..

lemma Ledger.handle (h : Ledger c s) (hk : IsWorker c key) {ld : Option ℕ}
    (hld : ∀ l, ld = some l → ∀ i ≤ (c.tcWThreadNb : ℕ), (s.tLdapLdTab i).ld ≠ some l) :
    Ledger c (setLd (slotOf c key) ld s) := by
  apply h.touch hk
  · intro i hi
    rw [setLd_of_ne hi]
    exact ⟨rfl, rfl, rfl⟩
  · intro l hl i hi _
    rw [setLd_self] at hl
    exact hld l hl i hi
  · rw [setLd_self]
    exact .inl rfl
  · intro k _
    exact ⟨rfl, rfl⟩
  · intro v hv
    rw [setLd_self]
    exact h.known key v hk hv
  · intro i hi
    rw [setLd_self]
    exact h.loop key i hk hi

lemma setRebind_same (b : Bool) (s : State S) (j : ℕ) :
    SameRecord ((setRebind c b s).tLdapLdTab j) (s.tLdapLdTab j) := by
  by_cases hj : j = c.tcWThreadNb
  · subst hj
    simp [SameRecord, setRebind]
  · simp [SameRecord, setRebind, hj]

lemma Ledger.flag (h : Ledger c s) (b : Bool) : Ledger c (setRebind c b s) where
  distinct i hi j hj l hil hjl := by
    rw [(setRebind_same b s _).1] at hil hjl
    exact h.distinct i hi j hj l hil hjl
  own i hi k hk hik := by
    rw [(setRebind_same b s _).2.2] at hik
    exact h.own i hi k hk hik
  known k v hk hv := by
    rw [(setRebind_same b s _).2.2, (setRebind_same b s _).2.1]
    exact h.known k v hk hv
  loop k i hk hi := by
    rw [(setRebind_same b s _).2.2]
    exact h.loop k i hk hi

lemma Ledger.inLoop (h : Ledger c s) (key : ℕ) {o : Option ℕ}
    (ho : ∀ i, o = some i →
      i = slotOf c key ∧ (s.tLdapLdTab (slotOf c key)).keyThead = key) :
    Ledger c { s with rebinding := Function.update s.rebinding key o } where
  distinct := h.distinct
  own := h.own
  known := h.known
  loop k i hk hi := by
    by_cases hkk : k = key
    · subst hkk
      exact ho i (by simpa using hi)
    · exact h.loop k i hk (by simpa [hkk] using hi)

lemma Ledger.connect (h : Ledger c s) (hkey : (s.tLdapLdTab (slotOf c key)).keyThead = key) :
    Ledger c { s with lastServer := Function.update s.lastServer key
                        (some (s.tLdapLdTab (slotOf c key)).server) } where
  distinct := h.distinct
  own := h.own
  loop := h.loop
  known k v hk hv := by
    by_cases hkk : k = key
    · subst hkk
      exact ⟨hkey, by simpa using hv⟩
    · exact h.known k v hk (by simpa [hkk] using hv)

lemma handleAfter_eq_some {h l : ℕ} {rc : ℤ} (hl : handleAfter c h rc = some l) : l = h := by
  unfold handleAfter at hl
  split_ifs at hl
  exact (Option.some.inj hl).symm

lemma record_tab (server : S) (hk : IsWorker c key)
    (hother : ∀ i < (c.tcWThreadNb : ℕ), i ≠ slotOf c key →
      (s.tLdapLdTab i).ld ≠ (s.tLdapLdTab (slotOf c key)).ld) (i : ℕ) :
    (record c key server s).tLdapLdTab i =
      if i = slotOf c key then
        { s.tLdapLdTab i with server := server, keyThead := key, rebind := false }
      else s.tLdapLdTab i := by
  unfold record
  dsimp only
  by_cases hi : i = slotOf c key
  · subst hi
    rw [if_pos ⟨slotOf_lt hk, rfl⟩, if_pos rfl]
  · rw [if_neg hi, if_neg]
    intro hcond
    exact hother i hcond.1 hi hcond.2

lemma handle_apart {h : ℕ} {rc : ℤ} (hfresh : Fresh c s (.bound h rc))
    (hsound : Sound c s (.bind key (.bound h rc))) :
    ∀ i < (c.tcWThreadNb : ℕ), i ≠ slotOf c key → (s.tLdapLdTab i).ld ≠ handleAfter c h rc := by
  intro i hi hne
  cases hh : handleAfter c h rc with
  | none =>
    have hrc : rc ≠ 0 := by
      intro hzero
      simp [handleAfter, hzero] at hh
    exact (hsound hrc).2 hh i hi hne
  | some l =>
    rw [handleAfter_eq_some hh]
    exact hfresh i hi.le

lemma Ledger.bound (hl : Ledger c s) (hk : IsWorker c key) (hout : s.rebinding key = none) {h : ℕ}
    {rc : ℤ} (hfresh : Fresh c s (.bound h rc)) (hsound : Sound c s (.bind key (.bound h rc))) :
    Ledger c (simpleBindRequest c key s (.bound h rc)) := by
  have hother : ∀ i < (c.tcWThreadNb : ℕ), i ≠ slotOf c key →
      ((setLd (slotOf c key) (handleAfter c h rc) s).tLdapLdTab i).ld ≠
        ((setLd (slotOf c key) (handleAfter c h rc) s).tLdapLdTab (slotOf c key)).ld := by
    intro i hi hne
    rw [setLd_of_ne hne, setLd_self]
    exact handle_apart hfresh hsound i hi hne
  have htab := record_tab (c.tcServer s.tcActiveServerId) hk hother
  apply hl.touch hk
  · intro i hi
    simp only [simpleBindRequest]
    rw [htab, if_neg hi, setLd_of_ne hi]
    exact ⟨rfl, rfl, rfl⟩
  · intro l hll i hi _
    simp only [simpleBindRequest] at hll
    rw [htab, if_pos rfl, setLd_self] at hll
    rw [handleAfter_eq_some hll]
    exact hfresh i hi
  · simp only [simpleBindRequest]
    rw [htab, if_pos rfl]
    exact .inr rfl
  · intro k hkk
    refine ⟨?_, rfl⟩
    simp only [simpleBindRequest]
    split_ifs
    · exact Function.update_of_ne hkk ..
    · rfl
  · intro v hv
    simp only [simpleBindRequest] at hv ⊢
    rw [htab, if_pos rfl]
    refine ⟨rfl, ?_⟩
    split_ifs at hv with hrc
    · rw [Function.update_self] at hv
      exact Option.some.inj hv
    · rcases (hsound hrc).1 with hnone | hlast
      · exact absurd (hnone.symm.trans hv) (by simp)
      · exact Option.some.inj (hlast.symm.trans hv)
  · intro i hi
    exact absurd (hout.symm.trans hi) (by simp)

lemma Ledger.bind (hl : Ledger c s) (hk : IsWorker c key) (hout : s.rebinding key = none)
    {o : Opened} (hfresh : Fresh c s o) (hsound : Sound c s (.bind key o)) :
    Ledger c (simpleBindRequest c key s o) := by
  cases o with
  | noHandle =>
    have h : Ledger c (setLd (slotOf c key) none s) := hl.handle hk (fun l h => by cases h)
    exact ⟨h.distinct, h.own, h.known, h.loop⟩
  | refused l =>
    have h : Ledger c (setLd (slotOf c key) (some l) s) :=
      hl.handle hk (fun l' h => by cases h; exact hfresh)
    exact ⟨h.distinct, h.own, h.known, h.loop⟩
  | bound l rc => exact hl.bound hk hout hfresh hsound

lemma Ledger.unbind (hl : Ledger c s) (hk : IsWorker c key) :
    Ledger c (unbindRequest c key s) :=
  hl.handle hk (fun l h => by cases h)

lemma Ledger.rebind (hl : Ledger c s) (hk : IsWorker c key) {indiceTab : ℕ} {rc : ℤ}
    (hsound : Sound c s (.rebind key indiceTab rc)) :
    Ledger c (rebindStart c key indiceTab rc s) := by
  have hfound := hl.searchKey_eq hk hsound
  have hu := hl.unbind hk
  have hkey : ((unbindRequest c key s).tLdapLdTab (slotOf c key)).keyThead = key := by
    obtain ⟨i, hi, hik⟩ := hsound
    rw [unbindRequest, setLd_self]
    rw [hl.own i hi key hk hik] at hik
    exact hik
  simp only [rebindStart, hfound, Option.getD_some]
  split_ifs
  · exact hu
  · exact hu.flag false
  · apply (hu.flag true).inLoop key
    intro i hi
    rw [(setRebind_same true _ _).2.2]
    exact ⟨(Option.some.inj hi).symm, hkey⟩

lemma Ledger.turn (hl : Ledger c s) (hk : IsWorker c key) {found : ℕ}
    (hin : s.rebinding key = some found) {o : Opened} (hfresh : Fresh c s o) :
    Ledger c (rebindTurn c key found s o) := by
  obtain ⟨rfl, hkey⟩ := hl.loop key found hk hin
  cases o with
  | noHandle =>
    have h : Ledger c (setLd (slotOf c key) none s) := hl.handle hk (fun l h => by cases h)
    exact h.inLoop key (fun i hi => by cases hi)
  | refused l =>
    have h : Ledger c (setLd (slotOf c key) (some l) s) :=
      hl.handle hk (fun l' h => by cases h; exact hfresh)
    exact h.inLoop key (fun i hi => by cases hi)
  | bound l rc =>
    have h : Ledger c (setLd (slotOf c key) (handleAfter c l rc) s) :=
      hl.handle hk (fun l' h => by rw [handleAfter_eq_some h]; exact hfresh)
    have hslot := setLd_self (slotOf c key) (handleAfter c l rc) s
    have hkey' : ((setLd (slotOf c key) (handleAfter c l rc) s).tLdapLdTab
        (slotOf c key)).keyThead = key := by
      rw [hslot]
      exact hkey
    simp only [rebindTurn]
    split_ifs
    · have hc := (h.connect hkey').flag false
      have hr := hc.inLoop key (o := none) (fun i hi => by cases hi)
      rw [hslot] at hr
      exact hr
    · exact h

lemma step_ledger {e : Label} (h : Ledger c s) (hg : Sound c s e) (hs : step c s e = some t) :
    Ledger c t := by
  cases e with
  | bind key o =>
    simp only [step, Option.ite_none_right_eq_some, Option.some.injEq] at hs
    obtain ⟨⟨hk, hout, _, hfresh⟩, rfl⟩ := hs
    exact h.bind hk hout hfresh hg
  | unbind key =>
    simp only [step, Option.ite_none_right_eq_some, Option.some.injEq] at hs
    obtain ⟨⟨hk, _⟩, rfl⟩ := hs
    exact h.unbind hk
  | rebind key indiceTab rc =>
    simp only [step, Option.ite_none_right_eq_some, Option.some.injEq] at hs
    obtain ⟨⟨hk, _⟩, rfl⟩ := hs
    exact h.rebind hk hg
  | rebindTry key o =>
    simp only [step] at hs
    split at hs
    · rename_i found hin
      simp only [Option.ite_none_right_eq_some, Option.some.injEq] at hs
      obtain ⟨⟨hk, hfresh⟩, rfl⟩ := hs
      exact h.turn hk hin hfresh
    · cases hs

end Ledger

/-- Along every run of sound steps of the workers, each record is its owner's and each rebind goes to
the server that the thread was last connected to. -/
theorem connection_owned (c : Conf S) (es : List Label)
    (hg : Guarded (step c) (Sound c) (tLdapInit c) es) :
    Always (step c) (Owned c) (tLdapInit c) es :=
  always_of_invariant (fun _ h => h.owned) (fun _ _ _ h hg hs => step_ledger h hg hs)
    ledger_tLdapInit hg

def twoWorkers : Conf ℕ := ⟨2, ⟨1, Nat.one_pos⟩, fun _ => 389, 0, false⟩

/-- The first worker's bind is refused, so it ends with a null handle like the slot of the second. -/
theorem refused_bind_records_other_slot :
    ¬ Always (step twoWorkers) (Owned twoWorkers) (tLdapInit twoWorkers) [.bind 12 (.bound 1 49)] := by
  intro h
  rw [always_iff_reached] at h
  have hown := (h _ (List.prefix_refl _) _ rfl).own 1 (by decide) 12 (by decide) (by decide)
  exact absurd hown (by decide)

/-- Both workers bind; the connection of the first goes down and is opened again at the second
attempt. -/
def rebindRun : List Label :=
  [.bind 12 (.bound 1 0), .bind 13 (.bound 2 0), .rebind 12 7 1, .rebindTry 12 (.bound 3 52),
    .rebindTry 12 (.bound 3 0)]

theorem rebind_to_last_server :
    (run (step twoWorkers) (tLdapInit twoWorkers) rebindRun).map (fun s => (s.tLdapLdTab 0).ld) =
        some (some 3) ∧
      Guarded (step twoWorkers) (Sound twoWorkers) (tLdapInit twoWorkers) rebindRun ∧
      Always (step twoWorkers) (Owned twoWorkers) (tLdapInit twoWorkers) rebindRun :=
  ⟨by decide, by decide, connection_owned twoWorkers rebindRun (by decide)⟩

end LdapTgen.ConnectionOwners
