import LdapTgen.GenericControls
import LdapTgen.ProfileLoad

/-! The configured values that a run divides by or counts with: the periods of the stat thread, the number
of NAS and the number of servers, from the ini file and the groups of the command line to their uses. -/
namespace LdapTgen.ConfigModuli
open Profile
open CString (stricmp)
open LdapControls (printInt)

/-- What `main` leaves of the command line: the ini file, the host, whether the option `-g` was given, and
its list of groups if that is not empty. -/
structure CommandLine where
  inifile : List Char
  tcServerHost : Option (List Char)
  gOption : Bool
  tcGroupServer : Option (List Char)

/-- The files, the names that have an address, and what `tServerInit` returns behind its loop, where it
has no `return`. -/
structure World where
  host : Host
  resolves : List Char → Bool
  leftover : ℤ

structure Moduli where
  tcRadiusNbNas : ℤ
  tcReportPeriod : ℤ
  tcCsvPeriod : ℤ
  nbserver : ℤ
  deriving DecidableEq, Repr

structure Moduli.Positive (m : Moduli) : Prop where
  nas : 0 < m.tcRadiusNbNas
  report : 0 < m.tcReportPeriod
  csv : 0 < m.tcCsvPeriod
  server : 0 < m.nbserver

structure Key where
  sect : List Char
  key : List Char
  default : ℤ

def nbNasKey : Key := ⟨"Radius".toList, "Radius_nb_nas".toList, 100⟩
def reportKey : Key := ⟨"Global".toList, "report_period".toList, 300⟩
def csvKey : Key := ⟨"Global".toList, "csv_period".toList, 60⟩
def nbServerKey (serverIndex : ℤ) : Key :=
  ⟨"Server_".toList ++ printInt serverIndex, "nb_server".toList, 0⟩

def getInt (h : Host) (ini : List Char) (k : Key) (cache : Cache) : Except Fault (Cache × ℤ) :=
  profileGetInt h cache ini k.sect k.key k.default

def tConfInit (w : World) (cl : CommandLine) (cache : Cache) : Except Fault (Cache × ℤ × ℤ × ℤ) :=
  if cl.tcServerHost = none ∧ cl.gOption = false then .error .exit
  else do
    let (cache, tcRadiusNbNas) ← getInt w.host cl.inifile nbNasKey cache
    let (cache, tcReportPeriod) ← getInt w.host cl.inifile reportKey cache
    let (cache, tcCsvPeriod) ← getInt w.host cl.inifile csvKey cache
    .ok (cache, tcRadiusNbNas, tcReportPeriod, tcCsvPeriod)

def maxServerHost : ℕ := 200

/-- The loop over the addresses of a group. The address of a host is read before it is tested. -/
def hostLoop (w : World) (ini sect : List Char) : List ℕ → Cache → Except Fault Cache
  | [], cache => .ok cache
  | i :: is, cache => do
      let (cache, tcserver) ← profileGetString w.host cache ini sect
        ("ip_server".toList ++ printInt (i + 1)) [] 256
      if tcserver = [] then .error .exit
      else if maxServerHost ≤ i ∨ w.resolves tcserver = false then .error .undefined
      else hostLoop w ini sect is cache

def tServerPopulInit (w : World) (ini : List Char) (serverIndex : ℤ) (cache : Cache) :
    Except Fault (Cache × ℤ) := do
  let (cache, nbserver) ← getInt w.host ini (nbServerKey serverIndex) cache
  let cache ← hostLoop w ini (nbServerKey serverIndex).sect (List.range nbserver.toNat) cache
  .ok (cache, nbserver)

/-- The pieces that `strtok` finds between the commas. -/
def tokens (groups : List Char) : List (List Char) := (groups.splitOn ',').filter (· ≠ [])

/-- Every group sets `nbserver` again. -/
def groupLoop (w : World) (ini : List Char) : List (List Char) → Cache × ℤ → Except Fault (Cache × ℤ)
  | [], r => .ok r
  | pch :: rest, (cache, _) => do
      let r ← tServerPopulInit w ini (atoi pch) cache
      groupLoop w ini rest r

/-- `nbserver` is 1 from the start. -/
def tServerInit (w : World) (cl : CommandLine) (cache : Cache) : Except Fault (Cache × ℤ) :=
  match cl.tcGroupServer with
  | none => .ok (cache, 1)
  | some groups =>
      if tokens groups = [] then .error .exit
      else do
        let r ← groupLoop w cl.inifile (tokens groups) (cache, 1)
        if w.leftover = 0 then .ok r else .error .exit

def tInit (w : World) (cl : CommandLine) : Except Fault Moduli := do
  let (cache, tcRadiusNbNas, tcReportPeriod, tcCsvPeriod) ← tConfInit w cl ⟨none, none⟩
  let (_, nbserver) ← tServerInit w cl cache
  .ok ⟨tcRadiusNbNas, tcReportPeriod, tcCsvPeriod, nbserver⟩

/-- `%`, which has no result for a divisor of 0. -/
def remainder (a b : ℤ) : Option ℤ := if b = 0 then none else some (a.tmod b)

def unsignedLong (a : ℤ) : ℤ := a % 2 ^ 64

/-- Whether the stat thread prints a row and a report after this many seconds. -/
def statPrints (m : Moduli) (tstatTotalNbOfSeconds : ℕ) : Option (Bool × Bool) := do
  let csv ← remainder (unsignedLong tstatTotalNbOfSeconds) (unsignedLong m.tcCsvPeriod)
  let report ← remainder (unsignedLong tstatTotalNbOfSeconds) (unsignedLong m.tcReportPeriod)
  some (csv = 0, report = 0)

/-- `tcActiveServerId` after a bind in `simpleBindRequest`. -/
def nextServer (m : Moduli) (tcActiveServerId : ℤ) : Option ℤ :=
  remainder (tcActiveServerId + 1) m.nbserver

/-- The number of the NAS in `tRadius_accessRq` and `tRadius_accountRq`, whose loop over the users of a NAS
starts at the same remainder. -/
def nasNumber (m : Moduli) (userId : ℕ) : Option ℤ :=
  (remainder userId m.tcRadiusNbNas).map fun r => min 255 (r + 1)

section Uses
variable {m : Moduli}

lemma remainder_isSome {b : ℤ} (hb : b ≠ 0) (a : ℤ) : (remainder a b).isSome := by
  rw [remainder, if_neg hb]
  rfl

lemma unsignedLong_ne_zero {a : ℤ} (hpos : 0 < a) (hlt : a < 2 ^ 31) : unsignedLong a ≠ 0 := by
  unfold unsignedLong
  omega

/-- Nothing is divided by 0 when the stat thread tests its periods, when a bind takes the next server and
when a request takes the number of its NAS. -/
structure Divides (m : Moduli) : Prop where
  stat : ∀ seconds, (statPrints m seconds).isSome
  bind : ∀ tcActiveServerId, (nextServer m tcActiveServerId).isSome
  nas : ∀ userId, (nasNumber m userId).isSome

lemma Moduli.Positive.divides (hm : m.Positive) (hreport : m.tcReportPeriod < 2 ^ 31)
    (hcsv : m.tcCsvPeriod < 2 ^ 31) : Divides m where
  stat seconds := by
    obtain ⟨csv, hc⟩ := Option.isSome_iff_exists.mp
      (remainder_isSome (unsignedLong_ne_zero hm.csv hcsv) (unsignedLong seconds))
    obtain ⟨report, hr⟩ := Option.isSome_iff_exists.mp
      (remainder_isSome (unsignedLong_ne_zero hm.report hreport) (unsignedLong seconds))
    simp [statPrints, hc, hr]
  bind tcActiveServerId := remainder_isSome hm.server.ne' _
  nas userId := by
    rw [nasNumber, Option.isSome_map]
    exact remainder_isSome hm.nas.ne' _

end Uses

/-- What `ProfileGetInt` makes of the text of a value. -/
def intValue (value : List Char) : ℤ :=
  if stricmp (value.take 2) "0x".toList then
    toInt (digitsValue 16 ((value.drop 2).takeWhile isHexDigit))
  else atoi value

def entry (h : Host) (ini : List Char) (k : Key) : Except Fault (Option ℤ) := do
  match ← loadFile h ini with
  | none => .ok none
  | some data => do
      let (found, value) ← findKey data k.sect k.key
      .ok (if found then some (intValue value) else none)

section Reading
variable {h : Host} {ini : List Char} {cache after : Cache} {k : Key}

lemma intValue_lt (value : List Char) : intValue value < 2 ^ 31 := by
  unfold intValue
  split
  · exact (MachineInt.int32_fits _).2
  · exact (MachineInt.int32_fits _).2

lemma entry_lt {v : ℤ} (he : entry h ini k = .ok (some v)) : v < 2 ^ 31 := by
  obtain ⟨data, -, he⟩ := bind_eq_ok he
  cases data with
  | none => cases he
  | some data =>
    obtain ⟨⟨found, value⟩, -, he⟩ := bind_eq_ok he
    cases found with
    | false => cases he
    | true =>
      cases he
      exact intValue_lt value

lemma getString_ok {sect key value : List Char} {found : Bool} (hv : cache.Valid h)
    (hget : getString h cache ini sect key = .ok (after, found, value)) :
    after.Valid h ∧ ((loadFile h ini = .ok none ∧ found = false) ∨
      ∃ data, loadFile h ini = .ok (some data) ∧ findKey data sect key = .ok (found, value)) := by
  obtain ⟨⟨cache', data⟩, hfile, hget⟩ := bind_eq_ok hget
  obtain ⟨hvalid, hload⟩ := getIniFile_ok hv hfile
  cases data with
  | none =>
    cases hget
    exact ⟨hvalid, .inl ⟨hload, rfl⟩⟩
  | some data =>
    obtain ⟨⟨found', value'⟩, hfind, hget⟩ := bind_eq_ok hget
    cases hget
    exact ⟨hvalid, .inr ⟨data, hload, hfind⟩⟩

lemma getInt_eq (h : Host) (ini : List Char) (k : Key) (cache : Cache) :
    getInt h ini k cache = (getString h cache ini k.sect k.key).bind fun r =>
      .ok (r.1, if r.2.1 then intValue r.2.2 else k.default) := by
  unfold getInt profileGetInt intValue
  cases getString h cache ini k.sect k.key with
  | error fault => rfl
  | ok r =>
    obtain ⟨after, found, value⟩ := r
    simp only [Except.bind, bind]
    split_ifs <;> rfl

lemma getInt_ok {n : ℤ} (hv : cache.Valid h) (hget : getInt h ini k cache = .ok (after, n)) :
    after.Valid h ∧ ∃ o, entry h ini k = .ok o ∧ n = o.getD k.default := by
  rw [getInt_eq] at hget
  obtain ⟨⟨cache', found, value⟩, hstring, hget⟩ := bind_eq_ok hget
  obtain ⟨rfl, rfl⟩ := Prod.mk.inj (Except.ok.inj hget)
  obtain ⟨hvalid, ⟨hload, rfl⟩ | ⟨data, hload, hfind⟩⟩ := getString_ok hv hstring
  · exact ⟨hvalid, none, by simp [entry, hload], rfl⟩
  · refine ⟨hvalid, if found then some (intValue value) else none, by simp [entry, hload, hfind], ?_⟩
    cases found <;> rfl

lemma hostLoop_ok {w : World} {sect : List Char} {is : List ℕ} (hv : cache.Valid w.host)
    (hloop : hostLoop w ini sect is cache = .ok after) : after.Valid w.host := by
  induction is generalizing cache with
  | nil =>
    cases hloop
    exact hv
  | cons i is ih =>
    obtain ⟨⟨cache', tcserver⟩, hget, hloop⟩ := bind_eq_ok hloop
    have hvalid : cache'.Valid w.host := by
      obtain ⟨⟨cache'', found, value⟩, hstring, hget⟩ := bind_eq_ok hget
      cases hget
      exact (getString_ok hv hstring).1
    dsimp only at hloop
    split at hloop
    · cases hloop
    · split at hloop
      · cases hloop
      · exact ih hvalid hloop

lemma groupLoop_ok {w : World} {pchs : List (List Char)} {last : List Char} {nb nb' : ℤ}
    (hv : cache.Valid w.host) (hlast : pchs.getLast? = some last)
    (hloop : groupLoop w ini pchs (cache, nb) = .ok (after, nb')) :
    ∃ o, entry w.host ini (nbServerKey (atoi last)) = .ok o ∧ nb' = o.getD 0 := by
  induction pchs generalizing cache nb with
  | nil => cases hlast
  | cons pch rest ih =>
    obtain ⟨⟨cache₁, nb₁⟩, hgroup, hrest⟩ := bind_eq_ok hloop
    obtain ⟨⟨cache₂, nb₂⟩, hget, hgroup⟩ := bind_eq_ok hgroup
    obtain ⟨cache₃, hhosts, hgroup⟩ := bind_eq_ok hgroup
    obtain ⟨rfl, rfl⟩ := Prod.mk.inj (Except.ok.inj hgroup)
    obtain ⟨hvalid, o, hentry, rfl⟩ := getInt_ok hv hget
    cases rest with
    | nil =>
      obtain rfl : pch = last := Option.some.inj hlast
      obtain ⟨-, rfl⟩ := Prod.mk.inj (Except.ok.inj hrest)
      exact ⟨o, hentry, rfl⟩
    | cons pch' rest =>
      exact ih (hostLoop_ok hvalid hhosts) (by simpa using hlast) hrest

end Reading

section Accepted
variable {w : World} {cl : CommandLine}

lemma tConfInit_ok {cache after : Cache} {nbNas report csv : ℤ} (hv : cache.Valid w.host)
    (h : tConfInit w cl cache = .ok (after, nbNas, report, csv)) :
    after.Valid w.host ∧ (∃ o, entry w.host cl.inifile nbNasKey = .ok o ∧ nbNas = o.getD 100) ∧
      (∃ o, entry w.host cl.inifile reportKey = .ok o ∧ report = o.getD 300) ∧
      ∃ o, entry w.host cl.inifile csvKey = .ok o ∧ csv = o.getD 60 := by
  unfold tConfInit at h
  split at h
  · cases h
  · obtain ⟨⟨cache₁, n₁⟩, hget₁, h⟩ := bind_eq_ok h
    obtain ⟨⟨cache₂, n₂⟩, hget₂, h⟩ := bind_eq_ok h
    obtain ⟨⟨cache₃, n₃⟩, hget₃, h⟩ := bind_eq_ok h
    cases h
    obtain ⟨hv₁, hnas⟩ := getInt_ok hv hget₁
    obtain ⟨hv₂, hreport⟩ := getInt_ok hv₁ hget₂
    obtain ⟨hv₃, hcsv⟩ := getInt_ok hv₂ hget₃
    exact ⟨hv₃, hnas, hreport, hcsv⟩

lemma tServerInit_ok {cache after : Cache} {nbserver : ℤ} (hv : cache.Valid w.host)
    (h : tServerInit w cl cache = .ok (after, nbserver)) :
    (cl.tcGroupServer = none ∧ nbserver = 1) ∨
      ∃ groups last o, cl.tcGroupServer = some groups ∧ (tokens groups).getLast? = some last ∧
        entry w.host cl.inifile (nbServerKey (atoi last)) = .ok o ∧ nbserver = o.getD 0 := by
  unfold tServerInit at h
  cases hgroup : cl.tcGroupServer with
  | none =>
    rw [hgroup] at h
    cases h
    exact .inl ⟨rfl, rfl⟩
  | some groups =>
    simp only [hgroup] at h
    split at h
    · cases h
    · rename_i htokens
      obtain ⟨⟨cache', nb⟩, hloop, h⟩ := bind_eq_ok h
      split at h
      · cases h
        have hlast := List.getLast?_eq_getLast_of_ne_nil htokens
        obtain ⟨o, hentry, hnb⟩ := groupLoop_ok hv hlast hloop
        exact .inr ⟨groups, _, o, rfl, hlast, hentry, hnb⟩
      · cases h

lemma getD_pos_iff {o : Option ℤ} {d : ℤ} (hd : 0 < d) : 0 < o.getD d ↔ ∀ v, o = some v → 0 < v := by
  cases o with
  | none => simpa using hd
  | some v => simp

lemma nbserver_pos_iff {cache after : Cache} {nbserver : ℤ} (hv : cache.Valid w.host)
    (h : tServerInit w cl cache = .ok (after, nbserver)) :
    0 < nbserver ↔
      ∀ groups last, cl.tcGroupServer = some groups → (tokens groups).getLast? = some last →
        ∃ v, entry w.host cl.inifile (nbServerKey (atoi last)) = .ok (some v) ∧ 0 < v := by
  rcases tServerInit_ok hv h with ⟨hgroup, rfl⟩ | ⟨groups, last, o, hgroup, hlast, hentry, rfl⟩
  · simp [hgroup]
  · constructor
    · intro hpos groups' last' hgroup' hlast'
      obtain rfl := Option.some.inj (hgroup.symm.trans hgroup')
      obtain rfl := Option.some.inj (hlast.symm.trans hlast')
      cases o with
      | none => exact absurd hpos (lt_irrefl 0)
      | some v => exact ⟨v, hentry, hpos⟩
    · intro hall
      obtain ⟨v, hvalue, hpos⟩ := hall groups last hgroup hlast
      rw [hentry] at hvalue
      cases hvalue
      exact hpos

lemma getD_lt {o : Option ℤ} {d : ℤ} {k : Key} (he : entry w.host cl.inifile k = .ok o) (hd : d < 2 ^ 31) :
    o.getD d < 2 ^ 31 := by
  cases o with
  | none => exact hd
  | some v => exact entry_lt he

/-- Of a configuration that is accepted, the values are positive if and only if each of the three keys is
absent or positive as the `int` that is read, and the last group of servers, if groups were asked for, has
a positive `nb_server`; then nothing is divided by 0. -/
theorem moduli_positive_iff (w : World) (cl : CommandLine) (m : Moduli) (h : tInit w cl = .ok m) :
    (m.Positive ↔
      (∀ k ∈ [nbNasKey, reportKey, csvKey], ∀ v, entry w.host cl.inifile k = .ok (some v) → 0 < v) ∧
      ∀ groups last, cl.tcGroupServer = some groups → (tokens groups).getLast? = some last →
        ∃ v, entry w.host cl.inifile (nbServerKey (atoi last)) = .ok (some v) ∧ 0 < v) ∧
    (m.Positive → Divides m) := by
  obtain ⟨⟨cache, nbNas, report, csv⟩, hconf, h⟩ := bind_eq_ok h
  obtain ⟨⟨cache', nbserver⟩, hserver, h⟩ := bind_eq_ok h
  cases h
  obtain ⟨hv, ⟨o₁, h₁, rfl⟩, ⟨o₂, h₂, rfl⟩, o₃, h₃, rfl⟩ := tConfInit_ok valid_start hconf
  have hkeys : (∀ k ∈ [nbNasKey, reportKey, csvKey], ∀ v,
      entry w.host cl.inifile k = .ok (some v) → 0 < v) ↔
      0 < o₁.getD 100 ∧ 0 < o₂.getD 300 ∧ 0 < o₃.getD 60 := by
    simp [h₁, h₂, h₃, getD_pos_iff]
  rw [hkeys, ← nbserver_pos_iff hv hserver]
  refine ⟨⟨fun hpos => ⟨⟨hpos.nas, hpos.report, hpos.csv⟩, hpos.server⟩, ?_⟩, fun hpos => ?_⟩
  · rintro ⟨⟨hnas, hreport, hcsv⟩, hserver⟩
    exact ⟨hnas, hreport, hcsv, hserver⟩
  · exact hpos.divides (getD_lt h₂ (by decide)) (getD_lt h₃ (by decide))

def oneFile (text : List Char) : World := 
  ⟨⟨fun _ => some text, ⟨id, fun _ => 0, fun _ => 0⟩, 1⟩, fun _ => true, 0⟩

def plain : CommandLine := ⟨"tgen.ini".toList, some "localhost".toList, false, none⟩

def groupOne : CommandLine := ⟨"tgen.ini".toList, none, true, some "1".toList⟩

theorem moduli_positive_iff_defaults :
    tInit (oneFile []) plain = .ok ⟨100, 300, 60, 1⟩ ∧ (⟨100, 300, 60, 1⟩ : Moduli).Positive ∧
      Divides ⟨100, 300, 60, 1⟩ := by
  obtain ⟨hiff, hdivides⟩ := moduli_positive_iff (oneFile []) plain ⟨100, 300, 60, 1⟩ rfl
  have hpos : (⟨100, 300, 60, 1⟩ : Moduli).Positive := by
    refine hiff.mpr ⟨?_, ?_⟩
    · intro k _ v hv
      have hnone : entry (oneFile []).host plain.inifile k = .ok none := rfl
      rw [hnone] at hv
      cases hv
    · intro groups last hgroups
      cases hgroups
  exact ⟨rfl, hpos, hdivides hpos⟩

/-- Three configurations that are accepted: with a period of 0, or of 2 ^ 32, the stat thread divides by 0
in its first turn, and without `nb_server` the first bind does. -/
theorem accepted_division_by_zero :
    (∃ m, tInit (oneFile "[Global]\ncsv_period=0\n".toList) plain = .ok m ∧ statPrints m 1 = none) ∧
    (∃ m, tInit (oneFile "[Global]\ncsv_period=4294967296\n".toList) plain = .ok m ∧
      statPrints m 1 = none) ∧
    ∃ m, tInit (oneFile "[Server_1]\nport=389\n".toList) groupOne = .ok m ∧ nextServer m 0 = none :=
  ⟨⟨⟨100, 300, 0, 1⟩, by decide, by decide⟩, ⟨⟨100, 300, 0, 1⟩, by decide, by decide⟩,
    ⟨100, 300, 60, 0⟩, by decide, by decide⟩

end Accepted

end LdapTgen.ConfigModuli
