import Mathlib

/-! The EAP-SIM and EAP-AKA client: the handlers of the messages of the server, the choice of the
handler by `respond_eap_sim` and `respond_eap_aka`, and one turn of the loop of `sendrecv_eap`. Key
derivation, MAC check and decryption are those of a library. Attributes of the response that are only
sent are left out. -/
namespace LdapTgen.EapClient

abbrev Bytes := List UInt8

/-- The value of an attribute: `length` octets from `strvalue` on, and what is in memory behind them. -/
structure Octets where
  length : ℕ
  strvalue : ℕ → UInt8
  length_le : length ≤ 254

def Octets.bytes (o : Octets) (start n : ℕ) : Bytes :=
  (List.range n).map fun i => o.strvalue (start + i)

def Octets.short (o : Octets) (i : ℕ) : ℕ :=
  256 * (o.strvalue (2 * i)).toNat + (o.strvalue (2 * i + 1)).toNat

/-- `enum eapsim_subtype`; the server may send any other number. -/
inductive Subtype
  | akaChallenge
  | akaAuthenticationReject
  | akaSynchronizationFailure
  | akaIdentity
  | start
  | challenge
  | notification
  | reauth
  | clientError
  | other (code : ℕ)
  deriving DecidableEq, Repr

/-- `enum eapsim_clientstates` -/
inductive ClientState
  | init
  | start
  deriving DecidableEq, Repr

/-- The state is the result of the handler: 0 is `eapsim_client_init`, 1 `eapsim_client_start`. -/
def ClientState.ofResult : Bool → ClientState
  | false => .init
  | true => .start

structure Request where
  eapId : Option UInt8
  subtype : Option Subtype
  versionList : Option Octets
  anyIdReq : Bool
  fullauthIdReq : Bool
  permanentIdReq : Bool
  mac : Option Octets
  rand : Option Octets
  autn : Option Octets
  encrData : Option Octets
  iv : Option Octets

/-- What the client reads of its own packet: `tRadius_accessRq` puts the user and the results of the
card there, `respond_eap_sim` the state. -/
structure Response where
  id : ℕ
  userName : Option Bytes
  simState : Option ClientState
  subtype : Option Subtype
  sres1 : Option Octets
  sres2 : Option Octets
  sres3 : Option Octets
  kc1 : Option Octets
  kc2 : Option Octets
  kc3 : Option Octets
  akaAutn : Option Octets
  akaAuts : Option Octets
  akaRes : Option Octets
  akaIk : Option Octets
  akaCk : Option Octets
  eapType : Option ℕ
  /-- The subtype in the EAP-Message, none while that is the identity. -/
  message : Option Subtype

/-- `struct eapsim_keys`, a local variable that nothing initialises but for the two keys of a fast
re-authentication. -/
structure Keys where
  identity : Bytes
  nonceMt : Bytes
  sres : List Bytes
  kc : List Bytes
  versionList : Bytes
  versionSelect : ℕ
  kAut : Bytes
  kEncr : Bytes
  ik : Bytes
  ck : Bytes
  res : Bytes
  autn : Bytes
  auts : Bytes

structure Libeap where
  eapsimCalculateKeys : Keys → Bytes × Bytes
  eapakaCalculateKeys : Keys → Bytes × Bytes
  eapsimCheckmac : Request → Bytes → Bytes → Bool
  /-- The decrypted octets, and what the buffer has behind them. -/
  eapsimAesdecrypt : Bytes → Bytes → Bytes → ℕ → UInt8

structure Client where
  rep : Response
  keys : Keys
  frId : Bytes

abbrev Result := Bool × Client

def cleanresp (rep : Response) : Response := { rep with subtype := none, message := none }

def Client.respondAs (x : Client) (t : Subtype) : Client :=
  { x with rep := { cleanresp x.rep with subtype := some t } }

def eapSimVersion : ℕ := 1

def selectVersion (versions : Octets) (versioncount : ℕ) : ℕ :=
  if (List.range versioncount).any fun i => versions.short (i + 1) = eapSimVersion then eapSimVersion
  else 0

def Request.idReqClash (req : Request) : Bool :=
  (req.fullauthIdReq && req.anyIdReq) || (req.fullauthIdReq && req.permanentIdReq) ||
    (req.anyIdReq && req.permanentIdReq)

/-- `nonce` is what `lrad_rand` gives. -/
def processEapStart (req : Request) (nonce : Bytes) (x : Client) : Result :=
  let x := { x with rep := cleanresp x.rep }
  match req.versionList with
  | none => (false, x)
  | some versions =>
      let versioncount := versions.short 0
      if versions.length < 4 then (false, x)
      else if versions.length ≤ versioncount + 2 then (false, x)
      else
        let x := { x with keys := { x.keys with versionList := versions.bytes 2 versioncount } }
        if req.idReqClash then (false, x)
        else
          let x := { x.respondAs .start with
            keys := { x.keys with
              versionSelect := selectVersion versions versioncount
              nonceMt := nonce } }
          match x.rep.userName with
          | none => (false, x)
          | some name => (true, { x with keys := { x.keys with identity := name } })

def processEapNotification (x : Client) : Result := (true, x.respondAs .notification)

def processEapClienterror (x : Client) : Result := (true, x.respondAs .clientError)

/-- `AT_ENCR_DATA` needs `AT_IV`, and the other way round. -/
def Request.halfEncrypted (req : Request) : Bool := req.encrData.isSome != req.iv.isSome

def pwEapSimNextReauthId : UInt8 := 133

/-- The re-authentication identity behind `offset` in the encrypted data. -/
def nextReauthId (lib : Libeap) (kEncr : Bytes) (offset : ℕ) (req : Request) : Bytes :=
  match req.encrData, req.iv with
  | some encr, some iv =>
      let decrypt := lib.eapsimAesdecrypt (encr.bytes 2 (encr.length - 2)) (iv.bytes 2 16) kEncr
      if decrypt offset = pwEapSimNextReauthId then
        (List.range (256 * (decrypt (offset + 2)).toNat + (decrypt (offset + 3)).toNat)).map fun i =>
          decrypt (offset + 4 + i)
      else []
  | _, _ => []

/-- The test for `AT_RAND` looks at the address of the C function `rand`, so that it never fails. -/
def processEapChallenge (lib : Libeap) (req : Request) (x : Client) : Result :=
  if req.mac = none then (false, x)
  else if req.halfEncrypted then (false, x)
  else
    match x.rep.sres1, x.rep.sres2, x.rep.sres3 with
    | some sres1, some sres2, some sres3 =>
        let x := { x with keys := { x.keys with
          sres := [sres1.bytes 0 4, sres2.bytes 0 4, sres3.bytes 0 4] } }
        match x.rep.kc1, x.rep.kc2, x.rep.kc3 with
        | some kc1, some kc2, some kc3 =>
            let keys := { x.keys with kc := [kc1.bytes 0 8, kc2.bytes 0 8, kc3.bytes 0 8] }
            let (kAut, kEncr) := lib.eapsimCalculateKeys keys
            let x := { x with keys := { keys with kAut := kAut, kEncr := kEncr } }
            if lib.eapsimCheckmac req kAut x.keys.nonceMt then
              (true, { x.respondAs .challenge with frId := nextReauthId lib kEncr 0 req })
            else (false, x)
        | _, _, _ => (false, x)
    | _, _, _ => (false, x)

/-- `process_eap_reauth`, which `process_eap_aka_reauth` repeats. -/
def processEapReauth (lib : Libeap) (req : Request) (x : Client) : Result :=
  if req.mac = none then (false, x)
  else if req.halfEncrypted then (false, x)
  else if lib.eapsimCheckmac req x.keys.kAut [] then
    (true, { x.respondAs .reauth with frId := nextReauthId lib x.keys.kEncr 24 req })
  else (false, x)

def processEapAkaIdentity (req : Request) (x : Client) : Result :=
  let x := { x with rep := cleanresp x.rep }
  if req.idReqClash then processEapClienterror x
  else
    let x := x.respondAs .akaIdentity
    match x.rep.userName with
    | none => (false, x)
    | some name => (true, { x with keys := { x.keys with identity := name } })

def processEapAkaAuthenticationReject (x : Client) : Result :=
  (true, x.respondAs .akaAuthenticationReject)

def processEapAkaSynchronizationFailure (x : Client) : Result :=
  (true, x.respondAs .akaSynchronizationFailure)

/-- `reported` is the global variable `haveSendRejectOrSyncFailure`. -/
def processEapAkaChallenge (lib : Libeap) (req : Request) (reported : Bool) (x : Client) : Result :=
  match req.mac, req.autn with
  | some _, some autnvp =>
      if req.halfEncrypted then (false, x)
      else
        match x.rep.akaAutn, x.rep.akaRes, x.rep.akaIk, x.rep.akaCk, x.rep.userName with
        | some autn, some res, some ik, some ck, some name =>
            let x := { x with keys := { x.keys with
              identity := name
              autn := autn.bytes 0 16
              res := res.bytes 0 16
              ik := ik.bytes 0 16
              ck := ck.bytes 0 16 } }
            if x.keys.autn ≠ autnvp.bytes 2 16 then processEapAkaAuthenticationReject x
            else
              match x.rep.akaAuts, reported with
              | some auts, false =>
                  processEapAkaSynchronizationFailure
                    { x with keys := { x.keys with auts := auts.bytes 0 14 } }
              | _, _ =>
                  let (kAut, kEncr) := lib.eapakaCalculateKeys x.keys
                  let x := { x with keys := { x.keys with kAut := kAut, kEncr := kEncr } }
                  if lib.eapsimCheckmac req kAut [] then
                    let y := x.respondAs .akaChallenge
                    (true, { y with
                      rep := { y.rep with akaAutn := none }
                      frId := nextReauthId lib kEncr 0 req })
                  else (false, x)
        | _, _, _, _, _ => processEapAkaAuthenticationReject x
  | _, _ => (false, x)

inductive Handler
  | start
  | challenge
  | notification
  | reauth
  | clientError
  | akaIdentity
  | akaChallenge
  deriving DecidableEq, Repr

/-- The global variables by which a test makes the client refuse messages. -/
structure Flags where
  estart : Bool
  echallenge : Bool

/-- The cases of `respond_eap_sim`. -/
def simHandler (flags : Flags) : ClientState → Subtype → Handler
  | .init, .start | .start, .start => if flags.estart then .clientError else .start
  | .init, .notification =>
      if flags.echallenge || flags.estart then .clientError else .notification
  | .init, .reauth => .reauth
  | .start, .challenge => if flags.echallenge then .clientError else .challenge
  | .start, .notification => .notification
  | _, _ => .clientError

/-- The cases of `respond_eap_aka`. -/
def akaHandler (flags : Flags) : ClientState → Subtype → Handler
  | .init, .notification =>
      if flags.echallenge || flags.estart then .clientError else .notification
  | .init, .reauth | .start, .reauth => .reauth
  | .start, .akaIdentity => if flags.estart then .clientError else .akaIdentity
  | .start, .akaChallenge => if flags.echallenge then .clientError else .akaChallenge
  | .start, .notification => .notification
  | _, _ => .clientError

structure Input where
  nonce : Bytes
  reported : Bool

def Handler.process (lib : Libeap) (req : Request) (input : Input) (x : Client) : Handler → Result
  | .start => processEapStart req input.nonce x
  | .challenge => processEapChallenge lib req x
  | .notification => processEapNotification x
  | .reauth => processEapReauth lib req x
  | .clientError => processEapClienterror x
  | .akaIdentity => processEapAkaIdentity req x
  | .akaChallenge => processEapAkaChallenge lib req input.reported x

/-- When one of these returns 0, the response becomes a client error; the state stays 0. -/
def Handler.reportsError : Handler → Bool
  | .challenge | .reauth | .akaChallenge => true
  | _ => false

def Handler.answer (lib : Libeap) (req : Request) (input : Input) (x : Client) (h : Handler) : Result :=
  let (ok, y) := h.process lib req input x
  if !ok && h.reportsError then (ok, (processEapClienterror y).2) else (ok, y)

def pwEapAka : ℕ := 23

/-- `map_eapsim_types`, as far as the subtype goes: a packet that has none becomes an EAP-AKA challenge or
an EAP-SIM start. -/
def mapEapsimTypes (rep : Response) : Response :=
  { rep with message := some (rep.subtype.getD
      (if rep.eapType = some pwEapAka then .akaChallenge else .start)) }

/-- The common part of `respond_eap_sim` and `respond_eap_aka`: the client, and the handler called with
its result. -/
def respond (lib : Libeap) (handler : ClientState → Subtype → Handler) (first : ClientState)
    (req : Request) (input : Input) (x : Client) : Client × Option (Handler × Bool) :=
  if req.eapId = none then (x, none)
  else
    let state := x.rep.simState.getD first
    let x := { x with rep := { x.rep with simState := some state } }
    match req.subtype with
    | none => (x, none)
    | some subtype =>
        let h := handler state subtype
        let (ok, y) := h.answer lib req input x
        ({ y with rep := { mapEapsimTypes y.rep with simState := some (.ofResult ok) } }, some (h, ok))

def respondEapSim (lib : Libeap) (flags : Flags) : Request → Input → Client →
    Client × Option (Handler × Bool) :=
  respond lib (simHandler flags) .init

def respondEapAka (lib : Libeap) (flags : Flags) : Request → Input → Client →
    Client × Option (Handler × Bool) :=
  respond lib (akaHandler flags) .start

/-- An exchange: the client, the handlers called so far with their results, and the identifiers of the
packets sent. -/
structure Exchange where
  client : Client
  calls : List (Handler × Bool)
  sent : List UInt8

def Exchange.init (rep : Response) (keys : Keys) : Exchange :=
  ⟨⟨{ rep with simState := none }, keys, []⟩, [], [UInt8.ofNat rep.id]⟩

/-- Whatever `respond_eap_sim` or `respond_eap_aka` returned, the packet is sent under the next
identifier, of which the header takes eight bits. -/
def Exchange.again (s : Exchange) (r : Client × Option (Handler × Bool)) : Exchange :=
  let id := r.1.rep.id + 1
  ⟨{ r.1 with rep := { r.1.rep with id := id } }, s.calls ++ r.2.toList, s.sent ++ [UInt8.ofNat id]⟩

def Exchange.sim (lib : Libeap) (flags : Flags) (s : Exchange) (req : Request) (input : Input) :
    Exchange :=
  s.again (respondEapSim lib flags req input s.client)

def Exchange.aka (lib : Libeap) (flags : Flags) (s : Exchange) (req : Request) (input : Input) :
    Exchange :=
  s.again (respondEapAka lib flags req input s.client)

end LdapTgen.EapClient
