/-
**The settings of the PIN oracle (`process/update_pinserver.c`, `storage.c`, `pinclient.c`).**

The key that decrypts the stored wallet comes from an oracle on the network.  The device remembers its
two addresses, its public key and a certificate, each in a record of its own, and a private key of the
unit, which takes part in what the oracle is asked.  The settings can be changed while a wallet is
stored, except for the public key; and whenever addresses are written, the private key of the unit is
erased in the same commit, for the next use to make a new one.

Main definitions:

* `Jade.OracleKey`, `Jade.OracleM` — the records, and the programs over them;
* `Jade.PinserverParams`, `Jade.approve`, `Jade.updatePinserver` — the request;
* `Jade.pinGetUnitPrivatekey`, `Jade.pinserverInteraction` — the next use;
* `Jade.oracleStep` — updates and reboots, as a machine.
-/

import Jade.Keychain.Storage
import Jade.Lib.CText
import Jade.Lib.Run
import Jade.Utils.CborParams
import Jade.Utils.Handler

set_option relaxedAutoImplicit false
set_option autoImplicit false

namespace Jade

open Exec Flash Run

/-! ### Records -/

/-- The records of the default namespace: those of the stored wallet, and those of the oracle. -/
inductive OracleKey
  | wallet (k : NvsKey)
  | privatekey
  | pinsvrurlA
  | pinsvrurlB
  | pinsvrpubkey
  | pinsvrcert
  deriving DecidableEq

/-- Programs over these records.  The volatile memory is the flag that `keychain_has_pin` returns. -/
abbrev OracleM : Type → Type := Prog OracleKey Bool Unit

/-- The device that these programs run on. -/
abbrev OracleDev : Type := Dev OracleKey Bool Unit

def EC_PRIVATE_KEY_LEN : ℕ := 32
def MAX_PINSVR_URL_LENGTH : ℕ := 120
def MAX_PINSVR_CERTIFICATE_LENGTH : ℕ := 2048

/-- `read_blob_fixed` -/
def fixedRecord (st : Store OracleKey) (k : OracleKey) (len : ℕ) : Option Bytes :=
  (st k).filter (·.length = len)

def storageGetPinserverPubkey : OracleM (Option Bytes) := do
  return fixedRecord (← get).store .pinsvrpubkey EC_PUBLIC_KEY_LEN

/-- `storage_set_pinserver_details`: all values, or none. -/
def storageSetPinserverDetails (urlA urlB : Bytes) (pubkey : Option Bytes) : OracleM Bool :=
  transaction ([(.pinsvrurlA, some (Bytes.cstr urlA)), (.pinsvrurlB, some (Bytes.cstr urlB)),
    (.privatekey, none)] ++ (pubkey.map fun pubkey => (.pinsvrpubkey, some pubkey)).toList)

/-- `storage_erase_pinserver_details`: all of the fields, or none of them. -/
def storageErasePinserverDetails : OracleM Bool :=
  transaction [(.pinsvrurlA, none), (.pinsvrurlB, none), (.pinsvrpubkey, none), (.privatekey, none)]

def storageSetPinserverCert (cert : Bytes) : OracleM Bool := write .pinsvrcert (Bytes.cstr cert)

def storageErasePinserverCert : OracleM Bool := erase .pinsvrcert

/-! ### The request -/

/-- The parameters, as the getters deliver them.  A text that cannot be had is empty. -/
structure PinserverParams where
  resetDetails : Bool
  hasUrlA : Bool
  urlA : Bytes
  urlB : Bytes
  pubkey : Option Bytes
  resetCertificate : Bool
  setCertificate : Bool
  certificate : Except WireAbort Bytes

def PinserverParams.read {V : Type} (C : TinyCborValues V) (params : V) :
    Except WireAbort PinserverParams := do
  let urlA ← rpcGetString C "urlA" MAX_PINSVR_URL_LENGTH params
  let urlB ← rpcGetString C "urlB" MAX_PINSVR_URL_LENGTH params
  let pubkey ← rpcGetBytesPtr C.toTinyCbor "pubkey" params
  return {
    resetDetails := (rpcGetBoolean C.toTinyCbor "reset_details" params).getD false
    hasUrlA := rpcHasFieldData C "urlA" params
    urlA := urlA
    urlB := urlB
    pubkey := pubkey
    resetCertificate := (rpcGetBoolean C.toTinyCbor "reset_certificate" params).getD false
    setCertificate := rpcHasFieldData C "certificate" params
    certificate := rpcGetString C "certificate" MAX_PINSVR_CERTIFICATE_LENGTH params }

/-- What the user is asked.  Of a certificate the hash is shown. -/
inductive OracleScreen
  | details (urlA urlB : Bytes) (pubkey : Option Bytes)
  | resetDetails
  | certificate (cert : Bytes)
  | resetCertificate

/-- The oracle and the libraries: the default key of the oracle, and its answer as a function of its
key, the public key of the unit and the secret of the PIN. -/
structure PinOracle where
  serverPublicKey : Bytes
  publicKeyVerify : Bytes → Bool
  privateKeyVerify : Bytes → Bool
  publicKeyFromPrivateKey : Bytes → Bytes
  hmacSha256 : Bytes → Bytes → Bytes
  serverKey : Bytes → Bytes → Bytes → Bytes

def protocolIs (protocol url : Bytes) : Bool :=
  decide (protocol.length < url.length) && url.take protocol.length == protocol

/-- `VALID_PROTOCOL` -/
def validProtocol (url : Bytes) : Bool :=
  protocolIs (ascii "http://") url || protocolIs (ascii "https://") url

/-- A condition that refuses the request when it holds. -/
def refuseIf (c : Bool) (code : ℤ) (errmsg : String) : Except SignErr Unit :=
  if c then .error (.reject code errmsg) else .ok ()

section Model

variable (W : PinOracle) (user : OracleScreen → Bool)

/-- The checks of the addresses and the key. -/
def checkDetails (p : PinserverParams) : Except SignErr Unit := do
  refuseIf (p.hasUrlA && !validProtocol p.urlA) CBOR_RPC_BAD_PARAMETERS "Empty or invalid first URL"
  refuseIf (!p.urlB.isEmpty && !validProtocol p.urlB) CBOR_RPC_BAD_PARAMETERS "Invalid second URL"
  refuseIf (!p.urlB.isEmpty && p.urlA.isEmpty) CBOR_RPC_BAD_PARAMETERS "Cannot set only second URL"
  refuseIf ((!p.urlA.isEmpty || p.pubkey.isSome) && p.resetDetails) CBOR_RPC_BAD_PARAMETERS
    "Cannot set and reset details"
  match p.pubkey with
  | none => .ok ()
  | some pubkey => do
      refuseIf p.urlA.isEmpty CBOR_RPC_BAD_PARAMETERS "Cannot set pubkey without URL"
      refuseIf (decide (pubkey.length ≠ EC_PUBLIC_KEY_LEN) || !W.publicKeyVerify pubkey)
        CBOR_RPC_BAD_PARAMETERS "Invalid Oracle pubkey"

/-- The checks of a unit with a stored wallet, in a build that is not for debugging. -/
def checkInitialized (hasPin : Bool) (userPubkey : Option Bytes) (p : PinserverParams) :
    Except SignErr Unit :=
  if hasPin then do
    refuseIf (p.resetDetails && userPubkey.any (· != W.serverPublicKey)) CBOR_RPC_BAD_PARAMETERS
      "Cannot update initialized unit"
    refuseIf (p.pubkey.any (· != userPubkey.getD W.serverPublicKey)) CBOR_RPC_BAD_PARAMETERS
      "Cannot update initialized unit"
  else .ok ()

/-- The confirmation of the addresses, or of their reset. -/
def confirmDetails (p : PinserverParams) : Except SignErr Unit :=
  if !p.urlA.isEmpty then
    refuseIf (!user (.details p.urlA p.urlB p.pubkey)) CBOR_RPC_USER_CANCELLED
      "User declined to confirm Oracle details"
  else
    refuseIf (p.resetDetails && !user .resetDetails) CBOR_RPC_USER_CANCELLED
      "User declined to confirm resetting Oracle details"

/-- The confirmation of the certificate, or of its reset. -/
def confirmCertificate (p : PinserverParams) : Except SignErr Unit := do
  refuseIf (p.setCertificate && p.resetCertificate) CBOR_RPC_BAD_PARAMETERS
    "Cannot set and reset certificate"
  if p.setCertificate then
    match p.certificate with
    | .error _ => .error (.fault .assert)
    | .ok cert =>
        refuseIf (!user (.certificate cert)) CBOR_RPC_USER_CANCELLED
          "User declined to confirm Oracle certificate"
  else
    refuseIf (p.resetCertificate && !user .resetCertificate) CBOR_RPC_USER_CANCELLED
      "User declined to confirm resetting Oracle certificate"

/-- Everything before the first record is written. -/
def approve (hasPin : Bool) (userPubkey : Option Bytes) (p : PinserverParams) :
    Except SignErr Unit := do
  checkDetails W p
  checkInitialized W hasPin userPubkey p
  confirmDetails user p
  confirmCertificate user p

/-- The first records that are written: those of the addresses and the key. -/
def storeDetails (p : PinserverParams) : OracleM (Option (ℤ × String)) :=
  if !p.urlA.isEmpty then do
    if ← storageSetPinserverDetails p.urlA p.urlB p.pubkey then return none
    else return some (CBOR_RPC_INTERNAL_ERROR, "Failed to persist Oracle details")
  else if p.resetDetails then do
    if ← storageErasePinserverDetails then return none
    else return some (CBOR_RPC_INTERNAL_ERROR, "Failed to erase Oracle details")
  else return none

/-- The certificate. -/
def storeCertificate (p : PinserverParams) : OracleM (Option (ℤ × String)) :=
  if p.setCertificate then do
    if ← storageSetPinserverCert (p.certificate.toOption.getD []) then return none
    else return some (CBOR_RPC_INTERNAL_ERROR, "Failed to persist Oracle certificate")
  else if p.resetCertificate then do
    if ← storageErasePinserverCert then return none
    else return some (CBOR_RPC_INTERNAL_ERROR, "Failed to erase Oracle certificate")
  else return none

/-- `update_pinserver`, which returns an error or nothing. -/
def updatePinserver (p : PinserverParams) : OracleM (Option (ℤ × String)) := do
  let hasPin ← getRam
  let userPubkey ← storageGetPinserverPubkey
  match approve W user hasPin userPubkey p with
  | .error (.fault _) => throw .assert
  | .error (.reject code errmsg) => return some (code, errmsg)
  | .ok () =>
      match ← storeDetails p with
      | some err => return some err
      | none => storeCertificate p

/-- `update_pinserver` on the parameters of a message; a getter may abort. -/
def updatePinserverCall {V : Type} (C : TinyCborValues V) (params : V) :
    OracleM (Option (ℤ × String)) :=
  match PinserverParams.read C params with
  | .error _ => throw .assert
  | .ok p => updatePinserver W user p

/-- `reset_pinserver`, which is only for units without a wallet. -/
def resetPinserver : OracleM Bool := do
  assert (!(← getRam))
  let details ← storageErasePinserverDetails
  let cert ← storageErasePinserverCert
  return details && cert

/-! ### The next use -/

/-- The private key of the unit, which counts only as a valid one. -/
def unitPrivatekey (st : Store OracleKey) : Option Bytes :=
  (fixedRecord st .privatekey EC_PRIVATE_KEY_LEN).filter fun key => W.privateKeyVerify key

/-- `storage_get_pin_privatekey` -/
def storageGetPinPrivatekey : OracleM (Option Bytes) := do return unitPrivatekey W (← get).store

/-- `storage_set_pin_privatekey` -/
def storageSetPinPrivatekey (privatekey : Bytes) : OracleM Bool :=
  if W.privateKeyVerify privatekey then write .privatekey privatekey else return false

/-- `pin_get_unit_privatekey`; `newKey` is the one that would be drawn. -/
def pinGetUnitPrivatekey (newKey : Bytes) : OracleM (Option Bytes) := do
  match ← storageGetPinPrivatekey W with
  | some key => return some key
  | none => if ← storageSetPinPrivatekey W newKey then return some newKey else return none

/-- The key of the oracle that is in effect. -/
def effectivePubkey (st : Store OracleKey) : Bytes :=
  (fixedRecord st .pinsvrpubkey EC_PUBLIC_KEY_LEN).getD W.serverPublicKey

/-- `get_pin_secret` -/
def getPinSecret (pin privatekey : Bytes) : Bytes := W.hmacSha256 (W.hmacSha256 privatekey [0]) pin

/-- The key that the oracle's answer and the PIN give. -/
def finalAes (pubkey privatekey pin : Bytes) : Bytes :=
  W.hmacSha256 (W.serverKey pubkey (W.publicKeyFromPrivateKey privatekey)
    (getPinSecret W pin privatekey)) pin

/-- `pinserver_interaction` of a `get_pin`, with an oracle that answers. -/
def pinserverInteraction (newKey pin : Bytes) : OracleM (Option Bytes) := do
  let pubkey := effectivePubkey W (← get).store
  if !W.publicKeyVerify pubkey then return none
  else
    match ← pinGetUnitPrivatekey W newKey with
    | none => return none
    | some privatekey => return some (finalAes W pubkey privatekey pin)

end Model

/-! ### The machine -/

/-- `keychain_init_cache`, as far as the flag goes. -/
def bootFlag : OracleM Unit := do
  let st := (← get).store
  modifyRam fun _ => decide (0 < counterOf fun k => st (.wallet k))

/-- A call of `update_pinserver`, with the answers of the user and the fates of the commits; one of
`reset_pinserver`; or a reboot. -/
inductive OracleOp (V : Type)
  | update (params : V) (user : OracleScreen → Bool) (fates : List Fate)
  | reset (fates : List Fate)
  | reboot

def oracleStep {V : Type} (C : TinyCborValues V) (W : PinOracle) (d : OracleDev) :
    OracleOp V → OracleDev
  | .update params user fates => runOp false bootFlag (updatePinserverCall W user C params) fates d
  | .reset fates => runOp false bootFlag resetPinserver fates d
  | .reboot => restart false bootFlag d

end Jade
