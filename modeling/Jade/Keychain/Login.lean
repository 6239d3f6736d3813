/-
**Logging in and out, and the network a request is for.**

A message names the interface it came over and, for most requests, a network.  A wallet answers to
one interface only, the one that unlocked it, and once it has been used on a network of one type, it
is meant for networks of that type.  A user logs in with the PIN, which unlocks the wallet in flash,
or with a recovery phrase, which gives a temporary wallet that is forgotten at logout.

What the user and the PIN server do in the course of a request is part of the request: the keys the
PIN server returns, the mnemonic and the passphrase that are entered.

Main definitions:

* `Jade.networkToType` — the two types of networks;
* `Jade.checkNetwork`, `Jade.networkRequest` — the check of the network, and a request that makes it;
* `Jade.getPinLoadKeys`, `Jade.setPinSaveKeys`, `Jade.authUserProcess` — the `auth_user` message;
* `Jade.LoginOp`, `Jade.LoginRequest`, `Jade.loginStep` — everything that logs in or out, as a
  machine.
-/

import Jade.Keychain.Derive
import Jade.Keychain.HasPin
import Jade.Utils.Network

set_option relaxedAutoImplicit false
set_option autoImplicit false

namespace Jade

open Exec Flash

/-! ### Networks -/

def networkToType : Network → NetworkType
  | .bitcoin | .liquid | .litecoin => .main
  | .bitcoinTestnet | .liquidTestnet | .litecoinTestnet
  | .bitcoinRegtest | .liquidRegtest | .litecoinRegtest => .test

/-! ### Messages and replies -/

/-- `jade_msg_source_t`. -/
inductive Source
  | none
  | internal
  | serial
  | qemuTcp
  | ble
  deriving DecidableEq, Repr

/-- The value of the enumeration, as it is kept with the wallet. -/
def Source.userdata : Source → UInt8
  | .none => 0
  | .internal => 1
  | .serial => 2
  | .qemuTcp => 3
  | .ble => 4

/-- The error codes of the replies modelled here. -/
inductive CborRpc
  | badParameters
  | internalError
  | userCancelled
  | hwLocked
  | networkMismatch
  deriving DecidableEq, Repr

inductive Reply
  | ok
  | fail
  | reject (code : CborRpc) (message : String)
  deriving DecidableEq, Repr

def keychainIsNetworkIdConsistent (networkId : Network) : KeychainM Bool :=
  keychainIsNetworkTypeConsistent (networkToType networkId)

/-- `jade_process_check_network`: the network of the message, or the reply that rejects it. -/
def checkNetwork (network : Option String) : KeychainM (Except Reply Network) := do
  match networkFromName network with
  | none => return .error (.reject .badParameters "Failed to extract valid network from parameters")
  | some networkId =>
    if !(← keychainIsNetworkIdConsistent networkId) then
      return .error (.reject .networkMismatch "Network type inconsistent with prior usage")
    return .ok networkId

/-- `KEYCHAIN_UNLOCKED_BY_MESSAGE_SOURCE`. -/
def keychainUnlockedByMessageSource (source : Source) : KeychainM Bool := do
  let r ← getRam
  return r.keychainData.isSome && r.keychainUserdata = source.userdata

/-- A request that names a network, as far as the wallet is concerned: `dispatch_message` lets it
through, and its handler checks the network before anything else.  What the handler then does leaves
the keychain and its restriction alone.  The handlers are those that use `CHECK_NETWORK_CONSISTENT`.
`sign_message` is none of them: the network that it names only selects the text in front of the message
to sign, and any known name will do. -/
def networkRequest (source : Source) (network : Option String) : KeychainM Reply := do
  if !(← keychainUnlockedByMessageSource source) then
    return .reject .hwLocked "Cannot process message - hardware locked or uninitialized"
  match ← checkNetwork network with
  | .error reply => return reply
  | .ok _ => return .ok

/-! ### The `auth_user` message -/

/-- What comes of the PIN dialogue: the key the PIN server returns, and whether the PIN is the one
that erases the wallet. -/
structure PinEntry where
  aeskey : Bytes
  isErasePin : Bool

/-- The message, with what the user and the PIN server do while it is processed. -/
structure AuthUser where
  source : Source
  network : Option String
  /-- The reply when the message carries an epoch that cannot be set. -/
  epochError : Option Reply
  /-- The reply when the user or the PIN server abandons the dialogue. -/
  getPin : Except Reply PinEntry
  /-- The passphrase the user enters when asked for one. -/
  passphrase : Bytes
  /-- The new key, when a PIN change was requested, confirmed and carried out. -/
  changePin : Option (Bytes × Iv)
  /-- The mnemonic of a wallet that is set up, unless the user gives up. -/
  mnemonic : Option Bytes
  advancedMode : Bool
  setPin : Except Reply (Bytes × Iv)

def keychainSetPassphraseFrequencyNever : KeychainM PUnit :=
  modifyRam fun r => { r with keyFlags :=
    (r.keyFlags ||| KEY_FLAGS_AUTO_DEFAULT_PASSPHRASE) &&& ~~~KEY_FLAGS_USER_TO_ENTER_PASSPHRASE }

/-- `keychain_persist_key_flags`: a passphrase that is asked for once is not asked for after the next
restart. -/
def keychainPersistKeyFlags : KeychainM PUnit := do
  let flags := (← getRam).keyFlags
  let persisted :=
    if flags &&& KEY_FLAGS_AUTO_DEFAULT_PASSPHRASE ≠ 0 ∧
        flags &&& KEY_FLAGS_USER_TO_ENTER_PASSPHRASE ≠ 0 then
      flags &&& ~~~KEY_FLAGS_USER_TO_ENTER_PASSPHRASE
    else flags
  let _ ← storeBlob .keyflags [persisted]

/-- `check_wallet_erase_pin`: the wallet is erased, and the device shuts down. -/
def checkWalletErasePin (entry : PinEntry) : KeychainM PUnit := do
  if entry.isErasePin then
    keychainEraseEncrypted
    keychainSetPassphraseFrequencyNever
    keychainPersistKeyFlags
    throw .power

/-- `keychain_set(keychain_get(), ..)`. -/
def keychainReset (source : Source) (temporary : Bool) : KeychainM PUnit := do
  match (← getRam).keychainData with
  | some keydata => keychainSet keydata source.userdata temporary
  | none => throw .assert

def getPinLoadKeys (P : KeyPrims) (msg : AuthUser) : KeychainM (Bool × Reply) := do
  assert (← getRam).keychainData.isNone
  let _ ← getPinGetAeskey
  match msg.getPin with
  | .error reply => return (false, reply)
  | .ok entry =>
    if !(← keychainLoad P.toPrims entry.aeskey) then
      checkWalletErasePin entry
      return (false, .fail)
    if ← keychainRequiresPassphrase then
      let passphrase ← getPassphrase msg.passphrase
      if !(← keychainCompleteDerivationWithPassphrase P passphrase) then
        return (false, .reject .internalError "Failed to derive wallet")
    keychainReset msg.source false
    match msg.changePin with
    | some (newAeskey, iv) =>
      let _ ← keychainReencrypt P.toPrims entry.aeskey newAeskey iv
    | none => pure ()
    return (true, .ok)

def setPinSaveKeys (P : KeyPrims) (msg : AuthUser) : KeychainM (Bool × Reply) := do
  assert (← getRam).keychainData.isSome
  assert (!(← keychainHasPin))
  assert (!(← keychainHasTemporary))
  match msg.setPin with
  | .error reply => return (false, reply)
  | .ok (aeskey, iv) =>
    if !(← keychainStore P.toPrims aeskey iv) then
      return (false, .reject .internalError "Failed to store key data encrypted in flash memory")
    keychainReset msg.source false
    return (true, .ok)

/-- The five cases of `auth_user_process`; the first result says that the wallet is unlocked for the
sender. -/
def authUserLogin (P : KeyPrims) (msg : AuthUser) : KeychainM (Bool × Reply) := do
  if ← keychainHasTemporary then
    if ← keychainUnlockedByMessageSource msg.source then
      return (true, .ok)
    else if (← getRam).keychainUserdata = Source.none.userdata then
      keychainReset msg.source true
      return (true, .ok)
    else
      return (false, .reject .hwLocked
        "Cannot process message - temporary wallet associated with different connection")
  else if ← keychainHasPin then
    if ← keychainUnlockedByMessageSource msg.source then
      return (true, .ok)
    else
      if (← getRam).keychainData.isSome then
        keychainClear
      getPinLoadKeys P msg
  else
    if (← getRam).keychainData.isNone then
      initialiseWithMnemonic P false msg.mnemonic msg.advancedMode msg.passphrase
    if (← getRam).keychainData.isNone then
      return (false, .fail)
    setPinSaveKeys P msg

def authUserProcess (P : KeyPrims) (msg : AuthUser) : KeychainM Reply := do
  match ← checkNetwork msg.network with
  | .error reply => return reply
  | .ok networkId =>
    match msg.epochError with
    | some reply => return reply
    | none =>
      let (rslt, reply) ← authUserLogin P msg
      if rslt then
        keychainSetNetworkTypeRestriction (networkToType networkId)
      return reply

/-! ### The machine -/

/-- Everything that logs in or out, or asks for something on a network. -/
inductive LoginOp
  | reboot
  | authUser (msg : AuthUser)
  | request (source : Source) (network : Option String)
  /-- The `logout` message and the entry of the session menu. -/
  | logout
  /-- The interface that unlocked the wallet was unplugged. -/
  | disconnect
  /-- `initialise_wallet`, for a temporary wallet or for one to be stored. -/
  | initialise (temporary : Bool) (mnemonic : Option Bytes) (advancedMode : Bool)
      (passphrase : Bytes)
  /-- `handle_mnemonic_qr`: switch to the temporary wallet of a scanned mnemonic. -/
  | scanMnemonic (mnemonic passphrase : Bytes)
  /-- A wallet to be stored becomes a temporary one instead. -/
  | setTemporary
  /-- `auth_qr_mode` for a temporary wallet. -/
  | qrMode
  /-- After a PIN change by QR codes the wallet goes back to the interface it was used over. -/
  | relogin (source : Source)

/-- The program of an operation; what it replies does not matter to the device. -/
def LoginOp.exec (P : KeyPrims) : LoginOp → KeychainM PUnit
  | .reboot => throw .power
  | .authUser msg => discard (authUserProcess P msg)
  | .request source network => discard (networkRequest source network)
  | .logout => keychainClear
  | .disconnect => do
    let r ← getRam
    if r.hasEncryptedBlob && r.keychainData.isSome && !r.keychainTemporary &&
        (r.keychainUserdata = Source.serial.userdata || r.keychainUserdata = Source.ble.userdata)
        then
      keychainClear
  | .initialise temporary mnemonic advancedMode passphrase =>
    initialiseWithMnemonic P temporary mnemonic advancedMode passphrase
  | .scanMnemonic mnemonic passphrase => discard (deriveKeychain P true mnemonic passphrase)
  | .setTemporary => keychainSetTemporary
  | .qrMode => do
    if ← keychainHasTemporary then
      keychainReset .internal true
  | .relogin source => do
    let r ← getRam
    if !r.keychainTemporary && r.hasEncryptedBlob && r.keychainData.isSome &&
        r.keychainUserdata = Source.internal.userdata then
      keychainReset source false

/-- An operation and the fates of the commits it is going to make. -/
structure LoginRequest where
  op : LoginOp
  fates : List Fate

/-- The device carries out one request; it restarts when the request is stopped. -/
def loginStep (P : KeyPrims) (d : Dev NvsKey Ram PinTest) (r : LoginRequest) :
    Dev NvsKey Ram PinTest :=
  runOp Ram.init keychainInitCache (r.op.exec P) r.fates d

end Jade
