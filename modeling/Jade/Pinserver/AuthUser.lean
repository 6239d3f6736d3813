/-
**Logging in, message by message (`process/auth_user.c`).**

A host asks the device to unlock its wallet. If the wallet is in flash, the user enters the PIN, and
the oracle is asked for the key that goes with it; if there is none yet, one is set up and stored
under a new PIN. The replies go to the message at hand, which is the one that came last: after a
question to the oracle this is the message with its answer, and the wallet is unlocked for the port
that one came in on.

The parts of the keychain are those of `Jade.authUserProcess`, where what comes of the dialogue with
the user and the oracle is an argument. What the user does is an argument here.

Main definitions:

* `Jade.Pinclient.onWallet` — a part of the keychain;
* `Jade.Pinclient.UserInput` — what the user does;
* `Jade.Pinclient.getPinLoadKeys`, `Jade.Pinclient.setPinSaveKeys` — unlocking, and storing;
* `Jade.Pinclient.authUserProcess` — the `auth_user` message.
-/

import Jade.Keychain.Login
import Jade.Pinserver.Client
import Jade.SignTx.Process

set_option relaxedAutoImplicit false
set_option autoImplicit false

namespace Jade.Pinclient

open Exec Flash

/-! ### Parts of the keychain -/

section Wallet

variable {V α : Type}

/-- The records of the wallet. -/
def walletStore (st : Store ClientKey) : Store NvsKey := fun k => st (.settings (.wallet k))

/-- A flash with these records of the wallet. -/
def withWallet (st : Store ClientKey) (records : Store NvsKey) : Store ClientKey
  | .settings (.wallet k) => records k
  | k => st k

/-- The device as the keychain sees it. -/
def walletDev (d : ClientDev V) : Dev NvsKey Ram PinTest where
  store := walletStore d.store
  ram := d.ram.keychain
  fates := d.fates
  log := []

/-- The device after a part of the keychain. -/
def putWallet (w : Dev NvsKey Ram PinTest) (d : ClientDev V) : ClientDev V :=
  { d with
    store := withWallet d.store w.store
    ram := { d.ram with keychain := w.ram }
    fates := w.fates }

/-- A part of the keychain. -/
def onWallet (x : KeychainM α) : ClientM V α := zoom walletDev putWallet x

theorem sat_onWallet {Q : α → ClientDev V → Prop} {E : Stop → ClientDev V → Prop} {d : ClientDev V}
    (x : KeychainM α) :
    Sat (onWallet x) Q E d ↔
      Sat x (fun a w => Q a (putWallet w d)) (fun e w => E e (putWallet w d)) (walletDev d) :=
  sat_zoom _ _ _

@[simp] theorem walletStore_withWallet (st : Store ClientKey) (records : Store NvsKey) :
    walletStore (withWallet st records) = records := rfl

@[simp] theorem putWallet_talk (w : Dev NvsKey Ram PinTest) (d : ClientDev V) :
    (putWallet w d).ram.talk = d.ram.talk := rfl

@[simp] theorem putWallet_keychain (w : Dev NvsKey Ram PinTest) (d : ClientDev V) :
    (putWallet w d).ram.keychain = w.ram := rfl

@[simp] theorem walletStore_putWallet (w : Dev NvsKey Ram PinTest) (d : ClientDev V) :
    walletStore (putWallet w d).store = w.store := rfl

end Wallet

/-! ### The user -/

def PIN_SIZE : ℕ := 6

abbrev Pin : Type := Vector UInt8 PIN_SIZE

/-- A round of entering a new PIN: given up at once, or at the second entry; or two PINs, and
whether to go on if they differ. -/
inductive NewPinRound
  | abandon
  | backOut (pin : Pin)
  | confirm (pin again : Pin) (tryAgain : Bool)

/-- What the user does in the course of a login. -/
structure UserInput where
  pin : Option Pin
  unlockRetries : List Bool
  passphrase : Bytes
  changePin : Bool
  newPin : List NewPinRound
  setRetries : List Bool
  mnemonic : Option Bytes
  advancedMode : Bool

/-- What the processes need apart from the oracle: primitives, messages, and the clock. -/
structure AuthLib (V : Type) where
  keys : KeyPrims
  wally : PinWally
  cbor : TinyCborArrays V
  /-- `settimeofday` -/
  setTimeOfDay : UInt64 → Bool

section Model

variable {V : Type} (L : AuthLib V)

/-! ### Replies -/

/-- `jade_process_reject_message` -/
def rejectCurrent (code : ℤ) (errmsg : String) : ClientM V Unit :=
  onTalk (rejectMessage L.cbor.toTinyCborStrings code errmsg)

/-- `jade_process_reply_to_message_ok` and `…_fail`. Without a message there is none to reply to. -/
def replyBool (ok : Bool) : ClientM V Unit :=
  onTalk do
    match ← currentMessage with
    | none => throw (.fault .assert)
    | some m =>
        replyWith m (answer L.cbor.toTinyCborStrings m.value replyOk)
          (if ok then .ok else .data .no)

/-- `process->ctx.source`, which is `SOURCE_NONE` without a message. -/
def messageSource : ClientM V UInt8 := do
  let m ← onTalk currentMessage
  return (m.map (·.source)).getD 0

/-- `KEYCHAIN_UNLOCKED_BY_MESSAGE_SOURCE` -/
def unlockedByMessageSource : ClientM V Bool := do
  let r := (← getRam).keychain
  let source ← messageSource
  return r.keychainData.isSome && decide (r.keychainUserdata = source)

/-- `keychain_set(keychain_get(), process->ctx.source, ..)` -/
def resetKeychain (temporary : Bool) : ClientM V Unit := do
  let source ← messageSource
  match (← getRam).keychain.keychainData with
  | some keydata => onWallet (keychainSet keydata source temporary)
  | none => throw .assert

def showScreen (screen : PinScreen) : ClientM V Unit :=
  onTalk (Dialogue.onScreens (modify (· ++ [screen])))

/-! ### PINs -/

/-- `get_pin_get_aeskey` -/
def getPinGetAeskey (title : PinScreen) (u : UserInput) : ClientM V (Option (Pin × Bytes)) := do
  let _ ← onWallet Jade.getPinGetAeskey
  showScreen title
  match u.pin with
  | none => do
      rejectCurrent L CBOR_RPC_USER_CANCELLED "User abandonded pin entry"
      return none
  | some pin => do
      let aeskey ← pinclientGet L.wally L.cbor.toTinyCborStrings pin.toList u.unlockRetries
      return aeskey.map fun aeskey => (pin, aeskey)

/-- The loop of `set_pin_get_aeskey`: a new PIN is entered twice. A user who does not do anything
any more leaves the device waiting until it is switched off. -/
def enterNewPin : List NewPinRound → ClientM V (Option Pin)
  | [] => do
      showScreen .enterNewPin
      throw .power
  | .abandon :: _ => do
      showScreen .enterNewPin
      rejectCurrent L CBOR_RPC_USER_CANCELLED "User abandoned setting new PIN"
      return none
  | .backOut _ :: rounds => do
      showScreen .enterNewPin
      showScreen .confirmPin
      enterNewPin rounds
  | .confirm pin again tryAgain :: rounds => do
      showScreen .enterNewPin
      showScreen .confirmPin
      if pin = again then return some pin
      else
        showScreen .pinMismatch
        if tryAgain then enterNewPin rounds
        else
          rejectCurrent L CBOR_RPC_USER_CANCELLED "User abandoned setting new PIN"
          return none

/-- `set_pin_get_aeskey` -/
def setPinGetAeskey (u : UserInput) : ClientM V (Option (Pin × Bytes)) := do
  match ← enterNewPin L u.newPin with
  | none => return none
  | some pin => do
      let aeskey ← pinclientSet L.wally L.cbor.toTinyCborStrings pin.toList u.setRetries
      return aeskey.map fun aeskey => (pin, aeskey)

/-- `storage_get_wallet_erase_pin` -/
def walletErasePinOf (st : Store ClientKey) : Option Bytes :=
  (st .walletErasePin).filter fun pin => decide (pin.length = PIN_SIZE)

/-- `check_wallet_erase_pin`: the wallet is erased, and the device shuts down. -/
def checkWalletErasePin (pin : Pin) : ClientM V Unit := do
  if walletErasePinOf (← get).store = some pin.toList then
    onWallet do
      keychainEraseEncrypted
      keychainSetPassphraseFrequencyNever
      keychainPersistKeyFlags
    rejectCurrent L CBOR_RPC_INTERNAL_ERROR "Internal Error"
    throw .power

/-- The initialisation vector of `aes_encrypt_bytes`. -/
def drawIv : ClientM V Iv := do
  let bytes ← getRandom AES_BLOCK_LEN
  return Vector.ofFn fun i => bytes.getD i 0

/-! ### Unlocking and storing -/

/-- The end of `get_pin_load_keys` once the keys are loaded: the PIN is changed, when that was asked
for and the user agrees. -/
def changePinIfRequested (aeskey : Bytes) (suppressConfirmation : Bool) (u : UserInput) :
    ClientM V Unit := do
  if (← getRam).changePinRequested then
    if !suppressConfirmation then showScreen .changePin
    if suppressConfirmation || u.changePin then
      match ← setPinGetAeskey L u with
      | none => pure ()
      | some (_, newAeskey) => do
          let iv ← drawIv
          let _ ← onWallet (keychainReencrypt L.keys.toPrims aeskey newAeskey iv)

/-- The passphrase, when the wallet needs one; the result says that there is a wallet. -/
def completeDerivation (u : UserInput) : ClientM V Bool :=
  onWallet do
    if ← keychainRequiresPassphrase then
      let passphrase ← getPassphrase u.passphrase
      keychainCompleteDerivationWithPassphrase L.keys passphrase
    else return true

/-- `get_pin_load_keys` -/
def getPinLoadKeys (suppressConfirmation : Bool) (u : UserInput) : ClientM V Bool := do
  assert (← getRam).keychain.keychainData.isNone
  match ← getPinGetAeskey L (if suppressConfirmation then .enterCurrentPin else .unlockJade) u with
  | none => return false
  | some (pin, aeskey) => do
      if !(← onWallet (keychainLoad L.keys.toPrims aeskey)) then
        checkWalletErasePin L pin
        replyBool L false
        return false
      else if !(← completeDerivation L u) then
        rejectCurrent L CBOR_RPC_INTERNAL_ERROR "Failed to derive wallet"
        return false
      else
        resetKeychain false
        changePinIfRequested L aeskey suppressConfirmation u
        modifyRam fun r => { r with changePinRequested := false }
        replyBool L true
        return true

/-- `set_pin_save_keys` -/
def setPinSaveKeys (u : UserInput) : ClientM V Bool := do
  assert (← getRam).keychain.keychainData.isSome
  assert (!(← getRam).keychain.hasEncryptedBlob)
  assert (!(← onWallet keychainHasTemporary))
  match ← setPinGetAeskey L u with
  | none => return false
  | some (_, aeskey) => do
      let iv ← drawIv
      if !(← onWallet (keychainStore L.keys.toPrims aeskey iv)) then
        rejectCurrent L CBOR_RPC_INTERNAL_ERROR
          "Failed to store key data encrypted in flash memory"
        return false
      else
        resetKeychain false
        modifyRam fun r => { r with changePinRequested := false }
        replyBool L true
        return true

/-! ### The message -/

/-- `jade_process_check_network` -/
def checkNetwork (params : V) : ClientM V (Option Network) := do
  let name ← onTalk (orFault (copiedText L.cbor "network" MAX_NETWORK_NAME_LEN params))
  match if name.isEmpty then networkFromName none else networkFromText name with
  | none => do
      rejectCurrent L CBOR_RPC_BAD_PARAMETERS "Failed to extract valid network from parameters"
      return none
  | some networkId => do
      if ← onWallet (keychainIsNetworkIdConsistent networkId) then return some networkId
      else
        rejectCurrent L CBOR_RPC_NETWORK_MISMATCH "Network type inconsistent with prior usage"
        return none

/-- `params_set_epoch_time`, which returns an error or nothing. -/
def paramsSetEpochTime (params : V) : Option (ℤ × String) :=
  match rpcGetUint64 L.cbor "epoch" params with
  | none => some (CBOR_RPC_BAD_PARAMETERS, "Failed to extract valid epoch value from parameters")
  | some epoch =>
      if L.setTimeOfDay epoch then none else some (CBOR_RPC_INTERNAL_ERROR, "Failed to set time")

/-- The epoch is optional. -/
def epochError (params : V) : Option (ℤ × String) :=
  if rpcHasFieldData L.cbor.toTinyCborValues "epoch" params then paramsSetEpochTime L params else none

/-- The five cases of `auth_user_process`; the result says that the wallet is unlocked. -/
def authUserLogin (suppressConfirmation : Bool) (u : UserInput) : ClientM V Bool := do
  if ← onWallet keychainHasTemporary then
    assert (← getRam).keychain.keychainData.isSome
    if ← unlockedByMessageSource then
      replyBool L true
      return true
    else if (← getRam).keychain.keychainUserdata = 0 then
      resetKeychain true
      replyBool L true
      return true
    else
      rejectCurrent L CBOR_RPC_HW_LOCKED
        "Cannot process message - temporary wallet associated with different connection"
      return false
  else if (← getRam).keychain.hasEncryptedBlob then
    if ← unlockedByMessageSource then
      replyBool L true
      return true
    else
      if (← getRam).keychain.keychainData.isSome then
        onWallet keychainClear
      getPinLoadKeys L suppressConfirmation u
  else
    if (← getRam).keychain.keychainData.isNone then
      onWallet (initialiseWithMnemonic L.keys false u.mnemonic u.advancedMode u.passphrase)
    if (← getRam).keychain.keychainData.isNone then
      replyBool L false
      return false
    else setPinSaveKeys L u

/-- `auth_user_process`, with the value that its result variable has in the end. -/
def authUserProcess (u : UserInput) : ClientM V Bool := do
  assert (← onTalk (isCurrent L.cbor.toTinyCborStrings "auth_user"))
  let m ← onTalk currentMessage
  match m.bind fun m => getMsgParams L.cbor.toTinyCborStrings m.value with
  | none => do
      rejectCurrent L CBOR_RPC_BAD_PARAMETERS "Expecting parameters map"
      return false
  | some params => do
      match ← checkNetwork L params with
      | none => return false
      | some networkId => do
          match epochError L params with
          | some (code, errmsg) => do
              rejectCurrent L code errmsg
              return false
          | none => do
              let suppressConfirmation :=
                (rpcGetBoolean L.cbor.toTinyCbor "suppress_pin_change_confirmation" params).getD false
              let rslt ← authUserLogin L suppressConfirmation u
              if rslt then
                onWallet (keychainSetNetworkTypeRestriction (networkToType networkId))
              return rslt

end Model

end Jade.Pinclient
