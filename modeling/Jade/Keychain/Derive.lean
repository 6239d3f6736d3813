/-
**From a recovery phrase to the keys of the wallet.**

A wallet is set up from a mnemonic text and a passphrase: they give the seed, and the seed gives the
extended private key, the Green service path and the master unblinding key.  What is kept in flash
is the entropy of the mnemonic alone, so that unlocking the wallet derives the keys a second time,
from the text the entropy stands for and from the passphrase the user enters again.

The BIP32, BIP39 and hash functions are parameters, collected in `Jade.KeyPrims`.

Main definitions:

* `Jade.KeyPrims`, `Jade.KeyPrims.ValidKey` — the primitives, and the extended keys that the BIP32
  encoding represents;
* `Jade.keychainDeriveFromSeed`, `Jade.keychainDeriveFromMnemonic`,
  `Jade.keychainCompleteDerivationWithPassphrase` — the derivations of `keychain.c`;
* `Jade.deriveKeychain`, `Jade.initialiseWithMnemonic` — setting up a wallet, for good or
  temporarily.

Main results:

* `Jade.silent_keychainDeriveFromMnemonic` — deriving has no effect and depends on the two texts
  alone.
-/

import Jade.Keychain.Keychain

set_option relaxedAutoImplicit false
set_option autoImplicit false

namespace Jade

open Exec Flash

/-! ### Primitives -/

def PASSPHRASE_MAX_LEN : ℕ := 100
def BIP32_ENTROPY_LEN_512 : ℕ := 64
def BIP32_VER_MAIN_PRIVATE : UInt32 := 0x0488ADE4
def BIP32_INITIAL_HARDENED_CHILD : UInt32 := 0x80000000

def GA_PATH_ROOT : UInt32 := BIP32_INITIAL_HARDENED_CHILD + 0x4741

/-- The key of the service path, with its terminator. -/
def GA_KEY_MSG : Bytes := "GreenAddress.it HD wallet path".toUTF8.toList ++ [0]

/-- The primitives that lead from a mnemonic text to keys; a text is a C string without its
terminator. -/
structure KeyPrims extends Prims where
  /-- `bip39_mnemonic_validate`, with the default word list. -/
  bip39MnemonicValidate : Bytes → Bool
  /-- `bip39_mnemonic_from_bytes`, with the default word list. -/
  bip39MnemonicFromBytes : Bytes → Option Bytes
  /-- `bip39_mnemonic_to_seed`: mnemonic, passphrase. -/
  bip39MnemonicToSeed : Bytes → Option Bytes → Option Bytes
  /-- `bip32_key_from_seed`: seed, version. -/
  bip32KeyFromSeed : Bytes → UInt32 → Option ExtKey
  /-- `bip32_key_from_parent_path`, for private keys. -/
  bip32KeyFromParentPath : ExtKey → List UInt32 → Option ExtKey
  /-- `wally_asset_blinding_key_from_seed`. -/
  wallyAssetBlindingKeyFromSeed : Bytes → Option (Vector UInt8 HMAC_SHA512_LEN)
  /-- `wally_hmac_sha512`: key, message. -/
  hmacSha512 : Bytes → Bytes → Bytes

/-- The key is determined by its BIP32 encoding: its parts fit together, and of its parent's hash it
holds the fingerprint only. -/
def KeyPrims.ValidKey (P : KeyPrims) (k : ExtKey) : Prop :=
  P.bip32KeyUnserialize (P.bip32KeySerialize k) = some k

/-! ### The passphrase -/

def KEY_FLAGS_AUTO_DEFAULT_PASSPHRASE : UInt8 := 0x1
def KEY_FLAGS_USER_TO_ENTER_PASSPHRASE : UInt8 := 0x2
def KEY_FLAGS_CONFIRM_EXPORT_BLINDING_KEY : UInt8 := 0x80

inductive PassphraseFreq
  | never
  | once
  | always
  deriving DecidableEq, Repr

def keychainGetPassphraseFreq : KeychainM PassphraseFreq := do
  let flags := (← getRam).keyFlags
  return if flags &&& KEY_FLAGS_USER_TO_ENTER_PASSPHRASE ≠ 0 then
      if flags &&& KEY_FLAGS_AUTO_DEFAULT_PASSPHRASE ≠ 0 then .once else .always
    else .never

/-- `get_passphrase`: empty, or what the user enters, for which the keyboard has a limit. -/
def getPassphrase (entered : Bytes) : KeychainM Bytes := do
  match ← keychainGetPassphraseFreq with
  | .never => return []
  | .once | .always =>
    assert (entered.length ≤ PASSPHRASE_MAX_LEN)
    return entered

def keychainSetConfirmExportBlindingKey (confirmExport : Bool) : KeychainM PUnit :=
  modifyRam fun r => { r with keyFlags :=
    if confirmExport then r.keyFlags ||| KEY_FLAGS_CONFIRM_EXPORT_BLINDING_KEY
    else r.keyFlags &&& ~~~KEY_FLAGS_CONFIRM_EXPORT_BLINDING_KEY }

/-! ### Deriving the keys -/

/-- `wallet_calculate_gaservice_path`. -/
def walletCalculateGaservicePath (P : KeyPrims) (rootKey : ExtKey) :
    KeychainM (Vector UInt32 GASERVICE_PATH_LEN) := do
  match P.bip32KeyFromParentPath rootKey [GA_PATH_ROOT] with
  | some derived =>
    let serialized := P.hmacSha512 GA_KEY_MSG (derived.chainCode ++ derived.pubKey)
    return walletUnserializeGaservicePath serialized
  | none => throw .assert

def keychainDeriveFromSeed (P : KeyPrims) (seed : Bytes) : KeychainM Keychain := do
  assert (0 < seed.length)
  assert (seed.length ≤ BIP32_ENTROPY_LEN_512)
  match P.bip32KeyFromSeed seed BIP32_VER_MAIN_PRIVATE with
  | none => throw .assert
  | some xpriv =>
    match P.wallyAssetBlindingKeyFromSeed seed with
    | none => throw .assert
    | some masterUnblindingKey =>
      let gaservicePath ← walletCalculateGaservicePath P xpriv
      return { gaservicePath, masterUnblindingKey, seed, xpriv }

def keychainDeriveFromMnemonic (P : KeyPrims) (mnemonic : Bytes) (passphrase : Option Bytes) :
    KeychainM (Option Keychain) := do
  if passphrase.any (·.length > PASSPHRASE_MAX_LEN) then
    return none
  if !P.bip39MnemonicValidate mnemonic then
    return none
  match P.bip39MnemonicToSeed mnemonic passphrase with
  | none => throw .assert
  | some seed =>
    assert (seed.length = BIP32_ENTROPY_LEN_512)
    return some (← keychainDeriveFromSeed P seed)

def keychainRequiresPassphrase : KeychainM Bool := do
  let r ← getRam
  return r.keychainData.isNone && r.mnemonicEntropy ≠ []

def keychainCompleteDerivationWithPassphrase (P : KeyPrims) (passphrase : Bytes) :
    KeychainM Bool := do
  if !(← keychainRequiresPassphrase) then
    return false
  match P.bip39MnemonicFromBytes (← getRam).mnemonicEntropy with
  | none => return false
  | some mnemonic =>
    match ← keychainDeriveFromMnemonic P mnemonic (some passphrase) with
    | some keydata =>
      keychainSet keydata 0 false
      return true
    | none => return false

/-! ### Setting up a wallet -/

def deriveKeychain (P : KeyPrims) (temporaryRestore : Bool) (mnemonic entered : Bytes) :
    KeychainM Bool := do
  let passphrase ← getPassphrase entered
  assert (passphrase.length ≤ PASSPHRASE_MAX_LEN)
  match ← keychainDeriveFromMnemonic P mnemonic (some passphrase) with
  | none => return false
  | some keydata =>
    keychainSet keydata 0 temporaryRestore
    keychainClearNetworkTypeRestriction
    return true

/-- `initialise_with_mnemonic`.  The mnemonic is `none` when the user gives up; whether there is a
wallet afterwards is for the caller to see. -/
def initialiseWithMnemonic (P : KeyPrims) (temporaryRestore : Bool) (mnemonic : Option Bytes)
    (advancedMode : Bool) (entered : Bytes) : KeychainM PUnit := do
  assert (← getRam).keychainData.isNone
  assert (temporaryRestore || !(← keychainHasPin))
  match mnemonic with
  | none => return
  | some mnemonic =>
    if !P.bip39MnemonicValidate mnemonic then
      return
    keychainSetConfirmExportBlindingKey advancedMode
    if !(← deriveKeychain P temporaryRestore mnemonic entered) then
      return
    if !temporaryRestore then
      keychainCacheMnemonicEntropy P.toPrims mnemonic

/-! ### Deriving uses the two texts alone -/

theorem silent_assert (c : Bool) : Silent (assert c : KeychainM Unit) := Silent.check c Stop.assert

theorem silent_walletCalculateGaservicePath (P : KeyPrims) (rootKey : ExtKey) :
    Silent (walletCalculateGaservicePath P rootKey) := by
  unfold walletCalculateGaservicePath
  cases P.bip32KeyFromParentPath rootKey [GA_PATH_ROOT] with
  | none => exact Silent.throw _
  | some derived => exact Silent.pure _

theorem silent_keychainDeriveFromSeed (P : KeyPrims) (seed : Bytes) :
    Silent (keychainDeriveFromSeed P seed) := by
  refine Silent.bind (silent_assert _) fun _ => Silent.bind (silent_assert _) fun _ => ?_
  cases P.bip32KeyFromSeed seed BIP32_VER_MAIN_PRIVATE with
  | none => exact Silent.throw _
  | some xpriv =>
      dsimp only
      cases P.wallyAssetBlindingKeyFromSeed seed with
      | none => exact Silent.throw _
      | some masterUnblindingKey =>
          exact Silent.bind (silent_walletCalculateGaservicePath P xpriv) fun _ => Silent.pure _

/-- Two derivations from the same texts give the same keys, whatever happened in between. -/
theorem silent_keychainDeriveFromMnemonic (P : KeyPrims) (mnemonic : Bytes)
    (passphrase : Option Bytes) : Silent (keychainDeriveFromMnemonic P mnemonic passphrase) := by
  refine Silent.ite (Silent.pure _) (Silent.ite (Silent.pure _) ?_)
  cases P.bip39MnemonicToSeed mnemonic passphrase with
  | none => exact Silent.throw _
  | some seed =>
      exact Silent.bind (silent_assert _) fun _ =>
        Silent.bind (silent_keychainDeriveFromSeed P seed) fun _ => Silent.pure _

end Jade
