/-
**The keychain: the wallet in memory, and its encrypted copy in flash.**

The keychain module holds the wallet of the current session in volatile memory and keeps an
encrypted copy of it in flash.  The copy is encrypted under a key that only the right PIN yields,
and authenticated under the same key, so that decrypting it is testing a PIN.

The primitives (HMAC, AES-CBC, the BIP32 and BIP39 encodings) are parameters, collected in
`Jade.Prims`; the random initialisation vector is an argument of the functions that draw one.
A blob that is tested against a key leaves an event in the log.

Main definitions:

* `Jade.Keychain`, `Jade.Ram` — the wallet, and the variables of `keychain.c`;
* `Jade.getDecryptedPayload`, `Jade.keychainLoadAndDecryptBlob` — one attempt at the PIN;
* `Jade.keychainStore`, `Jade.keychainLoad`, `Jade.keychainReencrypt`,
  `Jade.keychainEraseEncrypted`, `Jade.keychainInitCache` — the operations of the module.
-/

import Jade.Keychain.Storage
import Mathlib.Data.Vector.Basic

set_option relaxedAutoImplicit false
set_option autoImplicit false

namespace Jade

open Exec Flash

/-! ### Sizes -/

def AES_KEY_LEN_256 : ℕ := 32
def AES_BLOCK_LEN : ℕ := 16
def HMAC_SHA256_LEN : ℕ := 32
def HMAC_SHA512_LEN : ℕ := 64
def BIP32_SERIALIZED_LEN : ℕ := 78
def GASERVICE_PATH_LEN : ℕ := HMAC_SHA512_LEN / 2
def BIP39_ENTROPY_LEN_128 : ℕ := 16
def BIP39_ENTROPY_LEN_256 : ℕ := 32

/-- Extended key, Green service path and master unblinding key. -/
def SERIALIZED_KEY_LEN : ℕ := BIP32_SERIALIZED_LEN + HMAC_SHA512_LEN + HMAC_SHA512_LEN

/-- An exact multiple of the block length is rounded up to the next multiple. -/
def aesPaddedLen (len : ℕ) : ℕ := (len / AES_BLOCK_LEN + 1) * AES_BLOCK_LEN

/-- Initialisation vector and padded payload. -/
def aesEncryptedLen (len : ℕ) : ℕ := AES_BLOCK_LEN + aesPaddedLen len

def encryptedDataLen (len : ℕ) : ℕ := aesEncryptedLen len + HMAC_SHA256_LEN

/-! ### The wallet in memory -/

/-- `network_type_t`, as the four bytes of the enumeration in flash; `other` stands for bytes that
are none of the three values. -/
inductive NetworkType
  | none
  | main
  | test
  | other (raw : Bytes)
  deriving DecidableEq, Repr

def NetworkType.toBytes : NetworkType → Bytes
  | .none => [0, 0, 0, 0]
  | .main => [1, 0, 0, 0]
  | .test => [2, 0, 0, 0]
  | .other raw => raw

def NetworkType.ofBytes (raw : Bytes) : NetworkType :=
  if raw = [0, 0, 0, 0] then .none
  else if raw = [1, 0, 0, 0] then .main
  else if raw = [2, 0, 0, 0] then .test
  else .other raw

/-- `struct ext_key`. -/
structure ExtKey where
  chainCode : Bytes
  parent160 : Bytes
  depth : UInt8
  privKey : Bytes
  childNum : UInt32
  hash160 : Bytes
  version : UInt32
  pubKey : Bytes
  deriving DecidableEq, Repr

/-- `keychain_t`, without the cached service keys, which are recomputed from it. -/
structure Keychain where
  gaservicePath : Vector UInt32 GASERVICE_PATH_LEN
  masterUnblindingKey : Vector UInt8 HMAC_SHA512_LEN
  seed : Bytes
  xpriv : ExtKey
  deriving DecidableEq

/-- The variables of `keychain.c`. -/
structure Ram where
  keychainData : Option Keychain
  networkTypeRestriction : NetworkType
  hasEncryptedBlob : Bool
  keychainUserdata : UInt8
  keychainTemporary : Bool
  mnemonicEntropy : Bytes
  keyFlags : UInt8

/-- The variables after a restart, before `keychain_init_cache` has run. -/
def Ram.init : Ram where
  keychainData := none
  networkTypeRestriction := .none
  hasEncryptedBlob := false
  keychainUserdata := 0
  keychainTemporary := false
  mnemonicEntropy := []
  keyFlags := 0

/-- An event of the log: an encrypted wallet was tested against a key, the right one or a wrong
one. -/
structure PinTest where
  blob : Bytes
  ok : Bool
  deriving DecidableEq, Repr

abbrev KeychainM (α : Type) : Type := Prog NvsKey Ram PinTest α

/-- The primitives of the libraries the keychain is built on. -/
structure Prims where
  /-- `wally_hmac_sha256`: key, message. -/
  hmacSha256 : Bytes → Bytes → Bytes
  /-- `wally_aes_cbc` with `AES_FLAG_ENCRYPT`: key, initialisation vector, cleartext. -/
  aesCbcEncrypt : Bytes → Bytes → Bytes → Bytes
  /-- `wally_aes_cbc` with `AES_FLAG_DECRYPT`: fails on bad padding. -/
  aesCbcDecrypt : Bytes → Bytes → Bytes → Option Bytes
  /-- `bip32_key_serialize` with `BIP32_FLAG_KEY_PRIVATE`. -/
  bip32KeySerialize : ExtKey → Bytes
  /-- `bip32_key_unserialize`. -/
  bip32KeyUnserialize : Bytes → Option ExtKey
  /-- `bip39_mnemonic_to_bytes`, with the default word list. -/
  bip39MnemonicToBytes : Bytes → Option Bytes

/-! ### Flags and the network restriction -/

/-- `storage_get_key_flags`. -/
def storageGetKeyFlags : KeychainM UInt8 := do
  match ← readBlobFixed .keyflags 1 with
  | some v => return v.headD 0
  | none => return 0

/-- `storage_get_network_type_restriction`. -/
def storageGetNetworkTypeRestriction : KeychainM NetworkType := do
  match ← readBlobFixed .networktype 4 with
  | some v => return .ofBytes v
  | none => return .none

/-- `storage_set_network_type_restriction`. -/
def storageSetNetworkTypeRestriction (networktype : NetworkType) : KeychainM Bool :=
  storeBlob .networktype networktype.toBytes

def keychainHasPin : KeychainM Bool := do
  return (← getRam).hasEncryptedBlob

def keychainHasTemporary : KeychainM Bool := do
  let r ← getRam
  assert (!r.keychainTemporary || r.keychainData.isSome)
  return r.keychainTemporary

def keychainPinAttemptsRemaining : KeychainM UInt8 := storageGetCounter

def keychainClearNetworkTypeRestriction : KeychainM PUnit := do
  if !(← keychainHasTemporary) then
    let _ ← storageSetNetworkTypeRestriction .none
  modifyRam fun r => { r with networkTypeRestriction := .none }

def keychainIsNetworkTypeConsistent (networkType : NetworkType) : KeychainM Bool := do
  let r ← getRam
  return r.networkTypeRestriction = .none || networkType = r.networkTypeRestriction

def keychainSetNetworkTypeRestriction (networkType : NetworkType) : KeychainM PUnit := do
  assert (← keychainIsNetworkTypeConsistent networkType)
  if (← getRam).networkTypeRestriction = .none then
    if (← keychainHasPin) && !(← keychainHasTemporary) then
      let _ ← storageSetNetworkTypeRestriction networkType
    if (← getRam).keychainData.isSome then
      modifyRam fun r => { r with networkTypeRestriction := networkType }

/-! ### Setting and clearing the wallet of the session -/

def keychainClear : KeychainM PUnit := do
  let flags ← storageGetKeyFlags
  modifyRam fun r => { r with
    keychainData := none
    mnemonicEntropy := []
    keyFlags := flags
    keychainUserdata := 0
    keychainTemporary := false }

/-- `keychain_set`.  Setting the wallet that is already held skips `keychain_clear`, whose effects
the rest of the function overwrites. -/
def keychainSet (src : Keychain) (userdata : UInt8) (temporary : Bool) : KeychainM PUnit := do
  let flags ← storageGetKeyFlags
  modifyRam fun r => { r with
    keychainData := some src
    mnemonicEntropy := []
    keyFlags := flags
    keychainUserdata := userdata
    keychainTemporary := temporary }

def keychainSetTemporary : KeychainM PUnit := do
  let r ← getRam
  assert r.keychainData.isSome
  assert (r.mnemonicEntropy ≠ [])
  assert (!r.keychainTemporary)
  assert (!(← keychainHasPin))
  modifyRam fun r => { r with keychainTemporary := true }

def keychainCacheMnemonicEntropy (P : Prims) (mnemonic : Bytes) : KeychainM PUnit := do
  let r ← getRam
  assert (!r.keychainTemporary)
  assert (r.mnemonicEntropy = [])
  match P.bip39MnemonicToBytes mnemonic with
  | some entropy =>
    assert (entropy.length = BIP39_ENTROPY_LEN_128 || entropy.length = BIP39_ENTROPY_LEN_256)
    modifyRam fun r => { r with mnemonicEntropy := entropy }
  | none => assert false

/-! ### The serialised wallet -/

/-- `wallet_serialize_gaservice_path`: two bytes an element, which must not need more. -/
def walletSerializeGaservicePath (path : Vector UInt32 GASERVICE_PATH_LEN) : KeychainM Bytes := do
  assert (path.all (· &&& 0xFFFF0000 = 0))
  return path.toList.flatMap fun e : UInt32 => [(e >>> 8).toUInt8, (e &&& 0xFF).toUInt8]

/-- `wallet_unserialize_gaservice_path`. -/
def walletUnserializeGaservicePath (serialized : Bytes) : Vector UInt32 GASERVICE_PATH_LEN :=
  Vector.ofFn fun i =>
    ((serialized.getD (2 * i) 0).toUInt32 <<< 8) + (serialized.getD (2 * i + 1) 0).toUInt32

def serialize (P : Prims) (keydata : Keychain) : KeychainM Bytes := do
  let path ← walletSerializeGaservicePath keydata.gaservicePath
  return P.bip32KeySerialize keydata.xpriv ++ path ++ keydata.masterUnblindingKey.toList

def unserialize (P : Prims) (decrypted : Bytes) : KeychainM Keychain := do
  assert (decrypted.length = SERIALIZED_KEY_LEN)
  match P.bip32KeyUnserialize (decrypted.take BIP32_SERIALIZED_LEN) with
  | some xpriv =>
    return {
      gaservicePath := walletUnserializeGaservicePath
        ((decrypted.drop BIP32_SERIALIZED_LEN).take HMAC_SHA512_LEN)
      masterUnblindingKey := Vector.ofFn fun i =>
        decrypted.getD (BIP32_SERIALIZED_LEN + HMAC_SHA512_LEN + i) 0
      seed := []
      xpriv := xpriv }
  | none => throw .assert

/-! ### Encryption -/

/-- An initialisation vector. -/
abbrev Iv : Type := Vector UInt8 AES_BLOCK_LEN

/-- `aes_encrypt_bytes`: the initialisation vector, then the encrypted payload. -/
def aesEncryptBytes (P : Prims) (aeskey : Bytes) (iv : Iv) (bytes : Bytes) : KeychainM Bytes := do
  assert (aeskey.length = AES_KEY_LEN_256)
  assert (bytes ≠ [])
  let payload := P.aesCbcEncrypt aeskey iv.toList bytes
  assert (payload.length = aesPaddedLen bytes.length)
  return iv.toList ++ payload

/-- `aes_decrypt_bytes`, into a buffer of `outputLen` bytes. -/
def aesDecryptBytes (P : Prims) (aeskey bytes : Bytes) (outputLen : ℕ) :
    KeychainM (Option Bytes) := do
  assert (aeskey.length = AES_KEY_LEN_256)
  assert (AES_BLOCK_LEN < bytes.length)
  assert (0 < outputLen)
  let payloadLen := bytes.length - AES_BLOCK_LEN
  assert (payloadLen % AES_BLOCK_LEN = 0)
  assert (payloadLen ≤ aesPaddedLen outputLen)
  match P.aesCbcDecrypt aeskey (bytes.take AES_BLOCK_LEN) (bytes.drop AES_BLOCK_LEN) with
  | some output => return if output.length ≤ outputLen then some output else none
  | none => return none

/-- `get_encrypted_blob`: encrypt, then authenticate. -/
def getEncryptedBlob (P : Prims) (aeskey : Bytes) (iv : Iv) (bytes : Bytes) :
    KeychainM Bytes := do
  let output ← aesEncryptBytes P aeskey iv bytes
  return output ++ P.hmacSha256 aeskey output

/-- `get_decrypted_payload`.  Comparing the authentication code is testing the key, so both ways
of failing count as a test with a wrong key. -/
def getDecryptedPayload (P : Prims) (aeskey bytes : Bytes) (outputLen : ℕ) :
    KeychainM (Option Bytes) := do
  assert (HMAC_SHA256_LEN < bytes.length)
  let body := bytes.take (bytes.length - HMAC_SHA256_LEN)
  if P.hmacSha256 aeskey body ≠ bytes.drop (bytes.length - HMAC_SHA256_LEN) then
    note ⟨bytes, false⟩
    return none
  match ← aesDecryptBytes P aeskey body outputLen with
  | some output =>
    note ⟨bytes, true⟩
    return some output
  | none =>
    note ⟨bytes, false⟩
    return none

/-! ### Storing and loading the encrypted wallet -/

def keychainEncryptAndSaveBlob (P : Prims) (aeskey : Bytes) (iv : Iv) (cleartext : Bytes) :
    KeychainM Bool := do
  if aeskey.length ≠ AES_KEY_LEN_256 then
    return false
  if cleartext.length > SERIALIZED_KEY_LEN then
    return false
  let encrypted ← getEncryptedBlob P aeskey iv cleartext
  storageSetEncryptedBlob encrypted

def keychainEraseEncrypted : KeychainM PUnit := do
  let _ ← storageEraseEncryptedBlob
  keychainClearNetworkTypeRestriction
  modifyRam fun r => { r with hasEncryptedBlob := false }

/-- `keychain_load_and_decrypt_blob`: one attempt, paid for before the blob is read. -/
def keychainLoadAndDecryptBlob (P : Prims) (aeskey : Bytes) (blobLen : ℕ) :
    KeychainM (Option Bytes) := do
  if aeskey.length ≠ AES_KEY_LEN_256 ∨ blobLen < aesPaddedLen SERIALIZED_KEY_LEN then
    return none
  if !(← keychainHasPin) then
    return none
  if !(← storageDecrementCounter) then
    return none
  match ← storageGetEncryptedBlob (encryptedDataLen SERIALIZED_KEY_LEN) with
  | none =>
    let _ ← storageEraseEncryptedBlob
    modifyRam fun r => { r with hasEncryptedBlob := false }
    return none
  | some encrypted =>
    match ← getDecryptedPayload P aeskey encrypted blobLen with
    | none =>
      if (← keychainPinAttemptsRemaining) = 0 then
        keychainEraseEncrypted
      return none
    | some payload =>
      -- a refused restore is ignored: the attempt stays paid for
      let _ ← storageRestoreCounter
      return some payload

def keychainStore (P : Prims) (aeskey : Bytes) (iv : Iv) : KeychainM Bool := do
  if aeskey.length ≠ AES_KEY_LEN_256 then
    return false
  let r ← getRam
  if r.keychainData.isNone && r.mnemonicEntropy = [] then
    return false
  let cleartext ←
    if r.mnemonicEntropy ≠ [] then do
      assert (r.mnemonicEntropy.length = BIP39_ENTROPY_LEN_128 ||
        r.mnemonicEntropy.length = BIP39_ENTROPY_LEN_256)
      pure r.mnemonicEntropy
    else
      match r.keychainData with
      | some keydata => serialize P keydata
      | none => throw .assert
  if ← keychainEncryptAndSaveBlob P aeskey iv cleartext then
    keychainClearNetworkTypeRestriction
    modifyRam fun r => { r with hasEncryptedBlob := true }
    return true
  else
    return false

def keychainLoad (P : Prims) (aeskey : Bytes) : KeychainM Bool := do
  if aeskey.length ≠ AES_KEY_LEN_256 then
    return false
  let r ← getRam
  if r.keychainData.isSome || r.mnemonicEntropy ≠ [] then
    return false
  if !(← keychainHasPin) then
    return false
  match ← keychainLoadAndDecryptBlob P aeskey (aesPaddedLen SERIALIZED_KEY_LEN) with
  | none => return false
  | some serialized =>
    if serialized.length = BIP39_ENTROPY_LEN_128 || serialized.length = BIP39_ENTROPY_LEN_256 then
      modifyRam fun r => { r with mnemonicEntropy := serialized }
      return true
    else if serialized.length = SERIALIZED_KEY_LEN then
      let keydata ← unserialize P serialized
      keychainSet keydata 0 false
      return true
    else
      return false

def keychainReencrypt (P : Prims) (currAeskey newAeskey : Bytes) (iv : Iv) :
    KeychainM Bool := do
  if currAeskey.length ≠ AES_KEY_LEN_256 ∨ newAeskey.length ≠ AES_KEY_LEN_256 then
    return false
  if !(← keychainHasPin) then
    return false
  match ← keychainLoadAndDecryptBlob P currAeskey (aesPaddedLen SERIALIZED_KEY_LEN) with
  | none => return false
  | some serialized => keychainEncryptAndSaveBlob P newAeskey iv serialized

/-- `keychain_init_cache`, which runs at boot: the wallet is there if attempts are left. -/
def keychainInitCache : KeychainM Unit := do
  let restriction ← storageGetNetworkTypeRestriction
  modifyRam fun r => { r with networkTypeRestriction := restriction }
  let attempts ← keychainPinAttemptsRemaining
  modifyRam fun r => { r with hasEncryptedBlob := attempts > 0 }
  let flags ← storageGetKeyFlags
  modifyRam fun r => { r with keyFlags := flags }

/-! ### What reading returns -/

/-- The restriction the flash records. -/
def restrictionOf (st : Store NvsKey) : NetworkType :=
  (((st .networktype).filter (·.length = 4)).map NetworkType.ofBytes).getD .none

/-- The key flags the flash records. -/
def keyFlagsOf (st : Store NvsKey) : UInt8 :=
  (((st .keyflags).filter (·.length = 1)).map (·.headD 0)).getD 0

section Rules

variable {E : Stop → Dev NvsKey Ram PinTest → Prop} {d : Dev NvsKey Ram PinTest}

@[simp] theorem sat_storageGetNetworkTypeRestriction
    {Q : NetworkType → Dev NvsKey Ram PinTest → Prop} :
    Sat storageGetNetworkTypeRestriction Q E d ↔ Q (restrictionOf d.store) d := by
  rw [storageGetNetworkTypeRestriction, sat_bind,
    sat_readBlobFixed NvsKey.networktype (show 0 < 4 by decide), restrictionOf]
  cases (d.store .networktype).filter (·.length = 4) <;> simp

@[simp] theorem sat_storageGetKeyFlags {Q : UInt8 → Dev NvsKey Ram PinTest → Prop} :
    Sat storageGetKeyFlags Q E d ↔ Q (keyFlagsOf d.store) d := by
  rw [storageGetKeyFlags, sat_bind,
    sat_readBlobFixed NvsKey.keyflags (show 0 < 1 by decide), keyFlagsOf]
  cases (d.store .keyflags).filter (·.length = 1) <;> simp

/-- What the boot code leaves in memory; it always gets to its end. -/
@[simp] theorem sat_keychainInitCache {Q : Unit → Dev NvsKey Ram PinTest → Prop} :
    Sat keychainInitCache Q E d ↔ Q () { d with ram := { d.ram with
      networkTypeRestriction := restrictionOf d.store
      hasEncryptedBlob := decide (counterOf d.store > 0)
      keyFlags := keyFlagsOf d.store } } := by
  simp only [keychainInitCache, keychainPinAttemptsRemaining, sat_bind, sat_modifyRam,
    sat_storageGetNetworkTypeRestriction, sat_storageGetCounter, sat_storageGetKeyFlags]

end Rules

/-! ### Predicates that survive -/

section Keeps

variable {I : Dev NvsKey Ram PinTest → Prop}

theorem keeps_readBlobFixed (k : NvsKey) (len : ℕ) : Keeps I (readBlobFixed k len) := by
  refine Keeps.bind (Keeps.bind (keeps_assert _) fun _ => Keeps.bind (keeps_read k) ?_) ?_
  all_goals
    intro v
    cases v <;> exact Keeps.pure _

theorem keeps_storageGetKeyFlags : Keeps I storageGetKeyFlags := by
  refine Keeps.bind (keeps_readBlobFixed _ _) fun v => ?_
  cases v <;> exact Keeps.pure _

theorem keeps_keychainHasTemporary : Keeps I keychainHasTemporary :=
  Keeps.bind keeps_getRam fun _ => Keeps.bind (keeps_assert _) fun _ => Keeps.pure _

/-- The predicate depends neither on the restriction in flash nor on anything in memory but the flag
for the PIN. -/
structure Frame (I : Dev NvsKey Ram PinTest → Prop) : Prop where
  commit : ∀ v, Keeps I (commit .networktype v)
  modifyRam : ∀ f : Ram → Ram, (∀ r, (f r).hasEncryptedBlob = r.hasEncryptedBlob) →
    Keeps I (modifyRam f)

namespace Frame

/-- A predicate of the other records of the flash. -/
theorem of_store {J : Store NvsKey → Prop}
    (hJ : ∀ st v, J st → J (Function.update st .networktype v)) :
    Frame fun d : Dev NvsKey Ram PinTest => J d.store where
  modifyRam _ _ := fun _ hd => (sat_modifyRam _).2 hd
  commit v _ hd := (sat_commit _ v).2
    ⟨fun _ => hJ _ _ hd, fun _ => hd, fun _ => hd, fun _ => hJ _ _ hd⟩

theorem storageSetNetworkTypeRestriction (hI : Frame I) (t : NetworkType) :
    Keeps I (storageSetNetworkTypeRestriction t) :=
  Keeps.bind (keeps_assert _) fun _ => hI.commit _

theorem keychainClearNetworkTypeRestriction (hI : Frame I) :
    Keeps I keychainClearNetworkTypeRestriction := by
  have hram : Keeps I (Flash.modifyRam fun r => { r with networkTypeRestriction := .none }) :=
    hI.modifyRam _ fun _ => rfl
  refine Keeps.bind keeps_keychainHasTemporary fun _ => Keeps.ite ?_ hram
  exact Keeps.bind (hI.storageSetNetworkTypeRestriction _) fun _ => hram

theorem keychainSetNetworkTypeRestriction (hI : Frame I) (t : NetworkType) :
    Keeps I (keychainSetNetworkTypeRestriction t) := by
  refine Keeps.bind (Keeps.bind keeps_getRam fun _ => Keeps.pure _) fun _ => ?_
  refine Keeps.bind (keeps_assert _) fun _ => Keeps.bind keeps_getRam fun _ => ?_
  have hset : Keeps I (do
      if (← getRam).keychainData.isSome then
        Flash.modifyRam fun r => { r with networkTypeRestriction := t } : KeychainM PUnit) :=
    Keeps.bind keeps_getRam fun _ => Keeps.ite (hI.modifyRam _ fun _ => rfl) (Keeps.pure _)
  refine Keeps.ite (Keeps.bind (Keeps.bind keeps_getRam fun _ => Keeps.pure _) fun _ => ?_)
    (Keeps.pure _)
  refine Keeps.bind keeps_keychainHasTemporary fun _ => Keeps.ite ?_ hset
  exact Keeps.bind (hI.storageSetNetworkTypeRestriction _) fun _ => hset

theorem keychainSet (hI : Frame I) (src : Keychain) (userdata : UInt8) (temporary : Bool) :
    Keeps I (keychainSet src userdata temporary) :=
  Keeps.bind keeps_storageGetKeyFlags fun _ => hI.modifyRam _ fun _ => rfl

theorem keychainClear (hI : Frame I) : Keeps I keychainClear :=
  Keeps.bind keeps_storageGetKeyFlags fun _ => hI.modifyRam _ fun _ => rfl

theorem keychainSetTemporary (hI : Frame I) : Keeps I keychainSetTemporary := by
  refine Keeps.bind keeps_getRam fun _ => Keeps.bind (keeps_assert _) fun _ => ?_
  refine Keeps.bind (keeps_assert _) fun _ => Keeps.bind (keeps_assert _) fun _ => ?_
  refine Keeps.bind (Keeps.bind keeps_getRam fun _ => Keeps.pure _) fun _ => ?_
  exact Keeps.bind (keeps_assert _) fun _ => hI.modifyRam _ fun _ => rfl

theorem keychainCacheMnemonicEntropy (hI : Frame I) (P : Prims) (mnemonic : Bytes) :
    Keeps I (keychainCacheMnemonicEntropy P mnemonic) := by
  refine Keeps.bind keeps_getRam fun _ => Keeps.bind (keeps_assert _) fun _ => ?_
  refine Keeps.bind (keeps_assert _) fun _ => ?_
  cases P.bip39MnemonicToBytes mnemonic with
  | none => exact keeps_assert _
  | some entropy => exact Keeps.bind (keeps_assert _) fun _ => hI.modifyRam _ fun _ => rfl

end Frame

end Keeps

end Jade
