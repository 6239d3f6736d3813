/-
**Storing the wallet and loading it back.**

The wallet in flash is either the entropy of a mnemonic or a serialised key, encrypted and then
authenticated under a key that the PIN yields; which of the two it is, is told by the length of the
decrypted payload alone.  Storing and loading are inverse to each other, re-encrypting changes the
key and not the wallet, and what is not a serialised wallet under the key that is tried leaves the
device without one.

Two pure functions say what the flash is worth under a key: `Jade.decrypted` authenticates and
decrypts a blob, and `Jade.parsed` reads a payload.  The operations are described by them.

Main definitions:

* `Jade.Payload`, `Jade.Ram.payload` — the wallet worth storing;
* `Jade.decrypted`, `Jade.parsed`, `Jade.loads` — what the flash holds under a key;
* `Jade.KeyPrims.Lawful` — the primitives encrypt, then authenticate, and the encodings are
  encodings;
* `Jade.Locked` — the device after a logout or a restart.

Main results:

* `Jade.parsed_encode`, `Jade.decrypted_encryptedBlob` — the two formats round trip;
* `Jade.sat_keychainLoad_loads` — loading yields what the flash holds;
* `Jade.sat_keychainStore_loads`, `Jade.sat_keychainReencrypt_loads` — what is in flash afterwards;
* `Jade.store_load_roundTrip` — **storing and loading are inverse to each other**.
-/

import Jade.Keychain.Derive
import Jade.Keychain.HasPin

set_option relaxedAutoImplicit false
set_option autoImplicit false

namespace Jade

open Exec Flash Run

/-! ### The wallet worth storing -/

/-- What of a wallet is stored: the entropy of its mnemonic, or its keys. -/
inductive Payload
  | entropy (e : Bytes)
  | keys (xpriv : ExtKey) (gaservicePath : Vector UInt32 GASERVICE_PATH_LEN)
      (masterUnblindingKey : Vector UInt8 HMAC_SHA512_LEN)
  deriving DecidableEq

/-- The wallet in memory; cached entropy comes before the keys. -/
def Ram.payload (r : Ram) : Option Payload :=
  if r.mnemonicEntropy ≠ [] then some (.entropy r.mnemonicEntropy)
  else r.keychainData.map fun k => .keys k.xpriv k.gaservicePath k.masterUnblindingKey

/-- The memory holds this wallet and nothing else. -/
def Ram.Holds (r : Ram) : Option Payload → Prop
  | none => r.keychainData = none ∧ r.mnemonicEntropy = []
  | some (.entropy e) => r.keychainData = none ∧ r.mnemonicEntropy = e
  | some (.keys xpriv path masterUnblindingKey) =>
      r.mnemonicEntropy = [] ∧ ∃ k, r.keychainData = some k ∧ k.xpriv = xpriv ∧
        k.gaservicePath = path ∧ k.masterUnblindingKey = masterUnblindingKey

/-- Two bytes an element. -/
def gaservicePathBytes (path : Vector UInt32 GASERVICE_PATH_LEN) : Bytes :=
  path.toList.flatMap fun e : UInt32 => [(e >>> 8).toUInt8, (e &&& 0xFF).toUInt8]

/-- The bytes that are encrypted. -/
def Payload.encode (P : Prims) : Payload → Bytes
  | .entropy e => e
  | .keys xpriv path masterUnblindingKey =>
      P.bip32KeySerialize xpriv ++ gaservicePathBytes path ++ masterUnblindingKey.toList

/-- Reading a decrypted payload: its length says what it is. -/
def parsed (P : Prims) (serialized : Bytes) : Option Payload :=
  if serialized.length = BIP39_ENTROPY_LEN_128 || serialized.length = BIP39_ENTROPY_LEN_256 then
    some (.entropy serialized)
  else if serialized.length = SERIALIZED_KEY_LEN then
    (P.bip32KeyUnserialize (serialized.take BIP32_SERIALIZED_LEN)).map fun xpriv =>
      .keys xpriv
        (walletUnserializeGaservicePath
          ((serialized.drop BIP32_SERIALIZED_LEN).take HMAC_SHA512_LEN))
        (Vector.ofFn fun i => serialized.getD (BIP32_SERIALIZED_LEN + HMAC_SHA512_LEN + i) 0)
  else none

/-- The payload of a blob: its code is checked before it is decrypted. -/
def decrypted (P : Prims) (aeskey bytes : Bytes) : Option Bytes :=
  if opens P aeskey bytes (aesPaddedLen SERIALIZED_KEY_LEN) then
    let body := bytes.take (bytes.length - HMAC_SHA256_LEN)
    P.aesCbcDecrypt aeskey (body.take AES_BLOCK_LEN) (body.drop AES_BLOCK_LEN)
  else none

/-- The payload the flash holds under a key. -/
def storedPayload (P : Prims) (aeskey : Bytes) (st : Store NvsKey) : Option Bytes :=
  (fitting st .blob (encryptedDataLen SERIALIZED_KEY_LEN)).bind (decrypted P aeskey)

/-- **The wallet the flash holds under a key.** -/
def loads (P : Prims) (aeskey : Bytes) (st : Store NvsKey) : Option Payload :=
  (storedPayload P aeskey st).bind (parsed P)

/-! ### The primitives -/

/-- The primitives do what they are for: decrypting undoes encrypting, authentication codes have
their length and belong to one key, the encoding of a key has its length, and the entropy of a
mnemonic stands for it. -/
structure KeyPrims.Lawful (P : KeyPrims) : Prop where
  hmac_length : ∀ key m, key.length = AES_KEY_LEN_256 →
    (P.hmacSha256 key m).length = HMAC_SHA256_LEN
  hmac_key : ∀ key key' m, key.length = AES_KEY_LEN_256 → key'.length = AES_KEY_LEN_256 →
    P.hmacSha256 key m = P.hmacSha256 key' m → key = key'
  decrypt_encrypt : ∀ key (iv : Iv) m, key.length = AES_KEY_LEN_256 →
    P.aesCbcDecrypt key iv.toList (P.aesCbcEncrypt key iv.toList m) = some m
  encrypt_length : ∀ key (iv : Iv) m, key.length = AES_KEY_LEN_256 →
    (P.aesCbcEncrypt key iv.toList m).length = aesPaddedLen m.length
  serialize_length : ∀ k, (P.bip32KeySerialize k).length = BIP32_SERIALIZED_LEN
  fromBytes_toBytes : ∀ mnemonic e, P.bip39MnemonicToBytes mnemonic = some e →
    P.bip39MnemonicFromBytes e = some mnemonic

/-! ### The two formats -/

/-- Two bytes and back. -/
theorem joinHalves {e : UInt32} (he : e &&& 0xFFFF0000 = 0) :
    ((e >>> 8).toUInt8.toUInt32 <<< 8) + (e &&& 0xFF).toUInt8.toUInt32 = e := by
  -- the upper half is clear, so the element is below 2 ^ 16
  have hhigh : (e.toNat &&& 0xFFFF0000) >>> 16 = 0 := by
    have := congrArg UInt32.toNat he
    rw [UInt32.toNat_and] at this
    simp only [UInt32.reduceToNat] at this
    rw [this, Nat.zero_shiftRight]
  rw [Nat.shiftRight_and_distrib, Nat.shiftRight_eq_div_pow,
    show (0xFFFF0000 : ℕ) >>> 16 = 2 ^ 16 - 1 by rfl, Nat.and_two_pow_sub_one_eq_mod] at hhigh
  have hlt := e.toNat_lt
  apply UInt32.toNat_inj.1
  simp only [UInt32.toNat_add, UInt32.toNat_shiftLeft, UInt8.toNat_toUInt32, UInt32.toNat_toUInt8,
    UInt32.toNat_shiftRight, UInt32.toNat_and, UInt32.reduceToNat, Nat.shiftLeft_eq,
    Nat.shiftRight_eq_div_pow, Nat.reduceMod, Nat.reducePow]
  rw [show (255 : ℕ) = 2 ^ 8 - 1 by rfl, Nat.and_two_pow_sub_one_eq_mod]
  simp only [Nat.reducePow]
  omega

/-- Bytes written in pairs are read in pairs. -/
theorem getD_flatMap_pair (f g : UInt32 → UInt8) (xs : List UInt32) (i : ℕ) (hi : i < xs.length) :
    (xs.flatMap fun e => [f e, g e]).getD (2 * i) 0 = f xs[i] ∧
      (xs.flatMap fun e => [f e, g e]).getD (2 * i + 1) 0 = g xs[i] := by
  induction xs generalizing i with
  | nil => exact absurd hi (Nat.not_lt_zero i)
  | cons x xs ih =>
      cases i with
      | zero => simp
      | succ i =>
          have hlt : i < xs.length := Nat.lt_of_succ_lt_succ hi
          have h := ih i hlt
          rw [show 2 * (i + 1) = 2 * i + 2 by ring]
          simpa using h

@[simp] theorem gaservicePathBytes_length (path : Vector UInt32 GASERVICE_PATH_LEN) :
    (gaservicePathBytes path).length = HMAC_SHA512_LEN := by
  have hlen : path.toList.length = HMAC_SHA512_LEN / 2 := path.length_toList
  simp [gaservicePathBytes, List.length_flatMap, hlen, HMAC_SHA512_LEN]

/-- The service path survives its encoding. -/
theorem walletUnserialize_gaservicePathBytes {path : Vector UInt32 GASERVICE_PATH_LEN}
    (h : path.all (· &&& 0xFFFF0000 = 0)) :
    walletUnserializeGaservicePath (gaservicePathBytes path) = path := by
  ext i hi
  have hlt : i < path.toList.length := by simpa using hi
  obtain ⟨hfst, hsnd⟩ := getD_flatMap_pair (fun e => (e >>> 8).toUInt8)
    (fun e => (e &&& 0xFF).toUInt8) path.toList i hlt
  have hshort : path[i] &&& 0xFFFF0000 = 0 := by
    simpa using Vector.all_eq_true.1 h i hi
  simp only [walletUnserializeGaservicePath, Vector.getElem_ofFn, gaservicePathBytes]
  rw [hfst, hsnd, Vector.getElem_toList]
  exact congrArg UInt32.toNat (joinHalves hshort)

/-- What of a wallet is stored, as bytes that can be told apart: entropy of one of the two lengths,
or keys that have encodings. -/
def Payload.Storable (P : KeyPrims) : Payload → Prop
  | .entropy e => e.length = BIP39_ENTROPY_LEN_128 ∨ e.length = BIP39_ENTROPY_LEN_256
  | .keys xpriv path _ => P.ValidKey xpriv ∧ path.all (· &&& 0xFFFF0000 = 0)

/-- Only three lengths are read at all. -/
theorem length_of_parsed {P : Prims} {serialized : Bytes} {p : Payload}
    (h : parsed P serialized = some p) : serialized.length = BIP39_ENTROPY_LEN_128 ∨
      serialized.length = BIP39_ENTROPY_LEN_256 ∨ serialized.length = SERIALIZED_KEY_LEN := by
  rw [parsed] at h
  split at h
  · next hlen =>
      simp only [Bool.or_eq_true, decide_eq_true_eq] at hlen
      rcases hlen with hlen | hlen
      · exact .inl hlen
      · exact .inr (.inl hlen)
  · split at h
    · next hlen => exact .inr (.inr hlen)
    · exact absurd h (by simp)

theorem length_encode_keys {P : KeyPrims} (hP : P.Lawful) (xpriv : ExtKey)
    (path : Vector UInt32 GASERVICE_PATH_LEN) (mbk : Vector UInt8 HMAC_SHA512_LEN) :
    ((Payload.keys xpriv path mbk).encode P.toPrims).length = SERIALIZED_KEY_LEN := by
  simp only [Payload.encode, List.length_append, hP.serialize_length, gaservicePathBytes_length,
    Vector.length_toList, SERIALIZED_KEY_LEN]

/-- **A payload is read back as what it was.** -/
theorem parsed_encode {P : KeyPrims} (hP : P.Lawful) {p : Payload} (hp : p.Storable P) :
    parsed P.toPrims (p.encode P.toPrims) = some p := by
  cases p with
  | entropy e =>
      have hlen : e.length = BIP39_ENTROPY_LEN_128 ∨ e.length = BIP39_ENTROPY_LEN_256 := hp
      rw [Payload.encode, parsed, if_pos]
      rw [Bool.or_eq_true, decide_eq_true_eq, decide_eq_true_eq]
      exact hlen
  | keys xpriv path mbk =>
      obtain ⟨hkey, hpath⟩ := hp
      have hlen := length_encode_keys hP xpriv path mbk
      rw [parsed, if_neg (by rw [hlen]; decide), if_pos hlen]
      simp only [Payload.encode] at hlen ⊢
      have hser := hP.serialize_length xpriv
      have htake : (P.bip32KeySerialize xpriv ++ gaservicePathBytes path ++ mbk.toList).take
          BIP32_SERIALIZED_LEN = P.bip32KeySerialize xpriv := by
        rw [List.append_assoc, List.take_left' hser]
      have hmid : ((P.bip32KeySerialize xpriv ++ gaservicePathBytes path ++ mbk.toList).drop
          BIP32_SERIALIZED_LEN).take HMAC_SHA512_LEN = gaservicePathBytes path := by
        rw [List.append_assoc, List.drop_left' hser, List.take_left' (gaservicePathBytes_length path)]
      have hmbk : (Vector.ofFn fun i : Fin HMAC_SHA512_LEN =>
          (P.bip32KeySerialize xpriv ++ gaservicePathBytes path ++ mbk.toList).getD
            (BIP32_SERIALIZED_LEN + HMAC_SHA512_LEN + i) 0) = mbk := by
        ext i hi
        have hpre : (P.bip32KeySerialize xpriv ++ gaservicePathBytes path).length =
            BIP32_SERIALIZED_LEN + HMAC_SHA512_LEN := by
          rw [List.length_append, hser, gaservicePathBytes_length]
        rw [Vector.getElem_ofFn, List.getD_eq_getElem?_getD,
          List.getElem?_append_right (by rw [hpre]; omega), hpre, Nat.add_sub_cancel_left]
        simp [hi]
      rw [htake, hmid, hmbk, walletUnserialize_gaservicePathBytes hpath, hkey]
      rfl

/-! ### Encrypting, then authenticating -/

/-- The blob that stands for a payload. -/
def encryptedBlob (P : Prims) (aeskey : Bytes) (iv : Iv) (cleartext : Bytes) : Bytes :=
  let output := iv.toList ++ P.aesCbcEncrypt aeskey iv.toList cleartext
  output ++ P.hmacSha256 aeskey output

/-- A blob is the output of the cipher, and the last bytes are its code. -/
theorem split_encryptedBlob {P : KeyPrims} (hP : P.Lawful) {aeskey : Bytes}
    (hkey : aeskey.length = AES_KEY_LEN_256) (iv : Iv) (cleartext : Bytes) :
    let bytes := encryptedBlob P.toPrims aeskey iv cleartext
    let output := iv.toList ++ P.aesCbcEncrypt aeskey iv.toList cleartext
    bytes.take (bytes.length - HMAC_SHA256_LEN) = output ∧
      bytes.drop (bytes.length - HMAC_SHA256_LEN) = P.hmacSha256 aeskey output ∧
      bytes.length = output.length + HMAC_SHA256_LEN := by
  intro bytes output
  have hlen : bytes.length = output.length + HMAC_SHA256_LEN := by
    simp only [bytes, encryptedBlob, List.length_append, output, hP.hmac_length aeskey _ hkey]
  have hsub : bytes.length - HMAC_SHA256_LEN = output.length := by omega
  rw [hsub]
  exact ⟨List.take_left' rfl, List.drop_left' rfl, hlen⟩

/-- Under its own key, a blob is worth its payload. -/
theorem decrypted_encryptedBlob {P : KeyPrims} (hP : P.Lawful) {aeskey : Bytes}
    (hkey : aeskey.length = AES_KEY_LEN_256) (iv : Iv) {cleartext : Bytes}
    (hlen : cleartext.length ≤ SERIALIZED_KEY_LEN)
    (hpad : (P.aesCbcEncrypt aeskey iv.toList cleartext).length = aesPaddedLen cleartext.length) :
    decrypted P.toPrims aeskey (encryptedBlob P.toPrims aeskey iv cleartext) = some cleartext := by
  obtain ⟨htake, hdrop, hbytes⟩ := split_encryptedBlob hP hkey iv cleartext
  have hiv : iv.toList.length = AES_BLOCK_LEN := Vector.length_toList
  have hdec : P.aesCbcDecrypt aeskey
      ((iv.toList ++ P.aesCbcEncrypt aeskey iv.toList cleartext).take AES_BLOCK_LEN)
      ((iv.toList ++ P.aesCbcEncrypt aeskey iv.toList cleartext).drop AES_BLOCK_LEN) =
        some cleartext := by
    rw [List.take_left' hiv, List.drop_left' hiv, hP.decrypt_encrypt aeskey iv cleartext hkey]
  have hout : (iv.toList ++ P.aesCbcEncrypt aeskey iv.toList cleartext).length =
      AES_BLOCK_LEN + aesPaddedLen cleartext.length := by
    rw [List.length_append, hiv, hpad]
  have hopens : opens P.toPrims aeskey (encryptedBlob P.toPrims aeskey iv cleartext)
      (aesPaddedLen SERIALIZED_KEY_LEN) = true := by
    have hmod : aesPaddedLen cleartext.length % AES_BLOCK_LEN = 0 := Nat.mul_mod_left _ _
    have hpos : 0 < aesPaddedLen cleartext.length :=
      Nat.mul_pos (Nat.succ_pos _) (by decide)
    have hle : cleartext.length ≤ aesPaddedLen SERIALIZED_KEY_LEN := hlen.trans (by decide)
    simp only [opens]
    rw [htake, hdrop, hdec, hbytes, hout, Nat.add_sub_cancel_left]
    simp only [Option.any_some, Bool.and_eq_true, decide_eq_true_eq, and_true]
    refine ⟨⟨⟨?_, ?_⟩, hmod⟩, hle⟩ <;> omega
  rw [decrypted, if_pos hopens]
  simp only [htake, hdec]

/-- Under any other key, a blob is worth nothing. -/
theorem decrypted_encryptedBlob_of_ne {P : KeyPrims} (hP : P.Lawful) {aeskey aeskey' : Bytes}
    (hkey : aeskey.length = AES_KEY_LEN_256) (hkey' : aeskey'.length = AES_KEY_LEN_256)
    (hne : aeskey' ≠ aeskey) (iv : Iv) (cleartext : Bytes) :
    decrypted P.toPrims aeskey' (encryptedBlob P.toPrims aeskey iv cleartext) = none := by
  obtain ⟨htake, hdrop, -⟩ := split_encryptedBlob hP hkey iv cleartext
  rw [decrypted, if_neg]
  intro hopens
  simp only [opens, htake, hdrop, Bool.and_eq_true, decide_eq_true_eq] at hopens
  exact hne (hP.hmac_key _ _ _ hkey' hkey hopens.1.1.1.2)

/-- The flash holds a payload under a key, under no other key anything, and three attempts. -/
structure Saved (P : KeyPrims) (aeskey cleartext : Bytes) (st : Store NvsKey) : Prop where
  keyLen : aeskey.length = AES_KEY_LEN_256
  counter : counterOf st = 3
  stored : storedPayload P.toPrims aeskey st = some cleartext
  other : ∀ aeskey', aeskey'.length = AES_KEY_LEN_256 → aeskey' ≠ aeskey →
    storedPayload P.toPrims aeskey' st = none

theorem storedPayload_update_of_ne (P : Prims) (aeskey : Bytes) (st : Store NvsKey) {k : NvsKey}
    (hk : k ≠ .blob) (v : Option Bytes) :
    storedPayload P aeskey (Function.update st k v) = storedPayload P aeskey st := by
  rw [storedPayload, fitting, Function.update_of_ne hk.symm]
  rfl

theorem frame_saved (P : KeyPrims) (aeskey cleartext : Bytes) :
    Frame fun d : Dev NvsKey Ram PinTest => Saved P aeskey cleartext d.store := by
  refine Frame.of_store (J := Saved P aeskey cleartext) fun st v h => ⟨h.keyLen, ?_, ?_, ?_⟩
  · exact (counterOf_update_of_ne st (by decide) v).trans h.counter
  · rw [storedPayload_update_of_ne _ _ _ (by decide), h.stored]
  · intro aeskey' hlen hne
    rw [storedPayload_update_of_ne _ _ _ (by decide), h.other aeskey' hlen hne]

/-- What a saved blob is worth. -/
theorem saved_encryptedBlob {P : KeyPrims} (hP : P.Lawful) {aeskey : Bytes}
    (hkey : aeskey.length = AES_KEY_LEN_256) {iv : Iv} {cleartext : Bytes}
    (hlen : cleartext.length ≤ SERIALIZED_KEY_LEN)
    (hpad : (P.aesCbcEncrypt aeskey iv.toList cleartext).length = aesPaddedLen cleartext.length)
    {st : Store NvsKey} (hcounter : counterOf st = 3)
    (hblob : st .blob = some (encryptedBlob P.toPrims aeskey iv cleartext)) :
    Saved P aeskey cleartext st := by
  have hfits : (encryptedBlob P.toPrims aeskey iv cleartext).length ≤
      encryptedDataLen SERIALIZED_KEY_LEN := by
    obtain ⟨-, -, hbytes⟩ := split_encryptedBlob hP hkey iv cleartext
    rw [hbytes, List.length_append, Vector.length_toList, hpad]
    simp only [encryptedDataLen, aesEncryptedLen, aesPaddedLen, SERIALIZED_KEY_LEN,
      BIP32_SERIALIZED_LEN, HMAC_SHA512_LEN, AES_BLOCK_LEN, HMAC_SHA256_LEN] at hlen ⊢
    omega
  have hstored : ∀ key, storedPayload P.toPrims key st =
      decrypted P.toPrims key (encryptedBlob P.toPrims aeskey iv cleartext) := by
    intro key
    simp [storedPayload, fitting, hblob, Option.filter, hfits]
  refine ⟨hkey, hcounter, ?_, fun aeskey' hkey' hne => ?_⟩
  · rw [hstored, decrypted_encryptedBlob hP hkey iv hlen hpad]
  · rw [hstored, decrypted_encryptedBlob_of_ne hP hkey hkey' hne]

/-- Saving a blob leaves the memory alone. -/
theorem sat_keychainEncryptAndSaveBlob_saved {P : KeyPrims} (hP : P.Lawful) (aeskey : Bytes)
    (iv : Iv) (cleartext : Bytes) (d : Dev NvsKey Ram PinTest) :
    Sat (keychainEncryptAndSaveBlob P.toPrims aeskey iv cleartext)
      (fun ok d' => d'.ram = d.ram ∧ (ok = true → Saved P aeskey cleartext d'.store))
      (fun _ _ => True) d := by
  simp only [keychainEncryptAndSaveBlob, getEncryptedBlob, aesEncryptBytes, storageSetEncryptedBlob,
    storageRestoreCounter, storeBlob, write, sat_ite, sat_bind, sat_pure, sat_assert, sat_commit,
    implies_true, and_true, true_and, Bool.false_eq_true, false_implies, true_implies,
    not_true_eq_false]
  intro hkey hlen _ _ hpad _ _ _
  refine ⟨fun _ => ⟨rfl, ?_⟩, fun _ => rfl⟩
  refine saved_encryptedBlob hP (not_not.1 hkey) (Nat.le_of_not_lt hlen) (by simpa using hpad) ?_ ?_
  · simp only [Dev.put]
    rw [counterOf_update_of_ne _ (by decide), counterOf_update_counter]
  · simp only [Dev.put, Function.update_self, encryptedBlob]

/-! ### Storing -/

theorem sat_serialize {P : Prims} {keydata : Keychain} {Q : Bytes → Dev NvsKey Ram PinTest → Prop}
    {E : Stop → Dev NvsKey Ram PinTest → Prop} {d : Dev NvsKey Ram PinTest} :
    Sat (serialize P keydata) Q E d ↔
      (keydata.gaservicePath.all (· &&& 0xFFFF0000 = 0) = true →
        Q ((Payload.keys keydata.xpriv keydata.gaservicePath keydata.masterUnblindingKey).encode P)
          d) ∧
      (keydata.gaservicePath.all (· &&& 0xFFFF0000 = 0) = false → E .assert d) := by
  simp only [serialize, walletSerializeGaservicePath, sat_bind, sat_assert, sat_pure]
  rfl

/-- The flash holds the wallet that is in memory. -/
theorem sat_keychainStore_loads {P : KeyPrims} (hP : P.Lawful) (aeskey : Bytes) (iv : Iv)
    {d : Dev NvsKey Ram PinTest}
    (hvalid : d.ram.mnemonicEntropy = [] → ∀ k, d.ram.keychainData = some k →
      P.ValidKey k.xpriv) :
    Sat (keychainStore P.toPrims aeskey iv)
      (fun ok d' => ok = true → d'.ram.hasEncryptedBlob = true ∧
        ∃ p, p.Storable P ∧ d.ram.payload = some p ∧
          Saved P aeskey (p.encode P.toPrims) d'.store)
      (fun _ _ => True) d := by
  -- whatever the payload is, it is saved, and clearing the restriction does not touch it
  have hsave : ∀ p : Payload, p.Storable P → d.ram.payload = some p → Sat (do
      if ← keychainEncryptAndSaveBlob P.toPrims aeskey iv (p.encode P.toPrims) then
        keychainClearNetworkTypeRestriction
        modifyRam fun r => { r with hasEncryptedBlob := true }
        return true
      else
        return false)
      (fun ok d' => ok = true → d'.ram.hasEncryptedBlob = true ∧
        ∃ p, p.Storable P ∧ d.ram.payload = some p ∧
          Saved P aeskey (p.encode P.toPrims) d'.store)
      (fun _ _ => True) d := by
    intro p hp hpayload
    rw [sat_bind]
    refine (sat_keychainEncryptAndSaveBlob_saved hP aeskey iv _ d).mono ?_ (fun _ _ h => h)
    rintro saved d₁ ⟨-, hsaved⟩
    cases saved with
    | false => simp
    | true =>
        simp only [if_true, sat_bind, sat_modifyRam, sat_pure]
        refine ((frame_saved P aeskey (p.encode P.toPrims)).keychainClearNetworkTypeRestriction d₁
          (hsaved rfl)).mono ?_ (fun _ _ _ => trivial)
        intro _ d₂ h₂ _
        exact ⟨trivial, p, hp, hpayload, h₂⟩
  simp only [keychainStore, sat_ite, sat_pure, sat_bind, sat_getRam, sat_assert, Bool.false_eq_true,
    false_implies, implies_true, true_and, and_true] at hsave ⊢
  intro _ hloaded
  refine ⟨fun hentropy hlen => ?_, fun hentropy => ?_⟩
  · refine hsave (.entropy d.ram.mnemonicEntropy) ?_ (if_pos hentropy)
    simpa [Payload.Storable] using hlen
  · cases hdata : d.ram.keychainData with
    | none => simp [hdata, not_not.1 hentropy] at hloaded
    | some k =>
        have hpayload : d.ram.payload =
            some (.keys k.xpriv k.gaservicePath k.masterUnblindingKey) := by
          rw [Ram.payload, if_neg hentropy, hdata]
          rfl
        rw [sat_bind, sat_serialize]
        refine ⟨fun hpath => ?_, fun _ => trivial⟩
        have h := hsave (.keys k.xpriv k.gaservicePath k.masterUnblindingKey)
          ⟨hvalid (not_not.1 hentropy) k hdata, hpath⟩ hpayload
        simpa only [sat_bind, sat_ite, sat_pure, Bool.false_eq_true, false_implies, implies_true,
          and_true] using h

/-! ### Loading -/

theorem decrypted_eq_none {P : Prims} {aeskey bytes : Bytes}
    (h : opens P aeskey bytes (aesPaddedLen SERIALIZED_KEY_LEN) = false) :
    decrypted P aeskey bytes = none := by
  rw [decrypted, h]
  rfl

/-- Testing a blob yields what it is worth, and an assertion can only fail on one that is worth
nothing. -/
theorem sat_getDecryptedPayload_decrypted (P : Prims) {aeskey bytes : Bytes}
    (hkey : aeskey.length = AES_KEY_LEN_256)
    (hfits : bytes.length ≤ encryptedDataLen SERIALIZED_KEY_LEN) (d : Dev NvsKey Ram PinTest) :
    Sat (getDecryptedPayload P aeskey bytes (aesPaddedLen SERIALIZED_KEY_LEN))
      (fun r d' => r = decrypted P aeskey bytes ∧ d'.store = d.store ∧ d'.ram = d.ram ∧
        d'.fates = d.fates)
      (fun _ _ => decrypted P aeskey bytes = none) d := by
  have hnone := @decrypted_eq_none P aeskey bytes
  simp only [getDecryptedPayload, aesDecryptBytes, sat_bind, sat_assert, sat_ite, sat_note,
    sat_pure, and_true, decide_eq_true_eq, decide_eq_false_iff_not]
  refine ⟨fun hlen => ⟨fun hmac => (hnone ?_).symm, fun hmac => ⟨fun _ => ⟨fun hbody => ?_,
    fun hbody => hnone ?_⟩, fun h => absurd hkey h⟩⟩, fun hlen => hnone ?_⟩
  · simp [opens, hmac]
  · refine ⟨fun _ => ⟨fun hmod => ⟨fun _ => ?_, fun hlarge => ?_⟩, fun hmod => hnone ?_⟩,
      fun h => absurd (by decide) h⟩
    · cases hdec : P.aesCbcDecrypt aeskey
          ((bytes.take (bytes.length - HMAC_SHA256_LEN)).take AES_BLOCK_LEN)
          ((bytes.take (bytes.length - HMAC_SHA256_LEN)).drop AES_BLOCK_LEN) with
      | none =>
          simp only [sat_pure, sat_bind, sat_note, and_true]
          exact (hnone (by simp [opens, hdec])).symm
      | some output =>
          rw [sat_pure]
          by_cases hout : output.length ≤ aesPaddedLen SERIALIZED_KEY_LEN
          · simp only [if_pos hout, sat_bind, sat_note, sat_pure, and_true]
            rw [decrypted, if_pos]
            · exact hdec.symm
            · simp only [opens, hdec, Option.any_some, Bool.and_eq_true, decide_eq_true_eq]
              exact ⟨⟨⟨⟨hlen, not_not.1 hmac⟩, hbody⟩, hmod⟩, hout⟩
          · simp only [if_neg hout, sat_bind, sat_note, sat_pure, and_true]
            exact (hnone (by simp [opens, hdec, hout])).symm
    · -- a blob that fits its buffer is not too long for the payload's
      refine absurd ?_ hlarge
      simp only [List.length_take]
      have hmax : encryptedDataLen SERIALIZED_KEY_LEN = AES_BLOCK_LEN +
        aesPaddedLen SERIALIZED_KEY_LEN + HMAC_SHA256_LEN := rfl
      have hpad : aesPaddedLen SERIALIZED_KEY_LEN ≤ aesPaddedLen (aesPaddedLen SERIALIZED_KEY_LEN) :=
        by decide
      omega
    · refine Bool.eq_false_iff.2 fun h => hmod ?_
      simp only [opens, Bool.and_eq_true, decide_eq_true_eq] at h
      exact h.1.2
  · refine Bool.eq_false_iff.2 fun h => hbody ?_
    simp only [opens, Bool.and_eq_true, decide_eq_true_eq] at h
    exact h.1.1.2
  · simp [opens, hlen]

/-- Paying for an attempt does not touch the wallet, and only a power cut stops it. -/
theorem sat_storageDecrementCounter_blob (d : Dev NvsKey Ram PinTest) :
    Sat storageDecrementCounter
      (fun ok d' => d'.ram = d.ram ∧ (ok = true → d'.store .blob = d.store .blob) ∧
        (1 ≤ counterOf d.store → counterOf d.store ≤ 3 → d.fate = .done → ok = true))
      (fun e _ => e = .power) d := by
  have herase : ∀ d' : Dev NvsKey Ram PinTest, d'.ram = d.ram →
      Sat storageEraseEncryptedBlob (fun _ d'' => d''.ram = d.ram) (fun e _ => e = .power) d' := by
    intro d' hd'
    simp only [storageEraseEncryptedBlob, erase, sat_bind, sat_commit, implies_true, and_true]
    exact ⟨fun _ => ⟨fun _ => hd', fun _ => hd'⟩, fun _ => ⟨fun _ => hd', fun _ => hd'⟩⟩
  simp only [storageDecrementCounter, sat_bind, sat_storageGetCounter, sat_ite, sat_storeBlob,
    write, sat_pure, sat_commit, Bool.false_eq_true, false_implies, not_false_eq_true, true_implies,
    true_and, implies_true, and_true, not_true_eq_false]
  refine ⟨fun hbad => ?_, fun _ => ⟨fun _ => by simp [Dev.put], fun hrefused => ?_⟩⟩
  · refine (herase d rfl).mono ?_ (fun _ _ h => h)
    refine fun _ _ hram => ⟨hram, fun hpos hle _ => ?_⟩
    rcases hbad with hzero | hlarge
    · rw [hzero] at hpos
      exact absurd hpos (by decide)
    · exact absurd hle (UInt8.not_le.2 hlarge)
  · refine (herase { d with fates := d.fates.tail } rfl).mono ?_ (fun _ _ h => h)
    exact fun _ _ hram =>
      ⟨hram, fun _ _ hdone => absurd (hrefused.symm.trans hdone) (by decide)⟩

/-- The flag is set, attempts are left, and the flash is going to pay for one. -/
structure Ready (d : Dev NvsKey Ram PinTest) : Prop where
  flag : d.ram.hasEncryptedBlob = true
  pos : 1 ≤ counterOf d.store
  le : counterOf d.store ≤ 3
  fate : d.fate = .done

/-- The keys and the entropy in memory. -/
def Ram.wallet (r : Ram) : Option Keychain × Bytes := (r.keychainData, r.mnemonicEntropy)

/-- A commit leaves the wallet in memory alone. -/
theorem keeps_wallet_commit (w : Option Keychain × Bytes) (k : NvsKey) (v : Option Bytes) :
    Keeps (fun d : Dev NvsKey Ram PinTest => d.ram.wallet = w) (commit k v) :=
  fun _ h => (sat_commit _ _).2 ⟨fun _ => h, fun _ => h, fun _ => h, fun _ => h⟩

theorem keeps_wallet_keychainClearNetworkTypeRestriction (w : Option Keychain × Bytes) :
    Keeps (fun d : Dev NvsKey Ram PinTest => d.ram.wallet = w)
      keychainClearNetworkTypeRestriction := by
  have hram : Keeps (fun d : Dev NvsKey Ram PinTest => d.ram.wallet = w)
      (modifyRam fun r => { r with networkTypeRestriction := .none } : KeychainM PUnit) :=
    fun _ h => (sat_modifyRam _).2 h
  refine Keeps.bind keeps_keychainHasTemporary fun _ => Keeps.ite ?_ hram
  exact Keeps.bind (Keeps.bind (keeps_assert _) fun _ => keeps_wallet_commit w _ _) fun _ => hram

/-- Whatever is erased, the wallet in memory stays. -/
theorem keeps_wallet_keychainEraseEncrypted (w : Option Keychain × Bytes) :
    Keeps (fun d : Dev NvsKey Ram PinTest => d.ram.wallet = w) keychainEraseEncrypted :=
  Keeps.bind (Keeps.bind (keeps_wallet_commit w _ _) fun _ => keeps_wallet_commit w _ _) fun _ =>
    Keeps.bind (keeps_wallet_keychainClearNetworkTypeRestriction w) fun _ =>
      fun _ h => (sat_modifyRam _).2 h

/-- One attempt yields the payload the flash holds under the key, or nothing. -/
theorem sat_keychainLoadAndDecryptBlob_stored (P : Prims) {aeskey : Bytes}
    (hkey : aeskey.length = AES_KEY_LEN_256) (d : Dev NvsKey Ram PinTest) :
    Sat (keychainLoadAndDecryptBlob P aeskey (aesPaddedLen SERIALIZED_KEY_LEN))
      (fun r d' => d'.ram.wallet = d.ram.wallet ∧
        (r = none ∨ r = storedPayload P aeskey d.store) ∧
        (Ready d → r = storedPayload P aeskey d.store) ∧
        (r.isSome → d'.ram = d.ram ∧ d'.store .blob = d.store .blob))
      (fun e _ => e = .power ∨ storedPayload P aeskey d.store = none) d := by
  simp only [keychainLoadAndDecryptBlob, keychainHasPin, sat_ite, sat_bind, sat_getRam, sat_pure]
  refine ⟨fun hbad => absurd hbad (by simp [hkey]), fun _ => ⟨fun hflag => ?_, fun _ => ?_⟩⟩
  · refine ⟨trivial, .inl trivial, fun hready => ?_, fun h => by simp at h⟩
    simp [hready.flag] at hflag
  refine (sat_storageDecrementCounter_blob d).mono ?_ (fun _ _ h => .inl h)
  rintro ok d₁ ⟨hram₁, hblob₁, hready₁⟩
  cases ok with
  | false =>
      simp only [Bool.not_false, true_implies, not_true_eq_false, false_implies, and_true]
      refine ⟨congrArg Ram.wallet hram₁, .inl trivial, fun hready => ?_, fun h => by simp at h⟩
      exact absurd (hready₁ hready.pos hready.le hready.fate) (by decide)
  | true =>
      simp only [Bool.not_true, Bool.false_eq_true, false_implies, not_false_eq_true, true_implies,
        true_and]
      rw [sat_storageGetEncryptedBlob (by decide), fitting, hblob₁ rfl]
      rw [← fitting]
      cases hread : fitting d.store .blob (encryptedDataLen SERIALIZED_KEY_LEN) with
      | none =>
          have hnone : storedPayload P aeskey d.store = none := by rw [storedPayload, hread]; rfl
          refine (sat_bind _ _).2 ?_
          simp only [storageEraseEncryptedBlob, erase, sat_bind, sat_commit, sat_modifyRam, sat_pure,
            hnone, or_true, implies_true, and_true, Option.isSome_none, Bool.false_eq_true,
            false_implies]
          have hwallet : d₁.ram.wallet = d.ram.wallet := congrArg Ram.wallet hram₁
          exact ⟨fun _ => ⟨fun _ => hwallet, fun _ => hwallet⟩,
            fun _ => ⟨fun _ => hwallet, fun _ => hwallet⟩⟩
      | some encrypted =>
          have hstored : storedPayload P aeskey d.store = decrypted P aeskey encrypted := by
            rw [storedPayload, hread]
            rfl
          have hfits : encrypted.length ≤ encryptedDataLen SERIALIZED_KEY_LEN := by
            simpa using (Option.filter_eq_some_iff.1 hread).2
          rw [hstored]
          refine (sat_bind _ _).2 ?_
          refine (sat_getDecryptedPayload_decrypted P hkey hfits d₁).mono ?_ (fun _ _ h => .inr h)
          rintro r d₂ ⟨hr, hstore₂, hram₂, -⟩
          have hwallet : d₂.ram.wallet = d.ram.wallet := by rw [hram₂, hram₁]
          cases r with
          | none =>
              simp only [keychainPinAttemptsRemaining, sat_bind, sat_storageGetCounter, sat_ite,
                sat_pure, ← hr, or_true, implies_true, and_true, Option.isSome_none,
                Bool.false_eq_true, false_implies]
              exact ⟨fun _ => keeps_wallet_keychainEraseEncrypted _ d₂ hwallet |>.mono
                (fun _ _ h => h) (fun _ _ _ => trivial), fun _ => hwallet⟩
          | some payload =>
              simp only [storageRestoreCounter, sat_bind, sat_storeBlob, write, sat_commit, sat_pure,
                ← hr, or_true, implies_true, and_true, true_and, true_or, Option.isSome_some,
                true_implies]
              have hram : d₂.ram = d.ram := hram₂.trans hram₁
              have hblob : d₂.store .blob = d.store .blob := by rw [hstore₂, hblob₁ rfl]
              exact ⟨fun _ => ⟨hwallet, hram, by simpa [Dev.put] using hblob⟩,
                fun _ => ⟨hwallet, hram, hblob⟩⟩

theorem sat_unserialize {P : Prims} {bytes : Bytes} (hlen : bytes.length = SERIALIZED_KEY_LEN)
    {Q : Keychain → Dev NvsKey Ram PinTest → Prop} {E : Stop → Dev NvsKey Ram PinTest → Prop}
    {d : Dev NvsKey Ram PinTest} :
    Sat (unserialize P bytes) Q E d ↔
      match P.bip32KeyUnserialize (bytes.take BIP32_SERIALIZED_LEN) with
      | some xpriv => Q {
          gaservicePath := walletUnserializeGaservicePath
            ((bytes.drop BIP32_SERIALIZED_LEN).take HMAC_SHA512_LEN)
          masterUnblindingKey := Vector.ofFn fun i =>
            bytes.getD (BIP32_SERIALIZED_LEN + HMAC_SHA512_LEN + i) 0
          seed := []
          xpriv := xpriv } d
      | none => E .assert d := by
  simp only [unserialize, sat_bind, sat_assert, hlen]
  cases P.bip32KeyUnserialize (bytes.take BIP32_SERIALIZED_LEN) <;> simp

/-- **Loading yields the wallet that the flash holds under the key**, and nothing when there is
none. -/
theorem sat_keychainLoad_loads (P : Prims) (aeskey : Bytes) {d : Dev NvsKey Ram PinTest}
    (hlocked : d.ram.Holds none) :
    Sat (keychainLoad P aeskey)
      (fun ok d' => (ok = false ∧ d'.ram.Holds none ∨
          ok = true ∧ (loads P aeskey d.store).isSome ∧ d'.ram.Holds (loads P aeskey d.store) ∧
            storedPayload P aeskey d'.store = storedPayload P aeskey d.store) ∧
        (aeskey.length = AES_KEY_LEN_256 → Ready d → ok = (loads P aeskey d.store).isSome))
      (fun e _ => e = .power ∨ loads P aeskey d.store = none) d := by
  obtain ⟨hdata, hentropy⟩ := hlocked
  simp only [keychainLoad, keychainHasPin, sat_ite, sat_pure, sat_bind, sat_getRam]
  refine ⟨fun hbad => ⟨.inl ⟨trivial, hdata, hentropy⟩, fun hkey => absurd hkey hbad⟩, fun hkey =>
    ⟨fun hloaded => absurd hloaded (by simp [hdata, hentropy]), fun _ => ⟨fun hflag => ?_,
      fun _ => ?_⟩⟩⟩
  · refine ⟨.inl ⟨trivial, hdata, hentropy⟩, fun _ hready => ?_⟩
    simp [hready.flag] at hflag
  refine (sat_keychainLoadAndDecryptBlob_stored P (not_not.1 hkey) d).mono ?_ ?_
  swap
  · rintro e _ (hpower | hnone)
    · exact .inl hpower
    · exact .inr (by rw [loads, hnone]; rfl)
  rintro r d₁ ⟨hwallet, hr, hready, hsame⟩
  obtain ⟨hdata₁, hentropy₁⟩ : d₁.ram.keychainData = none ∧ d₁.ram.mnemonicEntropy = [] := by
    simpa [Ram.wallet, hdata, hentropy] using hwallet
  cases r with
  | none =>
      refine (sat_pure _).2 ⟨.inl ⟨rfl, hdata₁, hentropy₁⟩, fun _ h => ?_⟩
      rw [loads, ← hready h]
      rfl
  | some serialized =>
      obtain hstored : storedPayload P aeskey d.store = some serialized := by
        rcases hr with h | h
        · exact absurd h (by simp)
        · exact h.symm
      have hloads : loads P aeskey d.store = parsed P serialized := by
        rw [loads, hstored]
        rfl
      have hblob : storedPayload P aeskey d₁.store = storedPayload P aeskey d.store := by
        rw [storedPayload, storedPayload, fitting, fitting, (hsame rfl).2]
      rw [hloads, parsed]
      simp only [sat_ite, sat_bind, sat_modifyRam, sat_pure]
      refine ⟨fun hlen => ?_, fun hlen => ⟨fun hkeys => ?_, fun hkeys => ?_⟩⟩
      · rw [if_pos hlen]
        exact ⟨.inr ⟨trivial, rfl, ⟨hdata₁, rfl⟩, hblob⟩, fun _ _ => rfl⟩
      · rw [if_neg hlen, if_pos hkeys, sat_unserialize hkeys]
        cases P.bip32KeyUnserialize (serialized.take BIP32_SERIALIZED_LEN) with
        | none => exact .inr rfl
        | some xpriv =>
            simp only [keychainSet, sat_bind, sat_storageGetKeyFlags, sat_modifyRam]
            exact ⟨.inr ⟨trivial, rfl, ⟨rfl, _, rfl, rfl, rfl, rfl⟩, hblob⟩, fun _ _ => rfl⟩
      · rw [if_neg hlen, if_neg hkeys]
        exact ⟨.inl ⟨trivial, hdata₁, hentropy₁⟩, fun _ _ => rfl⟩

/-! ### Changing the key -/

/-- Re-encrypting saves the same payload under the new key. -/
theorem sat_keychainReencrypt_saved {P : KeyPrims} (hP : P.Lawful) (currAeskey newAeskey : Bytes)
    (iv : Iv) (d : Dev NvsKey Ram PinTest) :
    Sat (keychainReencrypt P.toPrims currAeskey newAeskey iv)
      (fun ok d' => ok = true → d'.ram.hasEncryptedBlob = true ∧
        currAeskey.length = AES_KEY_LEN_256 ∧
        ∃ serialized, storedPayload P.toPrims currAeskey d.store = some serialized ∧
          Saved P newAeskey serialized d'.store)
      (fun _ _ => True) d := by
  simp only [keychainReencrypt, keychainHasPin, sat_ite, sat_pure, sat_bind, sat_getRam,
    Bool.false_eq_true, false_implies, implies_true, true_and]
  intro hkeys hflag
  simp only [not_or, not_not] at hkeys
  refine (sat_keychainLoadAndDecryptBlob_stored P.toPrims hkeys.1 d).mono ?_ (fun _ _ _ => trivial)
  rintro r d₁ ⟨-, hr, -, hsame⟩
  cases r with
  | none => simp
  | some serialized =>
      have hstored : storedPayload P.toPrims currAeskey d.store = some serialized := by
        rcases hr with h | h
        · exact absurd h (by simp)
        · exact h.symm
      refine (sat_keychainEncryptAndSaveBlob_saved hP newAeskey iv serialized d₁).mono ?_
        (fun _ _ _ => trivial)
      rintro ok d₂ ⟨hram, hsaved⟩ hok
      refine ⟨?_, hkeys.1, serialized, hstored, hsaved hok⟩
      rw [hram, (hsame rfl).1]
      simpa using hflag

/-! ### Logging out and coming back -/

/-- The device after a logout or a restart, about to be unlocked; the flash is going to pay for the
attempt, and what becomes of later commits is left open. -/
inductive Locked (P : Prims) (d : Dev NvsKey Ram PinTest) : Dev NvsKey Ram PinTest → Prop
  | logout (fates : List Fate) (h : fates.headD .done = .done) :
      Locked P d { step P d ⟨.clear, []⟩ with fates := fates }
  | restart (fates : List Fate) (h : fates.headD .done = .done) :
      Locked P d { step P d ⟨.reboot, []⟩ with fates := fates }

theorem Locked.spec {P : Prims} {d d' : Dev NvsKey Ram PinTest} (h : Locked P d d')
    (hflag : d.ram.hasEncryptedBlob = true) (hcounter : counterOf d.store = 3) :
    d'.store = d.store ∧ d'.ram.Holds none ∧ Ready d' := by
  -- both leave an empty memory with the flag set, over the same flash
  have hstep : ∀ o : Op, o = .clear ∨ o = .reboot → (step P d ⟨o, []⟩).store = d.store ∧
      (step P d ⟨o, []⟩).ram.Holds none ∧ (step P d ⟨o, []⟩).ram.hasEncryptedBlob = true := by
    rintro o (rfl | rfl)
    · refine runOp_of_sat (Q := fun d' : Dev NvsKey Ram PinTest => d'.store = d.store ∧
        d'.ram.Holds none ∧ d'.ram.hasEncryptedBlob = true) (J := fun _ => False) ?_ fun _ h => h.elim
      simp only [Op.exec, keychainClear, sat_bind, sat_storageGetKeyFlags, sat_modifyRam]
      exact ⟨trivial, ⟨rfl, rfl⟩, hflag⟩
    · refine runOp_of_sat (Q := fun d' : Dev NvsKey Ram PinTest => d'.store = d.store ∧
        d'.ram.Holds none ∧ d'.ram.hasEncryptedBlob = true) (J := fun d' => d'.store = d.store)
        ((sat_throw _).2 rfl) fun d' hd' => ?_
      rw [sat_keychainInitCache]
      refine ⟨hd', ⟨rfl, rfl⟩, ?_⟩
      simp only [hd', hcounter]
      decide
  have hready : ∀ {d₁ : Dev NvsKey Ram PinTest} {fates : List Fate}, d₁.store = d.store →
      d₁.ram.hasEncryptedBlob = true → fates.headD .done = .done →
      Ready { d₁ with fates := fates } := by
    intro d₁ fates hstore hflag hfate
    have hcounter₁ : counterOf d₁.store = 3 := by rw [hstore, hcounter]
    exact ⟨hflag, by rw [hcounter₁]; decide, by rw [hcounter₁]; decide, hfate⟩
  cases h with
  | logout fates hfate =>
      obtain ⟨hstore, hnone, hflag⟩ := hstep .clear (.inl rfl)
      exact ⟨hstore, hnone, hready hstore hflag hfate⟩
  | restart fates hfate =>
      obtain ⟨hstore, hnone, hflag⟩ := hstep .reboot (.inr rfl)
      exact ⟨hstore, hnone, hready hstore hflag hfate⟩

/-- A locked device whose flash holds a wallet under the key gets that wallet. -/
theorem Locked.sat_keychainLoad {P : Prims} {d d' : Dev NvsKey Ram PinTest} (h : Locked P d d')
    (hflag : d.ram.hasEncryptedBlob = true) (hcounter : counterOf d.store = 3) {aeskey : Bytes}
    (hkey : aeskey.length = AES_KEY_LEN_256) {p : Payload} (hp : loads P aeskey d.store = some p) :
    Sat (keychainLoad P aeskey) (fun ok d'' => ok = true ∧ d''.ram.Holds (some p))
      (fun e _ => e = .power) d' := by
  obtain ⟨hstore, hnone, hready⟩ := h.spec hflag hcounter
  rw [← hstore] at hp
  refine (sat_keychainLoad_loads P aeskey hnone).mono ?_ ?_
  · rintro ok d'' ⟨hloaded, hok⟩
    rw [hp] at hloaded hok
    obtain rfl : ok = true := hok hkey hready
    rcases hloaded with ⟨hfalse, -⟩ | ⟨-, -, hholds, -⟩
    · exact absurd hfalse (by decide)
    · exact ⟨rfl, hholds⟩
  · rintro e _ (hpower | hempty)
    · exact hpower
    · exact absurd (hp.symm.trans hempty) (by simp)

/-- A locked device whose flash holds nothing under the key stays without a wallet. -/
theorem Locked.sat_keychainLoad_none {P : Prims} {d d' : Dev NvsKey Ram PinTest}
    (h : Locked P d d') (hflag : d.ram.hasEncryptedBlob = true) (hcounter : counterOf d.store = 3)
    {aeskey : Bytes} (hp : loads P aeskey d.store = none) :
    Sat (keychainLoad P aeskey) (fun ok d'' => ok = false ∧ d''.ram.Holds none) (fun _ _ => True)
      d' := by
  obtain ⟨hstore, hnone, -⟩ := h.spec hflag hcounter
  rw [← hstore] at hp
  refine (sat_keychainLoad_loads P aeskey hnone).mono ?_ (fun _ _ _ => trivial)
  rintro ok d'' ⟨hloaded, -⟩
  rcases hloaded with hfalse | ⟨-, hsome, -⟩
  · exact hfalse
  · rw [hp] at hsome
    exact absurd hsome (by simp)

/-- A device left without a wallet by every way a program can end. -/
theorem step_holds_none {P : Prims} {d : Dev NvsKey Ram PinTest} {aeskey : Bytes}
    {fates : List Fate} (hlocked : d.ram.Holds none) (hnone : loads P aeskey d.store = none) :
    (step P d ⟨.load aeskey, fates⟩).ram.Holds none := by
  refine runOp_of_sat (Q := fun d' : Dev NvsKey Ram PinTest => d'.ram.Holds none)
    (J := fun _ => True) ?_ fun d' _ => sat_keychainInitCache.2 ⟨rfl, rfl⟩
  refine (sat_map _ _).2 ((sat_keychainLoad_loads (d := { d with fates := fates }) P aeskey
    hlocked).mono ?_ (fun _ _ _ => trivial))
  rintro ok d' ⟨hloaded, -⟩
  rcases hloaded with ⟨-, h⟩ | ⟨-, hsome, -⟩
  · exact h
  · rw [hnone] at hsome
    exact absurd hsome (by simp)

/-! ### Setting up a wallet -/

/-- The passphrase that `get_passphrase` returns under the flags. -/
def passphraseFor (flags : UInt8) (entered : Bytes) : Bytes :=
  if flags &&& KEY_FLAGS_USER_TO_ENTER_PASSPHRASE ≠ 0 then entered else []

theorem sat_getPassphrase (entered : Bytes) (d : Dev NvsKey Ram PinTest) :
    Sat (getPassphrase entered)
      (fun passphrase d' => d' = d ∧ passphrase = passphraseFor d.ram.keyFlags entered)
      (fun _ _ => True) d := by
  simp only [getPassphrase, keychainGetPassphraseFreq, sat_bind, sat_getRam, sat_pure,
    passphraseFor]
  by_cases huser : d.ram.keyFlags &&& KEY_FLAGS_USER_TO_ENTER_PASSPHRASE ≠ 0
  · rw [if_pos huser, if_pos huser]
    by_cases hauto : d.ram.keyFlags &&& KEY_FLAGS_AUTO_DEFAULT_PASSPHRASE ≠ 0
    · rw [if_pos hauto]
      simp
    · rw [if_neg hauto]
      simp
  · rw [if_neg huser, if_neg huser]
    simp

/-- The flag that is set with the wallet says nothing about passphrases. -/
theorem passphraseFor_confirmExport (confirmExport : Bool) (flags : UInt8) (entered : Bytes) :
    passphraseFor (if confirmExport then flags ||| KEY_FLAGS_CONFIRM_EXPORT_BLINDING_KEY
      else flags &&& ~~~KEY_FLAGS_CONFIRM_EXPORT_BLINDING_KEY) entered =
      passphraseFor flags entered := by
  have hor : (flags ||| KEY_FLAGS_CONFIRM_EXPORT_BLINDING_KEY) &&&
      KEY_FLAGS_USER_TO_ENTER_PASSPHRASE = flags &&& KEY_FLAGS_USER_TO_ENTER_PASSPHRASE := by
    rw [← UInt8.toBitVec_inj, UInt8.toBitVec_and, UInt8.toBitVec_or, BitVec.and_or_distrib_right]
    exact BitVec.or_zero
  have hnot : (~~~KEY_FLAGS_CONFIRM_EXPORT_BLINDING_KEY &&& KEY_FLAGS_USER_TO_ENTER_PASSPHRASE) =
      KEY_FLAGS_USER_TO_ENTER_PASSPHRASE := by decide
  cases confirmExport with
  | true =>
      rw [passphraseFor, if_pos rfl, hor]
      rfl
  | false =>
      rw [passphraseFor, if_neg Bool.false_ne_true, UInt8.and_assoc, hnot]
      rfl

theorem sat_deriveKeychain (P : KeyPrims) (temporaryRestore : Bool) (mnemonic entered : Bytes)
    (d : Dev NvsKey Ram PinTest) :
    Sat (deriveKeychain P temporaryRestore mnemonic entered)
      (fun ok d' => (ok = false ∧ d'.ram.wallet = d.ram.wallet) ∨
        (ok = true ∧ ∃ k s s', (keychainDeriveFromMnemonic P mnemonic
            (some (passphraseFor d.ram.keyFlags entered))).run s = .ok (some k) s' ∧
          d'.ram.wallet = (some k, [])))
      (fun _ _ => True) d := by
  rw [deriveKeychain, sat_bind]
  refine (sat_getPassphrase entered d).mono ?_ (fun _ _ h => h)
  rintro passphrase d' ⟨rfl, rfl⟩
  simp only [sat_bind, sat_assert, implies_true, and_true]
  intro _
  refine ((silent_keychainDeriveFromMnemonic P mnemonic _).sat_self d').mono ?_
    (fun _ _ _ => trivial)
  rintro r _ ⟨rfl, hrun⟩
  cases r with
  | none => simp
  | some keydata =>
      simp only [keychainSet, sat_bind, sat_storageGetKeyFlags, sat_modifyRam]
      refine (keeps_wallet_keychainClearNetworkTypeRestriction (some keydata, []) _ rfl).mono ?_
        (fun _ _ _ => trivial)
      intro _ d₁ hwallet
      exact (sat_pure _).2 (.inr ⟨rfl, keydata, _, _, hrun, hwallet⟩)

/-- A wallet that has been set up for good was derived from the mnemonic and the passphrase, and the
entropy of the mnemonic is kept beside it. -/
theorem sat_initialiseWithMnemonic (P : KeyPrims) (mnemonic : Bytes) (advancedMode : Bool)
    (entered : Bytes) (d : Dev NvsKey Ram PinTest) :
    Sat (initialiseWithMnemonic P false (some mnemonic) advancedMode entered)
      (fun _ d' => ∀ k, d'.ram.keychainData = some k → d'.ram.mnemonicEntropy ≠ [] ∧
        P.bip39MnemonicToBytes mnemonic = some d'.ram.mnemonicEntropy ∧
        ∃ s s', (keychainDeriveFromMnemonic P mnemonic
          (some (passphraseFor d.ram.keyFlags entered))).run s = .ok (some k) s')
      (fun _ _ => True) d := by
  simp only [initialiseWithMnemonic, keychainHasPin, keychainSetConfirmExportBlindingKey, sat_bind,
    sat_getRam, sat_assert, sat_pure, sat_ite, sat_modifyRam, implies_true, and_true]
  intro hnone _
  have hempty : ∀ k, d.ram.keychainData ≠ some k := by
    intro k hk
    rw [hk] at hnone
    simp at hnone
  refine ⟨fun _ k hk => absurd hk (hempty k), fun _ => ?_⟩
  refine (sat_deriveKeychain P false mnemonic entered _).mono ?_ (fun _ _ h => h)
  dsimp only
  rw [passphraseFor_confirmExport]
  rintro ok d₁ (⟨rfl, hwallet⟩ | ⟨rfl, k₁, s, s', hrun, hwallet⟩)
  · have hdata : d₁.ram.keychainData = d.ram.keychainData := congrArg Prod.fst hwallet
    simp only [Bool.not_false, true_implies, not_true_eq_false, false_implies, and_true]
    exact fun k hk => absurd (hdata.symm.trans hk) (hempty k)
  · have hdata : d₁.ram.keychainData = some k₁ := congrArg Prod.fst hwallet
    simp only [Bool.not_true, Bool.false_eq_true, false_implies, not_false_eq_true, true_implies,
      true_and, Bool.not_false]
    simp only [keychainCacheMnemonicEntropy, sat_bind, sat_getRam, sat_assert, implies_true, and_true]
    refine ⟨fun _ _ => ?_, fun h => absurd trivial h⟩
    cases hbytes : P.bip39MnemonicToBytes mnemonic with
    | none => simp
    | some entropy =>
        simp only [sat_bind, sat_assert, sat_modifyRam, implies_true, and_true]
        intro hlen k hk
        obtain rfl : k₁ = k := Option.some.inj (hdata.symm.trans hk)
        refine ⟨?_, trivial, s, s', hrun⟩
        rintro rfl
        exact absurd hlen (by decide)

/-- Unlocking the wallet: load it, and complete the derivation with a passphrase. -/
theorem sat_keychainCompleteDerivation {P : KeyPrims} (hP : P.Lawful) {mnemonic entropy passphrase : Bytes}
    {k : Keychain} {s s' d : Dev NvsKey Ram PinTest}
    (hrun : (keychainDeriveFromMnemonic P mnemonic (some passphrase)).run s = .ok (some k) s')
    (hbytes : P.bip39MnemonicToBytes mnemonic = some entropy) (hne : entropy ≠ [])
    (hd : d.ram.Holds (some (.entropy entropy))) :
    Sat (keychainCompleteDerivationWithPassphrase P passphrase)
      (fun ok d' => ok = true ∧ d'.ram.keychainData = some k) (fun _ _ => False) d := by
  obtain ⟨hdata, hentropy⟩ := hd
  simp only [keychainCompleteDerivationWithPassphrase, keychainRequiresPassphrase, sat_bind,
    sat_getRam, sat_pure, sat_ite, hdata, hentropy]
  refine ⟨fun h => absurd h (by simp [hne]), fun _ => ?_⟩
  rw [hP.fromBytes_toBytes mnemonic entropy hbytes]
  dsimp only
  rw [sat_bind, (silent_keychainDeriveFromMnemonic P mnemonic _).sat_of_ok hrun]
  simp only [keychainSet, sat_bind, sat_storageGetKeyFlags, sat_modifyRam, sat_pure]
  exact ⟨trivial, trivial⟩

/-! ### With a flash that works -/

theorem length_encode_le {P : KeyPrims} (hP : P.Lawful) {p : Payload} (hp : p.Storable P) :
    p.encode P.toPrims ≠ [] ∧ (p.encode P.toPrims).length ≤ SERIALIZED_KEY_LEN := by
  cases p with
  | entropy e =>
      have hlen : e.length = BIP39_ENTROPY_LEN_128 ∨ e.length = BIP39_ENTROPY_LEN_256 := hp
      refine ⟨?_, ?_⟩
      · rintro rfl
        exact absurd hlen (by decide)
      · rcases hlen with h | h
        · exact h.trans_le (by decide)
        · exact h.trans_le (by decide)
  | keys xpriv path mbk =>
      have hlen := length_encode_keys hP xpriv path mbk
      refine ⟨fun hnil => ?_, hlen.le⟩
      rw [hnil] at hlen
      exact absurd hlen (by decide)

/-- A flash without a schedule takes every commit. -/
theorem sat_commit_done {Q : Bool → Dev NvsKey Ram PinTest → Prop}
    {E : Stop → Dev NvsKey Ram PinTest → Prop} {d : Dev NvsKey Ram PinTest} (hd : d.fates = [])
    (k : NvsKey) (v : Option Bytes) : Sat (commit k v) Q E d ↔ Q true (d.put k v) := by
  obtain ⟨st, ram, fates, log⟩ := d
  obtain rfl : fates = [] := hd
  rw [sat_commit]
  simp [Dev.fate]

theorem sat_keychainEncryptAndSaveBlob_done {P : KeyPrims} (hP : P.Lawful) {aeskey cleartext : Bytes}
    (hkey : aeskey.length = AES_KEY_LEN_256) (iv : Iv) (hne : cleartext ≠ [])
    (hlen : cleartext.length ≤ SERIALIZED_KEY_LEN) {d : Dev NvsKey Ram PinTest} (hd : d.fates = []) :
    Sat (keychainEncryptAndSaveBlob P.toPrims aeskey iv cleartext)
      (fun ok d' => ok = true ∧ d'.ram = d.ram ∧ d'.fates = []) (fun _ _ => False) d := by
  have henc : Sat (getEncryptedBlob P.toPrims aeskey iv cleartext) (fun r d' => r ≠ [] ∧ d' = d)
      (fun _ _ => False) d := by
    have hpad := hP.encrypt_length aeskey iv cleartext hkey
    have hiv : iv.toList ≠ [] := by
      rw [← List.length_pos_iff, Vector.length_toList]
      decide
    simp only [getEncryptedBlob, aesEncryptBytes, sat_bind, sat_assert, sat_pure, hkey, hpad]
    simp [hne, hiv]
  simp only [keychainEncryptAndSaveBlob, sat_ite, sat_bind, sat_pure]
  refine ⟨fun h => absurd hkey h, fun _ => ⟨fun h => absurd hlen (Nat.not_le.2 h), fun _ => ?_⟩⟩
  refine henc.mono ?_ (fun _ _ h => h)
  rintro encrypted _ ⟨hnil, rfl⟩
  have hpos : decide (0 < encrypted.length) = true := decide_eq_true (List.length_pos_iff.2 hnil)
  have hput : (Dev.put _ NvsKey.counter (some [3])).fates = [] := hd
  simp only [storageSetEncryptedBlob, storageRestoreCounter, sat_bind, write, sat_commit_done hd,
    if_true, storeBlob, sat_assert, hpos, sat_commit_done hput, true_implies, Bool.true_eq_false,
    false_implies, and_true, true_and]
  exact ⟨fun _ => ⟨rfl, hput⟩, fun h => absurd h (by decide)⟩

/-- A commit to a flash that works, and the reads around it, do not stop. -/
theorem sat_keychainClearNetworkTypeRestriction_done {d : Dev NvsKey Ram PinTest}
    (hd : d.fates = []) (htemp : d.ram.keychainTemporary = true → d.ram.keychainData.isSome) :
    Sat keychainClearNetworkTypeRestriction (fun _ _ => True) (fun _ _ => False) d := by
  have hassert : (!d.ram.keychainTemporary || d.ram.keychainData.isSome) = true := by
    cases h : d.ram.keychainTemporary with
    | false => rfl
    | true => simpa [h] using htemp
  simp only [keychainClearNetworkTypeRestriction, keychainHasTemporary,
    storageSetNetworkTypeRestriction, storeBlob, write, sat_bind, sat_getRam, sat_assert, sat_pure,
    sat_ite, sat_modifyRam, hassert, sat_commit_done hd, NetworkType.toBytes]
  simp

/-- Storing returns when the flash works and there is something to store. -/
theorem sat_keychainStore_done {P : KeyPrims} (hP : P.Lawful) {aeskey : Bytes}
    (hkey : aeskey.length = AES_KEY_LEN_256) (iv : Iv) {d : Dev NvsKey Ram PinTest}
    (hd : d.fates = []) (htemp : d.ram.keychainTemporary = true → d.ram.keychainData.isSome)
    {p : Payload} (hpayload : d.ram.payload = some p) (hp : p.Storable P) :
    Sat (keychainStore P.toPrims aeskey iv) (fun ok _ => ok = true) (fun _ _ => False) d := by
  obtain ⟨hne, hlen⟩ := length_encode_le hP hp
  have hsave : Sat (do
      if ← keychainEncryptAndSaveBlob P.toPrims aeskey iv (p.encode P.toPrims) then
        keychainClearNetworkTypeRestriction
        modifyRam fun r => { r with hasEncryptedBlob := true }
        return true
      else
        return false) (fun ok _ => ok = true) (fun _ _ => False) d := by
    rw [sat_bind]
    refine (sat_keychainEncryptAndSaveBlob_done hP hkey iv hne hlen hd).mono ?_ (fun _ _ h => h)
    rintro ok d₁ ⟨rfl, hram, hfates⟩
    simp only [if_true, sat_bind, sat_modifyRam, sat_pure]
    refine (sat_keychainClearNetworkTypeRestriction_done hfates ?_).mono (fun _ _ _ => trivial)
      (fun _ _ h => h)
    rw [hram]
    exact htemp
  simp only [keychainStore, sat_ite, sat_pure, sat_bind, sat_getRam, sat_assert] at hsave ⊢
  refine ⟨fun h => absurd hkey h, fun _ => ⟨fun hempty => ?_, fun _ => ⟨fun hentropy => ?_,
    fun hentropy => ?_⟩⟩⟩
  · -- a payload is either entropy or keys
    simp only [Bool.and_eq_true, decide_eq_true_eq, Option.isNone_iff_eq_none] at hempty
    simp [Ram.payload, hempty] at hpayload
  · obtain rfl : Payload.entropy d.ram.mnemonicEntropy = p := by
      rw [Ram.payload, if_pos hentropy] at hpayload
      exact Option.some.inj hpayload
    refine ⟨fun _ => hsave, fun h => ?_⟩
    have hor : d.ram.mnemonicEntropy.length = BIP39_ENTROPY_LEN_128 ∨
        d.ram.mnemonicEntropy.length = BIP39_ENTROPY_LEN_256 := hp
    simp only [Bool.or_eq_false_iff, decide_eq_false_iff_not] at h
    exact hor.elim h.1 h.2
  · rw [Ram.payload, if_neg hentropy] at hpayload
    obtain ⟨k, hdata, rfl⟩ := Option.map_eq_some_iff.1 hpayload
    rw [hdata]
    rw [sat_bind, sat_serialize]
    refine ⟨fun _ => ?_, fun hpath => ?_⟩
    · simpa only [sat_bind, sat_ite, sat_pure] using hsave
    · rw [hp.2] at hpath
      exact absurd hpath (by decide)

/-- An attempt with the right key succeeds when the flash works. -/
theorem sat_keychainLoadAndDecryptBlob_done {P : Prims} {aeskey : Bytes}
    (hkey : aeskey.length = AES_KEY_LEN_256) {d : Dev NvsKey Ram PinTest} (hd : d.fates = [])
    (hready : Ready d) {serialized : Bytes} (hstored : storedPayload P aeskey d.store = some serialized) :
    Sat (keychainLoadAndDecryptBlob P aeskey (aesPaddedLen SERIALIZED_KEY_LEN))
      (fun r d' => r = some serialized ∧ d'.fates = []) (fun _ _ => False) d := by
  obtain ⟨blob, hblob, hdec⟩ := Option.bind_eq_some_iff.1 hstored
  have hfits : blob.length ≤ encryptedDataLen SERIALIZED_KEY_LEN := by
    simpa using (Option.filter_eq_some_iff.1 hblob).2
  have hcounter : ¬ (counterOf d.store = 0 ∨ counterOf d.store > 3) := by
    rintro (hzero | hlarge)
    · have := hready.pos
      rw [hzero] at this
      exact absurd this (by decide)
    · exact absurd hready.le (UInt8.not_le.2 hlarge)
  have hread : fitting (d.put .counter (some [counterOf d.store - 1])).store .blob
      (encryptedDataLen SERIALIZED_KEY_LEN) = some blob := by
    simpa [fitting, Dev.put] using hblob
  simp only [keychainLoadAndDecryptBlob, keychainHasPin, storageDecrementCounter, sat_ite, sat_bind,
    sat_getRam, sat_pure, sat_storageGetCounter, sat_storeBlob, write, sat_commit_done hd, hkey,
    hready.flag, hcounter]
  simp only [Bool.not_true, Bool.false_eq_true, false_implies, not_false_eq_true, true_implies,
    true_and, not_true_eq_false, and_true, ne_eq, false_or]
  refine ⟨fun h => absurd h (Nat.lt_irrefl _), fun _ => ?_⟩
  rw [sat_storageGetEncryptedBlob (by decide), hread]
  refine (sat_bind _ _).2 ?_
  refine (sat_getDecryptedPayload_decrypted P hkey hfits _).mono ?_
    (fun _ _ h => absurd (hdec.symm.trans h) (by simp))
  rintro r d₂ ⟨rfl, -, -, hfates⟩
  have hfates₂ : d₂.fates = [] := hfates.trans hd
  rw [hdec]
  simp only [storageRestoreCounter, sat_bind, sat_storeBlob, write, sat_commit_done hfates₂, sat_pure]
  exact ⟨trivial, hfates₂⟩

/-- Re-encrypting returns when the flash works and holds a wallet under the key. -/
theorem sat_keychainReencrypt_done {P : KeyPrims} (hP : P.Lawful) {currAeskey newAeskey : Bytes}
    (hcurr : currAeskey.length = AES_KEY_LEN_256) (hnew : newAeskey.length = AES_KEY_LEN_256) (iv : Iv)
    {d : Dev NvsKey Ram PinTest} (hd : d.fates = []) (hready : Ready d) {p : Payload}
    (hp : loads P.toPrims currAeskey d.store = some p) :
    Sat (keychainReencrypt P.toPrims currAeskey newAeskey iv) (fun ok _ => ok = true)
      (fun _ _ => False) d := by
  obtain ⟨serialized, hstored, hparsed⟩ := Option.bind_eq_some_iff.1 hp
  obtain ⟨hne, hlen⟩ : serialized ≠ [] ∧ serialized.length ≤ SERIALIZED_KEY_LEN := by
    refine ⟨?_, ?_⟩
    · rintro rfl
      exact absurd (length_of_parsed hparsed) (by decide)
    · rcases length_of_parsed hparsed with h | h | h <;> exact h.trans_le (by decide)
  simp only [keychainReencrypt, keychainHasPin, sat_ite, sat_pure, sat_bind, sat_getRam, hcurr, hnew,
    hready.flag]
  refine ⟨fun h => by simp at h, fun _ => ⟨fun h => by simp at h, fun _ => ?_⟩⟩
  refine (sat_keychainLoadAndDecryptBlob_done hcurr hd hready hstored).mono ?_ (fun _ _ h => h)
  rintro r d₁ ⟨rfl, hfates⟩
  exact (sat_keychainEncryptAndSaveBlob_done hP hnew iv hne hlen hfates).mono
    (fun _ _ h => h.1) (fun _ _ h => h)

/-! ### Storing and loading are inverse to each other -/

/-- Entropy is never empty when it has been read from a payload. -/
theorem ne_nil_of_parsed {P : Prims} {serialized e : Bytes}
    (h : parsed P serialized = some (.entropy e)) : e ≠ [] := by
  rintro rfl
  have hlen := length_of_parsed h
  rw [parsed] at h
  split at h
  · obtain rfl : serialized = [] := Payload.entropy.inj (Option.some.inj h)
    exact absurd hlen (by decide)
  · split at h
    · obtain ⟨_, _, hkeys⟩ := Option.map_eq_some_iff.1 h
      exact absurd hkeys (by simp)
    · exact absurd h (by simp)

/-- The memory that holds a wallet has it for its payload. -/
theorem Ram.Holds.payload {r : Ram} {p : Payload} (h : r.Holds (some p))
    (hne : ∀ e, p = .entropy e → e ≠ []) : r.payload = some p := by
  cases p with
  | entropy e =>
      obtain ⟨-, rfl⟩ := h
      exact if_pos (hne _ rfl)
  | keys xpriv path mbk =>
      obtain ⟨hentropy, k, hdata, rfl, rfl, rfl⟩ := h
      rw [Ram.payload, if_neg (not_not.2 hentropy), hdata]
      rfl

/-- **The round trips of the stored wallet.** -/
structure RoundTrip (P : KeyPrims) : Prop where
  /-- Whatever wallet is in memory, storing it returns when the flash works. -/
  store_returns : ∀ aeskey iv d p, aeskey.length = AES_KEY_LEN_256 → d.fates = [] →
    (d.ram.keychainTemporary = true → d.ram.keychainData.isSome) → d.ram.payload = some p →
    p.Storable P → ∃ d₁, (keychainStore P.toPrims aeskey iv).run d = .ok true d₁
  /-- What was stored is loaded, after a logout as after a restart. -/
  load_store : ∀ aeskey iv d d₁ d₂,
    (d.ram.mnemonicEntropy = [] → ∀ k, d.ram.keychainData = some k → P.ValidKey k.xpriv) →
    (keychainStore P.toPrims aeskey iv).run d = .ok true d₁ → Locked P.toPrims d₁ d₂ →
    Sat (keychainLoad P.toPrims aeskey)
      (fun ok d₃ => ok = true ∧ d.ram.payload.isSome ∧ d₃.ram.Holds d.ram.payload)
      (fun e _ => e = .power) d₂
  /-- With the passphrase of the set-up, the keys of the set-up come back. -/
  derive_setup : ∀ mnemonic advancedMode entered aeskey iv d d₁ d₂ d₃ k,
    (initialiseWithMnemonic P false (some mnemonic) advancedMode entered).run d = .ok ⟨⟩ d₁ →
    d₁.ram.keychainData = some k →
    (keychainStore P.toPrims aeskey iv).run d₁ = .ok true d₂ → Locked P.toPrims d₂ d₃ →
    Sat (do
        if ← keychainLoad P.toPrims aeskey then
          keychainCompleteDerivationWithPassphrase P (passphraseFor d.ram.keyFlags entered)
        else
          return false)
      (fun ok d₄ => ok = true ∧ d₄.ram.keychainData = some k) (fun e _ => e = .power) d₃
  /-- A wallet that could be loaded can be re-encrypted when the flash works. -/
  reencrypt_returns : ∀ currAeskey newAeskey iv d d₁ d₂, currAeskey.length = AES_KEY_LEN_256 →
    newAeskey.length = AES_KEY_LEN_256 → d.ram.Holds none →
    (keychainLoad P.toPrims currAeskey).run d = .ok true d₁ → d₂.store = d₁.store →
    d₂.fates = [] → Ready d₂ →
    ∃ d₃, (keychainReencrypt P.toPrims currAeskey newAeskey iv).run d₂ = .ok true d₃
  /-- After re-encrypting, the new key loads the wallet that the old one loaded, and the old one
  loads nothing. -/
  load_reencrypt : ∀ currAeskey newAeskey iv d d₁ d₂ d₃ d₄, d.ram.Holds none →
    (keychainLoad P.toPrims currAeskey).run d = .ok true d₁ → d₂.store = d₁.store →
    (keychainReencrypt P.toPrims currAeskey newAeskey iv).run d₂ = .ok true d₃ →
    Locked P.toPrims d₃ d₄ →
    Sat (keychainLoad P.toPrims newAeskey)
      (fun ok d₅ => ok = true ∧ d₅.ram.Holds d₁.ram.payload) (fun e _ => e = .power) d₄ ∧
    (currAeskey ≠ newAeskey →
      Sat (keychainLoad P.toPrims currAeskey) (fun ok d₅ => ok = false ∧ d₅.ram.Holds none)
        (fun _ _ => True) d₄)
  /-- Whatever the flash holds, unless it is a serialised wallet under the key, the device ends up
  without a wallet, also when it is stopped. -/
  load_reject : ∀ aeskey d fates, d.ram.Holds none →
    (∀ blob serialized, d.store .blob = some blob →
      decrypted P.toPrims aeskey blob = some serialized → parsed P.toPrims serialized = none) →
    (step P.toPrims d ⟨.load aeskey, fates⟩).ram.Holds none

theorem loads_of_saved {P : KeyPrims} (hP : P.Lawful) {aeskey : Bytes} {p : Payload}
    (hp : p.Storable P) {st : Store NvsKey} (h : Saved P aeskey (p.encode P.toPrims) st) :
    loads P.toPrims aeskey st = some p := by
  rw [loads, h.stored]
  exact parsed_encode hP hp

/-- A load that succeeded found a wallet in flash, and left it there. -/
theorem loads_of_run {P : Prims} {aeskey : Bytes} {d d₁ : Dev NvsKey Ram PinTest}
    (hnone : d.ram.Holds none) (hload : (keychainLoad P aeskey).run d = .ok true d₁) :
    (loads P aeskey d.store).isSome ∧ d₁.ram.Holds (loads P aeskey d.store) ∧
      storedPayload P aeskey d₁.store = storedPayload P aeskey d.store := by
  rcases ((sat_keychainLoad_loads P aeskey hnone).ok hload).1 with ⟨hfalse, -⟩ | ⟨-, h⟩
  · exact absurd hfalse (by decide)
  · exact h

/-- **Storing and loading are inverse to each other.** -/
theorem store_load_roundTrip {P : KeyPrims} (hP : P.Lawful) : RoundTrip P where
  store_returns aeskey iv d p hkey hd htemp hpayload hp := by
    obtain ⟨ok, d₁, hrun, rfl⟩ :=
      (sat_keychainStore_done hP hkey iv hd htemp hpayload hp).exists_ok
    exact ⟨d₁, hrun⟩
  load_store aeskey iv d d₁ d₂ hvalid hrun hlocked := by
    obtain ⟨hflag, p, hp, hpayload, hsaved⟩ :=
      (sat_keychainStore_loads hP aeskey iv hvalid).ok hrun rfl
    rw [hpayload]
    refine (hlocked.sat_keychainLoad hflag hsaved.counter hsaved.keyLen
      (loads_of_saved hP hp hsaved)).mono ?_ (fun _ _ h => h)
    exact fun _ _ h => ⟨h.1, rfl, h.2⟩
  derive_setup mnemonic advancedMode entered aeskey iv d d₁ d₂ d₃ k hsetup hk hrun hlocked := by
    obtain ⟨hne, hbytes, s, s', hderive⟩ :=
      (sat_initialiseWithMnemonic P mnemonic advancedMode entered d).ok hsetup k hk
    obtain ⟨hflag, p, hp, hpayload, hsaved⟩ :=
      (sat_keychainStore_loads hP aeskey iv fun h => absurd h hne).ok hrun rfl
    obtain rfl : Payload.entropy d₁.ram.mnemonicEntropy = p := by
      rw [Ram.payload, if_pos hne] at hpayload
      exact Option.some.inj hpayload
    rw [sat_bind]
    refine (hlocked.sat_keychainLoad hflag hsaved.counter hsaved.keyLen
      (loads_of_saved hP hp hsaved)).mono ?_ (fun _ _ h => h)
    rintro ok d₄ ⟨rfl, hholds⟩
    exact (sat_keychainCompleteDerivation hP hderive hbytes hne hholds).mono (fun _ _ h => h)
      (fun _ _ h => h.elim)
  reencrypt_returns currAeskey newAeskey iv d d₁ d₂ hcurr hnew hnone hload hstore hd hready := by
    obtain ⟨hsome, -, hsame⟩ := loads_of_run hnone hload
    obtain ⟨p, hp⟩ := Option.isSome_iff_exists.1 hsome
    rw [loads, ← hsame, ← hstore] at hp
    obtain ⟨ok, d₃, hrun, rfl⟩ :=
      (sat_keychainReencrypt_done hP hcurr hnew iv hd hready hp).exists_ok
    exact ⟨d₃, hrun⟩
  load_reencrypt currAeskey newAeskey iv d d₁ d₂ d₃ d₄ hnone hload hstore hrun hlocked := by
    obtain ⟨hsome, hholds, hsame⟩ := loads_of_run hnone hload
    obtain ⟨hflag, hcurr, serialized, hstored, hsaved⟩ :=
      (sat_keychainReencrypt_saved hP currAeskey newAeskey iv d₂).ok hrun rfl
    obtain ⟨p, hp⟩ := Option.isSome_iff_exists.1 hsome
    have hparsed : parsed P.toPrims serialized = some p := by
      rw [loads, ← hsame, ← hstore, hstored] at hp
      exact hp
    have hnew : loads P.toPrims newAeskey d₃.store = some p := by
      rw [loads, hsaved.stored]
      exact hparsed
    rw [hp] at hholds
    rw [hholds.payload fun e he => ne_nil_of_parsed (he ▸ hparsed)]
    refine ⟨hlocked.sat_keychainLoad hflag hsaved.counter hsaved.keyLen hnew, fun hne => ?_⟩
    refine hlocked.sat_keychainLoad_none hflag hsaved.counter ?_
    rw [loads, hsaved.other currAeskey hcurr hne]
    rfl
  load_reject aeskey d fates hnone hreject := by
    refine step_holds_none hnone ?_
    rw [loads]
    refine Option.eq_none_iff_forall_ne_some.2 fun p hp => ?_
    obtain ⟨serialized, hstored, hparsed⟩ := Option.bind_eq_some_iff.1 hp
    obtain ⟨blob, hblob, hdec⟩ := Option.bind_eq_some_iff.1 hstored
    have hrecord := (Option.filter_eq_some_iff.1 hblob).1
    rw [hreject blob serialized hrecord hdec] at hparsed
    exact absurd hparsed (by simp)

/-! ### Primitives to evaluate with -/

/-- The key of every seed. -/
def toyXpriv : ExtKey where
  chainCode := []
  parent160 := []
  depth := 0
  privKey := []
  childNum := 0
  hash160 := []
  version := BIP32_VER_MAIN_PRIVATE
  pubKey := []

/-- Lawful primitives for evaluating runs: the authentication code is the key, encrypting is padding
with the length of the padding, and a mnemonic is its entropy. -/
def toyKeyPrims : KeyPrims where
  hmacSha256 key _ := key
  aesCbcEncrypt _ _ m :=
    let n := aesPaddedLen m.length - m.length
    m ++ List.replicate n (UInt8.ofNat n)
  aesCbcDecrypt _ _ c := some (c.take (c.length - (c.getLastD 0).toNat))
  bip32KeySerialize _ := List.replicate BIP32_SERIALIZED_LEN 0
  bip32KeyUnserialize _ := some toyXpriv
  bip39MnemonicToBytes mnemonic := some mnemonic
  bip39MnemonicValidate _ := true
  bip39MnemonicFromBytes e := some e
  bip39MnemonicToSeed _ _ := some (List.replicate BIP32_ENTROPY_LEN_512 0)
  bip32KeyFromSeed _ _ := some toyXpriv
  bip32KeyFromParentPath k _ := some k
  wallyAssetBlindingKeyFromSeed _ := some (Vector.replicate HMAC_SHA512_LEN 0)
  hmacSha512 _ _ := List.replicate HMAC_SHA512_LEN 0

theorem toyKeyPrims_lawful : toyKeyPrims.Lawful where
  hmac_length _ _ h := h
  hmac_key _ _ _ _ _ h := h
  serialize_length _ := List.length_replicate
  encrypt_length _ _ m _ := by
    simp only [toyKeyPrims, List.length_append, List.length_replicate, aesPaddedLen, AES_BLOCK_LEN]
    omega
  fromBytes_toBytes _ _ h := h.symm
  decrypt_encrypt _ _ m _ := by
    -- there is at least one byte of padding, and at most a block
    obtain ⟨n, hn, hpos, hle⟩ : ∃ n, aesPaddedLen m.length - m.length = n ∧ 0 < n ∧ n ≤ 16 := by
      refine ⟨_, rfl, ?_⟩
      simp only [aesPaddedLen, AES_BLOCK_LEN]
      omega
    have hlast : (m ++ List.replicate n (UInt8.ofNat n)).getLastD 0 = UInt8.ofNat n := by
      obtain ⟨n, rfl⟩ : ∃ k, n = k + 1 := ⟨n - 1, by omega⟩
      rw [List.replicate_succ', ← List.append_assoc, List.getLastD_concat]
    have hnat : (UInt8.ofNat n).toNat = n := by
      rw [UInt8.toNat_ofNat']
      omega
    simp only [toyKeyPrims, hn, hlast, hnat, List.length_append, List.length_replicate,
      Nat.add_sub_cancel]
    rw [List.take_left' rfl]

/-- A wallet is set up from a mnemonic and stored. -/
def toySetup : KeychainM Bool := do
  initialiseWithMnemonic toyKeyPrims false (some (List.replicate BIP39_ENTROPY_LEN_128 7)) false []
  assert (← getRam).keychainData.isSome
  keychainStore toyKeyPrims.toPrims (toyKey 1) toyIv

/-- The round trips hold for these primitives, and there are wallets to make them. -/
theorem store_load_roundTrip_toy :
    RoundTrip toyKeyPrims ∧
      (match toySetup.run (powerOn fun _ => none) with
        | .ok stored _ => stored
        | .error _ _ => false) = true :=
  ⟨store_load_roundTrip toyKeyPrims_lawful, by decide +kernel⟩

end Jade
