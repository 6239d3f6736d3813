/-
**BIP85 requests (`process/get_bip85_entropy.c`, `process/sign_bip85_digest.c`, `rsa.c`).**

Two requests export the entropy of a wallet or of an RSA key below the unlocked one, encrypted for a
key that the host gives; a third one signs digests with such an RSA key.  Each reads a size and an
index, prints both into buffers, asks the user, and derives.

Main definitions:

* `Jade.Bip85Wally` — keys, entropy, encryption and RSA, of the libraries below;
* `Jade.getBip85Bip39EntropyProcess`, `Jade.getBip85RsaEntropyProcess`,
  `Jade.signBip85DigestsProcess` — the three requests.
-/

import Jade.Keychain.Keychain
import Jade.Process.Dispatch
import Jade.Utils.Handler

set_option relaxedAutoImplicit false
set_option autoImplicit false

namespace Jade

/-! ### The libraries below -/

/-- What is called below, with the unlocked wallet and the random numbers drawn. -/
structure Bip85Wally where
  /-- `keychain_get_new_privatekey` -/
  newPrivatekey : Option Bytes
  /-- `wally_ec_public_key_from_private_key` -/
  publicKey : Bytes → Option Bytes
  /-- `bip85_get_bip39_entropy`, of a number of words and an index -/
  bip39Entropy : UInt32 → UInt32 → Option Bytes
  /-- `bip85_get_rsa_entropy`, of a number of bits and an index -/
  rsaEntropy : UInt32 → UInt32 → Option Bytes
  /-- `wally_aes_cbc_with_ecdh_key`, of a private key, the text, a public key and the label -/
  aesCbcWithEcdhKey : Bytes → Bytes → Bytes → Bytes → Option Bytes
  /-- `mbedtls_rsa_gen_key`, of a number of bits and the entropy behind its random numbers -/
  rsaGenKey : UInt32 → Bytes → Option Bytes
  /-- `mbedtls_rsa_rsassa_pss_sign`, for the digest at a position -/
  rsaSign : Bytes → ℕ → Bytes → Option Bytes

def RSA_DIGEST_LEN : ℕ := 32
def MAX_RSA_GEN_KEY_LEN : UInt32 := 4096

/-- `RSA_KEY_SIZE_VALID` -/
def rsaKeySizeValid (bits : UInt32) : Bool :=
  bits == 1024 || bits == 2048 || bits == 3072 || bits == 4096 || bits == 8192

/-! ### Screens and replies -/

/-- The screen of a confirmation. -/
structure Bip85Screen where
  title : String
  message : List String
  deriving DecidableEq

inductive Bip85Reply
  | entropy (pubkey encrypted : Bytes)
  | signatures (signatures : List Bytes)
  deriving DecidableEq

/-- `snprintf` into a buffer of this size, and the assertion that the text is whole. -/
def printed (size : ℕ) (text : String) : Except Fault String := do
  jadeVerify (decide (0 < text.length) && decide (text.length < size))
  return text

section Model

variable {V : Type} (C : TinyCborValues V) (W : Bip85Wally) (user : Bip85Screen → Bool)

/-! ### Parameters -/

/-- A number that has to be there and to be valid. -/
def checkedSizet (field : String) (valid : UInt32 → Bool) (errmsg : String) (params : V) :
    Handler Bip85Screen Bip85Reply UInt32 :=
  match rpcGetSizet C field params with
  | none => reject CBOR_RPC_BAD_PARAMETERS errmsg
  | some n => if valid n then pure n else reject CBOR_RPC_BAD_PARAMETERS errmsg

/-- The index, which may be any number of 32 bits. -/
def checkedIndex (params : V) : Handler Bip85Screen Bip85Reply UInt32 :=
  checkedSizet C "index" (fun _ => true) "Failed to fetch valid index from message" params

/-- The key of the host. -/
def checkedPubkey (params : V) : Handler Bip85Screen Bip85Reply Bytes := do
  let pubkey ← orFault (getter (rpcGetBytesPtr C.toTinyCbor "pubkey" params))
  if (pubkey.getD []).length ≠ EC_PUBLIC_KEY_LEN then
    reject CBOR_RPC_BAD_PARAMETERS "Failed to fetch valid pubkey from message"
  else pure (pubkey.getD [])

/-! ### Replies -/

/-- `jade_process_reply_to_message_result`, with a result of `payload` bytes and a buffer of
`outputSize`. -/
def replyMessageResult (value : V) (payload outputSize : ℕ) : Except WireAbort Answer := do
  let id ← rpcGetId C.toTinyCbor value
  jadeAssert (decide (id.length ≠ 0))
  replyToMessageResultWithId id payload outputSize

/-- The entropy, encrypted, and the key it was encrypted with. -/
structure Bip85Data where
  pubkey : Bytes
  encrypted : Bytes

/-- The encoded size of a string. -/
def stringSize (bytes : Bytes) : ℕ := stringHead bytes.length + bytes.length

/-- The encoded size of `populate_bip85_reply_data`. -/
def bip85Payload (data : Bip85Data) : ℕ :=
  1 + stringSize (ascii "pubkey") + stringSize data.pubkey + stringSize (ascii "encrypted") +
    stringSize data.encrypted

/-- The reply of both exports, `reply_bip85_data` into a buffer of 256 bytes. -/
def replyBip85Data (value : V) (data : Bip85Data) : Handler Bip85Screen Bip85Reply Unit := do
  orFault (jadeVerify (!data.encrypted.isEmpty))
  let _ ← orFault (getter (replyMessageResult C value (bip85Payload data) 256))
  sendReply (.entropy data.pubkey data.encrypted)

/-- The encoded size of `reply_signatures`, of fewer than 24 signatures. -/
def signaturesPayload (signatures : List Bytes) : ℕ := 1 + (signatures.map stringSize).sum

/-! ### Exports -/

def HMAC_BIP39_MESSAGE : Bytes := ascii "bip85_bip39_entropy"
def HMAC_RSA_MESSAGE : Bytes := ascii "bip85_rsa_entropy"

/-- `sizeof(bip85_data_t.encrypted)` -/
def ENCRYPTED_LEN : ℕ := 16 + (HMAC_SHA512_LEN / 16 + 1) * 16 + 32

/-- `wallet_get_bip85_bip39_entropy` -/
def walletGetBip85Bip39Entropy (nwords index : UInt32) : Except Fault Bytes := do
  jadeVerify (decide (nwords ≠ 0))
  let entropy ← wallyVerify (W.bip39Entropy nwords index)
  jadeVerify (decide (entropy.length ≤ HMAC_SHA512_LEN))
  return entropy

/-- `wallet_get_bip85_rsa_entropy` -/
def walletGetBip85RsaEntropy (keyBits index : UInt32) : Except Fault Bytes := do
  jadeVerify (decide (keyBits ≠ 0))
  let entropy ← wallyVerify (W.rsaEntropy keyBits index)
  jadeVerify (decide (entropy.length ≤ HMAC_SHA512_LEN))
  return entropy

/-- `get_encrypted_bip85_bip39_entropy` and its twin for RSA, with the entropy and the label of
either. -/
def encryptedEntropy (getEntropy : Except Fault Bytes) (label pubkey : Bytes) :
    Handler Bip85Screen Bip85Reply Bip85Data := do
  orFault (jadeVerify (decide (pubkey.length = EC_PUBLIC_KEY_LEN)))
  match W.newPrivatekey with
  | none => reject CBOR_RPC_INTERNAL_ERROR "Failed to generate new ephemeral key"
  | some ephPrivkey => do
      let ephPubkey ← orFault (wallyVerify (W.publicKey ephPrivkey))
      let entropy ← orFault getEntropy
      if entropy.isEmpty || decide (HMAC_SHA512_LEN < entropy.length) then
        reject CBOR_RPC_INTERNAL_ERROR "Failed to calculate bip85 entropy from parameters"
      else
        match W.aesCbcWithEcdhKey ephPrivkey entropy pubkey label with
        | none => reject CBOR_RPC_INTERNAL_ERROR "Failed to encrypt bip85 entropy"
        | some encrypted =>
            if ENCRYPTED_LEN < encrypted.length then
              reject CBOR_RPC_INTERNAL_ERROR "Failed to encrypt bip85 entropy"
            else pure ⟨ephPubkey, encrypted⟩

def getEncryptedBip85Bip39Entropy (nwords index : UInt32) (pubkey : Bytes) :
    Handler Bip85Screen Bip85Reply Bip85Data :=
  encryptedEntropy W (walletGetBip85Bip39Entropy W nwords index) HMAC_BIP39_MESSAGE pubkey

def getEncryptedBip85RsaEntropy (keyBits index : UInt32) (pubkey : Bytes) :
    Handler Bip85Screen Bip85Reply Bip85Data :=
  encryptedEntropy W (walletGetBip85RsaEntropy W keyBits index) HMAC_RSA_MESSAGE pubkey

/-- The confirmation of an export: what is exported, and its index. -/
def confirmExport (what : String) (index : UInt32) : Handler Bip85Screen Bip85Reply Bool := do
  let nwordphrase ← orFault (printed 24 what)
  let txtindex ← orFault (printed 24 ("for BIP85 index " ++ toString index.toNat ++ "?"))
  askUser user ⟨"Key Export", ["Export an encrypted", nwordphrase, txtindex]⟩

/-- The fixed request of a swap. -/
def isSwap (nwords index : UInt32) : Bool := nwords == 12 && index == 26589

/-- The confirmation of `get_bip85_bip39_entropy_data`. -/
def confirmBip39 (nwords index : UInt32) : Handler Bip85Screen Bip85Reply Bool :=
  if isSwap nwords index then
    askUser user ⟨"Enable Swaps", ["Scan successful!", "Continue to pair", "with wallet app."]⟩
  else confirmExport user (toString nwords.toNat ++ " word seed phrase") index

/-- `get_bip85_bip39_entropy_data` -/
def getBip85Bip39EntropyData (params : V) : Handler Bip85Screen Bip85Reply Bip85Data := do
  let nwords ← checkedSizet C "num_words" (fun n => n == 12 || n == 24)
    "Failed to fetch valid number of words from message" params
  let index ← checkedIndex C params
  let pubkey ← checkedPubkey C params
  if ← confirmBip39 user nwords index then
    getEncryptedBip85Bip39Entropy W nwords index pubkey
  else reject CBOR_RPC_USER_CANCELLED "User declined to export entropy"

/-- `get_bip85_rsa_entropy_data` -/
def getBip85RsaEntropyData (params : V) : Handler Bip85Screen Bip85Reply Bip85Data := do
  let keyBits ← checkedSizet C "key_bits" rsaKeySizeValid
    "Failed to fetch valid number of key_bits from message" params
  let index ← checkedIndex C params
  let pubkey ← checkedPubkey C params
  if ← confirmExport user (toString keyBits.toNat ++ " rsa key size") index then
    getEncryptedBip85RsaEntropy W keyBits index pubkey
  else reject CBOR_RPC_USER_CANCELLED "User declined to export entropy"

/-- A process looks at its message, and takes the parameters out of it. -/
def withMsgParams (value : V) (method : String) (k : V → Handler Bip85Screen Bip85Reply Unit) :
    Handler Bip85Screen Bip85Reply Unit := do
  orFault (getter (assertCurrentMessage C.toTinyCborStrings value (ascii method)))
  match getMsgParams C.toTinyCborStrings value with
  | none => reject CBOR_RPC_BAD_PARAMETERS "Expecting parameters map"
  | some params => k params

def getBip85Bip39EntropyProcess (value : V) : Handler Bip85Screen Bip85Reply Unit :=
  withMsgParams C value "get_bip85_bip39_entropy" fun params => do
    let data ← getBip85Bip39EntropyData C W user params
    replyBip85Data C value data

def getBip85RsaEntropyProcess (value : V) : Handler Bip85Screen Bip85Reply Unit :=
  withMsgParams C value "get_bip85_rsa_entropy" fun params => do
    let data ← getBip85RsaEntropyData C W user params
    replyBip85Data C value data

/-! ### Signatures -/

def KEY_TYPE_RSA : Bytes := ascii "RSA"

/-- `params_get_bip85_rsa_key`: the number of bits and the index. -/
def paramsGetBip85RsaKey (params : V) : Handler Bip85Screen Bip85Reply (UInt32 × UInt32) := do
  let keyType ← orFault (getter (rpcGetString C "key_type" 8 params))
  if keyType ≠ KEY_TYPE_RSA then
    reject CBOR_RPC_BAD_PARAMETERS "Cannot extract valid key_type from parameters"
  else do
    let keyBits ← checkedSizet C "key_bits"
      (fun n => !decide (MAX_RSA_GEN_KEY_LEN < n) && rsaKeySizeValid n)
      "Failed to fetch valid key length from message" params
    let index ← checkedIndex C params
    pure (keyBits, index)

/-- The items of the array, up to one that is no digest. -/
def digestItems : List V → Except WireAbort (Option (List Bytes))
  | [] => .ok (some [])
  | item :: items => do
      match ← rpcGetRawTypePtr C.toTinyCbor CBOR_BINARY_MASK item with
      | none => return none
      | some data =>
          if data.length ≠ RSA_DIGEST_LEN then return none
          else
            let digests ← digestItems items
            return digests.map (data :: ·)

/-- `get_digests_allocate`; without digests there are none. -/
def getDigests (field : String) (value : V) : Except WireAbort (List Bytes) :=
  match rpcGetData C.toTinyCbor field value with
  | none => .ok []
  | some result =>
      match C.arrayItems result with
      | none => .ok []
      | some items => do
          let digests ← digestItems C items
          return digests.getD []

def maxDigests (keyBits : UInt32) : ℕ := if keyBits ≤ 2048 then 8 else if keyBits < 4096 then 6 else 4

/-- `get_bip85_rsa_ctx` -/
def getBip85RsaCtx (keyBits index : UInt32) : Except Fault (Option Bytes) := do
  jadeVerify (decide (keyBits ≤ MAX_RSA_GEN_KEY_LEN))
  jadeVerify (rsaKeySizeValid keyBits)
  let entropy ← walletGetBip85RsaEntropy W keyBits index
  jadeVerify (decide (entropy.length = 64))
  return W.rsaGenKey keyBits entropy

/-- The loop of `rsa_bip85_key_sign_digests`. -/
def signDigests (key : Bytes) (digests : List Bytes) : Option (List Bytes) :=
  digests.zipIdx.mapM fun (digest, i) =>
    if digest.length ≠ RSA_DIGEST_LEN then none else W.rsaSign key i digest

/-- `rsa_bip85_key_sign_digests` -/
def rsaBip85KeySignDigests (keyBits index : UInt32) (digests : List Bytes) :
    Except Fault (Option (List Bytes)) := do
  jadeVerify (decide (keyBits ≤ MAX_RSA_GEN_KEY_LEN))
  jadeVerify (rsaKeySizeValid keyBits)
  jadeVerify (!digests.isEmpty)
  match ← getBip85RsaCtx W keyBits index with
  | none => return none
  | some key => return signDigests W key digests

/-- The confirmation of a signature. -/
def confirmDigests (keyBits index : UInt32) (numDigests : ℕ) :
    Handler Bip85Screen Bip85Reply Bool := do
  let buf1 ← orFault (printed 20
    (if 1 < numDigests then "Sign " ++ toString numDigests ++ " digests" else "Sign passed digest"))
  let buf2 ← orFault (printed 24 ("with " ++ toString keyBits.toNat ++ "-bit key"))
  let buf3 ← orFault (printed 32 ("index: " ++ toString index.toNat ++ "?"))
  askUser user ⟨"BIPI85 RSA Signing", [buf1, buf2, buf3]⟩

/-- From the confirmation to the reply, into a buffer of 2304 bytes. -/
def confirmAndSignDigests (value : V) (keyBits index : UInt32) (digests : List Bytes) :
    Handler Bip85Screen Bip85Reply Unit := do
  if ← confirmDigests user keyBits index digests.length then
    match ← orFault (rsaBip85KeySignDigests W keyBits index digests) with
    | none => reject CBOR_RPC_INTERNAL_ERROR "Failed to generate RSA signatures"
    | some signatures => do
        let _ ← orFault (getter (replyMessageResult C value (signaturesPayload signatures) 2304))
        sendReply (.signatures signatures)
  else reject CBOR_RPC_USER_CANCELLED "User declined to sign digests"

def signBip85DigestsProcess (value : V) : Handler Bip85Screen Bip85Reply Unit :=
  withMsgParams C value "sign_bip85_digests" fun params => do
    let (keyBits, index) ← paramsGetBip85RsaKey C params
    let digests ← orFault (getter (getDigests C "digests" params))
    if digests.isEmpty then
      reject CBOR_RPC_BAD_PARAMETERS "Failed to extract digests from parameters"
    else if maxDigests keyBits < digests.length then
      reject CBOR_RPC_BAD_PARAMETERS "Unsupported number of digests"
    else confirmAndSignDigests C W user value keyBits index digests

end Model

end Jade
