/-
**Asking the PIN oracle (`process/pinclient.c`, `storage.c`, `process/process_utils.c`).**

The key that decrypts the stored wallet comes from an oracle. For each question the device draws a
private key that it uses once, takes the next value of a counter out of the flash, and tweaks the
public key of the oracle with both. The question is sealed under what the two keys have in common;
it holds a secret made from the PIN, sometimes some entropy, and the signature of the unit. The host
passes it on, and comes back with the answer as a message of its own.

What is drawn is read off a stream of random bytes. The reads of the flash always succeed, and a
function of the flash that fails does so in its commit.

Main definitions:

* `Jade.Pinclient.ClientM` — programs with the flash, the wallet in memory and the host;
* `Jade.Pinclient.storageGetReplayCounter` — the counter;
* `Jade.Pinclient.pinserverInteraction` — one question and its answer;
* `Jade.Pinclient.pinclientGet`, `Jade.Pinclient.pinclientSet` — questions until one is answered.
-/

import Jade.Keychain.Keychain
import Jade.Pinserver.Update
import Jade.Process.Session

set_option relaxedAutoImplicit false
set_option autoImplicit false

namespace Jade.Pinclient

open Exec Flash

/-! ### Sizes and labels -/

def SHA256_LEN : ℕ := 32
def EC_SIGNATURE_RECOVERABLE_LEN : ℕ := 65
def PIN_SECRET_LEN : ℕ := HMAC_SHA256_LEN
def ENTROPY_LEN : ℕ := HMAC_SHA256_LEN
def REPLAY_COUNTER_LEN : ℕ := 4

def CLIENT_MAX_CLEARTEXT_LEN : ℕ := PIN_SECRET_LEN + ENTROPY_LEN + EC_SIGNATURE_RECOVERABLE_LEN

def CLIENT_REQUEST_MAX_PAYLOAD_LEN : ℕ := aesEncryptedLen CLIENT_MAX_CLEARTEXT_LEN + HMAC_SHA256_LEN

def SERVER_REPLY_PAYLOAD_LEN : ℕ := aesEncryptedLen AES_KEY_LEN_256 + HMAC_SHA256_LEN

/-- The buffer of the text that is sent. -/
def ORACLE_DATA_LEN : ℕ :=
  2 * (EC_PUBLIC_KEY_LEN + REPLAY_COUNTER_LEN + CLIENT_REQUEST_MAX_PAYLOAD_LEN)

def LABEL_ORACLE_REQUEST : Bytes := ascii "blind_oracle_request"
def LABEL_ORACLE_RESPONSE : Bytes := ascii "blind_oracle_response"

def PINSERVER_URL : Bytes := ascii "https://j8d.io"
def PINSERVER_ONION : Bytes :=
  ascii "http://mrrxtq6tjpbnbm7vh5jt6mpjctn7ggyfy5wegvbeff3x7jrznqawlmid.onion"

/-- The documents that are posted to. -/
inductive Document
  | getPin
  | setPin
  deriving DecidableEq

def Document.name : Document → Bytes
  | .getPin => ascii "get_pin"
  | .setPin => ascii "set_pin"

/-! ### Libraries -/

/-- The primitives of the libraries, and the built-in public key of the oracle. A hash fails for no
argument that is given here. -/
structure PinWally where
  serverPublicKey : Bytes
  ecPrivateKeyVerify : Bytes → Bool
  ecPublicKeyVerify : Bytes → Bool
  ecPublicKeyFromPrivateKey : Bytes → Option Bytes
  /-- `wally_ec_public_key_bip341_tweak`: key, tweak -/
  ecPublicKeyBip341Tweak : Bytes → Bytes → Option Bytes
  /-- `wally_ec_sig_from_bytes` with `EC_FLAG_ECDSA | EC_FLAG_RECOVERABLE`: key, hash -/
  ecSigFromBytes : Bytes → Bytes → Option Bytes
  sha256 : Bytes → Bytes
  /-- `wally_hmac_sha256`: key, message -/
  hmacSha256 : Bytes → Bytes → Bytes
  /-- `wally_aes_cbc_with_ecdh_key` with `AES_FLAG_ENCRYPT`: private key, initialisation vector,
  cleartext, public key, label -/
  aesEncryptWithEcdhKey : Bytes → Bytes → Bytes → Bytes → Bytes → Option Bytes
  /-- `wally_aes_cbc_with_ecdh_key` with `AES_FLAG_DECRYPT`: private key, what was encrypted, public
  key, label -/
  aesDecryptWithEcdhKey : Bytes → Bytes → Bytes → Bytes → Option Bytes
  base64Encode : Bytes → Bytes
  base64Decode : Bytes → Option Bytes

/-! ### Programs -/

/-- The records of the default namespace: those of the wallet and of the settings, the counter, and
the PIN that erases the wallet. -/
inductive ClientKey
  | settings (k : OracleKey)
  | antireplay
  | walletErasePin
  deriving DecidableEq

/-- The settings of a flash. -/
def settings (st : Store ClientKey) : Store OracleKey := fun k => st (.settings k)

/-- `client_data_request_t`, with the constants that the client fills in. -/
structure HttpRequest where
  urls : List Bytes
  certificate : Option Bytes
  method : Bytes := ascii "POST"
  accept : Bytes := ascii "json"
  strdata : Bytes
  onReply : Bytes := ascii "pin"
  deriving DecidableEq

/-- What the answers hold apart from errors and `true`. -/
inductive PinReply
  | httpRequest (request : HttpRequest)
  | no
  deriving DecidableEq

/-- The screens of these processes. -/
inductive PinScreen
  | unlockJade
  | enterCurrentPin
  | enterNewPin
  | confirmPin
  | pinMismatch
  | changePin
  | networkError
  deriving DecidableEq

abbrev PinTalk (V : Type) : Type := Dialogue.State (Incoming V) PinScreen (Outgoing PinReply)

/-- The volatile memory: the variables of the keychain, the exchange with the host, the random bytes
that are still to be drawn, and whether the PIN is to be changed on the next login. -/
structure ClientRam (V : Type) where
  keychain : Ram
  talk : PinTalk V
  random : ℕ → UInt8
  changePinRequested : Bool := false

/-- The part of the memory that is not about the exchange. -/
def ClientRam.held {V : Type} (r : ClientRam V) : Ram × Bool := (r.keychain, r.changePinRequested)

/-- Programs with the flash, the wallet in memory and the host. -/
abbrev ClientM (V : Type) : Type → Type := Prog ClientKey (ClientRam V) Unit

abbrev ClientDev (V : Type) : Type := Dev ClientKey (ClientRam V) Unit

section Steps

variable {V α : Type}

/-- The device after a part of the exchange. -/
def ClientRam.putTalk (r : ClientRam V) (talk : PinTalk V) : ClientRam V := { r with talk }

@[simp] theorem ClientRam.putTalk_talk (r : ClientRam V) (talk : PinTalk V) :
    (r.putTalk talk).talk = talk := rfl

@[simp] theorem ClientRam.putTalk_held (r : ClientRam V) (talk : PinTalk V) :
    (r.putTalk talk).held = r.held := rfl

/-- A part of the exchange with the host; whatever goes wrong in it is an assertion that fails. -/
def onTalk (x : Session V PinScreen PinReply α) : ClientM V α := fun d =>
  match x d.ram.talk with
  | .ok a talk => .ok a { d with ram := d.ram.putTalk talk }
  | .error _ talk => .error .assert { d with ram := d.ram.putTalk talk }

theorem sat_onTalk {Q : α → ClientDev V → Prop} {E : Stop → ClientDev V → Prop} {d : ClientDev V}
    (x : Session V PinScreen PinReply α) :
    Sat (onTalk x) Q E d ↔
      Sat x (fun a talk => Q a { d with ram := d.ram.putTalk talk })
        (fun _ talk => E .assert { d with ram := d.ram.putTalk talk }) d.ram.talk := by
  simp only [sat_iff, EStateM.run, onTalk]
  cases x d.ram.talk with
  | ok a talk => rfl
  | error e talk => rfl

/-- The first `n` bytes of a stream. -/
def drawn (random : ℕ → UInt8) (n : ℕ) : Bytes := (List.range n).map random

@[simp] theorem length_drawn (random : ℕ → UInt8) (n : ℕ) : (drawn random n).length = n := by
  rw [drawn, List.length_map, List.length_range]

/-- `get_random` -/
def getRandom (n : ℕ) : ClientM V Bytes := do
  let r ← getRam
  modifyRam fun r => { r with random := fun i => r.random (i + n) }
  return drawn r.random n

end Steps

/-! ### The flash -/

section Storage

variable {V : Type} (W : PinWally)

def UINT32_MAX : ℕ := 2 ^ 32 - 1

/-- What `nvs_get_u32` makes of the record of the counter: a missing one counts as 0, and one of
another type cannot be read. -/
def replayCounterOf (st : Store ClientKey) : Option ℕ :=
  match st .antireplay with
  | none => some 0
  | some v => if v.length = REPLAY_COUNTER_LEN then some (Bytes.toNatLE v) else none

/-- `storage_get_replay_counter`: the value for this question; the one in the flash is the next. -/
def storageGetReplayCounter : ClientM V (Option ℕ) := do
  match replayCounterOf (← get).store with
  | none => return none
  | some j => do
      assert (decide (j < UINT32_MAX))
      if ← write .antireplay (Bytes.ofNatLE REPLAY_COUNTER_LEN (j + 1)) then return some j
      else return none

/-- `storage_get_pin_privatekey` -/
def storageGetPinPrivatekey : ClientM V (Option Bytes) := do
  let key := fixedRecord (settings (← get).store) .privatekey EC_PRIVATE_KEY_LEN
  return key.filter fun key => W.ecPrivateKeyVerify key

/-- `storage_set_pin_privatekey` -/
def storageSetPinPrivatekey (privatekey : Bytes) : ClientM V Bool :=
  if W.ecPrivateKeyVerify privatekey then write (.settings .privatekey) privatekey
  else return false

/-- `read_string`, into a buffer of `len` bytes. -/
def readString (st : Store ClientKey) (k : OracleKey) (len : ℕ) : Option Bytes :=
  (st (.settings k)).filter fun text => decide (text.length + 1 ≤ len)

/-- `keychain_get_new_privatekey`, with so many attempts left. -/
def keychainGetNewPrivatekey : ℕ → ClientM V (Option Bytes)
  | 0 => return none
  | attempts + 1 => do
      let key ← getRandom EC_PRIVATE_KEY_LEN
      if W.ecPrivateKeyVerify key then return some key
      else keychainGetNewPrivatekey attempts

/-- `pin_get_unit_privatekey`: a new one is made on demand. -/
def pinGetUnitPrivatekey : ClientM V (Option Bytes) := do
  match ← storageGetPinPrivatekey W with
  | some key => return some key
  | none => do
      match ← keychainGetNewPrivatekey W 4 with
      | none => return none
      | some key => if ← storageSetPinPrivatekey W key then return some key else return none

end Storage

/-! ### The keys of a question -/

/-- `pin_keys_t` -/
structure PinKeys where
  ske : Bytes
  cke : Bytes
  privkey : Bytes
  replayCounter : Bytes
  deriving DecidableEq

section Keys

variable {V : Type} (W : PinWally)

/-- The key of the oracle: the user's, or the built-in one. -/
def oraclePubkey (st : Store ClientKey) : Bytes :=
  (fixedRecord (settings st) .pinsvrpubkey EC_PUBLIC_KEY_LEN).getD W.serverPublicKey

/-- The tweak of a session. -/
def sessionTweak (cke counter : Bytes) : Bytes := W.sha256 (W.hmacSha256 cke counter)

/-- `generate_ske` -/
def generateSke (pubkey cke counter : Bytes) : Option Bytes :=
  if W.ecPublicKeyVerify pubkey then W.ecPublicKeyBip341Tweak pubkey (sessionTweak W cke counter)
  else none

/-- `generate_ephemeral_pinkeys`; an error is the text of the message that is sent. -/
def generateEphemeralPinkeys : ClientM V (Except String PinKeys) := do
  match ← keychainGetNewPrivatekey W 4 with
  | none => return .error "Cannot initiate handshake - failed to generate ephemeral client key"
  | some privkey => do
      match W.ecPublicKeyFromPrivateKey privkey with
      | none => return .error "Cannot initiate handshake - failed to generate ephemeral client key"
      | some cke => do
          match ← storageGetReplayCounter with
          | none => return .error "Cannot initiate handshake - failed to deduce ephemeral server key"
          | some j => do
              let counter := Bytes.ofNatLE REPLAY_COUNTER_LEN j
              match generateSke W (oraclePubkey W (← get).store) cke counter with
              | none =>
                  return .error "Cannot initiate handshake - failed to deduce ephemeral server key"
              | some ske => return .ok { ske, cke, privkey, replayCounter := counter }

/-- `get_pin_secret` -/
def getPinSecret (pin privatekey : Bytes) : Bytes :=
  W.hmacSha256 (W.hmacSha256 privatekey [0]) pin

/-- `sign_payload` -/
def signPayload (privatekey : Bytes) (pinkeys : PinKeys) (pinsecret entropy : Bytes) :
    Option Bytes :=
  W.ecSigFromBytes privatekey
    (W.sha256 (pinkeys.cke ++ pinkeys.replayCounter ++ pinsecret ++ entropy))

/-- `encrypt_payload`, after the initialisation vector was drawn. -/
def encryptPayload (pinkeys : PinKeys) (pinsecret entropy sig iv : Bytes) : Option Bytes :=
  (W.aesEncryptWithEcdhKey pinkeys.privkey iv (pinsecret ++ entropy ++ sig) pinkeys.ske
    LABEL_ORACLE_REQUEST).filter fun payload =>
      decide (payload.length ≤ CLIENT_REQUEST_MAX_PAYLOAD_LEN)

/-- `assemble_reply_data`; `mbedtls_base64_encode` needs room for a terminator. -/
def assembleReplyData (pinkeys : PinKeys) (payload : Bytes) : Option Bytes :=
  let text := W.base64Encode (pinkeys.cke ++ pinkeys.replayCounter ++ payload)
  if text.length < ORACLE_DATA_LEN ∧ text ≠ [] then some text else none

/-- `decrypt_reply` -/
def decryptReply (pinkeys : PinKeys) (encrypted : Bytes) : Option Bytes :=
  (W.aesDecryptWithEcdhKey pinkeys.privkey encrypted pinkeys.ske LABEL_ORACLE_RESPONSE).filter
    fun key => decide (key.length = AES_KEY_LEN_256)

/-- The content of a question: the part of `pinserver_interaction` between the keys of the session
and the reply. -/
def oracleMessage (pinkeys : PinKeys) (pin : Bytes) (passClientEntropy : Bool) :
    ClientM V (Option Bytes) := do
  let drawn ← getRandom ENTROPY_LEN
  let entropy := if passClientEntropy then drawn else []
  match ← pinGetUnitPrivatekey W with
  | none => return none
  | some privatekey => do
      let pinsecret := getPinSecret W pin privatekey
      match signPayload W privatekey pinkeys pinsecret entropy with
      | none => return none
      | some sig => do
          let iv ← getRandom AES_BLOCK_LEN
          return (encryptPayload W pinkeys pinsecret entropy sig iv).bind
            (assembleReplyData W pinkeys)

end Keys

/-! ### The request -/

section Request

variable {V : Type} (W : PinWally) (C : TinyCborStrings V)

/-- The address of a document under a setting, which may say that there is none. -/
def documentUrl (url : Option Bytes) (dflt document : Bytes) : Option Bytes :=
  match url with
  | some [] => none
  | some url => some (url ++ ascii "/" ++ document)
  | none => some (dflt ++ ascii "/" ++ document)

/-- The size of a text in a message. -/
def textSize (text : Bytes) : ℕ := stringHead text.length + text.length

/-- The size of a text under its name. -/
def fieldSize (name text : Bytes) : ℕ := textSize name + textSize text

/-- The size of an array of a few texts under its name. -/
def textsSize (name : Bytes) (texts : List Bytes) : ℕ :=
  textSize name + 1 + (texts.map textSize).sum

/-- The bytes that `client_data_request_reply` writes. -/
def HttpRequest.size (r : HttpRequest) : ℕ :=
  1 + textSize (ascii "http_request") + (1 + textSize (ascii "params")) +
    (1 + (if r.urls = [] then 0 else textsSize (ascii "urls") r.urls) +
      (r.certificate.map fun cert => textsSize (ascii "root_certificates") [cert]).getD 0 +
      fieldSize (ascii "method") r.method + fieldSize (ascii "accept") r.accept +
      (textSize (ascii "data") + 1 + fieldSize (ascii "data") r.strdata)) +
    fieldSize (ascii "on-reply") r.onReply

/-- The request that the settings call for. -/
def httpRequest (st : Store ClientKey) (document : Document) (data : Bytes) : HttpRequest where
  urls :=
    (documentUrl (readString st .pinsvrurlA MAX_PINSVR_URL_LENGTH) PINSERVER_URL
      document.name).toList ++
    (documentUrl (readString st .pinsvrurlB MAX_PINSVR_URL_LENGTH) PINSERVER_ONION
      document.name).toList
  certificate := readString st .pinsvrcert MAX_PINSVR_CERTIFICATE_LENGTH
  strdata := Bytes.cstr data

/-- The buffer of the reply. -/
def replyBufferLen (st : Store ClientKey) : ℕ :=
  1024 + ((readString st .pinsvrcert MAX_PINSVR_CERTIFICATE_LENGTH).map (·.length + 1)).getD 0

/-- `jade_process_reply_to_message_result`, with a callback that writes so many bytes. -/
def replyToMessageResult (value : V) (payload outputSize : ℕ) : Except WireAbort Answer := do
  let id ← rpcGetId C.toTinyCbor value
  jadeAssert (decide (id.length ≠ 0))
  replyToMessageResultWithId id payload outputSize

/-- `send_http_request_reply` -/
def sendHttpRequestReply (document : Document) (data : Bytes) : ClientM V Unit := do
  let st := (← get).store
  assert ((readString st .pinsvrurlA MAX_PINSVR_URL_LENGTH).isSome ==
    (readString st .pinsvrurlB MAX_PINSVR_URL_LENGTH).isSome)
  let request := httpRequest st document data
  onTalk do
    match ← currentMessage with
    | none => throw (.fault .assert)
    | some m =>
        replyWith m (replyToMessageResult C m.value request.size (replyBufferLen st))
          (.data (.httpRequest request))

end Request

/-! ### The answer -/

/-- `pinserver_result_t` -/
inductive PinResult (α : Type)
  | success (a : α)
  | canRetry (code : ℤ) (message : String)
  | failure (code : ℤ) (message : String)
  | cancelled
  deriving DecidableEq

section Answer

variable {V : Type} (W : PinWally) (C : TinyCborStrings V)

/-- `IS_CURRENT_MESSAGE` -/
def isCurrent (method : String) : Session V PinScreen PinReply Bool := do
  match ← currentMessage with
  | none => pure false
  | some m => orFault (getter (isCurrentMessage C m.value (ascii method)))

/-- The key in a `pin` message. -/
def pinMessageKey (pinkeys : PinKeys) (value : V) : Except WireAbort (PinResult Bytes) := do
  match getMsgParams C value with
  | none => return .canRetry CBOR_RPC_BAD_PARAMETERS "Failed to read parameters from Oracle"
  | some params => do
      let data ← rpcGetStringPtr C.toTinyCbor "data" params
      if (data.getD []).isEmpty then
        return .failure CBOR_RPC_BAD_PARAMETERS "data field missing"
      else
        match (W.base64Decode (data.getD [])).filter
            fun bytes => decide (bytes.length = SERVER_REPLY_PAYLOAD_LEN) with
        | none => return .failure CBOR_RPC_BAD_PARAMETERS "data field invalid"
        | some encrypted =>
            match decryptReply W pinkeys encrypted with
            | none => return .failure CBOR_RPC_BAD_PARAMETERS "Failed to decrypt payload"
            | some serverkey => return .success serverkey

/-- `IS_CURRENT_MESSAGE(process, "auth_user") || IS_CURRENT_MESSAGE(process, "pin")` -/
def isOracleMessage : Session V PinScreen PinReply Bool := do
  if ← isCurrent C "auth_user" then pure true else isCurrent C "pin"

/-- What `handle_pin` makes of the message it has waited for. -/
def pinVerdict (pinkeys : PinKeys) : Option (Incoming V) → Except WireAbort (PinResult Bytes)
  | none => .ok (.failure CBOR_RPC_PROTOCOL_ERROR "Unexpected message, expecting 'pin'")
  | some m => do
      if ← isCurrentMessage C m.value (ascii "cancel") then return .cancelled
      else if !(← isCurrentMessage C m.value (ascii "pin")) then
        return .failure CBOR_RPC_PROTOCOL_ERROR "Unexpected message, expecting 'pin'"
      else pinMessageKey W C pinkeys m.value

/-- `handle_pin`, in the exchange with the host. -/
def handlePinMessage (pinkeys : PinKeys) : Session V PinScreen PinReply (PinResult Bytes) := do
  if !(← isOracleMessage C) then throw (.fault .assert)
  Dialogue.take
  let m ← currentMessage
  orFault (getter (pinVerdict W C pinkeys m))

/-- `handle_pin` -/
def handlePin (pinkeys : PinKeys) : ClientM V (PinResult Bytes) :=
  onTalk (handlePinMessage W C pinkeys)

/-! ### Questions -/

/-- `pinserver_interaction` -/
def pinserverInteraction (pin : Bytes) (document : Document) (passClientEntropy : Bool) :
    ClientM V (PinResult Bytes) := do
  assert (← getRam).talk.current.isSome
  match ← generateEphemeralPinkeys W with
  | .error errmsg => return .failure CBOR_RPC_INTERNAL_ERROR errmsg
  | .ok pinkeys => do
      match ← oracleMessage W pinkeys pin passClientEntropy with
      | none =>
          return .failure CBOR_RPC_INTERNAL_ERROR "Failed to create Oracle message content"
      | some data => do
          sendHttpRequestReply C document data
          match ← handlePin W C pinkeys with
          | .success serverkey => return .success (W.hmacSha256 serverkey pin)
          | result => return result

/-- The end of `get_pinserver_aeskey`; a cancelled interaction is silent. -/
def interactionResult : PinResult Bytes → ClientM V (Option Bytes)
  | .success aeskey => return some aeskey
  | .cancelled => return none
  | .canRetry code message => do
      onTalk (rejectMessage C code message)
      return none
  | .failure code message => do
      onTalk (rejectMessage C code message)
      return none

/-- Ask the user whether to try again. -/
def showNetworkError : ClientM V Unit :=
  onTalk (Dialogue.onScreens (modify (· ++ [.networkError])))

/-- The loop of `get_pinserver_aeskey`, with the user's answers to the question whether to try
again. A user who does not answer any more leaves the device waiting until it is switched off. -/
def aeskeyLoop (pin : Bytes) (document : Document) (passClientEntropy : Bool) :
    List Bool → ClientM V (Option Bytes)
  | [] => do
      match ← pinserverInteraction W C pin document passClientEntropy with
      | .canRetry _ _ => do
          showNetworkError
          throw .power
      | result => interactionResult C result
  | again :: retries => do
      match ← pinserverInteraction W C pin document passClientEntropy with
      | .canRetry code message => do
          showNetworkError
          if again then aeskeyLoop pin document passClientEntropy retries
          else interactionResult C (.canRetry code message)
      | result => interactionResult C result

/-- `get_pinserver_aeskey` -/
def getPinserverAeskey (pin : Bytes) (document : Document) (passClientEntropy : Bool)
    (retries : List Bool) : ClientM V (Option Bytes) := do
  let live ← onTalk (isOracleMessage C)
  assert live
  aeskeyLoop W C pin document passClientEntropy retries

/-- `pinclient_get` -/
def pinclientGet (pin : Bytes) (retries : List Bool) : ClientM V (Option Bytes) :=
  getPinserverAeskey W C pin .getPin false retries

/-- `pinclient_set` -/
def pinclientSet (pin : Bytes) (retries : List Bool) : ClientM V (Option Bytes) :=
  getPinserverAeskey W C pin .setPin true retries

end Answer

end Jade.Pinclient
