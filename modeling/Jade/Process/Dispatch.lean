/-
**Answering a request** (`process.c`, `process/dashboard.c`, `process/ota_util.c`).

A request carries an id, and its answer repeats it.  The helpers that write an answer get hold of the
id in two ways: some copy it into a C string, which ends at the first NUL byte, and others take a
pointer to it, which only a string in one piece has.  The dispatcher looks at the method, and hands
the request to the process that will answer it; during a firmware update the handler of the `ota_data`
messages answers instead.

What a process does before it answers is not the subject here: the answer it ends with is a parameter
of the dispatcher.

Main definitions:

* `Jade.Answer`, `Jade.Ending`, `Jade.answer` — the answers, and the helpers that write them;
* `Jade.Dashboard`, `Jade.dispatchMessage` — the dispatcher;
* `Jade.answerOtaData` — the handler of `ota_data` and what it is answered with;
* `Jade.IdFits`, `Jade.Dispatchable`, `Jade.OtaAnswerable` — the requests that can be answered.

Main results:

* `Jade.answer_iff` — a helper answers under the id of the request exactly when it can repeat it;
* `Jade.dispatchMethod_iff` — which branches of the dispatcher answer;
* `Jade.requests_answered` — **which requests are answered under their own id**.
-/

import Jade.Lib.CText
import Jade.Ota.Util
import Jade.Process.Wire
import Jade.Utils.CborParams

set_option relaxedAutoImplicit false
set_option autoImplicit false

namespace Jade

open Exec (bind_eq_ok pure_eq_ok)
open Ota (OtaCtx OtaMsg OTA_SUCCESS OTA_ERR_USERDECLINED OTA_ERR_PROTOCOL)

section Model

variable {V : Type} (C : TinyCborStrings V)

/-! ### The helpers that answer -/

def JADE_MSG_REPLY_LEN : ℕ := 256
def JADE_MSG_REPLY_OVERHEAD : ℕ := 64

/-- An answer, with the id it is given under. -/
inductive Answer
  | result (id : Bytes)
  | error (id : Bytes) (code : ℤ) (message : String)
  deriving DecidableEq, Repr

def Answer.id : Answer → Bytes
  | .result id => id
  | .error id _ _ => id

/-- The size of the head of a string of this length. -/
def stringHead (len : ℕ) : ℕ :=
  if len < 24 then 1 else if len < 2 ^ 8 then 2 else if len < 2 ^ 16 then 3 else 5

/-- The encoded size of the map up to the id, and of the key of the result. -/
def replyHead (id : Bytes) : ℕ := 1 + 3 + (stringHead id.length + id.length) + 7

/-- The encoded size of an error. -/
def errorSize (id : Bytes) (message : String) : ℕ :=
  1 + 3 + (stringHead id.length + id.length) + 6 + 1 + (5 + 5) +
    (8 + (stringHead message.utf8ByteSize + message.utf8ByteSize))

/-- `jade_process_reply_to_message_result_with_id`: the callback writes `payload` bytes. -/
def replyToMessageResultWithId (id : Bytes) (payload outputSize : ℕ) : Except WireAbort Answer := do
  let idStr := Bytes.cstr id
  jadeAssert (decide (idStr.length ≠ 0))
  jadeAssert (decide (replyHead idStr + payload ≤ outputSize))
  return .result idStr

/-- `jade_process_reject_message_with_id`.  The optional data are left out when they do not fit. -/
def rejectMessageWithId (id : Bytes) (code : ℤ) (message : String) (bufferLen : ℕ) :
    Except WireAbort Answer := do
  let idStr := Bytes.cstr id
  jadeAssert (decide (idStr.length ≤ MAXLEN_ID))
  jadeAssert (decide (errorSize idStr message ≤ bufferLen))
  return .error idStr code message

/-- `jade_process_reject_message_ex` -/
def rejectMessageEx (value : V) (code : ℤ) (message : String) (bufferLen : ℕ) :
    Except WireAbort Answer := do
  let id ← rpcGetId C.toTinyCbor value
  rejectMessageWithId (if id = [] then [0x30, 0x30] else id) code message bufferLen

/-- `rpc_get_id_ptr`, which must not be empty. -/
def requireIdPtr (value : V) : Except WireAbort Bytes := do
  let id ← rpcGetStringPtr C.toTinyCbor "id" value
  jadeAssert (decide ((id.getD []).length ≠ 0))
  return id.getD []

/-- How a process answers: which helper it calls, with what.  The bounds say that its own part of the
answer fits the buffer. -/
inductive Ending
  /-- `jade_process_reply_to_message_result`, `…_ok` and `…_fail` -/
  | result (payload outputSize : ℕ) (fits : 28 + payload ≤ outputSize)
  /-- `jade_process_reply_to_message_bytes` -/
  | bytes (data : Bytes) (fits : data.length < 2 ^ 32)
  /-- `jade_process_reply_to_message_bytes_sequence` -/
  | sequence (seqnum seqlen : ℕ) (data : Bytes) (buflen : ℕ) (le : seqnum ≤ seqlen)
      (fits : 65 + data.length ≤ buflen)
  /-- `jade_process_reject_message` -/
  | reject (code : ℤ) (message : String) (fits : message.utf8ByteSize ≤ 128)

/-- The helper called on the message of a request. -/
def answer (value : V) : Ending → Except WireAbort Answer
  | .result payload outputSize _ => do
      let id ← rpcGetId C.toTinyCbor value
      jadeAssert (decide (id.length ≠ 0))
      replyToMessageResultWithId id payload outputSize
  | .bytes data _ => do
      let buflen := if JADE_MSG_REPLY_LEN - JADE_MSG_REPLY_OVERHEAD < data.length then
        data.length + JADE_MSG_REPLY_OVERHEAD else JADE_MSG_REPLY_LEN
      let id ← requireIdPtr C value
      jadeAssert (decide (replyHead id + (stringHead data.length + data.length) ≤ buflen))
      return .result id
  | .sequence seqnum seqlen data buflen _ _ => do
      let id ← requireIdPtr C value
      jadeAssert (decide (seqnum ≤ seqlen))
      jadeAssert (decide
        (replyHead id + (7 + 9) + (7 + 9) + (stringHead data.length + data.length) ≤ buflen))
      return .result id
  | .reject code message _ => rejectMessageEx C value code message JADE_MSG_REPLY_LEN

/-! ### The dispatcher -/

/-- The tasks that need no user. -/
def OPEN_TASKS : List String :=
  ["register_attestation", "sign_attestation", "update_pinserver", "auth_user"]

/-- The tasks of a debug build. -/
def DEBUG_TASKS : List String :=
  ["debug_clean_reset", "debug_set_mnemonic", "debug_handshake", "debug_scan_qr",
    "get_bip85_bip39_entropy", "get_bip85_rsa_entropy"]

/-- The tasks that need the user to be logged in over the connection of the request. -/
def USER_TASKS : List String :=
  ["register_otp", "get_otp_code", "get_xpub", "get_registered_multisigs",
    "get_registered_multisig", "register_multisig", "get_registered_descriptors",
    "get_registered_descriptor", "register_descriptor", "get_receive_address",
    "get_identity_pubkey", "get_identity_shared_key", "sign_identity", "sign_message", "sign_psbt",
    "sign_tx", "sign_liquid_tx", "get_commitments", "get_blinding_factor",
    "get_master_blinding_key", "get_mweb_scan_key", "get_mweb_watch_keys", "get_mweb_address",
    "get_blinding_key", "get_shared_nonce", "get_bip85_pubkey", "sign_bip85_digests"]

/-- Methods only expected as part of a multi-message protocol. -/
def PROTOCOL_METHODS : List String :=
  ["ota_data", "ota_complete", "tx_input", "get_extended_data", "get_signature", "pin"]

/-- `IS_METHOD` for one of several names. -/
def isOneOf (names : List String) (method : Bytes) : Bool := (names.map ascii).contains method

/-- The message of a rejection, short enough for its buffer. -/
abbrev Refusal : Type := { message : String // message.utf8ByteSize ≤ 128 }

/-- The state the dispatcher looks at, and how the processes it starts answer. -/
structure Dashboard (V : Type) where
  debugMode : Bool
  returnCameraImages : Bool
  /-- `ota_allowed` -/
  otaAllowed : Bool
  /-- `KEYCHAIN_UNLOCKED_BY_MESSAGE_SOURCE` -/
  unlocked : Bool
  /-- the size of the version information -/
  versionInfo : { size : ℕ // 28 + size ≤ 1024 }
  /-- `params_set_epoch_time` -/
  setEpochTime : V → Option (ℤ × Refusal)
  ending : Bytes → V → Ending

variable (D : Dashboard V)

/-- Reply with a boolean. -/
def replyOk : Ending := .result 1 64 (by decide)

/-- A task that starts with `ASSERT_CURRENT_MESSAGE` and answers in the end. -/
def runTask (value : V) (method : Bytes) : Except WireAbort (Option Answer) := do
  assertCurrentMessage C value method
  let out ← answer C value (D.ending method value)
  return some out

/-- `GET_MSG_PARAMS`, with the rejection when there are none. -/
def withParams (value : V) (k : V → Except WireAbort Ending) : Except WireAbort (Option Answer) := do
  let reject : Ending := .reject CBOR_RPC_BAD_PARAMETERS "Expecting parameters map" (by decide)
  let ending ← match C.findValue value "params" with
    | none => pure reject
    | some params => if !C.isValid params || !C.isMap params then pure reject else k params
  let out ← answer C value ending
  return some out

/-- `process_add_entropy_request` -/
def addEntropy (params : V) : Except WireAbort Ending := do
  let entropy ← rpcGetBytesPtr C.toTinyCbor "entropy" params
  if (entropy.getD []).length = 0 then
    return .reject CBOR_RPC_BAD_PARAMETERS
      "Failed to extract valid entropy bytes from parameters" (by decide)
  else return replyOk

/-- `process_set_epoch_request` -/
def setEpoch (params : V) : Except WireAbort Ending :=
  match D.setEpochTime params with
  | some (code, message) => .ok (.reject code message.1 message.2)
  | none => .ok replyOk

/-- Where a message goes. -/
inductive Route
  | versionInfo | addEntropy | setEpoch | logout | cancel | task | selfcheck
  | refused (code : ℤ) (message : Refusal)
  deriving DecidableEq

/-- The branches of `dispatch_message`. -/
def Dashboard.route (method : Bytes) : Route :=
  if method = ascii "get_version_info" then .versionInfo
  else if method = ascii "add_entropy" then .addEntropy
  else if method = ascii "set_epoch" then .setEpoch
  else if method = ascii "logout" then .logout
  else if isOneOf OPEN_TASKS method then .task
  -- 'cancel' is completely ignored (as nothing is 'in-progress' to cancel)
  else if method = ascii "cancel" then .cancel
  else if method = ascii "ota" then
    if D.otaAllowed then .task
    else .refused CBOR_RPC_HW_LOCKED
      ⟨"OTA is only allowed on new or logged-in device.", by decide⟩
  else if method = ascii "ota_delta" then
    if D.otaAllowed then .task
    else .refused CBOR_RPC_HW_LOCKED
      ⟨"OTA delta is only allowed on new or logged-in device.", by decide⟩
  else if D.debugMode && isOneOf ["debug_selfcheck", "debug_selfcheck_mweb"] method then .selfcheck
  else if D.debugMode && isOneOf DEBUG_TASKS method then .task
  else if D.debugMode && D.returnCameraImages && method = ascii "debug_capture_image_data" then
    .task
  else if !D.unlocked then
    .refused CBOR_RPC_HW_LOCKED
      ⟨"Cannot process message - hardware locked or uninitialized", by decide⟩
  else if isOneOf USER_TASKS method then .task
  else if isOneOf PROTOCOL_METHODS method then
    .refused CBOR_RPC_PROTOCOL_ERROR ⟨"Unexpected method", by decide⟩
  else .refused CBOR_RPC_UNKNOWN_METHOD ⟨"Unknown method", by decide⟩

/-- `dispatch_message`, once the method is known; a request that is ignored has no answer. -/
def dispatchMethod (value : V) (method : Bytes) : Except WireAbort (Option Answer) :=
  match D.route method with
  | .versionInfo => do
      assertCurrentMessage C value method
      let out ← answer C value (.result D.versionInfo.1 1024 D.versionInfo.2)
      return some out
  | .addEntropy => do
      assertCurrentMessage C value method
      withParams C value (addEntropy C)
  | .setEpoch => do
      assertCurrentMessage C value method
      withParams C value (setEpoch D)
  | .logout => do
      assertCurrentMessage C value method
      let out ← answer C value replyOk
      return some out
  | .cancel => .ok none
  | .task => runTask C D value method
  | .selfcheck => do
      let out ← answer C value (D.ending method value)
      return some out
  | .refused code message => do
      let out ← answer C value (.reject code message.1 message.2)
      return some out

/-- `dispatch_message` -/
def dispatchMessage (value : V) : Except WireAbort (Option Answer) := do
  let method ← rpcGetMethod C.toTinyCbor value
  jadeAssert (decide ((method.getD []).length ≠ 0))
  dispatchMethod C D value (method.getD [])

/-! ### The messages of an update -/

/-- What `handle_in_bin_data` reads off a message, as far as it gets. -/
def readOtaMsg (source : UInt8) (value : V) (status : Int) : Except WireAbort OtaMsg := do
  jadeAssert (rpcRequestValid C.toTinyCbor value)
  let id ← rpcGetId C.toTinyCbor value
  jadeAssert (decide (id.length ≠ 0))
  if status ≠ OTA_SUCCESS then return { source, id, isOtaData := false, params := [] }
  else do
    let isOtaData ← rpcIsMethod C value (ascii "ota_data")
    if !isOtaData then return { source, id, isOtaData, params := [] }
    else do
      let params ← rpcGetBytesPtr C.toTinyCbor "params" value
      return { source, id, isOtaData, params := params.getD [] }

/-- The code of the error an update ends with. -/
def otaErrorCode (status : Int) : ℤ :=
  if status = OTA_ERR_USERDECLINED then CBOR_RPC_USER_CANCELLED
  else if status = OTA_ERR_PROTOCOL then CBOR_RPC_PROTOCOL_ERROR
  else CBOR_RPC_INTERNAL_ERROR

/-- The size of the reply to `ota_data`. -/
def otaReplySize (extendedReplies : Bool) : ℕ := if extendedReplies then 1 + (10 + 1) + (9 + 9) else 1

/-- One turn of the loop of `ota_process`: the message is handled, and answered at once or, when the
update has failed, by `ota_finalize`.  `original` is the message that started the update, and
`writeCompressed` what the decompressor makes of the data. -/
def answerOtaData (source : UInt8) (value original : V) (extendedReplies : Bool)
    (writeCompressed : Bytes → Int) (s : OtaCtx) : Except WireAbort (Answer × OtaCtx) := do
  let m ← readOtaMsg C source value s.otaReturnStatus
  match (Ota.handleInBinData m fun data => pure (writeCompressed data)).run s with
  | .error _ _ => .error .assert
  | .ok _ s' =>
      if s'.otaReturnStatus = OTA_SUCCESS then do
        let out ← replyToMessageResultWithId m.id (otaReplySize extendedReplies) 64
        return (out, s')
      else do
        let out ← if Bytes.cstr s'.id ≠ [] then
            rejectMessageWithId s'.id (otaErrorCode s'.otaReturnStatus) "Error uploading OTA data" 256
          else
            rejectMessageEx C original (otaErrorCode s'.otaReturnStatus) "Error completing OTA" 256
        return (out, s')

end Model

/-! ### The texts of a request -/

variable {V : Type} {C : TinyCborStrings V}

/-- A text in one piece, whose length takes at most four bytes. -/
def PlainText (C : TinyCborStrings V) (w : V) : Prop :=
  C.isLengthKnown w = true ∧ C.nextByte w &&& CBOR_LEN_MASK < 27

/-- The content of a text of the request. -/
def textOf (C : TinyCborStrings V) (field : String) (value : V) : Option Bytes :=
  (C.findValue value field).bind C.copyTextString

/-- The id is a text in one piece. -/
def PlainId (C : TinyCborStrings V) (value : V) : Prop :=
  ∀ w, C.findValue value "id" = some w → PlainText C w

/-- The id has no NUL byte. -/
def NoNulId (C : TinyCborStrings V) (value : V) : Prop :=
  ∀ id, textOf C "id" value = some id → 0 ∉ id

/-- A byte string whose length takes eight bytes. -/
def LongBytes (C : TinyCborStrings V) (field : String) (value : V) : Prop :=
  ∃ w, C.findValue value field = some w ∧ C.isValid w = true ∧
    eightByteLengthOf C.toTinyCbor CBOR_BINARY_MASK w = true

/-- **The pointer getter finds a text exactly when it is in one piece.** -/
theorem rpcGetStringPtr_spec (hC : C.Lawful) {bs : Bytes} {n len : ℕ} {value w : V}
    {field : String} (hnext : C.reader.next bs = some (n, value))
    (hfind : C.findValue value field = some w) (hvalid : C.isValid w = true)
    (htext : C.isTextString w = true) (hlen : C.stringLength w = some len) (hpos : 0 < len) :
    ∃ content, C.copyTextString w = some content ∧ content.length = len ∧
      ((PlainText C w ∧ rpcGetStringPtr C.toTinyCbor field value = .ok (some content)) ∨
        (¬ PlainText C w ∧ (rpcGetStringPtr C.toTinyCbor field value = .ok none ∨
          rpcGetStringPtr C.toTinyCbor field value = .error .assert))) := by
  obtain ⟨content, hcopy, hcontent⟩ := hC.copy bs n value field w len hnext hfind htext hlen
  refine ⟨content, hcopy, hcontent, ?_⟩
  have hne : content.length ≠ 0 := by omega
  have hptr : rpcGetStringPtr C.toTinyCbor field value = rpcGetRawStringPtr C.toTinyCbor w := by
    simp [rpcGetStringPtr, hfind, hvalid]
  rw [hptr]
  cases hknown : C.isLengthKnown w with
  | false =>
      -- the length of chunks is computed, and the pointer getter does not look for it
      refine .inr ⟨fun h => absurd (h.1.symm.trans hknown) (by decide), .inl ?_⟩
      simp only [rpcGetRawStringPtr, rpcGetRawTypePtr, hC.unknown w hknown]
      split <;> rfl
  | true =>
      obtain ⟨htype, hsize, hbytes⟩ := hC.contiguous hnext hfind htext hknown hcopy
      obtain ⟨l, hl⟩ := Nat.exists_eq_succ_of_ne_zero hne
      by_cases hshort : C.nextByte w &&& CBOR_LEN_MASK < 27
      · obtain ⟨skip, hskip⟩ := getSkip_of_lt hshort
        refine .inl ⟨⟨hknown, hshort⟩, ?_⟩
        have hcontent' := hbytes skip hskip
        rw [hl] at hsize hcontent'
        simp only [rpcGetRawStringPtr, rpcGetRawTypePtr, htype, hsize, ne_eq, not_true, if_false,
          hskip, bind, Except.bind, hcontent']
        rfl
      · refine .inr ⟨fun h => hshort h.2, .inr ?_⟩
        rw [hl] at hsize
        simp only [rpcGetRawStringPtr, rpcGetRawTypePtr, htype, hsize, ne_eq, not_true, if_false,
          getSkip, jadeAssert, decide_eq_false hshort]
        rfl

/-- A byte string is found in place unless its length takes eight bytes. -/
theorem rpcGetBytesPtr_spec (field : String) (value : V) :
    (LongBytes C field value ∧ rpcGetBytesPtr C.toTinyCbor field value = .error .assert) ∨
      (¬ LongBytes C field value ∧
        ∃ data, rpcGetBytesPtr C.toTinyCbor field value = .ok data) := by
  unfold rpcGetBytesPtr LongBytes
  cases hfind : C.findValue value field with
  | none => exact .inr ⟨by simp, none, rfl⟩
  | some w =>
      cases hvalid : C.isValid w with
      | false => exact .inr ⟨by simp [hvalid], none, by simp [hvalid]⟩
      | true =>
          rcases rpcGetRawTypePtr_spec (C := C.toTinyCbor) CBOR_BINARY_MASK w with
            ⟨hlong, herr⟩ | ⟨hshort, data, hdata, -⟩
          · exact .inl ⟨⟨w, rfl, hvalid, hlong⟩, by simp [hvalid, herr]⟩
          · exact .inr ⟨by simp [hshort], data, by simp [hvalid, hdata]⟩

section Valid

variable (hC : C.Lawful) {msg : Bytes} {n : ℕ} {value : V}
  (hnext : C.reader.next msg = some (n, value))
  (hvalid : rpcRequestValid C.toTinyCbor value = true)

include hC hnext hvalid

/-- The id of a valid request, copied or looked at in place. -/
theorem id_of_valid :
    ∃ id, textOf C "id" value = some id ∧ rpcGetId C.toTinyCbor value = .ok id ∧ id ≠ [] ∧
      id.length ≤ MAXLEN_ID ∧
        ((PlainId C value ∧ rpcGetStringPtr C.toTinyCbor "id" value = .ok (some id)) ∨
          (¬ PlainId C value ∧ (rpcGetStringPtr C.toTinyCbor "id" value = .ok none ∨
            rpcGetStringPtr C.toTinyCbor "id" value = .error .assert))) := by
  obtain ⟨⟨hpos, hmax⟩, -⟩ := rpcRequestValid_iff.1 hvalid
  obtain ⟨hval, hmap, w, hfind, hw, htext, hlen⟩ :=
    rpcGetStringLen_pos (Nat.pos_iff_ne_zero.1 hpos)
  obtain ⟨content, hcopy, hcontent, hptr⟩ :=
    rpcGetStringPtr_spec hC hnext hfind hw htext hlen hpos
  have hplain : PlainId C value ↔ PlainText C w := by simp [PlainId, hfind]
  have hfits : ¬ MAXLEN_ID + 1 ≤ rpcGetStringLen C.toTinyCbor "id" value := by omega
  have hid : rpcGetId C.toTinyCbor value = .ok content := by
    simp only [rpcGetId, rpcGetData_of_find hval hmap hfind hw, htext, hlen, hcopy, Bool.not_true,
      Bool.false_eq_true, if_false, if_neg hfits, jadeAssert, hcontent,
      decide_eq_true (Nat.lt_succ_of_le hmax)]
    rfl
  rw [hplain]
  exact ⟨content, by rw [textOf, hfind]; exact hcopy, hid, List.ne_nil_of_length_pos (by omega),
    by omega, hptr⟩

/-- The method of a valid request, read or compared. -/
theorem method_of_valid :
    ∃ w method, C.findValue value "method" = some w ∧ C.copyTextString w = some method ∧
      method ≠ [] ∧ (∀ s, rpcIsMethod C value s = .ok (method == s)) ∧
        ((PlainText C w ∧ rpcGetMethod C.toTinyCbor value = .ok (some method)) ∨
          (¬ PlainText C w ∧ (rpcGetMethod C.toTinyCbor value = .ok none ∨
            rpcGetMethod C.toTinyCbor value = .error .assert))) := by
  obtain ⟨-, hpos, hmax⟩ := rpcRequestValid_iff.1 hvalid
  obtain ⟨hval, hmap, w, hfind, hw, htext, hlen⟩ :=
    rpcGetStringLen_pos (Nat.pos_iff_ne_zero.1 hpos)
  obtain ⟨content, hcopy, hcontent, hptr⟩ :=
    rpcGetStringPtr_spec hC hnext hfind hw htext hlen hpos
  have hfits : content.length ≤ MAXLEN_METHOD := by omega
  refine ⟨w, content, hfind, hcopy, List.ne_nil_of_length_pos (by omega), ?_, ?_⟩
  · intro s
    simp only [rpcIsMethod, hval, hmap, hfind, hw, htext, jadeAssert_true, bind, Except.bind,
      hC.equals s hnext hfind htext hcopy]
    rfl
  · rcases hptr with ⟨hplain, hget⟩ | ⟨hplain, hget | hget⟩
    · refine .inl ⟨hplain, ?_⟩
      simp only [rpcGetMethod, hval, hmap, hget, jadeAssert_true, bind, Except.bind]
      rw [Option.getD_some, jadeAssert_true (decide_eq_true hfits)]
      rfl
    · refine .inr ⟨hplain, .inl ?_⟩
      simp only [rpcGetMethod, hval, hmap, hget, jadeAssert_true, bind, Except.bind]
      rfl
    · refine .inr ⟨hplain, .inr ?_⟩
      simp only [rpcGetMethod, hval, hmap, hget, jadeAssert_true, bind, Except.bind]

end Valid

/-! ### What a request is answered with -/

/-- When the update goes on, the message is answered at once; when it has failed, its id is kept for
the error. -/
theorem handleInBinData_id (m : OtaMsg) (writeCompressed : Bytes → Int) {s : OtaCtx}
    (hs : s.id = []) (hm : m.id ≠ []) :
    ∃ s', (Ota.handleInBinData m fun data => pure (writeCompressed data)).run s = .ok () s' ∧
      (s'.otaReturnStatus = OTA_SUCCESS ∨ s'.id = m.id) := by
  have hsat : Exec.Sat (Ota.handleInBinData m fun data => pure (writeCompressed data))
      (fun _ s' => s'.otaReturnStatus = OTA_SUCCESS ∨ s'.id = m.id) (fun _ _ => False) s := by
    simp only [Ota.handleInBinData, Ota.assert, Ota.setStatus, Ota.hashIf, Ota.note, Exec.sat_bind,
      Exec.sat_get, Exec.sat_check, Exec.sat_modify, Exec.sat_ite, Exec.sat_pure]
    -- the only way to the end with the id cleared is with the status it was entered with
    simp only [or_true, implies_true, true_and, hs, hm, ne_eq, not_false_eq_true, decide_true,
      apply_ite OtaCtx.otaReturnStatus, ite_self, not_not, Bool.true_eq_false, false_implies,
      and_true, forall_const]
    exact fun hstatus _ _ _ _ => .inl hstatus
  obtain ⟨⟨⟩, s', hrun, h⟩ := hsat.exists_ok
  exact ⟨s', hrun, h⟩

/-- The request is answered under its own id. -/
def Answered (C : TinyCborStrings V) (value : V) (out : Except WireAbort (Option Answer)) : Prop :=
  ∃ a, out = .ok (some a) ∧ textOf C "id" value = some a.id

/-- The id can be repeated by the helper that the process ends with. -/
def IdFits (C : TinyCborStrings V) (value : V) : Ending → Prop
  | .bytes _ _ | .sequence _ _ _ _ _ _ => PlainId C value
  | .result _ _ _ | .reject _ _ _ => NoNulId C value

/-- The request can be answered where the dispatcher sends it. -/
def RouteFits (C : TinyCborStrings V) (D : Dashboard V) (value : V) (method : Bytes) : Prop :=
  match D.route method with
  | .cancel => False
  | .task | .selfcheck => IdFits C value (D.ending method value)
  | .addEntropy => NoNulId C value ∧
      ∀ params, getMsgParams C value = some params → ¬ LongBytes C "entropy" params
  | .versionInfo | .setEpoch | .logout | .refused _ _ => NoNulId C value

/-- The method is a text in one piece, and the request can be answered where it goes. -/
def Dispatchable (C : TinyCborStrings V) (D : Dashboard V) (value : V) : Prop :=
  ∃ w method, C.findValue value "method" = some w ∧ PlainText C w ∧
    C.copyTextString w = some method ∧ RouteFits C D value method

theorem dispatchable_iff {D : Dashboard V} {value w : V} {method : Bytes}
    (hfind : C.findValue value "method" = some w) (hcopy : C.copyTextString w = some method) :
    Dispatchable C D value ↔ PlainText C w ∧ RouteFits C D value method := by
  constructor
  · rintro ⟨w', method', hfind', hplain, hcopy', hroute⟩
    obtain rfl : w = w' := Option.some.inj (hfind.symm.trans hfind')
    obtain rfl : method = method' := Option.some.inj (hcopy.symm.trans hcopy')
    exact ⟨hplain, hroute⟩
  · rintro ⟨hplain, hroute⟩
    exact ⟨w, method, hfind, hplain, hcopy, hroute⟩

/-- The id has no NUL byte, and while the update goes on the data of `ota_data` have a length that
takes at most four bytes. -/
def OtaAnswerable (C : TinyCborStrings V) (value : V) (s : OtaCtx) : Prop :=
  NoNulId C value ∧ (s.otaReturnStatus = OTA_SUCCESS →
    textOf C "method" value = some (ascii "ota_data") → ¬ LongBytes C "params" value)

theorem replyHead_le {id : Bytes} (h : id.length ≤ MAXLEN_ID) : replyHead id ≤ 28 := by
  have hid : id.length ≤ 16 := h
  unfold replyHead stringHead
  split_ifs <;> omega

theorem errorSize_le {id : Bytes} {message : String} (h : id.length ≤ MAXLEN_ID)
    (hmessage : message.utf8ByteSize ≤ 128) : errorSize id message ≤ 256 := by
  have hid : id.length ≤ 16 := h
  unfold errorSize stringHead
  split_ifs <;> omega

theorem rejectMessageWithId_eq {id : Bytes} {message : String} (hnul : 0 ∉ id)
    (hid : id.length ≤ MAXLEN_ID) (hmessage : message.utf8ByteSize ≤ 128) (code : ℤ) :
    rejectMessageWithId id code message 256 = .ok (.error id code message) := by
  simp only [rejectMessageWithId, cstr_eq_self hnul, jadeAssert_true (decide_eq_true hid),
    jadeAssert_true (decide_eq_true (errorSize_le hid hmessage))]
  rfl

theorem replyToMessageResultWithId_eq {id : Bytes} {payload outputSize : ℕ} (hne : id ≠ [])
    (hnul : 0 ∉ id) (hid : id.length ≤ MAXLEN_ID) (hfits : 28 + payload ≤ outputSize) :
    replyToMessageResultWithId id payload outputSize = .ok (.result id) := by
  have hsize : replyHead id + payload ≤ outputSize := by
    have := replyHead_le hid
    omega
  have hlen : id.length ≠ 0 := List.length_pos_iff.2 hne |>.ne'
  simp only [replyToMessageResultWithId, cstr_eq_self hnul, jadeAssert_true (decide_eq_true hlen),
    jadeAssert_true (decide_eq_true hsize)]
  rfl

/-- What is written from a C string has no NUL byte. -/
theorem noNul_cstr (bs : Bytes) : 0 ∉ Bytes.cstr bs := by
  intro h
  have := List.mem_takeWhile_imp h
  simp at this

theorem noNul_replyToMessageResultWithId {id : Bytes} {payload outputSize : ℕ} {a : Answer}
    (h : replyToMessageResultWithId id payload outputSize = .ok a) : 0 ∉ a.id := by
  obtain ⟨_, -, h⟩ := bind_eq_ok.1 h
  obtain ⟨_, -, h⟩ := bind_eq_ok.1 h
  obtain rfl := pure_eq_ok.1 h
  exact noNul_cstr id

theorem noNul_rejectMessageWithId {id : Bytes} {code : ℤ} {message : String} {len : ℕ} {a : Answer}
    (h : rejectMessageWithId id code message len = .ok a) : 0 ∉ a.id := by
  obtain ⟨_, -, h⟩ := bind_eq_ok.1 h
  obtain ⟨_, -, h⟩ := bind_eq_ok.1 h
  obtain rfl := pure_eq_ok.1 h
  exact noNul_cstr id

theorem noNul_rejectMessageEx {value : V} {code : ℤ} {message : String} {len : ℕ} {a : Answer}
    (h : rejectMessageEx C value code message len = .ok a) : 0 ∉ a.id := by
  obtain ⟨_, -, h⟩ := bind_eq_ok.1 h
  exact noNul_rejectMessageWithId h

section Valid

variable (hC : C.Lawful) {msg : Bytes} {n : ℕ} {value : V}
  (hnext : C.reader.next msg = some (n, value))
  (hvalid : rpcRequestValid C.toTinyCbor value = true)

include hC hnext hvalid

/-- **A helper answers under the id of the request exactly when it can repeat it.** -/
theorem answer_iff (ending : Ending) :
    Answered C value (do let out ← answer C value ending; return some out) ↔
      IdFits C value ending := by
  obtain ⟨id, htext, hid, hne, hlen, hptr⟩ := id_of_valid hC hnext hvalid
  have hpos : id.length ≠ 0 := List.length_pos_iff.2 hne |>.ne'
  have hhead := replyHead_le hlen
  have hnul : NoNulId C value ↔ 0 ∉ id := by simp [NoNulId, htext]
  have hanswered : Answered C value (do let out ← answer C value ending; return some out) ↔
      ∃ a, answer C value ending = .ok a ∧ id = a.id := by
    unfold Answered
    rw [htext]
    cases answer C value ending with
    | error e => simp [bind, Except.bind]
    | ok a => simp [bind, Except.bind, pure, Except.pure]
  -- the helpers with a pointer to the id
  have hpointer : ∀ (size : ℕ → Bool), (∀ l, l ≤ 28 → size l = true) →
      ((∃ a, (do
          let i ← requireIdPtr C value
          jadeAssert (size (replyHead i))
          return Answer.result i) = Except.ok (ε := WireAbort) a ∧ id = a.id) ↔
        PlainId C value) := by
    intro size hsize
    rcases hptr with ⟨hplain, hget⟩ | ⟨hplain, hget | hget⟩
    · refine iff_of_true ⟨.result id, ?_, rfl⟩ hplain
      simp only [requireIdPtr, hget, bind, Except.bind, Option.getD_some,
        jadeAssert_true (decide_eq_true hpos), pure, Except.pure, jadeAssert_true (hsize _ hhead)]
    · refine iff_of_false ?_ hplain
      rintro ⟨a, h, -⟩
      simp [requireIdPtr, hget, bind, Except.bind, jadeAssert] at h
    · refine iff_of_false ?_ hplain
      rintro ⟨a, h, -⟩
      simp [requireIdPtr, hget, bind, Except.bind] at h
  rw [hanswered]
  cases ending with
  | result payload outputSize fits =>
      rw [IdFits, hnul]
      constructor
      · rintro ⟨a, h, rfl⟩
        obtain ⟨_, -, h⟩ := bind_eq_ok.1 h
        obtain ⟨_, -, h⟩ := bind_eq_ok.1 h
        exact noNul_replyToMessageResultWithId h
      · intro h0
        refine ⟨.result id, ?_, rfl⟩
        simp only [answer, hid, bind, Except.bind, jadeAssert_true (decide_eq_true hpos)]
        exact replyToMessageResultWithId_eq hne h0 hlen fits
  | bytes data fits =>
      refine hpointer (fun l => decide (l + (stringHead data.length + data.length) ≤
        if JADE_MSG_REPLY_LEN - JADE_MSG_REPLY_OVERHEAD < data.length then
          data.length + JADE_MSG_REPLY_OVERHEAD else JADE_MSG_REPLY_LEN)) fun l hl => ?_
      -- a reply of at most 192 bytes goes into the buffer of 256, a longer one gets its own
      refine decide_eq_true ?_
      unfold stringHead JADE_MSG_REPLY_LEN JADE_MSG_REPLY_OVERHEAD
      split_ifs <;> omega
  | sequence seqnum seqlen data buflen le fits =>
      have hseq : jadeAssert (decide (seqnum ≤ seqlen)) = .ok () :=
        jadeAssert_true (decide_eq_true le)
      simp only [answer, hseq]
      refine hpointer (fun l => decide
        (l + (7 + 9) + (7 + 9) + (stringHead data.length + data.length) ≤ buflen)) fun l hl => ?_
      refine decide_eq_true ?_
      unfold stringHead
      split_ifs <;> omega
  | reject code message fits =>
      rw [IdFits, hnul]
      constructor
      · rintro ⟨a, h, rfl⟩
        exact noNul_rejectMessageEx h
      · intro h0
        refine ⟨.error id code message, ?_, rfl⟩
        simp only [answer, rejectMessageEx, hid, bind, Except.bind, if_neg hne]
        exact rejectMessageWithId_eq h0 hlen fits code

/-- The parameters of a request are read when there is a map of them. -/
theorem answered_withParams {k : V → Except WireAbort Ending} {fits : V → Prop}
    (hk : ∀ params, (fits params ∧ ∃ ending, k params = .ok ending ∧
        (IdFits C value ending ↔ NoNulId C value)) ∨ (¬ fits params ∧ ∃ e, k params = .error e)) :
    Answered C value (withParams C value k) ↔
      NoNulId C value ∧ ∀ params, getMsgParams C value = some params → fits params := by
  have hanswer := answer_iff hC hnext hvalid
  have hreject := hanswer (.reject CBOR_RPC_BAD_PARAMETERS "Expecting parameters map" (by decide))
  unfold withParams getMsgParams
  cases hparams : C.findValue value "params" with
  | none => simpa [IdFits] using hreject
  | some params =>
      cases hbad : !C.isValid params || !C.isMap params with
      | true => simpa [hbad, IdFits] using hreject
      | false =>
          rcases hk params with ⟨hfits, ending, hending, hid⟩ | ⟨hfits, e, he⟩
          · simpa [hbad, hending, hfits, hid, bind, Except.bind] using hanswer ending
          · simp [hbad, he, hfits, Answered, bind, Except.bind]

omit hC hnext hvalid in
/-- The entropy of a request is looked at in place. -/
theorem addEntropy_spec (params : V) :
    (¬ LongBytes C "entropy" params ∧ ∃ ending, addEntropy C params = .ok ending ∧
      (IdFits C value ending ↔ NoNulId C value)) ∨
        (¬ ¬ LongBytes C "entropy" params ∧ ∃ e, addEntropy C params = .error e) := by
  unfold addEntropy
  rcases rpcGetBytesPtr_spec "entropy" params with ⟨hlong, herr⟩ | ⟨hshort, entropy, hentropy⟩
  · exact .inr ⟨not_not.2 hlong, .assert, by rw [herr]; rfl⟩
  · refine .inl ⟨hshort, ?_⟩
    simp only [hentropy, bind, Except.bind]
    split
    · exact ⟨_, rfl, Iff.rfl⟩
    · exact ⟨_, rfl, Iff.rfl⟩

omit hC hnext hvalid in
theorem setEpoch_spec (D : Dashboard V) (params : V) :
    (True ∧ ∃ ending, setEpoch D params = .ok ending ∧
      (IdFits C value ending ↔ NoNulId C value)) ∨
        (¬ True ∧ ∃ e, setEpoch D params = .error e) := by
  refine .inl ⟨trivial, ?_⟩
  unfold setEpoch
  split
  · exact ⟨_, rfl, Iff.rfl⟩
  · exact ⟨_, rfl, Iff.rfl⟩

theorem dispatchMethod_iff (D : Dashboard V) {method : Bytes}
    (hmethod : ∀ s, rpcIsMethod C value s = .ok (method == s)) :
    Answered C value (dispatchMethod C D value method) ↔ RouteFits C D value method := by
  have hassert : assertCurrentMessage C value method = .ok () := by
    simp only [assertCurrentMessage, hvalid, hmethod, jadeAssert_true, bind, Except.bind,
      beq_self_eq_true]
  have hanswer := answer_iff hC hnext hvalid
  have hfrom : ∀ k : Except WireAbort (Option Answer),
      (do assertCurrentMessage C value method; k) = k := by
    intro k
    rw [hassert]
    rfl
  unfold dispatchMethod RouteFits
  cases D.route method with
  | versionInfo =>
      simp only [hfrom]
      exact hanswer (.result D.versionInfo.1 1024 D.versionInfo.2)
  | addEntropy =>
      simpa only [hfrom] using answered_withParams hC hnext hvalid addEntropy_spec
  | setEpoch =>
      have hset := answered_withParams hC hnext hvalid (setEpoch_spec D)
      simpa only [hfrom, implies_true, and_true] using hset
  | logout =>
      simp only [hfrom]
      exact hanswer replyOk
  | cancel => simp [Answered]
  | task => simpa only [runTask, hfrom] using hanswer (D.ending method value)
  | selfcheck => exact hanswer (D.ending method value)
  | refused code message => exact hanswer (.reject code message.1 message.2)

/-- **The dispatcher answers exactly the requests that can be answered where they go.** -/
theorem dispatchMessage_iff (D : Dashboard V) :
    Answered C value (dispatchMessage C D value) ↔ Dispatchable C D value := by
  obtain ⟨w, method, hfind, hcopy, hne, his, hget⟩ := method_of_valid hC hnext hvalid
  have hpos : method.length ≠ 0 := List.length_pos_iff.2 hne |>.ne'
  rw [dispatchable_iff hfind hcopy]
  rcases hget with ⟨hplain, hget⟩ | ⟨hplain, hget | hget⟩
  · have hrun : dispatchMessage C D value = dispatchMethod C D value method := by
      simp only [dispatchMessage, hget, bind, Except.bind, Option.getD_some,
        jadeAssert_true (decide_eq_true hpos)]
    rw [hrun, dispatchMethod_iff hC hnext hvalid D his, and_iff_right hplain]
  · refine iff_of_false ?_ fun h => hplain h.1
    rintro ⟨a, h, -⟩
    simp [dispatchMessage, hget, bind, Except.bind, jadeAssert] at h
  · refine iff_of_false ?_ fun h => hplain h.1
    rintro ⟨a, h, -⟩
    simp [dispatchMessage, hget, bind, Except.bind] at h

/-- What is read of a message of an update. -/
theorem readOtaMsg_spec (source : UInt8) (status : Int) :
    (¬ (status = OTA_SUCCESS → textOf C "method" value = some (ascii "ota_data") →
        ¬ LongBytes C "params" value) ∧ readOtaMsg C source value status = .error .assert) ∨
      ((status = OTA_SUCCESS → textOf C "method" value = some (ascii "ota_data") →
        ¬ LongBytes C "params" value) ∧
          ∃ m, readOtaMsg C source value status = .ok m ∧ textOf C "id" value = some m.id) := by
  obtain ⟨id, htext, hid, hne, -⟩ := id_of_valid hC hnext hvalid
  obtain ⟨w, method, hfind, hcopy, -, his, -⟩ := method_of_valid hC hnext hvalid
  have hpos : id.length ≠ 0 := List.length_pos_iff.2 hne |>.ne'
  have hmethod : textOf C "method" value = some method := by rw [textOf, hfind]; exact hcopy
  unfold readOtaMsg
  simp only [hvalid, hid, his, jadeAssert_true, decide_eq_true hpos, bind, Except.bind, hmethod,
    Option.some.injEq]
  by_cases hstatus : status = OTA_SUCCESS
  · cases hdata : method == ascii "ota_data" with
    | false =>
        have hother : method ≠ ascii "ota_data" := beq_eq_false_iff_ne.1 hdata
        refine .inr ⟨fun _ h => absurd h hother,
          { source, id, isOtaData := false, params := [] }, ?_, htext⟩
        simp only [hstatus, ne_eq, not_true, if_false, Bool.not_false, if_true]
        rfl
    | true =>
        have hsame : method = ascii "ota_data" := eq_of_beq hdata
        simp only [hstatus, ne_eq, not_true, if_false, Bool.not_true, Bool.false_eq_true, hsame,
          true_implies]
        rcases rpcGetBytesPtr_spec "params" value with ⟨hlong, herr⟩ | ⟨hshort, data, hget⟩
        · exact .inl ⟨not_not.2 hlong, by rw [herr]⟩
        · exact .inr ⟨hshort, _, by rw [hget]; rfl, htext⟩
  · exact .inr ⟨fun h => absurd h hstatus, { source, id, isOtaData := false, params := [] },
      if_pos hstatus, htext⟩

/-- **The handler of `ota_data` answers exactly the messages it can answer**, at once or when the
update fails. -/
theorem answerOtaData_iff (source : UInt8) (original : V) (extendedReplies : Bool)
    (writeCompressed : Bytes → Int) {s : OtaCtx} (hs : s.id = []) :
    (∃ a s', answerOtaData C source value original extendedReplies writeCompressed s = .ok (a, s') ∧
      textOf C "id" value = some a.id) ↔ OtaAnswerable C value s := by
  obtain ⟨id, htext, hid, hne, hlen, -⟩ := id_of_valid hC hnext hvalid
  have hnul : NoNulId C value ↔ 0 ∉ id := by simp [NoNulId, htext]
  rw [OtaAnswerable, hnul, htext]
  rcases readOtaMsg_spec hC hnext hvalid source s.otaReturnStatus with
    ⟨hlong, herr⟩ | ⟨hshort, m, hm, hmid⟩
  · refine iff_of_false ?_ fun h => hlong h.2
    rintro ⟨a, s', h, -⟩
    simp [answerOtaData, herr, bind, Except.bind] at h
  obtain rfl : id = m.id := Option.some.inj (htext.symm.trans hmid)
  obtain ⟨s', hs', hend⟩ := handleInBinData_id m writeCompressed hs hne
  rw [and_iff_left hshort]
  constructor
  · -- whichever helper answers, it writes a C string
    rintro ⟨a, s'', h, ha⟩
    rw [Option.some.inj ha]
    simp only [answerOtaData, hm, bind, Except.bind, hs'] at h
    by_cases hok : s'.otaReturnStatus = OTA_SUCCESS
    · rw [if_pos hok] at h
      obtain ⟨out, hout, h⟩ := bind_eq_ok.1 h
      obtain ⟨rfl, rfl⟩ := Prod.mk.inj (pure_eq_ok.1 h)
      exact noNul_replyToMessageResultWithId hout
    · rw [if_neg hok] at h
      split at h
      · obtain ⟨out, hout, h⟩ := bind_eq_ok.1 h
        obtain ⟨rfl, rfl⟩ := Prod.mk.inj (pure_eq_ok.1 h)
        exact noNul_rejectMessageWithId hout
      · obtain ⟨out, hout, h⟩ := bind_eq_ok.1 h
        obtain ⟨rfl, rfl⟩ := Prod.mk.inj (pure_eq_ok.1 h)
        exact noNul_rejectMessageEx hout
  · intro h0
    by_cases hok : s'.otaReturnStatus = OTA_SUCCESS
    · have hsize : 28 + otaReplySize extendedReplies ≤ 64 := by
        unfold otaReplySize
        split <;> omega
      refine ⟨.result m.id, s', ?_, rfl⟩
      simp only [answerOtaData, hm, bind, Except.bind, hs', if_pos hok,
        replyToMessageResultWithId_eq hne h0 hlen hsize]
      rfl
    · have hid' : s'.id = m.id := hend.resolve_left hok
      refine ⟨.error m.id (otaErrorCode s'.otaReturnStatus) "Error uploading OTA data", s', ?_, rfl⟩
      simp only [answerOtaData, hm, bind, Except.bind, hs', if_neg hok, hid', cstr_eq_self h0,
        ne_eq, hne, not_false_eq_true, if_true,
        rejectMessageWithId_eq h0 hlen (by decide : "Error uploading OTA data".utf8ByteSize ≤ 128)]
      rfl

end Valid

/-! ### A few requests -/

/-- The texts `"logout"`, in one piece and in chunks, and `"get_xpub"`. -/
def logoutText : Bytes := [0x66, 0x6c, 0x6f, 0x67, 0x6f, 0x75, 0x74]

def chunkedLogoutText : Bytes := [0x7f, 0x63, 0x6c, 0x6f, 0x67, 0x63, 0x6f, 0x75, 0x74, 0xff]

def getXpubText : Bytes := [0x68, 0x67, 0x65, 0x74, 0x5f, 0x78, 0x70, 0x75, 0x62]

def toyLogout : Bytes := toyRequest [0x61, 0x31] logoutText

def toyChunkedLogout : Bytes := toyRequest [0x61, 0x31] chunkedLogoutText

/-- The id `"1\02"`, of a logout and of a `get_xpub`. -/
def toyNulLogout : Bytes := toyRequest [0x63, 0x31, 0x00, 0x32] logoutText

def toyNulXpub : Bytes := toyRequest [0x63, 0x31, 0x00, 0x32] getXpubText

/-- A device that is unlocked, and whose tasks answer with three bytes. -/
def toyDashboard : Dashboard Bytes where
  debugMode := false
  returnCameraImages := false
  otaAllowed := true
  unlocked := true
  versionInfo := ⟨600, by decide⟩
  setEpochTime _ := none
  ending _ _ := .bytes [1, 2, 3] (by decide)

theorem toy_routes : toyDashboard.route (ascii "logout") = .logout ∧
    toyDashboard.route (ascii "get_xpub") = .task := by
  decide +kernel

theorem toy_ids : textOf tinyCborStrings "id" toyLogout = some [0x31] ∧
    textOf tinyCborStrings "id" toyNulLogout = some [0x31, 0x00, 0x32] ∧
      tinyCborStrings.findValue toyNulXpub "id" = some [0x63, 0x31, 0x00, 0x32] := by
  decide +kernel

theorem toyLogout_noNul : NoNulId tinyCborStrings toyLogout := by
  intro id hid
  obtain rfl := Option.some.inj (toy_ids.1.symm.trans hid)
  decide

/-! ### The result -/

/-- **Which requests are answered under their own id.**  The dispatcher answers a valid request
exactly when its method is a text in one piece and the request can be answered where it goes; the
handler of the messages of an update, however the update has come on, exactly when the id has no NUL
byte and the data that are looked at in place have a length of at most four bytes. -/
theorem requests_answered (C : TinyCborStrings V) (hC : C.Lawful) {msg : Bytes} {value : V}
    (hnext : C.reader.next msg = some (msg.length, value))
    (hvalid : rpcRequestValid C.toTinyCbor value = true) :
    (∀ D : Dashboard V, Answered C value (dispatchMessage C D value) ↔ Dispatchable C D value) ∧
    ∀ source original extendedReplies writeCompressed (s : OtaCtx), s.id = [] →
      ((∃ a s', answerOtaData C source value original extendedReplies writeCompressed s =
        .ok (a, s') ∧ textOf C "id" value = some a.id) ↔ OtaAnswerable C value s) :=
  ⟨fun D => dispatchMessage_iff hC hnext hvalid D,
    fun source original extendedReplies writeCompressed _ hs =>
      answerOtaData_iff hC hnext hvalid source original extendedReplies writeCompressed hs⟩

/-- A logout in one piece, a `get_xpub` whose answer takes the id from where it stands, NUL byte and
all, and a message during an update. -/
theorem requests_answered_toy :
    Answered tinyCborStrings toyLogout (dispatchMessage tinyCborStrings toyDashboard toyLogout) ∧
      Answered tinyCborStrings toyNulXpub
        (dispatchMessage tinyCborStrings toyDashboard toyNulXpub) ∧
        ∀ s : OtaCtx, s.id = [] → ∃ a s',
          answerOtaData tinyCborStrings 2 toyLogout toyLogout true (fun _ => 0) s = .ok (a, s') ∧
            textOf tinyCborStrings "id" toyLogout = some a.id := by
  have hlogout := @requests_answered Bytes tinyCborStrings tinyCborStrings_lawful toyLogout
    toyLogout (by decide +kernel) (by decide +kernel)
  have hxpub := @requests_answered Bytes tinyCborStrings tinyCborStrings_lawful toyNulXpub
    toyNulXpub (by decide +kernel) (by decide +kernel)
  have hmethod : textOf tinyCborStrings "method" toyLogout = some (ascii "logout") := by
    decide +kernel
  refine ⟨(hlogout.1 toyDashboard).2 ?_, (hxpub.1 toyDashboard).2 ?_, fun s hs => ?_⟩
  · have hfind : tinyCborStrings.findValue toyLogout "method" = some logoutText := by
      decide +kernel
    refine (@dispatchable_iff Bytes tinyCborStrings _ _ _ (ascii "logout") hfind
      (by decide +kernel)).2 ⟨⟨by decide +kernel, by decide +kernel⟩, ?_⟩
    rw [RouteFits, toy_routes.1]
    exact toyLogout_noNul
  · have hfind : tinyCborStrings.findValue toyNulXpub "method" = some getXpubText := by
      decide +kernel
    refine (@dispatchable_iff Bytes tinyCborStrings _ _ _ (ascii "get_xpub") hfind
      (by decide +kernel)).2 ⟨⟨by decide +kernel, by decide +kernel⟩, ?_⟩
    rw [RouteFits, toy_routes.2]
    intro w hw
    obtain rfl := Option.some.inj (toy_ids.2.2.symm.trans hw)
    exact ⟨by decide +kernel, by decide +kernel⟩
  · refine (hlogout.2 2 toyLogout true (fun _ => 0) s hs).2 ⟨toyLogout_noNul, fun _ h => ?_⟩
    exact absurd (hmethod.symm.trans h) (by decide +kernel)

/-- A method in chunks aborts the device, and an id with a NUL byte is cut short. -/
theorem requests_answered_fails :
    tinyCborStrings.Lawful ∧ ∀ msg ∈ [toyChunkedLogout, toyNulLogout],
      tinyCborStrings.reader.next msg = some (msg.length, msg) ∧
        rpcRequestValid tinyCborStrings.toTinyCbor msg = true ∧
          ¬ Answered tinyCborStrings msg (dispatchMessage tinyCborStrings toyDashboard msg) := by
  refine ⟨tinyCborStrings_lawful, ?_⟩
  have hfails : ∀ msg, tinyCborStrings.reader.next msg = some (msg.length, msg) →
      rpcRequestValid tinyCborStrings.toTinyCbor msg = true →
        ¬ Dispatchable tinyCborStrings toyDashboard msg →
          tinyCborStrings.reader.next msg = some (msg.length, msg) ∧
            rpcRequestValid tinyCborStrings.toTinyCbor msg = true ∧
              ¬ Answered tinyCborStrings msg (dispatchMessage tinyCborStrings toyDashboard msg) :=
    fun msg hnext hvalid hnot => ⟨hnext, hvalid, fun h =>
      hnot ((dispatchMessage_iff tinyCborStrings_lawful hnext hvalid toyDashboard).1 h)⟩
  intro msg hmsg
  simp only [List.mem_cons, List.not_mem_nil, or_false] at hmsg
  rcases hmsg with rfl | rfl
  · have hfind : tinyCborStrings.findValue toyChunkedLogout "method" = some chunkedLogoutText := by
      decide +kernel
    refine hfails _ (by decide +kernel) (by decide +kernel) fun h => ?_
    have hplain := ((@dispatchable_iff Bytes tinyCborStrings _ _ _ (ascii "logout") hfind
      (by decide +kernel)).1 h).1
    exact absurd hplain.1 (by decide +kernel)
  · have hfind : tinyCborStrings.findValue toyNulLogout "method" = some logoutText := by
      decide +kernel
    refine hfails _ (by decide +kernel) (by decide +kernel) fun h => ?_
    have hroute := ((@dispatchable_iff Bytes tinyCborStrings _ _ _ (ascii "logout") hfind
      (by decide +kernel)).1 h).2
    rw [RouteFits, toy_routes.1] at hroute
    exact absurd (hroute _ toy_ids.2.1) (by decide)

end Jade
