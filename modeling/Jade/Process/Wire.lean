/-
**Cutting the bytes of a port into messages** (`wire.c`).

A port keeps the bytes it has received and not yet handed on.  New bytes are appended, and as long
as the buffer begins with a complete CBOR item, that item is taken off its front and handed on: a
request that is not valid is answered with an error, a few requests are answered at once, and the
others go to the queue of the main task.

The way the bytes are split into reads makes no difference, as long as every message can be handed
on.  Two kinds of valid requests cannot: reading the method aborts the device when its length takes
eight bytes, and so does answering a request at once when its id begins with a NUL byte, which ends
the C string that is written into the answer.  Two more kinds of messages are not read in one piece:
of an item with a tag in front the library reads the tag alone, and it refuses containers that are
nested too deep.

Main definitions:

* `Jade.Handed` — a message taken off the buffer, and what became of it;
* `Jade.handleDataImpl`, `Jade.handleData` — the code;
* `Jade.receive` — reads one after another, `Jade.Fits` — reads that fit and come in time;
* `Jade.cannotBeHandedOn` — the requests that abort the device, `Jade.inOnePiece` — the messages
  that the library reads to their end.

Main results:

* `Jade.parseLoop_eq` — the loop cuts the buffer into items and hands on each of them;
* `Jade.handleMessage_eq_error_iff` — which messages abort the device;
* `Jade.receive_framing` — **the messages of a stream are handed on, each once and in order, for
  every way of splitting the stream, exactly when each is read in one piece and none aborts the
  device**.
-/

import Jade.Lib.CborGrammar
import Jade.Utils.CborRpc
import Mathlib.Data.List.Forall2
import Mathlib.Data.Nat.Digits.Defs

set_option relaxedAutoImplicit false
set_option autoImplicit false

namespace Jade

/-! ### Handing on a message -/

/-- What becomes of a message. -/
inductive Outcome
  | rejected (id : Bytes) (code : ℤ) (message data : String)
  | replied (id : Bytes) (method : Bytes)
  | queued (item : Bytes)
  deriving DecidableEq, Repr

/-- A message taken off the buffer, and what became of it. -/
structure Handed where
  message : Bytes
  outcome : Outcome
  deriving DecidableEq, Repr

/-- The CBOR library, the build options and the input queue. -/
structure WirePlatform (V : Type) where
  cbor : TinyCbor V
  spiram : Bool
  timeoutTicks : ℕ
  /-- `xRingbufferGetMaxItemSize(shared_in)` -/
  maxItemSize : ℕ

variable {V : Type} (P : WirePlatform V)

/-- `MAX_INPUT_MSG_SIZE` -/
def WirePlatform.maxInputMsgSize : ℕ := if P.spiram then 1024 * 401 else 1024 * 17

/-- `CBOR_PARSER_MAX_RECURSIONS` -/
def CBOR_PARSER_MAX_RECURSIONS : ℕ := 1024

/-- What `cbor_value_advance` steps over: a well-formed item is read to its end; of an item with a
tag in front the tag alone is read, and containers that are nested too deep are refused. -/
structure TinyCbor.Advances (C : TinyCbor V) : Prop where
  item : ∀ m d, Cbor.Items 1 d m → Cbor.tagged m = false → d ≤ CBOR_PARSER_MAX_RECURSIONS →
    Stream.IsItem C.reader m
  tag : ∀ m d rest v, Cbor.Items 1 d m → Cbor.tagged m = true →
    C.reader.next (m ++ rest) ≠ some (m.length, v)
  deep : ∀ m d rest, Cbor.Items 1 d m → Cbor.tagged m = false → CBOR_PARSER_MAX_RECURSIONS < d →
    C.reader.next (m ++ rest) = none

/-- The library does what it documents, and the queue takes the largest message with its source. -/
structure WirePlatform.Lawful : Prop where
  cbor : P.cbor.Lawful
  advances : P.cbor.Advances
  queue : P.maxInputMsgSize + 1 ≤ P.maxItemSize

def PING : Bytes := [0x70, 0x69, 0x6e, 0x67]

def VERINFO : Bytes :=
  [0x67, 0x65, 0x74, 0x5f, 0x76, 0x65, 0x72, 0x73, 0x69, 0x6f, 0x6e, 0x5f, 0x69, 0x6e, 0x66, 0x6f]

/-- `SEND_REJECT_MSG` with `CBOR_RPC_INVALID_REQUEST`: the length goes into a buffer of eight
characters, and the id is written as a C string. -/
def sendRejectMsg (value : Option V) (message : String) (rejectedlen : ℕ) :
    Except WireAbort Outcome := do
  let lenstr := Nat.repr rejectedlen
  jadeAssert (decide (lenstr.length < 8))
  let id ← match value with
    | none => pure []
    | some v => rpcGetId P.cbor v
  let id := if id = [] then [0x30, 0x30] else id
  return .rejected (Bytes.cstr id) CBOR_RPC_INVALID_REQUEST message lenstr

/-- `jade_process_reply_to_message_result`: the id is copied as a C string, which ends at a NUL
byte and must not be empty. -/
def replyToMessageResult (value : V) (method : Bytes) : Except WireAbort Outcome := do
  let id ← rpcGetId P.cbor value
  jadeAssert (decide (id.length ≠ 0))
  let idStr := id.takeWhile (· ≠ 0)
  jadeAssert (decide (idStr.length ≠ 0))
  return .replied idStr method

/-- Is the request answered in this task? -/
def isImmediate (value : V) (method : Bytes) : Bool :=
  if method = PING then true
  else if method = VERINFO then
    match rpcGetMap P.cbor "params" value with
    | none => false
    | some params => (rpcGetBoolean P.cbor "nonblocking" params).getD false
  else false

def handleImmediateMessage (value : V) : Except WireAbort (Option Outcome) := do
  match ← rpcGetMethod P.cbor value with
  | none => return none
  | some method =>
      if isImmediate P value method then
        let out ← replyToMessageResult P value method
        return some out
      else return none

/-- The part of the loop of `handle_data_impl` that is about one message. -/
def handleMessage (source : UInt8) (msg : Bytes) (value : V) : Except WireAbort Outcome :=
  if !rpcRequestValid P.cbor value then
    sendRejectMsg P (some value) "Invalid RPC Request message (malformed)" msg.length
  else do
    match ← handleImmediateMessage P value with
    | some out => return out
    | none =>
        -- the source byte in front of the buffer goes with the message
        if (source :: msg).length ≤ P.maxItemSize then return .queued (source :: msg)
        else sendRejectMsg P (some value) "Input message too large to handle" msg.length

/-! ### The loop -/

/-- The loop of `handle_data_impl`: what was handed on, and what stays in the buffer. -/
def parseLoop (source : UInt8) (rejectIfNoMsg : Bool) (buf : Bytes) :
    Except WireAbort (List Handed × Bytes) :=
  match _h : P.cbor.reader.next buf with
  | none =>
      if !rejectIfNoMsg then .ok ([], buf)
      else do
        let out ← sendRejectMsg P (P.cbor.parserInit buf) "Invalid RPC Request message" buf.length
        return ([⟨buf, out⟩], [])
  | some (msgLen, value) => do
      let out ← handleMessage P source (buf.take msgLen) value
      if msgLen = buf.length then return ([⟨buf.take msgLen, out⟩], [])
      else do
        let (more, rest) ← parseLoop source false (buf.drop msgLen)
        return (⟨buf.take msgLen, out⟩ :: more, rest)
termination_by buf.length
decreasing_by exact P.cbor.reader.drop_lt _h

def handleDataImpl (source : UInt8) (rejectIfNoMsg : Bool) (buf : Bytes) :
    Except WireAbort (List Handed × Bytes) := do
  jadeAssert (decide (buf.length ≤ P.maxInputMsgSize))
  parseLoop P source rejectIfNoMsg buf

/-- What a port keeps between two reads, and what it has handed on. -/
structure Port where
  buf : Bytes
  lastProcessingTime : ℕ
  handed : List Handed
  deriving DecidableEq, Repr

/-- Reject what has been lying in the buffer for too long. -/
def rejectStale (source : UInt8) (timeNow : ℕ) (p : Port) : Except WireAbort Port := do
  if 0 < p.buf.length ∧ p.lastProcessingTime + P.timeoutTicks < timeNow then
    let (out, rest) ← handleDataImpl P source true p.buf
    jadeAssert (decide (rest.length = 0))
    return { p with buf := rest, handed := p.handed ++ out }
  else return p

def handleData (source : UInt8) (forceReject : Bool) (newData : Bytes) (timeNow : ℕ) (p : Port) :
    Except WireAbort Port := do
  jadeAssert (decide (p.buf.length + newData.length ≤ P.maxInputMsgSize))
  jadeAssert (decide (p.lastProcessingTime ≤ timeNow))
  let p ← rejectStale P source timeNow p
  let buf := p.buf ++ newData
  let rejectIfNoMsg := forceReject || decide (buf.length = P.maxInputMsgSize)
  let (out, rest) ← handleDataImpl P source rejectIfNoMsg buf
  return { buf := rest, lastProcessingTime := timeNow, handed := p.handed ++ out }

/-! ### Which messages abort the device -/

/-- The method of a request that is answered in this task. -/
def answeredAtOnce (value : V) : Option Bytes :=
  match rpcGetMethod P.cbor value with
  | .ok (some method) => if isImmediate P value method then some method else none
  | _ => none

/-- The id of a request begins with a NUL byte. -/
def emptyId (value : V) : Bool :=
  match rpcGetId P.cbor value with
  | .ok (b :: _) => b == 0
  | _ => false

/-- The length of the method of a request takes eight bytes. -/
def eightByteMethod (value : V) : Bool :=
  match P.cbor.findValue value "method" with
  | none => false
  | some method => eightByteLength P.cbor method

/-- The valid requests that abort the device: the length of the method takes eight bytes, or the
request is to be answered at once and its id begins with a NUL byte. -/
def cannotBeHandedOn (value : V) : Bool :=
  rpcRequestValid P.cbor value &&
    (eightByteMethod P value || ((answeredAtOnce P value).isSome && emptyId P value))

/-- What handing on a message amounts to: an error for a request that is not valid, an answer at
once for a few, and the message itself in the queue, behind its source, for all the others. -/
def HandedOn (source : UInt8) (msg : Bytes) (h : Handed) : Prop :=
  h.message = msg ∧ ∃ value, Stream.value P.cbor.reader msg = some value ∧
    if rpcRequestValid P.cbor value then
      match answeredAtOnce P value with
      | some method => ∃ id, h.outcome = .replied id method
      | none => h.outcome = .queued (source :: msg)
    else
      ∃ id, h.outcome = .rejected id CBOR_RPC_INVALID_REQUEST
        "Invalid RPC Request message (malformed)" (Nat.repr msg.length)

variable {P}

theorem length_repr_lt {n : ℕ} (h : n ≤ P.maxInputMsgSize) : (Nat.repr n).length < 8 := by
  have hmax : P.maxInputMsgSize ≤ 1024 * 401 := by
    unfold WirePlatform.maxInputMsgSize
    split <;> omega
  exact Nat.lt_succ_of_le (Nat.repr_length n 7 (by omega) (by omega))

theorem jadeAssert_true {c : Bool} (h : c = true) : jadeAssert c = .ok () := if_pos h

theorem sendRejectMsg_of_next (hP : P.Lawful) {bs : Bytes} {n len : ℕ} {value : V}
    (hnext : P.cbor.reader.next bs = some (n, value)) (hlen : len ≤ P.maxInputMsgSize)
    (message : String) :
    ∃ id, sendRejectMsg P (some value) message len =
      .ok (.rejected id CBOR_RPC_INVALID_REQUEST message (Nat.repr len)) := by
  obtain ⟨id, hid, -⟩ := rpcGetId_of_next hP.cbor hnext
  refine ⟨Bytes.cstr (if id = [] then [0x30, 0x30] else id), ?_⟩
  simp only [sendRejectMsg, jadeAssert_true (decide_eq_true (length_repr_lt hlen)), hid]
  rfl

theorem sendRejectMsg_outcome {value : Option V} {message : String} {len : ℕ} {out : Outcome}
    (h : sendRejectMsg P value message len = .ok out) :
    ∃ id code rejected, out = .rejected id code message rejected := by
  unfold sendRejectMsg at h
  cases hlen : jadeAssert (decide ((Nat.repr len).length < 8)) with
  | error e => simp only [hlen] at h; cases h
  | ok _ =>
      cases value with
      | none => simp only [hlen] at h; cases h; exact ⟨_, _, _, rfl⟩
      | some v =>
          cases hid : rpcGetId P.cbor v with
          | error e => simp only [hlen, hid] at h; cases h
          | ok id => simp only [hlen, hid] at h; cases h; exact ⟨_, _, _, rfl⟩

/-- The answer at once: the id of the request ends at its first NUL byte. -/
theorem replyToMessageResult_of_valid (hP : P.Lawful) {bs : Bytes} {n : ℕ} {value : V}
    (hnext : P.cbor.reader.next bs = some (n, value))
    (hvalid : rpcRequestValid P.cbor value = true) (method : Bytes) :
    (emptyId P value = true ∧ replyToMessageResult P value method = .error .assert) ∨
      (emptyId P value = false ∧
        ∃ id, replyToMessageResult P value method = .ok (.replied id method)) := by
  obtain ⟨id, hid, hne⟩ := rpcGetId_of_valid hP.cbor hnext hvalid
  cases id with
  | nil => exact absurd rfl hne
  | cons b id =>
      simp only [emptyId, replyToMessageResult, hid]
      by_cases hb : b = 0
      · left
        subst hb
        exact ⟨rfl, rfl⟩
      · right
        refine ⟨beq_eq_false_iff_ne.2 hb, (b :: id).takeWhile (· ≠ 0), ?_⟩
        have hlen : (b :: id).length ≠ 0 := Nat.succ_ne_zero _
        have hstr : ((b :: id).takeWhile (· ≠ 0)).length ≠ 0 := by simp [hb]
        simp only [bind, Except.bind, jadeAssert_true (decide_eq_true hlen),
          jadeAssert_true (decide_eq_true hstr)]
        rfl

/-- **Which messages abort the device**, and what becomes of the others. -/
theorem handleMessage_spec (hP : P.Lawful) (source : UInt8) {msg : Bytes} {value : V}
    (hnext : P.cbor.reader.next msg = some (msg.length, value))
    (hlen : msg.length ≤ P.maxInputMsgSize) :
    (cannotBeHandedOn P value = true ∧ handleMessage P source msg value = .error .assert) ∨
      (cannotBeHandedOn P value = false ∧ ∃ out, handleMessage P source msg value = .ok out ∧
        HandedOn P source msg ⟨msg, out⟩) := by
  have hvalue : Stream.value P.cbor.reader msg = some value := by rw [Stream.value, hnext]; rfl
  cases hvalid : rpcRequestValid P.cbor value with
  | false =>
      obtain ⟨id, hsend⟩ := sendRejectMsg_of_next hP hnext hlen
        "Invalid RPC Request message (malformed)"
      right
      refine ⟨by simp [cannotBeHandedOn, hvalid], .rejected id CBOR_RPC_INVALID_REQUEST
        "Invalid RPC Request message (malformed)" (Nat.repr msg.length), ?_, rfl, value, hvalue, ?_⟩
      · rw [handleMessage, hvalid]
        exact hsend
      · rw [hvalid]
        exact ⟨id, rfl⟩
  | true =>
      obtain ⟨method, hfind, hmethod⟩ := rpcGetMethod_of_valid hP.cbor hvalid
      have height : eightByteMethod P value = eightByteLength P.cbor method := by
        rw [eightByteMethod, hfind]
      rcases hmethod with ⟨hlong, herr⟩ | ⟨hshort, data, hdata⟩
      · left
        refine ⟨by simp [cannotBeHandedOn, hvalid, height, hlong], ?_⟩
        simp only [handleMessage, hvalid, handleImmediateMessage, herr]
        rfl
      · -- the request goes to the queue unless it is answered at once
        have hqueue : handleImmediateMessage P value = .ok none →
            handleMessage P source msg value = .ok (.queued (source :: msg)) := by
          intro himm
          have hfits : (source :: msg).length ≤ P.maxItemSize := by
            have := hP.queue
            simp only [List.length_cons]
            omega
          simp only [handleMessage, hvalid, himm, bind, Except.bind, if_pos hfits]
          rfl
        have hnot : answeredAtOnce P value = none → handleImmediateMessage P value = .ok none →
            (cannotBeHandedOn P value = false ∧ ∃ out,
              handleMessage P source msg value = .ok out ∧ HandedOn P source msg ⟨msg, out⟩) := by
          intro hatOnce himm
          refine ⟨by simp [cannotBeHandedOn, height, hshort, hatOnce], .queued (source :: msg),
            hqueue himm, rfl, value, hvalue, ?_⟩
          rw [hvalid, hatOnce]
          rfl
        cases data with
        | none =>
            right
            exact hnot (by rw [answeredAtOnce, hdata])
              (by rw [handleImmediateMessage, hdata]; rfl)
        | some name =>
            cases himm : isImmediate P value name with
            | false =>
                right
                refine hnot ?_ ?_
                · simp only [answeredAtOnce, hdata, himm]
                  rfl
                · simp only [handleImmediateMessage, hdata, bind, Except.bind, himm]
                  rfl
            | true =>
                have hatOnce : answeredAtOnce P value = some name := by
                  simp only [answeredAtOnce, hdata, himm, if_true]
                rcases replyToMessageResult_of_valid hP hnext hvalid name with
                  ⟨hid, hreply⟩ | ⟨hid, id, hreply⟩
                · left
                  refine ⟨by simp [cannotBeHandedOn, hvalid, hatOnce, hid], ?_⟩
                  simp only [handleMessage, hvalid, handleImmediateMessage, hdata, bind,
                    Except.bind, himm, hreply]
                  rfl
                · right
                  refine ⟨by simp [cannotBeHandedOn, height, hshort, hid], .replied id name, ?_,
                    rfl, value, hvalue, ?_⟩
                  · simp only [handleMessage, hvalid, handleImmediateMessage, hdata, bind,
                      Except.bind, himm, hreply]
                    rfl
                  · rw [hvalid, hatOnce]
                    exact ⟨id, rfl⟩

/-! ### What one call does to the buffer -/

/-- The item at the front of the buffer, handed on. -/
def handleItem (P : WirePlatform V) (source : UInt8) (item : Bytes × V) : Except WireAbort Handed :=
  (handleMessage P source item.1 item.2).map (⟨item.1, ·⟩)

/-- **The loop cuts the buffer into items and hands on each of them.** -/
theorem parseLoop_eq (source : UInt8) (buf : Bytes) :
    parseLoop P source false buf = do
      let out ← (Stream.split P.cbor.reader buf).1.mapM (handleItem P source)
      return (out, (Stream.split P.cbor.reader buf).2) := by
  induction buf using Stream.split_induction P.cbor.reader with
  | rest buf h =>
      rw [parseLoop, Stream.split_of_none h]
      split
      · rfl
      · next heq => exact absurd (h.symm.trans heq) (by simp)
  | item buf n value h ih =>
      rw [parseLoop, Stream.split_of_some h]
      split
      · next heq => exact absurd (h.symm.trans heq) (by simp)
      · next n' value' heq =>
          obtain ⟨rfl, rfl⟩ := Prod.mk.inj (Option.some.inj (h.symm.trans heq))
          rw [List.mapM_cons, handleItem]
          cases hmsg : handleMessage P source (buf.take n) value with
          | error e => rfl
          | ok out =>
              by_cases hn : n = buf.length
              · subst hn
                rw [List.drop_length, Stream.split_nil]
                simp only [bind, Except.bind]
                rfl
              · simp only [Except.map, bind, Except.bind, if_neg hn]
                rw [ih]
                cases (Stream.split P.cbor.reader (buf.drop n)).1.mapM (handleItem P source) with
                | error e => rfl
                | ok more => rfl

/-- Being allowed to wait for more makes no difference when a message is there. -/
theorem parseLoop_of_next {source : UInt8} {buf : Bytes} {n : ℕ} {value : V}
    (h : P.cbor.reader.next buf = some (n, value)) (rejectIfNoMsg : Bool) :
    parseLoop P source rejectIfNoMsg buf = parseLoop P source false buf := by
  rw [parseLoop, parseLoop]
  split
  · next heq => exact absurd (h.symm.trans heq) (by simp)
  · rfl

theorem map_message_of_mapM {source : UInt8} {items : List (Bytes × V)} {out : List Handed}
    (h : items.mapM (handleItem P source) = .ok out) :
    out.map Handed.message = items.map Prod.fst := by
  induction items generalizing out with
  | nil => cases h; rfl
  | cons item items ih =>
      rw [List.mapM_cons, handleItem] at h
      cases hmsg : handleMessage P source item.1 item.2 with
      | error e => rw [hmsg] at h; cases h
      | ok o =>
          cases hmore : items.mapM (handleItem P source) with
          | error e => simp only [hmsg, hmore] at h; cases h
          | ok more =>
              simp only [hmsg, hmore] at h
              cases h
              rw [List.map_cons, List.map_cons, ih hmore]

/-- The loop ends: what is handed on makes up the buffer together with what stays, which does not
begin with a message, and no more turns are taken than there are bytes. -/
theorem parseLoop_ends (source : UInt8) (rejectIfNoMsg : Bool) (buf : Bytes) :
    (∃ e, parseLoop P source rejectIfNoMsg buf = .error e) ∨
      ∃ out rest, parseLoop P source rejectIfNoMsg buf = .ok (out, rest) ∧
        (out.map Handed.message).flatten ++ rest = buf ∧ P.cbor.reader.next rest = none ∧
          out.length ≤ max buf.length 1 := by
  have hwait : (∃ e, parseLoop P source false buf = .error e) ∨
      ∃ out rest, parseLoop P source false buf = .ok (out, rest) ∧
        (out.map Handed.message).flatten ++ rest = buf ∧ P.cbor.reader.next rest = none ∧
          out.length ≤ max buf.length 1 := by
    rw [parseLoop_eq]
    cases hout : (Stream.split P.cbor.reader buf).1.mapM (handleItem P source) with
    | error e => exact .inl ⟨e, rfl⟩
    | ok out =>
        have hmsgs := map_message_of_mapM hout
        have hlen : out.length = (Stream.split P.cbor.reader buf).1.length := by
          have := congrArg List.length hmsgs
          rwa [List.length_map, List.length_map] at this
        refine .inr ⟨out, _, rfl, ?_, Stream.next_split _ _, ?_⟩
        · rw [hmsgs]
          exact Stream.flatten_split _ _
        · have := Stream.length_split_le P.cbor.reader buf
          omega
  cases hnext : P.cbor.reader.next buf with
  | some item =>
      obtain ⟨n, value⟩ := item
      rwa [parseLoop_of_next hnext]
  | none =>
      cases rejectIfNoMsg with
      | false => exact hwait
      | true =>
          rw [parseLoop]
          split
          · cases sendRejectMsg P (P.cbor.parserInit buf) "Invalid RPC Request message"
              buf.length with
            | error e => exact .inl ⟨e, rfl⟩
            | ok out =>
                exact .inr ⟨[⟨buf, out⟩], [], rfl, by simp, P.cbor.reader.next_nil, by simp⟩
          · next heq => exact absurd (hnext.symm.trans heq) (by simp)

/-! ### Streams of messages -/

/-- The message aborts the device. -/
def abortsDevice (P : WirePlatform V) (msg : Bytes) : Bool :=
  match Stream.value P.cbor.reader msg with
  | none => false
  | some value => cannotBeHandedOn P value

/-- Messages that are one item of the library's reader each, and fit the input buffer. -/
def SingleItems (P : WirePlatform V) (ms : List Bytes) : Prop :=
  ∀ m ∈ ms, Stream.IsItem P.cbor.reader m ∧ m.length ≤ P.maxInputMsgSize

theorem handleItem_spec (hP : P.Lawful) (source : UInt8) {m : Bytes} {value : V}
    (hm : Stream.IsItem P.cbor.reader m) (hlen : m.length ≤ P.maxInputMsgSize)
    (hvalue : Stream.value P.cbor.reader m = some value) :
    (abortsDevice P m = true ∧ handleItem P source (m, value) = .error .assert) ∨
      (abortsDevice P m = false ∧ ∃ h, handleItem P source (m, value) = .ok h ∧
        HandedOn P source m h) := by
  obtain ⟨v, hnext⟩ := hm
  have hv : v = value := by
    rw [Stream.value, hnext] at hvalue
    exact Option.some.inj hvalue
  subst hv
  have haborts : abortsDevice P m = cannotBeHandedOn P v := by rw [abortsDevice, hvalue]
  rw [haborts]
  rcases handleMessage_spec hP source hnext hlen with ⟨hc, herr⟩ | ⟨hc, out, hout, hon⟩
  · exact .inl ⟨hc, by rw [handleItem, herr]; rfl⟩
  · exact .inr ⟨hc, ⟨m, out⟩, by rw [handleItem, hout]; rfl, hon⟩

/-- They are handed on one after another until one of them aborts the device. -/
theorem mapM_handleItem (hP : P.Lawful) (source : UInt8) {ms : List Bytes} (hms : SingleItems P ms)
    {items : List (Bytes × V)} (hitems : items.map (fun item => (item.1, some item.2)) =
      ms.map fun m => (m, Stream.value P.cbor.reader m)) :
    ((∃ m ∈ ms, abortsDevice P m = true) ∧
        items.mapM (handleItem P source) = .error .assert) ∨
      ((∀ m ∈ ms, abortsDevice P m = false) ∧
        ∃ out, items.mapM (handleItem P source) = .ok out ∧
          List.Forall₂ (HandedOn P source) ms out) := by
  induction ms generalizing items with
  | nil =>
      obtain rfl : items = [] := by simpa using hitems
      exact .inr ⟨by simp, [], rfl, .nil⟩
  | cons m ms ih =>
      obtain ⟨item, items, rfl⟩ : ∃ item items', items = item :: items' := by
        cases items with
        | nil => simp at hitems
        | cons item items => exact ⟨item, items, rfl⟩
      simp only [List.map_cons, List.cons.injEq, Prod.mk.injEq] at hitems
      obtain ⟨⟨rfl, hvalue⟩, hrest⟩ := hitems
      obtain ⟨hitem, hlen⟩ := hms _ List.mem_cons_self
      rw [List.mapM_cons]
      rcases handleItem_spec hP source hitem hlen hvalue.symm with ⟨hab, herr⟩ | ⟨hab, h, hh, hon⟩
      · exact .inl ⟨⟨_, List.mem_cons_self, hab⟩, by rw [herr]; rfl⟩
      · rw [hh]
        rcases ih (fun m' hm' => hms m' (List.mem_cons_of_mem _ hm')) hrest with
          ⟨⟨m', hm', hab'⟩, herr⟩ | ⟨hab', out, hout, hall⟩
        · exact .inl ⟨⟨m', List.mem_cons_of_mem _ hm', hab'⟩, by simp only [herr]; rfl⟩
        · refine .inr ⟨List.forall_mem_cons.2 ⟨hab, hab'⟩, h :: out, ?_, .cons hon hall⟩
          simp only [hout]
          rfl

/-! ### Reads one after another -/

/-- Reads one after another, each with its bytes and its time. -/
def receive (P : WirePlatform V) (source : UInt8) :
    List (Bytes × ℕ) → Port → Except WireAbort Port
  | [], p => .ok p
  | (newData, timeNow) :: reads, p => do
      let p ← handleData P source false newData timeNow p
      receive P source reads p

/-- Every read fits the free part of the buffer, and comes before what is in the buffer is stale. -/
def Fits (P : WirePlatform V) (source : UInt8) : Port → List (Bytes × ℕ) → Prop
  | _, [] => True
  | p, (newData, timeNow) :: reads =>
      p.buf.length + newData.length ≤ P.maxInputMsgSize ∧
        p.lastProcessingTime ≤ timeNow ∧
          (p.buf ≠ [] → timeNow ≤ p.lastProcessingTime + P.timeoutTicks) ∧
            ∀ p', handleData P source false newData timeNow p = .ok p' → Fits P source p' reads

/-- A read that fits and comes in time is one run of the loop over the buffer and the new bytes. -/
theorem handleData_eq {source : UInt8} {p : Port} {newData : Bytes} {timeNow : ℕ}
    (hfits : p.buf.length + newData.length ≤ P.maxInputMsgSize)
    (htime : p.lastProcessingTime ≤ timeNow)
    (hstale : p.buf ≠ [] → timeNow ≤ p.lastProcessingTime + P.timeoutTicks) :
    handleData P source false newData timeNow p = do
      let (out, rest) ← parseLoop P source
        (decide ((p.buf ++ newData).length = P.maxInputMsgSize)) (p.buf ++ newData)
      return { buf := rest, lastProcessingTime := timeNow, handed := p.handed ++ out } := by
  have hnotStale : ¬ (0 < p.buf.length ∧ p.lastProcessingTime + P.timeoutTicks < timeNow) := by
    rintro ⟨hpos, hlt⟩
    have := hstale (List.ne_nil_of_length_pos hpos)
    omega
  have hlen : (p.buf ++ newData).length ≤ P.maxInputMsgSize := by
    rw [List.length_append]
    exact hfits
  simp only [handleData, rejectStale, if_neg hnotStale, handleDataImpl,
    jadeAssert_true (decide_eq_true hfits), jadeAssert_true (decide_eq_true htime),
    jadeAssert_true (decide_eq_true hlen), bind, Except.bind, pure, Except.pure, Bool.false_or]

/-- Reads that together fit the buffer, and come all at once. -/
theorem fits_of_length_le {source : UInt8} {p : Port} {reads : List (Bytes × ℕ)}
    (hlen : p.buf.length + (reads.map Prod.fst).flatten.length ≤ P.maxInputMsgSize)
    (htime : ∀ read ∈ reads, read.2 = p.lastProcessingTime) : Fits P source p reads := by
  induction reads generalizing p with
  | nil => trivial
  | cons read reads ih =>
      obtain ⟨newData, timeNow⟩ := read
      obtain rfl : timeNow = p.lastProcessingTime := htime _ List.mem_cons_self
      simp only [List.map_cons, List.flatten_cons, List.length_append] at hlen
      have hfits : p.buf.length + newData.length ≤ P.maxInputMsgSize := by omega
      refine ⟨hfits, le_rfl, fun _ => Nat.le_add_right _ _, ?_⟩
      intro q hq
      rw [handleData_eq hfits le_rfl (fun _ => Nat.le_add_right _ _)] at hq
      rcases parseLoop_ends source (decide ((p.buf ++ newData).length = P.maxInputMsgSize))
        (p.buf ++ newData) with ⟨e, he⟩ | ⟨out, rest, hok, hbuf, -⟩
      · rw [he] at hq
        cases hq
      · rw [hok] at hq
        cases hq
        -- what stays in the buffer is a part of what was there
        have hrest := congrArg List.length hbuf
        simp only [List.length_append] at hrest
        refine ih ?_ fun read hread => htime read (List.mem_cons_of_mem _ hread)
        simp only
        omega

/-- What one read does, when the bytes to come continue a sequence of messages. -/
theorem handleData_spec (hP : P.Lawful) (source : UInt8) {ms : List Bytes} (hms : SingleItems P ms)
    {p : Port} {newData rest : Bytes} {timeNow : ℕ}
    (hfits : p.buf.length + newData.length ≤ P.maxInputMsgSize)
    (htime : p.lastProcessingTime ≤ timeNow)
    (hstale : p.buf ≠ [] → timeNow ≤ p.lastProcessingTime + P.timeoutTicks)
    (hbuf : p.buf ++ (newData ++ rest) = ms.flatten) :
    ∃ k ≤ ms.length,
      ((∃ m ∈ ms.take k, abortsDevice P m = true) ∧
          handleData P source false newData timeNow p = .error .assert) ∨
        ((∀ m ∈ ms.take k, abortsDevice P m = false) ∧ ∃ q out,
          handleData P source false newData timeNow p = .ok q ∧ q.handed = p.handed ++ out ∧
            List.Forall₂ (HandedOn P source) (ms.take k) out ∧
              q.buf ++ rest = (ms.drop k).flatten ∧ P.cbor.reader.next q.buf = none) := by
  obtain ⟨k, hk, hitems, hrest⟩ := Stream.split_of_prefix hP.cbor.stable
    (fun m hm => (hms m hm).1) ((List.append_assoc _ _ _).trans hbuf)
  -- a full buffer begins with a message, because no message is longer than the buffer
  have hloop : parseLoop P source
      (decide ((p.buf ++ newData).length = P.maxInputMsgSize)) (p.buf ++ newData) =
        parseLoop P source false (p.buf ++ newData) := by
    by_cases hfull : (p.buf ++ newData).length = P.maxInputMsgSize
    · cases hnext : P.cbor.reader.next (p.buf ++ newData) with
      | some item =>
          obtain ⟨n, value⟩ := item
          exact parseLoop_of_next hnext _
      | none =>
          cases ms with
          | nil =>
              have : (p.buf ++ newData).length = 0 := by
                have := congrArg List.length hbuf
                simp only [List.length_append, List.flatten_nil, List.length_nil] at this ⊢
                omega
              have hpos : 0 < P.maxInputMsgSize := by
                unfold WirePlatform.maxInputMsgSize
                split <;> omega
              omega
          | cons m ms =>
              obtain ⟨hm, hmlen⟩ := hms m List.mem_cons_self
              have := Stream.length_rest_lt hP.cbor.stable hm hnext
                ((List.append_assoc _ _ _).trans hbuf)
              omega
    · rw [decide_eq_false hfull]
  have hrun : handleData P source false newData timeNow p = do
      let out ← (Stream.split P.cbor.reader (p.buf ++ newData)).1.mapM (handleItem P source)
      return { buf := (Stream.split P.cbor.reader (p.buf ++ newData)).2,
               lastProcessingTime := timeNow, handed := p.handed ++ out } := by
    rw [handleData_eq hfits htime hstale, hloop, parseLoop_eq]
    cases (Stream.split P.cbor.reader (p.buf ++ newData)).1.mapM (handleItem P source) <;> rfl
  refine ⟨k, hk, ?_⟩
  rcases mapM_handleItem hP source (fun m hm => hms m (List.mem_of_mem_take hm)) hitems with
    ⟨hab, herr⟩ | ⟨hab, out, hout, hall⟩
  · exact .inl ⟨hab, by rw [hrun, herr]; rfl⟩
  · refine .inr ⟨hab, _, out, by rw [hrun, hout]; rfl, rfl, hall, hrest, ?_⟩
    exact Stream.next_split _ _

/-- After every read, what was handed on are the first messages of the stream, each once and in
order; the buffer keeps the beginning of the next one, and never a complete message.  In the end
there is nothing left. -/
def Framed (P : WirePlatform V) (source : UInt8) (ms : List Bytes) (p : Port)
    (reads : List (Bytes × ℕ)) : Prop :=
  ∀ i ≤ reads.length, ∃ q k out,
    receive P source (reads.take i) p = .ok q ∧ q.handed = p.handed ++ out ∧
      List.Forall₂ (HandedOn P source) (ms.take k) out ∧
        q.buf ++ ((reads.drop i).map Prod.fst).flatten = (ms.drop k).flatten ∧
          P.cbor.reader.next q.buf = none ∧
            (i = reads.length → q.buf = [] ∧ out.length = ms.length)

/-- A buffer that does not begin with a message is no sequence of messages, unless it is empty. -/
theorem eq_nil_of_next_none (hP : P.Lawful) {ms : List Bytes} (hms : SingleItems P ms)
    (h : P.cbor.reader.next ms.flatten = none) : ms = [] := by
  cases ms with
  | nil => rfl
  | cons m ms =>
      obtain ⟨v, -, hnext⟩ := (hms m List.mem_cons_self).1.next_append hP.cbor.stable ms.flatten
      rw [List.flatten_cons, hnext] at h
      cases h

/-- The reads of a stream, from any point at which the buffer does not begin with a message: either
all the messages are handed on, or the first one that aborts the device does. -/
theorem receive_spec (hP : P.Lawful) (source : UInt8) {ms : List Bytes} (hms : SingleItems P ms)
    {p : Port} {reads : List (Bytes × ℕ)} (hnone : P.cbor.reader.next p.buf = none)
    (hbuf : p.buf ++ (reads.map Prod.fst).flatten = ms.flatten) (hfits : Fits P source p reads) :
    ((∃ m ∈ ms, abortsDevice P m = true) ∧ receive P source reads p = .error .assert) ∨
      ((∀ m ∈ ms, abortsDevice P m = false) ∧ Framed P source ms p reads) := by
  induction reads generalizing p ms with
  | nil =>
      have hflat : p.buf = ms.flatten := by simpa using hbuf
      obtain rfl := eq_nil_of_next_none hP hms (hflat ▸ hnone)
      refine .inr ⟨by simp, ?_⟩
      intro i hi
      exact ⟨p, 0, [], by simp [receive], by simp, .nil, by simpa using hflat, hnone,
        fun _ => ⟨hflat, rfl⟩⟩
  | cons read reads ih =>
      obtain ⟨newData, timeNow⟩ := read
      obtain ⟨hlen, htime, hstale, hnext⟩ := hfits
      obtain ⟨k, hk, ⟨⟨m, hm, hab⟩, herr⟩ | ⟨hab, q, out, hq, hhanded, hall, hrest, hqnone⟩⟩ :=
        handleData_spec hP source hms hlen htime hstale hbuf
      · left
        exact ⟨⟨m, List.mem_of_mem_take hm, hab⟩, by simp only [receive, herr]; rfl⟩
      · have hms' : SingleItems P (ms.drop k) := fun m hm => hms m (List.mem_of_mem_drop hm)
        rcases ih hms' hqnone hrest (hnext q hq) with ⟨⟨m, hm, hab'⟩, herr⟩ | ⟨hab', hframed⟩
        · left
          exact ⟨⟨m, List.mem_of_mem_drop hm, hab'⟩, by simp only [receive, hq]; exact herr⟩
        · right
          constructor
          · intro m hm
            rw [← List.take_append_drop k ms] at hm
            rcases List.mem_append.1 hm with hm | hm
            · exact hab m hm
            · exact hab' m hm
          · intro i hi
            cases i with
            | zero =>
                exact ⟨p, 0, [], rfl, by simp, .nil, hbuf, hnone, fun h => by simp at h⟩
            | succ i =>
                obtain ⟨q', k', out', hq', hhanded', hall', hrest', hqnone', hend⟩ :=
                  hframed i (Nat.le_of_succ_le_succ hi)
                refine ⟨q', k + k', out ++ out', ?_, ?_, ?_, ?_, hqnone', ?_⟩
                · simp only [List.take_succ_cons, receive, hq]
                  exact hq'
                · rw [hhanded', hhanded, List.append_assoc]
                · rw [List.take_add]
                  exact List.rel_append hall hall'
                · rw [List.drop_succ_cons, ← List.drop_drop]
                  exact hrest'
                · intro heq
                  obtain ⟨hnil, hcount⟩ := hend (Nat.succ.inj heq)
                  refine ⟨hnil, ?_⟩
                  have hout := hall.length_eq
                  rw [List.length_take] at hout
                  rw [List.length_append, hcount, List.length_drop]
                  omega

theorem framed_of_singleItems (hP : P.Lawful) {source : UInt8} {ms : List Bytes} {p : Port}
    {reads : List (Bytes × ℕ)} (hms : SingleItems P ms) (hempty : p.buf = [])
    (hflat : (reads.map Prod.fst).flatten = ms.flatten) (hfits : Fits P source p reads) :
    Framed P source ms p reads ↔ ∀ m ∈ ms, abortsDevice P m = false := by
  have hnone : P.cbor.reader.next p.buf = none := by rw [hempty, P.cbor.reader.next_nil]
  have hbuf : p.buf ++ (reads.map Prod.fst).flatten = ms.flatten := by
    rw [hempty, List.nil_append, hflat]
  rcases receive_spec hP source hms hnone hbuf hfits with ⟨⟨m, hm, hab⟩, herr⟩ | ⟨hab, hframed⟩
  · constructor
    · -- the run does not reach the end of the stream
      intro hframed
      obtain ⟨q, -, -, hq, -⟩ := hframed reads.length le_rfl
      rw [List.take_length, herr] at hq
      cases hq
    · intro hall
      rw [hall m hm] at hab
      cases hab
  · exact ⟨fun _ => hab, fun _ => hframed⟩

/-! ### What the library reads in one piece -/

/-- What was handed on has been read as an item where it stood in the buffer, or it is a whole
buffer that was given up. -/
def ReadAsItem (P : WirePlatform V) (h : Handed) : Prop :=
  (∃ rest value, P.cbor.reader.next (h.message ++ rest) = some (h.message.length, value)) ∨
    ∃ id code len, h.outcome = .rejected id code "Invalid RPC Request message" len

theorem parseLoop_readAsItem {source : UInt8} {rejectIfNoMsg : Bool} {buf rest : Bytes}
    {out : List Handed} (h : parseLoop P source rejectIfNoMsg buf = .ok (out, rest)) :
    ∀ m ∈ out, ReadAsItem P m := by
  induction buf using Stream.split_induction P.cbor.reader generalizing rejectIfNoMsg out rest with
  | rest buf hnone =>
      rw [parseLoop] at h
      split at h
      · split at h
        · cases h
          simp
        · -- the whole buffer is given up
          cases hsend : sendRejectMsg P (P.cbor.parserInit buf) "Invalid RPC Request message"
              buf.length with
          | error e => rw [hsend] at h; cases h
          | ok o =>
              rw [hsend] at h
              cases h
              intro m hm
              obtain rfl := List.mem_singleton.1 hm
              exact .inr (sendRejectMsg_outcome hsend)
      · next heq => exact absurd (hnone.symm.trans heq) (by simp)
  | item buf n value hnext ih =>
      rw [parseLoop_of_next hnext, parseLoop] at h
      split at h
      · next heq => exact absurd (hnext.symm.trans heq) (by simp)
      · next n' value' heq =>
          obtain ⟨rfl, rfl⟩ := Prod.mk.inj (Option.some.inj (hnext.symm.trans heq))
          have hread : ∀ o, ReadAsItem P ⟨buf.take n, o⟩ := by
            intro o
            refine .inl ⟨buf.drop n, value, ?_⟩
            rw [List.take_append_drop, List.length_take_of_le (P.cbor.reader.next_le hnext)]
            exact hnext
          cases hmsg : handleMessage P source (buf.take n) value with
          | error e => simp only [hmsg] at h; cases h
          | ok o =>
              simp only [hmsg, bind, Except.bind] at h
              split at h
              · cases h
                intro m hm
                obtain rfl := List.mem_singleton.1 hm
                exact hread o
              · cases hmore : parseLoop P source false (buf.drop n) with
                | error e => rw [hmore] at h; cases h
                | ok more =>
                    rw [hmore] at h
                    cases h
                    intro m hm
                    rcases List.mem_cons.1 hm with rfl | hm
                    · exact hread o
                    · exact ih hmore m hm

/-- Everything that is handed on while reads fit and come in time has been read as an item. -/
theorem receive_readAsItem {source : UInt8} {reads : List (Bytes × ℕ)} {p q : Port}
    (hfits : Fits P source p reads) (h : receive P source reads p = .ok q) :
    ∃ out, q.handed = p.handed ++ out ∧ ∀ m ∈ out, ReadAsItem P m := by
  induction reads generalizing p with
  | nil =>
      cases h
      exact ⟨[], by simp, by simp⟩
  | cons read reads ih =>
      obtain ⟨newData, timeNow⟩ := read
      obtain ⟨hlen, htime, hstale, hnext⟩ := hfits
      rw [receive] at h
      cases hp : handleData P source false newData timeNow p with
      | error e => rw [hp] at h; cases h
      | ok p' =>
          rw [hp] at h
          obtain ⟨more, hmore, hread⟩ := ih (hnext p' hp) h
          rw [handleData_eq hlen htime hstale] at hp
          cases hloop : parseLoop P source
              (decide ((p.buf ++ newData).length = P.maxInputMsgSize)) (p.buf ++ newData) with
          | error e => rw [hloop] at hp; cases hp
          | ok r =>
              rw [hloop] at hp
              cases hp
              refine ⟨r.1 ++ more, by rw [hmore, List.append_assoc], ?_⟩
              intro m hm
              rcases List.mem_append.1 hm with hm | hm
              · exact parseLoop_readAsItem hloop m hm
              · exact hread m hm

/-- Well-formed messages that fit the input buffer. -/
def Messages (P : WirePlatform V) (ms : List Bytes) : Prop :=
  ∀ m ∈ ms, Cbor.WellFormed m ∧ m.length ≤ P.maxInputMsgSize

/-- The library reads the message in one piece: there is no tag in front, and its containers are not
nested too deep. -/
def inOnePiece (msg : Bytes) : Bool :=
  !Cbor.tagged msg && decide (Cbor.depth msg ≤ CBOR_PARSER_MAX_RECURSIONS)

theorem singleItems_of_inOnePiece (hP : P.Lawful) {ms : List Bytes} (hms : Messages P ms)
    (h : ∀ m ∈ ms, inOnePiece m = true) : SingleItems P ms := by
  intro m hm
  obtain ⟨⟨d, hd⟩, hlen⟩ := hms m hm
  have hone := h m hm
  simp only [inOnePiece, Bool.and_eq_true, Bool.not_eq_true', decide_eq_true_eq,
    hd.depth_eq] at hone
  exact ⟨hP.advances.item m d hd hone.1 hone.2, hlen⟩

/-- A message that is not read in one piece is not handed on. -/
theorem inOnePiece_of_handedOn (hP : P.Lawful) {source : UInt8} {m : Bytes}
    (hm : Cbor.WellFormed m) {h : Handed} (hread : ReadAsItem P h) (hon : HandedOn P source m h) :
    inOnePiece m = true := by
  obtain ⟨d, hd⟩ := hm
  obtain ⟨rfl, value, -, houtcome⟩ := hon
  rcases hread with ⟨rest, v, hnext⟩ | ⟨id, code, len, hgiven⟩
  · simp only [inOnePiece, Bool.and_eq_true, Bool.not_eq_true', decide_eq_true_eq, hd.depth_eq]
    cases htag : Cbor.tagged h.message with
    | true => exact absurd hnext (hP.advances.tag _ d rest v hd htag)
    | false =>
        refine ⟨rfl, Nat.le_of_not_lt fun hdeep => ?_⟩
        rw [hP.advances.deep _ d rest hd htag hdeep] at hnext
        cases hnext
  · -- a buffer that is given up is answered with another text
    rw [hgiven] at houtcome
    split at houtcome
    · split at houtcome
      · obtain ⟨_, houtcome⟩ := houtcome
        cases houtcome
      · cases houtcome
    · obtain ⟨_, houtcome⟩ := houtcome
      simp at houtcome

theorem exists_handed {source : UInt8} {ms : List Bytes} {out : List Handed}
    (hall : List.Forall₂ (HandedOn P source) ms out) :
    ∀ m ∈ ms, ∃ h ∈ out, HandedOn P source m h := by
  induction hall with
  | nil => simp
  | cons hon _ ih =>
      intro m hm
      rcases List.mem_cons.1 hm with rfl | hm
      · exact ⟨_, List.mem_cons_self, hon⟩
      · obtain ⟨h, hh, hon'⟩ := ih m hm
        exact ⟨h, List.mem_cons_of_mem _ hh, hon'⟩

theorem framed_iff (hP : P.Lawful) {source : UInt8} {ms : List Bytes} {p : Port}
    {reads : List (Bytes × ℕ)} (hms : Messages P ms) (hempty : p.buf = [])
    (hflat : (reads.map Prod.fst).flatten = ms.flatten) (hfits : Fits P source p reads) :
    Framed P source ms p reads ↔ ∀ m ∈ ms, inOnePiece m = true ∧ abortsDevice P m = false := by
  constructor
  · intro hframed
    have hone : ∀ m ∈ ms, inOnePiece m = true := by
      obtain ⟨q, k, out, hq, hhanded, hall, -, -, hend⟩ := hframed reads.length le_rfl
      rw [List.take_length] at hq
      obtain ⟨out', hhanded', hread⟩ := receive_readAsItem hfits hq
      obtain rfl := List.append_cancel_left (hhanded.symm.trans hhanded')
      -- as many messages are handed on as the stream has
      have hk : ms.take k = ms := by
        have hlen := hall.length_eq
        rw [(hend rfl).2, List.length_take] at hlen
        exact List.take_of_length_le (by omega)
      rw [hk] at hall
      intro m hm
      obtain ⟨h, hh, hon⟩ := exists_handed hall m hm
      exact inOnePiece_of_handedOn hP (hms m hm).1 (hread h hh) hon
    intro m hm
    exact ⟨hone m hm, (framed_of_singleItems hP (singleItems_of_inOnePiece hP hms hone) hempty hflat
      hfits).1 hframed m hm⟩
  · intro h
    exact (framed_of_singleItems hP (singleItems_of_inOnePiece hP hms fun m hm => (h m hm).1) hempty hflat
      hfits).2 fun m hm => (h m hm).2

/-! ### A port with a walk over the bytes -/

/-- What `cbor_value_advance` steps over, by the walk over the bytes. -/
def advance (item : Bytes) : Option Bytes :=
  if Cbor.tagged item then some (item.take (Cbor.headLength item))
  else if Cbor.depth item ≤ CBOR_PARSER_MAX_RECURSIONS then some item
  else none

theorem advance_bounds {item v : Bytes} (hpos : 0 < item.length) (h : advance item = some v) :
    0 < v.length ∧ v.length ≤ item.length := by
  unfold advance at h
  split at h
  · cases h
    have hhead : 0 < Cbor.headLength item := by
      cases item with
      | nil => simp at hpos
      | cons b item =>
          simp only [Cbor.headLength]
          split
          · exact Nat.one_pos
          · exact Nat.add_pos_left Nat.one_pos _
    rw [List.length_take]
    omega
  · split at h
    · cases h
      exact ⟨hpos, le_rfl⟩
    · cases h

/-- The item at the front, as far as `cbor_value_advance` steps over it. -/
def advanceReader : Stream.Reader UInt8 Bytes where
  next bs := ((Cbor.reader.next bs).bind fun item => advance (bs.take item.1)).map
    fun v => (v.length, v)
  next_pos := by
    intro bs n v h
    obtain ⟨w, hw, heq⟩ := Option.map_eq_some_iff.1 h
    obtain ⟨item, hitem, hadv⟩ := Option.bind_eq_some_iff.1 hw
    cases heq
    have hlen := List.length_take_of_le (Cbor.reader.next_le (n := item.1) (v := item.2) hitem)
    have hpos := Cbor.reader.next_pos (n := item.1) (v := item.2) hitem
    exact (advance_bounds (by omega) hadv).1
  next_le := by
    intro bs n v h
    obtain ⟨w, hw, heq⟩ := Option.map_eq_some_iff.1 h
    obtain ⟨item, hitem, hadv⟩ := Option.bind_eq_some_iff.1 hw
    cases heq
    have hlen := List.length_take_of_le (Cbor.reader.next_le (n := item.1) (v := item.2) hitem)
    have hle := Cbor.reader.next_le (n := item.1) (v := item.2) hitem
    have hpos := Cbor.reader.next_pos (n := item.1) (v := item.2) hitem
    have := (advance_bounds (by omega) hadv).2
    omega

theorem advanceReader_stable : advanceReader.Stable := by
  intro bs n v rest h
  obtain ⟨w, hw, heq⟩ := Option.map_eq_some_iff.1 h
  obtain ⟨item, hitem, hadv⟩ := Option.bind_eq_some_iff.1 hw
  have hle := Cbor.reader.next_le (n := item.1) (v := item.2) hitem
  simp only [advanceReader, Cbor.reader_stable bs item.1 item.2 rest hitem, Option.bind_some,
    List.take_append_of_le_length hle, hadv, Option.map_some, heq]

theorem advanceReader_next {m : Bytes} {d : ℕ} (h : Cbor.Items 1 d m) (rest : Bytes) :
    advanceReader.next (m ++ rest) = (advance m).map fun v => (v.length, v) := by
  simp only [advanceReader, h.next rest, Option.bind_some, List.take_left]

def toyPlatform : WirePlatform Bytes where
  cbor := { tinyCbor with reader := advanceReader }
  spiram := true
  timeoutTicks := 2000
  maxItemSize := 1024 * 401 + 8

theorem toyPlatform_advances : toyPlatform.cbor.Advances where
  item := by
    intro m d hm htag hd
    have hnext := advanceReader_next hm []
    rw [List.append_nil, advance, htag, if_neg Bool.false_ne_true,
      if_pos (hm.depth_eq ▸ hd)] at hnext
    exact ⟨m, hnext⟩
  tag := by
    intro m d rest v hm htag h
    have hnext := advanceReader_next hm rest
    rw [advance, if_pos htag] at hnext
    have hlen := congrArg Prod.fst (Option.some.inj (hnext.symm.trans h))
    have hlt := hm.headLength_lt htag
    simp only [List.length_take] at hlen
    omega
  deep := by
    intro m d rest hm htag hd
    have hnext := advanceReader_next hm rest
    rwa [advance, htag, if_neg Bool.false_ne_true, if_neg (by rw [hm.depth_eq]; omega)] at hnext

theorem toyPlatform_lawful : toyPlatform.Lawful where
  cbor.stable := advanceReader_stable
  cbor.unknown := tinyCbor_lawful.unknown
  cbor.copy := by
    intro bs n v field w len _ _ _ hlen
    refine ⟨Cbor.stringContent w, rfl, ?_⟩
    simp only [TinyCbor.stringLength, tinyCbor, toyPlatform] at hlen
    cases hknown : Cbor.lengthKnown w with
    | false => simpa [hknown] using hlen
    | true => simpa [hknown] using hlen
  advances := toyPlatform_advances
  queue := by decide

/-- `{"id": id, "method": method}`, the values given as they are encoded. -/
def toyRequest (id method : Bytes) : Bytes :=
  [0xa2, 0x62, 0x69, 0x64] ++ id ++ [0x66, 0x6d, 0x65, 0x74, 0x68, 0x6f, 0x64] ++ method

theorem toyRequest_items {id method : Bytes} (hid : Cbor.Items 1 0 id)
    (hmethod : Cbor.Items 1 0 method) : Cbor.Items 1 1 (toyRequest id method) := by
  have hkeys : Cbor.Items 4 0 ([0x62, 0x69, 0x64] ++ id ++
      [0x66, 0x6d, 0x65, 0x74, 0x68, 0x6f, 0x64] ++ method) := by
    have hi : Cbor.Items 1 0 ([0x62] ++ [0x69, 0x64] ++ []) :=
      .string (.inr rfl) (.short rfl (by decide)) rfl .nil
    have hm : Cbor.Items 1 0 ([0x66] ++ [0x6d, 0x65, 0x74, 0x68, 0x6f, 0x64] ++ []) :=
      .string (.inr rfl) (.short rfl (by decide)) rfl .nil
    exact ((hi.append hid).append hm).append hmethod
  have hmap : Cbor.Items 1 1 ([0xa2] ++ ([0x62, 0x69, 0x64] ++ id ++
      [0x66, 0x6d, 0x65, 0x74, 0x68, 0x6f, 0x64] ++ method) ++ []) :=
    .map (.short (b := 0xa2) rfl (by decide)) hkeys .nil
  simpa [toyRequest] using hmap

/-- The ids `"1"` and NUL, and the methods `"ping"`, `"logout"`, and `"logout"` with its length in
eight bytes. -/
theorem toy_texts : Cbor.Items 1 0 [0x61, 0x31] ∧ Cbor.Items 1 0 [0x61, 0x00] ∧
    Cbor.Items 1 0 [0x64, 0x70, 0x69, 0x6e, 0x67] ∧
    Cbor.Items 1 0 [0x66, 0x6c, 0x6f, 0x67, 0x6f, 0x75, 0x74] ∧
    Cbor.Items 1 0 [0x7b, 0, 0, 0, 0, 0, 0, 0, 6, 0x6c, 0x6f, 0x67, 0x6f, 0x75, 0x74] := by
  have htext : ∀ (b : UInt8) (content : Bytes), Cbor.major b = 3 → Cbor.info b < 24 →
      content.length = Cbor.info b → Cbor.Items 1 0 ([b] ++ content ++ []) :=
    fun b content hmajor hinfo hlen => .string (.inr rfl) (.short hmajor hinfo) hlen .nil
  refine ⟨htext 0x61 [0x31] rfl (by decide) rfl, htext 0x61 [0x00] rfl (by decide) rfl,
    htext 0x64 [0x70, 0x69, 0x6e, 0x67] rfl (by decide) rfl,
    htext 0x66 [0x6c, 0x6f, 0x67, 0x6f, 0x75, 0x74] rfl (by decide) rfl, ?_⟩
  have hlong : Cbor.Items 1 0 ([0x7b, 0, 0, 0, 0, 0, 0, 0, 6] ++
      [0x6c, 0x6f, 0x67, 0x6f, 0x75, 0x74] ++ []) :=
    .string (.inr rfl) (.long rfl (by decide) (by decide) rfl) rfl .nil
  exact hlong

/-- The id `"1"`, and the methods `"ping"` and `"logout"`. -/
def toyRequests : List Bytes :=
  [toyRequest [0x61, 0x31] [0x64, 0x70, 0x69, 0x6e, 0x67],
    toyRequest [0x61, 0x31] [0x66, 0x6c, 0x6f, 0x67, 0x6f, 0x75, 0x74]]

/-- The method `"logout"` with its length in eight bytes, and a ping whose id is a NUL byte. -/
def toyLongMethod : Bytes :=
  toyRequest [0x61, 0x31] [0x7b, 0, 0, 0, 0, 0, 0, 0, 6, 0x6c, 0x6f, 0x67, 0x6f, 0x75, 0x74]

def toyNulId : Bytes := toyRequest [0x61, 0x00] [0x64, 0x70, 0x69, 0x6e, 0x67]

/-- A ping that says that it is CBOR: the tag 55799 stands in front. -/
def toyTagged : Bytes :=
  [0xd9, 0xd9, 0xf7] ++ toyRequest [0x61, 0x31] [0x64, 0x70, 0x69, 0x6e, 0x67]

/-- A number inside as many arrays. -/
def toyNested (arrays : ℕ) : Bytes := List.replicate arrays 0x81 ++ [0]

theorem toyNested_items (arrays : ℕ) : Cbor.Items 1 arrays (toyNested arrays) := by
  induction arrays with
  | zero =>
      have hzero : Cbor.Items 1 0 ([0] ++ []) :=
        .number (.inl rfl) (.short (b := 0) rfl (by decide)) (by simp) .nil
      exact hzero
  | succ arrays ih =>
      have harray : Cbor.Items 1 (max (arrays + 1) 0) ([0x81] ++ toyNested arrays ++ []) :=
        .array (.short (b := 0x81) rfl (by decide)) ih .nil
      simpa [toyNested, List.replicate_succ] using harray

theorem toyTagged_items : Cbor.Items 1 1 toyTagged :=
  .tag (.long (b := 0xd9) rfl (by decide) (by decide) rfl)
    (toyRequest_items toy_texts.1 toy_texts.2.2.1)

def toyPort : Port := ⟨[], 0, []⟩

theorem toy_messages : Messages toyPlatform toyRequests ∧ Messages toyPlatform [toyLongMethod] ∧
    Messages toyPlatform [toyNulId] ∧ Messages toyPlatform [toyTagged] ∧
      Messages toyPlatform [toyNested 1025] := by
  obtain ⟨hone, hnul, hping, hlogout, hlong⟩ := toy_texts
  have hmax : toyPlatform.maxInputMsgSize = 1024 * 401 := rfl
  simp only [Messages, toyRequests, List.forall_mem_cons, List.not_mem_nil, false_imp_iff,
    implies_true, and_true, hmax]
  refine ⟨⟨⟨⟨1, toyRequest_items hone hping⟩, by decide⟩, ⟨1, toyRequest_items hone hlogout⟩,
    by decide⟩, ⟨⟨1, toyRequest_items hone hlong⟩, by decide⟩,
    ⟨⟨1, toyRequest_items hnul hping⟩, by decide⟩, ⟨⟨1, toyTagged_items⟩, by decide⟩,
    ⟨1025, toyNested_items 1025⟩, ?_⟩
  rw [toyNested, List.length_append, List.length_replicate]
  decide

/-! ### The result -/

/-- **Messages are framed independently of how the stream is split.**  For every stream of
well-formed messages that fit the buffer and every way of splitting it into reads, the messages are
handed on, each once and in order, exactly when each of them is read in one piece and none of them
aborts the device; and the loop ends for every content of the buffer. -/
theorem receive_framing (hP : P.Lawful) (source : UInt8) :
    (∀ (ms : List Bytes) (p : Port) (reads : List (Bytes × ℕ)), Messages P ms → p.buf = [] →
        (reads.map Prod.fst).flatten = ms.flatten → Fits P source p reads →
          (Framed P source ms p reads ↔
            ∀ m ∈ ms, inOnePiece m = true ∧ abortsDevice P m = false)) ∧
      ∀ (rejectIfNoMsg : Bool) (buf : Bytes),
        (∃ e, parseLoop P source rejectIfNoMsg buf = .error e) ∨
          ∃ out rest, parseLoop P source rejectIfNoMsg buf = .ok (out, rest) ∧
            (out.map Handed.message).flatten ++ rest = buf ∧ P.cbor.reader.next rest = none ∧
              out.length ≤ max buf.length 1 := by
  constructor
  · intro ms p reads hms hempty hflat hfits
    exact framed_iff hP hms hempty hflat hfits
  · exact parseLoop_ends source

/-- Two requests, of which the first comes in two pieces, and the second with the end of the
first. -/
theorem receive_framing_toyRequests :
    Framed toyPlatform 2 toyRequests toyPort
      [(toyRequests.flatten.take 3, 0), (toyRequests.flatten.drop 3, 0)] :=
  ((receive_framing toyPlatform_lawful 2).1 toyRequests toyPort _ toy_messages.1 rfl
    (by decide +kernel) (fits_of_length_le (by decide +kernel) (by decide +kernel))).2
    (by decide +kernel)

/-- A message of its own, in one read, that is not handed on. -/
def IsLost (m : Bytes) : Prop :=
  Messages toyPlatform [m] ∧ ¬ Framed toyPlatform 2 [m] toyPort [(m, 0)]

/-- One message in one read: the device aborts at the first two, takes a tag for a message of its
own, and waits at containers that are nested too deep. -/
theorem receive_framing_fails :
    IsLost toyLongMethod ∧ IsLost toyNulId ∧ IsLost toyTagged ∧ IsLost (toyNested 1025) := by
  obtain ⟨-, hlong, hnul, htagged, hnested⟩ := toy_messages
  have hfails : ∀ m, Messages toyPlatform [m] →
      ¬ (inOnePiece m = true ∧ abortsDevice toyPlatform m = false) → IsLost m := by
    intro m hm hnot
    refine ⟨hm, fun hframed => hnot ?_⟩
    have hlen : m.length ≤ toyPlatform.maxInputMsgSize := (hm m List.mem_cons_self).2
    exact (framed_iff toyPlatform_lawful hm rfl (by simp)
      (fits_of_length_le (by simpa [toyPort] using hlen) (by simp [toyPort]))).1 hframed m
      List.mem_cons_self
  refine ⟨hfails _ hlong (by decide +kernel), hfails _ hnul (by decide +kernel),
    hfails _ htagged (by decide +kernel), hfails _ hnested ?_⟩
  simp [inOnePiece, (toyNested_items 1025).depth_eq, CBOR_PARSER_MAX_RECURSIONS]

end Jade
