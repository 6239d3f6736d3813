/-
**Returning the signed PSBT (`process/sign_psbt.c`, `process/process_utils.c`).**

The signed PSBT may be longer than a message. It is cut into chunks, each goes out in a message with
its number and the number of all messages, and before each further one the client has to ask for it
by its number.

The number of messages is computed by dividing the length by the size of a chunk and adding one.
When the division leaves nothing over, that is one message too many, and an assertion fails where it
would be empty.

Main definitions:

* `Jade.ExtendedDataRequest`, `Jade.checkExtendedDataFields` — what a client asks for;
* `Jade.replyBytesSequence` — one message;
* `Jade.sendChunks`, `Jade.replySignedPsbt` — the loop that sends them;
* `Jade.SentWhole` — the client has all of it;
* `Jade.FollowsProtocol` — a client that asks for the messages one by one.

Main results:

* `Jade.length_chunkReply_le` — a chunk always fits the message;
* `Jade.sendChunks_spec` — what the loop sends;
* `Jade.sentWhole_iff` — **the PSBT is returned whole exactly when its length is no multiple of the
  size of a chunk**.
-/

import Jade.Utils.CborParams
import Jade.Utils.Handler

set_option relaxedAutoImplicit false
set_option autoImplicit false

namespace Jade

/-! ### Asking for the next message -/

/-- The fields of `get_extended_data`, as the getters deliver them. -/
structure ExtendedDataFields where
  orig : Except Fault Bytes
  origid : Except Fault Bytes
  seqlen : Option UInt32
  seqnum : Option UInt32

/-- A message that arrives while the PSBT is being returned, as the getters deliver it. Without a
map of parameters there are no fields. -/
structure ExtendedDataRequest where
  isGetExtendedData : Except Fault Bool
  id : Except Fault Bytes
  fields : Option ExtendedDataFields

section Read

variable {V : Type} (C : TinyCborValues V)

def ExtendedDataFields.read (params : V) : ExtendedDataFields where
  orig := getter ((rpcGetStringPtr C.toTinyCbor "orig" params).map fun text => text.getD [])
  origid := getter (rpcGetString C "origid" (MAXLEN_ID + 1) params)
  seqlen := rpcGetSizet C "seqlen" params
  seqnum := rpcGetSizet C "seqnum" params

def ExtendedDataRequest.read (value : V) : ExtendedDataRequest where
  isGetExtendedData :=
    getter (isCurrentMessage C.toTinyCborStrings value (ascii "get_extended_data"))
  id := getter ((rpcGetStringPtr C.toTinyCbor "id" value).map fun text => text.getD [])
  fields := (getMsgParams C.toTinyCborStrings value).map (ExtendedDataFields.read C)

end Read

/-- `check_extended_data_fields` -/
def checkExtendedDataFields (fields : ExtendedDataFields) (expectedOrigid expectedOrig : Bytes)
    (expectedSeqnum expectedSeqlen : ℕ) : Except Fault Bool := do
  let orig ← fields.orig
  let origid ← fields.origid
  if orig ≠ expectedOrig ∨ Bytes.cstr origid ≠ Bytes.cstr expectedOrigid then
    return false
  return fields.seqlen.any (·.toNat == expectedSeqlen) &&
    fields.seqnum.any (·.toNat == expectedSeqnum)

/-- The message that should ask for number `seqnum`. -/
def checkExtendedDataRequest (originalId : Bytes) (seqnum nmsgs : ℕ) (m : ExtendedDataRequest) :
    Except SignErr Unit := do
  match m.isGetExtendedData with
  | .error f => .error (.fault f)
  | .ok false => .error (.reject CBOR_RPC_PROTOCOL_ERROR
      "Unexpected message, expecting 'get_extended_data'")
  | .ok true =>
    match m.fields with
    | none => .error (.reject CBOR_RPC_BAD_PARAMETERS "Expecting parameters map")
    | some fields =>
      match checkExtendedDataFields fields originalId (ascii "sign_psbt") seqnum nmsgs with
      | .error f => .error (.fault f)
      | .ok false => .error (.reject CBOR_RPC_PROTOCOL_ERROR
          "Mismatched fields in 'get_extended_data' message")
      | .ok true => .ok ()

/-! ### The messages -/

def MAX_OUTPUT_MSG_SIZE : ℕ := 1024 * 3
def PSBT_OUT_CHUNK_SIZE : ℕ := MAX_OUTPUT_MSG_SIZE - 64

/-- A message of the sequence: its number, the number of all, and the chunk in it. -/
structure SequenceMessage where
  seqnum : ℕ
  seqlen : ℕ
  data : Bytes
  deriving DecidableEq

/-- The message as it is written. -/
def SequenceMessage.encode (id : Bytes) (m : SequenceMessage) : Bytes :=
  Cbor.encodeHead 5 4 ++ Cbor.encodeText (ascii "id") ++ Cbor.encodeText id ++
    Cbor.encodeText (ascii "seqnum") ++ Cbor.encodeUint m.seqnum ++
    Cbor.encodeText (ascii "seqlen") ++ Cbor.encodeUint m.seqlen ++
    Cbor.encodeText (ascii "result") ++ Cbor.encodeBytes m.data

/-- `jade_process_reply_to_message_bytes_sequence`, into a buffer of `buflen` bytes. -/
def replyBytesSequence (id : Bytes) (m : SequenceMessage) (buflen : ℕ) : Except Fault Bytes := do
  jadeVerify (decide (id ≠ []))
  jadeVerify (decide (m.seqnum ≤ m.seqlen))
  jadeVerify (decide ((m.encode id).length ≤ buflen))
  return m.encode id

/-! ### The loop -/

/-- How returning the PSBT ends; it may still be waiting for a request. -/
inductive SendOutcome
  | done
  | waiting
  | failed (e : SignErr)
  deriving DecidableEq

/-- The messages sent, oldest first, and how it ends. -/
structure Sending where
  sent : List SequenceMessage
  outcome : SendOutcome
  deriving DecidableEq

def Sending.cons (m : SequenceMessage) (s : Sending) : Sending := { s with sent := m :: s.sent }

/-- The loop, with `left` turns to go. `rest` is what the chunk pointer still has before it, `id`
the id of the current message. -/
def sendChunks (originalId : Bytes) (nmsgs : ℕ) :
    ℕ → Except Fault Bytes → Bytes → List ExtendedDataRequest → Sending
  | 0, _, _, _ => ⟨[], .done⟩
  | left + 1, id, rest, inbox =>
      -- `JADE_ASSERT(chunk < bytes + bytes_len)`
      if rest = [] then ⟨[], .failed (.fault .assert)⟩
      else
        let m : SequenceMessage := ⟨nmsgs - left, nmsgs, rest.take PSBT_OUT_CHUNK_SIZE⟩
        match id.bind fun id => replyBytesSequence id m MAX_OUTPUT_MSG_SIZE with
        | .error f => ⟨[], .failed (.fault f)⟩
        | .ok _ =>
            if m.seqnum < nmsgs then
              match inbox with
              | [] => ⟨[m], .waiting⟩
              | request :: inbox =>
                  match checkExtendedDataRequest originalId (m.seqnum + 1) nmsgs request with
                  | .error e => ⟨[m], .failed e⟩
                  | .ok () =>
                      (sendChunks originalId nmsgs left request.id
                        (rest.drop PSBT_OUT_CHUNK_SIZE) inbox).cons m
            else ⟨[m], .done⟩

/-- The number of messages; a length has 32 bits, so that it fits an `int`. -/
def numberOfMessages (len : ℕ) : ℕ := len / PSBT_OUT_CHUNK_SIZE + 1

/-- `sign_psbt_process` from the serialised PSBT on: `id` is the id of the request, and `inbox` the
messages that arrive. -/
def replySignedPsbt (id bytes : Bytes) (inbox : List ExtendedDataRequest) : Sending :=
  sendChunks id (numberOfMessages bytes.length) (numberOfMessages bytes.length) (.ok id) bytes inbox

/-! ### A client that asks, and what it should get -/

/-- The id of a valid message. -/
def IdOk (id : Bytes) : Prop := id ≠ [] ∧ id.length ≤ MAXLEN_ID

instance (id : Bytes) : Decidable (IdOk id) := inferInstanceAs (Decidable (_ ∧ _))

/-- The message asks for number `seqnum` of `nmsgs`. -/
structure ExtendedDataRequest.Asks (m : ExtendedDataRequest) (originalId : Bytes)
    (seqnum nmsgs : ℕ) : Prop where
  isGetExtendedData : m.isGetExtendedData = .ok true
  id : ∃ id, m.id = .ok id ∧ IdOk id
  fields : ∃ fields seqlen next, m.fields = some fields ∧ fields.orig = .ok (ascii "sign_psbt") ∧
    fields.origid = .ok originalId ∧ fields.seqlen = some seqlen ∧ seqlen.toNat = nmsgs ∧
    fields.seqnum = some next ∧ next.toNat = seqnum

/-- The messages that arrive ask for the numbers from two to `nmsgs`, in this order. -/
def FollowsProtocol (originalId : Bytes) (nmsgs : ℕ) (inbox : List ExtendedDataRequest) : Prop :=
  ∀ i, i + 1 < nmsgs → ∃ m, inbox[i]? = some m ∧ m.Asks originalId (i + 2) nmsgs

/-- The messages are numbered from one on and carry their number, none is empty and each fits the
output, the chunks make up the PSBT, and nothing goes wrong. -/
structure SentWhole (bytes : Bytes) (s : Sending) : Prop where
  done : s.outcome = .done
  numbered : s.sent.map SequenceMessage.seqnum = List.range' 1 s.sent.length
  total : ∀ m ∈ s.sent, m.seqlen = s.sent.length
  nonempty : ∀ m ∈ s.sent, m.data ≠ []
  fits : ∀ m ∈ s.sent, ∀ id, IdOk id → (m.encode id).length ≤ MAX_OUTPUT_MSG_SIZE
  whole : s.sent.flatMap SequenceMessage.data = bytes

/-! ### One message -/

theorem checkExtendedDataRequest_of_asks {m : ExtendedDataRequest} {originalId : Bytes}
    {seqnum nmsgs : ℕ} (h : m.Asks originalId seqnum nmsgs) :
    checkExtendedDataRequest originalId seqnum nmsgs m = .ok () := by
  obtain ⟨fields, seqlen, next, hfields, horig, horigid, hseqlen, hlen, hseqnum, hnum⟩ := h.fields
  have hcheck : checkExtendedDataFields fields originalId (ascii "sign_psbt") seqnum nmsgs =
      .ok true := by
    simp [checkExtendedDataFields, horig, horigid, hseqlen, hlen, hseqnum, hnum, bind, Except.bind,
      pure, Except.pure]
  simp only [checkExtendedDataRequest, h.isGetExtendedData, hfields, hcheck]

/-- A chunk always fits the message: the rest of it takes at most 63 bytes. -/
theorem length_chunkReply_le {m : SequenceMessage} {id : Bytes} (hid : IdOk id)
    (hdata : m.data.length ≤ PSBT_OUT_CHUNK_SIZE) :
    (m.encode id).length ≤ MAX_OUTPUT_MSG_SIZE := by
  have hmap : (Cbor.encodeHead 5 4).length = 1 := (Cbor.length_encodeHead_le 5 4).2.2 (by omega)
  have hid' : (Cbor.encodeHead 3 id.length).length = 1 := by
    refine (Cbor.length_encodeHead_le 3 id.length).2.2 ?_
    have := hid.2
    simp only [MAXLEN_ID] at this
    omega
  have hseqnum := (Cbor.length_encodeHead_le 0 m.seqnum).1
  have hseqlen := (Cbor.length_encodeHead_le 0 m.seqlen).1
  have hhead : (Cbor.encodeHead 2 m.data.length).length ≤ 3 := by
    refine (Cbor.length_encodeHead_le 2 m.data.length).2.1 ?_
    simp only [PSBT_OUT_CHUNK_SIZE, MAX_OUTPUT_MSG_SIZE] at hdata
    omega
  have htags : (Cbor.encodeText (ascii "id")).length = 3 ∧
      (Cbor.encodeText (ascii "seqnum")).length = 7 ∧
      (Cbor.encodeText (ascii "seqlen")).length = 7 ∧
      (Cbor.encodeText (ascii "result")).length = 7 := by decide
  obtain ⟨hid₁, hid₂⟩ := hid
  obtain ⟨h₁, h₂, h₃, h₄⟩ := htags
  rw [SequenceMessage.encode, List.length_append, List.length_append, List.length_append,
    List.length_append, List.length_append, List.length_append, List.length_append,
    List.length_append, h₁, h₂, h₃, h₄, hmap, Cbor.encodeText, Cbor.encodeBytes, Cbor.encodeUint,
    Cbor.encodeUint, List.length_append, List.length_append, hid']
  simp only [MAXLEN_ID, PSBT_OUT_CHUNK_SIZE, MAX_OUTPUT_MSG_SIZE] at hid₂ hdata ⊢
  omega

theorem replyBytesSequence_of_le {m : SequenceMessage} {id : Bytes} (hid : IdOk id)
    (hseq : m.seqnum ≤ m.seqlen) (hdata : m.data.length ≤ PSBT_OUT_CHUNK_SIZE) :
    replyBytesSequence id m MAX_OUTPUT_MSG_SIZE = .ok (m.encode id) := by
  simp only [replyBytesSequence, jadeVerify, decide_eq_true hid.1, decide_eq_true hseq,
    decide_eq_true (length_chunkReply_le hid hdata)]
  rfl

/-! ### The loop -/

theorem chunkSize_pos : 0 < PSBT_OUT_CHUNK_SIZE := by decide

/-- What is left of the PSBT, after the chunk that is next. -/
theorem numberOfMessages_drop {rest : Bytes} (h : PSBT_OUT_CHUNK_SIZE ≤ rest.length) :
    numberOfMessages (rest.drop PSBT_OUT_CHUNK_SIZE).length + 1 = numberOfMessages rest.length ∧
      (rest.drop PSBT_OUT_CHUNK_SIZE).length % PSBT_OUT_CHUNK_SIZE =
        rest.length % PSBT_OUT_CHUNK_SIZE := by
  have hdiv := Nat.div_eq_sub_div chunkSize_pos h
  rw [List.length_drop, numberOfMessages, numberOfMessages, hdiv]
  exact ⟨rfl, (Nat.mod_eq_sub_mod h).symm⟩

/-- **What the loop sends**, when there are as many turns to go as the division says: the chunks of
what is left, or the empty chunk in the end. -/
theorem sendChunks_spec (originalId : Bytes) {nmsgs left : ℕ} {id rest : Bytes}
    (inbox : List ExtendedDataRequest) (hid : IdOk id) (hle : left ≤ nmsgs)
    (hleft : numberOfMessages rest.length = left)
    (hasks : ∀ i, i + 1 < left → ∃ m, inbox[i]? = some m ∧
      m.Asks originalId (nmsgs - left + i + 2) nmsgs) :
    (rest.length % PSBT_OUT_CHUNK_SIZE = 0 →
        (sendChunks originalId nmsgs left (.ok id) rest inbox).outcome = .failed (.fault .assert)) ∧
      (rest.length % PSBT_OUT_CHUNK_SIZE ≠ 0 →
        ∃ sent, sendChunks originalId nmsgs left (.ok id) rest inbox = ⟨sent, .done⟩ ∧
          sent.map SequenceMessage.seqnum = List.range' (nmsgs - left + 1) left ∧
          (∀ m ∈ sent, m.seqlen = nmsgs ∧ m.data ≠ [] ∧ m.data.length ≤ PSBT_OUT_CHUNK_SIZE) ∧
          sent.flatMap SequenceMessage.data = rest) := by
  induction left generalizing id rest inbox with
  | zero => exact absurd hleft (Nat.succ_ne_zero _)
  | succ left ih =>
      by_cases hrest : rest = []
      · subst hrest
        exact ⟨fun _ => by simp [sendChunks], fun h => absurd (Nat.zero_mod _) h⟩
      · have hne : rest.take PSBT_OUT_CHUNK_SIZE ≠ [] := by
          rw [Ne, List.take_eq_nil_iff]
          exact fun h => h.elim (Nat.ne_of_gt chunkSize_pos) hrest
        have hlen : (rest.take PSBT_OUT_CHUNK_SIZE).length ≤ PSBT_OUT_CHUNK_SIZE :=
          List.length_take_le _ _
        have hreply : replyBytesSequence id ⟨nmsgs - left, nmsgs, rest.take PSBT_OUT_CHUNK_SIZE⟩
            MAX_OUTPUT_MSG_SIZE = .ok _ :=
          replyBytesSequence_of_le hid (Nat.sub_le nmsgs left) hlen
        have hnum : nmsgs - (left + 1) + 1 = nmsgs - left := by omega
        cases left with
        | zero =>
            -- the last turn: what is left is shorter than a chunk
            have hshort : rest.length < PSBT_OUT_CHUNK_SIZE := by
              have hzero : rest.length / PSBT_OUT_CHUNK_SIZE = 0 := Nat.succ.inj hleft
              exact (Nat.div_eq_zero_iff_lt chunkSize_pos).1 hzero
            have htake : rest.take PSBT_OUT_CHUNK_SIZE = rest := List.take_of_length_le hshort.le
            have hpos : rest.length ≠ 0 := fun h => hrest (List.length_eq_zero_iff.1 h)
            refine ⟨fun h => absurd (Nat.mod_eq_of_lt hshort ▸ h) hpos, fun _ => ?_⟩
            refine ⟨[⟨nmsgs - 0, nmsgs, rest.take PSBT_OUT_CHUNK_SIZE⟩], ?_, ?_, ?_, ?_⟩
            · rw [Nat.sub_zero] at hreply ⊢
              simp only [sendChunks, if_neg hrest, Except.bind, Nat.sub_zero, hreply, Nat.lt_irrefl,
                if_false]
            · rw [hnum]
              rfl
            · intro m hm
              rw [List.mem_singleton.1 hm]
              exact ⟨rfl, hne, hlen⟩
            · rw [List.flatMap_singleton]
              exact htake
        | succ left =>
            have hlong : PSBT_OUT_CHUNK_SIZE ≤ rest.length := by
              by_contra hshort
              have hzero := (Nat.div_eq_zero_iff_lt chunkSize_pos).2 (Nat.lt_of_not_le hshort)
              rw [numberOfMessages, hzero] at hleft
              omega
            obtain ⟨hcount, hmod⟩ := numberOfMessages_drop hlong
            have hlt : nmsgs - (left + 1) < nmsgs := by omega
            obtain ⟨m, hm, hask⟩ := hasks 0 (by omega)
            obtain ⟨m', inbox', rfl⟩ : ∃ m' inbox', inbox = m' :: inbox' := by
              cases inbox with
              | nil => cases hm
              | cons m' inbox' => exact ⟨m', inbox', rfl⟩
            obtain rfl : m' = m := Option.some.inj hm
            rw [show nmsgs - (left + 1 + 1) + 0 + 2 = nmsgs - (left + 1) + 1 by omega] at hask
            have hcheck := checkExtendedDataRequest_of_asks hask
            obtain ⟨id', hid', hidok⟩ := hask.id
            have hturn : sendChunks originalId nmsgs (left + 1 + 1) (.ok id) rest (m' :: inbox') =
                (sendChunks originalId nmsgs (left + 1) (.ok id')
                  (rest.drop PSBT_OUT_CHUNK_SIZE) inbox').cons
                    ⟨nmsgs - (left + 1), nmsgs, rest.take PSBT_OUT_CHUNK_SIZE⟩ := by
              rw [sendChunks, if_neg hrest]
              simp only [Except.bind, hreply, if_pos hlt, hcheck, hid']
            obtain ⟨hmultiple, hrestok⟩ := ih inbox' hidok (by omega)
              (show numberOfMessages (rest.drop PSBT_OUT_CHUNK_SIZE).length = left + 1 by omega)
              (fun i hi => by
                obtain ⟨m, hm, hask⟩ := hasks (i + 1) (by omega)
                rw [show nmsgs - (left + 1 + 1) + (i + 1) + 2 = nmsgs - (left + 1) + i + 2 by omega]
                  at hask
                exact ⟨m, by simpa using hm, hask⟩)
            rw [hmod] at hmultiple hrestok
            rw [hturn]
            refine ⟨hmultiple, fun h => ?_⟩
            obtain ⟨sent, hsent, hnumbered, hall, hflat⟩ := hrestok h
            refine ⟨⟨nmsgs - (left + 1), nmsgs, rest.take PSBT_OUT_CHUNK_SIZE⟩ :: sent, ?_, ?_, ?_,
              ?_⟩
            · rw [hsent]
              rfl
            · rw [List.map_cons, hnumbered, hnum]
              exact List.range'_succ.symm
            · intro m hm
              rcases List.mem_cons.1 hm with rfl | hm
              · exact ⟨rfl, hne, hlen⟩
              · exact hall m hm
            · rw [List.flatMap_cons, hflat]
              exact List.take_append_drop _ _

/-! ### The result -/

/-- **The PSBT is returned whole exactly when its length is no multiple of the size of a chunk**:
for every PSBT of at least one byte and every client that asks for the messages one by one. When it
is a multiple, the last message would be empty, and an assertion fails. -/
theorem sentWhole_iff {id bytes : Bytes} {inbox : List ExtendedDataRequest} (hid : IdOk id)
    (hfollows : FollowsProtocol id (numberOfMessages bytes.length) inbox) :
    SentWhole bytes (replySignedPsbt id bytes inbox) ↔
      bytes.length % PSBT_OUT_CHUNK_SIZE ≠ 0 := by
  obtain ⟨hmultiple, hok⟩ := sendChunks_spec id inbox hid (Nat.le_refl _) rfl
    (fun i hi => by
      obtain ⟨m, hm, hask⟩ := hfollows i hi
      exact ⟨m, hm, by rwa [Nat.sub_self, Nat.zero_add]⟩)
  constructor
  · intro h hzero
    exact absurd (h.done.symm.trans (hmultiple hzero)) (by simp)
  · intro h
    obtain ⟨sent, hsent, hnumbered, hall, hflat⟩ := hok h
    have hlen : sent.length = numberOfMessages bytes.length := by
      have := congrArg List.length hnumbered
      rwa [List.length_map, List.length_range'] at this
    rw [replySignedPsbt, hsent]
    refine ⟨rfl, ?_, ?_, fun m hm => (hall m hm).2.1, ?_, hflat⟩
    · rw [hnumbered, hlen, Nat.sub_self]
    · intro m hm
      exact (hall m hm).1.trans hlen.symm
    · exact fun m hm id hid => length_chunkReply_le hid (hall m hm).2.2

/-- A request as a client that follows the protocol sends it. -/
def toyExtendedDataRequest (originalId : Bytes) (seqnum nmsgs : UInt32) : ExtendedDataRequest where
  isGetExtendedData := .ok true
  id := .ok (ascii "1")
  fields := some {
    orig := .ok (ascii "sign_psbt")
    origid := .ok originalId
    seqlen := some nmsgs
    seqnum := some seqnum }

theorem toyExtendedDataRequest_asks (originalId : Bytes) (seqnum nmsgs : UInt32) :
    (toyExtendedDataRequest originalId seqnum nmsgs).Asks originalId seqnum.toNat nmsgs.toNat where
  isGetExtendedData := rfl
  id := ⟨ascii "1", rfl, by decide⟩
  fields := ⟨_, nmsgs, seqnum, rfl, rfl, rfl, rfl, rfl, rfl, rfl⟩

/-- One byte more than a chunk is returned in two messages. -/
theorem sentWhole_two :
    SentWhole (List.replicate (PSBT_OUT_CHUNK_SIZE + 1) 0)
      (replySignedPsbt (ascii "7") (List.replicate (PSBT_OUT_CHUNK_SIZE + 1) 0)
        [toyExtendedDataRequest (ascii "7") 2 2]) := by
  refine (sentWhole_iff (by decide) ?_).2 ?_
  · intro i hi
    rw [List.length_replicate] at hi
    have htwo : numberOfMessages (PSBT_OUT_CHUNK_SIZE + 1) = 2 := by decide
    obtain rfl : i = 0 := by omega
    rw [List.length_replicate, htwo]
    exact ⟨_, rfl, toyExtendedDataRequest_asks (ascii "7") 2 2⟩
  · rw [List.length_replicate]
    decide

/-- **A PSBT of exactly one chunk is not returned**: the first message announces a second one, and
when the client asks for it an assertion fails. -/
theorem oneChunk_fails :
    FollowsProtocol (ascii "7") (numberOfMessages PSBT_OUT_CHUNK_SIZE)
        [toyExtendedDataRequest (ascii "7") 2 2] ∧
      (replySignedPsbt (ascii "7") (List.replicate PSBT_OUT_CHUNK_SIZE 0)
        [toyExtendedDataRequest (ascii "7") 2 2]).outcome = .failed (.fault .assert) := by
  have hfollows : FollowsProtocol (ascii "7") (numberOfMessages PSBT_OUT_CHUNK_SIZE)
      [toyExtendedDataRequest (ascii "7") 2 2] := by
    intro i hi
    have htwo : numberOfMessages PSBT_OUT_CHUNK_SIZE = 2 := by decide
    obtain rfl : i = 0 := by omega
    rw [htwo]
    exact ⟨_, rfl, toyExtendedDataRequest_asks (ascii "7") 2 2⟩
  refine ⟨hfollows, ?_⟩
  refine (sendChunks_spec _ _ (by decide) (Nat.le_refl _) rfl ?_).1 ?_
  · intro i hi
    rw [List.length_replicate] at hi
    obtain ⟨m, hm, hask⟩ := hfollows i hi
    rw [List.length_replicate]
    exact ⟨m, hm, by rwa [Nat.sub_self, Nat.zero_add]⟩
  · rw [List.length_replicate]
    exact Nat.mod_self _

end Jade
