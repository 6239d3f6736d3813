/-
**The older message flow of `sign_tx` (`process/sign_tx.c`).**

Without anti-exfil signatures the messages about the inputs pile up unanswered, and their ids are
kept. All signatures are made before any is sent. A run has few ways to end: the first message is
rejected; an error is sent on the message at hand; the connection is lost while messages are read;
one of the signatures cannot be made, and an error is sent under the id of its input; or every message
about an input gets its signature, in order and under its own id.

Main definitions:

* `Jade.KeptAs`, `Jade.MadeFor` — what is kept of a message, and the signature for it;
* `Jade.Ended` — the ways in which a run may end;
* `Jade.Collecting` — the messages pile up.

Main results:

* `Jade.sat_readInputs_batch` — what is kept of the messages;
* `Jade.signTx_batch` — **how a run ends**.
-/

import Jade.SignTx.Phases
import Jade.SignTx.Turns

set_option relaxedAutoImplicit false
set_option autoImplicit false

namespace Jade

open Exec Dialogue

section Statement

variable {K V : Type} (L : SignTxLib K V)

/-! ### The ways to end -/

/-- An answer to the first message with the result `true`. -/
structure Accepts (m₀ : Incoming V) (out : Outgoing TxData) : Prop where
  answer : IsAnswer L.cbor.toTinyCborStrings m₀ out
  body : out.body = .ok

/-- An answer that is sent to where the first message came from, under the id of another one. -/
structure UnderId (m₀ m : Incoming V) (out : Outgoing TxData) : Prop where
  source : out.source = m₀.source
  id : IdOf L.cbor.toTinyCborStrings m.value out.id

def IsError (out : Outgoing TxData) : Prop := ∃ code errmsg, out.body = .error code errmsg

/-- What is kept of the message about the input at a position: its id, which is not empty, and when it
has a path what is signed, as the message says. -/
structure KeptAs (tx : Tx) (i : ℕ) (m : Incoming V) (data : InputData) : Prop where
  id : rpcGetId L.cbor.toTinyCbor m.value = .ok data.id
  id_ne_nil : data.id ≠ []
  notTaproot : data.isTaproot = false
  own : data.path ≠ [] → ∃ params, getMsgParams L.cbor.toTinyCborStrings m.value = some params ∧
    OwnHash L tx i params data

/-- The curve gives no signature of a hash. -/
def CannotSign (data : InputData) : Prop :=
  ∃ privkey, L.messages.bip32KeyFromParentPath data.path = some privkey ∧
    L.ecSigGrindR privkey data.signatureHash = none

/-- The signature that belongs to an input, empty for one that is not to be signed. -/
def MadeFor (network : Network) (data : InputData) (signature : Bytes) : Prop :=
  if data.path = [] then signature = []
  else walletSignTxInputHash L network data none = .ok (some signature) ∧ signature ≠ []

/-- The answer to the message about the input at a position. -/
def AnswersInput (network : Network) (tx : Tx) (m₀ : Incoming V) (i : ℕ) (m : Incoming V)
    (out : Outgoing TxData) : Prop :=
  UnderId L m₀ m out ∧ ∃ data signature, KeptAs L tx i m data ∧
    out.body = .data (.signature signature) ∧ MadeFor L network data signature

/-- How a run ends, by all that has happened. -/
inductive Ended (forLiquid : Bool) (m₀ : Incoming V)
    (events : List (Event (Incoming V) (Screen × Bool) (Outgoing TxData))) : Prop
  /-- The first message is rejected. -/
  | refused {r : Outgoing TxData} (hmessages : messages events = []) (houtbox : outbox events = [r])
      (hanswer : IsAnswer L.cbor.toTinyCborStrings m₀ r) (herror : IsError r) :
      Ended forLiquid m₀ events
  /-- An error is sent on the last message. -/
  | stopped {ok r : Outgoing TxData} {msgs : List (Incoming V)} {m : Incoming V}
      (hmessages : messages events = msgs ++ [m]) (houtbox : outbox events = [ok, r])
      (haccepts : Accepts L m₀ ok) (hanswer : IsAnswer L.cbor.toTinyCborStrings m r)
      (herror : IsError r) : Ended forLiquid m₀ events
  /-- The connection is lost, which is the last that happens. -/
  | lost {ok : Outgoing TxData} (houtbox : outbox events = [ok]) (haccepts : Accepts L m₀ ok)
      (hlost : events.getLast? = some .lost) : Ended forLiquid m₀ events
  /-- All messages were read, but a signature cannot be made: none is sent, only an error under the
  id of that input. -/
  | failed {ok r : Outgoing TxData} {network : Network} {request : SignTxRequest} {i : ℕ}
      {m : Incoming V} {data : InputData} (houtbox : outbox events = [ok, r])
      (haccepts : Accepts L m₀ ok) (hopen : openRequest L forLiquid m₀ = .ok (network, request))
      (hlength : (messages events).length = request.tx.inputs.length)
      (hmessage : (messages events)[i]? = some m) (hkept : KeptAs L request.tx i m data)
      (hfails : data.path ≠ [] ∧ CannotSign L data) (hid : UnderId L m₀ m r)
      (herror : r.body = .error CBOR_RPC_INTERNAL_ERROR "Failed to sign tx input") :
      Ended forLiquid m₀ events
  /-- Every input gets its answer. -/
  | signed {ok : Outgoing TxData} {sent : List (Outgoing TxData)} {network : Network}
      {request : SignTxRequest} (houtbox : outbox events = ok :: sent) (haccepts : Accepts L m₀ ok)
      (hopen : openRequest L forLiquid m₀ = .ok (network, request))
      (hlength : (messages events).length = request.tx.inputs.length)
      (hsent : sent.length = (messages events).length)
      (hanswers : ∀ (i : ℕ) m r, (messages events)[i]? = some m → sent[i]? = some r →
        AnswersInput L network request.tx m₀ i m r) : Ended forLiquid m₀ events

end Statement

section Batch

variable {K V : Type} {L : SignTxLib K V} {forLiquid : Bool} {network : Network}
  {request : SignTxRequest} {m₀ m : Incoming V} {ok : Outgoing TxData} {msgs : List (Incoming V)}
  {s : Dialogue.State (Incoming V) (Screen × Bool) (Outgoing TxData)}

/-! ### Up to the first answer -/

variable (m₀) in
/-- The first message is at hand. -/
structure AtFirst (s : Dialogue.State (Incoming V) (Screen × Bool) (Outgoing TxData)) : Prop where
  current : s.current = some m₀
  messages : messages s.events = []
  outbox : outbox s.events = []

/-- Screens do not interfere with messages. -/
theorem sat_onScreens_messages {α : Type} (x : Ui α) :
    Sat (onScreens x)
      (fun _ s' => s'.current = s.current ∧ messages s'.events = messages s.events ∧
        outbox s'.events = outbox s.events)
      (fun _ s' => s'.current = s.current ∧ messages s'.events = messages s.events ∧
        outbox s'.events = outbox s.events) s := by
  rw [sat_onScreens]
  exact sat_of_forall (fun _ _ => ⟨rfl, State.messages_showMore _ _, State.outbox_showMore _ _⟩)
    fun _ _ => ⟨rfl, State.messages_showMore _ _, State.outbox_showMore _ _⟩

theorem sat_onScreens_atFirst {α : Type} (x : Ui α) (h : AtFirst m₀ s) :
    Sat (onScreens x) (fun _ => AtFirst m₀) (fun _ => AtFirst m₀) s :=
  (sat_onScreens_messages x).mono
    (fun _ _ h' => ⟨h'.1.trans h.current, h'.2.1.trans h.messages, h'.2.2.trans h.outbox⟩)
    fun _ _ h' => ⟨h'.1.trans h.current, h'.2.1.trans h.messages, h'.2.2.trans h.outbox⟩

theorem sat_confirmWith_atFirst (x : Ui Bool) (errmsg : String) (h : AtFirst m₀ s) :
    Sat (do let accepts ← onScreens x; unlessRefused errmsg accepts : SignTx V Unit)
      (fun _ => AtFirst m₀) (fun _ => AtFirst m₀) s := by
  rw [sat_bind]
  refine (sat_onScreens_atFirst x h).mono ?_ (fun _ _ h' => h')
  intro accepts s' h'
  exact (sat_check _ _).2 ⟨fun _ => h', fun _ => h'⟩

theorem sat_confirmOutputs_atFirst (h : AtFirst m₀ s) :
    Sat (confirmOutputs L network forLiquid request) (fun _ => AtFirst m₀) (fun _ => AtFirst m₀)
      s := by
  rw [confirmOutputs, sat_ite, sat_ite]
  exact ⟨fun _ => ⟨fun _ => sat_confirmWith_atFirst _ _ h, fun _ => sat_confirmWith_atFirst _ _ h⟩,
    fun _ => sat_confirmWith_atFirst _ _ h⟩

/-! ### The inputs -/

/-- The messages pile up: only the first one has an answer. -/
structure Collecting (ok : Outgoing TxData) (msgs : List (Incoming V))
    (s : Dialogue.State (Incoming V) (Screen × Bool) (Outgoing TxData)) : Prop where
  messages : messages s.events = msgs
  outbox : outbox s.events = [ok]

variable (ok) in
/-- After an error that is not an abort: it is sent on the last message, unless the connection is
lost. -/
def CanStop (s : Dialogue.State (Incoming V) (Screen × Bool) (Outgoing TxData)) : Prop :=
  ∃ msgs, Collecting ok msgs s ∧ (s.current = none ∧ s.events.getLast? = some .lost ∨
    s.current = msgs.getLast? ∧ msgs ≠ [])

theorem sat_replyToMessageOk_batch (h : AtFirst m₀ s) :
    Sat (replyToMessageOk L.cbor.toTinyCborStrings m₀ : SignTx V Unit)
      (fun _ s' => ∃ ok, Accepts L m₀ ok ∧ Collecting ok [] s')
      (fun e _ => e.isFault = true) s := by
  simp only [replyToMessageOk, replyWith, replyTo, sat_bind, sat_orFault, sat_send]
  refine ⟨fun out hout => ?_, fun _ _ => rfl⟩
  refine ⟨{ source := m₀.source, id := out.id, body := .ok }, ⟨⟨rfl, ?_⟩, rfl⟩, ?_, ?_⟩
  · cases hans : answer L.cbor.toTinyCborStrings m₀.value replyOk with
    | error e =>
        rw [hans] at hout
        cases hout
    | ok out' =>
        rw [hans] at hout
        obtain rfl : out' = out := Except.ok.inj hout
        exact idOf_answer hans
  · rw [State.record_events, messages_append, messages_sent, h.messages]
    rfl
  · rw [State.record_events, outbox_append, outbox_sent, h.outbox]
    rfl

/-- The next message, if there is one. -/
theorem Collecting.take (h : Collecting ok msgs s) :
    (∃ m, s.take.current = some m ∧ Collecting ok (msgs ++ [m]) s.take) ∨
      (s.take.current = none ∧ s.take.events.getLast? = some .lost ∧
        Collecting ok msgs s.take) := by
  obtain ⟨inbox, current, events⟩ := s
  cases inbox with
  | nil =>
      refine .inr ⟨rfl, List.getLast?_concat, ?_, ?_⟩
      · exact (messages_append _ _).trans ((List.append_nil _).trans h.messages)
      · exact (outbox_append _ _).trans ((List.append_nil _).trans h.outbox)
  | cons m inbox =>
      refine .inl ⟨m, rfl, ?_, ?_⟩
      · exact (messages_append _ _).trans (congrArg (· ++ [m]) h.messages)
      · exact (outbox_append _ _).trans ((List.append_nil _).trans h.outbox)

variable (L) in
/-- The loop over the inputs: a message for each, and what is kept of it. -/
structure MessagesKept (tx : Tx) (ok : Outgoing TxData) (n : ℕ) (msgs : List (Incoming V))
    (st : SigningState) (s : Dialogue.State (Incoming V) (Screen × Bool) (Outgoing TxData)) :
    Prop where
  collecting : Collecting ok msgs s
  current : n ≠ 0 → s.current = msgs.getLast?
  length : msgs.length = n
  length_inputs : st.inputs.length = n
  kept : ∀ (i : ℕ) m data, msgs[i]? = some m → st.inputs[i]? = some data → KeptAs L tx i m data
  noTaproot : st.numP2trToSign = 0

variable (ok) in
/-- An error in the older flow. -/
def StopsBatch (e : SignErr) (s : Dialogue.State (Incoming V) (Screen × Bool) (Outgoing TxData)) :
    Prop := CanStop ok s ∨ e.isFault = true

theorem keptAs_of_readTxInput (hae : request.useAeSignatures = false) {input : TxInput} {index : ℕ}
    {st : SigningState} {out : SigningState × Bytes}
    (h : readTxInput L forLiquid request input index m st = .ok out) :
    ∃ data, out.1.inputs = st.inputs ++ [data] ∧ KeptAs L request.tx index m data ∧
      out.1.numP2trToSign = st.numP2trToSign := by
  obtain ⟨params, hparams, h⟩ := bind_eq_ok.1 h
  obtain ⟨id, hid, h⟩ := bind_eq_ok.1 h
  obtain ⟨_, hne, h⟩ := bind_eq_ok.1 h
  obtain ⟨data, hinputs, hdata, hown, htaproot, hnum⟩ := processInput_push h
  have hnot : data.isTaproot = false := by
    rw [← Bool.not_eq_true]
    intro htrue
    exact absurd (hae.symm.trans (htaproot htrue)) Bool.false_ne_true
  refine ⟨data, hinputs,
    ⟨?_, ?_, hnot, fun hpath => ⟨params, msgParams_eq_ok.1 hparams, hown hpath⟩⟩, ?_⟩
  · rw [hdata]
    cases hvalue : rpcGetId L.cbor.toTinyCbor m.value with
    | error e =>
        rw [hvalue] at hid
        cases hid
    | ok id' =>
        rw [hvalue] at hid
        exact congrArg Except.ok (Except.ok.inj hid)
  · rw [hdata]
    rw [liftFault_eq_ok, jadeVerify_eq_ok, Bool.not_eq_true'] at hne
    rintro rfl
    cases hne
  · rw [hnum, hnot]
    rfl

theorem sat_readInput_batch (hae : request.useAeSignatures = false) {st : SigningState} {n : ℕ}
    (h : MessagesKept L request.tx ok n msgs st s) (input : TxInput) :
    Sat (readInput L forLiquid request st (input, n))
      (fun st' s' => ∃ m, MessagesKept L request.tx ok (n + 1) (msgs ++ [m]) st' s')
      (StopsBatch ok) s := by
  rw [readInput, sat_bind, sat_take, sat_bind]
  rcases h.collecting.take with ⟨m, hm, hcollect⟩ | ⟨hnone, hlost, hcollect⟩
  · have hstop : CanStop ok s.take :=
      ⟨_, hcollect, .inr ⟨by rw [hm, List.getLast?_concat], by simp⟩⟩
    simp only [expectMessage, currentMessage, sat_bind, sat_get, sat_pure, hm, sat_orFault, sat_ite,
      sat_reject, sat_orThrow, answerInput, hae, Bool.false_eq_true, if_false]
    refine ⟨fun _ _ => ⟨fun _ => ⟨fun out hout => ?_, fun _ _ => .inl hstop⟩, fun _ => .inl hstop⟩,
      fun _ _ => .inr rfl⟩
    obtain ⟨data, hinputs, hkept, hnum⟩ := keptAs_of_readTxInput hae hout
    refine ⟨m, hcollect, fun _ => by rw [hm, List.getLast?_concat], ?_, ?_, ?_, ?_⟩
    · rw [List.length_append, h.length]
      rfl
    · rw [hinputs, List.length_append, h.length_inputs]
      rfl
    · intro i m' data' hmsg hdata
      rw [hinputs] at hdata
      rcases getElem?_push hmsg with hmsg | ⟨rfl, rfl⟩
      · have hlt : i < st.inputs.length := by
          rw [h.length_inputs, ← h.length]
          exact lt_of_getElem? hmsg
        rw [List.getElem?_append_left hlt] at hdata
        exact h.kept i m' data' hmsg hdata
      · rw [h.length, ← h.length_inputs, List.getElem?_concat_length] at hdata
        obtain rfl := Option.some.inj hdata
        rw [h.length]
        exact hkept
    · rw [hnum, h.noTaproot]
  · simp only [expectMessage, currentMessage, sat_bind, sat_get, sat_pure, hnone, sat_reject]
    exact .inl ⟨_, hcollect, .inl ⟨hnone, hlost⟩⟩

/-- **What is kept** is that of the messages, in order. -/
theorem sat_readInputs_batch (hae : request.useAeSignatures = false)
    (h : Collecting ok [] s) :
    Sat (readInputs L forLiquid request)
      (fun st s' => ∃ msgs, MessagesKept L request.tx ok request.tx.inputs.length msgs st s')
      (StopsBatch ok) s := by
  have hloop : Sat (readInputs L forLiquid request)
      (fun st s' => ∃ msgs,
        MessagesKept L request.tx ok request.tx.inputs.zipIdx.length msgs st s')
      (StopsBatch ok) s := by
    refine sat_foldlM (fun pre st s' => ∃ msgs, MessagesKept L request.tx ok pre.length msgs st s')
      _ ?_ _ _ ⟨[], h, fun hne => absurd rfl hne, rfl, rfl, fun i _ _ hmsg => (by cases hmsg), rfl⟩
    intro pre entry suf st s' hsplit hs'
    obtain ⟨msgs, hkept⟩ := hs'
    obtain ⟨input, index⟩ := entry
    obtain rfl : index = pre.length :=
      (zipIdx_eq_append hsplit).1.trans (List.length_map ..)
    refine (sat_readInput_batch hae hkept input).mono ?_ (fun _ _ h' => h')
    intro st' s'' hs''
    obtain ⟨m, hkept'⟩ := hs''
    rw [List.length_append]
    exact ⟨_, hkept'⟩
  rwa [List.length_zipIdx] at hloop

/-- Without taproot inputs no hash is made late. -/
theorem hashTaproot_zero (tx : Tx) (maps : SigningMaps) (genesis : Option Bytes)
    (entries : List (InputData × ℕ)) :
    hashTaproot L tx maps genesis entries 0 = some (entries.map Prod.fst) := by
  cases entries with
  | nil => rfl
  | cons entry entries => rw [hashTaproot, if_pos rfl, List.map_cons]

theorem hashTaprootInputs_eq {st : SigningState} (h : st.numP2trToSign = 0) :
    hashTaprootInputs L network forLiquid request st = pure st := by
  obtain ⟨inputs, maps, amount, flavour, numToSign, num, inSums⟩ := st
  obtain rfl : num = 0 := h
  rw [hashTaprootInputs, hashTaproot_zero, List.zipIdx_map_fst]

/-! ### The fee -/

/-- All messages were loaded, and the last one is at hand. -/
structure AllLoaded (ok : Outgoing TxData) (msgs : List (Incoming V))
    (s : Dialogue.State (Incoming V) (Screen × Bool) (Outgoing TxData)) : Prop where
  collecting : Collecting ok msgs s
  current : s.current = msgs.getLast?
  nonempty : msgs ≠ []

theorem AllLoaded.canStop (h : AllLoaded ok msgs s) : CanStop ok s :=
  ⟨msgs, h.collecting, .inr ⟨h.current, h.nonempty⟩⟩

theorem sat_onScreens_loaded {α : Type} (x : Ui α) (h : AllLoaded ok msgs s) :
    Sat (onScreens x) (fun _ => AllLoaded ok msgs) (fun _ => AllLoaded ok msgs) s := by
  refine (sat_onScreens_messages x).mono ?_ ?_
  · intro _ s' hs'
    exact ⟨⟨hs'.2.1.trans h.collecting.messages, hs'.2.2.trans h.collecting.outbox⟩,
      hs'.1.trans h.current, h.nonempty⟩
  · intro _ s' hs'
    exact ⟨⟨hs'.2.1.trans h.collecting.messages, hs'.2.2.trans h.collecting.outbox⟩,
      hs'.1.trans h.current, h.nonempty⟩

theorem sat_rejectLate_batch (hae : request.useAeSignatures = false) (h : AllLoaded ok msgs s)
    (code : ℤ) (errmsg : String) :
    Sat (rejectLate request code errmsg : SignTx V Unit) (fun _ => AllLoaded ok msgs)
      (StopsBatch ok)
      s := by
  rw [rejectLate, hae, if_neg Bool.false_ne_true, sat_reject]
  exact .inl h.canStop

theorem sat_feeScreen_batch (hae : request.useAeSignatures = false) (x : Ui Bool)
    (h : AllLoaded ok msgs s) :
    Sat (do let accepts ← onScreens x; unlessFeeRefused request accepts : SignTx V Unit)
      (fun _ => AllLoaded ok msgs) (StopsBatch ok) s := by
  rw [sat_bind]
  refine (sat_onScreens_loaded x h).mono ?_ (fun _ _ h' => .inl h'.canStop)
  intro accepts s' hs'
  rw [unlessFeeRefused, sat_ite]
  exact ⟨fun _ => (sat_pure _).2 hs', fun _ => sat_rejectLate_batch hae hs' _ _⟩

theorem sat_confirmTxFee_batch (hae : request.useAeSignatures = false) (h : AllLoaded ok msgs s)
    (st : SigningState) :
    Sat (confirmTxFee L forLiquid request st) (fun _ => AllLoaded ok msgs) (StopsBatch ok) s := by
  rw [confirmTxFee, sat_ite]
  constructor
  · intro _
    rw [confirmLiquidTxFee, sat_ite, sat_ite]
    exact ⟨fun _ => sat_rejectLate_batch hae h _ _,
      fun _ => ⟨fun _ => (sat_pure _).2 h, fun _ => sat_feeScreen_batch hae _ h⟩⟩
  · intro _
    rw [confirmBtcTxFee, sat_bind, sat_orFault]
    refine ⟨fun outputAmount _ => ?_, fun _ _ => .inr rfl⟩
    rw [sat_ite]
    exact ⟨fun _ => sat_rejectLate_batch hae h _ _, fun _ => sat_feeScreen_batch hae _ h⟩

/-! ### The signatures -/

theorem sat_showNothingToSign_batch (h : AllLoaded ok msgs s) (st : SigningState) :
    Sat (showNothingToSign st : SignTx V Unit) (fun _ => AllLoaded ok msgs) (StopsBatch ok) s := by
  rw [showNothingToSign, sat_ite]
  exact ⟨fun _ => (sat_onScreens_loaded _ h).mono (fun _ _ h' => h')
    (fun _ _ h' => .inl h'.canStop),
    fun _ => (sat_pure _).2 h⟩

/-- A helper writes the id that it is given, as a C string. -/
theorem id_of_result {id : Bytes} {payload size : ℕ} {a : Answer}
    (h : replyToMessageResultWithId id payload size = .ok a) : a.id = Bytes.cstr id := by
  obtain ⟨_, -, h⟩ := bind_eq_ok.1 h
  obtain ⟨_, -, h⟩ := bind_eq_ok.1 h
  obtain rfl := pure_eq_ok.1 h
  rfl

theorem id_of_rejection {id : Bytes} {code : ℤ} {errmsg : String} {size : ℕ} {a : Answer}
    (h : rejectMessageWithId id code errmsg size = .ok a) : a.id = Bytes.cstr id := by
  obtain ⟨_, -, h⟩ := bind_eq_ok.1 h
  obtain ⟨_, -, h⟩ := bind_eq_ok.1 h
  obtain rfl := pure_eq_ok.1 h
  rfl

theorem KeptAs.idOf {tx : Tx} {i : ℕ} {data : InputData} (h : KeptAs L tx i m data) :
    IdOf L.cbor.toTinyCborStrings m.value (Bytes.cstr data.id) := by
  have hcopied := IdOf.copied (C := L.cbor.toTinyCborStrings) h.id
  rwa [if_neg h.id_ne_nil] at hcopied

/-- What is sent under an id that was kept. -/
theorem sat_replyTo_batch {x : Except WireAbort Answer} {body : Body TxData} (data : InputData)
    (hx : ∀ a, x = .ok a → a.id = Bytes.cstr data.id) :
    Sat (replyTo m₀.source x body : SignTx V Unit)
      (fun _ s' => ∃ r : Outgoing TxData, r.source = m₀.source ∧ r.id = Bytes.cstr data.id ∧
        r.body = body ∧ s' = s.record (.sent r))
      (fun e _ => e.isFault = true) s := by
  simp only [replyTo, sat_bind, sat_orFault, sat_send]
  refine ⟨fun out hout => ?_, fun _ _ => rfl⟩
  refine ⟨{ source := m₀.source, id := out.id, body }, rfl, ?_, rfl, rfl⟩
  cases x with
  | error e => cases hout
  | ok a =>
      obtain rfl : a = out := Except.ok.inj hout
      exact hx _ rfl

/-- An input that is not signed with taproot fails to be signed when the curve gives no signature. -/
theorem cannotSign_of_none {data : InputData} (hnot : data.isTaproot = false)
    (h : ecSignature L network data = .ok none) : data.path ≠ [] ∧ CannotSign L data := by
  rw [ecSignature] at h
  split at h
  · cases h
  · next hpath =>
      have hpath' : data.path ≠ [] := fun hnil => hpath (List.isEmpty_iff.2 hnil)
      have htype : data.sigType ≠ some .swV1 := by
        intro htype
        rw [InputData.isTaproot, htype] at hnot
        simp [hpath'] at hnot
      obtain ⟨signed, hsigned, h⟩ := bind_eq_ok.1 h
      cases signed with
      | some signature =>
          obtain ⟨_, -, h⟩ := bind_eq_ok.1 h
          cases h
      | none =>
          rw [walletSignTxInputHash, if_neg hpath, if_neg (by simp)] at hsigned
          obtain ⟨privkey, hkey, hsigned⟩ := bind_eq_ok.1 hsigned
          refine ⟨hpath', privkey, wallyVerify_eq_ok.1 hkey, ?_⟩
          rw [inputSignature, if_neg htype] at hsigned
          cases hnone : L.ecSigGrindR privkey data.signatureHash with
          | none => rfl
          | some signature =>
              simp only [hnone] at hsigned
              obtain ⟨_, -, hsigned⟩ := bind_eq_ok.1 hsigned
              cases hsigned

theorem madeFor_of_some {data : InputData} {signature : Bytes}
    (h : ecSignature L network data = .ok (some signature)) : MadeFor L network data signature := by
  rw [ecSignature] at h
  rw [MadeFor]
  split at h
  · next hpath =>
      rw [if_pos (List.isEmpty_iff.1 hpath)]
      exact (Option.some.inj (Except.ok.inj h)).symm
  · next hpath =>
      rw [if_neg fun hnil => hpath (List.isEmpty_iff.2 hnil)]
      obtain ⟨signed, hsigned, h⟩ := bind_eq_ok.1 h
      cases signed with
      | none => cases h
      | some signature' =>
          obtain ⟨_, hne, h⟩ := bind_eq_ok.1 h
          obtain rfl := Option.some.inj (pure_eq_ok.1 h)
          rw [jadeVerify_eq_ok, Bool.not_eq_true'] at hne
          refine ⟨hsigned, ?_⟩
          rintro rfl
          cases hne

/-- Either all signatures are made, or an error is sent under the id of an input that has none. -/
theorem sat_makeEcSignatures_batch (inputs : List InputData)
    (hnot : ∀ data ∈ inputs, data.isTaproot = false) :
    Sat (makeEcSignatures L network m₀.source inputs)
      (fun signatures s' => match signatures with
        | none => ∃ data ∈ inputs, (data.path ≠ [] ∧ CannotSign L data) ∧
            ∃ r : Outgoing TxData, r.source = m₀.source ∧ r.id = Bytes.cstr data.id ∧
              r.body = .error CBOR_RPC_INTERNAL_ERROR "Failed to sign tx input" ∧
              s' = s.record (.sent r)
        | some sigs => s' = s ∧ List.Forall₂ (MadeFor L network) inputs sigs)
      (fun e _ => e.isFault = true) s := by
  induction inputs with
  | nil => exact (sat_pure _).2 ⟨rfl, .nil⟩
  | cons data inputs ih =>
      rw [makeEcSignatures, sat_bind, sat_orFault]
      refine ⟨fun signed hsigned => ?_, fun _ _ => rfl⟩
      cases signed with
      | none =>
          rw [sat_bind]
          refine (sat_replyTo_batch data (fun _ => id_of_rejection)).mono ?_
            (fun _ _ h' => h')
          intro _ s' hs'
          exact (sat_pure _).2 ⟨data, List.mem_cons_self,
            cannotSign_of_none (hnot data List.mem_cons_self) hsigned, hs'⟩
      | some signature =>
          rw [sat_bind]
          refine (ih fun data' hmem => hnot data' (List.mem_cons_of_mem _ hmem)).mono ?_
            (fun _ _ h' => h')
          intro rest s' hs'
          refine (sat_pure _).2 ?_
          cases rest with
          | none =>
              obtain ⟨data', hmem, hrest⟩ := hs'
              exact ⟨data', List.mem_cons_of_mem _ hmem, hrest⟩
          | some sigs => exact ⟨hs'.1, .cons (madeFor_of_some hsigned) hs'.2⟩

variable (m₀) in
/-- The answer for an input and its signature. -/
def IsReplyFor (entry : InputData × Bytes) (r : Outgoing TxData) : Prop :=
  r.source = m₀.source ∧ r.id = Bytes.cstr entry.1.id ∧ r.body = .data (.signature entry.2)

/-- The answers sent for a part of the inputs. -/
def Sent (m₀ : Incoming V) (ok : Outgoing TxData) (msgs : List (Incoming V))
    (entries : List (InputData × Bytes))
    (s : Dialogue.State (Incoming V) (Screen × Bool) (Outgoing TxData)) : Prop :=
  messages s.events = msgs ∧ ∃ sent, outbox s.events = ok :: sent ∧
    List.Forall₂ (IsReplyFor m₀) entries sent

theorem sat_sendEcSignatures_batch (entries : List (InputData × Bytes))
    (h : Collecting ok msgs s) :
    Sat (entries.forM (sendEcSignature m₀.source) : SignTx V Unit)
      (fun _ => Sent m₀ ok msgs entries) (fun e _ => e.isFault = true) s := by
  refine sat_forM (fun pre => Sent m₀ ok msgs pre) _ ?_ _ ⟨h.messages, [], h.outbox, .nil⟩
  intro pre entry suf s' _ hs'
  obtain ⟨hmessages, sent, hreplies, hsent⟩ := hs'
  refine (sat_replyTo_batch entry.1 (fun _ => id_of_result)).mono ?_ (fun _ _ h' => h')
  intro _ s'' hs''
  obtain ⟨r, hsource, hid, hbody, rfl⟩ := hs''
  refine ⟨?_, sent ++ [r], ?_, List.rel_append hsent (.cons ⟨hsource, hid, hbody⟩ .nil)⟩
  · rw [State.record_events, messages_append, messages_sent, List.append_nil, hmessages]
  · rw [State.record_events, outbox_append, outbox_sent, hreplies]
    rfl

/-- The answers go out under the ids of the messages, in order. -/
theorem answersInput_of_sent {tx : Tx} {inputs : List InputData} {sigs : List Bytes}
    {sent : List (Outgoing TxData)} (hlen : msgs.length = inputs.length)
    (hkept : ∀ (i : ℕ) m data, msgs[i]? = some m → inputs[i]? = some data → KeptAs L tx i m data)
    (hmade : List.Forall₂ (MadeFor L network) inputs sigs)
    (hsent : List.Forall₂ (IsReplyFor m₀) (inputs.zip sigs) sent) :
    sent.length = msgs.length ∧ ∀ (i : ℕ) m r, msgs[i]? = some m → sent[i]? = some r →
      AnswersInput L network tx m₀ i m r := by
  have hlenSent : sent.length = msgs.length := by
    rw [← hsent.length_eq, List.length_zip, ← hmade.length_eq, Nat.min_self, hlen]
  refine ⟨hlenSent, ?_⟩
  intro i m r hmsg hr
  have hi : i < inputs.length := hlen ▸ lt_of_getElem? hmsg
  have hi' : i < sigs.length := hmade.length_eq ▸ hi
  have hzip : i < (inputs.zip sigs).length := by
    rw [List.length_zip]
    exact Nat.lt_min.2 ⟨hi, hi'⟩
  have hreply : IsReplyFor m₀ (inputs[i], sigs[i]) r := by
    have hget := hsent.get hzip (lt_of_getElem? hr)
    rwa [List.get_eq_getElem, List.get_eq_getElem, List.getElem_zip,
      (List.getElem?_eq_some_iff.1 hr).2] at hget
  obtain ⟨hsource, hid, hbody⟩ := hreply
  have hown := hkept i m inputs[i] hmsg (List.getElem?_eq_getElem hi)
  exact ⟨⟨hsource, hid ▸ hown.idOf⟩, inputs[i], sigs[i], hown, hbody, hmade.get hi hi'⟩

/-! ### The run -/

/-- A transaction has inputs. -/
theorem inputs_ne_nil {params : V} (h : readSignTx L network forLiquid params = .ok request) :
    request.tx.inputs ≠ [] := by
  have htxn : ∀ tx fee, paramsTxn L network forLiquid params = .ok (tx, fee) → tx.inputs ≠ [] := by
    intro tx fee hparse
    obtain ⟨_, -, hparse⟩ := bind_eq_ok.1 hparse
    obtain ⟨txbytes, -, hparse⟩ := bind_eq_ok.1 hparse
    obtain ⟨_, -, hparse⟩ := bind_eq_ok.1 hparse
    cases htx : L.txFromBytes txbytes forLiquid with
    | none =>
        simp only [htx] at hparse
        cases hparse
    | some tx' =>
        simp only [htx, paramsTxnParsed] at hparse
        split at hparse
        · cases hparse
        · cases hparse
        · next numInputs hzero hnum =>
            obtain ⟨_, hcount, hparse⟩ := bind_eq_ok.1 hparse
            obtain ⟨_, -, hparse⟩ := bind_eq_ok.1 hparse
            obtain ⟨rfl, -⟩ := Prod.mk.inj (pure_eq_ok.1 hparse)
            intro hnil
            rw [rejectUnless_eq_ok, beq_iff_eq, hnil] at hcount
            exact hzero (UInt32.toNat_inj.1 (hcount.trans rfl : _ = (0 : UInt32).toNat))
  obtain ⟨⟨tx, fee⟩, hparse, h⟩ := bind_eq_ok.1 h
  cases forLiquid with
  | false =>
      obtain ⟨_, -, h⟩ := bind_eq_ok.1 h
      obtain rfl := pure_eq_ok.1 h
      exact htxn tx fee hparse
  | true =>
      obtain ⟨_, -, h⟩ := bind_eq_ok.1 h
      obtain ⟨_, -, h⟩ := bind_eq_ok.1 h
      obtain ⟨assets, -, h⟩ := bind_eq_ok.1 h
      cases assets with
      | none => cases h
      | some assets =>
          obtain ⟨_, -, h⟩ := bind_eq_ok.1 h
          obtain ⟨_, -, h⟩ := bind_eq_ok.1 h
          obtain ⟨_, -, h⟩ := bind_eq_ok.1 h
          obtain ⟨_, -, h⟩ := bind_eq_ok.1 h
          obtain rfl := pure_eq_ok.1 h
          exact htxn tx fee hparse

/-- A rejection of the message at hand. -/
theorem sat_rejectMessage_batch {code : ℤ} {errmsg : String} (hm : s.current = some m) :
    Sat (rejectMessage L.cbor.toTinyCborStrings code errmsg : SignTx V Unit)
      (fun _ s' => ∃ r : Outgoing TxData, IsAnswer L.cbor.toTinyCborStrings m r ∧ IsError r ∧
        messages s'.events = messages s.events ∧ outbox s'.events = outbox s.events ++ [r])
      (fun e _ => e.isFault = true) s := by
  simp only [rejectMessage, currentMessage, sat_bind, sat_get, sat_pure, hm, replyWith, replyTo,
    sat_orFault, sat_send]
  refine ⟨fun out hout => ?_, fun _ _ => rfl⟩
  refine ⟨{ source := m.source, id := out.id, body := .error code errmsg }, ⟨rfl, ?_⟩,
    ⟨code, errmsg, rfl⟩, ?_, ?_⟩
  · cases hans :
        rejectMessageEx L.cbor.toTinyCborStrings m.value code errmsg JADE_MSG_REPLY_LEN with
    | error e =>
        rw [hans] at hout
        cases hout
    | ok out' =>
        rw [hans] at hout
        obtain rfl : out' = out := Except.ok.inj hout
        exact idOf_rejectMessageEx hans
  · rw [State.record_events, messages_append, messages_sent, List.append_nil]
  · rw [State.record_events, outbox_append, outbox_sent]

variable (L m₀) in
/-- After an error: before or after the first answer, and not on the way out. -/
def Errs (e : SignErr) (s : Dialogue.State (Incoming V) (Screen × Bool) (Outgoing TxData)) : Prop :=
  AtFirst m₀ s ∨ (∃ ok, Accepts L m₀ ok ∧ CanStop ok s) ∨ e.isFault = true

variable (L forLiquid m₀) in
/-- The run has ended in one of the ways. -/
abbrev HasEnded (s : Dialogue.State (Incoming V) (Screen × Bool) (Outgoing TxData)) : Prop :=
  Ended L forLiquid m₀ s.events

/-- An error ends the run. -/
theorem sat_answerErrors_batch {x : SignTx V Unit}
    (h : Sat x (fun _ => HasEnded L forLiquid m₀) (Errs L m₀) s) :
    Sat (answerErrors L.cbor.toTinyCborStrings x) (fun _ => HasEnded L forLiquid m₀)
      (fun e _ => e.isFault = true) s := by
  rw [answerErrors, sat_tryCatch]
  refine h.mono (fun _ _ h' => h') ?_
  intro e s' he
  cases e with
  | fault f => exact (sat_throw _).2 rfl
  | reject code errmsg =>
      rcases he with hfirst | ⟨ok, hok, msgs, hcollect, hcurrent⟩ | hfault
      · refine (sat_rejectMessage_batch hfirst.current).mono ?_ (fun _ _ h' => h')
        intro _ s'' hs''
        obtain ⟨r, hans, herr, hmessages, hreplies⟩ := hs''
        rw [hfirst.messages] at hmessages
        rw [hfirst.outbox] at hreplies
        exact .refused hmessages hreplies hans herr
      · rcases hcurrent with ⟨hnone, hlost⟩ | ⟨hlast, hne⟩
        · simp only [rejectMessage, currentMessage, sat_bind, sat_get, sat_pure, hnone]
          exact .lost hcollect.outbox hok hlost
        · obtain ⟨pre, m, rfl⟩ := List.eq_nil_or_concat msgs |>.resolve_left hne
          rw [List.concat_eq_append] at hcollect hlast
          rw [List.getLast?_concat] at hlast
          refine (sat_rejectMessage_batch hlast).mono ?_ (fun _ _ h' => h')
          intro _ s'' hs''
          obtain ⟨r, hans, herr, hmessages, hreplies⟩ := hs''
          rw [hcollect.messages] at hmessages
          rw [hcollect.outbox] at hreplies
          exact .stopped hmessages hreplies hok hans herr
      · cases hfault

theorem errs_of_stops {e : SignErr} (hok : Accepts L m₀ ok) (h : StopsBatch ok e s) :
    Errs L m₀ e s := by
  rcases h with hstop | hfault
  · exact .inr (.inl ⟨ok, hok, hstop⟩)
  · exact .inr (.inr hfault)

/-- The signatures of the older flow. -/
theorem sat_sendSignatures_batch (hok : Accepts L m₀ ok)
    (hopen : openRequest L forLiquid m₀ = .ok (network, request)) {st : SigningState}
    {s₀ : Dialogue.State (Incoming V) (Screen × Bool) (Outgoing TxData)}
    (hkept : MessagesKept L request.tx ok request.tx.inputs.length msgs st s₀)
    (h : AllLoaded ok msgs s) :
    Sat (sendEcSignatures L network m₀.source st.inputs) (fun _ => HasEnded L forLiquid m₀)
      (Errs L m₀) s := by
  have hlen : msgs.length = st.inputs.length := hkept.length.trans hkept.length_inputs.symm
  have hmessage : ∀ data ∈ st.inputs, ∃ (i : ℕ) (m : Incoming V), msgs[i]? = some m ∧
      KeptAs L request.tx i m data := by
    intro data hmem
    obtain ⟨i, hi⟩ := List.mem_iff_getElem?.1 hmem
    have hlt : i < msgs.length := hlen ▸ lt_of_getElem? hi
    exact ⟨i, msgs[i], List.getElem?_eq_getElem hlt,
      hkept.kept i _ data (List.getElem?_eq_getElem hlt) hi⟩
  rw [sendEcSignatures, sat_bind]
  refine (sat_makeEcSignatures_batch st.inputs ?_).mono ?_
    (fun _ _ hfault => .inr (.inr hfault))
  · intro data hmem
    obtain ⟨_, _, -, hown⟩ := hmessage data hmem
    exact hown.notTaproot
  intro signatures s' hs'
  cases signatures with
  | none =>
      obtain ⟨data, hmem, hfails, r, hsource, hid, hbody, rfl⟩ := hs'
      obtain ⟨i, m, hi, hown⟩ := hmessage data hmem
      have hmessages : messages (s.record (.sent r)).events = msgs := by
        rw [State.record_events, messages_append, messages_sent, List.append_nil,
          h.collecting.messages]
      have hreplies : outbox (s.record (.sent r)).events = [ok, r] := by
        rw [State.record_events, outbox_append, outbox_sent, h.collecting.outbox]
        rfl
      refine (sat_pure _).2 (.failed hreplies hok hopen ?_ ?_ hown hfails
        ⟨hsource, hid ▸ hown.idOf⟩ hbody)
      · rw [hmessages, hkept.length]
      · rw [hmessages, hi]
  | some sigs =>
      obtain ⟨rfl, hmade⟩ := hs'
      refine (sat_sendEcSignatures_batch (st.inputs.zip sigs) h.collecting).mono ?_
        (fun _ _ hfault => .inr (.inr hfault))
      intro _ s'' hs''
      obtain ⟨hmessages, sent, hreplies, hsent⟩ := hs''
      obtain ⟨hlenSent, hanswers⟩ := answersInput_of_sent hlen hkept.kept hmade hsent
      exact .signed hreplies hok hopen (by rw [hmessages, hkept.length])
        (by rw [hmessages, hlenSent]) (by rw [hmessages]; exact hanswers)

end Batch

end Jade
