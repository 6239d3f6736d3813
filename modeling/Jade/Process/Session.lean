/-
**A process and its host (`process.c`, `process/process_utils.h`).**

A process owns one message at a time. It answers it through one of the helpers, which look up the id
in the message and send to the port the message came in on, and it lets go of it to load the next
one. What goes wrong on the way jumps to the end with an error, for which the message at hand is
rejected; without a message there is nothing to reject.

Main definitions:

* `Jade.Incoming`, `Jade.Outgoing`, `Jade.Session` — messages, answers, and a process that deals
  with them;
* `Jade.expectMessage`, `Jade.replyWith`, `Jade.rejectMessage`, `Jade.answerErrors` — the steps;
* `Jade.IdOf`, `Jade.IsAnswer` — an answer belongs to a message.

Main results:

* `Jade.idOf_answer`, `Jade.idOf_of_plain` — the ids answers are given under;
* `Jade.sat_replyWith_turns`, `Jade.sat_answerErrors_turns` — the steps take turns with the host.
-/

import Jade.Lib.Dialogue
import Jade.Process.Dispatch
import Jade.Utils.Handler

set_option relaxedAutoImplicit false
set_option autoImplicit false

namespace Jade

open Exec Dialogue

/-! ### Messages and answers -/

/-- `cbor_msg_t`: a message, with the port it came in on. -/
structure Incoming (V : Type) where
  source : UInt8
  value : V

/-- What an answer holds. -/
inductive Body (R : Type)
  | ok
  | data (r : R)
  | error (code : ℤ) (message : String)
  deriving DecidableEq

/-- An answer, with the port it goes to and the id it is given under. -/
structure Outgoing (R : Type) where
  source : UInt8
  id : Bytes
  body : Body R
  deriving DecidableEq

/-- A process that talks to its host. -/
abbrev Session (V S R : Type) : Type → Type :=
  EStateM SignErr (Dialogue.State (Incoming V) S (Outgoing R))

section Steps

variable {V S R : Type} (C : TinyCborStrings V)

/-- A computation that may fail. -/
def orThrow {σ α : Type} : Except SignErr α → EStateM SignErr σ α
  | .ok a => pure a
  | .error e => throw e

@[simp] theorem sat_orThrow {σ α : Type} {Q : α → σ → Prop} {E : SignErr → σ → Prop} {s : σ}
    (x : Except SignErr α) :
    Sat (orThrow x) Q E s ↔ (∀ a, x = .ok a → Q a s) ∧ ∀ e, x = .error e → E e s := by
  cases x with
  | ok a => simp [orThrow]
  | error e => simp [orThrow]

/-- The message of the process. -/
def currentMessage : Session V S R (Option (Incoming V)) := do
  let s ← get
  pure s.current

/-- `IS_CURRENT_MESSAGE`, with the rejection of any other message. -/
def expectMessage (method errmsg : String) : Session V S R (Incoming V) := do
  match ← currentMessage with
  | none => reject CBOR_RPC_PROTOCOL_ERROR errmsg
  | some m => do
      if ← orFault (getter (isCurrentMessage C m.value (ascii method))) then pure m
      else reject CBOR_RPC_PROTOCOL_ERROR errmsg

/-- `GET_MSG_PARAMS` -/
def msgParams (m : Incoming V) : Except SignErr V :=
  match getMsgParams C m.value with
  | none => .error (.reject CBOR_RPC_BAD_PARAMETERS "Expecting parameters map")
  | some params => .ok params

/-- Send what a helper has written to a port. -/
def replyTo (source : UInt8) (x : Except WireAbort Answer) (body : Body R) :
    Session V S R Unit := do
  let out ← orFault (getter x)
  Dialogue.send { source, id := out.id, body }

/-- Send it to where a message came from. -/
def replyWith (m : Incoming V) (x : Except WireAbort Answer) (body : Body R) : Session V S R Unit :=
  replyTo m.source x body

/-- `jade_process_reply_to_message_ok` -/
def replyToMessageOk (m : Incoming V) : Session V S R Unit :=
  replyWith m (answer C m.value replyOk) .ok

/-- `jade_process_reply_to_message_bytes`; the length is a `size_t`. -/
def replyToMessageBytes (m : Incoming V) (bytes : Bytes) (r : R) : Session V S R Unit :=
  if fits : bytes.length < 2 ^ 32 then replyWith m (answer C m.value (.bytes bytes fits)) (.data r)
  else throw (.fault .assert)

/-- `jade_process_reject_message`; no message, no rejection. -/
def rejectMessage (code : ℤ) (errmsg : String) : Session V S R Unit := do
  match ← currentMessage with
  | none => pure ()
  | some m =>
      replyWith m (rejectMessageEx C m.value code errmsg JADE_MSG_REPLY_LEN) (.error code errmsg)

/-- The message at hand is rejected for an error. -/
def answerErrors (x : Session V S R Unit) : Session V S R Unit :=
  tryCatch x fun
    | .reject code errmsg => rejectMessage C code errmsg
    | .fault f => throw (.fault f)

/-! ### Ids -/

/-- What an answer to a message is given under: its id where it stands in the message, or a copy,
which ends at a NUL byte and is replaced when it is empty. -/
inductive IdOf (value : V) : Bytes → Prop
  | inPlace {id : Bytes} : requireIdPtr C value = .ok id → IdOf value id
  | copied {id : Bytes} : rpcGetId C.toTinyCbor value = .ok id →
      IdOf value (Bytes.cstr (if id = [] then [0x30, 0x30] else id))

/-- The answer goes to where the message came from, under its id. -/
structure IsAnswer (m : Incoming V) (out : Outgoing R) : Prop where
  source : out.source = m.source
  id : IdOf C m.value out.id

variable {C}

theorem idOf_result {value : V} {id : Bytes} {payload size : ℕ} {a : Answer}
    (hid : rpcGetId C.toTinyCbor value = .ok id) (hne : id.length ≠ 0)
    (h : replyToMessageResultWithId id payload size = .ok a) : IdOf C value a.id := by
  obtain ⟨_, -, h⟩ := bind_eq_ok.1 h
  obtain ⟨_, -, h⟩ := bind_eq_ok.1 h
  obtain rfl := pure_eq_ok.1 h
  have hcopied := IdOf.copied (C := C) hid
  rwa [if_neg (fun hnil => hne (by rw [hnil]; rfl))] at hcopied

theorem idOf_rejectMessageEx {value : V} {code : ℤ} {errmsg : String} {size : ℕ} {a : Answer}
    (h : rejectMessageEx C value code errmsg size = .ok a) : IdOf C value a.id := by
  obtain ⟨id, hid, h⟩ := bind_eq_ok.1 h
  obtain ⟨_, -, h⟩ := bind_eq_ok.1 h
  obtain ⟨_, -, h⟩ := bind_eq_ok.1 h
  obtain rfl := pure_eq_ok.1 h
  exact .copied hid

/-- Every helper answers under an id of the message. -/
theorem idOf_answer {value : V} {ending : Ending} {a : Answer}
    (h : answer C value ending = .ok a) : IdOf C value a.id := by
  cases ending with
  | result payload size fits =>
      obtain ⟨id, hid, h⟩ := bind_eq_ok.1 h
      obtain ⟨_, hne, h⟩ := bind_eq_ok.1 h
      refine idOf_result hid ?_ h
      intro hzero
      rw [jadeAssert, if_neg (by simp [hzero])] at hne
      cases hne
  | bytes data fits =>
      obtain ⟨id, hid, h⟩ := bind_eq_ok.1 h
      obtain ⟨_, -, h⟩ := bind_eq_ok.1 h
      obtain rfl := pure_eq_ok.1 h
      exact .inPlace hid
  | sequence seqnum seqlen data buflen le fits =>
      obtain ⟨id, hid, h⟩ := bind_eq_ok.1 h
      obtain ⟨_, -, h⟩ := bind_eq_ok.1 h
      obtain ⟨_, -, h⟩ := bind_eq_ok.1 h
      obtain rfl := pure_eq_ok.1 h
      exact .inPlace hid
  | reject code message fits => exact idOf_rejectMessageEx h

/-- A message whose id is a text in one piece, without a NUL byte, has one id. -/
theorem idOf_of_plain (hC : C.Lawful) {bs : Bytes} {n : ℕ} {value : V}
    (hnext : C.reader.next bs = some (n, value))
    (hvalid : rpcRequestValid C.toTinyCbor value = true) (hplain : PlainId C value)
    (hnul : NoNulId C value) {id : Bytes} (h : IdOf C value id) :
    textOf C "id" value = some id := by
  obtain ⟨id', htext, hid', hne, -, hptr⟩ := id_of_valid hC hnext hvalid
  cases h with
  | inPlace hid =>
      obtain ⟨found, hfound, h⟩ := bind_eq_ok.1 hid
      obtain ⟨_, -, h⟩ := bind_eq_ok.1 h
      rcases hptr with ⟨-, hget⟩ | ⟨hnot, -⟩
      · obtain rfl : some id' = found := Except.ok.inj (hget.symm.trans hfound)
        obtain rfl := pure_eq_ok.1 h
        exact htext
      · exact absurd hplain hnot
  | copied hid =>
      obtain rfl : id' = _ := Except.ok.inj (hid'.symm.trans hid)
      rw [if_neg hne, cstr_eq_self (hnul id' htext)]
      exact htext

end Steps

/-! ### Taking turns -/

section TakingTurns

variable {V S R : Type} {C : TinyCborStrings V} {m₀ m : Incoming V}
  {s : Dialogue.State (Incoming V) S (Outgoing R)}

variable (C m₀) in
/-- An error can be answered: a message is at hand that has no answer yet, or none is left. -/
def CanReject (s : Dialogue.State (Incoming V) S (Outgoing R)) : Prop :=
  (∃ m, AtMessage (IsAnswer C) m₀ m s) ∨ (s.current = none ∧ AllAnswered (IsAnswer C) m₀ s)

variable (C m₀) in
/-- The device restarts, and has answered no message twice. -/
def Restarts (e : SignErr) (s : Dialogue.State (Incoming V) S (Outgoing R)) : Prop :=
  e.isFault = true ∧ ∃ pending, Turns (IsAnswer C) m₀ s.events pending

variable (C m₀) in
/-- After an error: it can be answered, or the device restarts. -/
def Stopped (e : SignErr) (s : Dialogue.State (Incoming V) S (Outgoing R)) : Prop :=
  CanReject C m₀ s ∨ Restarts C m₀ e s

theorem CanReject.restarts (h : CanReject C m₀ s) (f : Fault) : Restarts C m₀ (.fault f) s := by
  rcases h with ⟨m, -, hturns⟩ | ⟨-, hturns⟩
  · exact ⟨rfl, _, hturns⟩
  · exact ⟨rfl, _, hturns⟩

theorem stopped_of_atMessage (h : AtMessage (IsAnswer C) m₀ m s) (e : SignErr) :
    Stopped C m₀ e s := .inl (.inl ⟨m, h⟩)

theorem canReject_take (h : AllAnswered (IsAnswer C) m₀ s) : CanReject C m₀ s.take := by
  rcases h.take with ⟨m, -, hm⟩ | hlost
  · exact .inl ⟨m, hm⟩
  · exact .inr hlost

/-- A message at hand is answered, or the device restarts. -/
theorem sat_replyWith_turns (h : AtMessage (IsAnswer C) m₀ m s) {x : Except WireAbort Answer}
    (hx : ∀ a, x = .ok a → IdOf C m.value a.id) (body : Body R) :
    Sat (replyWith m x body) (fun _ => AllAnswered (IsAnswer C) m₀) (Restarts C m₀) s := by
  simp only [replyWith, replyTo, sat_bind, sat_orFault, sat_send]
  constructor
  · intro a ha
    cases hans : x with
    | error e =>
        rw [hans] at ha
        cases ha
    | ok a' =>
        rw [hans] at ha
        obtain rfl : a' = a := Except.ok.inj ha
        exact h.send ⟨rfl, hx _ hans⟩
  · intro f _
    exact ⟨rfl, _, h.2⟩

theorem sat_replyToMessageOk_turns (h : AtMessage (IsAnswer C) m₀ m s) :
    Sat (replyToMessageOk C m) (fun _ => AllAnswered (IsAnswer C) m₀) (Restarts C m₀) s :=
  sat_replyWith_turns h (fun _ => idOf_answer) _

theorem sat_replyToMessageBytes_turns (h : AtMessage (IsAnswer C) m₀ m s) (bytes : Bytes) (r : R) :
    Sat (replyToMessageBytes C m bytes r) (fun _ => AllAnswered (IsAnswer C) m₀) (Restarts C m₀)
      s := by
  rw [replyToMessageBytes, sat_dite]
  exact ⟨fun _ => sat_replyWith_turns h (fun _ => idOf_answer) _,
    fun _ => (sat_throw _).2 ⟨rfl, _, h.2⟩⟩

theorem sat_rejectMessage_turns (h : CanReject C m₀ s) (code : ℤ) (errmsg : String) :
    Sat (rejectMessage C code errmsg) (fun _ => AllAnswered (IsAnswer C) m₀) (Restarts C m₀) s := by
  simp only [rejectMessage, currentMessage, sat_bind, sat_get, sat_pure]
  rcases h with ⟨m, hm⟩ | ⟨hnone, hall⟩
  · rw [hm.1]
    exact sat_replyWith_turns hm (fun _ => idOf_rejectMessageEx) _
  · rw [hnone]
    exact (sat_pure _).2 hall

/-- An unexpected message is rejected. -/
theorem sat_expectMessage_turns (h : CanReject C m₀ s) (method errmsg : String) :
    Sat (expectMessage C method errmsg)
      (fun m s' => s' = s ∧ AtMessage (IsAnswer C) m₀ m s') (Stopped C m₀) s := by
  simp only [expectMessage, currentMessage, sat_bind, sat_get, sat_pure]
  rcases h with ⟨m, hm⟩ | ⟨hnone, hall⟩
  · rw [hm.1]
    simp only [sat_bind, sat_orFault, sat_ite, sat_pure, sat_reject]
    exact ⟨fun _ _ => ⟨fun _ => ⟨trivial, hm⟩, fun _ => stopped_of_atMessage hm _⟩,
      fun _ _ => stopped_of_atMessage hm _⟩
  · rw [hnone]
    exact (sat_reject _ _).2 (.inl (.inr ⟨hnone, hall⟩))

/-- **A process that takes turns up to its errors takes turns.** -/
theorem sat_answerErrors_turns {x : Session V S R Unit}
    (h : Sat x (fun _ => AllAnswered (IsAnswer C) m₀) (Stopped C m₀) s) :
    Sat (answerErrors C x) (fun _ => AllAnswered (IsAnswer C) m₀) (Restarts C m₀) s := by
  rw [answerErrors, sat_tryCatch]
  refine h.mono (fun _ _ hall => hall) ?_
  intro e s' he
  cases e with
  | reject code errmsg =>
      rcases he with hreject | ⟨hfault, -⟩
      · exact sat_rejectMessage_turns hreject code errmsg
      · cases hfault
  | fault f =>
      rw [sat_throw]
      exact he.elim (fun hreject => hreject.restarts f) (fun hrestarts => hrestarts)

end TakingTurns

end Jade
