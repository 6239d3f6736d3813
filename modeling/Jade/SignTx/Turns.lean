/-
**The two message flows of `sign_tx` (`process/sign_tx.c`).**

With anti-exfil signatures the device and its host take turns: whatever the host sends and whatever
the user does, every message that the process has loaded is answered once, to where it came from and
under its id, before the next one is loaded. An error after the inputs loads one more message to
have something to answer; when the connection is lost meanwhile, the error is dropped.

Without them the messages about the inputs pile up unanswered. There are two ways out: an error is
sent on one of them, and the others stay without an answer; or every one of them gets its signature
in the end, in order.

Main results:

* `Jade.sat_signTxImpl_turns` — the anti-exfil flow, up to an error;
* `Jade.signTx_turns` — **with anti-exfil signatures the process takes turns with its host**.
-/

import Jade.Bip85.Digests
import Jade.SignMessage.Request
import Jade.SignTx.Process
import Jade.SignTx.UnusualPath

set_option relaxedAutoImplicit false
set_option autoImplicit false

namespace Jade

open Exec Dialogue

/-! ### A small wallet -/

section Toy

/-- The transaction spent, and one that spends its output. -/
def toySpentTx : Tx := { outputs := [{ satoshi := 1000, script := [0x51] }] }

def toySpendingTx : Tx where
  inputs := [{ txhash := List.replicate 32 7, index := 0 }]
  outputs := [{ satoshi := 900, script := [0x51] }]

/-- A registry that knows no asset. -/
def toyAssetLib : AssetLib Bytes where
  cborValueToJson _ := none
  sha256 _ := none
  generateEntropy _ _ _ := none
  calculateAsset _ := none
  hexToBytes _ := none
  snapshot _ _ := none

/-- A wallet with one key, a user who accepts whatever he is shown, and two transactions of one
byte. -/
def toySignTxLib : SignTxLib Unit Bytes where
  cbor := tinyCborArrays
  blinding := regtestBlinding
  scripts := pairAddressLib.toScriptLib
  assets := toyAssetLib
  messages := toyMessageWally
  user _ _ := true
  keychainUserdata := 1
  networkConsistent _ := true
  txFromBytes bytes _ :=
    if bytes = [1] then some toySpendingTx else if bytes = [2] then some toySpentTx else none
  txIsElements _ := false
  txGetTxid tx := if tx = toySpentTx then some (List.replicate 32 7) else none
  totalOutputSatoshi tx := some (tx.outputs.map TxOutput.satoshi).sum
  inputSignatureHash _ _ _ _ _ _ _ := some (List.replicate 32 0)
  hexFromBytes bytes := bytes
  ecSigGrindR key hash := some (key ++ hash)
  bip341Tweak key _ := some key
  schnorrSig key hash _ := some (key ++ hash)
  ecSigToDer signature := some (0x30 :: signature)

def toyIncoming (method : String) (params : Bytes) : Incoming Bytes where
  source := 1
  value := toyRequestHead method ++ params

/-- The request to sign, with anti-exfil signatures or without. -/
def toySignTx (useAe : Bool) : Incoming Bytes :=
  toyIncoming "sign_tx" (0xa4 :: shortText "network" ++ shortText "mainnet" ++
    shortText "num_inputs" ++ [0x01] ++ shortText "txn" ++ [0x41, 0x01] ++
    shortText "use_ae_signatures" ++ [if useAe then 0xf5 else 0xf4])

/-- The message about its input, and the one that fetches the signature. -/
def toyTxInput : Incoming Bytes :=
  toyIncoming "tx_input" (0xa4 :: shortText "is_witness" ++ [0xf5] ++ shortText "path" ++
    [0x81, 0x00] ++ shortText "script" ++ [0x41, 0x51] ++ shortText "input_tx" ++ [0x41, 0x02])

def toyGetSignature : Incoming Bytes := toyIncoming "get_signature" [0xa0]

/-- The number of answers of a run that returns. -/
def numReplies {V : Type} :
    EStateM.Result SignErr (Dialogue.State (Incoming V) (Screen × Bool) (Outgoing TxData)) Unit →
      Option ℕ
  | .ok _ s => some (outbox s.events).length
  | .error _ _ => none

/-- The signature that is sent last in a run that returns. -/
def lastSignature {V : Type} :
    EStateM.Result SignErr (Dialogue.State (Incoming V) (Screen × Bool) (Outgoing TxData)) Unit →
      Option Bytes
  | .ok _ s =>
      match (outbox s.events).getLast?.map Outgoing.body with
      | some (.data (.signature signature)) => some signature
      | _ => none
  | .error _ _ => none

theorem exists_of_lastSignature {V : Type} {u : Unit}
    {s : Dialogue.State (Incoming V) (Screen × Bool) (Outgoing TxData)}
    (h : (lastSignature (.ok u s)).any (fun signature => !signature.isEmpty) = true) :
    ∃ out signature, .sent out ∈ s.events ∧ out.body = .data (.signature signature) ∧
      signature ≠ [] := by
  rw [lastSignature] at h
  split at h
  · next signature hlast =>
      obtain ⟨out, hout, hbody⟩ := Option.map_eq_some_iff.1 hlast
      obtain ⟨event, hmem, hevent⟩ := List.mem_filterMap.1 (List.mem_of_getLast? hout)
      have hsent : event = .sent out := by
        cases event with
        | sent reply => rw [Option.some.inj hevent]
        | took _ => cases hevent
        | lost => cases hevent
        | shown _ => cases hevent
      refine ⟨out, signature, hsent ▸ hmem, hbody, ?_⟩
      rintro rfl
      cases h
  · cases h

end Toy

section Turns

variable {K V : Type} {L : SignTxLib K V} {forLiquid : Bool} {network : Network}
  {request : SignTxRequest} {m₀ m : Incoming V}
  {s : Dialogue.State (Incoming V) (Screen × Bool) (Outgoing TxData)}

variable (L) in
/-- Every message was answered. -/
abbrev Caught (m₀ : Incoming V)
    (s : Dialogue.State (Incoming V) (Screen × Bool) (Outgoing TxData)) :
    Prop := AllAnswered (IsAnswer L.cbor.toTinyCborStrings) m₀ s

variable (L) in
/-- A message is at hand. -/
abbrev Holds (m₀ m : Incoming V)
    (s : Dialogue.State (Incoming V) (Screen × Bool) (Outgoing TxData)) : Prop :=
  AtMessage (IsAnswer L.cbor.toTinyCborStrings) m₀ m s

/-! ### Which flow it is -/

theorem readLiquid_useAe {params : V} {commitments : List Commitment} {request' : SignTxRequest}
    (h : readLiquid L params request commitments = .ok request') :
    request'.useAeSignatures = request.useAeSignatures := by
  obtain ⟨assets, -, h⟩ := bind_eq_ok.1 h
  cases assets with
  | none => cases h
  | some assets =>
      obtain ⟨_, -, h⟩ := bind_eq_ok.1 h
      obtain ⟨_, -, h⟩ := bind_eq_ok.1 h
      obtain ⟨_, -, h⟩ := bind_eq_ok.1 h
      obtain ⟨_, -, h⟩ := bind_eq_ok.1 h
      obtain rfl := pure_eq_ok.1 h
      rfl

/-- The flow is the one the host has asked for. -/
theorem readSignTx_useAe {params : V} (h : readSignTx L network forLiquid params = .ok request) :
    request.useAeSignatures =
      (rpcGetBoolean L.cbor.toTinyCbor "use_ae_signatures" params).getD false := by
  obtain ⟨⟨tx, fee⟩, -, h⟩ := bind_eq_ok.1 h
  cases forLiquid with
  | true =>
      obtain ⟨_, -, h⟩ := bind_eq_ok.1 h
      obtain ⟨_, -, h⟩ := bind_eq_ok.1 h
      rw [readLiquid_useAe h]
  | false =>
      obtain ⟨_, -, h⟩ := bind_eq_ok.1 h
      obtain rfl := pure_eq_ok.1 h
      rfl

variable (L) in
/-- Does the host ask for anti-exfil signatures? -/
def wantsAe (m : Incoming V) : Bool :=
  match getMsgParams L.cbor.toTinyCborStrings m.value with
  | none => false
  | some params => (rpcGetBoolean L.cbor.toTinyCbor "use_ae_signatures" params).getD false

theorem openRequest_eq_ok {opened : Network × SignTxRequest}
    (h : openRequest L forLiquid m = .ok opened) :
    ∃ params, getMsgParams L.cbor.toTinyCborStrings m.value = some params ∧
      checkMessageNetwork L params = .ok opened.1 ∧
      readSignTx L opened.1 forLiquid params = .ok opened.2 := by
  obtain ⟨_, -, h⟩ := bind_eq_ok.1 h
  obtain ⟨_, -, h⟩ := bind_eq_ok.1 h
  obtain ⟨params, hparams, h⟩ := bind_eq_ok.1 h
  obtain ⟨network, hnetwork, h⟩ := bind_eq_ok.1 h
  obtain ⟨request, hrequest, h⟩ := bind_eq_ok.1 h
  obtain rfl := pure_eq_ok.1 h
  refine ⟨params, ?_, hnetwork, hrequest⟩
  rw [msgParams] at hparams
  cases hget : getMsgParams L.cbor.toTinyCborStrings m.value with
  | none =>
      rw [hget] at hparams
      cases hparams
  | some params' =>
      rw [hget] at hparams
      exact congrArg some (Except.ok.inj hparams)

theorem openRequest_useAe {opened : Network × SignTxRequest}
    (h : openRequest L forLiquid m = .ok opened) :
    opened.2.useAeSignatures = wantsAe L m := by
  obtain ⟨params, hparams, -, hrequest⟩ := openRequest_eq_ok h
  rw [readSignTx_useAe hrequest, wantsAe, hparams]

/-! ### Up to the first answer -/

/-- The user is asked while a message is at hand. -/
theorem sat_onScreens_holds {α : Type} (x : Ui α) (h : Holds L m₀ m s) :
    Sat (onScreens x) (fun _ => Holds L m₀ m)
      (fun _ => Holds L m₀ m) s := by
  refine (Turns.onScreens x h.2).mono ?_ ?_
  · intro _ s' hs'
    exact ⟨hs'.1.trans h.1, hs'.2⟩
  · intro _ s' hs'
    exact ⟨hs'.1.trans h.1, hs'.2⟩

/-- The user is asked between two messages. -/
theorem sat_onScreens_caught {α : Type} (x : Ui α) (h : Caught L m₀ s) :
    Sat (onScreens x) (fun _ => Caught L m₀) (fun _ => Caught L m₀) s :=
  (Turns.onScreens x h).mono (fun _ _ hs' => hs'.2) fun _ _ hs' => hs'.2

theorem sat_confirmWith_turns (x : Ui Bool) (errmsg : String) (h : Holds L m₀ m s) :
    Sat (do let accepts ← onScreens x; unlessRefused errmsg accepts : SignTx V Unit)
      (fun _ => Holds L m₀ m) (Stopped L.cbor.toTinyCborStrings m₀) s := by
  rw [sat_bind]
  refine (sat_onScreens_holds x h).mono ?_ (fun _ _ hs' => stopped_of_atMessage hs' _)
  intro accepts s' hs'
  exact (sat_check _ _).2 ⟨fun _ => hs', fun _ => stopped_of_atMessage hs' _⟩

theorem sat_confirmOutputs_turns (h : Holds L m₀ m s) :
    Sat (confirmOutputs L network forLiquid request) (fun _ => Holds L m₀ m)
      (Stopped L.cbor.toTinyCborStrings m₀) s := by
  rw [confirmOutputs, sat_ite, sat_ite]
  exact ⟨fun _ => ⟨fun _ => sat_confirmWith_turns _ _ h, fun _ => sat_confirmWith_turns _ _ h⟩,
    fun _ => sat_confirmWith_turns _ _ h⟩

/-! ### The inputs -/

/-- A message is loaded, worked on, and answered. -/
theorem sat_exchange_turns {α : Type} (method errmsg : String)
    (work : Incoming V → Except SignErr α) (bytes : α → Bytes) (reply : α → TxData)
    (h : Caught L m₀ s) :
    Sat (do
        Dialogue.take
        let m ← expectMessage L.cbor.toTinyCborStrings method errmsg
        let out ← orThrow (work m)
        replyToMessageBytes L.cbor.toTinyCborStrings m (bytes out) (reply out)
        pure out : SignTx V α)
      (fun _ => Caught L m₀) (Stopped L.cbor.toTinyCborStrings m₀) s := by
  rw [sat_bind, sat_take, sat_bind]
  refine (sat_expectMessage_turns (canReject_take h) method errmsg).mono ?_ (fun _ _ hs' => hs')
  intro m s' hs'
  rw [sat_bind, sat_orThrow]
  refine ⟨fun out _ => ?_, fun _ _ => stopped_of_atMessage hs'.2 _⟩
  rw [sat_bind]
  refine (sat_replyToMessageBytes_turns hs'.2 _ _).mono ?_ (fun _ _ => .inr)
  intro _ s'' hs''
  exact (sat_pure _).2 hs''

theorem sat_readInput_turns (hae : request.useAeSignatures = true) (st : SigningState)
    (entry : TxInput × ℕ) (h : Caught L m₀ s) :
    Sat (readInput L forLiquid request st entry) (fun _ => Caught L m₀)
      (Stopped L.cbor.toTinyCborStrings m₀) s := by
  have hexchange := sat_exchange_turns "tx_input" "Unexpected message, expecting 'tx_input'"
    (fun m => readTxInput L forLiquid request entry.1 entry.2 m st) Prod.snd
    (fun out => .signerCommitment out.2) h
  simp only [readInput, answerInput, if_pos hae]
  simp only [sat_bind, sat_pure] at hexchange ⊢
  exact hexchange

theorem sat_readInputs_turns (hae : request.useAeSignatures = true) (h : Caught L m₀ s) :
    Sat (readInputs L forLiquid request) (fun _ => Caught L m₀)
      (Stopped L.cbor.toTinyCborStrings m₀) s :=
  sat_foldlM (fun _ _ => Caught L m₀) _
    (fun _ entry _ st _ _ hs => sat_readInput_turns hae st entry hs)
    _ _ h

theorem sat_takeAndReject {α : Type} (code : ℤ) (errmsg : String) (h : Caught L m₀ s) :
    Sat (do Dialogue.take; reject code errmsg : SignTx V α) (fun _ => Caught L m₀)
      (Stopped L.cbor.toTinyCborStrings m₀) s := by
  rw [sat_bind, sat_take, sat_reject]
  exact .inl (canReject_take h)

theorem sat_hashTaprootInputs_turns (st : SigningState) (h : Caught L m₀ s) :
    Sat (hashTaprootInputs L network forLiquid request st) (fun _ => Caught L m₀)
      (Stopped L.cbor.toTinyCborStrings m₀) s := by
  rw [hashTaprootInputs]
  split
  · exact sat_takeAndReject _ _ h
  · exact (sat_pure _).2 h

/-! ### The fee -/

theorem sat_rejectLate_turns (hae : request.useAeSignatures = true) (code : ℤ) (errmsg : String)
    (h : Caught L m₀ s) :
    Sat (rejectLate request code errmsg) (fun _ => Caught L m₀)
      (Stopped L.cbor.toTinyCborStrings m₀) s := by
  rw [rejectLate, if_pos hae]
  exact sat_takeAndReject code errmsg h

theorem stopped_of_caught {f : Fault} (h : Caught L m₀ s) :
    Stopped L.cbor.toTinyCborStrings m₀ (.fault f) s := .inr ⟨rfl, _, h⟩

/-- A screen of the fee; the screens themselves do not throw an error that is rejected. -/
theorem sat_feeScreen_turns (hae : request.useAeSignatures = true) (x : Ui Bool)
    (hx : ∀ log, Sat x (fun _ _ => True) (fun e _ => e.isFault = true) log) (h : Caught L m₀ s) :
    Sat (do let accepts ← onScreens x; unlessFeeRefused request accepts : SignTx V Unit)
      (fun _ => Caught L m₀) (Stopped L.cbor.toTinyCborStrings m₀) s := by
  rw [sat_bind]
  have hfault : Sat (onScreens x : SignTx V Bool) (fun _ _ => True)
      (fun e _ => e.isFault = true) s := (sat_onScreens x).2 (hx _)
  refine ((sat_onScreens_caught x h).and hfault).mono ?_ ?_
  · intro accepts s' hs'
    rw [unlessFeeRefused, sat_ite]
    exact ⟨fun _ => (sat_pure _).2 hs'.1, fun _ => sat_rejectLate_turns hae _ _ hs'.1⟩
  · intro e s' hs'
    exact .inr ⟨hs'.2, _, hs'.1⟩

theorem sat_showBtcFee_fault (user : User) (tx : Tx) (infos : Option (List OutputInfo))
    (flavour : ScriptFlavour) (inputAmount outputAmount : UInt64) (log : Answers) :
    Sat (showBtcFeeConfirmationActivity user tx infos flavour inputAmount outputAmount)
      (fun _ _ => True) (fun e _ => e.isFault = true) log := by
  simp only [showBtcFeeConfirmationActivity, showBtcFinalConfirmationActivity, sat_bind,
    sat_orFault, sat_ask, SignErr.isFault, implies_true, and_true]

theorem sat_confirmTxFee_turns (hae : request.useAeSignatures = true) (st : SigningState)
    (h : Caught L m₀ s) :
    Sat (confirmTxFee L forLiquid request st) (fun _ => Caught L m₀)
      (Stopped L.cbor.toTinyCborStrings m₀) s := by
  rw [confirmTxFee, sat_ite]
  constructor
  · intro _
    rw [confirmLiquidTxFee, sat_ite, sat_ite]
    refine ⟨fun _ => sat_rejectLate_turns hae _ _ h,
      fun _ => ⟨fun _ => (sat_pure _).2 h, fun _ => ?_⟩⟩
    exact sat_feeScreen_turns hae _ (fun log => (sat_ask _ _).2 trivial) h
  · intro _
    simp only [confirmBtcTxFee, sat_bind (orFault _), sat_orFault]
    refine ⟨fun outputAmount _ => ?_, fun _ _ => stopped_of_caught h⟩
    rw [sat_ite]
    exact ⟨fun _ => sat_rejectLate_turns hae _ _ h,
      fun _ => sat_feeScreen_turns hae _ (sat_showBtcFee_fault _ _ _ _ _ _) h⟩

/-! ### The signatures -/

theorem sat_sendAeSignature_turns (data : InputData) (h : Caught L m₀ s) :
    Sat (sendAeSignature L network data) (fun _ => Caught L m₀)
      (Stopped L.cbor.toTinyCborStrings m₀) s := by
  have hexchange := sat_exchange_turns "get_signature"
    "Unexpected message, expecting 'get_signature'"
    (aeSignature L network data) id .signature h
  simp only [sendAeSignature, sat_bind, sat_pure, id_eq] at hexchange ⊢
  exact hexchange

theorem sat_sendAeSignatures_turns (inputs : List InputData) (h : Caught L m₀ s) :
    Sat (sendAeSignatures L network inputs) (fun _ => Caught L m₀)
      (Stopped L.cbor.toTinyCborStrings m₀) s :=
  sat_forM (fun _ => Caught L m₀) inputs
    (fun _ data _ _ _ hs => sat_sendAeSignature_turns data hs) _ h

theorem sat_showNothingToSign_turns (st : SigningState) (h : Caught L m₀ s) :
    Sat (showNothingToSign st : SignTx V Unit) (fun _ => Caught L m₀)
      (Stopped L.cbor.toTinyCborStrings m₀) s := by
  rw [showNothingToSign, sat_ite]
  constructor
  · intro _
    rw [sat_onScreens, sat_modify]
    exact h.map_shown _
  · intro _
    exact (sat_pure _).2 h

/-! ### The run -/

/-- The anti-exfil flow, up to an error. -/
theorem sat_signTxImpl_turns (hae : wantsAe L m₀ = true) (h : Holds L m₀ m₀ s) :
    Sat (signTxImpl L forLiquid) (fun _ => Caught L m₀)
      (Stopped L.cbor.toTinyCborStrings m₀) s := by
  simp only [signTxImpl, currentMessage, sat_bind, sat_get, sat_pure, h.1, sat_orThrow]
  refine ⟨fun opened hopened => ?_, fun e _ => stopped_of_atMessage h e⟩
  have huse : opened.2.useAeSignatures = true := (openRequest_useAe hopened).trans hae
  rw [signRequest, sat_bind]
  refine (sat_confirmOutputs_turns h).mono ?_ (fun _ _ hs => hs)
  intro _ s₁ hs₁
  rw [sat_bind]
  refine (sat_replyToMessageOk_turns hs₁).mono ?_ (fun _ _ => .inr)
  intro _ s₂ hs₂
  rw [sat_bind]
  refine (sat_readInputs_turns huse hs₂).mono ?_ (fun _ _ hs => hs)
  intro read s₃ hs₃
  rw [sat_bind]
  refine (sat_hashTaprootInputs_turns read hs₃).mono ?_ (fun _ _ hs => hs)
  intro st s₄ hs₄
  rw [sat_bind]
  refine (sat_confirmTxFee_turns huse st hs₄).mono ?_ (fun _ _ hs => hs)
  intro _ s₅ hs₅
  rw [sendSignatures, sat_bind, if_pos huse]
  refine (sat_showNothingToSign_turns st hs₅).mono ?_ (fun _ _ hs => hs)
  intro _ s₆ hs₆
  exact sat_sendAeSignatures_turns _ hs₆

/-- **With anti-exfil signatures the process takes turns with its host**: whatever messages come and
whatever the user answers, each message that was loaded was answered exactly once, to the port it
came in on and under its id, before the next one was loaded. Only a device that restarts may leave
the last one unanswered. -/
theorem signTx_turns (L : SignTxLib K V) (forLiquid : Bool) (m₀ : Incoming V)
    (inbox : List (Incoming V)) (hae : wantsAe L m₀ = true) :
    Sat (signTx L forLiquid)
      (fun _ s => List.Forall₂ (IsAnswer L.cbor.toTinyCborStrings) (m₀ :: messages s.events)
        (outbox s.events) ∧ Turns (IsAnswer L.cbor.toTinyCborStrings) m₀ s.events none)
      (fun e s => e.isFault = true ∧
        ∃ pending, Turns (IsAnswer L.cbor.toTinyCborStrings) m₀ s.events pending)
      (.start m₀ inbox) := by
  refine (sat_answerErrors_turns (sat_signTxImpl_turns hae (atMessage_start m₀ inbox))).mono ?_
    (fun _ _ h => h)
  intro _ s h
  obtain ⟨answered, hmessages, hpairs⟩ := Turns.forall₂ h
  rw [Option.toList_none, List.append_nil] at hmessages
  exact ⟨hmessages ▸ hpairs, h⟩

/-- The small wallet signs in three turns. -/
theorem signTx_turns_toy :
    ∃ s, (signTx toySignTxLib false).run (.start (toySignTx true) [toyTxInput, toyGetSignature]) =
        .ok () s ∧
      (outbox s.events).length = 3 ∧
      List.Forall₂ (IsAnswer toySignTxLib.cbor.toTinyCborStrings)
        (toySignTx true :: messages s.events) (outbox s.events) := by
  have hsat := signTx_turns toySignTxLib false (toySignTx true) [toyTxInput, toyGetSignature]
    (by decide +kernel)
  have hnum : numReplies ((signTx toySignTxLib false).run
      (.start (toySignTx true) [toyTxInput, toyGetSignature])) = some 3 := by decide +kernel
  cases hrun : (signTx toySignTxLib false).run
      (.start (toySignTx true) [toyTxInput, toyGetSignature]) with
  | ok u s =>
      rw [hrun] at hnum
      exact ⟨s, rfl, Option.some.inj hnum, (hsat.ok hrun).1⟩
  | error e s =>
      rw [hrun] at hnum
      cases hnum

end Turns

end Jade
