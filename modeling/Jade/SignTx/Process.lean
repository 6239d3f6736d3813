/-
**`sign_tx` and `sign_liquid_tx` (`process/sign_tx.c`).**

The first message is checked in full, its outputs are confirmed, and it is answered. Then the host
sends a message for each input, the fee is confirmed, and only then anything is signed.

There are two flows. With anti-exfil signatures every message is answered before the next one is
loaded: an input with the commitment of the signer, and `get_signature` with a signature. In the
older one the messages about inputs get no answer until all signatures are there, which then go out
in a batch, each under the id of its input.

Main definitions:

* `Jade.openRequest`, `Jade.confirmOutputs` — up to the first answer;
* `Jade.readInputs`, `Jade.hashTaprootInputs` — the inputs;
* `Jade.confirmTxFee` — the fee;
* `Jade.sendAeSignatures`, `Jade.sendEcSignatures` — the signatures of the two flows;
* `Jade.signTx` — the process.
-/

import Jade.Process.Session
import Jade.SignTx.Inputs

set_option relaxedAutoImplicit false
set_option autoImplicit false

namespace Jade

open Exec

/-- The data of an answer. -/
inductive TxData
  | signerCommitment (bytes : Bytes)
  | signature (bytes : Bytes)
  deriving DecidableEq

/-- The process, with the screens that were answered. -/
abbrev SignTx (V : Type) : Type → Type := Session V (Screen × Bool) TxData

def CBOR_RPC_NETWORK_MISMATCH : ℤ := -32003

def DECLINED_TX : String := "User declined to sign transaction"

section Model

variable {K V : Type} (L : SignTxLib K V)

/-! ### The first message -/

/-- `jade_process_check_network` -/
def checkMessageNetwork (params : V) : Except SignErr Network := do
  let name ← liftFault (copiedText L.cbor "network" MAX_NETWORK_NAME_LEN params)
  match if name.isEmpty then networkFromName none else networkFromText name with
  | none => badParameter "Failed to extract valid network from parameters"
  | some network =>
      if L.networkConsistent network then pure network
      else .error (.reject CBOR_RPC_NETWORK_MISMATCH "Network type inconsistent with prior usage")

/-- The name of the process. -/
def signTxMethod (forLiquid : Bool) : String := if forLiquid then "sign_liquid_tx" else "sign_tx"

/-- The first message: the network and the request. -/
def openRequest (forLiquid : Bool) (m : Incoming V) : Except SignErr (Network × SignTxRequest) := do
  liftFault (getter
    (assertCurrentMessage L.cbor.toTinyCborStrings m.value (ascii (signTxMethod forLiquid))))
  liftFault (jadeVerify (L.keychainUserdata == m.source))
  let params ← msgParams L.cbor.toTinyCborStrings m
  let network ← checkMessageNetwork L params
  let request ← readSignTx L network forLiquid params
  pure (network, request)

/-- Go on when the user has accepted. -/
def unlessRefused (errmsg : String) (accepts : Bool) : SignTx V Unit :=
  check accepts (.reject CBOR_RPC_USER_CANCELLED errmsg)

/-- The assets of a swap, or the outputs. -/
def confirmOutputs (network : Network) (forLiquid : Bool) (request : SignTxRequest) :
    SignTx V Unit :=
  if forLiquid then
    let hasAssetInfo := L.hasAssetInfo network request.assets
    if request.txType = .swap then do
      let accepts ← Dialogue.onScreens
        (showElementsSwapActivity L.user hasAssetInfo request.isPartial request.inSums
          request.outSums)
      unlessRefused "User declined to sign swap transaction" accepts
    else do
      let accepts ← Dialogue.onScreens (showElementsTransactionOutputsActivity L.user hasAssetInfo
        request.tx (request.outputInfo.getD []))
      unlessRefused DECLINED_TX accepts
  else do
    let accepts ← Dialogue.onScreens
      (showBtcTransactionOutputsActivity L.user request.tx request.outputInfo)
    unlessRefused DECLINED_TX accepts

/-! ### The inputs -/

/-- The commitment of the signer, which only one of the flows sends. -/
def answerInput (request : SignTxRequest) (m : Incoming V) (commitment : Bytes) : SignTx V Unit :=
  if request.useAeSignatures then
    replyToMessageBytes L.cbor.toTinyCborStrings m commitment (.signerCommitment commitment)
  else pure ()

/-- What the message about an input comes to. -/
def readTxInput (forLiquid : Bool) (request : SignTxRequest) (input : TxInput) (index : ℕ)
    (m : Incoming V) (st : SigningState) : Except SignErr (SigningState × Bytes) := do
  let params ← msgParams L.cbor.toTinyCborStrings m
  let id ← liftFault (getter (rpcGetId L.cbor.toTinyCbor m.value))
  liftFault (jadeVerify (!id.isEmpty))
  processInput L forLiquid request input index params id st

/-- One turn of the loop over the inputs. -/
def readInput (forLiquid : Bool) (request : SignTxRequest) (st : SigningState)
    (entry : TxInput × ℕ) : SignTx V SigningState := do
  Dialogue.take
  let m ← expectMessage L.cbor.toTinyCborStrings "tx_input"
    "Unexpected message, expecting 'tx_input'"
  let out ← orThrow (readTxInput L forLiquid request entry.1 entry.2 m st)
  answerInput L request m out.2
  pure out.1

/-- The loop over the inputs. -/
def readInputs (forLiquid : Bool) (request : SignTxRequest) : SignTx V SigningState :=
  request.tx.inputs.zipIdx.foldlM (readInput L forLiquid request) { inSums := request.inSums }

/-- The block that the hashes of taproot inputs commit to. -/
def genesisBlockhash (network : Network) (forLiquid : Bool) (st : SigningState) : Option Bytes :=
  if forLiquid && decide (st.numP2trToSign ≠ 0) then networkToGenesisHash network else none

/-- The loop over the taproot inputs. -/
def hashTaprootInputs (network : Network) (forLiquid : Bool) (request : SignTxRequest)
    (st : SigningState) : SignTx V SigningState :=
  match hashTaproot L request.tx st.maps (genesisBlockhash network forLiquid st) st.inputs.zipIdx
      st.numP2trToSign with
  | none => do
      -- with anti-exfil signatures there is no message at hand
      Dialogue.take
      reject CBOR_RPC_INTERNAL_ERROR "Failed to make taproot tx input hash"
  | some inputs => pure { st with inputs }

/-! ### The fee -/

/-- An error after the inputs: with anti-exfil signatures the next message is loaded to send it back
on. -/
def rejectLate (request : SignTxRequest) (code : ℤ) (errmsg : String) : SignTx V Unit :=
  if request.useAeSignatures then do
    Dialogue.take
    reject code errmsg
  else reject code errmsg

/-- The answer of the user to the fee. -/
def unlessFeeRefused (request : SignTxRequest) (accepts : Bool) : SignTx V Unit :=
  if accepts then pure () else rejectLate request CBOR_RPC_USER_CANCELLED DECLINED_TX

def confirmBtcTxFee (request : SignTxRequest) (st : SigningState) : SignTx V Unit := do
  let outputAmount ← orFault (wallyVerify (L.totalOutputSatoshi request.tx))
  if st.inputAmount < outputAmount then
    rejectLate request CBOR_RPC_BAD_PARAMETERS "Total input amounts less than total output amounts"
  else do
    let accepts ← Dialogue.onScreens (showBtcFeeConfirmationActivity L.user request.tx
      request.outputInfo st.flavour st.inputAmount outputAmount)
    unlessFeeRefused request accepts

def confirmLiquidTxFee (request : SignTxRequest) (st : SigningState) : SignTx V Unit :=
  if !(assetSummaryValidate st.inSums && assetSummaryValidate request.outSums) then
    rejectLate request CBOR_RPC_BAD_PARAMETERS
      "Failed to validate input/output summary information"
  else if request.isPartial && request.explicitFee == 0 then pure ()
  else do
    let accepts ← Dialogue.onScreens (showElementsFeeConfirmationActivity L.user st.flavour
      request.explicitFee (request.txType == .swap) request.isPartial)
    unlessFeeRefused request accepts

def confirmTxFee (forLiquid : Bool) (request : SignTxRequest) (st : SigningState) : SignTx V Unit :=
  if forLiquid then confirmLiquidTxFee L request st else confirmBtcTxFee L request st

/-- A note when there is nothing to sign. -/
def showNothingToSign (st : SigningState) : SignTx V Unit :=
  if st.numToSign = 0 then
    Dialogue.onScreens (modify fun answers => answers ++ [(.nothingToSign, true)])
  else pure ()

/-! ### Signatures -/

/-- The entropy of the host, which goes with a commitment. -/
def aeHostEntropy (data : InputData) (params : V) : Except SignErr (Option Bytes) := do
  let entropy ← liftFault (getter (rpcGetBytesPtr L.cbor.toTinyCbor "ae_host_entropy" params))
  let size := (entropy.getD []).length
  if size ≠ 0 ∧ size ≠ WALLY_S2C_DATA_LEN then
    .error (.reject CBOR_RPC_PROTOCOL_ERROR
      "Failed to extract valid host entropy from parameters")
  else if data.useAe != decide (size ≠ 0) then
    .error (.reject CBOR_RPC_PROTOCOL_ERROR
      "Failed to extract valid host commitment and entropy from parameters")
  else pure entropy

/-- A signature, empty for an input that is not signed. -/
def aeSignature (network : Network) (data : InputData) (m : Incoming V) : Except SignErr Bytes :=
  if data.path.isEmpty then .ok []
  else do
    let params ← msgParams L.cbor.toTinyCborStrings m
    let entropy ← aeHostEntropy L data params
    match ← liftFault (walletSignTxInputHash L network data entropy) with
    | none => internalError "Failed to sign tx input"
    | some signature => do
        assertThat (!signature.isEmpty)
        pure signature

/-- One turn of the loop of `send_ae_signature_replies`. -/
def sendAeSignature (network : Network) (data : InputData) : SignTx V Unit := do
  Dialogue.take
  let m ← expectMessage L.cbor.toTinyCborStrings "get_signature"
    "Unexpected message, expecting 'get_signature'"
  let signature ← orThrow (aeSignature L network data m)
  replyToMessageBytes L.cbor.toTinyCborStrings m signature (.signature signature)

/-- `send_ae_signature_replies` -/
def sendAeSignatures (network : Network) (inputs : List InputData) : SignTx V Unit :=
  inputs.forM (sendAeSignature L network)

/-- The size of the buffer of `send_ec_signature_replies`. -/
def EC_REPLY_LEN : ℕ := 256

/-- A signature without the entropy of a host; `none` when it cannot be made. -/
def ecSignature (network : Network) (data : InputData) : Except Fault (Option Bytes) :=
  if data.path.isEmpty then .ok (some [])
  else do
    match ← walletSignTxInputHash L network data none with
    | none => pure none
    | some signature => do
        jadeVerify (!signature.isEmpty)
        pure (some signature)

/-- The first loop of `send_ec_signature_replies`, which gives up when a signature fails. -/
def makeEcSignatures (network : Network) (source : UInt8) :
    List InputData → SignTx V (Option (List Bytes))
  | [] => pure (some [])
  | data :: inputs => do
      match ← orFault (ecSignature L network data) with
      | none => do
          replyTo source
            (rejectMessageWithId data.id CBOR_RPC_INTERNAL_ERROR "Failed to sign tx input"
            EC_REPLY_LEN) (.error CBOR_RPC_INTERNAL_ERROR "Failed to sign tx input")
          pure none
      | some signature => do
          let signatures ← makeEcSignatures network source inputs
          pure (signatures.map (signature :: ·))

/-- The signature of an input, under the id of its message. -/
def sendEcSignature (source : UInt8) (entry : InputData × Bytes) : SignTx V Unit :=
  replyTo source
    (replyToMessageResultWithId entry.1.id (stringHead entry.2.length + entry.2.length)
      EC_REPLY_LEN)
    (.data (.signature entry.2))

/-- `send_ec_signature_replies` -/
def sendEcSignatures (network : Network) (source : UInt8) (inputs : List InputData) :
    SignTx V Unit := do
  match ← makeEcSignatures L network source inputs with
  | none => pure ()
  | some signatures => (inputs.zip signatures).forM (sendEcSignature source)

/-! ### The process -/

/-- From the last confirmation to the signatures. -/
def sendSignatures (network : Network) (source : UInt8) (request : SignTxRequest)
    (st : SigningState) : SignTx V Unit := do
  showNothingToSign st
  if request.useAeSignatures then sendAeSignatures L network st.inputs
  else sendEcSignatures L network source st.inputs

/-- What is done with a request. -/
def signRequest (network : Network) (forLiquid : Bool) (m : Incoming V) (request : SignTxRequest) :
    SignTx V Unit := do
  confirmOutputs L network forLiquid request
  replyToMessageOk L.cbor.toTinyCborStrings m
  let read ← readInputs L forLiquid request
  let st ← hashTaprootInputs L network forLiquid request read
  confirmTxFee L forLiquid request st
  sendSignatures L network m.source request st

/-- `sign_tx_impl`, up to its errors. -/
def signTxImpl (forLiquid : Bool) : SignTx V Unit := do
  match ← currentMessage with
  | none => throw (.fault .assert)
  | some m => do
      let opened ← orThrow (openRequest L forLiquid m)
      signRequest L opened.1 forLiquid m opened.2

/-- `sign_tx_process` and `sign_liquid_tx_process` -/
def signTx (forLiquid : Bool) : SignTx V Unit :=
  answerErrors L.cbor.toTinyCborStrings (signTxImpl L forLiquid)

end Model

end Jade
