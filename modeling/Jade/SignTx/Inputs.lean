/-
**The inputs of `sign_tx` (`process/sign_tx.c`, `process_utils.c`, `wallet.c`).**

The host sends one message for each input. With a path the input is to be signed, and its script,
its sighash and perhaps a commitment of the host come along. The amount and the script spent are
taken from the transaction that the input spends, which has to be the one the input names; only for
a single segwit input the bare amount will do. For Liquid they come as they are, since there what is
signed commits to them.

Main definitions:

* `Jade.InputData`, `Jade.SigningState` — an input, and the locals of the loop over the inputs;
* `Jade.paramsTxInputSigningData`, `Jade.processInput` — what a message about an input comes to;
* `Jade.hashTaproot` — the hashes of the taproot inputs, which need the data of all inputs;
* `Jade.walletSignTxInputHash` — the signature.
-/

import Jade.SignTx.Messages

set_option relaxedAutoImplicit false
set_option autoImplicit false

namespace Jade

open Exec

/-! ### The data of an input -/

/-- `input_data_t`, without the signature.  Before a message was read it is all zeros. -/
structure InputData where
  id : Bytes
  path : List UInt32 := []
  sigType : Option SigType := none
  sighash : UInt8 := 0
  useAe : Bool := false
  signatureHash : Bytes := []
  deriving DecidableEq

/-- The locals of the loop over the inputs, with `signing_data_t`. The amounts that are added up may
wrap. -/
structure SigningState where
  inputs : List InputData := []
  maps : SigningMaps := {}
  inputAmount : UInt64 := 0
  flavour : ScriptFlavour := .none
  numToSign : ℕ := 0
  numP2trToSign : ℕ := 0
  inSums : List AssetSummary := []

/-- An amount as a value of the map of amounts. -/
def satoshiBytes (satoshi : UInt64) : Bytes := Bytes.ofNatLE 8 satoshi.toNat

/-- An internal error. -/
def internalError {α : Type} (errmsg : String) : Except SignErr α :=
  .error (.reject CBOR_RPC_INTERNAL_ERROR errmsg)

section Model

variable {K V : Type} (L : SignTxLib K V)

/-! ### An input that is to be signed -/

/-- The explicit sighash of an input; `none` when there is none. -/
def inputSighash (params : V) : Except SignErr (Option UInt8) :=
  if rpcHasFieldData L.cbor.toTinyCborValues "sighash" params then
    match rpcGetSizet L.cbor.toTinyCborValues "sighash" params with
    | none => badParameter "Failed to fetch valid sighash from parameters"
    | some sighash =>
        if 255 < sighash then badParameter "Failed to fetch valid sighash from parameters"
        else .ok (some sighash.toUInt8)
  else .ok none

/-- The commitment of the host, empty when there is none. -/
def inputHostCommitment (useAeSignatures : Bool) (params : V) : Except SignErr Bytes :=
  if useAeSignatures then do
    let commitment ←
      liftFault (bytesField L.cbor.toTinyCborValues "ae_host_commitment" params)
    rejectUnless (commitment.isEmpty || commitment.length == WALLY_HOST_COMMITMENT_LEN)
      "Failed to extract valid host commitment from parameters"
    pure commitment
  else .ok []

/-- What `params_tx_input_signing_data` gives. -/
structure SigningParams where
  input : InputData
  aeHostCommitment : Bytes
  script : Bytes
  flavour : ScriptFlavour

/-- The script of the output spent, which settles the type of the signature. -/
def signingScript (params : V) (input : InputData) (sighash : Option UInt8)
    (aeHostCommitment : Bytes) (flavour : ScriptFlavour) : Except SignErr SigningParams := do
  let script ← liftFault (bytesField L.cbor.toTinyCborValues "script" params)
  rejectUnless (!script.isEmpty) "Failed to extract script from parameters"
  let scriptType ← liftFault (wallyVerify (L.scripts.wallet.scriptType script))
  let isP2tr := (getScriptFlavour scriptType).2
  rejectUnless (!(isP2tr && input.useAe)) "Invalid non-empty taproot host commitment"
  pure {
    input := { input with
      sigType := if isP2tr then some .swV1 else input.sigType
      sighash := sighash.getD
        (if isP2tr then WALLY_SIGHASH_DEFAULT.toUInt8 else WALLY_SIGHASH_ALL.toUInt8) }
    aeHostCommitment
    script
    flavour := updateAggregateScriptsFlavour (getScriptFlavour scriptType).1 flavour }

/-- `params_tx_input_signing_data` -/
def paramsTxInputSigningData (useAeSignatures : Bool) (params : V) (id : Bytes)
    (flavour : ScriptFlavour) : Except SignErr SigningParams :=
  match rpcGetBoolean L.cbor.toTinyCbor "is_witness" params with
  | none => badParameter "Failed to extract is_witness from parameters"
  | some isWitness =>
      match signerPath (bip32PathField L.cbor "path" params) with
      | none => badParameter "Failed to extract valid path from parameters"
      | some path => do
          let sighash ← inputSighash L params
          let aeHostCommitment ← inputHostCommitment L useAeSignatures params
          signingScript L params
            { id, path, sigType := some (if isWitness then .swV0 else .preSw)
              useAe := !aeHostCommitment.isEmpty } sighash aeHostCommitment flavour

/-- The part of an input in the summary of the inputs. -/
def inputSummary (params : V) (input : InputData) (inSums : List AssetSummary) :
    Except SignErr (List AssetSummary) :=
  if inSums.isEmpty then .ok inSums
  else if input.sigType = some .preSw then
    badParameter "Non-segwit input cannot be used as verified amount"
  else do
    let result ← liftFault (getter (paramsCommitmentData L.cbor L.blinding params {} none))
    if result.accepted then
      pure (assetSummaryUpdate result.record.assetId result.record.value inSums)
    else
      match result.errmsg with
      | some errmsg => badParameter errmsg
      | none => pure inSums

/-- The commitment to the value of an input, which what is signed commits to. -/
def inputValueCommitment (params : V) (input : InputData) (index : ℕ) (maps : SigningMaps) :
    Except SignErr SigningMaps :=
  if input.sigType = some .preSw then .ok maps
  else do
    let value ← liftFault (bytesField L.cbor.toTinyCborValues "value_commitment" params)
    rejectUnless (value.length == ASSET_COMMITMENT_LEN || value.length == 9)
      "Failed to extract value commitment from parameters"
    pure { maps with amounts := maps.amounts.add (.int index, value) }

/-- The counts of the inputs to sign. -/
def SigningState.count (st : SigningState) (sp : SigningParams) : SigningState :=
  { st with
    flavour := sp.flavour
    numToSign := st.numToSign + 1
    numP2trToSign := st.numP2trToSign + if sp.input.sigType = some .swV1 then 1 else 0 }

/-- The sighash of an input must be one that is supported. -/
def supportedSighash (forLiquid : Bool) (request : SignTxRequest) (input : InputData) : Bool :=
  sighashIsSupported request.txType (input.sigType.getD .preSw) input.sighash.toUInt32 forLiquid
    request.isPartial

/-- An input with a path. -/
def inputToSign (forLiquid : Bool) (request : SignTxRequest) (index : ℕ) (params : V) (id : Bytes)
    (st : SigningState) : Except SignErr (SigningState × SigningParams) := do
  let sp ← paramsTxInputSigningData L request.useAeSignatures params id st.flavour
  rejectUnless (supportedSighash forLiquid request sp.input) "Unsupported sighash value"
  if forLiquid then do
    let inSums ← inputSummary L params sp.input st.inSums
    let maps ← inputValueCommitment L params sp.input index st.maps
    pure ({ st.count sp with inSums, maps }, sp)
  else pure (st.count sp, sp)

/-- An input without a path. -/
def inputNotToSign (forLiquid : Bool) (params : V) (id : Bytes) : InputData :=
  if forLiquid then { id }
  else
    { id
      sigType := some
        (if (rpcGetBoolean L.cbor.toTinyCbor "is_witness" params).getD false then .swV0 else .preSw)
      sighash := WALLY_SIGHASH_ALL.toUInt8 }

/-! ### What is spent -/

/-- The output spent, of the transaction that the input names. -/
def prevTxOutput (input : TxInput) (txbuf : Bytes) : Except SignErr TxOutput :=
  match L.txFromBytes txbuf false with
  | none => badParameter "Failed to extract input_tx"
  | some inputTx => do
      rejectUnless (L.txGetTxid inputTx == some input.txhash)
        "input_tx cannot be verified against transaction input data"
      match inputTx.outputs[input.index.toNat]? with
      | none => badParameter "input_tx missing corresponding output"
      | some txout => pure txout

/-- What is spent, for Bitcoin and Litecoin. -/
def btcPrevout (numInputs : ℕ) (input : TxInput) (index : ℕ) (params : V) (sigType : Option SigType)
    (st : SigningState) : Except SignErr SigningState := do
  match ← liftFault (getter (rpcGetBytesPtr L.cbor.toTinyCbor "input_tx" params)) with
  | some txbuf => do
      let txout ← prevTxOutput L input txbuf
      pure { st with
        maps := { st.maps with
          scriptpubkeys := st.maps.scriptpubkeys.add (.int index, txout.script)
          amounts := st.maps.amounts.add (.int index, satoshiBytes txout.satoshi) }
        inputAmount := st.inputAmount + txout.satoshi }
  | none => do
      rejectUnless (sigType == some .swV0 && decide (numInputs ≤ 1))
        "Failed to extract input_tx from parameters"
      match rpcGetUint64 L.cbor "satoshi" params with
      | none => badParameter "Failed to extract satoshi from parameters"
      | some satoshi =>
          pure { st with
            maps := { st.maps with
              amounts := st.maps.amounts.add (.int index, satoshiBytes satoshi) }
            inputAmount := st.inputAmount + satoshi }

/-- A field for one of the maps; `wally_map_add_integer` refuses an empty one that is there. -/
def addField (field : String) (params : V) (index : ℕ) (map : WallyMap) :
    Except Fault WallyMap := do
  match ← getter (rpcGetBytesPtr L.cbor.toTinyCbor field params) with
  | none => pure map
  | some bytes => do
      jadeVerify (!bytes.isEmpty)
      pure (map.add (.int index, bytes))

/-- What is spent, for Liquid. -/
def liquidPrevout (index : ℕ) (params : V) (st : SigningState) : Except SignErr SigningState := do
  let scriptpubkeys ← liftFault (addField L "scriptpubkey" params index st.maps.scriptpubkeys)
  let assets ← liftFault (addField L "asset_generator" params index st.maps.assets)
  pure { st with maps := { st.maps with scriptpubkeys, assets } }

def prevout (forLiquid : Bool) (numInputs : ℕ) (input : TxInput) (index : ℕ) (params : V)
    (sigType : Option SigType) (st : SigningState) : Except SignErr SigningState :=
  if forLiquid then liquidPrevout L index params st
  else btcPrevout L numInputs input index params sigType st

/-! ### What is signed -/

/-- The commitment of the signer, if the host has sent one of its own. -/
def inputSignerCommitment (sp : SigningParams) (hash : Bytes) : Except SignErr Bytes :=
  if sp.input.useAe then do
    match ← liftFault
        (walletGetSignerCommitment L.messages hash sp.input.path sp.aeHostCommitment) with
    | none => internalError "Failed to make ae signer commitment"
    | some commitment => pure commitment
  else .ok []

/-- The hash of an input, and the commitment of the signer.  That of a taproot input has to wait for
the other inputs. -/
def hashInput (request : SignTxRequest) (index : ℕ) (maps : SigningMaps) (sp : SigningParams) :
    Except SignErr (InputData × Bytes) :=
  if sp.input.sigType = some .swV1 then
    if request.useAeSignatures then .ok (sp.input, [])
    else internalError "Taproot signing requires Anti-exfil flow"
  else
    match L.inputSignatureHash request.tx index maps (some sp.script) none sp.input.sighash
        sp.input.sigType with
    | none => internalError "Failed to make tx input hash"
    | some hash => do
        let commitment ← inputSignerCommitment L sp hash
        pure ({ sp.input with signatureHash := hash }, commitment)

/-- The data of an input are complete. -/
def SigningState.push (st : SigningState) (input : InputData) : SigningState :=
  { st with inputs := st.inputs ++ [input] }

/-- One turn of the loop over the inputs, from the parameters of a message on: the commitment of the
signer, which may be empty. -/
def processInput (forLiquid : Bool) (request : SignTxRequest) (input : TxInput) (index : ℕ)
    (params : V) (id : Bytes) (st : SigningState) : Except SignErr (SigningState × Bytes) :=
  let numInputs := request.tx.inputs.length
  if rpcHasFieldData L.cbor.toTinyCborValues "path" params then do
    let (st, sp) ← inputToSign L forLiquid request index params id st
    let st ← prevout L forLiquid numInputs input index params sp.input.sigType st
    let (data, commitment) ← hashInput L request index st.maps sp
    pure (st.push data, commitment)
  else do
    let data := inputNotToSign L forLiquid params id
    let st ← prevout L forLiquid numInputs input index params data.sigType st
    pure (st.push data, [])

/-- Is this an input whose hash has to wait? -/
def InputData.isTaproot (data : InputData) : Bool :=
  data.sigType == some .swV1 && !data.path.isEmpty

/-- The loop over the taproot inputs, of which `num` are left; it stops early when none is. -/
def hashTaproot (tx : Tx) (maps : SigningMaps) (genesis : Option Bytes) :
    List (InputData × ℕ) → ℕ → Option (List InputData)
  | [], _ => some []
  | (data, index) :: rest, num =>
      if num = 0 then some (data :: rest.map Prod.fst)
      else if !data.isTaproot then (hashTaproot tx maps genesis rest num).map (data :: ·)
      else
        match L.inputSignatureHash tx index maps none genesis data.sighash data.sigType with
        | none => none
        | some hash =>
            (hashTaproot tx maps genesis rest (num - 1)).map
              ({ data with signatureHash := hash } :: ·)

/-! ### Signatures -/

def EC_SIGNATURE_DER_MAX_LEN : ℕ := 72

/-- The signature of a hash: Schnorr for taproot, and with the entropy of the host or without. -/
def inputSignature (network : Network) (data : InputData) (privkey : Bytes)
    (aeHostEntropy : Option Bytes) : Option Bytes :=
  if data.sigType = some .swV1 then
    (L.bip341Tweak privkey (networkIsLiquid network)).bind fun tweaked =>
      L.schnorrSig tweaked data.signatureHash (networkIsLiquid network)
  else
    match aeHostEntropy with
    | some entropy => L.messages.aeSigFromBytes privkey data.signatureHash entropy
    | none => L.ecSigGrindR privkey data.signatureHash

/-- The signature as it is sent: a default one of taproot as it is, the others with their sighash.
-/
def encodeSignature (data : InputData) (signature : Bytes) : Except Fault Bytes :=
  if data.sigType = some .swV1 then
    if data.sighash = WALLY_SIGHASH_DEFAULT.toUInt8 then .ok signature
    else do
      jadeVerify (decide (signature.length ≤ EC_SIGNATURE_DER_MAX_LEN))
      pure (signature ++ [data.sighash])
  else do
    let der ← wallyVerify (L.ecSigToDer signature)
    jadeVerify (decide (der.length ≤ EC_SIGNATURE_DER_MAX_LEN))
    pure (der ++ [data.sighash])

/-- `wallet_sign_tx_input_hash` -/
def walletSignTxInputHash (network : Network) (data : InputData) (aeHostEntropy : Option Bytes) :
    Except Fault (Option Bytes) :=
  if data.path.isEmpty then .ok none
  else if aeHostEntropy.any fun entropy => decide (entropy.length ≠ WALLY_S2C_DATA_LEN) then
    .ok none
  else do
    let privkey ← wallyVerify (L.messages.bip32KeyFromParentPath data.path)
    match inputSignature L network data privkey aeHostEntropy with
    | none => pure none
    | some signature => do
        let sig ← encodeSignature L data signature
        pure (some sig)

end Model

end Jade
