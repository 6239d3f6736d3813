/-
**The messages of `sign_tx` (`process/sign_tx.c`, `sign_utils.c`, `process_utils.c`).**

The first message carries the transaction, what the host declares about its outputs, and for Liquid
the commitment data, the registry entries of assets and the summaries of a swap. It is read and
checked in full before anything is shown.

Main definitions:

* `Jade.WalletOutput.read`, `Jade.AdditionalInfo.read` — parts of the first message;
* `Jade.SignTxLib` — the wallet, and what the libraries below do;
* `Jade.paramsTxn`, `Jade.readSignTx` — the first message.
-/

import Jade.SignMessage.Process
import Jade.SignTx.Assets
import Jade.SignTx.Outputs

set_option relaxedAutoImplicit false
set_option autoImplicit false

namespace Jade

open Exec

def MAX_DESCRIPTOR_NAME_SIZE : ℕ := 16

def MAX_VARIANT_LEN : ℕ := 24

/-- The size of the buffer of `recovery_xpub`. -/
def RECOVERY_XPUB_SIZE : ℕ := 120

section Reading

variable {V : Type} (C : TinyCborArrays V)

/-! ### Outputs the host declares -/

/-- `rpc_get_bip32_path_from_value` -/
def bip32PathFromValue (value : V) : Option PathArray :=
  match C.arrayItems value with
  | none => none
  | some items =>
      if h : items.length ≤ MAX_PATH_LEN then
        (items.mapM (pathElement C.toTinyCborValues)).attach.map fun path =>
          ⟨path.1, (length_of_mapM path.2).trans_le h⟩
      else none

/-- `rpc_get_bip32_path` of a field. -/
def bip32PathField (field : String) (value : V) : Option PathArray :=
  (rpcGetData C.toTinyCbor field value).bind (bip32PathFromValue C)

/-- A text that is copied. -/
def copiedText (field : String) (size : ℕ) (value : V) : Except Fault Bytes :=
  getter (rpcGetString C.toTinyCborValues field size value)

/-- The fields of an output of a registered multisig. -/
def readMultisigOutput (item : V) : Except Fault WalletOutput := do
  let name ← copiedText C "multisig_name" MAX_MULTISIG_NAME_SIZE item
  let paths := (rpcGetArray C "paths" item).bind C.arrayItems
  pure {
    isChange := rpcGetBoolean C.toTinyCbor "is_change" item
    multisigName := some name
    paths := paths.map fun items => items.map (bip32PathFromValue C) }

/-- The fields of an output of a registered descriptor. -/
def readDescriptorOutput (item : V) : Except Fault WalletOutput := do
  let name ← copiedText C "descriptor_name" MAX_DESCRIPTOR_NAME_SIZE item
  pure {
    isChange := rpcGetBoolean C.toTinyCbor "is_change" item
    descriptorName := some name
    branch := rpcGetSizet C.toTinyCborValues "branch" item
    pointer := rpcGetSizet C.toTinyCborValues "pointer" item }

/-- The fields of an output with a path; those of Green are looked at for Green only. -/
def readPathOutput (item : V) : Except Fault WalletOutput := do
  let variant ← copiedText C "variant" MAX_VARIANT_LEN item
  let isGreen := getScriptVariant variant == some .green
  let recoveryXpub ←
    if isGreen then copiedText C "recovery_xpub" RECOVERY_XPUB_SIZE item else .ok []
  pure {
    isChange := rpcGetBoolean C.toTinyCbor "is_change" item
    path := bip32PathField C "path" item
    variant
    recoveryXpub
    csvBlocks := if isGreen then rpcGetSizet C.toTinyCborValues "csv_blocks" item else none }

/-- An entry of the array `change`; one that is not a map says nothing. -/
def WalletOutput.read (item : V) : Except Fault (Option WalletOutput) :=
  if !C.isMap item then .ok none
  else if rpcHasFieldData C.toTinyCborValues "multisig_name" item then do
    let entry ← readMultisigOutput C item
    pure (some entry)
  else if rpcHasFieldData C.toTinyCborValues "descriptor_name" item then do
    let entry ← readDescriptorOutput C item
    pure (some entry)
  else do
    let entry ← readPathOutput C item
    pure (some entry)

/-- The array `change`, as `params_signing_outputs` takes it. -/
def readWalletOutputs (params : V) :
    Option (Option (List (Except Fault (Option WalletOutput)))) :=
  (rpcGetArray C "change" params).map fun outputs =>
    (C.arrayItems outputs).map fun items => items.map (WalletOutput.read C)

/-! ### The summaries of a swap -/

/-- An item of a summary. -/
def assetSummaryItem (item : V) : Except Fault (Option AssetSummary) :=
  if !C.isMap item then .ok none
  else do
    match ← getter (rpcGetNBytes C "asset_id" ASSET_TAG_LEN item) with
    | none => pure none
    | some assetId =>
        pure ((rpcGetUint64 C "satoshi" item).map fun value => { assetId, value })

/-- The loop over the items; one that is malformed spoils the summary. -/
def assetSummaryItems : List V → Except Fault (Option (List AssetSummary))
  | [] => .ok (some [])
  | item :: items => do
      match ← assetSummaryItem C item with
      | none => pure none
      | some sum => do
          let rest ← assetSummaryItems items
          pure (rest.map (sum :: ·))

/-- `rpc_get_asset_summary` -/
def rpcGetAssetSummary (field : String) (value : V) : Except Fault (List AssetSummary) :=
  match (rpcGetArray C field value).bind C.arrayItems with
  | none | some [] => .ok []
  | some (item :: items) =>
      if C.isValid item then do
        let sums ← assetSummaryItems C (item :: items)
        pure (sums.getD [])
      else .ok []

/-- `rpc_get_txtype`; `none` is a type that is not known. -/
def rpcGetTxtype (value : V) : Except Fault (Option TxType) := do
  let type ← textField C.toTinyCborValues "tx_type" value
  if type.isEmpty || type == ascii "send_payment" then pure (some .sendPayment)
  else if type == ascii "swap" then pure (some .swap)
  else pure none

/-- The section `additional_info`. -/
def AdditionalInfo.read (params : V) : Except Fault (Option AdditionalInfo) :=
  match rpcGetMap C.toTinyCbor "additional_info" params with
  | none => .ok none
  | some info => do
      let inSums ← rpcGetAssetSummary C "wallet_input_summary" info
      let outSums ← rpcGetAssetSummary C "wallet_output_summary" info
      let isPartial := (rpcGetBoolean C.toTinyCbor "is_partial" info).getD false
      let txType ← rpcGetTxtype C info
      pure (some { inSums, outSums, isPartial, txType })

end Reading

/-! ### The libraries below -/

/-- The maps of `signing_data_t`. -/
structure SigningMaps where
  scriptpubkeys : WallyMap := .empty
  assets : WallyMap := .empty
  amounts : WallyMap := .empty
  deriving DecidableEq

/-- The wallet that is unlocked, and what `sign_tx` calls. -/
structure SignTxLib (K V : Type) where
  cbor : TinyCborArrays V
  blinding : BlindingLib
  scripts : ScriptLib K
  assets : AssetLib V
  messages : MessageWally
  user : User
  /-- `keychain_get_userdata` -/
  keychainUserdata : UInt8
  /-- `keychain_is_network_id_consistent` -/
  networkConsistent : Network → Bool
  /-- `wally_tx_from_bytes`, with `WALLY_TX_FLAG_USE_ELEMENTS` or not -/
  txFromBytes : Bytes → Bool → Option Tx
  /-- `wally_tx_is_elements` -/
  txIsElements : Tx → Bool
  /-- `wally_tx_get_txid` -/
  txGetTxid : Tx → Option Bytes
  /-- `wally_tx_get_total_output_satoshi` -/
  totalOutputSatoshi : Tx → Option UInt64
  /-- `wally_tx_get_input_signature_hash`: transaction, input, maps, script, genesis block, sighash
and type -/
  inputSignatureHash :
    Tx → ℕ → SigningMaps → Option Bytes → Option Bytes → UInt8 → Option SigType → Option Bytes
  /-- `wally_hex_from_bytes` -/
  hexFromBytes : Bytes → Bytes
  /-- `wally_ec_sig_from_bytes` with `EC_FLAG_ECDSA` and `EC_FLAG_GRIND_R` -/
  ecSigGrindR : Bytes → Bytes → Option Bytes
  /-- `wally_ec_private_key_bip341_tweak`, and `wally_ec_sig_from_bytes` with `EC_FLAG_SCHNORR`, for
  Elements or not -/
  bip341Tweak : Bytes → Bool → Option Bytes
  schnorrSig : Bytes → Bytes → Bool → Option Bytes
  /-- `wally_ec_sig_to_der` -/
  ecSigToDer : Bytes → Option Bytes

section Request

variable {K V : Type} (L : SignTxLib K V)

/-! ### The first message -/

/-- The transaction, once it is parsed. -/
def paramsTxnParsed (network : Network) (forLiquid : Bool) (params : V) (tx : Tx) :
    Except SignErr (Tx × UInt64) :=
  match rpcGetSizet L.cbor.toTinyCborValues "num_inputs" params with
  | none | some 0 =>
      badParameter "Failed to extract valid number of inputs from parameters"
  | some numInputs => do
      rejectUnless (numInputs.toNat == tx.inputs.length)
        "Unexpected number of inputs for transaction"
      let explicitFee ← paramsTxnValidate network forLiquid (L.txIsElements tx) tx
      pure (tx, explicitFee)

/-- `params_txn`: the transaction, and its explicit fee. -/
def paramsTxn (network : Network) (forLiquid : Bool) (params : V) :
    Except SignErr (Tx × UInt64) := do
  rejectUnless (forLiquid == networkIsLiquid network)
    (if forLiquid then "sign_liquid_tx call only appropriate for liquid network"
      else "sign_tx call not appropriate for liquid network")
  let txbytes ← liftFault (bytesField L.cbor.toTinyCborValues "txn" params)
  rejectUnless (!txbytes.isEmpty) "Failed to extract tx from parameters"
  match L.txFromBytes txbytes forLiquid with
  | none => badParameter "Failed to extract tx from passed bytes"
  | some tx => paramsTxnParsed L network forLiquid params tx

/-- What the first message comes to. -/
structure SignTxRequest where
  tx : Tx
  explicitFee : UInt64
  useAeSignatures : Bool
  outputInfo : Option (List OutputInfo)
  assets : List AssetInfo := []
  txType : TxType := .sendPayment
  isPartial : Bool := false
  inSums : List AssetSummary := []
  outSums : List AssetSummary := []

/-- The parts of the first message that only a Liquid transaction has. -/
def readLiquid (params : V) (request : SignTxRequest) (commitments : List Commitment) :
    Except SignErr SignTxRequest := do
  match ← liftFault (assetsGetAllocate L.cbor L.assets "asset_info" params) with
  | none => badParameter "Invalid asset info passed"
  | some assets => do
      let additional ← liftFault (AdditionalInfo.read L.cbor params)
      let (txType, info) ← paramsAdditionalInfo request.tx additional
      let outputInfo ←
        updateElementsOutputs request.tx commitments (request.outputInfo.getD [])
      let (inSums, outSums) ← validateElementsOutputs txType outputInfo info.inSums info.outSums
      pure { request with
        outputInfo := some outputInfo, assets, txType,
        isPartial := info.isPartial, inSums, outSums }

/-- The first message, before anything is shown. -/
def readSignTx (network : Network) (forLiquid : Bool) (params : V) :
    Except SignErr SignTxRequest := do
  let (tx, explicitFee) ← paramsTxn L network forLiquid params
  let useAeSignatures := (rpcGetBoolean L.cbor.toTinyCbor "use_ae_signatures" params).getD false
  if forLiquid then do
    let commitments ← paramsTrustedCommitments L.cbor L.blinding params tx
    let outputInfo ←
      paramsSigningOutputs L.scripts network true tx (readWalletOutputs L.cbor params)
    readLiquid L params { tx, explicitFee, useAeSignatures, outputInfo } commitments
  else do
    let outputInfo ←
      paramsSigningOutputs L.scripts network false tx (readWalletOutputs L.cbor params)
    pure { tx, explicitFee, useAeSignatures, outputInfo }

/-- Is there registry data of the asset? -/
def SignTxLib.hasAssetInfo (network : Network) (assets : List AssetInfo) (assetId : Bytes) : Bool :=
  (assetsGetInfo L.assets network assets (L.hexFromBytes assetId)).isSome

end Request

end Jade
