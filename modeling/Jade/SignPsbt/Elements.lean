/-
**Checks on Liquid transactions (`sign_utils.c`).**

A Liquid transaction has one fee output, without a script and in the policy asset, and its other
outputs may be blinded.  The host may send summaries of what the wallet puts in and gets out, asset by
asset; the device adds up the inputs and outputs it can verify and compares.

Main definitions:

* `Jade.paramsTxnValidate` — the type of the transaction and its fee output;
* `Jade.AdditionalInfo`, `Jade.paramsAdditionalInfo` — the summaries the host sends;
* `Jade.assetSummaryUpdate`, `Jade.assetSummaryValidate`, `Jade.validateElementsOutputs` — the
  comparison;
* `Jade.sighashIsSupported` — which parts of a transaction a signature may leave open.
-/

import Jade.SignPsbt.Display

set_option relaxedAutoImplicit false
set_option autoImplicit false

namespace Jade

/-- Reject with bad parameters. -/
def rejectUnless (c : Bool) (errmsg : String) : Except SignErr Unit :=
  if c then .ok () else .error (.reject CBOR_RPC_BAD_PARAMETERS errmsg)

/-- A failed assertion as an outcome of signing. -/
def assertThat (c : Bool) : Except SignErr Unit := if c then .ok () else .error (.fault .assert)

theorem rejectUnless_eq_ok {c : Bool} {errmsg : String} {u : Unit} :
    rejectUnless c errmsg = .ok u ↔ c = true := by
  cases c <;> simp [rejectUnless]

theorem assertThat_eq_ok {c : Bool} {u : Unit} : assertThat c = .ok u ↔ c = true := by
  cases c <;> simp [assertThat]

/-! ### The transaction -/

/-- `network_to_policy_asset`, in the order of display. -/
def networkToPolicyAsset : Network → Option Bytes
  | .liquid => some (Bytes.ofNatBE 32
      0x6f0279e9ed041c3d710a9f57d0c02928416460c4b722ae3457a11eec381c526d)
  | .liquidTestnet => some (Bytes.ofNatBE 32
      0x144c654344aa716d6f3abcc1ca90e5641e4e2a7f633bc09fe3baf64585819a49)
  | .liquidRegtest => some (Bytes.ofNatBE 32
      0x5ac9f65c0efcc4775e0baec4ec03abdde22473cd3cf33c0419ca290e0751b225)
  | _ => none

/-- `network_to_genesis_hash` -/
def networkToGenesisHash : Network → Option Bytes
  | .liquid => some (Bytes.ofNatBE 32
      0x0360208a889692372c8d68b084a62efdf60ea1a359a04c94b20d223658276614)
  | .liquidTestnet => some (Bytes.ofNatBE 32
      0xc1b16ae24f2423aea2ea34552292793b5b5e82999a1eed81d56aee528eda71a7)
  | .liquidRegtest => some (Bytes.ofNatBE 32
      0x21cab1e5da4718ea140d9716931702422f0e6ad915c8d9b583cac2706b2a9000)
  | _ => none

def WALLY_TX_ASSET_CT_EXPLICIT_PREFIX : UInt8 := 1

/-- `wally_tx_confidential_value_to_satoshi` of an explicit value. -/
def confidentialValueToSatoshi (value : Bytes) : UInt64 :=
  UInt64.ofNat (Bytes.toNatBE (value.drop 1))

/-- One turn of the loop of `params_txn_validate`; the state is the fee found so far. -/
def txnValidateOutput (policyAsset : Bytes) (explicitFee : UInt64) (txout : TxOutput) :
    Except SignErr UInt64 := do
  assertThat (txout.asset.length == 33)
  assertThat (!txout.value.isEmpty)
  let isExplicitAsset := txout.asset.head? == some WALLY_TX_ASSET_CT_EXPLICIT_PREFIX
  let isExplicitValue := txout.value.head? == some WALLY_TX_ASSET_CT_EXPLICIT_PREFIX
  rejectUnless (isExplicitAsset == isExplicitValue) "Output asset and value blinding inconsistent"
  assertThat (txout.value.length == if isExplicitValue then 9 else 33)
  if !txout.script.isEmpty then pure explicitFee
  else do
    rejectUnless (isExplicitAsset && isExplicitValue)
      "Fee output (without script) cannot be blinded"
    rejectUnless (explicitFee == 0) "Unexpected multiple fee outputs (without script)"
    let fee := confidentialValueToSatoshi txout.value
    rejectUnless (fee != 0) "Fee output (without script) cannot be 0"
    rejectUnless (txout.asset.drop 1 == policyAsset.reverse)
      "Unexpected fee output (without script) asset-id"
    pure fee

/-- `params_txn_validate`: the explicit fee, zero when there is none. -/
def paramsTxnValidate (network : Network) (forLiquid isElements : Bool) (tx : Tx) :
    Except SignErr UInt64 := do
  rejectUnless (forLiquid == isElements) "Transaction is the wrong type for the current network"
  if !forLiquid then pure 0
  else
    match networkToPolicyAsset network with
    | none => .error (.fault .assert)
    | some policyAsset => tx.outputs.foldlM (txnValidateOutput policyAsset) 0

/-! ### Summaries -/

/-- `TxType_t` -/
inductive TxType
  | sendPayment
  | swap
  deriving Repr, DecidableEq

/-- The section `additional_info` of a request; a summary that is missing or malformed is empty, and a
type that is unknown is `none`. -/
structure AdditionalInfo where
  inSums : List AssetSummary := []
  outSums : List AssetSummary := []
  isPartial : Bool := false
  txType : Option TxType := some .sendPayment

/-- `validate_additional_info` -/
def validateAdditionalInfo (tx : Tx) (txType : TxType) (info : AdditionalInfo) :
    Except SignErr Unit :=
  if txType = .swap then do
    rejectUnless (!info.inSums.isEmpty && !info.outSums.isEmpty)
      "Swap tx missing input/output summary information"
    if info.isPartial then
      rejectUnless (tx.inputs.length == 1 && tx.outputs.length == 1 && info.inSums.length == 1 &&
          info.outSums.length == 1 &&
          info.inSums.map AssetSummary.assetId != info.outSums.map AssetSummary.assetId)
        "Initial swap proposal must have single wallet input and output in different assets"
    else
      rejectUnless (decide (2 ≤ tx.inputs.length) && decide (2 ≤ tx.outputs.length))
        "Insufficient inputs/outputs for a swap tx"
  else .ok ()

/-- `params_additional_info`: the type and the section. -/
def paramsAdditionalInfo (tx : Tx) : Option AdditionalInfo → Except SignErr (TxType × AdditionalInfo)
  | none => .ok (.sendPayment, {})
  | some info =>
      match info.txType with
      | none =>
          .error (.reject CBOR_RPC_BAD_PARAMETERS
            "Failed to extract tx type from additional_info")
      | some txType => do
          validateAdditionalInfo tx txType info
          pure (txType, info)

/-- `asset_summary_update`: add to the first record of the asset, if there is one. -/
def assetSummaryUpdate (assetId : Bytes) (value : UInt64) : List AssetSummary → List AssetSummary
  | [] => []
  | sum :: sums =>
      if sum.assetId == assetId then
        { sum with validatedValue := sum.validatedValue + value } :: sums
      else sum :: assetSummaryUpdate assetId value sums

/-- `asset_summary_validate` -/
def assetSummaryValidate (sums : List AssetSummary) : Bool :=
  sums.all fun sum => sum.value == sum.validatedValue

/-- The loop of `validate_elements_outputs` over the outputs left. -/
def validateElementsOutputs (txType : TxType) :
    List OutputInfo → List AssetSummary → List AssetSummary →
      Except SignErr (List AssetSummary × List AssetSummary)
  | [], inSums, outSums => .ok (inSums, outSums)
  | info :: infos, inSums, outSums => do
      -- only a swap may have outputs of other wallets that stay blinded
      if txType ≠ .swap && info.confidential then
        rejectUnless (info.hasUnblinded && info.hasBlindingKey)
          "Missing trusted commitment data for blinded output"
      if info.validated then do
        assertThat info.hasUnblinded
        if info.change then
          validateElementsOutputs txType infos
            (assetSummaryUpdate info.assetId (0 - info.value) inSums) outSums
        else
          validateElementsOutputs txType infos inSums
            (assetSummaryUpdate info.assetId info.value outSums)
      else validateElementsOutputs txType infos inSums outSums

/-! ### Signature hashes -/

/-- `WALLY_SIGTYPE_PRE_SW`, `WALLY_SIGTYPE_SW_V0` and `WALLY_SIGTYPE_SW_V1` -/
inductive SigType
  | preSw
  | swV0
  | swV1
  deriving Repr, DecidableEq

def WALLY_SIGHASH_DEFAULT : UInt32 := 0
def WALLY_SIGHASH_ALL : UInt32 := 1
def WALLY_SIGHASH_SINGLE : UInt32 := 3
def WALLY_SIGHASH_ANYONECANPAY : UInt32 := 0x80

/-- `sighash_is_supported` -/
def sighashIsSupported (txType : TxType) (sigType : SigType) (sighash : UInt32)
    (forLiquid isPartial : Bool) : Bool :=
  if forLiquid && txType = .swap && isPartial then
    sighash == WALLY_SIGHASH_SINGLE ||| WALLY_SIGHASH_ANYONECANPAY
  else if sigType = .swV1 then sighash == WALLY_SIGHASH_DEFAULT || sighash == WALLY_SIGHASH_ALL
  else sighash == WALLY_SIGHASH_ALL

end Jade
