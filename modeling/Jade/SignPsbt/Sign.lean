/-
**Signing a PSBT (`sign_psbt.c`).**

The device reads the inputs, adding up what it can see of their amounts and noting which of them it
can sign; recognises the outputs that are its own; lets the user confirm outputs and fee, for a
transaction with parts in the extension block over an open session; signs; and commits the session.
An error after the session was opened aborts it.

Main definitions:

* `Jade.Device` — the wallet, the user, and the functions called;
* `Jade.SignState`, `Jade.S` — the PSBT with the session, the answers, and the signatures made;
* `Jade.scanInput`, `Jade.InputScan` — the loop over the inputs;
* `Jade.confirmElements`, `Jade.confirmBtc` — the screens;
* `Jade.signInputs` — the signing loop;
* `Jade.signPsbt` — the whole.
-/

import Jade.Mweb.Address
import Jade.Mweb.Rollback
import Jade.SignPsbt.Elements
import Mathlib.Data.UInt

set_option relaxedAutoImplicit false
set_option autoImplicit false

namespace Jade

open Exec Mweb

/-! ### The device -/

/-- What signing an input leaves behind: the maps of the input, and the modifiable flags. -/
structure InputSignature where
  signatures : WallyMap
  psbtFields : WallyMap
  taprootLeafSignatures : WallyMap
  txModifiableFlags : UInt32

/-- The wallet, the user, and what else `sign_psbt` calls. -/
structure Device (K P : Type) where
  wallet : Wallet K
  records : Records
  user : User
  secp : Secp P
  /-- `mweb_derive_key_from_path` -/
  mwebDeriveKeyFromPath : List UInt32 → Option Bytes
  /-- `assets_get_info` without any assets sent by the host -/
  hasAssetInfo : Bytes → Bool
  /-- `wally_psbt_is_elements` and `wally_tx_is_elements` -/
  psbtIsElements : Psbt → Bool
  txIsElements : Tx → Bool
  /-- `wally_psbt_extract` with `WALLY_PSBT_EXTRACT_NON_FINAL` -/
  psbtExtract : Psbt → Option Tx
  /-- `wally_psbt_get_output_script` -/
  getOutputScript : Psbt → ℕ → Option Bytes
  /-- `wally_psbt_get_input_signature_type` -/
  getInputSignatureType : Psbt → ℕ → Option SigType
  /-- `wally_tx_get_total_output_satoshi` -/
  totalOutputSatoshi : Tx → Option UInt64
  /-- `wally_psbt_get_input_signing_script`, `wally_psbt_get_input_scriptcode` and
  `wally_psbt_get_input_signature_hash` -/
  getInputSignatureHash : Psbt → ℕ → Tx → Option Bytes
  /-- `wally_psbt_sign_input_bip32`: input, key, hash, Elements -/
  signInputBip32 : Psbt → ℕ → ℕ → Bytes → K → Bool → Option InputSignature

/-- What the session is given. -/
def Device.env {K P : Type} (D : Device K P) : Env P where
  toSecp := D.secp
  walletFingerprint := walletGetFingerprint D.wallet
  mwebDeriveKeyFromPath := D.mwebDeriveKeyFromPath
  scriptpubkeyGetType := D.wallet.scriptpubkeyGetType

/-- The state of `sign_psbt`: the PSBT with the session, the answers of the user, and the inputs
signed so far with their signature types. -/
structure SignState extends World where
  answers : Answers := []
  signed : List (ℕ × SigType) := []

/-- A step of `sign_psbt`. -/
abbrev S : Type → Type := EStateM SignErr SignState

/-- A check that rejects or aborts. -/
def orReject {α : Type} : Except SignErr α → S α
  | .ok a => pure a
  | .error e => throw e

@[simp] theorem sat_orReject {α : Type} {Q : α → SignState → Prop}
    {E : SignErr → SignState → Prop} {s : SignState} (x : Except SignErr α) :
    Sat (orReject x) Q E s ↔ (∀ a, x = .ok a → Q a s) ∧ ∀ e, x = .error e → E e s := by
  cases x <;> simp [orReject]

/-- A display program as a step. -/
def display {α : Type} (x : Ui α) : S α :=
  zoom SignState.answers (fun answers s => { s with answers }) x

@[simp] theorem sat_display {α : Type} {Q : α → SignState → Prop}
    {E : SignErr → SignState → Prop} {s : SignState} (x : Ui α) :
    Sat (display x) Q E s ↔
      Sat x (fun a answers => Q a { s with answers }) (fun e answers => E e { s with answers })
        s.answers :=
  sat_zoom _ _ _

/-- A call of the session as a step, with the error it is reported as. -/
def onWorld {α : Type} (report : MwebErr → SignErr) (x : W α) : S α := fun s =>
  match x s.toWorld with
  | .ok a w => .ok a { s with toWorld := w }
  | .error e w => .error (report e) { s with toWorld := w }

@[simp] theorem sat_onWorld {α : Type} {Q : α → SignState → Prop}
    {E : SignErr → SignState → Prop} {s : SignState} (report : MwebErr → SignErr) (x : W α) :
    Sat (onWorld report x) Q E s ↔
      Sat x (fun a w => Q a { s with toWorld := w })
        (fun e w => E (report e) { s with toWorld := w }) s.toWorld := by
  simp only [sat_iff, EStateM.run, onWorld]
  cases x s.toWorld with
  | ok a w => rfl
  | error e w => rfl

/-! ### The inputs -/

/-- The locals of the loop over the inputs.  An amount that is added up may wrap. -/
structure InputScan where
  inputAmount : UInt64 := 0
  mwebInputAmount : UInt64 := 0
  mwebInputCount : ℕ := 0
  mwebAmountsIncomplete : Bool := false
  flags : SigningFlags := {}
  record : Option SuitableRecord := none
  flavour : ScriptFlavour := .none
  inSums : List AssetSummary := []
  sigTypes : List (Option SigType) := []

section Model

variable {K P : Type} (D : Device K P)

/-- Both origins of an MWEB input have the fingerprint of the wallet. -/
def isOwnMwebInput (input : PsbtInput) : Bool :=
  let walletFpLe := (walletGetFingerprint D.wallet).reverse
  match input.mwebScanKeyOrigin.head?, input.mwebSpendKeyOrigin.head? with
  | some scan, some spend => scan.fingerprint == walletFpLe && spend.fingerprint == walletFpLe
  | _, _ => false

/-- The fields an MWEB input of the wallet must have. -/
def hasRequiredMwebFields (input : PsbtInput) : Bool :=
  mwebInHas input.mwebKeyset MWEB_IN_SPENT_OUTPUT_PUBKEY &&
  mwebInHas input.mwebKeyset MWEB_IN_SPENT_OUTPUT_COMMIT_KEY &&
  mwebInHas input.mwebKeyset MWEB_IN_INPUT_FEATURES &&
  mwebInHas input.mwebKeyset MWEB_IN_ADDRESS_INDEX &&
  mwebInHas input.mwebKeyset MWEB_IN_INPUT_AMOUNT &&
  mwebInHas input.mwebKeyset MWEB_IN_KEY_EXCHANGE_PUBKEY_KEY &&
  !input.mwebScanKeyOrigin.isEmpty && !input.mwebSpendKeyOrigin.isEmpty

/-- The amount of an MWEB input, when it has one. -/
def InputScan.addMwebAmount (scan : InputScan) (input : PsbtInput) : InputScan :=
  if mwebInHas input.mwebKeyset MWEB_IN_INPUT_AMOUNT then
    { scan with mwebInputAmount := scan.mwebInputAmount + input.mwebInputAmount }
  else { scan with mwebAmountsIncomplete := true }

/-- An MWEB input: counted, and checked when it is the wallet's and not yet signed. -/
def scanMwebInput (scan : InputScan) (input : PsbtInput) : Except SignErr InputScan :=
  let scan := { scan.addMwebAmount input with sigTypes := scan.sigTypes ++ [none] }
  if mwebInHas input.mwebKeyset MWEB_IN_INPUT_SIGNATURE_KEY then .ok scan
  else if !isOwnMwebInput D input then .ok scan
  else do
    rejectUnless (hasRequiredMwebFields input) "Missing required MWEB input fields"
    pure { scan with mwebInputCount := scan.mwebInputCount + 1 }

/-- The part of an input's asset in the summary of the inputs. -/
def scanInputAsset (forLiquid : Bool) (inSums : List AssetSummary) (input : PsbtInput) :
    Except SignErr (List AssetSummary) :=
  if !forLiquid || inSums.isEmpty then .ok inSums
  else
    match input.amount with
    | some amount => do
        rejectUnless (input.asset.length == 32) "Missing input explicit asset or value"
        pure (assetSummaryUpdate input.asset.reverse amount inSums)
    | none => .error (.reject CBOR_RPC_BAD_PARAMETERS "Missing input explicit asset or value")

/-- A computation that may be cut short, as a check. -/
def liftFault {α : Type} : Except Fault α → Except SignErr α
  | .ok a => .ok a
  | .error f => .error (.fault f)

theorem liftFault_eq_ok {α : Type} {x : Except Fault α} {a : α} :
    liftFault x = .ok a ↔ x = .ok a := by
  cases x <;> simp [liftFault]

/-- The flavour of the script spent, taken into the aggregate. -/
def scanInputFlavour (flavour : ScriptFlavour) (sigType : SigType) (script : Bytes) :
    Except SignErr ScriptFlavour :=
  if script.isEmpty then .ok flavour
  else do
    let scriptType ← liftFault (wallyVerify (D.wallet.scriptType script))
    let (new, isP2tr) := getScriptFlavour scriptType
    assertThat (isP2tr == (sigType == .swV1))
    pure (updateAggregateScriptsFlavour new flavour)

/-- The flags after the keys of a signed input were looked at. -/
def scanInputFlags (network : Network) (flags : SigningFlags) (iter : KeyIter K) : SigningFlags :=
  if iter.numKeys > 1 then
    if (isGreenMultisigSigners D.wallet network iter false).isSome then
      { flags with greenMultisig := true }
    else { flags with multisig := true }
  else { flags with singlesig := true }

/-- Which record the signed inputs belong to: one that fits all of them, or none. -/
def scanInputRecord (network : Network) (forLiquid : Bool) (flags : SigningFlags)
    (record : Option SuitableRecord) (iter : KeyIter K) (script : Bytes) :
    Except Fault (SigningFlags × Option SuitableRecord) :=
  if flags.multisigChangeAbandoned then .ok (flags, record)
  else if flags.singlesig || flags.greenMultisig then
    .ok ({ flags with multisigChangeAbandoned := true }, record)
  else
    match iter.getPath MAX_PATH_LEN with
    | none => .ok (flags, record)
    | some path =>
        if flags.singleMultisigRecord then
          match record with
          | none => .error .assert
          | some record => do
              if ← record.verifies D.wallet D.records network iter path script then
                pure (flags, some record)
              else pure ({ flags with multisigChangeAbandoned := true }, some record)
        else do
          let found ← getSuitableMultisigRecord D.wallet D.records network iter path script
          let found ←
            if found.isNone && !forLiquid then
              getSuitableDescriptorRecord D.wallet D.records network iter path script
            else pure found
          if found.isSome then pure ({ flags with singleMultisigRecord := true }, found)
          else pure ({ flags with multisigChangeAbandoned := true }, none)

/-- An input with a key of the wallet. -/
def scanOwnInput (network : Network) (txType : TxType) (isPartial : Bool) (psbt : Psbt)
    (scan : InputScan) (input : PsbtInput) (index : ℕ) (script : Bytes) (iter : KeyIter K) :
    Except SignErr InputScan := do
  let forLiquid := networkIsLiquid network
  let inSums ← scanInputAsset forLiquid scan.inSums input
  let sigType ← liftFault (wallyVerify (D.getInputSignatureType psbt index))
  rejectUnless (!(sigType == .swV1 && txType == .swap))
    "Swap transactions cannot contain taproot inputs"
  let flags := scanInputFlags D network scan.flags iter
  rejectUnless (input.sighash == 0 ||
      sighashIsSupported txType sigType input.sighash forLiquid isPartial)
    "Unsupported sighash value"
  let flavour ← scanInputFlavour D scan.flavour sigType script
  let (flags, record) ←
    liftFault (scanInputRecord D network forLiquid flags scan.record iter script)
  pure { scan with inSums, flags, flavour, record, sigTypes := scan.sigTypes ++ [some sigType] }

/-- An input that spends an output of the transparent chain. -/
def scanStdInput (network : Network) (txType : TxType) (isPartial : Bool) (psbt : Psbt)
    (scan : InputScan) (input : PsbtInput) (index : ℕ) : Except SignErr InputScan :=
  match input.bestUtxo with
  | none => .error (.reject CBOR_RPC_BAD_PARAMETERS "Input utxo missing")
  | some utxo => do
      let scan :=
        if networkIsLiquid network then scan
        else { scan with inputAmount := scan.inputAmount + utxo.satoshi }
      match ← liftFault (keyIterBeginPublic D.wallet (inputKeySource input)) with
      | none => pure { scan with sigTypes := scan.sigTypes ++ [none] }
      | some iter =>
          scanOwnInput D network txType isPartial psbt scan input index utxo.script iter

/-- One turn of the loop over the inputs. -/
def scanInput (network : Network) (txType : TxType) (isPartial : Bool) (psbt : Psbt)
    (scan : InputScan) (input : PsbtInput) (index : ℕ) : Except SignErr InputScan :=
  if mwebInHasOutputId input.mwebKeyset then scanMwebInput D scan input
  else scanStdInput D network txType isPartial psbt scan input index

/-- The loop over the inputs. -/
def scanInputs (network : Network) (txType : TxType) (info : AdditionalInfo) (psbt : Psbt) :
    Except SignErr InputScan :=
  psbt.inputs.zipIdx.foldlM
    (fun scan (input, index) =>
      scanInput D network txType info.isPartial psbt scan input index)
    { inSums := info.inSums }

/-! ### The screens -/

/-- Go on when the user accepted. -/
def unlessDeclined (errmsg : String) (accepts : Bool) : S Unit :=
  check accepts (.reject CBOR_RPC_USER_CANCELLED errmsg)

def DECLINED_PSBT : String := "User declined to sign psbt"

/-- The assets of a swap, or the outputs. -/
def confirmElementsOutputs (tx : Tx) (txType : TxType) (info : AdditionalInfo)
    (infos : List OutputInfo) (inSums outSums : List AssetSummary) : S Unit :=
  if txType = .swap then do
    let accepts ←
      display (showElementsSwapActivity D.user D.hasAssetInfo info.isPartial inSums outSums)
    unlessDeclined "User declined to sign swap transaction" accepts
  else do
    let accepts ← display (showElementsTransactionOutputsActivity D.user D.hasAssetInfo tx infos)
    unlessDeclined DECLINED_PSBT accepts

/-- The fee, unless the transaction is partial and has none yet. -/
def confirmElementsFee (txType : TxType) (info : AdditionalInfo) (scan : InputScan)
    (explicitFee : UInt64) : S Unit :=
  if info.isPartial && explicitFee == 0 then pure ()
  else do
    let accepts ← display (showElementsFeeConfirmationActivity D.user scan.flavour explicitFee
      (txType == .swap) info.isPartial)
    unlessDeclined DECLINED_PSBT accepts

/-- The screens of a Liquid transaction. -/
def confirmElements (tx : Tx) (txType : TxType) (info : AdditionalInfo) (scan : InputScan)
    (infos : List OutputInfo) (explicitFee : UInt64) : S Unit := do
  let (inSums, outSums) ← orReject (validateElementsOutputs txType infos scan.inSums info.outSums)
  orReject (rejectUnless (assetSummaryValidate inSums && assetSummaryValidate outSums)
    "Failed to validate input/output summary information")
  confirmElementsOutputs D tx txType info infos inSums outSums
  confirmElementsFee D txType info scan explicitFee

/-- `mweb_err_to_string` -/
def mwebErrToString : MwebErr → String
  | .missingStealthScalar => "MWEB kernel signer was not given a stealth-excess scalar"
  | .invalidScalar => "Internal scalar out of range or zero"
  | .outputFieldMismatch => "MWEB output is missing required fields"
  | .inputCommitMismatch => "MWEB input amount does not match on-chain commitment"
  | .balanceFail => "MWEB transaction value balance is invalid"
  | .kernelFeatureMismatch => "Invalid MWEB kernel: feature flags do not match kernel fields"
  | .foreignMwebInput => "Foreign or unsupported MWEB input format"
  | .multiKernelUnsupported => "Multi-kernel MWEB transactions are not yet supported"
  | .missingKernel => "MWEB transaction is missing a kernel"
  | .pegoutsNotDisplayed => "MWEB pegout was not displayed for confirmation"
  | .offsetAccumulateFail => "MWEB offset accumulation failed"
  | .unsupportedNetwork => "MWEB is only supported on Litecoin"
  | .userCancel => "User declined"
  | .internal => "MWEB signing internal error"

/-- The error a session that does not open is reported as. -/
def beginError (e : MwebErr) : SignErr :=
  .reject (if e = .userCancel then CBOR_RPC_USER_CANCELLED else CBOR_RPC_BAD_PARAMETERS)
    (mwebErrToString e)

/-- The error a commit that fails is reported as. -/
def commitError (e : MwebErr) : SignErr := .reject CBOR_RPC_INTERNAL_ERROR (mwebErrToString e)

/-- `sign_psbt_has_mweb_component` -/
def signPsbtHasMwebComponent (psbt : Psbt) : Bool :=
  !psbt.mwebKernels.isEmpty || psbt.inputs.any (fun input => mwebInHasOutputId input.mwebKeyset) ||
    psbt.outputs.any fun output => mwebOutIsMweb output.mwebOutputKeyset

/-- The stealth address of an output, from the fields the PSBT library does not know. -/
def unknownStealthAddress (output : PsbtOutput) : Option Bytes := do
  let payload ← output.unknowns.find (.bytes [0x90])
  if payload.length = 66 then some payload else none

/-- `mweb_session_get_output_value` -/
def mwebSessionGetOutputValue (session : MwebSession) (psbtIndex : ℕ) : Option UInt64 :=
  (session.outputs.find? fun so => so.psbtIndex == psbtIndex).map SessionOutput.value

/-- The screen of an MWEB output; the amount comes from the session. -/
def mwebOutputScreen (network : Network) (place total : ℕ) (output : PsbtOutput) (i : ℕ)
    (session : Option MwebSession) : Except SignErr Screen :=
  match unknownStealthAddress output with
  | none =>
      .error (.reject CBOR_RPC_BAD_PARAMETERS "MWEB output missing valid stealth address")
  | some payload =>
      match mwebNetworkHrp network with
      | none => .error (.reject CBOR_RPC_BAD_PARAMETERS "MWEB output on unsupported network")
      | some hrp =>
          match mwebBech32EncodePayload payload hrp with
          | none =>
              .error (.reject CBOR_RPC_INTERNAL_ERROR "Failed to encode MWEB stealth address")
          | some address =>
              match session.bind fun session => mwebSessionGetOutputValue session i with
              | none =>
                  .error (.reject CBOR_RPC_INTERNAL_ERROR "MWEB output not in verified session")
              | some amount => .ok (.mwebOutput place total payload address amount)

/-- The loop over the outputs left, of which `shown` MWEB ones have been displayed. -/
def showMwebOutputs (network : Network) (total : ℕ) : List (PsbtOutput × ℕ) → ℕ → S Unit
  | [], _ => pure ()
  | (output, i) :: outputs, shown =>
      if mwebOutIsMweb output.mwebOutputKeyset then do
        let s ← get
        let screen ← orReject (mwebOutputScreen network (shown + 1) total output i s.session)
        let accepts ← display (ask D.user screen)
        unlessDeclined DECLINED_PSBT accepts
        showMwebOutputs network total outputs (shown + 1)
      else showMwebOutputs network total outputs shown

/-- One turn of the loop over the pegouts: show, and mark as confirmed. -/
def showPegout (total : ℕ) (pegout : SessionPegout) (p : ℕ) : S Unit := do
  let accepts ← display (ask D.user
    (.pegout (p + 1) total pegout.script pegout.scriptLen pegout.amount))
  unlessDeclined DECLINED_PSBT accepts
  modify fun s => { s with session := s.session.map (mwebSessionMarkPegoutConfirmed p) }

/-- The pegin, when the kernel has one. -/
def showPegin (session : MwebSession) : S Unit :=
  if session.hasPegin then do
    let accepts ← display (ask D.user (.pegin session.totalPegin))
    unlessDeclined DECLINED_PSBT accepts
  else pure ()

/-- The screens of the extension block: outputs, pegouts, pegin. -/
def confirmMweb (network : Network) : S Unit := do
  let s ← get
  let total := (s.psbt.outputs.filter fun output => mwebOutIsMweb output.mwebOutputKeyset).length
  showMwebOutputs D network total s.psbt.outputs.zipIdx 0
  let s ← get
  match s.session with
  | none => pure ()
  | some session => do
      session.pegouts.zipIdx.forM fun (pegout, p) => showPegout D session.pegouts.length pegout p
      showPegin D session

/-- The screens of the extension block, on Litecoin only. -/
def confirmExtension (network : Network) : S Unit :=
  if networkIsLitecoin network then confirmMweb D network else pure ()

/-- The fee: that of the kernel when there is a session. -/
def confirmFee (tx : Tx) (scan : InputScan) (infos : List OutputInfo)
    (totalInputAmount outputAmount : UInt64) : S Unit := do
  let s ← get
  let accepts ← display (match s.session with
    | some session => showBtcFinalConfirmationActivity D.user session.totalFee none
    | none => showBtcFeeConfirmationActivity D.user tx (some infos) scan.flavour totalInputAmount
        outputAmount)
  unlessDeclined DECLINED_PSBT accepts

/-- Open a session when the PSBT has parts in the extension block. -/
def openSession (network : Network) : S Unit := do
  let s ← get
  if signPsbtHasMwebComponent s.psbt then onWorld beginError (mwebSessionBegin D.env network)
  else pure ()

/-- The screens of a Bitcoin or Litecoin transaction. -/
def confirmBtc (network : Network) (tx : Tx) (scan : InputScan) (infos : List OutputInfo) :
    S Unit := do
  let totalInputAmount := scan.inputAmount + scan.mwebInputAmount
  let outputAmount ← orFault (wallyVerify (D.totalOutputSatoshi tx))
  -- an MWEB input that is already signed may have lost its amount
  check (!(decide (totalInputAmount < outputAmount) && !scan.mwebAmountsIncomplete))
    (.reject CBOR_RPC_BAD_PARAMETERS "Total input amounts less than total output amounts")
  openSession D network
  let accepts ← display (showBtcTransactionOutputsActivity D.user tx (some infos))
  unlessDeclined DECLINED_PSBT accepts
  confirmExtension D network
  confirmFee D tx scan infos totalInputAmount outputAmount

/-! ### Signing -/

/-- One turn of the loop over the keys of an input. -/
def signWithKey (forLiquid : Bool) (index : ℕ) (sigType : SigType) (txhash : Bytes)
    (iter : KeyIter K) : S Unit := do
  let s ← get
  match D.signInputBip32 s.psbt index iter.keyIndex txhash iter.hdkey forLiquid with
  | none => throw (.reject CBOR_RPC_INTERNAL_ERROR "Failed to generate signature")
  | some sig =>
      let step := SessionStep.signInput index sig.signatures sig.psbtFields
        sig.taprootLeafSignatures sig.txModifiableFlags
      set { s with toWorld := step.run s.toWorld, signed := s.signed ++ [(index, sigType)] }

/-- One turn of the loop over the inputs. -/
def signInput (forLiquid : Bool) (tx : Tx) (sigType : Option SigType) (index : ℕ) : S Unit :=
  match sigType with
  | none => pure ()
  | some sigType => do
      let s ← get
      match D.getInputSignatureHash s.psbt index tx, s.psbt.inputs[index]? with
      | some txhash, some input => do
          let iters ← orFault (keyIterKeys D.wallet (inputKeySource input))
          iters.forM (signWithKey D forLiquid index sigType txhash)
      | _, _ => throw (.reject CBOR_RPC_INTERNAL_ERROR "Failed to generate tx input hash")

/-- The genesis block hash, which Liquid needs for signing. -/
def provideGenesis (network : Network) (scan : InputScan) : S Unit := do
  let s ← get
  if scan.flags.any && networkIsLiquid network && s.psbt.genesisBlockhash.isNone then
    modify fun s => { s with psbt := { s.psbt with
      genesisBlockhash := networkToGenesisHash network } }
  else pure ()

/-- The signing loop. -/
def signInputs (network : Network) (tx : Tx) (scan : InputScan) : S Unit := do
  provideGenesis network scan
  scan.sigTypes.zipIdx.forM fun (sigType, index) =>
    signInput D (networkIsLiquid network) tx sigType index

/-- The commit of a session that is open. -/
def commitSession : S Unit := do
  let s ← get
  match s.session with
  | none => pure ()
  | some _ => onWorld commitError (mwebSessionCommit D.env)

/-- The screens, by network. -/
def confirm (network : Network) (tx : Tx) (explicitFee : UInt64) (txType : TxType)
    (info : AdditionalInfo) (scan : InputScan) (infos : List OutputInfo) : S Unit :=
  if networkIsLiquid network then confirmElements D tx txType info scan infos explicitFee
  else confirmBtc D network tx scan infos

/-- A message when there is nothing to sign. -/
def noteNothingToSign (scan : InputScan) : S Unit :=
  if !scan.flags.any && scan.mwebInputCount == 0 then
    modify fun s => { s with answers := s.answers ++ [(.nothingToSign, true)] }
  else pure ()

/-- From the screens to the end; what is jumped out of with a `goto` is thrown out of here. -/
def confirmAndSign (network : Network) (tx : Tx) (explicitFee : UInt64) (txType : TxType)
    (info : AdditionalInfo) (scan : InputScan) (infos : List OutputInfo) : S Unit := do
  confirm D network tx explicitFee txType info scan infos
  noteNothingToSign scan
  signInputs D network tx scan
  commitSession D

/-- The label `cleanup`: a session that is still open is aborted.  A fault does not get there. -/
def cleanup : SignErr → S Unit
  | .fault f => throw (.fault f)
  | .reject code errmsg => do
      modify fun s => { s with toWorld := mwebSessionAbort s.toWorld }
      throw (.reject code errmsg)

/-- The transaction to sign. -/
def fetchTx (psbt : Psbt) : Except SignErr Tx :=
  if psbt.version = 0 then liftFault (wallyVerify psbt.tx)
  else
    match D.psbtExtract psbt with
    | none =>
        .error (.reject CBOR_RPC_BAD_PARAMETERS "Failed to extract valid txn from passed psbt")
    | some tx => .ok tx

/-- What is read off the PSBT before anything is shown. -/
structure Prepared where
  tx : Tx
  explicitFee : UInt64
  txType : TxType
  info : AdditionalInfo
  scan : InputScan
  infos : List OutputInfo

/-- The part of `sign_psbt` before the screens. -/
def prepare (network : Network) (additional : Option AdditionalInfo) (psbt : Psbt) :
    Except SignErr Prepared := do
  let isElements := D.psbtIsElements psbt
  rejectUnless (isElements == networkIsLiquid network) "Network/psbt type mismatch"
  let tx ← fetchTx D psbt
  assertThat (tx.inputs.length == psbt.inputs.length && tx.outputs.length == psbt.outputs.length)
  let explicitFee ← paramsTxnValidate network isElements (D.txIsElements tx) tx
  let (txType, info) ←
    if isElements then paramsAdditionalInfo tx additional else pure (.sendPayment, {})
  let scan ← scanInputs D network txType info psbt
  let infos ← liftFault (psbtUpdateOutputs D.wallet D.records network (D.getOutputScript psbt) psbt
    scan.flags scan.record)
  assertThat (explicitFee == 0 || isElements)
  pure { tx, explicitFee, txType, info, scan, infos }

/-- `sign_psbt` -/
def signPsbt (network : Network) (additional : Option AdditionalInfo) : S Unit := do
  let s ← get
  let p ← orReject (prepare D network additional s.psbt)
  tryCatch (confirmAndSign D network p.tx p.explicitFee p.txType p.info p.scan p.infos) cleanup

end Model

/-! ### A device -/

/-- A run starts without a session, with nothing answered and nothing signed. -/
def SignState.start (psbt : Psbt) (tape : Tape) : SignState where
  psbt := psbt
  session := none
  tape := tape

@[simp] theorem SignState.start_psbt (psbt : Psbt) (tape : Tape) :
    (SignState.start psbt tape).psbt = psbt := rfl

@[simp] theorem SignState.start_answers (psbt : Psbt) (tape : Tape) :
    (SignState.start psbt tape).answers = [] := rfl

@[simp] theorem SignState.start_signed (psbt : Psbt) (tape : Tape) :
    (SignState.start psbt tape).signed = [] := rfl

/-- A wallet with one key, which the entries with its fingerprint belong to; the type of a script is
read off its length. -/
def pairWallet : Wallet Unit where
  xpriv := ()
  gaservicePath := []
  service _ := ()
  pubKey _ := 2 :: List.replicate 32 1
  hash160 _ := [1, 2, 3, 4]
  bip32PrivateKeyFromParentPath _ _ := some ()
  bip32PublicKeyFromParentPath _ _ := some ()
  bip32KeyUnserialize _ := some ()
  keypathBip32Key _ keypath := some (if keypath.fingerprint = [1, 2, 3, 4] then some () else none)
  keypathBip32PublicKey _ keypath :=
    some (if keypath.fingerprint = [1, 2, 3, 4] then some () else none)
  scriptpubkeyGetType _ len :=
    some (if len = 22 then .p2wpkh else if len = 25 then .p2pkh else if len = 34 then .p2tr
      else .other)
  witnessProgramFromBytes _ bytes := some (0 :: 20 :: bytes.take 20)
  scriptpubkeyP2shFromBytes bytes := some (0xa9 :: 20 :: bytes.take 20 ++ [0x87])
  scriptpubkeyP2pkhFromBytes bytes := some (0x76 :: 0xa9 :: 20 :: bytes.take 20 ++ [0x88, 0xac])
  scriptpubkeyP2trFromBytes _ bytes := some (0x51 :: 32 :: bytes.take 32)
  scriptpubkeyMultisigFromBytes _ _ _ := none
  scriptpubkeyCsv2of2Then1FromBytes _ _ := none
  scriptpubkeyCsv2of2Then1FromBytesOpt _ _ := none
  csvBlocksFromCsv2of2Then1 _ := none

/-- A device with that wallet, no registered records, and a user who accepts whatever he is shown. -/
def pairDevice : Device Unit Pair where
  wallet := pairWallet
  records := {
    multisigNames := some []
    multisigLoad := fun _ => none
    descriptorNames := some []
    descriptorLoad := fun _ => none
    descriptorToScript := fun _ _ _ _ _ => none }
  user _ _ := true
  secp := pairSecp
  mwebDeriveKeyFromPath path := some (Bytes.ofNatBE 32 path.length)
  hasAssetInfo _ := false
  psbtIsElements _ := false
  txIsElements _ := false
  psbtExtract psbt := some {
    inputs := psbt.inputs.map fun input => { txhash := input.mwebSpentOutputId, index := 0 }
    outputs := psbt.outputs.map fun output =>
      { satoshi := output.amount.getD 0, script := output.script } }
  getOutputScript psbt i := (psbt.outputs[i]?).map PsbtOutput.script
  getInputSignatureType psbt i := do
    let input ← psbt.inputs[i]?
    let utxo ← input.bestUtxo
    pure (match pairWallet.scriptType utxo.script with
      | some .p2wpkh => .swV0
      | some .p2tr => .swV1
      | _ => .preSw)
  totalOutputSatoshi tx := some (tx.outputs.map TxOutput.satoshi).sum
  getInputSignatureHash _ _ _ := some (List.replicate 32 0)
  signInputBip32 psbt i _ _ _ _ := do
    let input ← psbt.inputs[i]?
    pure {
      signatures := input.signatures.add (.bytes (pairWallet.pubKey ()), [0x30])
      psbtFields := input.psbtFields
      taprootLeafSignatures := input.taprootLeafSignatures
      txModifiableFlags := psbt.txModifiableFlags }

/-- A device that has memory and random bytes. -/
def plainTape : Tape where
  allocs _ := true
  trng _ := 1

/-- A segwit script. -/
def segwitScript : Bytes := 0 :: 20 :: List.replicate 20 7

/-- A run that returns. -/
def runReturns {K P : Type} (D : Device K P) (network : Network) (psbt : Psbt) (tape : Tape) : Bool :=
  match (signPsbt D network none).run (.start psbt tape) with
  | .ok _ _ => true
  | .error _ _ => false

theorem exists_run_of_returns {K P : Type} (D : Device K P) (network : Network) (psbt : Psbt)
    (tape : Tape)
    (h : runReturns D network psbt tape = true) :
    ∃ s', (signPsbt D network none).run (.start psbt tape) = .ok () s' := by
  cases hrun : (signPsbt D network none).run (.start psbt tape) with
  | ok a s' => exact ⟨s', rfl⟩
  | error e s' => simp [runReturns, hrun] at h

end Jade
