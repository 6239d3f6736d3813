/-
**The atomic signing session (`mweb_atomic_sign.c`).**

A session is opened on a PSBT, built up without touching it, and either committed or aborted.
Opening it takes a copy of everything a commit or the ordinary signing loop may overwrite, then
derives the inputs, builds the outputs, checks the plain balance and signs the kernel; committing
it writes all of that into the PSBT; aborting it puts the copies back.

The build is a program over the session under construction, so that a failure hands the session to
the abort as far as it had got.  The PSBT is an argument of the build and not part of its state: the
build reads it and never writes to it.

Main definitions:

* `Jade.Mweb.Env` — what the session gets from the wallet and from `libwally`;
* `Jade.Mweb.MwebSession` and its parts — the session structs;
* `Jade.Mweb.mwebSessionRestore` — the effect of an abort on the PSBT;
* `Jade.Mweb.buildSession` — the body of `mweb_session_begin`;
* `Jade.Mweb.World`, `Jade.Mweb.mwebSessionBegin`, `Jade.Mweb.mwebSessionCommit`,
  `Jade.Mweb.mwebSessionAbort` — the calls of the signing process.
-/

import Jade.Lib.Slots
import Jade.Mweb.Kernel
import Jade.Mweb.Output
import Jade.Wallet.Script

set_option relaxedAutoImplicit false
set_option autoImplicit false

namespace Jade.Mweb

open Exec

/-! ### The surroundings -/

/-- What the session calls outside this directory: the curve, the wallet's fingerprint and keys,
and the classification of a script of a declared length. -/
structure Env (P : Type) extends Secp P where
  /-- `wallet_get_fingerprint` -/
  walletFingerprint : Bytes
  /-- `mweb_derive_key_from_path` -/
  mwebDeriveKeyFromPath : List UInt32 → Option Bytes
  /-- `wally_scriptpubkey_get_type` -/
  scriptpubkeyGetType : Bytes → UInt64 → Option ScriptType

/-! ### The session structs -/

/-- `session_input_t` -/
structure SessionInput where
  psbtIndex : ℕ
  state : MwebInputState
  prevKeyset : UInt16
  prevInputSignature : Bytes
  prevInputPubkey : Bytes

/-- `session_output_t` -/
structure SessionOutput where
  psbtIndex : ℕ
  value : UInt64
  features : UInt8
  blind : Bytes
  senderKey : Bytes
  commit : Bytes
  senderPubkey : Bytes
  outputPubkey : Bytes
  standardFields : Bytes
  rangeProof : Bytes
  signature : Bytes

/-- `session_kernel_t` -/
structure SessionKernel where
  excessCommitment : Bytes := []
  stealthExcess : Bytes := []
  signature : Bytes := []
  txOffsetFinal : Bytes := []
  stealthOffsetFinal : Bytes := []
  hasStealthExcess : Bool := false
  prevHasExcessCommitment : Bool
  prevExcessCommitment : Bytes
  prevHasStealthExcess : Bool
  prevStealthExcess : Bytes
  prevHasSignature : Bool
  prevSignature : Bytes

/-- `session_pegout_t` -/
structure SessionPegout where
  kernelIndex : ℕ
  amount : UInt64
  script : Bytes
  scriptLen : UInt64
  confirmed : Bool

/-- `std_input_snapshot_t`; a map snapshot that is not valid is `none`. -/
structure StdInputSnapshot where
  signatures : Option WallyMap := none
  psbtFields : Option WallyMap := none
  taprootLeafSignatures : Option WallyMap := none

/-- `mweb_output_snapshot_t` -/
structure MwebOutputSnapshot where
  unknowns : Option WallyMap := none
  mwebOutputKeyset : UInt16 := 0
  mwebCommit : Bytes := []
  mwebFeatures : UInt8 := 0
  mwebSenderPubkey : Bytes := []
  mwebOutputPubkey : Bytes := []
  mwebStandardFields : Bytes := []
  mwebSignature : Bytes := []
  mwebRangeProof : Bytes := []

/-- `struct mweb_session` -/
structure MwebSession where
  inputs : List SessionInput := []
  outputs : List SessionOutput := []
  kernel : SessionKernel
  kernelIndex : ℕ := 0
  pegouts : List SessionPegout := []
  totalFee : UInt64 := 0
  totalPegin : UInt64 := 0
  totalPegout : UInt64 := 0
  totalInputValue : UInt64 := 0
  totalOutputValue : UInt64 := 0
  hasPegin : Bool := false
  prevHasTxOffset : Bool
  prevTxOffset : Bytes
  prevHasStealthOffset : Bool
  prevStealthOffset : Bytes
  stdInputSnapshots : List StdInputSnapshot := []
  mwebOutputSnapshots : List MwebOutputSnapshot := []

/-! ### Snapshots -/

/-- `snapshot_kernel` -/
def snapshotKernel (k : PsbtKernel) : SessionKernel where
  prevHasExcessCommitment := k.hasExcessCommitment
  prevExcessCommitment := k.excessCommitment
  prevHasStealthExcess := k.hasStealthExcess
  prevStealthExcess := k.stealthExcess
  prevHasSignature := k.hasSignature
  prevSignature := k.signature

/-- The session after `calloc`, `snapshot_kernel` and `snapshot_globals`. -/
def MwebSession.create (psbt : Psbt) (k : PsbtKernel) : MwebSession where
  kernel := snapshotKernel k
  prevHasTxOffset := psbt.hasMwebTxOffset
  prevTxOffset := psbt.mwebTxOffset
  prevHasStealthOffset := psbt.hasMwebStealthOffset
  prevStealthOffset := psbt.mwebStealthOffset

/-- `snapshot_wally_map`: the two calls that allocate. -/
def snapshotWallyMap (src : WallyMap) : M (Option WallyMap) := do
  if ← alloc then
    if ← alloc then pure (some (WallyMap.combine .empty src)) else pure none
  else pure none

/-- `snapshot_std_input`: three copies or none. -/
def snapshotStdInput (inp : PsbtInput) : M (Option StdInputSnapshot) := do
  match ← snapshotWallyMap inp.signatures with
  | none => pure none
  | some signatures =>
      match ← snapshotWallyMap inp.psbtFields with
      | none => pure none
      | some psbtFields =>
          match ← snapshotWallyMap inp.taprootLeafSignatures with
          | none => pure none
          | some leafSignatures =>
              pure (some {
                signatures := some signatures, psbtFields := some psbtFields
                taprootLeafSignatures := some leafSignatures })

/-- The memory for the copy of a range proof; there is nothing to copy when there is none. -/
def allocRangeProof (rangeProof : Bytes) : M Bool :=
  if rangeProof.isEmpty then pure true else alloc

/-- `snapshot_mweb_output` -/
def snapshotMwebOutput (po : PsbtOutput) : M (Option MwebOutputSnapshot) := do
  match ← snapshotWallyMap po.unknowns with
  | none => pure none
  | some unknowns =>
      if ← allocRangeProof po.mwebRangeProof then
        pure (some {
          unknowns := some unknowns
          mwebOutputKeyset := po.mwebOutputKeyset
          mwebCommit := po.mwebCommit
          mwebFeatures := po.mwebFeatures
          mwebSenderPubkey := po.mwebSenderPubkey
          mwebOutputPubkey := po.mwebOutputPubkey
          mwebStandardFields := po.mwebStandardFields
          mwebSignature := po.mwebSignature
          mwebRangeProof := po.mwebRangeProof })
      else pure none

/-! ### Putting the snapshots back -/

/-- `restore_globals` -/
def restoreGlobals (s : MwebSession) (psbt : Psbt) : Psbt :=
  { psbt with
    hasMwebTxOffset := s.prevHasTxOffset
    mwebTxOffset := s.prevTxOffset
    hasMwebStealthOffset := s.prevHasStealthOffset
    mwebStealthOffset := s.prevStealthOffset }

/-- `restore_kernel` -/
def restoreKernel (sk : SessionKernel) (k : PsbtKernel) : PsbtKernel :=
  { k with
    hasExcessCommitment := sk.prevHasExcessCommitment
    excessCommitment := sk.prevExcessCommitment
    hasStealthExcess := sk.prevHasStealthExcess
    stealthExcess := sk.prevStealthExcess
    hasSignature := sk.prevHasSignature
    signature := sk.prevSignature }

/-- `restore_input` -/
def restoreInput (si : SessionInput) (inp : PsbtInput) : PsbtInput :=
  { inp with
    mwebKeyset := si.prevKeyset
    mwebInputSignature := si.prevInputSignature
    mwebInputPubkey := si.prevInputPubkey }

/-- `restore_wally_map`: a snapshot that is not valid leaves the map alone. -/
def restoreWallyMap (snap : Option WallyMap) (live : WallyMap) : WallyMap := snap.getD live

/-- `restore_std_input` -/
def restoreStdInput (snap : StdInputSnapshot) (inp : PsbtInput) : PsbtInput :=
  { inp with
    signatures := restoreWallyMap snap.signatures inp.signatures
    psbtFields := restoreWallyMap snap.psbtFields inp.psbtFields
    taprootLeafSignatures :=
      restoreWallyMap snap.taprootLeafSignatures inp.taprootLeafSignatures }

/-- `restore_mweb_output` -/
def restoreMwebOutput (snap : MwebOutputSnapshot) (po : PsbtOutput) : PsbtOutput :=
  match snap.unknowns with
  | none => po
  | some unknowns =>
      { po with
        mwebCommit := snap.mwebCommit
        mwebFeatures := snap.mwebFeatures
        mwebSenderPubkey := snap.mwebSenderPubkey
        mwebOutputPubkey := snap.mwebOutputPubkey
        mwebStandardFields := snap.mwebStandardFields
        mwebSignature := snap.mwebSignature
        mwebRangeProof := snap.mwebRangeProof
        mwebOutputKeyset := snap.mwebOutputKeyset
        unknowns := unknowns }

/-- What `mweb_session_abort` does to the PSBT.  Writing past the end of an array is left out by the
code's own tests, and `List.modify` does nothing there. -/
def mwebSessionRestore (s : MwebSession) (psbt : Psbt) : Psbt :=
  let psbt := restoreGlobals s psbt
  { psbt with
    mwebKernels := psbt.mwebKernels.modify s.kernelIndex (restoreKernel s.kernel)
    inputs := overlay restoreStdInput s.stdInputSnapshots
      (writeAll SessionInput.psbtIndex restoreInput s.inputs psbt.inputs)
    outputs := overlay restoreMwebOutput s.mwebOutputSnapshots psbt.outputs }

/-! ### Amounts -/

/-- `MWEB_LTC_MAX_LITOSHI` -/
def MWEB_LTC_MAX_LITOSHI : UInt64 := 84000000 * 100000000

/-- `atomic_in_money_range` -/
def atomicInMoneyRange (amount : UInt64) : Bool := amount ≤ MWEB_LTC_MAX_LITOSHI

/-- `atomic_u64_add` -/
def atomicU64Add (a b : UInt64) : Option UInt64 :=
  if a > 0xFFFFFFFFFFFFFFFF - b then none else some (a + b)

theorem isAdd_atomicU64Add : Checked.IsAdd atomicU64Add := by
  intro a b r h
  rw [atomicU64Add, Option.ite_none_left_eq_some] at h
  obtain ⟨hle, hr⟩ := h
  obtain rfl : a + b = r := Option.some.inj hr
  have hb := b.toNat_lt
  have hsub : (0xFFFFFFFFFFFFFFFF - b : UInt64).toNat = 0xFFFFFFFFFFFFFFFF - b.toNat := by
    rw [UInt64.toNat_sub_of_le _ _ (by rw [UInt64.le_iff_toNat_le]; simp; omega)]
    rfl
  rw [GT.gt, UInt64.lt_iff_toNat_lt, hsub] at hle
  rw [UInt64.toNat_add]
  omega

/-- Add to a running total and require the total to stay in the money range. -/
def addToTotal (total amount : UInt64) : Option UInt64 := do
  let r ← atomicU64Add total amount
  if atomicInMoneyRange r then pure r else none

theorem isAdd_addToTotal : Checked.IsAdd addToTotal := by
  intro a b r h
  rw [addToTotal, Option.bind_eq_bind, Option.bind_eq_some_iff] at h
  obtain ⟨r', hr', h⟩ := h
  rw [Option.pure_def, Option.ite_none_right_eq_some] at h
  obtain rfl : r' = r := Option.some.inj h.2
  exact isAdd_atomicU64Add hr'

section Model

variable {P : Type} (env : Env P)

/-! ### Inputs and outputs -/

/-- `wally_map_keypath_get_item_path` of the first item, which must not be empty. -/
def originPath (origin : List Keypath) : Option (List UInt32) := do
  let item ← origin.head?
  if item.path.isEmpty then none else pure item.path

/-- `derive_owned_input`; returning at all means that the input is owned. -/
def deriveOwnedInput (inp : PsbtInput) (i : ℕ) : M SessionInput := do
  let walletFpLe := env.walletFingerprint.reverse
  check (!mwebInHas inp.mwebKeyset MWEB_IN_SHARED_SECRET_KEY) .foreignMwebInput
  check (mwebInHas inp.mwebKeyset MWEB_IN_KEY_EXCHANGE_PUBKEY_KEY) .foreignMwebInput
  let scanItem ← orFail inp.mwebScanKeyOrigin.head? .foreignMwebInput
  let spendItem ← orFail inp.mwebSpendKeyOrigin.head? .foreignMwebInput
  check (scanItem.fingerprint == walletFpLe && spendItem.fingerprint == walletFpLe)
    .foreignMwebInput
  let scanPath ← orFail (originPath inp.mwebScanKeyOrigin) .internal
  let scanKey ← orFail (env.mwebDeriveKeyFromPath scanPath) .internal
  let spendPath ← orFail (originPath inp.mwebSpendKeyOrigin) .internal
  let spendKey ← orFail (env.mwebDeriveKeyFromPath spendPath) .internal
  let state ← mwebDeriveInputState env.toSecp scanKey spendKey inp.mwebAddressIndex
    inp.mwebInputFeatures inp.mwebSpentOutputId inp.mwebSpentOutputPubkey inp.mwebInputAmount
    inp.mwebKeyExchangePubkey
  check (mwebInHas inp.mwebKeyset MWEB_IN_SPENT_OUTPUT_COMMIT_KEY) .inputCommitMismatch
  check (inp.mwebSpentOutputCommit == state.outputCommit) .inputCommitMismatch
  pure {
    psbtIndex := i, state, prevKeyset := inp.mwebKeyset
    prevInputSignature := inp.mwebInputSignature, prevInputPubkey := inp.mwebInputPubkey }

/-- The extra data of an output, whose presence must match the feature bit. -/
def outputExtraData (po : PsbtOutput) (features : UInt8) : Option Bytes :=
  if mwebOutHas po.mwebOutputKeyset MWEB_OUT_EXTRA_DATA_KEY then
    if !hasBit features MWEB_OUTPUT_EXTRA_DATA_BIT ||
        decide (po.mwebExtraData.length > MWEB_OUTPUT_MAX_EXTRA_DATA_LEN) then none
    else some po.mwebExtraData
  else if hasBit features MWEB_OUTPUT_EXTRA_DATA_BIT then none
  else some []

/-- `build_mweb_output`: whatever goes wrong while building is an internal fault. -/
def buildMwebOutput (po : PsbtOutput) (i : ℕ) : M SessionOutput := do
  let value ← orFail po.amount .outputFieldMismatch
  check (mwebOutHas po.mwebOutputKeyset MWEB_OUT_STEALTH_ADDRESS_KEY) .outputFieldMismatch
  let features :=
    if mwebOutHas po.mwebOutputKeyset MWEB_OUT_FEATURES_KEY then po.mwebFeatures
    else MWEB_OUTPUT_STANDARD_FIELDS_BIT
  let extraData ← orFail (outputExtraData po features) .outputFieldMismatch
  let senderKey ← orFail (← drawScalar 8) .internal
  let built ← tryCatch
    (mwebBuildOutput env.toSecp senderKey (po.mwebStealthAddress.take 33)
      (po.mwebStealthAddress.drop 33) value features extraData)
    fun _ => throw .internal
  pure {
    psbtIndex := i, value, features, senderKey, blind := built.blind, commit := built.commit
    senderPubkey := built.senderPubkey, outputPubkey := built.outputPubkey
    standardFields := built.keyExchangePubkey ++ [built.viewTag] ++
      Bytes.ofNatLE 8 built.maskedValue.toNat ++ built.maskedNonce
    rangeProof := built.rangeProof, signature := built.signature }

/-! ### Building the session -/

/-- A session under construction. -/
structure Build where
  session : MwebSession
  tape : Tape

/-- A program over the session under construction. -/
abbrev B : Type → Type := EStateM MwebErr Build

/-- A call that does not look at the session. -/
def call {α : Type} (x : M α) : B α := zoom Build.tape (fun t b => { b with tape := t }) x

@[simp] theorem sat_call {α : Type} {Q : α → Build → Prop} {E : MwebErr → Build → Prop} {b : Build}
    (x : M α) :
    Sat (call x) Q E b ↔
      Sat x (fun a t => Q a { b with tape := t }) (fun e t => E e { b with tape := t }) b.tape :=
  sat_zoom _ _ _

/-- An assignment to fields of the session. -/
def update (f : MwebSession → MwebSession) : B PUnit :=
  modify fun b => { b with session := f b.session }

/-- Read the session. -/
def current : B MwebSession := do
  let b ← get
  pure b.session

/-- `calloc` of an array that is only made when it is not empty. -/
def callocArray (n : ℕ) : B Unit :=
  if n = 0 then pure () else do check (← call alloc) .internal

/-- The snapshots of the standard inputs. -/
def snapshotInputs (psbt : Psbt) : B Unit := do
  callocArray psbt.inputs.length
  update fun s => { s with stdInputSnapshots := List.replicate psbt.inputs.length {} }
  psbt.inputs.zipIdx.forM fun (inp, i) => do
    let snap ← call (do orFail (← snapshotStdInput inp) .internal)
    update fun s => { s with stdInputSnapshots := s.stdInputSnapshots.set i snap }

/-- The snapshots of the outputs. -/
def snapshotOutputs (psbt : Psbt) : B Unit := do
  callocArray psbt.outputs.length
  update fun s => { s with mwebOutputSnapshots := List.replicate psbt.outputs.length {} }
  psbt.outputs.zipIdx.forM fun (po, i) => do
    let snap ← call (do orFail (← snapshotMwebOutput po) .internal)
    update fun s => { s with mwebOutputSnapshots := s.mwebOutputSnapshots.set i snap }

/-- The feature bits of the kernel agree with the fields it has. -/
def featuresMatch (features : UInt8) (kernel : PsbtKernel) : Bool :=
  hasBit features MWEB_KERNEL_FEE_BIT == kernel.fee.isSome &&
  hasBit features MWEB_KERNEL_PEGIN_BIT == kernel.peginAmount.isSome &&
  hasBit features MWEB_KERNEL_PEGOUT_BIT == !kernel.pegouts.items.isEmpty &&
  hasBit features MWEB_KERNEL_HEIGHT_LOCK_BIT == kernel.lockHeight.isSome &&
  hasBit features MWEB_KERNEL_EXTRA_DATA_BIT == !kernel.extraData.isEmpty

/-- The scalar of a stealth-excess kernel. -/
def drawStealthKey (features : UInt8) : M (Option Bytes) :=
  if hasBit features MWEB_KERNEL_STEALTH_EXCESS_BIT then do
    let key ← orFail (← drawScalar 8) .internal
    pure (some key)
  else pure none

/-- One turn of the loop over the inputs. -/
def buildInput (inp : PsbtInput) (i : ℕ) : B Unit :=
  if mwebInHasOutputId inp.mwebKeyset then do
    let si ← call (deriveOwnedInput env inp i)
    check (atomicInMoneyRange inp.mwebInputAmount) .balanceFail
    let s ← current
    let total ← call (orFail (addToTotal s.totalInputValue inp.mwebInputAmount) .balanceFail)
    update fun s => { s with totalInputValue := total, inputs := s.inputs ++ [si] }
  else pure ()

/-- One turn of the loop over the outputs. -/
def buildOutput (po : PsbtOutput) (i : ℕ) : B Unit :=
  if mwebOutIsMweb po.mwebOutputKeyset then do
    let so ← call (buildMwebOutput env po i)
    check (atomicInMoneyRange so.value) .balanceFail
    let s ← current
    let total ← call (orFail (addToTotal s.totalOutputValue so.value) .balanceFail)
    update fun s => { s with totalOutputValue := total, outputs := s.outputs ++ [so] }
  else pure ()

/-- `atomic_pegout_script_supported`: a pegout must land on an address that can be shown. -/
def atomicPegoutScriptSupported (script : Bytes) (scriptLen : UInt64) : Bool :=
  scriptLen != 0 &&
    match env.scriptpubkeyGetType script scriptLen with
    | none | some .multisig | some .other => false
    | some _ => true

/-- One turn of the loop over the pegouts. -/
def buildPegout (value : Bytes) : B Unit := do
  let pegout ← call (orFail (atomicParsePegout value) .kernelFeatureMismatch)
  check (atomicInMoneyRange pegout.amount) .balanceFail
  check (atomicPegoutScriptSupported env pegout.script pegout.scriptLen) .kernelFeatureMismatch
  let s ← current
  let total ← call (orFail (addToTotal s.totalPegout pegout.amount) .balanceFail)
  update fun s =>
    { s with
      totalPegout := total
      pegouts := s.pegouts ++ [{
        kernelIndex := 0, amount := pegout.amount, script := pegout.script
        scriptLen := pegout.scriptLen, confirmed := false }] }

/-- The kernel's own amounts. -/
def buildKernelTotals (kernel : PsbtKernel) : B Unit := do
  let fee := kernel.fee.getD 0
  let pegin := kernel.peginAmount.getD 0
  update fun s =>
    { s with totalFee := fee, totalPegin := pegin, hasPegin := kernel.peginAmount.isSome }
  check (atomicInMoneyRange fee && atomicInMoneyRange pegin) .balanceFail

/-- `Sum(v_in) + pegin == Sum(v_out) + fee + pegout` -/
def sessionBalanced (s : MwebSession) : Bool :=
  let sides := do
    let inputSide ← atomicU64Add s.totalInputValue s.totalPegin
    let outputSide ← atomicU64Add s.totalOutputValue s.totalFee
    let outputSide ← atomicU64Add outputSide s.totalPegout
    pure (inputSide == outputSide)
  sides.getD false

/-- The parameters handed to the kernel signer. -/
def kernelParams (s : MwebSession) (kernel : PsbtKernel) (features : UInt8)
    (stealthKey : Option Bytes) (receivedTxOffset receivedStealthOffset : Bytes) :
    MwebKernelSignParams where
  inputs := s.inputs.map fun si =>
    { value := si.state.value, blind := si.state.blind, stealthTweak := si.state.stealthTweak }
  outputs := s.outputs.map fun so => { value := so.value, blind := so.blind }
  features := features
  fee := kernel.fee.map fun _ => s.totalFee
  peginAmount := kernel.peginAmount.map fun _ => s.totalPegin
  lockHeight := kernel.lockHeight
  pegouts := kernel.pegouts
  extraData := kernel.extraData
  stealthKeyOrNull := stealthKey
  receivedTxOffset := receivedTxOffset
  receivedStealthOffset := receivedStealthOffset

/-- Signing the kernel from the session. -/
def buildKernel (kernel : PsbtKernel) (features : UInt8) (stealthKey : Option Bytes) : B Unit := do
  let s ← current
  callocArray s.inputs.length
  callocArray s.outputs.length
  let receivedTxOffset ← call (do
    orFail (← sumModN zero32 (s.outputs.map SessionOutput.blind)) .offsetAccumulateFail)
  let receivedStealthOffset ← call (do
    orFail (← sumModN zero32 (s.outputs.map SessionOutput.senderKey)) .offsetAccumulateFail)
  let ko ← call (mwebSignKernel env.toSecp
    (kernelParams s kernel features stealthKey receivedTxOffset receivedStealthOffset))
  update fun s =>
    { s with
      kernel := { s.kernel with
        excessCommitment := ko.excessKG
        stealthExcess := ko.stealthExcessG
        signature := ko.signature
        txOffsetFinal := ko.txOffsetFinal
        stealthOffsetFinal := ko.stealthOffsetFinal } }

/-- What `mweb_session_begin` does once the snapshots are taken. -/
def buildBody (psbt : Psbt) (kernel : PsbtKernel) : B Unit := do
  let features ← call (orFail kernel.features .kernelFeatureMismatch)
  check (featuresMatch features kernel) .kernelFeatureMismatch
  let stealthKey ← call (drawStealthKey features)
  update fun s =>
    { s with kernel := { s.kernel with
        hasStealthExcess := hasBit features MWEB_KERNEL_STEALTH_EXCESS_BIT } }
  callocArray (psbt.inputs.filter fun inp => mwebInHasOutputId inp.mwebKeyset).length
  callocArray (psbt.outputs.filter fun po => mwebOutIsMweb po.mwebOutputKeyset).length
  psbt.inputs.zipIdx.forM fun (inp, i) => buildInput env inp i
  psbt.outputs.zipIdx.forM fun (po, i) => buildOutput env po i
  buildKernelTotals kernel
  callocArray kernel.pegouts.items.length
  kernel.pegouts.items.forM fun item => buildPegout env item.2
  let s ← current
  check (sessionBalanced s) .balanceFail
  buildKernel env kernel features stealthKey

/-- The body of `mweb_session_begin` after the first snapshots. -/
def buildSession (psbt : Psbt) (kernel : PsbtKernel) : B Unit := do
  snapshotInputs psbt
  snapshotOutputs psbt
  buildBody env psbt kernel

/-! ### The calls of the signing process -/

/-- The PSBT, the session on the heap, and chance. -/
structure World where
  psbt : Psbt
  session : Option MwebSession
  tape : Tape

/-- A call of the signing process. -/
abbrev W : Type → Type := EStateM MwebErr World

/-- `mweb_session_abort`: put the copies back and free the session. -/
def mwebSessionAbort (w : World) : World :=
  match w.session with
  | none => w
  | some s => { w with psbt := mwebSessionRestore s w.psbt, session := none }

/-- `mweb_session_begin` -/
def mwebSessionBegin (networkId : Network) : W Unit := do
  modify fun w => { w with session := none }
  check (networkIsLitecoin networkId) .unsupportedNetwork
  let w ← get
  match w.psbt.mwebKernels with
  | [] => throw .missingKernel
  | _ :: _ :: _ => throw .multiKernelUnsupported
  | [kernel] => do
      check (← zoom World.tape (fun t w => { w with tape := t }) alloc) .internal
      let w ← get
      match buildSession env w.psbt kernel
          { session := MwebSession.create w.psbt kernel, tape := w.tape } with
      | .ok _ b => set { w with session := some b.session, tape := b.tape }
      | .error e b => do
          set (mwebSessionAbort { w with session := some b.session, tape := b.tape })
          throw e

/-- `mweb_session_mark_pegout_confirmed` -/
def mwebSessionMarkPegoutConfirmed (idx : ℕ) (s : MwebSession) : MwebSession :=
  { s with pegouts := s.pegouts.modify idx fun p => { p with confirmed := true } }

/-- The bits a commit sets for an output. -/
def committedOutputBits : UInt16 :=
  mwebOutBit MWEB_OUT_COMMIT_KEY ||| mwebOutBit MWEB_OUT_FEATURES_KEY |||
  mwebOutBit MWEB_OUT_SENDER_PUBKEY_KEY ||| mwebOutBit MWEB_OUT_OUTPUT_PUBKEY_KEY |||
  mwebOutBit MWEB_OUT_STANDARD_FIELDS_KEY ||| mwebOutBit MWEB_OUT_RANGE_PROOF_KEY |||
  mwebOutBit MWEB_OUT_SIGNATURE_KEY

/-- What a commit writes into an output. -/
def writeOutput (so : SessionOutput) (po : PsbtOutput) : PsbtOutput :=
  { po with
    mwebRangeProof := so.rangeProof
    mwebCommit := so.commit
    mwebFeatures := so.features
    mwebSenderPubkey := so.senderPubkey
    mwebOutputPubkey := so.outputPubkey
    mwebStandardFields := so.standardFields
    mwebSignature := so.signature
    mwebOutputKeyset := po.mwebOutputKeyset ||| committedOutputBits }

/-- What a commit writes into an input. -/
def writeInput (si : SessionInput) (signature : Bytes) (inp : PsbtInput) : PsbtInput :=
  { inp with
    mwebInputSignature := signature
    mwebInputPubkey := si.state.inputPubkey
    mwebKeyset := inp.mwebKeyset ||| mwebInBit MWEB_IN_INPUT_SIGNATURE_KEY |||
      mwebInBit MWEB_IN_INPUT_PUBKEY_KEY }

/-- What a commit writes into the kernel. -/
def writeKernel (sk : SessionKernel) (k : PsbtKernel) : PsbtKernel :=
  { k with
    excessCommitment := sk.excessCommitment
    hasExcessCommitment := true
    signature := sk.signature
    hasSignature := true
    stealthExcess := if sk.hasStealthExcess then sk.stealthExcess else List.replicate 33 0
    hasStealthExcess := sk.hasStealthExcess }

/-- What a commit writes into the global fields. -/
def writeOffsets (sk : SessionKernel) (psbt : Psbt) : Psbt :=
  { psbt with
    mwebTxOffset := sk.txOffsetFinal
    hasMwebTxOffset := true
    mwebStealthOffset := sk.stealthOffsetFinal
    hasMwebStealthOffset := true }

/-- A call that does not look at the PSBT or the session. -/
def callW {α : Type} (x : M α) : W α := zoom World.tape (fun t w => { w with tape := t }) x

@[simp] theorem sat_callW {α : Type} {Q : α → World → Prop} {E : MwebErr → World → Prop}
    {w : World} (x : M α) :
    Sat (callW x) Q E w ↔
      Sat x (fun a t => Q a { w with tape := t }) (fun e t => E e { w with tape := t }) w.tape :=
  sat_zoom _ _ _

/-- A write to the PSBT. -/
def writePsbt (f : Psbt → Psbt) : W PUnit := modify fun w => { w with psbt := f w.psbt }

/-- One turn of the loop over the session's outputs. -/
def commitOutput (so : SessionOutput) : W Unit := do
  let w ← get
  check (decide (so.psbtIndex < w.psbt.outputs.length)) .internal
  check (← callW alloc) .internal
  writePsbt fun psbt => { psbt with outputs := psbt.outputs.modify so.psbtIndex (writeOutput so) }

/-- One turn of the loop over the session's inputs. -/
def commitInput (si : SessionInput) : W Unit := do
  let w ← get
  let inp ← callW (orFail w.psbt.inputs[si.psbtIndex]? .internal)
  let signature ← callW (mwebSignInputFromState env.toSecp si.state inp.mwebExtraData)
  writePsbt fun psbt =>
    { psbt with inputs := psbt.inputs.modify si.psbtIndex (writeInput si signature) }

/-- The kernel fields and the offsets. -/
def commitKernel (s : MwebSession) : W Unit := do
  let w ← get
  check (decide (s.kernelIndex < w.psbt.mwebKernels.length)) .internal
  writePsbt fun psbt =>
    writeOffsets s.kernel
      { psbt with mwebKernels := psbt.mwebKernels.modify s.kernelIndex (writeKernel s.kernel) }

/-- The writes of `mweb_session_commit`, in order. -/
def commitBody (s : MwebSession) : W Unit := do
  check (s.pegouts.all SessionPegout.confirmed) .pegoutsNotDisplayed
  s.outputs.forM commitOutput
  s.inputs.forM (commitInput env)
  commitKernel s

/-- `mweb_session_commit` -/
def mwebSessionCommit : W Unit := do
  let w ← get
  match w.session with
  | none => throw .internal
  | some s =>
      tryCatch (commitBody env s) fun e => do
        modify mwebSessionAbort
        throw e
      modify fun w => { w with session := none }

end Model

/-- A wallet over pairs of scalars: its keys are the lengths of their paths, and a script of 22
bytes is a witness key hash. -/
def pairEnv : Env Pair where
  toSecp := pairSecp
  walletFingerprint := [1, 2, 3, 4]
  mwebDeriveKeyFromPath path := some (Bytes.ofNatBE 32 path.length)
  scriptpubkeyGetType _ len := some (if len = 22 then .p2wpkh else .other)

end Jade.Mweb
