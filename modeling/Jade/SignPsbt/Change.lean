/-
**Which outputs are the wallet's own (`sign_psbt.c`).**

The device tries to recognise outputs that pay back to the wallet, so that they need not be shown.
For an output with one key it rebuilds the singlesig script of that key; with several keys it
rebuilds the script of Green, or the script of the one registered multisig or descriptor wallet
that all the signed inputs belong to.

Main definitions:

* `Jade.isGreenMultisigSigners` — whether a list of keys is that of a Green multisig;
* `Jade.verifyGaScriptMatches`, `Jade.verifySinglesigScriptMatches`,
  `Jade.verifyMultisigScriptMatches`, `Jade.verifyDescriptorScriptMatches` — the rebuilt scripts;
* `Jade.Records`, `Jade.getSuitableMultisigRecord`, `Jade.getSuitableDescriptorRecord` — the
  registered wallets;
* `Jade.OutputInfo`, `Jade.SigningFlags`, `Jade.psbtUpdateOutputs` — the flags of the outputs.
-/

import Jade.Keychain.Storage
import Jade.Psbt.KeyIter

set_option relaxedAutoImplicit false
set_option autoImplicit false

namespace Jade

/-! ### Registered wallets -/

/-- `multisig_data_t` -/
structure MultisigData where
  variant : ScriptVariant
  sorted : Bool
  threshold : ℕ
  xpubs : List Bytes
  deriving DecidableEq

/-- `descriptor_data_t` -/
structure DescriptorData where
  script : Bytes
  values : List (Bytes × Bytes)
  deriving DecidableEq

/-- The registered wallets: their names, the records that load, and the script a descriptor gives on
a branch at an index (`descriptor_to_script`). -/
structure Records where
  multisigNames : Option (List String)
  multisigLoad : String → Option MultisigData
  descriptorNames : Option (List String)
  descriptorLoad : String → Option DescriptorData
  descriptorToScript : String → DescriptorData → Network → ℕ → UInt32 → Option Bytes

section Model

variable {K : Type} (W : Wallet K) (records : Records)

/-! ### Green -/

/-- The locals of `is_green_multisig_signers`; a path that was not seen is empty. -/
structure GreenScan where
  pathLen : ℕ := 0
  userPath : List UInt32 := []
  gaPath : List UInt32 := []
  recoveryPath : List UInt32 := []
  recoveryPubkey : Bytes := []

/-- The paths of the iterator's wallet: the wallet's key may be taken for the recovery key and for
the user key. -/
def greenOwnKey (isRecovery : Bool) (keypath : Keypath) (s : GreenScan) : Option GreenScan := do
  let s ←
    if isRecovery && s.pathLen == GA_RECOVERY_PATH_LEN then
      if !s.recoveryPath.isEmpty || decide (keypath.path.length > GA_RECOVERY_PATH_LEN) then none
      else some { s with recoveryPath := keypath.path }
    else some s
  if !s.userPath.isEmpty || decide (keypath.path.length > GA_USER_PATH_MAX_LEN) then none
  else some { s with userPath := keypath.path }

/-- A key that is neither the service's nor the wallet's. -/
def greenOtherKey (isRecovery wantRecovery : Bool) (keypath : Keypath) (s : GreenScan) :
    Option GreenScan :=
  let s := { s with pathLen := keypath.path.length }
  if isRecovery && s.userPath.isEmpty && (isPotentialGreenUserPath keypath.path).isSome then
    some { s with userPath := keypath.path }
  else if s.recoveryPath.isEmpty && isPotentialGreenRecoveryPath keypath.path then
    if wantRecovery && keypath.pubkey.length != EC_PUBLIC_KEY_LEN then none
    else some { s with recoveryPath := keypath.path, recoveryPubkey := keypath.pubkey }
  else none

/-- One turn of the loop of `is_green_multisig_signers`. -/
def greenScanKey (iter : KeyIter K) (gaFingerprint : Bytes) (wantRecovery : Bool) (s : GreenScan)
    (keypath : Keypath) : Option GreenScan :=
  if keypath.fingerprint == gaFingerprint then
    if !s.gaPath.isEmpty || decide (keypath.path.length > MAX_GASERVICE_PATH_LEN) then none
    else some { s with gaPath := keypath.path }
  else if keypath.fingerprint == walletGetFingerprint W then
    greenOwnKey (iter.numKeys == 3 && iter.isGa2of3RecoveryKey) keypath s
  else if iter.numKeys != 3 || decide (keypath.path.length > GA_USER_PATH_MAX_LEN) then none
  else greenOtherKey iter.isGa2of3RecoveryKey wantRecovery keypath s

/-- What follows the loop: the paths belong together. -/
def greenScanMatches (iter : KeyIter K) (s : GreenScan) : Bool :=
  match s.userPath.getLast?, s.gaPath.getLast? with
  | some userPtr, some gaPtr =>
      if iter.numKeys == 3 && s.recoveryPath.isEmpty then false
      else if gaPtr != userPtr ||
          (iter.numKeys == 3 && s.recoveryPath.getLast? != some userPtr) then false
      else if iter.numKeys == 3 && iter.isGa2of3RecoveryKey then true
      else
        match walletGetGaservicePath W s.userPath with
        | none => false
        | some expectedGaPath =>
            -- `sodium_memcmp` is zero when the paths are equal
            s.gaPath.length == expectedGaPath.length && expectedGaPath != s.gaPath
  | _, _ => false

/-- `is_green_multisig_signers`, with the recovery public key. -/
def isGreenMultisigSigners (network : Network) (iter : KeyIter K) (wantRecovery : Bool) :
    Option Bytes :=
  if iter.numKeys != 2 && iter.numKeys != 3 then none
  else
    match walletGetGaserviceFingerprint W network with
    | none => none
    | some gaFingerprint =>
        match iter.keypaths.foldlM (greenScanKey W iter gaFingerprint wantRecovery) {} with
        | none => none
        | some s => if greenScanMatches W iter s then some s.recoveryPubkey else none

/-! ### Rebuilding a script -/

/-- `verify_ga_script_matches` -/
def verifyGaScriptMatches (network : Network) (userPubkey : Bytes) (recoveryPubkey : Option Bytes)
    (path : List UInt32) (targetScript : Bytes) : Except Fault Bool := do
  jadeVerify (!targetScript.isEmpty)
  -- the number of blocks is fetched when there is a recovery key
  let fetched := if recoveryPubkey.isSome then W.csvBlocksFromCsv2of2Then1 targetScript else none
  if (fetched.map fun blocks => !networkIsKnownCsvBlocks network blocks).getD false then pure false
  else do
    match ← walletBuildGaScriptEx W network userPubkey recoveryPubkey (fetched.getD 0) path with
    | none => pure false
    | some trialScript => pure (trialScript == targetScript)

/-- `verify_singlesig_script_matches` -/
def verifySinglesigScriptMatches (network : Network) (variant : ScriptVariant) (pubkey : Bytes)
    (targetScript : Bytes) : Except Fault Bool := do
  jadeVerify (isSinglesig variant)
  if scriptLengthForVariant variant != targetScript.length then pure false
  else do
    match ← walletBuildSinglesigScript W network variant pubkey with
    | none => pure false
    | some trialScript => pure (trialScript == targetScript)

/-- The public keys of the signers of a multisig, each of which must be among the iterator's keys. -/
def multisigPubkeys (iter : KeyIter K) (path : List UInt32) :
    List Bytes → Except Fault (Option (List Bytes))
  | [] => .ok (some [])
  | xpub :: xpubs => do
      match ← walletDerivePubkey W xpub path with
      | none => pure none
      | some hdkey =>
          if !iter.containsPubkey (W.pubKey hdkey) then pure none
          else do
            let rest ← multisigPubkeys iter path xpubs
            pure (rest.map fun pubkeys => W.pubKey hdkey :: pubkeys)

/-- `verify_multisig_script_matches` -/
def verifyMultisigScriptMatches (multisig : MultisigData) (path : List UInt32) (iter : KeyIter K)
    (targetScript : Bytes) : Except Fault Bool := do
  jadeVerify (!path.isEmpty)
  jadeVerify (!targetScript.isEmpty)
  if scriptLengthForVariant multisig.variant != targetScript.length then pure false
  else if multisig.xpubs.length != iter.numKeys then pure false
  else do
    match ← multisigPubkeys W iter path multisig.xpubs with
    | none => pure false
    | some pubkeys =>
        match ← walletBuildMultisigScript W multisig.variant multisig.sorted multisig.threshold
            pubkeys.flatten with
        | none => pure false
        | some trialScript => pure (trialScript == targetScript)

/-- `wallet_build_descriptor_script`, into a buffer for a p2wsh script. -/
def walletBuildDescriptorScript (network : Network) (name : String) (descriptor : DescriptorData)
    (multiIndex : ℕ) (index : UInt32) : Option Bytes := do
  let script ← records.descriptorToScript name descriptor network multiIndex index
  if script.isEmpty || decide (script.length > WALLY_SCRIPTPUBKEY_P2WSH_LEN) then none
  else some script

/-- `verify_descriptor_script_matches`.  The second branch is tried first when the path has a branch at
all. -/
def verifyDescriptorScriptMatches (name : String) (descriptor : DescriptorData)
    (network : Network) (path : List UInt32) (iter : KeyIter K) (targetScript : Bytes) :
    Except Fault Bool := do
  jadeVerify (!path.isEmpty)
  jadeVerify (!targetScript.isEmpty)
  if decide (descriptor.values.length > iter.numKeys) then pure false
  else
    let index := path.getLastD 0
    let build (multiIndex : ℕ) :=
      walletBuildDescriptorScript records network name descriptor multiIndex index
    pure ((decide (path.length > 1) && build 1 == some targetScript) ||
      build 0 == some targetScript)

/-! ### Finding a record -/

/-- The record all the signed inputs belong to. -/
inductive SuitableRecord
  | multisig (name : String) (data : MultisigData)
  | descriptor (name : String) (data : DescriptorData)
  deriving DecidableEq

/-- Whether a script is the one a record gives for the iterator's keys and the tail of the path after
the last hardened element. -/
def SuitableRecord.verifies (network : Network) (iter : KeyIter K) (path : List UInt32)
    (targetScript : Bytes) : SuitableRecord → Except Fault Bool
  | .multisig _ data =>
      verifyMultisigScriptMatches W data (path.drop (pathGetUnhardenedTailIndex path)) iter
        targetScript
  | .descriptor name data =>
      verifyDescriptorScriptMatches records name data network
        (path.drop (pathGetUnhardenedTailIndex path)) iter targetScript

/-- The loop over the names: the first record that loads and gives the script. -/
def firstSuitable {D : Type} (load : String → Option D) (record : String → D → SuitableRecord)
    (network : Network) (iter : KeyIter K) (path : List UInt32) (targetScript : Bytes) :
    List String → Except Fault (Option SuitableRecord)
  | [] => .ok none
  | name :: names =>
      match load name with
      | none => firstSuitable load record network iter path targetScript names
      | some data => do
          if ← (record name data).verifies W records network iter path targetScript then do
            jadeVerify (decide (name.length < NVS_KEY_NAME_MAX_SIZE))
            pure (some (record name data))
          else firstSuitable load record network iter path targetScript names

/-- `get_suitable_multisig_record` -/
def getSuitableMultisigRecord (network : Network) (iter : KeyIter K) (path : List UInt32)
    (targetScript : Bytes) : Except Fault (Option SuitableRecord) := do
  jadeVerify (!targetScript.isEmpty)
  match records.multisigNames with
  | none => pure none
  | some names =>
      firstSuitable W records records.multisigLoad .multisig network iter path targetScript names

/-- `get_suitable_descriptor_record` -/
def getSuitableDescriptorRecord (network : Network) (iter : KeyIter K) (path : List UInt32)
    (targetScript : Bytes) : Except Fault (Option SuitableRecord) := do
  jadeVerify (!targetScript.isEmpty)
  match records.descriptorNames with
  | none => pure none
  | some names =>
      firstSuitable W records records.descriptorLoad .descriptor network iter path targetScript
        names

/-! ### The flags of the outputs -/

/-- `output_info_t` -/
structure OutputInfo where
  message : String := ""
  blindingKey : Bytes := []
  assetId : Bytes := []
  value : UInt64 := 0
  confidential : Bool := false
  hasBlindingKey : Bool := false
  validated : Bool := false
  change : Bool := false
  hasUnblinded : Bool := false
  mweb : Bool := false
  deriving DecidableEq

/-- The kinds of inputs that are signed: `PSBT_SIGNING_SINGLESIG`, … -/
structure SigningFlags where
  singlesig : Bool := false
  multisig : Bool := false
  greenMultisig : Bool := false
  singleMultisigRecord : Bool := false
  multisigChangeAbandoned : Bool := false
  deriving DecidableEq

/-- `signing_flags != 0` -/
def SigningFlags.any (flags : SigningFlags) : Bool := flags != {}

/-- A warning, which must fit its field. -/
def outputWarning (text : String) (path : List UInt32) : Except Fault String := do
  let pathStr := (walletBip32PathAsStr path (1 + 12 * MAX_PATH_LEN + 1) false).getD "too long"
  let message := text ++ pathStr
  jadeVerify (decide (message.length < 128))
  pure message

/-- The penultimate element of a path is 1. -/
def isChangePath (path : List UInt32) : Bool :=
  decide (2 ≤ path.length) && path[path.length - 2]? == some 1

/-- An output with one key. -/
def updateSinglesigOutput (network : Network) (flags : SigningFlags) (iter : KeyIter K)
    (path : List UInt32) (txScript : Bytes) (info : OutputInfo) : Except Fault OutputInfo :=
  if !flags.singlesig then .ok info
  else
    match (W.scriptType txScript).bind getSinglesigVariantFromScriptType with
    | none => .ok info
    | some variant => do
        if ← verifySinglesigScriptMatches W network variant (W.pubKey iter.hdkey) txScript then do
          let isChange := isChangePath path
          let info := { info with validated := true, change := isChange }
          if walletIsExpectedSinglesigPath network variant isChange path then pure info
          else do
            let message ← outputWarning "Unusual receive path: " path
            pure { info with message }
        else pure info

/-- An output with several keys, when only Green inputs are signed. -/
def updateGreenOutput (network : Network) (iter : KeyIter K) (path : List UInt32)
    (txScript : Bytes) (info : OutputInfo) : Except Fault OutputInfo :=
  let isThree := iter.numKeys == 3
  match isGreenMultisigSigners W network iter isThree with
  | none => .ok info
  | some recoveryPubkey => do
      let recovery := if isThree then some recoveryPubkey else none
      let validated := { info with validated := true, change := true }
      if iter.isGa2of3RecoveryKey then pure validated
      else if ← verifyGaScriptMatches W network (W.pubKey iter.hdkey) recovery path txScript then
        pure validated
      else pure info

/-- An output with several keys, when all the signed inputs belong to one record. -/
def updateMultisigOutput (network : Network) (record : Option SuitableRecord) (iter : KeyIter K)
    (path : List UInt32) (txScript : Bytes) (info : OutputInfo) : Except Fault OutputInfo :=
  match record with
  | none => .error .assert
  | some record => do
      if ← record.verifies W records network iter path txScript then do
        let isChange := isChangePath path
        let pathTail := path.drop (pathGetUnhardenedTailIndex path)
        let info := { info with validated := true, change := isChange }
        if walletIsExpectedMultisigPath iter.keyIndex isChange pathTail then pure info
        else do
          let message ← outputWarning "Unusual change path suffix: " path
          pure { info with message }
      else pure info

/-- The blinding data of an output of Liquid. -/
def updateLiquidInfo (output : PsbtOutput) : Except Fault OutputInfo := do
  let info : OutputInfo :=
    { confidential := !output.assetCommitment.isEmpty || !output.valueCommitment.isEmpty }
  let info ←
    if output.blindingPublicKey.isEmpty then pure info
    else do
      jadeVerify (output.blindingPublicKey.length == 33)
      pure { info with blindingKey := output.blindingPublicKey, hasBlindingKey := true }
  match output.amount with
  | none => pure info
  | some value =>
      let info := { info with value }
      if output.asset.isEmpty then pure info
      else do
        jadeVerify (output.asset.length == 32)
        pure { info with assetId := output.asset.reverse, hasUnblinded := true }

/-- One turn of the loop of `psbt_update_outputs`.  `txScript` is what
`wally_psbt_get_output_script` returns. -/
def updateOutput (network : Network) (flags : SigningFlags) (record : Option SuitableRecord)
    (output : PsbtOutput) (txScript : Option Bytes) : Except Fault OutputInfo :=
  if mwebOutIsMweb output.mwebOutputKeyset then .ok { mweb := true }
  else do
    let info ← if networkIsLiquid network then updateLiquidInfo output else pure {}
    if networkIsLiquid network && (txScript.getD []).isEmpty then do
      -- a fee output
      jadeVerify (!info.confidential)
      jadeVerify info.hasUnblinded
      pure info
    else do
      match ← keyIterBeginPublic W (outputKeySource output) with
      | none => pure info
      | some iter =>
          match iter.getPath MAX_PATH_LEN, txScript with
          | some path, some txScript =>
              if decide (txScript.length > WALLY_SCRIPTPUBKEY_P2WSH_LEN) then pure info
              else if iter.numKeys == 1 then
                updateSinglesigOutput W network flags iter path txScript info
              else if flags = { greenMultisig := true, multisigChangeAbandoned := true } then
                updateGreenOutput W network iter path txScript info
              else if flags = { multisig := true, singleMultisigRecord := true } then
                updateMultisigOutput W records network record iter path txScript info
              else pure info
          | _, _ => pure info

/-- `psbt_update_outputs`: the flags of every output. -/
def psbtUpdateOutputs (network : Network) (getOutputScript : ℕ → Option Bytes) (psbt : Psbt)
    (flags : SigningFlags) (record : Option SuitableRecord) : Except Fault (List OutputInfo) :=
  psbt.outputs.zipIdx.mapM fun (output, i) =>
    updateOutput W records network flags record output (getOutputScript i)

end Model

end Jade
