/-
**The scripts a host asks for (`wallet.c`, `multisig.c`, `process/process_utils.c`).**

Besides PSBTs the device takes requests that describe a script of the wallet in words: a variant with
a path, the subaccount of Green with a recovery key, or the name of a registered wallet with the
paths of its signers.  The script is rebuilt from these, and where a path is not the one a wallet
would use, a warning goes with it.

Main definitions:

* `Jade.ScriptLib` — the libraries below;
* `Jade.walletBuildGaScript` — the Green script of a path;
* `Jade.paramsLoadMultisig`, `Jade.paramsLoadDescriptor` — a registered wallet by its name;
* `Jade.multisigValidatePaths`, `Jade.multisigGetPubkeys`, `Jade.paramsMultisigPubkeys` — the keys
  of the signers, and the warning about their paths;
* `Jade.descriptorScript` — the script of a descriptor.
-/

import Jade.Registration.Load
import Jade.Registration.Signers
import Jade.SignPsbt.Sign

set_option relaxedAutoImplicit false
set_option autoImplicit false

namespace Jade

open Exec

/-! ### Variants -/

/-- The variant a record has; other bytes stand for none. -/
def scriptVariantOfByte (variant : UInt8) : Option ScriptVariant :=
  [ScriptVariant.green, .p2pkh, .p2wpkh, .p2wpkhP2sh, .multiP2wsh, .multiP2sh, .multiP2wshP2sh,
    .p2tr].find? fun v => scriptVariantByte v == variant

/-- A request with a bad parameter is rejected. -/
def badParameter {α : Type} (errmsg : String) : Except SignErr α :=
  .error (.reject CBOR_RPC_BAD_PARAMETERS errmsg)

/-- The libraries below, the registered wallets, and the script of a descriptor on a branch at an
index (`descriptor_to_script`). -/
structure ScriptLib (K : Type) extends SignerLib K where
  multisigs : Registrations
  descriptors : Registrations
  descriptorToScript : Bytes → DescriptorRecord → Network → UInt32 → UInt32 → Option Bytes

section Model

variable {K : Type} (L : ScriptLib K)

/-! ### Green -/

/-- `wallet_derive_from_xpub` along a path. -/
def walletDeriveFromXpubPath (xpub : Bytes) (path : List UInt32) : Except Fault (Option K) :=
  match L.base58ToBytes xpub with
  | none => .ok none
  | some written =>
      if written.length ≠ BIP32_SERIALIZED_LEN then .ok none
      else walletDerivePubkey L.wallet written path

/-- `wallet_build_ga_script_ex` without a user key: it is derived from the path once the key of the
service is there. -/
def walletBuildGaScriptFromPath (network : Network) (recoveryPubkey : Option Bytes) (csvBlocks : ℕ)
    (path : List UInt32) : Except Fault (Option Bytes) :=
  if csvBlocks > 65535 || path.isEmpty then .ok none
  else if csvBlocks ≠ 0 && recoveryPubkey.isSome then .ok none
  else if csvBlocks ≠ 0 && !networkIsAllowableCsvBlocks network csvBlocks then .ok none
  else do
    match ← walletGetGaserviceKey L.wallet network path with
    | none => pure none
    | some _ =>
        match walletGetHdkey L.toSignerLib path with
        | none => pure none
        | some derived =>
            walletBuildGaScriptEx L.wallet network (L.wallet.pubKey derived) recoveryPubkey csvBlocks
              path

/-- `wallet_build_ga_script`; the recovery key includes the branch, so that only the pointer is
derived. -/
def walletBuildGaScript (network : Network) (xpubrecovery : Option Bytes) (csvBlocks : ℕ)
    (path : List UInt32) : Except Fault (Option Bytes) :=
  if csvBlocks > 65535 || path.isEmpty then .ok none
  else
    match xpubrecovery with
    | none => walletBuildGaScriptFromPath L network none csvBlocks path
    | some xpub => do
        match ← walletDeriveFromXpubPath L xpub [path.getLastD 0] with
        | none => pure none
        | some recovery =>
            walletBuildGaScriptFromPath L network (some (L.wallet.pubKey recovery)) csvBlocks path

/-! ### Registered wallets -/

/-- A record that was loaded. -/
def loadedRecord {α : Type} (loaded : Loaded α) : Except SignErr α :=
  match loaded.result, loaded.output with
  | true, some output => .ok output
  | _, _ => badParameter (loaded.errmsg.getD "")

/-- `params_load_multisig`; a name that cannot be read is empty. -/
def paramsLoadMultisig (multisigName : Bytes) : Except SignErr MultisigRecord :=
  if multisigName.isEmpty then badParameter "Invalid multisig name parameter"
  else do
    let loaded ← liftFault
      (multisigLoadFromStorage L.toMultisigLib L.multisigs multisigName.cstr 0)
    let output ← loadedRecord loaded
    pure output.1

/-- `params_load_descriptor` -/
def paramsLoadDescriptor (descriptorName : Bytes) : Except SignErr DescriptorRecord :=
  if descriptorName.isEmpty then badParameter "Invalid descriptor name parameter"
  else do
    let loaded ← liftFault (descriptorLoadFromStorage L.key L.descriptors descriptorName.cstr)
    loadedRecord loaded

/-- The script of a descriptor, into a buffer for a p2wsh script. -/
def descriptorScript (network : Network) (descriptorName : Bytes) (descriptor : DescriptorRecord)
    (branch pointer : UInt32) : Option Bytes :=
  match L.descriptorToScript descriptorName.cstr descriptor network branch pointer with
  | none => none
  | some script =>
      if script.isEmpty || decide (WALLY_SCRIPTPUBKEY_P2WSH_LEN < script.length) then none
      else some script

/-! ### The paths of the signers -/

/-- The path of a signer that can be read and is not empty. -/
def signerPath (path : Option PathArray) : Option (List UInt32) :=
  match path with
  | none => none
  | some path => if path.1.isEmpty then none else some path.1

/-- `multisig_validate_paths`: are all paths as expected, and do all end alike? -/
def multisigValidatePaths (isChange : Bool) (allSignerPaths : List (Option PathArray)) :
    Option (Bool × Bool) :=
  if allSignerPaths.isEmpty then none
  else
    match allSignerPaths.mapM signerPath with
    | none => none
    | some paths =>
        some (paths.zipIdx.all fun (path, i) => walletIsExpectedMultisigPath i isChange path,
          paths.all fun path => path.getLast? == paths.head?.bind List.getLast?)

/-- The loop of `multisig_get_pubkeys`. -/
def signerPubkeys : List (Xpub × Option PathArray) → Except Fault (Option (List Bytes))
  | [] => .ok (some [])
  | (xpub, path) :: signers =>
      match signerPath path with
      | none => .ok none
      | some path =>
          if path.any isHardened then .ok none
          else do
            match ← walletDerivePubkey L.wallet xpub.1 path with
            | none => pure none
            | some hdkey => do
                let rest ← signerPubkeys signers
                pure (rest.map (L.wallet.pubKey hdkey :: ·))

/-- `multisig_get_pubkeys` -/
def multisigGetPubkeys (xpubs : List Xpub) (allSignerPaths : List (Option PathArray)) :
    Except Fault (Option (List Bytes)) := do
  jadeVerify (!xpubs.isEmpty)
  if allSignerPaths.length != xpubs.length then pure none
  else signerPubkeys L (xpubs.zip allSignerPaths)

/-- The warning about the paths of the signers. -/
def multisigPathWarning (isChange : Bool) (allSignerPaths : List (Option PathArray))
    (allPathsAsExpected finalElementsConsistent : Bool) : String :=
  if allPathsAsExpected && finalElementsConsistent then ""
  else
    let flipped := !allPathsAsExpected &&
      ((multisigValidatePaths (!isChange) allSignerPaths).map (·.1)).getD false
    let msg1 :=
      if allPathsAsExpected then ""
      else if flipped then
        if isChange then "\nExternal multisig path." else "\nMultisig change path."
      else "\nUnusual multisig path."
    let msg2 := if finalElementsConsistent then "" else "\nDiffering signer paths."
    let heading := if flipped && finalElementsConsistent then "Note" else "Warning"
    heading ++ ":" ++ msg1 ++ msg2

/-- `params_multisig_pubkeys`: the public keys, and the warning for a field of 128 bytes. -/
def paramsMultisigPubkeys (isChange : Bool) (paths : Option (List (Option PathArray)))
    (multisig : MultisigRecord) : Except SignErr (List Bytes × String) :=
  match paths.bind fun paths => (multisigValidatePaths isChange paths).map (paths, ·) with
  | none => badParameter "Failed to extract signer paths from parameters"
  | some (paths, allPathsAsExpected, finalElementsConsistent) => do
      let warning := multisigPathWarning isChange paths allPathsAsExpected finalElementsConsistent
      liftFault (jadeVerify (decide (warning.length < 128)))
      match ← liftFault (multisigGetPubkeys L multisig.xpubs.1 paths) with
      | none => badParameter "Unexpected number of signer paths or invalid path for multisig"
      | some pubkeys => pure (pubkeys, warning)

/-- The script of a registered multisig for the keys of its signers. -/
def multisigScript (multisig : MultisigRecord) (pubkeys : List Bytes) :
    Except Fault (Option Bytes) :=
  match scriptVariantOfByte multisig.variant with
  | none => .ok none
  | some variant =>
      walletBuildMultisigScript L.wallet variant multisig.sorted multisig.threshold.toNat
        pubkeys.flatten

end Model

end Jade
