/-
**Showing a receive address (`process/get_receive_address.c`).**

The host asks for an address of the wallet.  The script is built from the parameters, its address is
confirmed by the user, a warning is shown if there is one, and then the address is sent.

Main definitions:

* `Jade.ReceiveAddressParams`, `Jade.AddressLib` — the request, and what it is answered with;
* `Jade.receivePathWarning` — the warning about a path that is not as expected;
* `Jade.receiveScript` — the script, the warning, and the key it is blinded with;
* `Jade.getReceiveAddressProcess` — the whole.

Main results:

* `Jade.sat_getReceiveAddressProcess` — an address that is sent was confirmed, and its warning
  shown. -/

import Jade.SignTx.Outputs

set_option relaxedAutoImplicit false
set_option autoImplicit false

namespace Jade

open Exec

/-! ### The request -/

/-- The parameters of the request besides the network, as the getters deliver them. -/
structure ReceiveAddressParams where
  confidential : Option Bool := none
  multisigName : Option Bytes := none
  paths : Option (List (Option PathArray)) := none
  descriptorName : Option Bytes := none
  variant : Bytes := []
  subaccount : Option UInt32 := none
  branch : Option UInt32 := none
  pointer : Option UInt32 := none
  recoveryXpub : Bytes := []
  csvBlocks : Option UInt32 := none
  path : Option PathArray := none
  deriving DecidableEq

/-- The libraries below, with the blinding key of the wallet and the public blinding key that a
master key has for a script. -/
structure AddressLib (K : Type) extends ScriptLib K where
  masterUnblindingKey : Bytes
  publicBlindingKey : Bytes → Bytes → Option Bytes

/-- What is shown: the address of a script, blinded with a key if there is one, or a message. -/
inductive AddressScreen
  | confirmAddress (script : Bytes) (blindingKey : Option Bytes)
  | message (text : String)
  deriving DecidableEq

/-- The address that is sent. -/
structure AddressReply where
  script : Bytes
  blindingKey : Option Bytes
  deriving DecidableEq

/-- A script to show the address of, with the warning and the master blinding key. -/
structure ReceiveScript where
  script : Bytes
  warning : String := ""
  masterBlindingKey : Option Bytes := none

/-! ### Paths -/

/-- `wallet_build_receive_path` -/
def walletBuildReceivePath (subaccount branch pointer : UInt32) : List UInt32 :=
  if 0 < subaccount then [harden 3, harden subaccount, branch, pointer] else [branch, pointer]

/-- The text in front of a path that is not as expected. -/
def receivePathHeading (isChange : Bool) : String :=
  "\n" ++ (if isChange then "Note:\nChange path" else "Warning:\nUnusual path") ++ "\n"

/-- The warning about the path of a singlesig address. -/
def receivePathWarning (network : Network) (variant : ScriptVariant) (path : List UInt32) :
    Except SignErr String :=
  if walletIsExpectedSinglesigPath network variant false path then .ok ""
  else
    let isChange := walletIsExpectedSinglesigPath network variant true path
    match walletBip32PathAsStr path (maxPathStrLen MAX_PATH_LEN) false with
    | none => .error (.reject CBOR_RPC_INTERNAL_ERROR "Failed to convert path to string format")
    | some pathStr => messageField (receivePathHeading isChange ++ pathStr)

/-- The warning about a number of blocks that the network does not know. -/
def receiveCsvWarning (network : Network) (csvBlocks : UInt32) : Except SignErr String :=
  if csvBlocks ≠ 0 ∧ networkIsKnownCsvBlocks network csvBlocks.toNat = false then
    messageField ("\nWarning:\nNon-standard csv:\n" ++ toString csvBlocks.toNat)
  else .ok ""

section Model

variable {K : Type} (L : AddressLib K)

/-! ### The script -/

/-- `multisig_get_master_blinding_key`: the key of the record, padded in front. -/
def multisigGetMasterBlindingKey (multisig : MultisigRecord) : Except SignErr Bytes :=
  match multisig.masterBlindingKey with
  | none => badParameter "No blinding key for multisig record"
  | some key => .ok (List.replicate (HMAC_SHA512_LEN - MULTISIG_MASTER_BLINDING_KEY_SIZE) 0 ++ key.1)

/-- The address of a registered multisig. -/
def multisigReceiveScript (confidential : Bool) (multisigName : Bytes)
    (paths : Option (List (Option PathArray))) : Except SignErr ReceiveScript := do
  let multisig ← paramsLoadMultisig L.toScriptLib multisigName
  let (pubkeys, warning) ← paramsMultisigPubkeys L.toScriptLib false paths multisig
  match ← liftFault (multisigScript L.toScriptLib multisig pubkeys) with
  | none => badParameter "Failed to generate valid multisig script"
  | some script =>
      if confidential then do
        let key ← multisigGetMasterBlindingKey multisig
        pure { script, warning, masterBlindingKey := some key }
      else pure { script, warning }

/-- The address of a Green wallet; the path is built from the subaccount, the branch and the
pointer. -/
def greenReceiveScript (network : Network) (params : ReceiveAddressParams) :
    Except SignErr (Bytes × String) :=
  match params.subaccount, params.branch, params.pointer with
  | some subaccount, some branch, some pointer => do
      let csvBlocks := params.csvBlocks.getD 0
      let warning ← receiveCsvWarning network csvBlocks
      let recovery := if params.recoveryXpub.isEmpty then none else some params.recoveryXpub.cstr
      match ← liftFault (walletBuildGaScript L.toScriptLib network recovery csvBlocks.toNat
          (walletBuildReceivePath subaccount branch pointer)) with
      | none => badParameter "Failed to generate valid green address script"
      | some script => pure (script, warning)
  | _, _, _ => badParameter "Failed to extract path elements from parameters"

/-- The address of a single key; the path is explicit. -/
def singlesigReceiveScript (network : Network) (variant : ScriptVariant)
    (path : Option PathArray) : Except SignErr (Bytes × String) :=
  match signerPath path with
  | none => badParameter "Failed to extract valid path from parameters"
  | some path => do
      let warning ← receivePathWarning network variant path
      match walletGetHdkey L.toSignerLib path with
      | none => badParameter "Failed to generate valid singlesig script"
      | some derived =>
          match ← liftFault
              (walletBuildSinglesigScript L.wallet network variant (L.wallet.pubKey derived)) with
          | none => badParameter "Failed to generate valid singlesig script"
          | some script => pure (script, warning)

/-- The address of a variant that is not a registered wallet. -/
def variantReceiveScript (network : Network) (confidential : Bool) (params : ReceiveAddressParams) :
    Except SignErr ReceiveScript := do
  let (script, warning) ←
    match getScriptVariant params.variant with
    | none => badParameter "Invalid script variant parameter"
    | some .green =>
        if networkIsLitecoin network then
          badParameter "Green multisig is not supported on Litecoin networks"
        else greenReceiveScript L network params
    | some variant =>
        if isSinglesig variant then singlesigReceiveScript L network variant params.path
        else badParameter "Unhandled script variant"
  let masterBlindingKey := if confidential then some L.masterUnblindingKey else none
  pure { script, warning, masterBlindingKey }

/-- The script whose address is asked for. -/
def receiveScript (network : Network) (confidential : Bool) (params : ReceiveAddressParams) :
    Except SignErr ReceiveScript :=
  match params.multisigName, params.descriptorName with
  | some name, _ => multisigReceiveScript L confidential name params.paths
  | none, some name => do
      let (script, warning) ←
        descriptorEntryScript L.toScriptLib network name params.branch params.pointer
      -- on Liquid there is no script of a descriptor
      pure { script, warning }
  | none, none => variantReceiveScript L network confidential params

/-- The key an address is blinded with. -/
def receiveBlindingKey (network : Network) (confidential : Bool) (receive : ReceiveScript) :
    Except SignErr (Option Bytes) :=
  if confidential then
    match receive.masterBlindingKey with
    | none => .error (.fault .assert)
    | some key => do
        assertThat (networkIsLiquid network && key.length == HMAC_SHA512_LEN)
        match L.publicBlindingKey key receive.script with
        | none =>
            .error (.reject CBOR_RPC_INTERNAL_ERROR "Cannot get blinding key for script")
        | some blindingKey => pure (some blindingKey)
  else do
    assertThat receive.masterBlindingKey.isNone
    pure none

/-! ### The process -/

/-- A computation that may end the request, as a step of it. -/
def orEnd {α : Type} : Except SignErr α → Handler AddressScreen AddressReply α
  | .ok a => pure a
  | .error e => throw e

@[simp] theorem sat_orEnd {α : Type} {Q : α → Talk AddressScreen AddressReply → Prop}
    {E : SignErr → Talk AddressScreen AddressReply → Prop} {t : Talk AddressScreen AddressReply}
    (x : Except SignErr α) :
    Sat (orEnd x) Q E t ↔ (∀ a, x = .ok a → Q a t) ∧ ∀ e, x = .error e → E e t := by
  cases x <;> simp [orEnd]

/-- `get_receive_address_process`, for the network of the request. -/
def getReceiveAddressProcess (user : AddressScreen → Bool) (network : Network)
    (params : ReceiveAddressParams) : Handler AddressScreen AddressReply Unit := do
  let confidential := params.confidential.getD (networkIsLiquid network)
  if confidential && !networkIsLiquid network then
    reject CBOR_RPC_BAD_PARAMETERS "Confidential addresses only apply to liquid networks"
  else do
    let receive ← orEnd (receiveScript L network confidential params)
    orEnd (assertThat (!receive.script.isEmpty))
    let blindingKey ← orEnd (receiveBlindingKey L network confidential receive)
    if ← askUser user (.confirmAddress receive.script blindingKey) then do
      if receive.warning ≠ "" then do
        let _ ← askUser user (.message receive.warning)
        sendReply ⟨receive.script, blindingKey⟩
      else sendReply ⟨receive.script, blindingKey⟩
    else reject CBOR_RPC_USER_CANCELLED "User declined to confirm address"

/-- Whoever is sent an address has confirmed it and seen its warning. -/
theorem sat_getReceiveAddressProcess (user : AddressScreen → Bool) (network : Network)
    (params : ReceiveAddressParams) (t : Talk AddressScreen AddressReply) :
    Sat (getReceiveAddressProcess L user network params)
      (fun _ t' => ∃ receive blindingKey,
        receiveScript L network (params.confidential.getD (networkIsLiquid network)) params =
          .ok receive ∧
        (AddressScreen.confirmAddress receive.script blindingKey, true) ∈ t'.answers ∧
        (receive.warning ≠ "" → ∃ answer,
          (AddressScreen.message receive.warning, answer) ∈ t'.answers) ∧
        t'.replies = t.replies ++ [⟨receive.script, blindingKey⟩])
      (fun _ _ => True) t := by
  rw [getReceiveAddressProcess]
  simp only [sat_ite, sat_reject, implies_true, true_and, sat_bind, sat_orEnd, sat_askUser,
    sat_sendReply, and_true]
  intro _ receive hreceive _ _ blindingKey _ haccept
  constructor
  · intro hwarning
    exact ⟨receive, blindingKey, hreceive, by simp [haccept],
      fun _ => ⟨user (.message receive.warning), by simp⟩, rfl⟩
  · intro hwarning
    exact ⟨receive, blindingKey, hreceive, by simp [haccept],
      fun hne => absurd hne hwarning, rfl⟩

end Model

end Jade
