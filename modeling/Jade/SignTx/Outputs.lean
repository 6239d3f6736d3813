/-
**Outputs the host declares to be the wallet's (`process/sign_tx.c`).**

With a transaction the host may send an array with an entry for every output.  An entry that is a map
describes the script of that output; the device rebuilds the script and compares it with the one in
the transaction.  Only then the output counts as validated, and as change when the entry says so, as
it does by default.

Main definitions:

* `Jade.WalletOutput` — an entry of the array, as the getters deliver it;
* `Jade.csvWarning`, `Jade.singlesigWarning` — warnings that go with an output;
* `Jade.entryScript` — the script an entry describes;
* `Jade.paramsSigningOutputs` — what is known of the outputs.

Main results:

* `Jade.signingOutput_eq_ok` — an output is flagged when its script is the one rebuilt;
* `Jade.paramsSigningOutputs_eq_ok` — the flags of all outputs.
-/

import Jade.SignTx.Scripts
import Jade.Wallet.PathText

set_option relaxedAutoImplicit false
set_option autoImplicit false

namespace Jade

open Exec

/-! ### Entries -/

/-- An entry of the array that is a map.  A text that cannot be read is empty; a name or a path is
`none` when its field is missing, and so is the path of a signer that cannot be read. -/
structure WalletOutput where
  isChange : Option Bool := none
  multisigName : Option Bytes := none
  paths : Option (List (Option PathArray)) := none
  descriptorName : Option Bytes := none
  branch : Option UInt32 := none
  pointer : Option UInt32 := none
  path : Option PathArray := none
  variant : Bytes := []
  recoveryXpub : Bytes := []
  csvBlocks : Option UInt32 := none
  deriving DecidableEq

/-- A warning for the field of an output, which has 128 bytes. -/
def messageField (message : String) : Except SignErr String := do
  assertThat (decide (message.length < 128))
  pure message

/-- The warning about a number of blocks that the network does not know. -/
def csvWarning (network : Network) (csvBlocks : UInt32) : Except SignErr String :=
  if csvBlocks ≠ 0 ∧ networkIsKnownCsvBlocks network csvBlocks.toNat = false then
    messageField ("This wallet output has a non-standard csv value (" ++ toString csvBlocks.toNat ++
      "), so it may be difficult to find.  Proceed at your own risk.")
  else .ok ""

/-- The warning about the path of a singlesig output that is not as expected. -/
def singlesigWarning (network : Network) (variant : ScriptVariant) (isChange : Bool)
    (path : List UInt32) : Except SignErr String :=
  if walletIsExpectedSinglesigPath network variant isChange path then .ok ""
  else
    match walletBip32PathAsStr path (maxPathStrLen MAX_PATH_LEN) false with
    | none => badParameter "Failed to convert path to string format"
    | some pathStr =>
        messageField ("Unusual " ++ (if isChange then "change" else "receive") ++ " path: " ++ pathStr)

section Model

variable {K : Type} (L : ScriptLib K)

/-! ### The script of an entry -/

/-- The script of a registered multisig, with the warning about the paths of its signers. -/
def multisigEntryScript (isChange : Bool) (multisigName : Bytes)
    (paths : Option (List (Option PathArray))) : Except SignErr (Bytes × String) := do
  let multisig ← paramsLoadMultisig L multisigName
  let (pubkeys, warning) ← paramsMultisigPubkeys L isChange paths multisig
  match ← liftFault (multisigScript L multisig pubkeys) with
  | none => badParameter "Failed to generate valid multisig script"
  | some script => pure (script, warning)

/-- The script of a registered descriptor; it comes without a warning. -/
def descriptorEntryScript (network : Network) (descriptorName : Bytes)
    (branch pointer : Option UInt32) : Except SignErr (Bytes × String) :=
  if networkIsLiquid network then
    badParameter "Descriptor wallets not supported on liquid network"
  else do
    let descriptor ← paramsLoadDescriptor L descriptorName
    match pointer with
    | none => badParameter "Failed to extract path elements from parameters"
    | some pointer =>
        match descriptorScript L network descriptorName descriptor (branch.getD 0) pointer with
        | none => badParameter "Failed to generate valid descriptor script"
        | some script => pure (script, "")

/-- The Green script of a path. -/
def greenEntryScript (network : Network) (recoveryXpub : Bytes) (csvBlocks : UInt32)
    (path : List UInt32) : Except SignErr (Bytes × String) := do
  let warning ← csvWarning network csvBlocks
  let recovery := if recoveryXpub.isEmpty then none else some recoveryXpub.cstr
  match ← liftFault (walletBuildGaScript L network recovery csvBlocks.toNat path) with
  | none => badParameter "Receive script cannot be constructed"
  | some script => pure (script, warning)

/-- The singlesig script of a path. -/
def singlesigEntryScript (network : Network) (variant : ScriptVariant) (isChange : Bool)
    (path : List UInt32) : Except SignErr (Bytes × String) := do
  let warning ← singlesigWarning network variant isChange path
  match walletGetHdkey L.toSignerLib path with
  | none => badParameter "Receive script cannot be constructed"
  | some derived =>
      match ← liftFault
          (walletBuildSinglesigScript L.wallet network variant (L.wallet.pubKey derived)) with
      | none => badParameter "Receive script cannot be constructed"
      | some script => pure (script, warning)

/-- The script of a path and a variant; the root is not allowed. -/
def pathEntryScript (network : Network) (isChange : Bool) (entry : WalletOutput) :
    Except SignErr (Bytes × String) :=
  match signerPath entry.path with
  | none => badParameter "Failed to extract valid receive path from parameters"
  | some path =>
      match getScriptVariant entry.variant with
      | none => badParameter "Invalid script variant parameter"
      | some .green =>
          if networkIsLitecoin network then
            badParameter "Green multisig is not supported on Litecoin networks"
          else greenEntryScript L network entry.recoveryXpub (entry.csvBlocks.getD 0) path
      | some variant =>
          if isSinglesig variant then singlesigEntryScript L network variant isChange path
          else badParameter "Receive script variant not handled"

/-- The script an entry describes, and the warning that goes with it. -/
def entryScript (network : Network) (isChange : Bool) (entry : WalletOutput) :
    Except SignErr (Bytes × String) :=
  match entry.multisigName, entry.descriptorName with
  | some name, _ => multisigEntryScript L isChange name entry.paths
  | none, some name => descriptorEntryScript L network name entry.branch entry.pointer
  | none, none => pathEntryScript L network isChange entry

/-! ### The outputs -/

/-- One turn of the loop of `params_signing_outputs`.  An item that is not a map says nothing, and a
populated one is change unless it says otherwise. -/
def signingOutput (network : Network) (out : TxOutput) :
    Option WalletOutput → Except SignErr OutputInfo
  | none => .ok {}
  | some entry => do
      let isChange := entry.isChange.getD true
      let (script, message) ← entryScript L network isChange entry
      rejectUnless (script == out.script) "Receive script cannot be validated"
      pure { message, validated := true, change := isChange }

/-- `params_signing_outputs`.  `change` is `none` when there is no array, and holds `none` when the
length of the array is not known.  An entry is read when its turn comes. -/
def paramsSigningOutputs (network : Network) (forLiquid : Bool) (tx : Tx)
    (change : Option (Option (List (Except Fault (Option WalletOutput))))) :
    Except SignErr (Option (List OutputInfo)) :=
  match change with
  | none => .ok (if forLiquid then some (tx.outputs.map fun _ => {}) else none)
  | some none => badParameter "Unexpected number of output entries for transaction"
  | some (some entries) => do
      rejectUnless (entries.length == tx.outputs.length)
        "Unexpected number of output entries for transaction"
      let infos ← (tx.outputs.zip entries).mapM fun (out, entry) => do
        let entry ← liftFault entry
        signingOutput L network out entry
      pure (some infos)

/-! ### The flags -/

variable {L} {network : Network}

/-- **An output is flagged when its script is the one rebuilt**, as change when its entry says so. -/
theorem signingOutput_eq_ok {out : TxOutput} {entry : Option WalletOutput} {info : OutputInfo}
    (h : signingOutput L network out entry = .ok info) :
    (entry = none ∧ info = {}) ∨
    ∃ e message, entry = some e ∧
      entryScript L network (e.isChange.getD true) e = .ok (out.script, message) ∧
      info = { message, validated := true, change := e.isChange.getD true } := by
  cases entry with
  | none => exact .inl ⟨rfl, (Except.ok.inj h).symm⟩
  | some e =>
      obtain ⟨⟨script, message⟩, hscript, h⟩ := bind_eq_ok.1 h
      obtain ⟨_, hsame, h⟩ := bind_eq_ok.1 h
      obtain rfl := pure_eq_ok.1 h
      rw [rejectUnless_eq_ok, beq_iff_eq] at hsame
      exact .inr ⟨e, message, rfl, hsame ▸ hscript, rfl⟩

/-- What is known of an output, when the host has sent entries. -/
theorem paramsSigningOutputs_entries {forLiquid : Bool} {tx : Tx}
    {entries : List (Except Fault (Option WalletOutput))} {infos : Option (List OutputInfo)}
    (h : paramsSigningOutputs L network forLiquid tx (some (some entries)) = .ok infos) :
    ∃ known, infos = some known ∧ known.length = tx.outputs.length ∧
      ∀ (i : ℕ) out info, tx.outputs[i]? = some out → known[i]? = some info →
        ∃ entry, entries[i]? = some (.ok entry) ∧
          signingOutput L network out entry = .ok info := by
  obtain ⟨_, hlen, h⟩ := bind_eq_ok.1 h
  obtain ⟨known, hknown, h⟩ := bind_eq_ok.1 h
  obtain rfl := pure_eq_ok.1 h
  rw [rejectUnless_eq_ok, beq_iff_eq] at hlen
  have hsize := (mapM_eq_ok.1 hknown).length_eq
  rw [List.length_zip, hlen, Nat.min_self] at hsize
  refine ⟨known, rfl, hsize.symm, ?_⟩
  intro i out info hout hinfo
  obtain ⟨⟨out', entry⟩, hget, hentry⟩ := getElem?_of_mapM_eq_ok hknown hinfo
  obtain ⟨hout', hentry'⟩ := List.getElem?_zip_eq_some.1 hget
  obtain rfl : out = out' := Option.some.inj (hout.symm.trans hout')
  obtain ⟨entry', hread, hentry⟩ := bind_eq_ok.1 hentry
  exact ⟨entry', liftFault_eq_ok.1 hread ▸ hentry', hentry⟩

/-- **The flags of all outputs**: an output that is validated has the script that an entry of the host
describes, and is change only when the entry describes it so. -/
theorem paramsSigningOutputs_eq_ok {forLiquid : Bool} {tx : Tx}
    {change : Option (Option (List (Except Fault (Option WalletOutput))))}
    {known : List OutputInfo}
    (h : paramsSigningOutputs L network forLiquid tx change = .ok (some known)) {i : ℕ}
    {out : TxOutput} {info : OutputInfo} (hout : tx.outputs[i]? = some out)
    (hinfo : known[i]? = some info) :
    info = {} ∨ ∃ e message, entryScript L network (e.isChange.getD true) e =
        .ok (out.script, message) ∧
      info = { message, validated := true, change := e.isChange.getD true } := by
  cases change with
  | none =>
      cases forLiquid with
      | false => cases h
      | true =>
          obtain rfl := Option.some.inj (Except.ok.inj h)
          rw [List.getElem?_map] at hinfo
          obtain ⟨_, -, rfl⟩ := Option.map_eq_some_iff.1 hinfo
          exact .inl rfl
  | some entries =>
      cases entries with
      | none => cases h
      | some entries =>
          obtain ⟨known', hknown, -, hall⟩ := paramsSigningOutputs_entries h
          obtain rfl := Option.some.inj hknown
          obtain ⟨entry, -, hentry⟩ := hall i out info hout hinfo
          rcases signingOutput_eq_ok hentry with ⟨-, rfl⟩ | ⟨e, message, -, hscript, rfl⟩
          · exact .inl rfl
          · exact .inr ⟨e, message, hscript, rfl⟩

end Model

end Jade
