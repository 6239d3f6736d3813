/-
**Verifying an address (`qrmode.c`).**

The script of a scanned address is looked for in a wallet: the wallet's own keys, or one that was
registered and that the user selects.  The screen shows a label and an index; batches of indexes are
tried in a loop, and between them the user can skip addresses, change the account or the branch,
or leave.  Every so often the user is asked whether to go on.

Main definitions:

* `Jade.SearchWallet`, `Jade.SearchState` — what is searched, and how far the search is;
* `Jade.handleAddressOptions`, `Jade.searchTurn`, `Jade.searchTurns` — the loop of `verify_address`;
* `Jade.startSearch` — what comes before it;
* `Jade.SearchWallet.scriptAt` — the script a wallet has at an index, as it is built elsewhere.
-/

import Jade.Qrmode.Search
import Jade.Wallet.PathText

set_option relaxedAutoImplicit false
set_option autoImplicit false

namespace Jade

open Exec

def EXPORT_XPUB_PATH_LEN : ℕ := 4
def ACCOUNT_INDEX_MAX : UInt32 := 65536
def ACCOUNT_INDEX_FLAGS_SHIFT : UInt32 := 16

/-- The size of the label's buffer. -/
def SEARCH_LABEL_LEN : ℕ := maxPathStrLen EXPORT_XPUB_PATH_LEN

/-- `ADDRESS_SEARCH_BATCH_SIZE` -/
def addressSearchBatchSize (registeredWallet : Bool) : UInt32 := if registeredWallet then 10 else 20

/-- `NUM_BATCHES_TO_RECONFIRM` -/
def numBatchesToReconfirm (registeredWallet : Bool) : UInt32 := if registeredWallet then 20 else 25

/-- `NUM_INDEXES_TO_RECONFIRM` -/
def numIndexesToReconfirm (registeredWallet : Bool) : UInt32 :=
  numBatchesToReconfirm registeredWallet * addressSearchBatchSize registeredWallet

/-- What the search needs of `address_data_t`. -/
structure AddressData where
  network : Network
  script : Bytes

/-- The wallet that is searched. -/
inductive SearchWallet
  | singlesig (variant : ScriptVariant)
  | multisig (name : Bytes) (data : MultisigRecord)
  | descriptor (name : Bytes) (descriptor : DescriptorRecord)

/-- Is it one that was registered? -/
def SearchWallet.isRegistered : SearchWallet → Bool
  | .singlesig _ => false
  | .multisig _ _ | .descriptor _ _ => true

/-- The branch of a wallet. -/
def changeIndicator (isChange : Bool) : UInt32 := if isChange then 1 else 0

/-- The path of an address below the key of a signer. -/
def leafPath (isChange : Bool) (index : UInt32) : PathArray :=
  ⟨[changeIndicator isChange, index], Nat.le_of_ble_eq_true rfl⟩

/-- `wallet_get_default_xpub_export_path` -/
def walletGetDefaultXpubExportPath (network : Network) (variant : ScriptVariant)
    (account : UInt16) : Except Fault (List UInt32) :=
  match getScriptVariantPurpose variant with
  | none => .error .assert
  | some purpose =>
      if variant = .multiP2sh then .ok [purpose]
      else
        let path := [purpose, getBip44CoinType network, harden account.toUInt32]
        if isMultisig variant then
          let bip48ScriptType :=
            if variant = .multiP2wsh then 2 else if variant = .multiP2wshP2sh then 1 else 0
          .ok (path ++ [harden bip48ScriptType])
        else .ok path

/-- How far a search is. -/
structure SearchState (K : Type) where
  accountIndex : UInt16
  isChange : Bool
  label : Bytes
  searchRoots : List K
  index : UInt32
  confirmedAtIndex : UInt32
  /-- for the record: the indexes that were tried since the options were last changed, and whether
  some were skipped -/
  tried : List ℕ
  skipped : Bool

/-- What happens on the screen with the options.  The index of an account is entered until it is
valid, or until the user gives up. -/
inductive OptionEvent
  | account (entries : List UInt32)
  | change

/-- The buttons of the search screen. -/
inductive SearchEvent
  | skipAddresses
  | options (events : List OptionEvent)
  | exit

/-- What the user does in one turn: the answer to the question whether to go on, and the button that
was pressed, if any. -/
structure TurnInput where
  goOn : Bool
  event : Option SearchEvent

/-- What the search comes to. -/
inductive SearchOutcome (K : Type)
  | searching (s : SearchState K)
  /-- "Address verified:", with the path -/
  | verified (s : SearchState K) (pathstr : Bytes)
  /-- "Address NOT verified!" -/
  | notVerified

/-- What the user does before the search: confirm the address, say that it is of a registered wallet,
and select that wallet. -/
structure StartInput where
  confirmed : Bool
  registered : Bool
  selected : ℕ

/-! ### Options -/

/-- One event on the screen with the options. -/
def optionEvent (showAccount : Bool) (options : UInt16 × Bool) : OptionEvent → UInt16 × Bool
  | .account entries =>
      if showAccount then
        match entries.find? fun newAccountIndex => decide (newAccountIndex < ACCOUNT_INDEX_MAX) with
        | none => options
        | some newAccountIndex => (newAccountIndex.toUInt16, options.2)
      else options
  | .change => (options.1, !options.2)

/-- `handle_address_options`, with the options as they are in the end. -/
def handleAddressOptions (showAccount : Bool) (accountIndex : UInt16) (isChange : Bool)
    (events : List OptionEvent) : UInt16 × Bool :=
  events.foldl (optionEvent showAccount) (accountIndex, isChange)

section Model

variable {K D : Type} (L : SearchLib K D)

/-! ### Search roots -/

/-- `get_singlesig_search_root`, with the label. -/
def getSinglesigSearchRoot (network : Network) (variant : ScriptVariant) (accountIndex : UInt16)
    (isChange : Bool) : Except Fault (List K × Bytes) := do
  let exportPath ← walletGetDefaultXpubExportPath network variant accountIndex
  jadeVerify (exportPath.length == EXPORT_XPUB_PATH_LEN - 1)
  let path := exportPath ++ [changeIndicator isChange]
  let searchRoot ← wallyVerify (walletGetHdkey L.toSignerLib path)
  let pathstr ← wallyVerify (walletBip32PathAsStr path SEARCH_LABEL_LEN false)
  return ([searchRoot], ascii pathstr)

/-- The last character of a label shows the branch. -/
def relabel (isChange : Bool) (label : Bytes) : Except Fault Bytes := do
  jadeVerify (decide (label.length < SEARCH_LABEL_LEN))
  jadeVerify (label.getLast? == some 0x30 || label.getLast? == some 0x31)
  return label.dropLast ++ [if isChange then 0x31 else 0x30]

/-- One search root of a multisig. -/
def multisigSearchRoot (isChange : Bool) (xpub : Xpub) : Except Fault K := do
  match ← walletDerivePubkey L.wallet xpub.1 [changeIndicator isChange] with
  | none => .error .assert
  | some root => return root

/-- `get_multisig_search_roots`, with the label. -/
def getMultisigSearchRoots (data : MultisigRecord) (isChange : Bool) (label : Bytes) :
    Except Fault (List K × Bytes) := do
  jadeVerify (!data.xpubs.1.isEmpty)
  let searchRoots ← data.xpubs.1.mapM (multisigSearchRoot L isChange)
  let label ← relabel isChange label
  return (searchRoots, label)

/-- `get_descriptor_search_roots`: there are none, but the label changes. -/
def getDescriptorSearchRoots (isChange : Bool) (label : Bytes) :
    Except Fault (List K × Bytes) := do
  let label ← relabel isChange label
  return ([], label)

/-- The search roots of a wallet, with the label, which is made from the one before. -/
def getSearchRoots (network : Network) (wallet : SearchWallet) (accountIndex : UInt16)
    (isChange : Bool) (label : Bytes) : Except Fault (List K × Bytes) :=
  match wallet with
  | .singlesig variant => getSinglesigSearchRoot L network variant accountIndex isChange
  | .multisig _ data => getMultisigSearchRoots L data isChange label
  | .descriptor _ _ => getDescriptorSearchRoots isChange label

/-! ### The loop -/

/-- One batch of a search. -/
def searchBatch (addrData : AddressData) (wallet : SearchWallet) (s : SearchState K) :
    Except Fault Searched := do
  let depth := addressSearchBatchSize wallet.isRegistered
  match wallet with
  | .multisig _ data => do
      jadeVerify (!s.searchRoots.isEmpty)
      match scriptVariantOfByte data.variant with
      | none => return .nothing s.index
      | some variant =>
          walletSearchForMultisigScript L variant data.sorted data.threshold.toNat s.searchRoots
            s.index depth addrData.script
  | .descriptor _ descriptor => do
      jadeVerify s.searchRoots.isEmpty
      walletSearchForDescriptorScript L addrData.network descriptor (changeIndicator s.isChange)
        s.index depth addrData.script
  | .singlesig variant =>
      match s.searchRoots with
      | [searchRoot] => do
          jadeVerify (variant != .green)
          walletSearchForSinglesigScript L addrData.network variant searchRoot s.index depth
            addrData.script
      | _ => .error .assert

/-- The path of an address that was found. -/
def verifiedPath (label : Bytes) (index : UInt32) : Bytes :=
  label ++ ascii "/" ++ ascii (toString index.toNat)

/-- What a button does. -/
def handleSearchEvent (addrData : AddressData) (wallet : SearchWallet) (s : SearchState K) :
    Option SearchEvent → Except Fault (SearchOutcome K)
  | none => .ok (.searching s)
  | some .skipAddresses =>
      -- jump to the end of this batch
      let index := s.confirmedAtIndex + numIndexesToReconfirm wallet.isRegistered
      .ok (.searching { s with index, confirmedAtIndex := index, skipped := true })
  | some (.options events) =>
      let (accountIndex, isChange) :=
        handleAddressOptions (!wallet.isRegistered) s.accountIndex s.isChange events
      if isChange ≠ s.isChange ∨ accountIndex ≠ s.accountIndex then do
        let (searchRoots, label) ←
          getSearchRoots L addrData.network wallet accountIndex isChange s.label
        -- the search starts again
        return .searching {
          accountIndex, isChange, label, searchRoots
          index := 0, confirmedAtIndex := 0, tried := [], skipped := false }
      else .ok (.searching s)
  | some .exit => .ok .notVerified

/-- One turn of the loop of `verify_address`. -/
def searchTurn (addrData : AddressData) (wallet : SearchWallet) (s : SearchState K)
    (input : TurnInput) : Except Fault (SearchOutcome K) := do
  let toReconfirm := numIndexesToReconfirm wallet.isRegistered
  -- `update_progress_bar`
  jadeVerify (decide (s.index - s.confirmedAtIndex ≤ toReconfirm))
  let searched ← searchBatch L addrData wallet s
  let s := { s with index := searched.index, tried := s.tried ++ searched.tried }
  if searched.found then do
    let pathstr := verifiedPath s.label s.index
    jadeVerify (decide (pathstr.length < 48))
    return .verified s pathstr
  else if s.confirmedAtIndex + toReconfirm ≤ s.index then
    return if input.goOn then .searching { s with confirmedAtIndex := s.index } else .notVerified
  else handleSearchEvent L addrData wallet s input.event

/-- The loop of `verify_address`, as far as it gets with what the user does. -/
def searchTurns (addrData : AddressData) (wallet : SearchWallet) :
    SearchState K → List TurnInput → Except Fault (SearchOutcome K)
  | s, [] => .ok (.searching s)
  | s, input :: inputs => do
      match ← searchTurn L addrData wallet s input with
      | .searching s => searchTurns addrData wallet s inputs
      | .verified s pathstr => return .verified s pathstr
      | .notVerified => return .notVerified

/-! ### The start -/

/-- `variant_matches_script_type`, for the type of a scanned address. -/
def variantMatchesScriptType (variant : UInt8) : ScriptType → Bool
  | .p2wsh => variant == scriptVariantByte .multiP2wsh
  | .p2sh => variant == scriptVariantByte .multiP2sh || variant == scriptVariantByte .multiP2wshP2sh
  | _ => false

/-- The names of the records that are valid. -/
def validRecordNames (isValid : Bytes → Except Fault Bool) : List Bytes → Except Fault (List Bytes)
  | [] => .ok []
  | name :: names => do
      let valid ← isValid name
      let rest ← validRecordNames isValid names
      return if valid then name :: rest else rest

/-- Can a multisig be loaded, and is it for scripts of the type? -/
def multisigRecordValid (scriptType : ScriptType) (name : Bytes) : Except Fault Bool := do
  let loaded ← multisigLoadFromStorage L.toMultisigLib L.multisigs name 0
  return loaded.result &&
    (loaded.output.any fun output => variantMatchesScriptType output.1.variant scriptType)

/-- `multisig_get_valid_record_names` -/
def multisigGetValidRecordNames (scriptType : ScriptType) : Except Fault (List Bytes) :=
  validRecordNames (multisigRecordValid L scriptType) L.multisigNames

/-- `descriptor_get_valid_record_names`: a descriptor for scripts of any type. -/
def descriptorGetValidRecordNames : Except Fault (List Bytes) :=
  validRecordNames (fun name => do
    let loaded ← descriptorLoadFromStorage L.key L.descriptors name
    return loaded.result) L.descriptorNames

/-- `select_registered_wallet`: is it a multisig, and its name. -/
def selectRegisteredWallet (multisigNames descriptorNames : List Bytes) (selected : ℕ) :
    Option (Bool × Bytes) :=
  if selected < multisigNames.length then (multisigNames[selected]?).map (true, ·)
  else (descriptorNames[selected - multisigNames.length]?).map (false, ·)

/-- The record that was selected. -/
def loadSelectedWallet (isMultisig : Bool) (name : Bytes) : Except Fault (Option SearchWallet) :=
  if isMultisig then do
    let loaded ← multisigLoadFromStorage L.toMultisigLib L.multisigs name 0
    return if loaded.result then loaded.output.map fun output => .multisig name output.1 else none
  else do
    let loaded ← descriptorLoadFromStorage L.key L.descriptors name
    return if loaded.result then loaded.output.map (.descriptor name) else none

/-- `load_registered_wallet`, with the label, for now that of an external address. -/
def loadRegisteredWallet (scriptType : ScriptType) (selected : ℕ) :
    Except Fault (Option (SearchWallet × Bytes)) := do
  let multisigNames ← multisigGetValidRecordNames L scriptType
  let descriptorNames ← descriptorGetValidRecordNames L
  match selectRegisteredWallet multisigNames descriptorNames selected with
  | none => return none
  | some (isMultisig, name) => do
      let label := name ++ ascii "/0"
      jadeVerify (decide (label.length < SEARCH_LABEL_LEN))
      let wallet ← loadSelectedWallet L isMultisig name
      return wallet.map (·, label)

/-- The search of a wallet begins. -/
def beginSearch (addrData : AddressData) (wallet : SearchWallet) (accountIndex : UInt16)
    (label : Bytes) : Except Fault (SearchState K) := do
  let (searchRoots, label) ← getSearchRoots L addrData.network wallet accountIndex false label
  return {
    accountIndex, isChange := false, label, searchRoots
    index := 0, confirmedAtIndex := 0, tried := [], skipped := false }

/-- `verify_address` in front of its loop: with what is stored for the exported key, and whether the
network is that of the wallet. -/
def startSearch (addrData : AddressData) (isNetworkConsistent : Bool) (qrFlags : UInt32)
    (input : StartInput) : Except Fault (Option (SearchWallet × SearchState K)) := do
  jadeVerify (!addrData.script.isEmpty)
  if !input.confirmed || !isNetworkConsistent then return none
  else
    match L.wallet.scriptType addrData.script with
    | none => return none
    | some scriptType =>
        if scriptType = .p2wsh ∨ (scriptType = .p2sh ∧ input.registered = true) then do
          match ← loadRegisteredWallet L scriptType input.selected with
          | none => return none
          | some (wallet, label) => do
              let s ← beginSearch L addrData wallet 0 label
              return some (wallet, s)
        else
          match getSinglesigVariantFromScriptType scriptType with
          | none | some .green => return none
          | some variant => do
              let accountIndex := (qrFlags >>> ACCOUNT_INDEX_FLAGS_SHIFT).toUInt16
              let s ← beginSearch L addrData (.singlesig variant) accountIndex []
              return some (.singlesig variant, s)

/-! ### What a wallet has at an index -/

/-- The libraries as the other requests have them. -/
def SearchLib.scriptLib : ScriptLib K where
  toSignerLib := L.toSignerLib
  multisigs := L.multisigs
  descriptors := L.descriptors
  descriptorToScript _ descriptor network branch pointer :=
    descriptorScriptAt L descriptor network branch pointer

/-- The script of a wallet at an index, along the whole path. -/
def SearchWallet.scriptAt (network : Network) (accountIndex : UInt16) (isChange : Bool)
    (index : UInt32) : SearchWallet → Except Fault (Option Bytes)
  | .singlesig variant => do
      let exportPath ← walletGetDefaultXpubExportPath network variant accountIndex
      match walletGetHdkey L.toSignerLib (exportPath ++ [changeIndicator isChange, index]) with
      | none => return none
      | some key => walletBuildSinglesigScript L.wallet network variant (L.wallet.pubKey key)
  | .multisig _ data => do
      match ← multisigGetPubkeys L.scriptLib data.xpubs.1
          (data.xpubs.1.map fun _ => some (leafPath isChange index)) with
      | none => return none
      | some pubkeys => multisigScript L.scriptLib data pubkeys
  | .descriptor name record =>
      .ok (descriptorScript L.scriptLib network name record (changeIndicator isChange) index)

/-- The label of a wallet's account and branch. -/
def SearchWallet.IsLabel (network : Network) (accountIndex : UInt16) (isChange : Bool)
    (label : Bytes) : SearchWallet → Prop
  | .singlesig variant => ∃ exportPath pathstr,
      walletGetDefaultXpubExportPath network variant accountIndex = .ok exportPath ∧
        walletBip32PathAsStr (exportPath ++ [changeIndicator isChange]) SEARCH_LABEL_LEN false =
          some pathstr ∧ label = ascii pathstr
  | .multisig name _ | .descriptor name _ =>
      label = name ++ ascii "/" ++ ascii (if isChange then "1" else "0")

end Model

end Jade
