/-
**What an address search reports, and where it stalls.**

A path that is reported has the script of the address: the search roots and the label are always
those of the account and the branch on the screen.  Whether the indexes are tried in order, and each
of them once, depends on every batch that finds nothing moving the index by its size.  A descriptor
that does not give a script of that length, or gives none, leaves it where it is, and then the search
tries the same batch for ever.

Main definitions:

* `Jade.SearchLib.Lawful` — what the libraries promise;
* `Jade.Rooted` — the search roots and the label are those of the options;
* `Jade.BatchBuilds` — the batch ahead gets to its end;
* `Jade.ReportsTruly`, `Jade.SearchesInOrder` — what a search is to do.

Main results:

* `Jade.searchBatch_cases` — what a batch comes to, for all kinds of wallets;
* `Jade.batchBuilds_iff_advances` — exactly when a batch that finds nothing moves the index;
* `Jade.reportsTruly` — a path that is reported has the script of the address;
* `Jade.address_search_iff` — **exactly when a search tries the indexes in order and does not stall**.
-/

import Jade.Qrmode.VerifyAddress
import Jade.SignPsbt.Green

set_option relaxedAutoImplicit false
set_option autoImplicit false

namespace Jade

open Exec

/-- The length that a script of a type has. -/
def scriptLengthOfType : ScriptType → Option ℕ
  | .p2pkh => some WALLY_SCRIPTPUBKEY_P2PKH_LEN
  | .p2sh => some WALLY_SCRIPTPUBKEY_P2SH_LEN
  | .p2wpkh => some WALLY_SCRIPTPUBKEY_P2WPKH_LEN
  | .p2wsh => some WALLY_SCRIPTPUBKEY_P2WSH_LEN
  | .p2tr => some WALLY_SCRIPTPUBKEY_P2TR_LEN
  | .multisig | .other => none

section Model

variable {K D : Type} (L : SearchLib K D)

/-- What the libraries promise. -/
structure SearchLib.Lawful : Prop where
  /-- a key derived in two steps is the one derived along the whole path -/
  derive_append : ∀ {key root leaf : K} {path : List UInt32} {index : UInt32}, path ≠ [] →
    L.wallet.bip32PublicKeyFromParentPath key path = some root →
      L.wallet.bip32PublicKeyFromParentPath root [index] = some leaf →
        ∃ leaf', L.wallet.bip32PublicKeyFromParentPath key (path ++ [index]) = some leaf' ∧
          L.wallet.pubKey leaf' = L.wallet.pubKey leaf
  /-- a public key has no hardened children -/
  derive_hardened : ∀ {key root : K} {path : List UInt32} {index : UInt32}, path ≠ [] →
    L.wallet.bip32PublicKeyFromParentPath key path = some root → isHardened index = true →
      L.wallet.bip32PublicKeyFromParentPath root [index] = none
  length_pubKey : ∀ key, (L.wallet.pubKey key).length = EC_PUBLIC_KEY_LEN
  length_of_type : ∀ {script type n}, L.wallet.scriptType script = some type →
    scriptLengthOfType type = some n → script.length = n
  /-- no script of a descriptor is longer than the maximum -/
  maximum_length : ∀ {d branch index script}, L.descriptorToScript d branch index = some script →
    ∃ maxlen, L.descriptorMaximumLength d branch index = some maxlen ∧ script.length ≤ maxlen

/-! ### Wallets that can have a script -/

/-- The wallet has scripts of this length. -/
def SearchWallet.Fits (script : Bytes) : SearchWallet → Prop
  | .singlesig variant =>
      isSinglesig variant = true ∧ script.length = scriptLengthForVariant variant
  | .multisig _ data => ∃ variant, scriptVariantOfByte data.variant = some variant ∧
      isMultisig variant = true ∧ script.length = scriptLengthForVariant variant
  | .descriptor _ _ => script ≠ [] ∧ script.length ≤ WALLY_SCRIPTPUBKEY_P2WSH_LEN

/-- The search roots of an account and a branch. -/
def SearchWallet.RootsAt (network : Network) (accountIndex : UInt16) (isChange : Bool)
    (searchRoots : List K) : SearchWallet → Prop
  | .singlesig variant => ∃ exportPath root,
      walletGetDefaultXpubExportPath network variant accountIndex = .ok exportPath ∧
        walletGetHdkey L.toSignerLib (exportPath ++ [changeIndicator isChange]) = some root ∧
          searchRoots = [root]
  | .multisig _ data => data.xpubs.1 ≠ [] ∧
      data.xpubs.1.mapM (multisigSearchRoot L isChange) = .ok searchRoots
  | .descriptor _ _ => searchRoots = []

/-- **The search roots and the label are those of the account and the branch.** -/
structure Rooted (network : Network) (wallet : SearchWallet) (s : SearchState K) : Prop where
  roots : wallet.RootsAt L network s.accountIndex s.isChange s.searchRoots
  label : wallet.IsLabel network s.accountIndex s.isChange s.label

/-- The label that another one is made from. -/
def SearchWallet.HasStem (label : Bytes) : SearchWallet → Prop
  | .singlesig _ => True
  | .multisig name _ | .descriptor name _ => label.dropLast = name ++ ascii "/"

variable {L} {network : Network} {wallet : SearchWallet} {s : SearchState K}
  {addrData : AddressData}

theorem SearchWallet.IsLabel.hasStem {accountIndex : UInt16} {isChange : Bool} {label : Bytes}
    (h : wallet.IsLabel network accountIndex isChange label) : wallet.HasStem label := by
  have hlast : ∀ name : Bytes, (name ++ ascii "/" ++
      ascii (if isChange then "1" else "0")).dropLast = name ++ ascii "/" := by
    intro name
    cases isChange with
    | true => exact List.dropLast_concat
    | false => exact List.dropLast_concat
  cases wallet with
  | singlesig variant => trivial
  | multisig name data =>
      rw [show label = _ from h]
      exact hlast name
  | descriptor name record =>
      rw [show label = _ from h]
      exact hlast name

theorem relabel_eq_ok {isChange : Bool} {name label label' : Bytes}
    (hstem : label.dropLast = name ++ ascii "/") (h : relabel isChange label = .ok label') :
    label' = name ++ ascii "/" ++ ascii (if isChange then "1" else "0") := by
  obtain ⟨_, -, h⟩ := bind_eq_ok.1 h
  obtain ⟨_, -, h⟩ := bind_eq_ok.1 h
  rw [← pure_eq_ok.1 h, hstem]
  cases isChange with
  | true => rfl
  | false => rfl

/-- The search roots and the label that are made for an account and a branch. -/
theorem getSearchRoots_spec {accountIndex : UInt16} {isChange : Bool} {label label' : Bytes}
    {searchRoots : List K} (hstem : wallet.HasStem label)
    (h : getSearchRoots L network wallet accountIndex isChange label = .ok (searchRoots, label')) :
    wallet.RootsAt L network accountIndex isChange searchRoots ∧
      wallet.IsLabel network accountIndex isChange label' := by
  cases wallet with
  | singlesig variant =>
      obtain ⟨exportPath, hpath, h⟩ := bind_eq_ok.1 h
      obtain ⟨_, -, h⟩ := bind_eq_ok.1 h
      obtain ⟨root, hroot, h⟩ := bind_eq_ok.1 h
      obtain ⟨pathstr, hpathstr, h⟩ := bind_eq_ok.1 h
      obtain ⟨rfl, rfl⟩ := Prod.mk.inj (pure_eq_ok.1 h)
      exact ⟨⟨exportPath, root, hpath, wallyVerify_eq_ok.1 hroot, rfl⟩,
        ⟨exportPath, pathstr, hpath, wallyVerify_eq_ok.1 hpathstr, rfl⟩⟩
  | multisig name data =>
      obtain ⟨_, hne, h⟩ := bind_eq_ok.1 h
      obtain ⟨roots, hroots, h⟩ := bind_eq_ok.1 h
      obtain ⟨label'', hlabel, h⟩ := bind_eq_ok.1 h
      obtain ⟨rfl, rfl⟩ := Prod.mk.inj (pure_eq_ok.1 h)
      refine ⟨⟨?_, hroots⟩, relabel_eq_ok hstem hlabel⟩
      simpa using jadeVerify_eq_ok.1 hne
  | descriptor name record =>
      obtain ⟨label'', hlabel, h⟩ := bind_eq_ok.1 h
      obtain ⟨rfl, rfl⟩ := Prod.mk.inj (pure_eq_ok.1 h)
      exact ⟨rfl, relabel_eq_ok hstem hlabel⟩

/-! ### Scripts along the whole path -/

/-- A leaf below the search root of a single key is the key along the whole path. -/
theorem singlesigLeaf_scriptAt (hL : L.Lawful) {variant : ScriptVariant} {accountIndex : UInt16}
    {isChange : Bool} {root : K} {exportPath : List UInt32} {index : UInt32} {script : Bytes}
    (hpath : walletGetDefaultXpubExportPath network variant accountIndex = .ok exportPath)
    (hroot : walletGetHdkey L.toSignerLib (exportPath ++ [changeIndicator isChange]) = some root)
    (h : singlesigLeaf L network variant root index = .ok (some script)) :
    SearchWallet.scriptAt L network accountIndex isChange index (.singlesig variant) =
      .ok (some script) := by
  obtain ⟨leaf, hleaf, h⟩ := bind_eq_ok.1 h
  have hne : ∀ last : List UInt32, last ≠ [] → (exportPath ++ last).isEmpty = false := by
    intro last hlast
    simp [hlast]
  rw [walletGetHdkey, hne _ (by simp), if_neg Bool.false_ne_true] at hroot
  obtain ⟨leaf', hleaf', hkey⟩ :=
    hL.derive_append (by simp) hroot (wallyVerify_eq_ok.1 hleaf)
  rw [List.append_assoc] at hleaf'
  have hhdkey : walletGetHdkey L.toSignerLib (exportPath ++ [changeIndicator isChange, index]) =
      some leaf' := by
    rw [walletGetHdkey, hne _ (by simp), if_neg Bool.false_ne_true]
    exact hleaf'
  rw [SearchWallet.scriptAt, hpath, ok_bind, hhdkey]
  dsimp only
  rw [hkey]
  exact h

theorem isHardened_changeIndicator (isChange : Bool) :
    isHardened (changeIndicator isChange) = false := by
  cases isChange with
  | true => rfl
  | false => rfl

/-- The key of a signer, along the whole path. -/
theorem walletDerivePubkey_leafPath (hL : L.Lawful) {isChange : Bool} {xpub : Xpub} {root : K}
    {index : UInt32} {leaf : K} (hroot : multisigSearchRoot L isChange xpub = .ok root)
    (hleaf : L.wallet.bip32PublicKeyFromParentPath root [index] = some leaf) :
    isHardened index = false ∧ ∃ leaf',
      walletDerivePubkey L.wallet xpub.1 [changeIndicator isChange, index] = .ok (some leaf') ∧
        L.wallet.pubKey leaf' = L.wallet.pubKey leaf := by
  obtain ⟨derived, hderived, hroot⟩ := bind_eq_ok.1 hroot
  cases derived with
  | none => cases hroot
  | some derived =>
      obtain rfl := pure_eq_ok.1 hroot
      rw [walletDerivePubkey] at hderived
      cases hkey : L.wallet.bip32KeyUnserialize xpub.1 with
      | none =>
          rw [hkey] at hderived
          cases hderived
      | some key =>
          rw [hkey] at hderived
          obtain ⟨hdkey, hhdkey, hderived⟩ := bind_eq_ok.1 hderived
          obtain rfl := Option.some.inj (pure_eq_ok.1 hderived)
          have hstep := wallyVerify_eq_ok.1 hhdkey
          obtain ⟨leaf', hleaf', hpub⟩ := hL.derive_append (by simp) hstep hleaf
          refine ⟨?_, leaf', ?_, hpub⟩
          · cases hhard : isHardened index with
            | false => rfl
            | true =>
                rw [hL.derive_hardened (by simp) hstep hhard] at hleaf
                cases hleaf
          · rw [walletDerivePubkey, hkey]
            change (wallyVerify (L.wallet.bip32PublicKeyFromParentPath key
              [changeIndicator isChange, index]) >>= fun hdkey => pure (some hdkey)) = _
            rw [show L.wallet.bip32PublicKeyFromParentPath key [changeIndicator isChange, index] =
              some leaf' from hleaf']
            rfl

/-- The public key of a leaf below a search root. -/
def leafPubkey (L : SearchLib K D) (index : UInt32) (root : K) : Except Fault Bytes := do
  let derived ← wallyVerify (L.wallet.bip32PublicKeyFromParentPath root [index])
  return L.wallet.pubKey derived

/-- The keys of the signers are those along the whole paths. -/
theorem signerPubkeys_leafPath (hL : L.Lawful) {isChange : Bool} {index : UInt32}
    {xpubs : List Xpub} {roots : List K} {pubkeys : List Bytes}
    (hroots : List.Forall₂ (fun xpub root => multisigSearchRoot L isChange xpub = .ok root)
      xpubs roots)
    (hkeys : List.Forall₂ (fun root pubkey => leafPubkey L index root = .ok pubkey)
      roots pubkeys) :
    signerPubkeys L.scriptLib (xpubs.zip (xpubs.map fun _ => some (leafPath isChange index))) =
      .ok (some pubkeys) := by
  induction hroots generalizing pubkeys with
  | nil =>
      cases hkeys
      rfl
  | cons hroot _ ih =>
      cases hkeys with
      | cons hkey hkeys =>
          obtain ⟨leaf, hleaf, hpub⟩ := bind_eq_ok.1 hkey
          obtain ⟨hindex, leaf', hleaf', hsame⟩ :=
            walletDerivePubkey_leafPath hL hroot (wallyVerify_eq_ok.1 hleaf)
          have hany : [changeIndicator isChange, index].any isHardened = false := by
            simp [isHardened_changeIndicator, hindex]
          have hsigner : signerPath (some (leafPath isChange index)) =
              some [changeIndicator isChange, index] := rfl
          rw [List.map_cons, List.zip_cons_cons, signerPubkeys, hsigner]
          dsimp only
          rw [hany, if_neg Bool.false_ne_true,
            show walletDerivePubkey L.scriptLib.wallet _ [changeIndicator isChange, index] = _
              from hleaf', ok_bind]
          dsimp only
          rw [ih hkeys, ok_bind, ← pure_eq_ok.1 hpub, ← hsame]
          rfl

/-- The script below the search roots of a multisig is the one along the whole paths. -/
theorem multisigLeaf_scriptAt (hL : L.Lawful) {name : Bytes} {data : MultisigRecord}
    {variant : ScriptVariant} {accountIndex : UInt16} {isChange : Bool} {roots : List K}
    {index : UInt32} {script : Bytes} (hvariant : scriptVariantOfByte data.variant = some variant)
    (hne : data.xpubs.1 ≠ [])
    (hroots : data.xpubs.1.mapM (multisigSearchRoot L isChange) = .ok roots)
    (h : multisigLeaf L variant data.sorted data.threshold.toNat roots index = .ok (some script)) :
    SearchWallet.scriptAt L network accountIndex isChange index (.multisig name data) =
      .ok (some script) := by
  obtain ⟨pubkeys, hpubkeys, h⟩ := bind_eq_ok.1 h
  have hkeys := signerPubkeys_leafPath hL (mapM_eq_ok.1 hroots) (mapM_eq_ok.1 hpubkeys)
  have hget : multisigGetPubkeys L.scriptLib data.xpubs.1
      (data.xpubs.1.map fun _ => some (leafPath isChange index)) = .ok (some pubkeys) := by
    rw [multisigGetPubkeys, jadeVerify_bind (by simpa using hne)]
    simp only [List.length_map, bne_self_eq_false, Bool.false_eq_true, if_false]
    exact hkeys
  rw [SearchWallet.scriptAt, hget, ok_bind]
  dsimp only
  rw [multisigScript, hvariant]
  exact h

/-- The script of a descriptor, whatever maximum it was built with. -/
theorem descriptorLeaf_scriptAt (hL : L.Lawful) {name : Bytes} {record : DescriptorRecord}
    {d : D} {accountIndex : UInt16} {isChange : Bool} {maxlen : ℕ} {index : UInt32} {script : Bytes}
    (hparse : parseDescriptor L record network = some d)
    (hlen : script.length ≤ WALLY_SCRIPTPUBKEY_P2WSH_LEN)
    (h : descriptorLeaf L d (changeIndicator isChange) maxlen index = some script) :
    SearchWallet.scriptAt L network accountIndex isChange index (.descriptor name record) =
      .ok (some script) := by
  have hscript : L.descriptorToScript d (changeIndicator isChange) index = some script ∧
      script ≠ [] := by
    rw [descriptorLeaf] at h
    split at h
    · cases h
    · case h_2 built hbuilt =>
        split at h
        · cases h
        · case isFalse hok =>
            obtain rfl := Option.some.inj h
            exact ⟨hbuilt, fun hnil => hok (by simp [hnil])⟩
  obtain ⟨hbuilt, hne⟩ := hscript
  obtain ⟨maxlen', hmax, hle⟩ := hL.maximum_length hbuilt
  have hpos : 0 < script.length := List.length_pos_iff.2 hne
  have hat : descriptorScriptAt L record network (changeIndicator isChange) index = some script := by
    have hempty : (script.isEmpty || decide (maxlen' < script.length)) = false := by
      simp [hne, hle]
    rw [descriptorScriptAt, hparse]
    dsimp only
    rw [hmax]
    dsimp only
    rw [if_neg (by omega), descriptorLeaf, hbuilt]
    dsimp only
    rw [hempty, if_neg Bool.false_ne_true]
  have hempty : (script.isEmpty || decide (WALLY_SCRIPTPUBKEY_P2WSH_LEN < script.length)) =
      false := by
    simp [hne, hlen]
  have hlib : L.scriptLib.descriptorToScript name.cstr record network (changeIndicator isChange)
      index = some script := hat
  rw [SearchWallet.scriptAt, descriptorScript, hlib]
  dsimp only
  rw [hempty, if_neg Bool.false_ne_true]

/-! ### One batch -/

/-- The scripts of a descriptor, as the loop of a batch builds them. -/
def descriptorBuild (L : SearchLib K D) (d : D) (branch : UInt32) (maxlen i : ℕ) :
    Except Fault (Option Bytes) :=
  .ok (descriptorLeaf L d branch maxlen (UInt32.ofNat i))

/-- **The batch ahead gets to its end, or to the script.** -/
def BatchBuilds (L : SearchLib K D) (addrData : AddressData) (wallet : SearchWallet)
    (s : SearchState K) : Prop :=
  s.index.toNat + (addressSearchBatchSize wallet.isRegistered).toNat < 2 ^ 32 ∧
    match wallet with
    | .singlesig _ => True
    | .multisig _ data => data.threshold ≠ 0
    | .descriptor _ record => ∃ d maxlen, parseDescriptor L record addrData.network = some d ∧
        L.descriptorMaximumLength d (changeIndicator s.isChange) s.index = some maxlen ∧
          maxlen ≠ 0 ∧ addrData.script.length ≤ maxlen ∧
            BatchSearch.Builds (descriptorBuild L d (changeIndicator s.isChange) maxlen)
              addrData.script (addressSearchBatchSize true).toNat s.index.toNat

/-- The script of a single key is always built. -/
theorem singlesigLeaf_ne_none {variant : ScriptVariant} (hvariant : isSinglesig variant = true)
    (root : K) (index : UInt32) : singlesigLeaf L network variant root index ≠ .ok none := by
  intro h
  obtain ⟨leaf, -, h⟩ := bind_eq_ok.1 h
  rw [walletBuildSinglesigScript, hvariant, Bool.not_true, if_neg Bool.false_ne_true] at h
  dsimp only at h
  split at h
  all_goals
    obtain ⟨script, -, h⟩ := bind_eq_ok.1 h
    obtain ⟨_, -, h⟩ := bind_eq_ok.1 h
    cases pure_eq_ok.1 h

/-- So is that of a multisig with a threshold. -/
theorem multisigLeaf_ne_none (hL : L.Lawful) {variant : ScriptVariant} {sorted : Bool}
    {threshold : ℕ} {roots : List K} (hvariant : isMultisig variant = true) (hthreshold : threshold ≠ 0)
    (hroots : roots ≠ []) (index : UInt32) :
    multisigLeaf L variant sorted threshold roots index ≠ .ok none := by
  intro h
  obtain ⟨pubkeys, hpubkeys, h⟩ := bind_eq_ok.1 h
  have hne : pubkeys.flatten ≠ [] := by
    cases mapM_eq_ok.1 hpubkeys with
    | nil => exact absurd rfl hroots
    | cons hkey _ =>
        obtain ⟨leaf, -, hkey⟩ := bind_eq_ok.1 hkey
        intro hnil
        have hlen := hL.length_pubKey leaf
        rw [pure_eq_ok.1 hkey, (List.flatten_eq_nil_iff.1 hnil) _ List.mem_cons_self] at hlen
        exact absurd hlen (by decide)
  have hcond : (!isMultisig variant || threshold == 0 || pubkeys.flatten.isEmpty) = false := by
    simp [hvariant, hthreshold, hne]
  rw [walletBuildMultisigScript, hcond, if_neg Bool.false_ne_true] at h
  obtain ⟨multisig, -, h⟩ := bind_eq_ok.1 h
  dsimp only at h
  split at h
  all_goals
    obtain ⟨script, -, h⟩ := bind_eq_ok.1 h
    obtain ⟨_, -, h⟩ := bind_eq_ok.1 h
    cases pure_eq_ok.1 h

/-- What a batch is that begins: a turn of the loop for some way to build scripts, which are those of
the wallet. -/
structure Batch (L : SearchLib K D) (addrData : AddressData) (wallet : SearchWallet)
    (s : SearchState K) (build : UInt32 → Except Fault (Option Bytes)) : Prop where
  eq : searchBatch L addrData wallet s = searchFrom build addrData.script s.index
    (addressSearchBatchSize wallet.isRegistered)
  builds_iff : BatchBuilds L addrData wallet s ↔
    s.index.toNat + (addressSearchBatchSize wallet.isRegistered).toNat < 2 ^ 32 ∧
      BatchSearch.Builds (fun i => build (UInt32.ofNat i)) addrData.script
        (addressSearchBatchSize wallet.isRegistered).toNat s.index.toNat
  scriptAt : ∀ index, build index = .ok (some addrData.script) →
    wallet.scriptAt L addrData.network s.accountIndex s.isChange index = .ok (some addrData.script)
  /-- only a batch that would get to its end is cut short by a fault -/
  ends : BatchBuilds L addrData wallet s ∨ ∃ r, searchBatch L addrData wallet s = .ok r

/-- A batch whose every script is built, unless it is cut short. -/
theorem Batch.of_ne_none {build : UInt32 → Except Fault (Option Bytes)}
    (hnone : ∀ index, build index ≠ .ok none)
    (heq : searchBatch L addrData wallet s = searchFrom build addrData.script s.index
      (addressSearchBatchSize wallet.isRegistered))
    (hbuilds : BatchBuilds L addrData wallet s ↔
      s.index.toNat + (addressSearchBatchSize wallet.isRegistered).toNat < 2 ^ 32)
    (hscript : ∀ index, build index = .ok (some addrData.script) →
      wallet.scriptAt L addrData.network s.accountIndex s.isChange index =
        .ok (some addrData.script)) : Batch L addrData wallet s build where
  eq := heq
  builds_iff := hbuilds.trans ⟨fun h => ⟨h, fun _ _ _ => hnone _⟩, fun h => h.1⟩
  scriptAt := hscript
  ends := by
    by_cases hfit : s.index.toNat + (addressSearchBatchSize wallet.isRegistered).toNat < 2 ^ 32
    · exact .inl (hbuilds.2 hfit)
    · exact .inr ⟨_, heq.trans (searchFrom_wraps hfit)⟩

theorem addressSearchBatchSize_ne_zero (registeredWallet : Bool) :
    addressSearchBatchSize registeredWallet ≠ 0 := by
  cases registeredWallet with
  | true => decide
  | false => decide

theorem batch_singlesig (hL : L.Lawful) {variant : ScriptVariant}
    (hfits : SearchWallet.Fits addrData.script (.singlesig variant))
    (hrooted : Rooted L addrData.network (.singlesig variant) s) :
    ∃ build, Batch L addrData (.singlesig variant) s build := by
  obtain ⟨hvariant, hlen⟩ := hfits
  obtain ⟨exportPath, root, hpath, hroot, hroots⟩ := hrooted.roots
  refine ⟨singlesigLeaf L addrData.network variant root,
    .of_ne_none (singlesigLeaf_ne_none hvariant root) ?_ (and_iff_left trivial)
      fun index h => singlesigLeaf_scriptAt hL hpath hroot h⟩
  have hgreen : (variant != .green) = true := by
    cases variant with
    | green => cases hvariant
    | _ => rfl
  have hcond : (!isSinglesig variant || addressSearchBatchSize false == 0 ||
      addrData.script.length != scriptLengthForVariant variant) = false := by
    rw [hvariant, hlen]
    simp [addressSearchBatchSize]
  unfold searchBatch
  dsimp only [SearchWallet.isRegistered]
  rw [hroots]
  dsimp only
  rw [jadeVerify_bind hgreen, walletSearchForSinglesigScript, hcond, if_neg Bool.false_ne_true]

theorem batch_multisig (hL : L.Lawful) {name : Bytes} {data : MultisigRecord}
    (hfits : SearchWallet.Fits addrData.script (.multisig name data))
    (hrooted : Rooted L addrData.network (.multisig name data) s) :
    (¬BatchBuilds L addrData (.multisig name data) s ∧
        searchBatch L addrData (.multisig name data) s = .ok (.nothing s.index)) ∨
      ∃ build, Batch L addrData (.multisig name data) s build := by
  obtain ⟨variant, hvariant, hmulti, hlen⟩ := hfits
  obtain ⟨hne, hroots⟩ := hrooted.roots
  have hlength : s.searchRoots.length = data.xpubs.1.length := (mapM_eq_ok.1 hroots).length_eq.symm
  have hrootsNe : s.searchRoots ≠ [] := by
    intro hnil
    rw [hnil] at hlength
    exact hne (List.length_eq_zero_iff.1 hlength.symm)
  have hle := data.xpubs.2
  have hbatch : searchBatch L addrData (.multisig name data) s =
      walletSearchForMultisigScript L variant data.sorted data.threshold.toNat s.searchRoots s.index
        (addressSearchBatchSize true) addrData.script := by
    unfold searchBatch
    dsimp only [SearchWallet.isRegistered]
    rw [jadeVerify_bind (by simpa using hrootsNe), hvariant]
  by_cases hzero : data.threshold = 0
  · refine .inl ⟨fun h => h.2 hzero, ?_⟩
    have hcond : (data.threshold.toNat == 0) = true := by
      rw [hzero]
      rfl
    rw [hbatch, walletSearchForMultisigScript, hcond]
    simp
  · have hthreshold : data.threshold.toNat ≠ 0 := fun h => hzero (UInt8.toNat_inj.1 h)
    refine .inr ⟨multisigLeaf L variant data.sorted data.threshold.toNat s.searchRoots,
      .of_ne_none (multisigLeaf_ne_none hL hmulti hthreshold hrootsNe) ?_ (and_iff_left hzero)
        fun index h => multisigLeaf_scriptAt hL hvariant hne hroots h⟩
    have hcond : (!isMultisig variant || data.threshold.toNat == 0 || s.searchRoots.isEmpty ||
        decide (MAX_ALLOWED_SIGNERS < s.searchRoots.length) || addressSearchBatchSize true == 0 ||
          addrData.script.length != scriptLengthForVariant variant) = false := by
      rw [hmulti, hlen, hlength]
      simp [hthreshold, hrootsNe, hle, addressSearchBatchSize]
    rw [hbatch, walletSearchForMultisigScript, hcond, if_neg Bool.false_ne_true]
    rfl

theorem batch_descriptor (hL : L.Lawful) {name : Bytes} {record : DescriptorRecord}
    (hfits : SearchWallet.Fits addrData.script (.descriptor name record))
    (hrooted : Rooted L addrData.network (.descriptor name record) s) :
    (¬BatchBuilds L addrData (.descriptor name record) s ∧
        searchBatch L addrData (.descriptor name record) s = .ok (.nothing s.index)) ∨
      ∃ build, Batch L addrData (.descriptor name record) s build := by
  obtain ⟨hne, hlen⟩ := hfits
  have hroots : s.searchRoots = [] := hrooted.roots
  have hbatch : searchBatch L addrData (.descriptor name record) s =
      descriptorSearchForScript L record addrData.network (changeIndicator s.isChange) s.index
        (addressSearchBatchSize true) addrData.script := by
    unfold searchBatch
    dsimp only [SearchWallet.isRegistered]
    rw [hroots, jadeVerify_bind (c := [].isEmpty) rfl, walletSearchForDescriptorScript]
    rfl
  rw [descriptorSearchForScript, jadeVerify_bind (by decide), jadeVerify_bind (by simpa using hne)]
    at hbatch
  cases hparse : parseDescriptor L record addrData.network with
  | none =>
      rw [hparse] at hbatch
      refine .inl ⟨fun h => ?_, hbatch⟩
      obtain ⟨d, maxlen, hsome, -⟩ := h.2
      rw [hparse] at hsome
      cases hsome
  | some d =>
      rw [hparse] at hbatch
      dsimp only at hbatch
      rw [descriptorSearchForScriptImpl] at hbatch
      have hsame : ∀ {d'}, parseDescriptor L record addrData.network = some d' → d' = d := by
        intro d' h
        exact (Option.some.inj (hparse.symm.trans h)).symm
      cases hmax : L.descriptorMaximumLength d (changeIndicator s.isChange) s.index with
      | none =>
          rw [hmax] at hbatch
          refine .inl ⟨fun h => ?_, hbatch⟩
          obtain ⟨d', maxlen, hparse', hsome, -⟩ := h.2
          rw [hsame hparse', hmax] at hsome
          cases hsome
      | some maxlen =>
          rw [hmax] at hbatch
          dsimp only at hbatch
          by_cases hshort : maxlen = 0 ∨ maxlen < addrData.script.length
          · rw [if_pos hshort] at hbatch
            refine .inl ⟨fun h => ?_, hbatch⟩
            obtain ⟨d', maxlen', hparse', hsome, hzero, hle, -⟩ := h.2
            rw [hsame hparse', hmax] at hsome
            obtain rfl := Option.some.inj hsome
            omega
          · rw [if_neg hshort] at hbatch
            rw [not_or] at hshort
            refine .inr ⟨fun i => .ok (descriptorLeaf L d (changeIndicator s.isChange) maxlen i),
              hbatch, ?_, fun index h => ?_, .inr ?_⟩
            · constructor
              · intro h
                obtain ⟨d', maxlen', hparse', hsome, -, -, hbuilds⟩ := h.2
                rw [hsame hparse'] at hsome hbuilds
                rw [hmax] at hsome
                obtain rfl := Option.some.inj hsome
                exact ⟨h.1, hbuilds⟩
              · intro h
                exact ⟨h.1, d, maxlen, hparse, hmax, hshort.1, Nat.le_of_not_lt hshort.2, h.2⟩
            · exact descriptorLeaf_scriptAt hL hparse hlen (Except.ok.inj h)
            · have htotal : ∀ i, ∃ answer,
                  descriptorBuild L d (changeIndicator s.isChange) maxlen i = .ok answer := by
                intro i
                exact ⟨_, rfl⟩
              obtain ⟨r, hr⟩ := BatchSearch.exists_scan_eq_ok addrData.script htotal
                ((s.index + addressSearchBatchSize true).toNat - s.index.toNat) s.index.toNat
              refine ⟨⟨r.found, UInt32.ofNat r.index, r.tried⟩, hbatch.trans ?_⟩
              change (BatchSearch.scan (descriptorBuild L d (changeIndicator s.isChange) maxlen)
                addrData.script _ s.index.toNat >>= _) = _
              rw [hr, ok_bind]
              rfl

/-- **What a batch comes to**: it does not begin, and leaves the index where it is, or it is a turn of
the loop. -/
theorem searchBatch_cases (hL : L.Lawful) (hfits : wallet.Fits addrData.script)
    (hrooted : Rooted L addrData.network wallet s) :
    (¬BatchBuilds L addrData wallet s ∧
        searchBatch L addrData wallet s = .ok (.nothing s.index)) ∨
      ∃ build, Batch L addrData wallet s build := by
  cases wallet with
  | singlesig variant => exact .inr (batch_singlesig hL hfits hrooted)
  | multisig name data => exact batch_multisig hL hfits hrooted
  | descriptor name record => exact batch_descriptor hL hfits hrooted

/-- A batch that finds nothing moves the index by its size. -/
def Advances (L : SearchLib K D) (addrData : AddressData) (wallet : SearchWallet)
    (s : SearchState K) : Prop :=
  ∀ searched, searchBatch L addrData wallet s = .ok searched → searched.found = false →
    searched.index.toNat = s.index.toNat + (addressSearchBatchSize wallet.isRegistered).toNat

/-- **Exactly when a batch that finds nothing moves the index by its size.** -/
theorem batchBuilds_iff_advances (hL : L.Lawful) (hfits : wallet.Fits addrData.script)
    (hrooted : Rooted L addrData.network wallet s) :
    BatchBuilds L addrData wallet s ↔ Advances L addrData wallet s := by
  have hsize := addressSearchBatchSize_ne_zero wallet.isRegistered
  obtain ⟨hnot, hnothing⟩ | ⟨build, hbatch⟩ := searchBatch_cases hL hfits hrooted
  · constructor
    · intro hbuilds
      exact absurd hbuilds hnot
    · intro hadvances
      have hindex : s.index.toNat =
          s.index.toNat + (addressSearchBatchSize wallet.isRegistered).toNat :=
        hadvances _ hnothing rfl
      have hzero : (addressSearchBatchSize wallet.isRegistered).toNat = 0 := by omega
      exact absurd (UInt32.toNat_inj.1 hzero) hsize
  · constructor
    · intro hbuilds searched hsearched
      rw [hbatch.eq] at hsearched
      exact (searchFrom_advances_iff hsearched hsize).1 (hbatch.builds_iff.1 hbuilds)
    · intro hadvances
      rcases hbatch.ends with hbuilds | ⟨searched, hsearched⟩
      · exact hbuilds
      · have hend := hadvances searched hsearched
        rw [hbatch.eq] at hsearched
        exact hbatch.builds_iff.2 ((searchFrom_advances_iff hsearched hsize).2 hend)

/-- What a batch finds is the script of the wallet there, and all indexes up to it have been tried. -/
theorem searchBatch_found (hL : L.Lawful) (hfits : wallet.Fits addrData.script)
    (hrooted : Rooted L addrData.network wallet s) {searched : Searched}
    (h : searchBatch L addrData wallet s = .ok searched) (hfound : searched.found = true) :
    wallet.scriptAt L addrData.network s.accountIndex s.isChange searched.index =
        .ok (some addrData.script) ∧ s.index.toNat ≤ searched.index.toNat ∧
      searched.tried = List.range' s.index.toNat (searched.index.toNat - s.index.toNat + 1) := by
  obtain ⟨-, hnothing⟩ | ⟨build, hbatch⟩ := searchBatch_cases hL hfits hrooted
  · rw [hnothing] at h
    rw [← Except.ok.inj h] at hfound
    cases hfound
  · rw [hbatch.eq] at h
    obtain ⟨hbuild, hle, htried⟩ := searchFrom_found h hfound
    exact ⟨hbatch.scriptAt _ hbuild, hle, htried⟩

/-- A batch that gets to its end has tried the indexes in between, in order. -/
theorem searchBatch_tried (hL : L.Lawful) (hfits : wallet.Fits addrData.script)
    (hrooted : Rooted L addrData.network wallet s) {searched : Searched}
    (h : searchBatch L addrData wallet s = .ok searched)
    (hend : searched.index.toNat =
      s.index.toNat + (addressSearchBatchSize wallet.isRegistered).toNat) :
    searched.tried = List.range' s.index.toNat (searched.index.toNat - s.index.toNat) := by
  rw [hend, Nat.add_sub_cancel_left]
  obtain ⟨-, hnothing⟩ | ⟨build, hbatch⟩ := searchBatch_cases hL hfits hrooted
  · rw [hnothing] at h
    rw [← Except.ok.inj h] at hend
    have hindex : s.index.toNat =
      s.index.toNat + (addressSearchBatchSize wallet.isRegistered).toNat := hend
    have hzero : (addressSearchBatchSize wallet.isRegistered).toNat = 0 := by omega
    exact absurd (UInt32.toNat_inj.1 hzero) (addressSearchBatchSize_ne_zero wallet.isRegistered)
  · rw [hbatch.eq] at h
    exact searchFrom_tried h hend

/-! ### One turn -/

/-- The state behind a batch. -/
def SearchState.after (s : SearchState K) (searched : Searched) : SearchState K :=
  { s with index := searched.index, tried := s.tried ++ searched.tried }

/-- What a turn can do to the search: it goes on behind the batch, it skips addresses, or it starts
again with other options. -/
inductive Continues (L : SearchLib K D) (addrData : AddressData) (wallet : SearchWallet)
    (s : SearchState K) : SearchState K → Prop
  | goOn (confirmedAtIndex : UInt32) : Continues L addrData wallet s { s with confirmedAtIndex }
  | skip (index : UInt32) : Continues L addrData wallet s
      { s with index, confirmedAtIndex := index, skipped := true }
  | restart (accountIndex : UInt16) (isChange : Bool) (searchRoots : List K) (label : Bytes)
      (h : getSearchRoots L addrData.network wallet accountIndex isChange s.label =
        .ok (searchRoots, label)) : Continues L addrData wallet s {
          accountIndex, isChange, label, searchRoots
          index := 0, confirmedAtIndex := 0, tried := [], skipped := false }

theorem handleSearchEvent_eq_ok {event : Option SearchEvent} {outcome : SearchOutcome K}
    (h : handleSearchEvent L addrData wallet s event = .ok outcome) :
    outcome = .notVerified ∨
      ∃ s', outcome = .searching s' ∧ Continues L addrData wallet s s' := by
  have hsame : Continues L addrData wallet s s := .goOn s.confirmedAtIndex
  cases event with
  | none => exact .inr ⟨s, (Except.ok.inj h).symm, hsame⟩
  | some event =>
      cases event with
      | skipAddresses => exact .inr ⟨_, (Except.ok.inj h).symm, .skip _⟩
      | exit => exact .inl (Except.ok.inj h).symm
      | options events =>
          unfold handleSearchEvent at h
          dsimp only at h
          split at h
          · obtain ⟨⟨searchRoots, label⟩, hroots, h⟩ := bind_eq_ok.1 h
            exact .inr ⟨_, (pure_eq_ok.1 h).symm, .restart _ _ _ _ hroots⟩
          · exact .inr ⟨s, (Except.ok.inj h).symm, hsame⟩

/-- **What a turn comes to.** -/
theorem searchTurn_eq_ok {input : TurnInput} {outcome : SearchOutcome K}
    (h : searchTurn L addrData wallet s input = .ok outcome) :
    ∃ searched, searchBatch L addrData wallet s = .ok searched ∧
      ((searched.found = true ∧ outcome =
          .verified (s.after searched) (verifiedPath s.label searched.index)) ∨
        (searched.found = false ∧ (outcome = .notVerified ∨ ∃ s', outcome = .searching s' ∧
          Continues L addrData wallet (s.after searched) s'))) := by
  obtain ⟨_, -, h⟩ := bind_eq_ok.1 h
  obtain ⟨searched, hsearched, h⟩ := bind_eq_ok.1 h
  refine ⟨searched, hsearched, ?_⟩
  dsimp only at h
  cases hfound : searched.found with
  | true =>
      rw [hfound, if_pos rfl] at h
      obtain ⟨_, -, h⟩ := bind_eq_ok.1 h
      exact .inl ⟨rfl, (pure_eq_ok.1 h).symm⟩
  | false =>
      rw [hfound, if_neg Bool.false_ne_true] at h
      refine .inr ⟨rfl, ?_⟩
      split at h
      · split at h
        · exact .inr ⟨_, (pure_eq_ok.1 h).symm, .goOn _⟩
        · exact .inl (pure_eq_ok.1 h).symm
      · exact handleSearchEvent_eq_ok h

/-! ### Whole searches -/

/-- The search gets to a state. -/
def Reaches (L : SearchLib K D) (addrData : AddressData) (wallet : SearchWallet)
    (s₀ s : SearchState K) : Prop :=
  ∃ inputs, searchTurns L addrData wallet s₀ inputs = .ok (.searching s)

/-- An address is reported on a path, from a state. -/
def Reports (L : SearchLib K D) (addrData : AddressData) (wallet : SearchWallet)
    (s₀ s : SearchState K) (pathstr : Bytes) : Prop :=
  ∃ inputs, searchTurns L addrData wallet s₀ inputs = .ok (.verified s pathstr)

variable {s₀ : SearchState K}

/-- What holds at the start and after every turn holds of all states of a search. -/
theorem reaches_induction {I : SearchState K → Prop}
    (hstep : ∀ s input s', Reaches L addrData wallet s₀ s → I s →
      searchTurn L addrData wallet s input = .ok (.searching s') → I s')
    (hstart : I s₀) (h : Reaches L addrData wallet s₀ s) : I s := by
  obtain ⟨inputs, h⟩ := h
  -- the induction is on the turns that are left
  have hrun : ∀ (inputs : List TurnInput) (t : SearchState K), I t →
      (∀ rest s', searchTurns L addrData wallet t rest = .ok (.searching s') →
        Reaches L addrData wallet s₀ s') →
      searchTurns L addrData wallet t inputs = .ok (.searching s) → I s := by
    intro inputs
    induction inputs with
    | nil =>
        intro t ht _ hend
        obtain rfl : t = s := SearchOutcome.searching.inj (Except.ok.inj hend)
        exact ht
    | cons input inputs ih =>
        intro t ht hreaches hend
        obtain ⟨outcome, hturn, hend⟩ := bind_eq_ok.1 hend
        cases outcome with
        | searching t' =>
            refine ih t' (hstep t input t' (hreaches [] t rfl) ht hturn) ?_ hend
            intro rest s' hrest
            refine hreaches (input :: rest) s' ?_
            rw [searchTurns, hturn, ok_bind]
            exact hrest
        | verified s' pathstr => cases pure_eq_ok.1 hend
        | notVerified => cases pure_eq_ok.1 hend
  exact hrun inputs s₀ hstart (fun rest s' hrest => ⟨rest, hrest⟩) h

/-- An address is reported in a turn of a state of the search. -/
theorem reports_turn {pathstr : Bytes} (h : Reports L addrData wallet s₀ s pathstr) :
    ∃ t input, Reaches L addrData wallet s₀ t ∧
      searchTurn L addrData wallet t input = .ok (.verified s pathstr) := by
  obtain ⟨inputs, h⟩ := h
  induction inputs generalizing s₀ with
  | nil => cases h
  | cons input inputs ih =>
      obtain ⟨outcome, hturn, hend⟩ := bind_eq_ok.1 h
      cases outcome with
      | searching t' =>
          obtain ⟨t, input', ⟨rest, hrest⟩, hreport⟩ := ih hend
          refine ⟨t, input', ⟨input :: rest, ?_⟩, hreport⟩
          rw [searchTurns, hturn, ok_bind]
          exact hrest
      | verified s' pathstr' =>
          rw [pure_eq_ok.1 hend] at hturn
          exact ⟨s₀, input, ⟨[], rfl⟩, hturn⟩
      | notVerified => cases pure_eq_ok.1 hend

/-- The search roots and the label stay those of the options. -/
theorem Rooted.continues (hrooted : Rooted L addrData.network wallet s) {s' : SearchState K}
    (h : Continues L addrData wallet s s') : Rooted L addrData.network wallet s' := by
  cases h with
  | goOn confirmedAtIndex => exact ⟨hrooted.roots, hrooted.label⟩
  | skip index => exact ⟨hrooted.roots, hrooted.label⟩
  | restart accountIndex isChange searchRoots label hroots =>
      obtain ⟨hroots, hlabel⟩ := getSearchRoots_spec hrooted.label.hasStem hroots
      exact ⟨hroots, hlabel⟩

theorem Rooted.after (hrooted : Rooted L addrData.network wallet s) (searched : Searched) :
    Rooted L addrData.network wallet (s.after searched) :=
  ⟨hrooted.roots, hrooted.label⟩

theorem Rooted.reaches (hrooted : Rooted L addrData.network wallet s₀)
    (h : Reaches L addrData wallet s₀ s) : Rooted L addrData.network wallet s := by
  refine reaches_induction (fun t input s' _ ht hturn => ?_) hrooted h
  obtain ⟨searched, -, ⟨-, hverified⟩ | ⟨-, hnot | ⟨s'', hsearching, hcontinues⟩⟩⟩ :=
    searchTurn_eq_ok hturn
  · cases hverified
  · cases hnot
  · obtain rfl := SearchOutcome.searching.inj hsearching
    exact (ht.after searched).continues hcontinues

/-- **A path that is reported has the script of the address**: its label is that of the account and
the branch, and the script there is the one that was scanned. -/
def ReportsTruly (L : SearchLib K D) (addrData : AddressData) (wallet : SearchWallet)
    (s₀ : SearchState K) : Prop :=
  ∀ s pathstr, Reports L addrData wallet s₀ s pathstr →
    pathstr = verifiedPath s.label s.index ∧
      wallet.IsLabel addrData.network s.accountIndex s.isChange s.label ∧
        wallet.scriptAt L addrData.network s.accountIndex s.isChange s.index =
          .ok (some addrData.script)

/-- **The indexes are tried in order, each of them once, and the search does not stall.** -/
structure SearchesInOrder (L : SearchLib K D) (addrData : AddressData) (wallet : SearchWallet)
    (s₀ : SearchState K) : Prop where
  tried : ∀ s, Reaches L addrData wallet s₀ s → s.skipped = false →
    s.tried = List.range s.index.toNat
  found : ∀ s pathstr, Reports L addrData wallet s₀ s pathstr → s.skipped = false →
    s.tried = List.range (s.index.toNat + 1)
  advances : ∀ s, Reaches L addrData wallet s₀ s → Advances L addrData wallet s

theorem reportsTruly (hL : L.Lawful) (hfits : wallet.Fits addrData.script)
    (hrooted : Rooted L addrData.network wallet s₀) : ReportsTruly L addrData wallet s₀ := by
  intro s pathstr h
  obtain ⟨t, input, hreaches, hturn⟩ := reports_turn h
  have ht := hrooted.reaches hreaches
  obtain ⟨searched, hsearched, ⟨hfound, hverified⟩ | ⟨-, hnot | ⟨s', hsearching, -⟩⟩⟩ :=
    searchTurn_eq_ok hturn
  · obtain ⟨rfl, rfl⟩ := SearchOutcome.verified.inj hverified
    exact ⟨rfl, ht.label, (searchBatch_found hL hfits ht hsearched hfound).1⟩
  · cases hnot
  · cases hsearching

/-- The indexes in front of one, and those of a batch behind it. -/
theorem range_append_range' {m n : ℕ} (h : m ≤ n) :
    List.range m ++ List.range' m (n - m) = List.range n := by
  have happend := List.range'_append_1 (s := 0) (m := m) (n := n - m)
  rw [Nat.zero_add] at happend
  rw [List.range_eq_range', List.range_eq_range', happend]
  congr 1
  omega

/-- A search whose batches all move the index tries the indexes in order. -/
theorem searchesInOrder (hL : L.Lawful) (hfits : wallet.Fits addrData.script)
    (hrooted : Rooted L addrData.network wallet s₀) (htried : s₀.tried = [])
    (hindex : s₀.index = 0)
    (hadvances : ∀ s, Reaches L addrData wallet s₀ s → Advances L addrData wallet s) :
    SearchesInOrder L addrData wallet s₀ := by
  have horder : ∀ s, Reaches L addrData wallet s₀ s → s.skipped = false →
      s.tried = List.range s.index.toNat := by
    intro s h
    refine reaches_induction (I := fun s => s.skipped = false → s.tried = List.range s.index.toNat)
      (fun t input s' hreaches ht hturn => ?_) (fun _ => ?_) h
    · obtain ⟨searched, hsearched, ⟨-, hverified⟩ | ⟨hfound, hnot | ⟨s'', hsearching, hcontinues⟩⟩⟩ :=
        searchTurn_eq_ok hturn
      · cases hverified
      · cases hnot
      · obtain rfl := SearchOutcome.searching.inj hsearching
        have hend := hadvances t hreaches searched hsearched hfound
        cases hcontinues with
        | goOn confirmedAtIndex =>
            intro hskipped
            have hbatch := searchBatch_tried hL hfits (hrooted.reaches hreaches) hsearched hend
            change t.tried ++ searched.tried = List.range searched.index.toNat
            rw [ht hskipped, hbatch]
            exact range_append_range' (by omega)
        | skip index =>
            intro hskipped
            cases hskipped
        | restart accountIndex isChange searchRoots label hroots =>
            intro _
            rfl
    · rw [htried, hindex]
      rfl
  refine ⟨horder, ?_, hadvances⟩
  intro s pathstr h hskipped
  obtain ⟨t, input, hreaches, hturn⟩ := reports_turn h
  obtain ⟨searched, hsearched, ⟨hfound, hverified⟩ | ⟨-, hnot | ⟨s', hsearching, -⟩⟩⟩ :=
    searchTurn_eq_ok hturn
  · obtain ⟨rfl, rfl⟩ := SearchOutcome.verified.inj hverified
    obtain ⟨-, hle, hbatch⟩ :=
      searchBatch_found hL hfits (hrooted.reaches hreaches) hsearched hfound
    change t.tried ++ searched.tried = List.range (searched.index.toNat + 1)
    rw [horder t hreaches hskipped, hbatch, ← Nat.sub_add_comm hle]
    exact range_append_range' (Nat.le_succ_of_le hle)
  · cases hnot
  · cases hsearching

/-! ### The start of a search -/

theorem valid_of_mem_validRecordNames {isValid : Bytes → Except Fault Bool} {names valid : List Bytes}
    (h : validRecordNames isValid names = .ok valid) {name : Bytes} (hname : name ∈ valid) :
    isValid name = .ok true := by
  induction names generalizing valid with
  | nil =>
      rw [← Except.ok.inj h] at hname
      cases hname
  | cons first names ih =>
      obtain ⟨isFirst, hfirst, h⟩ := bind_eq_ok.1 h
      obtain ⟨rest, hrest, h⟩ := bind_eq_ok.1 h
      rw [← pure_eq_ok.1 h] at hname
      cases isFirst with
      | false => exact ih hrest hname
      | true =>
          rcases List.mem_cons.1 hname with rfl | hname
          · exact hfirst
          · exact ih hrest hname

/-- A variant that matches the type of a script has scripts of that length. -/
theorem fits_of_variantMatches (hL : L.Lawful) {script name : Bytes} {scriptType : ScriptType}
    {data : MultisigRecord} (htype : L.wallet.scriptType script = some scriptType)
    (h : variantMatchesScriptType data.variant scriptType = true) :
    SearchWallet.Fits script (.multisig name data) := by
  cases scriptType with
  | p2wsh =>
      have hvariant : data.variant = scriptVariantByte .multiP2wsh := eq_of_beq h
      exact ⟨.multiP2wsh, by rw [hvariant]; decide, rfl, hL.length_of_type htype rfl⟩
  | p2sh =>
      rcases Bool.or_eq_true_iff.1 h with h | h
      · have hvariant : data.variant = scriptVariantByte .multiP2sh := eq_of_beq h
        exact ⟨.multiP2sh, by rw [hvariant]; decide, rfl, hL.length_of_type htype rfl⟩
      · have hvariant : data.variant = scriptVariantByte .multiP2wshP2sh := eq_of_beq h
        exact ⟨.multiP2wshP2sh, by rw [hvariant]; decide, rfl, hL.length_of_type htype rfl⟩
  | _ => cases h

theorem fits_of_singlesigVariant (hL : L.Lawful) {script : Bytes} {scriptType : ScriptType}
    {variant : ScriptVariant} (htype : L.wallet.scriptType script = some scriptType)
    (h : getSinglesigVariantFromScriptType scriptType = some variant) :
    SearchWallet.Fits script (.singlesig variant) := by
  cases scriptType with
  | p2pkh => cases h; exact ⟨rfl, hL.length_of_type htype rfl⟩
  | p2sh => cases h; exact ⟨rfl, hL.length_of_type htype rfl⟩
  | p2wpkh => cases h; exact ⟨rfl, hL.length_of_type htype rfl⟩
  | p2tr => cases h; exact ⟨rfl, hL.length_of_type htype rfl⟩
  | _ => cases h

theorem fits_descriptor (hL : L.Lawful) {script name : Bytes} {scriptType : ScriptType}
    {record : DescriptorRecord} (htype : L.wallet.scriptType script = some scriptType)
    (hne : script ≠ []) (h : scriptType = .p2wsh ∨ scriptType = .p2sh) :
    SearchWallet.Fits script (.descriptor name record) := by
  rcases h with rfl | rfl
  · exact ⟨hne, Nat.le_of_eq (hL.length_of_type htype rfl)⟩
  · refine ⟨hne, ?_⟩
    rw [hL.length_of_type htype rfl]
    decide

theorem multisig_of_selected {multisigNames descriptorNames : List Bytes} {selected : ℕ}
    {name : Bytes}
    (h : selectRegisteredWallet multisigNames descriptorNames selected = some (true, name)) :
    name ∈ multisigNames := by
  rw [selectRegisteredWallet] at h
  split at h
  · obtain ⟨found, hfound, hname⟩ := Option.map_eq_some_iff.1 h
    rw [← (Prod.mk.inj hname).2]
    exact List.mem_of_getElem? hfound
  · obtain ⟨found, -, hname⟩ := Option.map_eq_some_iff.1 h
    cases (Prod.mk.inj hname).1

/-- A wallet that was loaded has scripts of the length of the address, and the label is made from its
name. -/
theorem loadRegisteredWallet_spec (hL : L.Lawful) {script label : Bytes} {scriptType : ScriptType}
    {selected : ℕ} (htype : L.wallet.scriptType script = some scriptType) (hne : script ≠ [])
    (hkind : scriptType = .p2wsh ∨ scriptType = .p2sh)
    (h : loadRegisteredWallet L scriptType selected = .ok (some (wallet, label))) :
    wallet.Fits script ∧ wallet.HasStem label := by
  obtain ⟨multisigNames, hmultisigs, h⟩ := bind_eq_ok.1 h
  obtain ⟨descriptorNames, -, h⟩ := bind_eq_ok.1 h
  cases hselect : selectRegisteredWallet multisigNames descriptorNames selected with
  | none =>
      rw [hselect] at h
      cases pure_eq_ok.1 h
  | some choice =>
      obtain ⟨isMultisig, name⟩ := choice
      rw [hselect] at h
      obtain ⟨_, -, h⟩ := bind_eq_ok.1 h
      obtain ⟨loadedWallet, hload, h⟩ := bind_eq_ok.1 h
      obtain ⟨loadedWallet, rfl, hpair⟩ := Option.map_eq_some_iff.1 (pure_eq_ok.1 h)
      obtain ⟨rfl, rfl⟩ := Prod.mk.inj hpair
      have hstem : (name ++ ascii "/0").dropLast = name ++ ascii "/" := by
        rw [show ascii "/0" = ascii "/" ++ [0x30] from rfl, ← List.append_assoc]
        exact List.dropLast_concat
      cases isMultisig with
      | true =>
          rw [loadSelectedWallet, if_pos rfl] at hload
          obtain ⟨loaded, hloaded, hload⟩ := bind_eq_ok.1 hload
          have hresult := pure_eq_ok.1 hload
          split at hresult
          · obtain ⟨output, houtput, rfl⟩ := Option.map_eq_some_iff.1 hresult
            refine ⟨fits_of_variantMatches hL htype ?_, hstem⟩
            have hvalid := valid_of_mem_validRecordNames hmultisigs (multisig_of_selected hselect)
            obtain ⟨loaded', hloaded', hvalid⟩ := bind_eq_ok.1 hvalid
            obtain rfl := Except.ok.inj (hloaded.symm.trans hloaded')
            have hmatch := (Bool.and_eq_true_iff.1 (pure_eq_ok.1 hvalid)).2
            rw [houtput] at hmatch
            exact hmatch
          · cases hresult
      | false =>
          rw [loadSelectedWallet, if_neg Bool.false_ne_true] at hload
          obtain ⟨loaded, -, hload⟩ := bind_eq_ok.1 hload
          have hresult := pure_eq_ok.1 hload
          split at hresult
          · obtain ⟨output, -, rfl⟩ := Option.map_eq_some_iff.1 hresult
            exact ⟨fits_descriptor hL htype hne hkind, hstem⟩
          · cases hresult

/-- How a search begins. -/
theorem beginSearch_spec {accountIndex : UInt16} {label : Bytes} (hstem : wallet.HasStem label)
    (h : beginSearch L addrData wallet accountIndex label = .ok s₀) :
    Rooted L addrData.network wallet s₀ ∧ s₀.tried = [] ∧ s₀.index = 0 := by
  obtain ⟨⟨searchRoots, label'⟩, hroots, h⟩ := bind_eq_ok.1 h
  obtain ⟨hroots, hlabel⟩ := getSearchRoots_spec hstem hroots
  rw [← pure_eq_ok.1 h]
  exact ⟨⟨hroots, hlabel⟩, rfl, rfl⟩

theorem startSearch_spec (hL : L.Lawful) {isNetworkConsistent : Bool} {qrFlags : UInt32}
    {input : StartInput}
    (h : startSearch L addrData isNetworkConsistent qrFlags input = .ok (some (wallet, s₀))) :
    wallet.Fits addrData.script ∧ Rooted L addrData.network wallet s₀ ∧ s₀.tried = [] ∧
      s₀.index = 0 := by
  obtain ⟨_, hne, h⟩ := bind_eq_ok.1 h
  have hne : addrData.script ≠ [] := by simpa using jadeVerify_eq_ok.1 hne
  split at h
  · cases pure_eq_ok.1 h
  · cases htype : L.wallet.scriptType addrData.script with
    | none =>
        rw [htype] at h
        cases pure_eq_ok.1 h
    | some scriptType =>
        rw [htype] at h
        dsimp only at h
        split at h
        · case isTrue hregistered =>
            obtain ⟨loaded, hloaded, h⟩ := bind_eq_ok.1 h
            cases loaded with
            | none => cases pure_eq_ok.1 h
            | some loaded =>
                obtain ⟨loadedWallet, label⟩ := loaded
                obtain ⟨t, hbegin, h⟩ := bind_eq_ok.1 h
                obtain ⟨rfl, rfl⟩ := Prod.mk.inj (Option.some.inj (pure_eq_ok.1 h))
                obtain ⟨hfits, hstem⟩ := loadRegisteredWallet_spec hL htype hne
                  (hregistered.imp_right And.left) hloaded
                exact ⟨hfits, beginSearch_spec hstem hbegin⟩
        · split at h
          · cases pure_eq_ok.1 h
          · cases pure_eq_ok.1 h
          · case h_3 variant _ hvariant =>
              obtain ⟨t, hbegin, h⟩ := bind_eq_ok.1 h
              obtain ⟨rfl, rfl⟩ := Prod.mk.inj (Option.some.inj (pure_eq_ok.1 h))
              exact ⟨fits_of_singlesigVariant hL htype hvariant, beginSearch_spec trivial hbegin⟩

end Model

/-! ### A device with a descriptor -/

/-- A key is marked when it is public, and then has no hardened children. -/
def searchWallet : Wallet (Bool × List UInt32) := { greenWallet with
  pubKey := fun key => 2 :: (List.replicate 28 0 ++ Bytes.ofNatBE 4 (key.2.getLastD 0).toNat)
  bip32PublicKeyFromParentPath := fun key path =>
    if key.1 && path.any isHardened then none else some (true, key.2 ++ path)
  scriptpubkeyGetType := fun script _ => some (
    if script.length = 22 then .p2wpkh
    else if script.length = 23 then .p2sh
    else if script.length = 34 then .p2wsh
    else .other) }

/-- A descriptor is the length of its scripts. -/
def searchLib : SearchLib (Bool × List UInt32) ℕ where
  key := singleMasterKey
  wallet := searchWallet
  bip32KeySerialize _ := none
  base58ToBytes := singleMultisigLib.base58ToBytes
  base58FromBytes := singleMultisigLib.base58FromBytes
  base58FromBytes_toBytes := singleMultisigLib.base58FromBytes_toBytes
  chainCode _ := []
  bip32PathStrIsHardened _ := some false
  multisigs _ := none
  descriptors name :=
    if name = ascii "main" then some (descriptorBody singleDescriptor ++ singleDescriptorHmac) else none
  multisigNames := []
  descriptorNames := [ascii "main"]
  descriptorParse _ _ _ _ := some WALLY_SCRIPTPUBKEY_P2SH_LEN
  descriptorDepth _ := 2
  descriptorNumVariants _ := 1
  descriptorNumPaths _ := 2
  descriptorIsPrivate _ := false
  descriptorIsRanged _ := true
  descriptorMaximumLength d _ _ := some d
  descriptorToScript d _ index := some (Bytes.ofNatBE d index.toNat)

theorem searchLib_lawful : searchLib.Lawful where
  derive_append := by
    intro key root leaf path index hne hroot hleaf
    simp only [searchLib, searchWallet, Option.ite_none_left_eq_some] at hroot hleaf ⊢
    obtain ⟨hpath, hroot⟩ := hroot
    obtain rfl := Option.some.inj hroot
    obtain ⟨hindex, hleaf⟩ := hleaf
    obtain rfl := Option.some.inj hleaf
    refine ⟨(true, key.2 ++ path ++ [index]), ⟨?_, by rw [List.append_assoc]⟩, rfl⟩
    simp_all
  derive_hardened := by
    intro key root path index hne hroot hindex
    simp only [searchLib, searchWallet, Option.ite_none_left_eq_some] at hroot ⊢
    obtain ⟨-, hroot⟩ := hroot
    obtain rfl := Option.some.inj hroot
    simp [hindex]
  length_pubKey := by
    intro key
    simp [searchLib, searchWallet, Bytes.length_ofNatBE, EC_PUBLIC_KEY_LEN]
  length_of_type := by
    intro script type n htype hlen
    rw [← Option.some.inj htype] at hlen
    split at hlen
    · case isTrue hscript => exact hscript.trans (Option.some.inj hlen)
    · split at hlen
      · case isTrue hscript => exact hscript.trans (Option.some.inj hlen)
      · split at hlen
        · case isTrue hscript => exact hscript.trans (Option.some.inj hlen)
        · cases hlen
  maximum_length := by
    intro d branch index script h
    obtain rfl := Option.some.inj h
    exact ⟨d, rfl, Nat.le_of_eq (Bytes.length_ofNatBE _ _)⟩

/-- The script of a P2WSH address. -/
def scannedScript : Bytes := 0 :: 32 :: List.replicate 32 7

section Model

variable {K D : Type} {L : SearchLib K D} {network : Network} {wallet : SearchWallet}
  {s s₀ : SearchState K} {addrData : AddressData}

/-! ### The result -/

/-- **Exactly when a search tries the indexes in order and does not stall.**  What is reported always
has the script of the address; the search does what it is to do exactly if every batch that begins
gets to its end. -/
theorem address_search_iff (hL : L.Lawful) {isNetworkConsistent : Bool} {qrFlags : UInt32}
    {input : StartInput}
    (h : startSearch L addrData isNetworkConsistent qrFlags input = .ok (some (wallet, s₀))) :
    ReportsTruly L addrData wallet s₀ ∧
      (SearchesInOrder L addrData wallet s₀ ↔
        ∀ s, Reaches L addrData wallet s₀ s → BatchBuilds L addrData wallet s) := by
  obtain ⟨hfits, hrooted, htried, hindex⟩ := startSearch_spec hL h
  refine ⟨reportsTruly hL hfits hrooted, ?_⟩
  constructor
  · intro horder s hreaches
    exact (batchBuilds_iff_advances hL hfits (hrooted.reaches hreaches)).2
      (horder.advances s hreaches)
  · intro hbuilds
    refine searchesInOrder hL hfits hrooted htried hindex fun s hreaches => ?_
    exact (batchBuilds_iff_advances hL hfits (hrooted.reaches hreaches)).1 (hbuilds s hreaches)

end Model

/-- The fourth address of a single key is scanned. -/
def keyAddress : AddressData := ⟨.bitcoin, 0 :: 20 :: 3 :: List.replicate 19 0⟩

def keySearchStart : SearchState (Bool × List UInt32) where
  accountIndex := 0
  isChange := false
  label := ascii "m/84'/0'/0'/0"
  searchRoots := [(true, [harden 84, harden 0, harden 0, 0])]
  index := 0
  confirmedAtIndex := 0
  tried := []
  skipped := false

theorem address_search_iff_key :
    ReportsTruly searchLib keyAddress (.singlesig .p2wpkh) keySearchStart ∧
      (SearchesInOrder searchLib keyAddress (.singlesig .p2wpkh) keySearchStart ↔
        ∀ s, Reaches searchLib keyAddress (.singlesig .p2wpkh) keySearchStart s →
          BatchBuilds searchLib keyAddress (.singlesig .p2wpkh) s) := by
  have hlabel : walletBip32PathAsStr [harden 84, harden 0, harden 0, 0] SEARCH_LABEL_LEN false =
      some "m/84'/0'/0'/0" := by decide +kernel
  have hroots : getSearchRoots searchLib .bitcoin (.singlesig .p2wpkh) 0 false [] =
      .ok ([(true, [harden 84, harden 0, harden 0, 0])], ascii "m/84'/0'/0'/0") := by
    change (wallyVerify (walletBip32PathAsStr [harden 84, harden 0, harden 0, 0] SEARCH_LABEL_LEN
      false) >>= fun pathstr => pure ([(true, [harden 84, harden 0, harden 0, 0])], ascii pathstr)) = _
    rw [hlabel]
    rfl
  have hbegin : beginSearch searchLib keyAddress (.singlesig .p2wpkh) 0 [] = .ok keySearchStart := by
    rw [beginSearch, show keyAddress.network = .bitcoin from rfl, hroots]
    rfl
  have hstart : startSearch searchLib keyAddress true 0 ⟨true, false, 0⟩ =
      .ok (some (.singlesig .p2wpkh, keySearchStart)) := by
    change (beginSearch searchLib keyAddress (.singlesig .p2wpkh) 0 [] >>= fun s =>
      pure (some (SearchWallet.singlesig .p2wpkh, s))) = _
    rw [hbegin]
    rfl
  exact address_search_iff searchLib_lawful hstart

/-- The address is looked for in a descriptor whose scripts are shorter. -/
def scannedAddress : AddressData := ⟨.bitcoin, scannedScript⟩

def shortSearchStart : SearchState (Bool × List UInt32) where
  accountIndex := 0
  isChange := false
  label := ascii "main/0"
  searchRoots := []
  index := 0
  confirmedAtIndex := 0
  tried := []
  skipped := false

/-- **A P2WSH address is looked for in a descriptor for P2SH scripts.**  Every batch ends at once: the
index stays zero however long the search goes on, and the user is never asked whether to go on. -/
theorem address_search_stalls :
    startSearch searchLib scannedAddress true 0 ⟨true, true, 0⟩ =
        .ok (some (.descriptor (ascii "main") singleDescriptor, shortSearchStart)) ∧
      (∀ n, searchTurns searchLib scannedAddress (.descriptor (ascii "main") singleDescriptor)
        shortSearchStart (List.replicate n ⟨false, none⟩) = .ok (.searching shortSearchStart)) ∧
      ¬SearchesInOrder searchLib scannedAddress (.descriptor (ascii "main") singleDescriptor)
        shortSearchStart := by
  have hbatch : searchBatch searchLib scannedAddress
      (.descriptor (ascii "main") singleDescriptor) shortSearchStart = .ok (.nothing 0) := rfl
  have hturn : searchTurn searchLib scannedAddress (.descriptor (ascii "main") singleDescriptor)
      shortSearchStart ⟨false, none⟩ = .ok (.searching shortSearchStart) := rfl
  refine ⟨rfl, fun n => ?_, fun horder => ?_⟩
  · induction n with
    | zero => rfl
    | succ n ih =>
        rw [List.replicate_succ, searchTurns, hturn, ok_bind]
        exact ih
  · have hindex := horder.advances shortSearchStart ⟨[], rfl⟩ _ hbatch rfl
    exact absurd hindex (by decide)

end Jade
