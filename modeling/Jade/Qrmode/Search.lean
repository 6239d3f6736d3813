/-
**Searching a wallet for a script (`wallet.c`, `descriptor.c`).**

Each of the three kinds of wallets has a function that tries a batch of indexes for the one whose
script is looked for, and moves the index as it goes.  They look alike, and differ in what ends them
early: a script of another length, and for a descriptor whatever keeps it from giving a script.

Main definitions:

* `Jade.SearchLib`, `Jade.parseDescriptor` — the libraries below, and descriptors;
* `Jade.walletSearchForSinglesigScript`, `Jade.walletSearchForMultisigScript`,
  `Jade.walletSearchForDescriptorScript` — the three searches;
* `Jade.descriptorScriptAt` — the script a descriptor gives, if any.

Main results:

* `Jade.searchFrom_found`, `Jade.searchFrom_tried` — what a batch finds, and what it tries;
* `Jade.searchFrom_advances_iff` — exactly when it gets to its end.
-/

import Jade.Lib.BatchSearch
import Jade.SignTx.Scripts

set_option relaxedAutoImplicit false
set_option autoImplicit false

namespace Jade

open Exec

def MAX_DESCRIPTOR_ALLOWED_DEPTH : ℕ := 12

/-- The libraries below, the registered wallets, and what `libwally` is called for on descriptors, the
type of which is `D`. -/
structure SearchLib (K D : Type) extends SignerLib K where
  multisigs : Registrations
  descriptors : Registrations
  multisigNames : List Bytes
  descriptorNames : List Bytes
  /-- `wally_descriptor_parse`, with the values and without any expressions but miniscript -/
  descriptorParse : Bytes → List StringValue → Network → Bool → Option D
  /-- `wally_descriptor_get_depth`, `wally_descriptor_get_num_variants`,
  `wally_descriptor_get_num_paths` -/
  descriptorDepth : D → ℕ
  descriptorNumVariants : D → ℕ
  descriptorNumPaths : D → ℕ
  /-- the bits `WALLY_MS_IS_PRIVATE` and `WALLY_MS_IS_RANGED` of `wally_descriptor_get_features` -/
  descriptorIsPrivate : D → Bool
  descriptorIsRanged : D → Bool
  /-- `wally_descriptor_to_script_get_maximum_length` and `wally_descriptor_to_script`, for a branch
  and an index -/
  descriptorMaximumLength : D → UInt32 → UInt32 → Option ℕ
  descriptorToScript : D → UInt32 → UInt32 → Option Bytes

/-- What a batch has come to. -/
structure Searched where
  found : Bool
  index : UInt32
  /-- the indexes that were tried -/
  tried : List ℕ
  deriving DecidableEq, Repr

/-- A search that does not begin. -/
def Searched.nothing (index : UInt32) : Searched := ⟨false, index, []⟩

/-- The loop that the searches share: `for (end = index + depth; index < end; ++index)`. -/
def searchFrom (build : UInt32 → Except Fault (Option Bytes)) (script : Bytes) (index : UInt32)
    (depth : UInt32) : Except Fault Searched := do
  let turns := (index + depth).toNat - index.toNat
  let r ← BatchSearch.scan (fun i => build (UInt32.ofNat i)) script turns index.toNat
  return ⟨r.found, UInt32.ofNat r.index, r.tried⟩

/-! ### The loop -/

section Loop

variable {build : UInt32 → Except Fault (Option Bytes)} {script : Bytes} {index depth : UInt32}
  {s : Searched}

/-- The number of turns: none at all when the end of the batch wraps around. -/
theorem turns_eq : (index + depth).toNat - index.toNat =
    if index.toNat + depth.toNat < 2 ^ 32 then depth.toNat else 0 := by
  have hindex := index.toNat_lt
  have hdepth := depth.toNat_lt
  rw [UInt32.toNat_add]
  split <;> omega

/-- A batch of the loop is one of the library, and does not leave the range of an index. -/
theorem searchFrom_eq_ok (h : searchFrom build script index depth = .ok s) :
    ∃ turns r, BatchSearch.scan (fun i => build (UInt32.ofNat i)) script turns index.toNat = .ok r ∧
      turns = (index + depth).toNat - index.toNat ∧ s.found = r.found ∧ s.tried = r.tried ∧
        s.index.toNat = r.index := by
  obtain ⟨r, hr, h⟩ := bind_eq_ok.1 h
  obtain rfl := pure_eq_ok.1 h
  have hend := (BatchSearch.scan_tried hr).2.1
  have hlt := (index + depth).toNat_lt
  have hindex := index.toNat_lt
  refine ⟨_, r, hr, rfl, rfl, rfl, ?_⟩
  exact UInt32.toNat_ofNat_of_lt' (by change r.index < 2 ^ 32; omega)

/-- A batch whose end wraps around has no turn. -/
theorem searchFrom_wraps (h : ¬index.toNat + depth.toNat < 2 ^ 32) :
    searchFrom build script index depth = .ok (.nothing index) := by
  unfold searchFrom
  rw [turns_eq, if_neg h]
  exact congrArg Except.ok (congrArg (fun i => (⟨false, i, []⟩ : Searched)) UInt32.ofNat_toNat)

/-- What a batch finds is built at the index it has stopped at. -/
theorem searchFrom_found (h : searchFrom build script index depth = .ok s)
    (hfound : s.found = true) :
    build s.index = .ok (some script) ∧ index.toNat ≤ s.index.toNat ∧
      s.tried = List.range' index.toNat (s.index.toNat - index.toNat + 1) := by
  obtain ⟨turns, r, hr, -, hf, ht, hi⟩ := searchFrom_eq_ok h
  rw [hf] at hfound
  obtain ⟨hbuild, hle, -⟩ := BatchSearch.scan_found hr hfound
  refine ⟨?_, hi ▸ hle, ?_⟩
  · rwa [← hi, UInt32.ofNat_toNat] at hbuild
  · rw [ht, hi]
    exact BatchSearch.scan_tried_found hr hfound

/-- A batch that gets to its end has tried the indexes in between, in order. -/
theorem searchFrom_tried (h : searchFrom build script index depth = .ok s)
    (hend : s.index.toNat = index.toNat + depth.toNat) :
    s.tried = List.range' index.toNat depth.toNat := by
  obtain ⟨turns, r, hr, hturns, -, ht, hi⟩ := searchFrom_eq_ok h
  obtain ⟨-, hle, htried | ⟨hlt, -⟩⟩ := BatchSearch.scan_tried hr
  · rw [ht, htried, ← hi, hend, Nat.add_sub_cancel_left]
  · rw [turns_eq] at hturns
    split at hturns <;> omega

/-- **Exactly when a batch that finds nothing moves the index by its size.** -/
theorem searchFrom_advances_iff (h : searchFrom build script index depth = .ok s)
    (hdepth : depth ≠ 0) :
    (index.toNat + depth.toNat < 2 ^ 32 ∧
        BatchSearch.Builds (fun i => build (UInt32.ofNat i)) script depth.toNat index.toNat) ↔
      (s.found = false → s.index.toNat = index.toNat + depth.toNat) := by
  obtain ⟨turns, r, hr, hturns, hf, -, hi⟩ := searchFrom_eq_ok h
  have hpos : depth.toNat ≠ 0 := fun hzero => hdepth (UInt32.toNat_inj.1 hzero)
  rw [turns_eq] at hturns
  rw [hf, hi]
  by_cases hfit : index.toNat + depth.toNat < 2 ^ 32
  · rw [if_pos hfit] at hturns
    subst hturns
    rw [← BatchSearch.scan_advances_iff hr]
    exact ⟨fun h => h.2, fun h => ⟨hfit, h⟩⟩
  · -- the batch has no turn, and finds nothing
    rw [if_neg hfit] at hturns
    subst hturns
    obtain rfl := Except.ok.inj hr
    constructor
    · intro hboth
      exact absurd hboth.1 hfit
    · intro hend
      have hindex : index.toNat = index.toNat + depth.toNat := hend rfl
      omega

end Loop

section Model

variable {K D : Type} (L : SearchLib K D)

/-! ### Single keys -/

/-- The script of a leaf below a search root. -/
def singlesigLeaf (network : Network) (variant : ScriptVariant) (searchRoot : K) (index : UInt32) :
    Except Fault (Option Bytes) := do
  let derived ← wallyVerify (L.wallet.bip32PublicKeyFromParentPath searchRoot [index])
  walletBuildSinglesigScript L.wallet network variant (L.wallet.pubKey derived)

/-- `wallet_search_for_singlesig_script` -/
def walletSearchForSinglesigScript (network : Network) (variant : ScriptVariant) (searchRoot : K)
    (index depth : UInt32) (script : Bytes) : Except Fault Searched :=
  if !isSinglesig variant || depth == 0 || script.length != scriptLengthForVariant variant then
    .ok (.nothing index)
  else searchFrom (singlesigLeaf L network variant searchRoot) script index depth

/-! ### Multisigs -/

/-- The script of the leaves below the search roots. -/
def multisigLeaf (variant : ScriptVariant) (sorted : Bool) (threshold : ℕ) (searchRoots : List K)
    (index : UInt32) : Except Fault (Option Bytes) := do
  let pubkeys ← searchRoots.mapM fun root => do
    let derived ← wallyVerify (L.wallet.bip32PublicKeyFromParentPath root [index])
    return L.wallet.pubKey derived
  walletBuildMultisigScript L.wallet variant sorted threshold pubkeys.flatten

/-- `wallet_search_for_multisig_script` -/
def walletSearchForMultisigScript (variant : ScriptVariant) (sorted : Bool) (threshold : ℕ)
    (searchRoots : List K) (index depth : UInt32) (script : Bytes) : Except Fault Searched :=
  if !isMultisig variant || threshold == 0 || searchRoots.isEmpty ||
      decide (MAX_ALLOWED_SIGNERS < searchRoots.length) || depth == 0 ||
      script.length != scriptLengthForVariant variant then
    .ok (.nothing index)
  else searchFrom (multisigLeaf L variant sorted threshold searchRoots) script index depth

/-! ### Descriptors -/

/-- The types that `parse_descriptor` tries: is it miniscript only? -/
def descriptorTrialTypes (type : UInt8) : List Bool :=
  if type = 0 then [false, true] else [type == 1]

/-- `parse_descriptor` -/
def parseDescriptor (descriptor : DescriptorRecord) (network : Network) : Option D :=
  match (descriptorTrialTypes descriptor.type).findSome? fun miniscriptOnly =>
      L.descriptorParse descriptor.script.chars descriptor.values.1 network miniscriptOnly with
  | none => none
  | some d =>
      if MAX_DESCRIPTOR_ALLOWED_DEPTH < L.descriptorDepth d ∨ L.descriptorNumVariants d ≠ 1 ∨
          L.descriptorIsPrivate d = true ∨ L.descriptorIsRanged d = false ∨
          2 < L.descriptorNumPaths d then none
      else some d

/-- The script of a descriptor into a buffer of `maxlen` bytes. -/
def descriptorLeaf (d : D) (multiIndex : UInt32) (maxlen : ℕ) (childNum : UInt32) : Option Bytes :=
  match L.descriptorToScript d multiIndex childNum with
  | none => none
  | some script => if script.isEmpty || decide (maxlen < script.length) then none else some script

/-- `descriptor_search_for_script_impl` -/
def descriptorSearchForScriptImpl (d : D) (multiIndex childNum depth : UInt32) (script : Bytes) :
    Except Fault Searched :=
  match L.descriptorMaximumLength d multiIndex childNum with
  | none => .ok (.nothing childNum)
  | some maxlen =>
      if maxlen = 0 ∨ maxlen < script.length then .ok (.nothing childNum)
      else searchFrom (fun i => .ok (descriptorLeaf L d multiIndex maxlen i)) script childNum depth

/-- `descriptor_search_for_script` -/
def descriptorSearchForScript (descriptor : DescriptorRecord) (network : Network)
    (multiIndex childNum depth : UInt32) (script : Bytes) : Except Fault Searched := do
  jadeVerify (depth != 0)
  jadeVerify (!script.isEmpty)
  match parseDescriptor L descriptor network with
  | none => return .nothing childNum
  | some d => descriptorSearchForScriptImpl L d multiIndex childNum depth script

/-- `wallet_search_for_descriptor_script`; there are never more values than its first check allows. -/
def walletSearchForDescriptorScript (network : Network) (descriptor : DescriptorRecord)
    (multiIndex index depth : UInt32) (script : Bytes) : Except Fault Searched :=
  if depth == 0 then .ok (.nothing index)
  else descriptorSearchForScript L descriptor network multiIndex index depth script

/-- `descriptor_to_script`, for a branch and an index. -/
def descriptorScriptAt (descriptor : DescriptorRecord) (network : Network)
    (multiIndex childNum : UInt32) : Option Bytes :=
  match parseDescriptor L descriptor network with
  | none => none
  | some d =>
      match L.descriptorMaximumLength d multiIndex childNum with
      | none => none
      | some maxlen => if maxlen = 0 then none else descriptorLeaf L d multiIndex maxlen childNum

end Model

end Jade
