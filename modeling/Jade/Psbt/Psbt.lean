/-
**The PSBT the device works on.**

A PSBT is kept here as the parsed structure the signing code reads and writes, field for field:
the global fields, the inputs and outputs with their maps, and the MWEB kernels.  Fields that no
modelled function reads or writes are left out.  A map holds each key once, and carries the proof;
copying a map therefore gives the map back.

Main definitions:

* `Jade.WallyMap` — a map of a PSBT;
* `Jade.Tx` — a transaction;
* `Jade.Psbt`, `Jade.PsbtInput`, `Jade.PsbtOutput`, `Jade.PsbtKernel` — the PSBT;
* `Jade.mwebInHasOutputId`, `Jade.mwebOutIsMweb` — which inputs and outputs belong to the
  extension block.

Main results:

* `Jade.WallyMap.combine_empty` — a copy made by adding every item equals the original.
-/

import Jade.Lib.Bytes
import Jade.Utils.Network
import Mathlib.Data.List.Nodup

set_option relaxedAutoImplicit false
set_option autoImplicit false

namespace Jade

/-! ### Maps -/

/-- A key of a map: a byte string or a number. -/
inductive MapKey
  | bytes (bs : Bytes)
  | int (n : ℕ)
  deriving DecidableEq

/-- `struct wally_map`: its items in order, each key at most once. -/
structure WallyMap where
  items : List (MapKey × Bytes)
  nodup : (items.map Prod.fst).Nodup
  deriving DecidableEq

namespace WallyMap

/-- `wally_map_init` -/
def empty : WallyMap := ⟨[], List.nodup_nil⟩

/-- `wally_map_add`: a key that is present keeps its value. -/
def add (m : WallyMap) (item : MapKey × Bytes) : WallyMap :=
  if h : item.1 ∈ m.items.map Prod.fst then m
  else {
    items := m.items ++ [item]
    nodup := by
      rw [List.map_append, List.map_singleton, ← List.concat_eq_append]
      exact m.nodup.concat h }

/-- `wally_map_combine` -/
def combine (m source : WallyMap) : WallyMap := source.items.foldl add m

/-- `wally_map_find` -/
def find (m : WallyMap) (key : MapKey) : Option Bytes := (m.items.find? (·.1 == key)).map Prod.snd

theorem ext_items {m m' : WallyMap} (h : m.items = m'.items) : m = m' := by
  cases m
  cases m'
  simpa using h

/-- Items with new keys are appended in order. -/
theorem items_foldl_add {items : List (MapKey × Bytes)} {m : WallyMap}
    (h : ((m.items ++ items).map Prod.fst).Nodup) :
    (items.foldl add m).items = m.items ++ items := by
  induction items generalizing m with
  | nil => simp
  | cons item items ih =>
      have hnew : item.1 ∉ m.items.map Prod.fst := by
        intro hmem
        rw [List.map_append, List.nodup_append] at h
        exact h.2.2 _ hmem _ (List.mem_map_of_mem List.mem_cons_self) rfl
      have hadd : (m.add item).items = m.items ++ [item] := by simp only [add, dif_neg hnew]
      rw [List.foldl_cons, ih (by rw [hadd]; simpa using h), hadd, List.append_assoc]
      rfl

/-- **A copy made by adding every item equals the original.** -/
theorem combine_empty (m : WallyMap) : combine empty m = m :=
  ext_items (by rw [combine, items_foldl_add (by simpa [empty] using m.nodup)]; rfl)

end WallyMap

/-- A key origin: the public key, the fingerprint of its master key and the path from there. -/
structure Keypath where
  pubkey : Bytes
  fingerprint : Bytes
  path : List UInt32
  deriving DecidableEq

/-- `struct wally_tx_output`; the last three fields are those of a confidential output. -/
structure TxOutput where
  satoshi : UInt64
  script : Bytes
  asset : Bytes := []
  value : Bytes := []
  nonce : Bytes := []
  deriving DecidableEq

/-- `struct wally_tx_input`, without its witness. -/
structure TxInput where
  txhash : Bytes
  index : UInt32
  sequence : UInt32 := 0xffffffff
  script : Bytes := []
  deriving DecidableEq

/-- `struct wally_tx` -/
structure Tx where
  version : UInt32 := 2
  locktime : UInt32 := 0
  inputs : List TxInput := []
  outputs : List TxOutput := []
  deriving DecidableEq

/-! ### Inputs, outputs and kernels -/

/-- `struct wally_psbt_input` -/
structure PsbtInput where
  /-- the transaction whose output is spent, when the host has sent it -/
  utxo : Option Tx := none
  /-- what `wally_psbt_get_input_best_utxo` returns -/
  bestUtxo : Option TxOutput := none
  keypaths : List Keypath := []
  taprootLeafPaths : List Keypath := []
  taprootLeafScripts : WallyMap := .empty
  sighash : UInt32 := 0
  amount : Option UInt64 := none
  asset : Bytes := []
  signatures : WallyMap := .empty
  psbtFields : WallyMap := .empty
  taprootLeafSignatures : WallyMap := .empty
  mwebKeyset : UInt16 := 0
  mwebInputFeatures : UInt8 := 0
  mwebSpentOutputId : Bytes := []
  mwebSpentOutputCommit : Bytes := []
  mwebSpentOutputPubkey : Bytes := []
  mwebInputPubkey : Bytes := []
  mwebInputSignature : Bytes := []
  mwebAddressIndex : UInt32 := 0
  mwebInputAmount : UInt64 := 0
  mwebKeyExchangePubkey : Bytes := []
  mwebScanKeyOrigin : List Keypath := []
  mwebSpendKeyOrigin : List Keypath := []
  mwebExtraData : Bytes := []
  deriving DecidableEq

/-- `struct wally_psbt_output`.  The first and last half of the stealth address are its scan and
spend public keys; a missing range proof or extra data is the empty string. -/
structure PsbtOutput where
  amount : Option UInt64 := none
  script : Bytes := []
  keypaths : List Keypath := []
  taprootLeafPaths : List Keypath := []
  taprootTree : WallyMap := .empty
  asset : Bytes := []
  assetCommitment : Bytes := []
  valueCommitment : Bytes := []
  blindingPublicKey : Bytes := []
  unknowns : WallyMap := .empty
  mwebOutputKeyset : UInt16 := 0
  mwebStealthAddress : Bytes := []
  mwebCommit : Bytes := []
  mwebFeatures : UInt8 := 0
  mwebSenderPubkey : Bytes := []
  mwebOutputPubkey : Bytes := []
  mwebStandardFields : Bytes := []
  mwebRangeProof : Bytes := []
  mwebSignature : Bytes := []
  mwebExtraData : Bytes := []
  deriving DecidableEq

/-- `struct wally_psbt_kernel`.  A value with a presence flag that the code only reads is an
`Option`; the three fields the signer writes keep flag and bytes apart. -/
structure PsbtKernel where
  features : Option UInt8 := none
  fee : Option UInt64 := none
  peginAmount : Option UInt64 := none
  lockHeight : Option UInt32 := none
  pegouts : WallyMap := .empty
  extraData : Bytes := []
  hasExcessCommitment : Bool := false
  excessCommitment : Bytes := List.replicate 33 0
  hasStealthExcess : Bool := false
  stealthExcess : Bytes := List.replicate 33 0
  hasSignature : Bool := false
  signature : Bytes := List.replicate 64 0
  deriving DecidableEq

/-- `struct wally_psbt` -/
structure Psbt where
  version : UInt32 := 2
  /-- the transaction of a version 0 PSBT -/
  tx : Option Tx := none
  txModifiableFlags : UInt32 := 0
  genesisBlockhash : Option Bytes := none
  inputs : List PsbtInput := []
  outputs : List PsbtOutput := []
  mwebKernels : List PsbtKernel := []
  hasMwebTxOffset : Bool := false
  mwebTxOffset : Bytes := List.replicate 32 0
  hasMwebStealthOffset : Bool := false
  mwebStealthOffset : Bytes := List.replicate 32 0
  deriving DecidableEq

/-! ### The keyset bits of the extension block -/

def MWEB_IN_MIN_KEY : ℕ := 0x90
def MWEB_IN_SPENT_OUTPUT_ID_KEY : ℕ := 0x90
def MWEB_IN_SPENT_OUTPUT_COMMIT_KEY : ℕ := 0x91
def MWEB_IN_SPENT_OUTPUT_PUBKEY : ℕ := 0x92
def MWEB_IN_INPUT_PUBKEY_KEY : ℕ := 0x93
def MWEB_IN_INPUT_FEATURES : ℕ := 0x94
def MWEB_IN_INPUT_SIGNATURE_KEY : ℕ := 0x95
def MWEB_IN_ADDRESS_INDEX : ℕ := 0x96
def MWEB_IN_INPUT_AMOUNT : ℕ := 0x97
def MWEB_IN_SHARED_SECRET_KEY : ℕ := 0x98
def MWEB_IN_KEY_EXCHANGE_PUBKEY_KEY : ℕ := 0x99

def MWEB_OUT_MIN_KEY : ℕ := 0x90
def MWEB_OUT_STEALTH_ADDRESS_KEY : ℕ := 0x90
def MWEB_OUT_COMMIT_KEY : ℕ := 0x91
def MWEB_OUT_FEATURES_KEY : ℕ := 0x92
def MWEB_OUT_SENDER_PUBKEY_KEY : ℕ := 0x93
def MWEB_OUT_OUTPUT_PUBKEY_KEY : ℕ := 0x94
def MWEB_OUT_STANDARD_FIELDS_KEY : ℕ := 0x95
def MWEB_OUT_RANGE_PROOF_KEY : ℕ := 0x96
def MWEB_OUT_SIGNATURE_KEY : ℕ := 0x97
def MWEB_OUT_EXTRA_DATA_KEY : ℕ := 0x98

/-- `MWEB_IN_BIT` -/
def mwebInBit (key : ℕ) : UInt16 := 1 <<< UInt16.ofNat (key - MWEB_IN_MIN_KEY)

/-- `MWEB_OUT_BIT` -/
def mwebOutBit (key : ℕ) : UInt16 := 1 <<< UInt16.ofNat (key - MWEB_OUT_MIN_KEY)

/-- `MWEB_HAS`, and the tests of `mweb_atomic_sign.c` on an input's keyset. -/
def mwebInHas (keyset : UInt16) (key : ℕ) : Bool := keyset &&& mwebInBit key != 0

/-- The tests on an output's keyset. -/
def mwebOutHas (keyset : UInt16) (key : ℕ) : Bool := keyset &&& mwebOutBit key != 0

/-- `MWEB_IN_HAS_OUTPUT_ID` -/
def mwebInHasOutputId (keyset : UInt16) : Bool := mwebInHas keyset MWEB_IN_SPENT_OUTPUT_ID_KEY

/-- `MWEB_OUT_IS_MWEB` -/
def mwebOutIsMweb (keyset : UInt16) : Bool :=
  keyset &&& (mwebOutBit MWEB_OUT_STEALTH_ADDRESS_KEY ||| mwebOutBit MWEB_OUT_COMMIT_KEY) != 0

theorem or_and_distrib (keyset bits mask : UInt16) :
    (keyset ||| bits) &&& mask = (keyset &&& mask) ||| (bits &&& mask) := by
  rw [← UInt16.toBitVec_inj, UInt16.toBitVec_and, UInt16.toBitVec_or, UInt16.toBitVec_or,
    UInt16.toBitVec_and, UInt16.toBitVec_and]
  ext i hi
  simp only [BitVec.getElem_and, BitVec.getElem_or]
  exact Bool.and_or_distrib_right _ _ _

/-- A bit that is set stays set when others are. -/
theorem or_and_ne_zero {keyset mask : UInt16} (bits : UInt16) (h : keyset &&& mask ≠ 0) :
    (keyset ||| bits) &&& mask ≠ 0 := by
  rw [or_and_distrib]
  exact fun hzero => h (UInt16.or_eq_zero_iff.1 hzero).1

/-- Setting other bits does not change a bit. -/
theorem mwebOutHas_or_of_disjoint {keyset bits : UInt16} {key : ℕ}
    (h : bits &&& mwebOutBit key = 0) :
    mwebOutHas (keyset ||| bits) key = mwebOutHas keyset key := by
  rw [mwebOutHas, mwebOutHas, or_and_distrib, h, UInt16.or_zero]

/-- A bit that has been set is set. -/
theorem mwebOutHas_or_of_mem {keyset bits : UInt16} {key : ℕ}
    (h : bits &&& mwebOutBit key ≠ 0) : mwebOutHas (keyset ||| bits) key = true := by
  rw [mwebOutHas, bne_iff_ne, or_and_distrib]
  exact fun hzero => h (UInt16.or_eq_zero_iff.1 hzero).2

theorem mwebInHasOutputId_or {keyset : UInt16} (bits : UInt16) (h : mwebInHasOutputId keyset) :
    mwebInHasOutputId (keyset ||| bits) := by
  rw [mwebInHasOutputId, mwebInHas, bne_iff_ne] at h ⊢
  exact or_and_ne_zero bits h

theorem mwebOutIsMweb_or {keyset : UInt16} (bits : UInt16) (h : mwebOutIsMweb keyset) :
    mwebOutIsMweb (keyset ||| bits) := by
  rw [mwebOutIsMweb, bne_iff_ne] at h ⊢
  exact or_and_ne_zero bits h

end Jade
