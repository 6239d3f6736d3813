/-
**Trusted commitments (`process/sign_utils.c`).**

For a blinded output, or input, of a Liquid transaction the host sends the asset and the value with
something that ties them to the commitments: the blinding factor or an explicit proof, for each of
the two, or both. The commitments themselves may come along, and must for an input; those of an
output are compared with the transaction, or taken from it. Everything that was sent is verified
before the record of the caller is written.

The curve, the commitments and the proofs are not part of this repository.  They enter as functions,
and as what these are for: an opening that a generator or a commitment has been shown to have is the
only one.

Main definitions:

* `Jade.BlindingLib`, `Jade.Binding` — the functions, and what they bind;
* `Jade.paramsCommitmentData`, `Jade.paramsTrustedCommitments` — the data of an item, and of all
  outputs;
* `Jade.updateElementsOutputs` — what is known of the outputs then;
* `Jade.OpensTo` — the generator and the commitment open to the asset and value of a record.

Main results:

* `Jade.paramsCommitmentData_spec` — what an item that is accepted stands for;
* `Jade.commitments_genuine` — **accepted commitment data is genuine**.
-/

import Jade.SignTx.Scripts
import Jade.Utils.CborSlices

set_option relaxedAutoImplicit false
set_option autoImplicit false

namespace Jade

open Exec

/-! ### The functions called -/

def BLINDING_FACTOR_LEN : ℕ := 32

def ASSET_TAG_LEN : ℕ := 32

def ASSET_GENERATOR_LEN : ℕ := 33

def ASSET_COMMITMENT_LEN : ℕ := 33

/-- The blinding functions of `libwally`, the lengths of its proofs, and whether the device has the
memory to verify them. -/
structure BlindingLib where
  /-- `wally_asset_generator_from_bytes`: asset, blinding factor -/
  assetGeneratorFromBytes : Bytes → Bytes → Option Bytes
  /-- `wally_asset_value_commitment`: value, blinding factor, generator -/
  assetValueCommitment : UInt64 → Bytes → Bytes → Option Bytes
  /-- `wally_explicit_surjectionproof_verify`: proof, asset, generator -/
  explicitSurjectionproofVerify : Bytes → Bytes → Bytes → Bool
  /-- `wally_explicit_rangeproof_verify`: proof, value, commitment, generator -/
  explicitRangeproofVerify : Bytes → UInt64 → Bytes → Bytes → Bool
  surjectionproofLen : ℕ
  rangeproofMaxLen : ℕ
  /-- `CONFIG_SPIRAM` -/
  spiram : Bool

/-- The commitments bind: what a blinding factor reconstructs, or a proof shows, is an opening, and
there is no other. -/
structure Binding (B : BlindingLib) where
  opensAsset : Bytes → Bytes → Prop
  opensValue : Bytes → Bytes → UInt64 → Prop
  generator : ∀ {asset abf gen}, B.assetGeneratorFromBytes asset abf = some gen →
    opensAsset gen asset
  commitment : ∀ {value vbf gen com}, B.assetValueCommitment value vbf gen = some com →
    opensValue com gen value
  surjection : ∀ {proof asset gen}, B.explicitSurjectionproofVerify proof asset gen = true →
    opensAsset gen asset
  range : ∀ {proof value com gen}, B.explicitRangeproofVerify proof value com gen = true →
    opensValue com gen value
  asset_unique : ∀ {gen asset asset'}, opensAsset gen asset → opensAsset gen asset' →
    asset' = asset
  value_unique : ∀ {com gen value value'}, opensValue com gen value → opensValue com gen value' →
    value' = value

/-- The library with arrays and the sizes of maps. -/
structure TinyCborArrays (V : Type) extends TinyCborBytes V where
  isArray : V → Bool
  mapLength : V → Option ℕ

/-! ### The data of an item -/

/-- `commitment_t`; a field with a bit of `content` is an `Option`, and the proofs leave only their
bits. -/
structure Commitment where
  value : UInt64 := 0
  assetId : Bytes := []
  abf : Option Bytes := none
  vbf : Option Bytes := none
  blindingKey : Option Bytes := none
  assetBlindProof : Bool := false
  valueBlindProof : Bool := false
  deriving DecidableEq

/-- `content != COMMITMENTS_NONE` -/
def Commitment.hasContent (c : Commitment) : Bool :=
  c.abf.isSome || c.vbf.isSome || c.blindingKey.isSome || c.assetBlindProof || c.valueBlindProof

/-- `content = COMMITMENTS_NONE` -/
def Commitment.cleared (c : Commitment) : Commitment :=
  { value := c.value, assetId := c.assetId }

/-- `ext_commitment_t` -/
structure ExtCommitment where
  value : UInt64
  assetId : Bytes
  abf : Option Bytes
  vbf : Option Bytes
  blindingKey : Option Bytes
  assetBlindProof : Option Bytes
  valueBlindProof : Option Bytes
  assetGenerator : Bytes
  valueCommitment : Bytes

/-- The part that the caller gets. -/
def ExtCommitment.c (ec : ExtCommitment) : Commitment where
  value := ec.value
  assetId := ec.assetId
  abf := ec.abf
  vbf := ec.vbf
  blindingKey := ec.blindingKey
  assetBlindProof := ec.assetBlindProof.isSome
  valueBlindProof := ec.valueBlindProof.isSome

/-- Why there are no commitment data: the device restarts, there are none, or they are invalid. -/
inductive CommitmentErr
  | abort (a : WireAbort)
  | absent
  | invalid (errmsg : String)
  deriving DecidableEq

def INVALID_COMMITMENT : String := "Invalid or missing trusted commitment data"

def UNVERIFIED_COMMITMENT : String := "Failed to verify trusted commitment data with tx"

/-- Reject the data. -/
def invalidUnless (c : Bool) (errmsg : String) : Except CommitmentErr Unit :=
  if c then .ok () else .error (.invalid errmsg)

theorem invalidUnless_bind {α : Type} {c : Bool} {errmsg : String}
    {f : Unit → Except CommitmentErr α} {a : α} (h : (invalidUnless c errmsg >>= f) = .ok a) :
    c = true ∧ f () = .ok a := by
  obtain ⟨u, hu, h⟩ := bind_eq_ok.1 h
  rw [invalidUnless] at hu
  split at hu
  · next hc => exact ⟨hc, h⟩
  · cases hu

/-- A getter that may abort. -/
def orAbort {α : Type} : Except WireAbort α → Except CommitmentErr α
  | .ok a => .ok a
  | .error a => .error (.abort a)

section Reading

variable {V : Type} (C : TinyCborArrays V) (B : BlindingLib)

/-- `rpc_get_n_bytes` -/
def rpcGetNBytes (field : String) (expectedSize : ℕ) (value : V) :
    Except WireAbort (Option Bytes) := do
  let data ← rpcGetBytes C.toTinyCborBytes field expectedSize value
  pure (if data.length = expectedSize then some data else none)

/-- `rpc_get_uint64_t` -/
def rpcGetUint64 (field : String) (value : V) : Option UInt64 := do
  let result ← rpcGetData C.toTinyCbor field value
  C.getUint64 result

/-- `rpc_get_array` -/
def rpcGetArray (field : String) (value : V) : Option V := do
  let result ← rpcGetData C.toTinyCbor field value
  if C.isArray result then some result else none

/-- What ties the asset to the generator: "need abf or asset_blind_proof". -/
def readAssetBlinding (item : V) : Except CommitmentErr (Option Bytes × Option Bytes) := do
  let abf ← orAbort (rpcGetNBytes C "abf" BLINDING_FACTOR_LEN item)
  let proof ← orAbort (rpcGetNBytes C "asset_blind_proof" B.surjectionproofLen item)
  if abf.isNone && proof.isNone then .error .absent else pure (abf, proof)

/-- What ties the value to the commitment: "need vbf or value_blind_proof". -/
def readValueBlinding (item : V) : Except CommitmentErr (Option Bytes × Option Bytes) := do
  let vbf ← orAbort (rpcGetNBytes C "vbf" BLINDING_FACTOR_LEN item)
  let written ← orAbort (rpcGetBytes C.toTinyCborBytes "value_blind_proof" B.rangeproofMaxLen item)
  let proof := if written.isEmpty then none else some written
  invalidUnless (vbf.isSome || proof.isSome) INVALID_COMMITMENT
  pure (vbf, proof)

/-- The asset and the value. -/
def readAssetValue (item : V) : Except CommitmentErr (Bytes × UInt64) := do
  match ← orAbort (rpcGetNBytes C "asset_id" ASSET_TAG_LEN item) with
  | none => .error (.invalid INVALID_COMMITMENT)
  | some assetId =>
      match rpcGetUint64 C "value" item with
      | none => .error (.invalid INVALID_COMMITMENT)
      | some value => pure (assetId, value)

/-- The commitments of an item, both or neither. -/
def readCommitments (item : V) : Except CommitmentErr (Option (Bytes × Bytes)) := do
  let assetGenerator ← orAbort (rpcGetNBytes C "asset_generator" ASSET_GENERATOR_LEN item)
  let valueCommitment ← orAbort (rpcGetNBytes C "value_commitment" ASSET_COMMITMENT_LEN item)
  match assetGenerator, valueCommitment with
  | some gen, some com => pure (some (gen, com))
  | none, none => pure none
  | _, _ => .error (.invalid INVALID_COMMITMENT)

/-- The commitments to verify against: those passed, which must be the ones of the output if there
is one, or those of the output. -/
def commitmentsFor (txout : Option TxOutput) (passed : Option (Bytes × Bytes)) :
    Except CommitmentErr (Bytes × Bytes) :=
  match txout with
  | none =>
      match passed with
      | none => .error (.invalid INVALID_COMMITMENT)
      | some commitments => .ok commitments
  | some txout => do
      invalidUnless (txout.asset.length == ASSET_GENERATOR_LEN &&
        passed.all fun commitments => txout.asset == commitments.1) UNVERIFIED_COMMITMENT
      invalidUnless (txout.value.length == ASSET_COMMITMENT_LEN) UNVERIFIED_COMMITMENT
      match passed with
      | none => pure (txout.asset, txout.value)
      | some commitments => do
          invalidUnless (txout.asset == commitments.1 && txout.value == commitments.2)
            UNVERIFIED_COMMITMENT
          pure commitments

/-- The generator can be reconstructed from the blinding factor, if that was sent. -/
def generatorMatches (ec : ExtCommitment) : Bool :=
  ec.abf.all fun abf =>
    B.assetGeneratorFromBytes ec.assetId.reverse abf == some ec.assetGenerator

/-- The commitment can be reconstructed from the blinding factor, if that was sent. -/
def commitmentMatches (ec : ExtCommitment) : Bool :=
  ec.vbf.all fun vbf =>
    B.assetValueCommitment ec.value vbf ec.assetGenerator == some ec.valueCommitment

/-- `verify_explicit_proofs` -/
def verifyExplicitProofs (ec : ExtCommitment) : Bool :=
  (ec.assetBlindProof.all fun proof =>
    B.explicitSurjectionproofVerify proof ec.assetId.reverse ec.assetGenerator) &&
  ec.valueBlindProof.all fun proof =>
    B.explicitRangeproofVerify proof ec.value ec.valueCommitment ec.assetGenerator

/-- The proofs, if there are any; a device without the memory for them refuses. -/
def verifyProofs (ec : ExtCommitment) : Except CommitmentErr Unit :=
  if ec.assetBlindProof.isSome || ec.valueBlindProof.isSome then do
    invalidUnless B.spiram "Devices without external SPIRAM are unable to verify explicit proofs"
    invalidUnless (verifyExplicitProofs B ec)
      "Failed to verify explicit asset/value commitment proofs"
  else .ok ()

/-- The data of an item, read and verified. -/
def readCommitmentData (item : V) (txout : Option TxOutput) :
    Except CommitmentErr ExtCommitment := do
  let asset ← readAssetBlinding C B item
  let value ← readValueBlinding C B item
  let assetValue ← readAssetValue C item
  let blindingKey ← orAbort (rpcGetNBytes C "blinding_key" EC_PUBLIC_KEY_LEN item)
  let passed ← readCommitments C item
  let commitments ← commitmentsFor txout passed
  let ec : ExtCommitment := {
    value := assetValue.2, assetId := assetValue.1, abf := asset.1, vbf := value.1, blindingKey
    assetBlindProof := asset.2, valueBlindProof := value.2
    assetGenerator := commitments.1, valueCommitment := commitments.2 }
  invalidUnless (generatorMatches B ec) UNVERIFIED_COMMITMENT
  invalidUnless (commitmentMatches B ec) UNVERIFIED_COMMITMENT
  verifyProofs B ec
  pure ec

/-- What `params_commitment_data` returns, writes to the record of the caller, and says. -/
structure CommitmentResult where
  accepted : Bool
  record : Commitment
  errmsg : Option String := none
  deriving DecidableEq

/-- `params_commitment_data`: `record` is the caller's as it is at the call. -/
def paramsCommitmentData (item : V) (record : Commitment) (txout : Option TxOutput) :
    Except WireAbort CommitmentResult :=
  match readCommitmentData C B item txout with
  | .ok ec => .ok { accepted := true, record := ec.c }
  | .error .absent => .ok { accepted := false, record := record.cleared }
  | .error (.invalid errmsg) =>
      .ok { accepted := false, record := record.cleared, errmsg := some errmsg }
  | .error (.abort a) => .error a


/-! ### The outputs of a transaction -/

/-- One turn of the loop of `params_trusted_commitments`. There are no data when the item is null,
or an empty map. -/
def trustedCommitment (item : V) (txout : TxOutput) : Except SignErr Commitment :=
  if C.isNull item then .ok {}
  else if !C.isMap item then badParameter INVALID_COMMITMENT
  else if C.mapLength item = some 0 then .ok {}
  else do
    let result ← liftFault (getter (paramsCommitmentData C B item {} (some txout)))
    match result.errmsg with
    | some errmsg => badParameter errmsg
    | none => pure result.record

/-- `params_trusted_commitments` -/
def paramsTrustedCommitments (params : V) (tx : Tx) : Except SignErr (List Commitment) :=
  match rpcGetArray C "trusted_commitments" params with
  | none => badParameter "Failed to extract trusted commitments from parameters"
  | some result =>
      match C.arrayItems result with
      | none => badParameter "Unexpected number of trusted commitments for transaction"
      | some items =>
          if items.isEmpty || items.length != tx.outputs.length then
            badParameter "Unexpected number of trusted commitments for transaction"
          else if !items.head?.any C.isValid then
            badParameter "Invalid trusted commitments for transaction"
          else (items.zip tx.outputs).mapM fun (item, txout) => trustedCommitment C B item txout

end Reading

/-- One turn of the loop of `update_elements_outputs`: the asset and the value come from the
commitment data, or from an output that is not blinded, where the bytes of the asset are reversed.
-/
def updateElementsOutput (txout : TxOutput) (c : Commitment) (outinfo : OutputInfo) :
    Except SignErr OutputInfo := do
  assertThat (!(outinfo.confidential || outinfo.hasUnblinded))
  if c.hasContent then
    pure { outinfo with
      confidential := true, hasUnblinded := true, assetId := c.assetId, value := c.value
      blindingKey := c.blindingKey.getD outinfo.blindingKey
      hasBlindingKey := outinfo.hasBlindingKey || c.blindingKey.isSome }
  else if txout.asset.head? != some WALLY_TX_ASSET_CT_EXPLICIT_PREFIX ||
      txout.value.head? != some WALLY_TX_ASSET_CT_EXPLICIT_PREFIX then do
    rejectUnless (!outinfo.validated) "Missing blinding information for wallet output"
    pure { outinfo with confidential := true }
  else do
    assertThat (txout.value.length == 9)
    pure { outinfo with
      hasUnblinded := true, assetId := (txout.asset.drop 1).reverse
      value := confidentialValueToSatoshi txout.value }

/-- `update_elements_outputs` -/
def updateElementsOutputs (tx : Tx) (commitments : List Commitment) (outputInfo : List OutputInfo) :
    Except SignErr (List OutputInfo) :=
  (tx.outputs.zip (commitments.zip outputInfo)).mapM fun (txout, c, outinfo) =>
    updateElementsOutput txout c outinfo

/-! ### What the data stand for -/

/-- The generator and the commitment open to this asset and this value, and to no other. -/
structure OpensTo {B : BlindingLib} (W : Binding B) (gen com : Bytes) (assetId : Bytes)
    (value : UInt64) : Prop where
  opensAsset : W.opensAsset gen assetId.reverse
  onlyAsset : ∀ asset, W.opensAsset gen asset → asset = assetId.reverse
  opensValue : W.opensValue com gen value
  onlyValue : ∀ value', W.opensValue com gen value' → value' = value

/-- The commitments an item is about: those of the output, which the item may repeat, or without an
output those that were passed. -/
def CommitmentsOf {V : Type} (C : TinyCborArrays V) (item : V) (txout : Option TxOutput)
    (gen com : Bytes) : Prop :=
  match txout with
  | none => readCommitments C item = .ok (some (gen, com))
  | some txout =>
      gen = txout.asset ∧ com = txout.value ∧
        (readCommitments C item = .ok none ∨ readCommitments C item = .ok (some (gen, com)))

/-- Everything that was sent has been verified, and for each of the two sides something was. -/
structure ExtCommitment.Verified (B : BlindingLib) (ec : ExtCommitment) : Prop where
  asset : ec.abf.isSome = true ∨ ec.assetBlindProof.isSome = true
  value : ec.vbf.isSome = true ∨ ec.valueBlindProof.isSome = true
  generator : generatorMatches B ec = true
  commitment : commitmentMatches B ec = true
  proofs : verifyExplicitProofs B ec = true

section Spec

variable {V : Type} {C : TinyCborArrays V} {B : BlindingLib}

/-- Verified data open the commitments: each side by its blinding factor, or by its proof. -/
theorem ExtCommitment.Verified.opensTo {ec : ExtCommitment} (h : ec.Verified B) (W : Binding B) :
    OpensTo W ec.assetGenerator ec.valueCommitment ec.assetId ec.value := by
  obtain ⟨hsurjection, hrange⟩ := Bool.and_eq_true_iff.1 h.proofs
  have hasset : W.opensAsset ec.assetGenerator ec.assetId.reverse := by
    cases habf : ec.abf with
    | some abf =>
        have hgen := h.generator
        rw [generatorMatches, habf] at hgen
        exact W.generator (eq_of_beq hgen)
    | none =>
        cases hproof : ec.assetBlindProof with
        | some proof =>
            rw [hproof] at hsurjection
            exact W.surjection hsurjection
        | none =>
            have hnone := h.asset
            simp [habf, hproof] at hnone
  have hvalue : W.opensValue ec.valueCommitment ec.assetGenerator ec.value := by
    cases hvbf : ec.vbf with
    | some vbf =>
        have hcom := h.commitment
        rw [commitmentMatches, hvbf] at hcom
        exact W.commitment (eq_of_beq hcom)
    | none =>
        cases hproof : ec.valueBlindProof with
        | some proof =>
            rw [hproof] at hrange
            exact W.range hrange
        | none =>
            have hnone := h.value
            simp [hvbf, hproof] at hnone
  exact ⟨hasset, fun _ => W.asset_unique hasset, hvalue, fun _ => W.value_unique hvalue⟩

/-- Verified data are content. -/
theorem ExtCommitment.Verified.hasContent {ec : ExtCommitment} (h : ec.Verified B) :
    ec.c.hasContent = true := by
  simp only [Commitment.hasContent, ExtCommitment.c, Bool.or_eq_true]
  rcases h.asset with h | h
  · exact .inl (.inl (.inl (.inl h)))
  · exact .inl (.inr h)

theorem readAssetBlinding_eq_ok {item : V} {abf proof : Option Bytes}
    (h : readAssetBlinding C B item = .ok (abf, proof)) :
    abf.isSome = true ∨ proof.isSome = true := by
  obtain ⟨abf', -, h⟩ := bind_eq_ok.1 h
  obtain ⟨proof', -, h⟩ := bind_eq_ok.1 h
  split at h
  · cases h
  · next hsome =>
      cases h
      cases abf <;> cases proof <;> simp_all

theorem readValueBlinding_eq_ok {item : V} {vbf proof : Option Bytes}
    (h : readValueBlinding C B item = .ok (vbf, proof)) :
    vbf.isSome = true ∨ proof.isSome = true := by
  obtain ⟨vbf', -, h⟩ := bind_eq_ok.1 h
  obtain ⟨written, -, h⟩ := bind_eq_ok.1 h
  obtain ⟨hsome, h⟩ := invalidUnless_bind h
  cases h
  simpa using hsome

/-- The commitments that are verified against are those the item is about. -/
theorem commitmentsFor_eq_ok {item : V} {txout : Option TxOutput} {passed : Option (Bytes × Bytes)}
    {gen com : Bytes} (hpassed : readCommitments C item = .ok passed)
    (h : commitmentsFor txout passed = .ok (gen, com)) : CommitmentsOf C item txout gen com := by
  cases txout with
  | none =>
      cases passed with
      | none => cases h
      | some commitments =>
          cases h
          exact hpassed
  | some txout =>
      obtain ⟨-, h⟩ := invalidUnless_bind h
      obtain ⟨-, h⟩ := invalidUnless_bind h
      cases passed with
      | none =>
          cases h
          exact ⟨rfl, rfl, .inl hpassed⟩
      | some commitments =>
          obtain ⟨hsame, h⟩ := invalidUnless_bind h
          cases h
          obtain ⟨hgen, hcom⟩ := Bool.and_eq_true_iff.1 hsame
          exact ⟨(eq_of_beq hgen).symm, (eq_of_beq hcom).symm, .inr hpassed⟩

theorem verifyProofs_eq_ok {ec : ExtCommitment} (h : verifyProofs B ec = .ok ()) :
    verifyExplicitProofs B ec = true := by
  rw [verifyProofs] at h
  split at h
  · obtain ⟨-, h⟩ := invalidUnless_bind h
    rw [invalidUnless] at h
    split at h
    · assumption
    · cases h
  · next hnone =>
      -- without proofs there is nothing to verify
      rw [verifyExplicitProofs]
      cases hasset : ec.assetBlindProof <;> cases hvalue : ec.valueBlindProof <;>
        simp_all

theorem readCommitmentData_eq_ok {item : V} {txout : Option TxOutput} {ec : ExtCommitment}
    (h : readCommitmentData C B item txout = .ok ec) :
    ec.Verified B ∧ CommitmentsOf C item txout ec.assetGenerator ec.valueCommitment := by
  obtain ⟨asset, hasset, h⟩ := bind_eq_ok.1 h
  obtain ⟨value, hvalue, h⟩ := bind_eq_ok.1 h
  obtain ⟨assetValue, -, h⟩ := bind_eq_ok.1 h
  obtain ⟨blindingKey, -, h⟩ := bind_eq_ok.1 h
  obtain ⟨passed, hpassed, h⟩ := bind_eq_ok.1 h
  obtain ⟨commitments, hcommitments, h⟩ := bind_eq_ok.1 h
  obtain ⟨hgenerator, h⟩ := invalidUnless_bind h
  obtain ⟨hcommitment, h⟩ := invalidUnless_bind h
  obtain ⟨_, hproofs, h⟩ := bind_eq_ok.1 h
  cases h
  exact ⟨⟨readAssetBlinding_eq_ok hasset, readValueBlinding_eq_ok hvalue, hgenerator, hcommitment,
    verifyProofs_eq_ok hproofs⟩, commitmentsFor_eq_ok hpassed hcommitments⟩

/-- What `params_commitment_data` says of an item. -/
theorem paramsCommitmentData_spec {item : V} {record : Commitment} {txout : Option TxOutput}
    {result : CommitmentResult} (h : paramsCommitmentData C B item record txout = .ok result) :
    (result.accepted = true → result.errmsg = none ∧ result.record.hasContent = true ∧
      ∃ gen com, CommitmentsOf C item txout gen com ∧
        ∀ W : Binding B, OpensTo W gen com result.record.assetId result.record.value) ∧
    (result.accepted = false → result.record.hasContent = false) := by
  rw [paramsCommitmentData] at h
  cases hread : readCommitmentData C B item txout with
  | ok ec =>
      rw [hread] at h
      cases h
      obtain ⟨hverified, hof⟩ := readCommitmentData_eq_ok hread
      refine ⟨fun _ => ⟨rfl, hverified.hasContent, _, _, hof, fun W => hverified.opensTo W⟩, ?_⟩
      intro hfalse
      cases hfalse
  | error e =>
      rw [hread] at h
      cases e with
      | abort a => cases h
      | absent =>
          cases h
          exact ⟨fun htrue => (by cases htrue), fun _ => rfl⟩
      | invalid errmsg =>
          cases h
          exact ⟨fun htrue => (by cases htrue), fun _ => rfl⟩

/-- The record of an output has content only when the commitments of the output open to it. -/
theorem trustedCommitment_spec {item : V} {txout : TxOutput} {c : Commitment}
    (h : trustedCommitment C B item txout = .ok c) (hcontent : c.hasContent = true)
    (W : Binding B) : OpensTo W txout.asset txout.value c.assetId c.value := by
  have hnothing : ∀ {c'}, Except.ok ({} : Commitment) = (.ok c' : Except SignErr Commitment) →
      c'.hasContent = false := by
    intro c' hc'
    cases hc'
    rfl
  rw [trustedCommitment] at h
  split at h
  · exact absurd hcontent (by rw [hnothing h]; exact Bool.false_ne_true)
  · split at h
    · cases h
    · split at h
      · exact absurd hcontent (by rw [hnothing h]; exact Bool.false_ne_true)
      · obtain ⟨result, hresult, h⟩ := bind_eq_ok.1 h
        have hdata : paramsCommitmentData C B item {} (some txout) = .ok result := by
          cases hdata : paramsCommitmentData C B item {} (some txout) with
          | error e =>
              rw [hdata] at hresult
              cases hresult
          | ok result' =>
              rw [hdata] at hresult
              cases hresult
              rfl
        cases herr : result.errmsg with
        | some errmsg =>
            rw [herr] at h
            cases h
        | none =>
            rw [herr] at h
            cases h
            obtain ⟨hyes, hno⟩ := paramsCommitmentData_spec hdata
            cases haccepted : result.accepted with
            | false => exact absurd hcontent (by rw [hno haccepted]; exact Bool.false_ne_true)
            | true =>
                obtain ⟨-, -, gen, com, ⟨rfl, rfl, -⟩, hopens⟩ := hyes haccepted
                exact hopens W

/-- What is known of an output: its commitments open to it, or the output is not blinded. -/
def IsUnblinded (W : Binding B) (txout : TxOutput) (assetId : Bytes) (value : UInt64) : Prop :=
  OpensTo W txout.asset txout.value assetId value ∨
    txout.asset.head? = some WALLY_TX_ASSET_CT_EXPLICIT_PREFIX ∧
      txout.value.head? = some WALLY_TX_ASSET_CT_EXPLICIT_PREFIX ∧
      assetId = (txout.asset.drop 1).reverse ∧ value = confidentialValueToSatoshi txout.value

theorem updateElementsOutput_spec {W : Binding B} {txout : TxOutput} {c : Commitment}
    {outinfo outinfo' : OutputInfo}
    (hc : c.hasContent = true → OpensTo W txout.asset txout.value c.assetId c.value)
    (h : updateElementsOutput txout c outinfo = .ok outinfo')
    (hshown : outinfo'.hasUnblinded = true) :
    IsUnblinded W txout outinfo'.assetId outinfo'.value := by
  obtain ⟨_, hfresh, h⟩ := bind_eq_ok.1 h
  have hhidden : outinfo.hasUnblinded = false := by
    cases hu : outinfo.hasUnblinded with
    | false => rfl
    | true =>
        rw [hu, Bool.or_true] at hfresh
        cases hfresh
  split at h
  · next hcontent =>
      cases h
      exact .inl (hc hcontent)
  · split at h
    · -- nothing is known of a blinded output without data
      obtain ⟨_, -, h⟩ := bind_eq_ok.1 h
      cases h
      exact absurd hshown (by rw [hhidden]; exact Bool.false_ne_true)
    · next hexplicit =>
        obtain ⟨_, -, h⟩ := bind_eq_ok.1 h
        cases h
        simp only [Bool.or_eq_true, not_or, bne_iff_ne, ne_eq, not_not] at hexplicit
        exact .inr ⟨hexplicit.1, hexplicit.2, rfl, rfl⟩

/-- There is a record for every output, with what the output opens to. -/
theorem paramsTrustedCommitments_spec {params : V} {tx : Tx} {commitments : List Commitment}
    (h : paramsTrustedCommitments C B params tx = .ok commitments) (W : Binding B) {i : ℕ}
    {txout : TxOutput} {c : Commitment} (hout : tx.outputs[i]? = some txout)
    (hc : commitments[i]? = some c) (hcontent : c.hasContent = true) :
    OpensTo W txout.asset txout.value c.assetId c.value := by
  rw [paramsTrustedCommitments] at h
  split at h
  · cases h
  · split at h
    · cases h
    · split at h
      · cases h
      · split at h
        · cases h
        · obtain ⟨⟨item, txout'⟩, hzip, hitem⟩ := getElem?_of_mapM_eq_ok h hc
          obtain ⟨-, hout'⟩ := List.getElem?_zip_eq_some.1 hzip
          obtain rfl : txout = txout' := Option.some.inj (hout.symm.trans hout')
          exact trustedCommitment_spec hitem hcontent W

/-- Every output whose asset and value the device knows from then on has them. -/
theorem updateElementsOutputs_spec {params : V} {tx : Tx} {commitments : List Commitment}
    {outputInfo outputInfo' : List OutputInfo}
    (htrusted : paramsTrustedCommitments C B params tx = .ok commitments)
    (h : updateElementsOutputs tx commitments outputInfo = .ok outputInfo') (W : Binding B) {i : ℕ}
    {txout : TxOutput} {outinfo : OutputInfo} (hout : tx.outputs[i]? = some txout)
    (hinfo : outputInfo'[i]? = some outinfo) (hshown : outinfo.hasUnblinded = true) :
    IsUnblinded W txout outinfo.assetId outinfo.value := by
  obtain ⟨⟨txout', c, outinfo'⟩, hzip, houtput⟩ := getElem?_of_mapM_eq_ok h hinfo
  obtain ⟨hout', hrest⟩ := List.getElem?_zip_eq_some.1 hzip
  obtain rfl : txout = txout' := Option.some.inj (hout.symm.trans hout')
  obtain ⟨hc, -⟩ := List.getElem?_zip_eq_some.1 hrest
  exact updateElementsOutput_spec (paramsTrustedCommitments_spec htrusted W hout hc) houtput hshown

/-- There is a record for every output. -/
theorem length_paramsTrustedCommitments {params : V} {tx : Tx} {commitments : List Commitment}
    (h : paramsTrustedCommitments C B params tx = .ok commitments) :
    commitments.length = tx.outputs.length := by
  rw [paramsTrustedCommitments] at h
  split at h
  · cases h
  · split at h
    · cases h
    · split at h
      · cases h
      · next hlength =>
          split at h
          · cases h
          · have hsize := (mapM_eq_ok.1 h).length_eq
            simp only [Bool.or_eq_true, not_or, bne_iff_ne, ne_eq, not_not] at hlength
            rw [List.length_zip, hlength.2, Nat.min_self] at hsize
            exact hsize.symm

/-- An output with data gets its record. -/
theorem updateElementsOutput_content {txout : TxOutput} {c : Commitment}
    {outinfo outinfo' : OutputInfo} (hcontent : c.hasContent = true)
    (h : updateElementsOutput txout c outinfo = .ok outinfo') :
    outinfo'.hasUnblinded = true ∧ outinfo'.assetId = c.assetId ∧ outinfo'.value = c.value := by
  obtain ⟨_, -, h⟩ := bind_eq_ok.1 h
  rw [if_pos hcontent] at h
  obtain rfl := pure_eq_ok.1 h
  exact ⟨rfl, rfl, rfl⟩

/-- **Every output gets its record.** -/
theorem updateElementsOutputs_records {params : V} {tx : Tx} {commitments : List Commitment}
    {outputInfo outputInfo' : List OutputInfo}
    (htrusted : paramsTrustedCommitments C B params tx = .ok commitments)
    (hlength : outputInfo.length = tx.outputs.length)
    (h : updateElementsOutputs tx commitments outputInfo = .ok outputInfo') :
    outputInfo'.length = tx.outputs.length ∧ ∀ (i : ℕ) c outinfo', commitments[i]? = some c →
      outputInfo'[i]? = some outinfo' → c.hasContent = true →
        outinfo'.hasUnblinded = true ∧ outinfo'.assetId = c.assetId ∧ outinfo'.value = c.value := by
  constructor
  · rw [← (mapM_eq_ok.1 h).length_eq, List.length_zip, List.length_zip,
      length_paramsTrustedCommitments htrusted, hlength, Nat.min_self, Nat.min_self]
  · intro i c outinfo' hc hinfo hcontent
    obtain ⟨⟨txout, c', outinfo⟩, hzip, houtput⟩ := getElem?_of_mapM_eq_ok h hinfo
    obtain ⟨-, hrest⟩ := List.getElem?_zip_eq_some.1 hzip
    obtain ⟨hc', -⟩ := List.getElem?_zip_eq_some.1 hrest
    obtain rfl : c = c' := Option.some.inj (hc.symm.trans hc')
    exact updateElementsOutput_content hcontent houtput

end Spec

/-! ### A blinded output -/

/-- The asset of the regtest network, as it is displayed. -/
def regtestAsset : Bytes :=
  Bytes.ofNatBE 32 0x5ac9f65c0efcc4775e0baec4ec03abdde22473cd3cf33c0419ca290e0751b225

def regtestAbf : Bytes :=
  Bytes.ofNatBE 32 0x42bc9c7025f3df490a208cb362ff220547910da1d3e81c63a6e7c28c3a33a993

def regtestVbf : Bytes :=
  Bytes.ofNatBE 32 0x7a6693fde7b88efb8375db618670fb5ccb9b2f7e8743b7d772924f0426c5efe6

def regtestGenerator : Bytes :=
  Bytes.ofNatBE 33 0x0a5cf0a43ad404163946c28b8a36d0e5cb4895b0ee386da4cd1008ffc8cb464501

def regtestCommitment : Bytes :=
  Bytes.ofNatBE 33 0x082d8de9b7f66994abf789b2591738331f88a7ddbef4e553bbf123e47677d60099

/-- Proofs of the asset and of the value. -/
def regtestSurjectionproof : Bytes := List.replicate 77 1

def regtestRangeproof : Bytes := List.replicate 73 2

/-- The functions at one asset and one value; nothing else has commitments, or a proof. -/
def regtestBlinding : BlindingLib where
  assetGeneratorFromBytes asset abf :=
    if asset = regtestAsset.reverse ∧ abf = regtestAbf then some regtestGenerator else none
  assetValueCommitment value vbf generator :=
    if value = 9000000 ∧ vbf = regtestVbf ∧ generator = regtestGenerator then
      some regtestCommitment
    else none
  explicitSurjectionproofVerify proof asset generator :=
    proof == regtestSurjectionproof && asset == regtestAsset.reverse &&
      generator == regtestGenerator
  explicitRangeproofVerify proof value commitment generator :=
    proof == regtestRangeproof && value == 9000000 && commitment == regtestCommitment &&
      generator == regtestGenerator
  surjectionproofLen := 77
  rangeproofMaxLen := 73
  spiram := true

/-- What they bind. -/
def regtestBinding : Binding regtestBlinding where
  opensAsset gen asset := gen = regtestGenerator ∧ asset = regtestAsset.reverse
  opensValue com gen value :=
    com = regtestCommitment ∧ gen = regtestGenerator ∧ value = 9000000
  generator h := by
    obtain ⟨⟨hasset, -⟩, hgen⟩ := Option.ite_none_right_eq_some.1 h
    exact ⟨(Option.some.inj hgen).symm, hasset⟩
  commitment h := by
    obtain ⟨⟨hvalue, -, hgen⟩, hcom⟩ := Option.ite_none_right_eq_some.1 h
    exact ⟨(Option.some.inj hcom).symm, hgen, hvalue⟩
  surjection h := by
    simp only [regtestBlinding, Bool.and_eq_true, beq_iff_eq] at h
    exact ⟨h.2, h.1.2⟩
  range h := by
    simp only [regtestBlinding, Bool.and_eq_true, beq_iff_eq] at h
    exact ⟨h.1.2, h.2, h.1.1.2⟩
  asset_unique h h' := h'.2.trans h.2.symm
  value_unique h h' := h'.2.2.trans h.2.2.symm

/-- The library that walks over the bytes, with arrays and the sizes of maps. -/
def tinyCborArrays : TinyCborArrays Bytes where
  toTinyCborBytes := tinyCborBytes
  isArray v := headMajor v = 4
  mapLength v := if headMajor v = 5 && Cbor.lengthKnown v then some (Cbor.argument v) else none

/-- An item with both blinding factors. -/
def regtestItem : Bytes :=
  [0xa4] ++ shortText "abf" ++ [0x58, 0x20] ++ regtestAbf ++ shortText "vbf" ++ [0x58, 0x20] ++
    regtestVbf ++ shortText "asset_id" ++ [0x58, 0x20] ++ regtestAsset ++ shortText "value" ++
    [0x1a, 0x00, 0x89, 0x54, 0x40]

/-- An item with both proofs. -/
def regtestProofItem : Bytes :=
  [0xa4] ++ shortText "asset_blind_proof" ++ [0x58, 77] ++ regtestSurjectionproof ++
    shortText "value_blind_proof" ++ [0x58, 73] ++ regtestRangeproof ++ shortText "asset_id" ++
    [0x58, 0x20] ++ regtestAsset ++ shortText "value" ++ [0x1a, 0x00, 0x89, 0x54, 0x40]

/-- The data for a transaction with one output. -/
def regtestParams : Bytes :=
  0xa1 :: shortText "trusted_commitments" ++ 0x81 :: regtestProofItem

def regtestOutput : TxOutput :=
  { satoshi := 0, script := [0x6a], asset := regtestGenerator, value := regtestCommitment }

def regtestRecord : Commitment :=
  { value := 9000000, assetId := regtestAsset, abf := some regtestAbf, vbf := some regtestVbf }

def regtestProofRecord : Commitment :=
  { value := 9000000, assetId := regtestAsset, assetBlindProof := true, valueBlindProof := true }

/-- What is known of the output from then on. -/
def regtestInfo : OutputInfo :=
  { confidential := true, hasUnblinded := true, assetId := regtestAsset, value := 9000000 }

/-! ### The result -/

/-- An item that is accepted, for an output or for none, has commitments that open to the record; of
one that is not, the record is empty.  The outputs of a transaction have the assets and values that
are known of them from then on, and each of them gets its own record. -/
structure CommitmentsGenuine {V : Type} (C : TinyCborArrays V) {B : BlindingLib} (W : Binding B) :
    Prop where
  item : ∀ {item record txout result}, paramsCommitmentData C B item record txout = .ok result →
    if result.accepted then
      ∃ gen com, CommitmentsOf C item txout gen com ∧
        OpensTo W gen com result.record.assetId result.record.value
    else result.record.hasContent = false
  outputs : ∀ {params tx commitments outputInfo outputInfo'},
    paramsTrustedCommitments C B params tx = .ok commitments →
    updateElementsOutputs tx commitments outputInfo = .ok outputInfo' →
      ∀ (i : ℕ) (txout : TxOutput) (outinfo : OutputInfo), tx.outputs[i]? = some txout →
        outputInfo'[i]? = some outinfo → outinfo.hasUnblinded = true →
          IsUnblinded W txout outinfo.assetId outinfo.value
  records : ∀ {params tx commitments outputInfo outputInfo'},
    paramsTrustedCommitments C B params tx = .ok commitments →
    outputInfo.length = tx.outputs.length →
    updateElementsOutputs tx commitments outputInfo = .ok outputInfo' →
      outputInfo'.length = tx.outputs.length ∧
        ∀ (i : ℕ) (c : Commitment) (outinfo : OutputInfo), commitments[i]? = some c →
          outputInfo'[i]? = some outinfo → c.hasContent = true →
            outinfo.hasUnblinded = true ∧ outinfo.assetId = c.assetId ∧ outinfo.value = c.value

/-- **Accepted commitment data is genuine.** -/
theorem commitments_genuine {V : Type} (C : TinyCborArrays V) {B : BlindingLib} (W : Binding B) :
    CommitmentsGenuine C W where
  item := by
    intro item record txout result h
    obtain ⟨hyes, hno⟩ := paramsCommitmentData_spec h
    split
    · next haccepted =>
        obtain ⟨-, -, gen, com, hof, hopens⟩ := hyes haccepted
        exact ⟨gen, com, hof, hopens W⟩
    · next haccepted => exact hno (Bool.eq_false_iff.2 haccepted)
  outputs := by
    intro params tx commitments outputInfo outputInfo' htrusted hupdate i txout outinfo hout hinfo
    exact updateElementsOutputs_spec htrusted hupdate W hout hinfo
  records htrusted hlength hupdate := updateElementsOutputs_records htrusted hlength hupdate

/-- An item with blinding factors and one with proofs are accepted against the commitments of the
output, and the output is then known. -/
theorem commitments_genuine_regtest :
    (paramsCommitmentData tinyCborArrays regtestBlinding regtestItem {} (some regtestOutput) =
        .ok { accepted := true, record := regtestRecord } ∧
      OpensTo regtestBinding regtestGenerator regtestCommitment regtestAsset 9000000) ∧
    (paramsCommitmentData tinyCborArrays regtestBlinding regtestProofItem {}
        (some regtestOutput) = .ok { accepted := true, record := regtestProofRecord } ∧
      OpensTo regtestBinding regtestGenerator regtestCommitment regtestAsset 9000000) ∧
    updateElementsOutputs { outputs := [regtestOutput] } [regtestProofRecord] [{}] =
        .ok [regtestInfo] ∧
      IsUnblinded regtestBinding regtestOutput regtestAsset 9000000 := by
  have hgenuine := commitments_genuine tinyCborArrays regtestBinding
  have hrun : paramsCommitmentData tinyCborArrays regtestBlinding regtestItem {}
      (some regtestOutput) = .ok { accepted := true, record := regtestRecord } := by
    decide +kernel
  have hproofs : paramsCommitmentData tinyCborArrays regtestBlinding regtestProofItem {}
      (some regtestOutput) = .ok { accepted := true, record := regtestProofRecord } := by
    decide +kernel
  have htrusted : paramsTrustedCommitments tinyCborArrays regtestBlinding regtestParams
      { outputs := [regtestOutput] } = .ok [regtestProofRecord] := by
    decide +kernel
  have hupdate : updateElementsOutputs { outputs := [regtestOutput] } [regtestProofRecord] [{}] =
      .ok [regtestInfo] := by
    decide +kernel
  obtain ⟨gen, com, ⟨rfl, rfl, -⟩, hopens⟩ := hgenuine.item hrun
  obtain ⟨gen', com', ⟨rfl, rfl, -⟩, hopens'⟩ := hgenuine.item hproofs
  exact ⟨⟨hrun, hopens⟩, ⟨hproofs, hopens'⟩, hupdate,
    hgenuine.outputs htrusted hupdate 0 regtestOutput regtestInfo rfl rfl rfl⟩

end Jade
