/-
**Building an MWEB output (`mweb_output.c`).**

The device draws a sender key and derives from it, the recipient's stealth address and the value
everything the output carries.  For the kernel two of these count: the commitment, which opens to
the value and to the blinding factor the session keeps, and the sender public key.

Main definitions:

* `Jade.Mweb.MwebDerivedOutput`, `Jade.Mweb.deriveOutputBinding` — the binding to the recipient;
* `Jade.Mweb.MwebBuiltOutput`, `Jade.Mweb.mwebBuildOutput` — the whole output;
* `Jade.Mweb.OutputKeys` — the points behind the bytes of a built output.

Main results:

* `Jade.Mweb.sat_mwebBuildOutput` — a built output opens its commitment.
-/

import Jade.Mweb.Input

set_option relaxedAutoImplicit false
set_option autoImplicit false

namespace Jade.Mweb

open Exec

def MWEB_OUTPUT_STANDARD_FIELDS_BIT : UInt8 := 0x01
def MWEB_OUTPUT_EXTRA_DATA_BIT : UInt8 := 0x02
def MWEB_OUTPUT_MAX_EXTRA_DATA_LEN : ℕ := 256

/-- `struct mweb_derived_output` -/
structure MwebDerivedOutput where
  blind : Bytes
  outputPubkey : Bytes
  senderPubkey : Bytes
  keyExchangePubkey : Bytes
  commit : Bytes
  viewTag : UInt8
  maskedValue : UInt64
  maskedNonce : Bytes

/-- `struct mweb_built_output` -/
structure MwebBuiltOutput extends MwebDerivedOutput where
  rangeProof : Bytes
  signature : Bytes

section Model

variable {P : Type} (S : Secp P)

/-- `secp256k1_ec_pubkey_parse`, `secp256k1_ec_pubkey_tweak_mul`, `secp256k1_ec_pubkey_serialize` -/
def scalePubkey (pubkey tweak : Bytes) : Option Bytes := do
  let Q ← S.ecPubkeyParse pubkey
  let R ← S.ecPubkeyTweakMul Q tweak
  pure (S.ecPubkeySerialize R)

/-- `derive_output_binding` -/
def deriveOutputBinding (senderKey scanPubA spendPubB : Bytes) (value : UInt64) :
    M MwebDerivedOutput := do
  let n16 := (mwebHashed S MWEB_TAG_NONCE senderKey).take 16
  let s := mwebHashed S MWEB_TAG_SENDKEY
    (scanPubA ++ spendPubB ++ Bytes.ofNatLE 8 value.toNat ++ n16)
  let sA ← orFail (scalePubkey S scanPubA s) .internal
  let t := mwebHashed S MWEB_TAG_DERIVE sA
  let outputPubkey ← orFail (scalePubkey S spendPubB (mwebHashed S MWEB_TAG_OUTKEY t)) .internal
  let keyExchangePubkey ← orFail (scalePubkey S spendPubB s) .internal
  let maskBlind := mwebHashed S MWEB_TAG_BLIND t
  let yHash := mwebHashed S MWEB_TAG_VALUEMASK t
  let xHash := mwebHashed S MWEB_TAG_NONCEMASK t
  let blind ← orFail (← mwebBlindSwitch S maskBlind value) .internal
  let maskedValue := value ^^^ UInt64.ofNat (Bytes.toNatLE (yHash.take 8))
  let maskedNonce := List.zipWith (· ^^^ ·) n16 (xHash.take 16)
  let commit ← orFail (mwebPedersenCommit S blind value) .internal
  let KsPk ← orFail (S.ecPubkeyCreate senderKey) .internal
  pure {
    blind, outputPubkey, senderPubkey := S.ecPubkeySerialize KsPk, keyExchangePubkey, commit,
    viewTag := (mwebHashed S MWEB_TAG_TAG sA).headD 0, maskedValue, maskedNonce }

/-- `serialize_output_message` -/
def serializeOutputMessage (features : UInt8) (d : MwebDerivedOutput) (extraData : Bytes) : Bytes :=
  features ::
    (if features &&& MWEB_OUTPUT_STANDARD_FIELDS_BIT != 0 then
      d.keyExchangePubkey ++ [d.viewTag] ++ Bytes.ofNatLE 8 d.maskedValue.toNat ++ d.maskedNonce
    else []) ++
    (if features &&& MWEB_OUTPUT_EXTRA_DATA_BIT != 0 then
      mwebWriteCompactSize (UInt64.ofNat extraData.length) ++ extraData
    else [])

/-- `mweb_build_output`, that is `build_output_impl` with nonces of the device's own.  A null
pointer for the extra data is the empty string. -/
def mwebBuildOutput (senderKey scanPubA spendPubB : Bytes) (value : UInt64) (features : UInt8)
    (extraData : Bytes) : M MwebBuiltOutput := do
  check (mwebValidateScalar senderKey) .invalidScalar
  check (features &&& MWEB_OUTPUT_EXTRA_DATA_BIT != 0 || extraData.length == 0) .internal
  check (decide (extraData.length ≤ MWEB_OUTPUT_MAX_EXTRA_DATA_LEN)) .internal
  let binding ← deriveOutputBinding S senderKey scanPubA spendPubB value
  let msg := serializeOutputMessage features binding extraData
  let rangeProof ← mwebBuildRangeproof S value binding.blind msg
  let signature ← mwebSignOutput S senderKey binding.commit binding.senderPubkey
    binding.outputPubkey (S.blake3 msg) (S.blake3 rangeProof)
  pure { binding with rangeProof, signature }

end Model

/-! ### What a built output stands for -/

section Keys

variable {P : Type} [AddCommGroup P] [Module (ZMod order) P] {S : Secp P} (C : Curve S)

/-- The points behind the bytes of an output for `value`: its commitment opens to its blinding
factor and the value, and its sender key is the public key of the key drawn for it. -/
structure OutputKeys (value : UInt64) (senderKey blind commit senderPubkey : Bytes) : Prop where
  commit : C.commitPoint commit =
    some (scalar blind • C.G + (value.toNat : ZMod order) • C.H)
  sender : S.ecPubkeyParse senderPubkey = some (scalar senderKey • C.G)

theorem sat_deriveOutputBinding (senderKey scanPubA spendPubB : Bytes) (value : UInt64)
    (t : Tape) :
    Sat (deriveOutputBinding S senderKey scanPubA spendPubB value)
      (fun d _ => OutputKeys C value senderKey d.blind d.commit d.senderPubkey)
      (fun _ _ => True) t := by
  simp only [deriveOutputBinding, sat_bind, sat_orFail, sat_pure, implies_true, and_true]
  intro sA _ Ko _ Ke _
  refine sat_mwebBlindSwitch S _ _ fun r t' => ?_
  intro blind _ commit hcommit Ks hKs
  obtain ⟨hpoint, hne⟩ := C.create hKs
  exact ⟨C.commit hcommit, by rw [C.parse_serialize hne, hpoint]⟩

/-- **A built output opens its commitment.** -/
theorem sat_mwebBuildOutput (senderKey scanPubA spendPubB : Bytes) (value : UInt64)
    (features : UInt8) (extraData : Bytes) (t : Tape) :
    Sat (mwebBuildOutput S senderKey scanPubA spendPubB value features extraData)
      (fun b _ => OutputKeys C value senderKey b.blind b.commit b.senderPubkey)
      (fun _ _ => True) t := by
  simp only [mwebBuildOutput, sat_bind, sat_check, implies_true, and_true]
  intro _ _ _
  refine (sat_deriveOutputBinding C senderKey scanPubA spendPubB value t).mono ?_
    (fun _ _ h => h)
  intro d t₁ hd
  -- the range proof and the signature leave the binding as it is
  refine sat_of_forall (fun rangeProof t₂ => ?_) (fun _ _ => trivial)
  exact sat_of_forall (fun signature t₃ => (sat_pure _).2 hd) (fun _ _ => trivial)

end Keys

end Jade.Mweb
