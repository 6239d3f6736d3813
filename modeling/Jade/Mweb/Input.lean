/-
**Spending an MWEB output (`mweb_sign.c`).**

An input is signed in two stages.  The first derives everything from the wallet's keys and the
host's description of the spent output, and refuses the input unless the output key it arrives at
is the one the host named; the second emits the signature after the user has agreed.  The scalars
of the first stage also enter the kernel: the blinding factor of the spent commitment, and the
difference of the ephemeral key and the output spend key.

Main definitions:

* `Jade.Mweb.MwebInputState` — what the first stage keeps for the second;
* `Jade.Mweb.mwebDeriveInputState`, `Jade.Mweb.mwebSignInputFromState`;
* `Jade.Mweb.InputKeys` — the points behind the bytes of a derived input.

Main results:

* `Jade.Mweb.sat_mwebDeriveInputState` — a derived input opens the commitment it names, and its
  stealth tweak is the difference of its two keys.
-/

import Jade.Mweb.Curve
import Mathlib.Algebra.Module.Basic

set_option relaxedAutoImplicit false
set_option autoImplicit false

namespace Jade.Mweb

open Exec

def MWEB_INPUT_STEALTH_KEY_BIT : UInt8 := 0x01
def MWEB_INPUT_EXTRA_DATA_BIT : UInt8 := 0x02

/-- `mweb_write_compact_size`, and `write_varint` of `mweb_sign.c`. -/
def mwebWriteCompactSize (val : UInt64) : Bytes :=
  if val < 0xfd then [UInt8.ofNat val.toNat]
  else if val ≤ 0xffff then 0xfd :: Bytes.ofNatLE 2 val.toNat
  else if val ≤ 0xffffffff then 0xfe :: Bytes.ofNatLE 4 val.toNat
  else 0xff :: Bytes.ofNatLE 8 val.toNat

/-- `mweb_input_state_t` -/
structure MwebInputState where
  value : UInt64
  blind : Bytes
  ephemeral : Bytes
  osk : Bytes
  inputPubkey : Bytes
  stealthTweak : Bytes
  outputCommit : Bytes
  features : UInt8
  spentOutputId : Bytes
  spentOutputPk : Bytes
  keyHash : Bytes
  deriving DecidableEq

section Model

variable {P : Type} (S : Secp P)

/-- The mandatory output-key verification: `out_key_hash * (spend_key * G + m_i * G)`. -/
def expectedOutputKey (spendKey mi outKeyHash : Bytes) : Option Bytes := do
  let spendPub ← S.wallyEcPublicKeyFromPrivateKey spendKey
  let miPub ← S.wallyEcPublicKeyFromPrivateKey mi
  let spPk ← S.ecPubkeyParse spendPub
  let miPk ← S.ecPubkeyParse miPub
  let BiPk ← S.ecPubkeyCombine spPk miPk
  let BiPk ← S.ecPubkeyTweakMul BiPk outKeyHash
  pure (S.ecPubkeySerialize BiPk)

/-- `mweb_derive_input_state` -/
def mwebDeriveInputState (scanKey spendKey : Bytes) (addressIndex : UInt32) (features : UInt8)
    (spentOutputId spentOutputPk : Bytes) (amount : UInt64) (keyExchangePubkey : Bytes) :
    M MwebInputState := do
  check (features &&& MWEB_INPUT_STEALTH_KEY_BIT != 0) .invalidScalar
  let kex ← orFail (S.ecPubkeyParse keyExchangePubkey) .internal
  let kex ← orFail (S.ecPubkeyTweakMul kex scanKey) .internal
  let ss := mwebHashed S MWEB_TAG_DERIVE (S.ecPubkeySerialize kex)
  let preBlind := mwebHashed S MWEB_TAG_BLIND ss
  let outKeyHash := mwebHashed S MWEB_TAG_OUTKEY ss
  let mi := mwebHashed S MWEB_TAG_ADDRESS (Bytes.ofNatLE 4 addressIndex.toNat ++ scanKey)
  let tweaked ← orFail (S.ecSeckeyTweakAdd spendKey mi) .internal
  let osk ← orFail (S.ecSeckeyTweakMul tweaked outKeyHash) .internal
  let expectedKo ← orFail (expectedOutputKey S spendKey mi outKeyHash) .internal
  check (expectedKo == spentOutputPk) .foreignMwebInput
  let blind ← orFail (← mwebBlindSwitch S preBlind amount) .internal
  let ephemeral ← orFail (← drawScalar 8) .invalidScalar
  let inputPubkey ← orFail (S.wallyEcPublicKeyFromPrivateKey ephemeral) .internal
  let keyHash := S.blake3 (inputPubkey ++ spentOutputPk)
  let outputCommit ← orFail (mwebPedersenCommit S blind amount) .internal
  let stealthTweak ← orFail (← mwebScalarSubModN ephemeral osk) .internal
  pure {
    value := amount, blind, ephemeral, osk, inputPubkey, stealthTweak, outputCommit, features,
    spentOutputId, spentOutputPk, keyHash }

/-- The message an input signature signs. -/
def inputMessage (state : MwebInputState) (extraData : Bytes) : Bytes :=
  state.features :: state.spentOutputId ++
    (if state.features &&& MWEB_INPUT_EXTRA_DATA_BIT != 0 then
      mwebWriteCompactSize (UInt64.ofNat extraData.length) ++ extraData
    else [])

/-- `mweb_sign_input_from_state` -/
def mwebSignInputFromState (state : MwebInputState) (extraData : Bytes) : M Bytes := do
  let oskHash ← orFail (S.ecSeckeyTweakMul state.osk state.keyHash) .internal
  let sigKey ← orFail (S.ecSeckeyTweakAdd oskHash state.ephemeral) .internal
  orFail (← mwebSchnorrSign S sigKey (S.blake3 (inputMessage state extraData))) .internal

end Model

/-! ### What a derived input stands for -/

section Keys

variable {P : Type} [AddCommGroup P] [Module (ZMod order) P] {S : Secp P} (C : Curve S)

/-- The points behind a derived input: its commitment opens to the blinding factor and the value,
the spent output key is the output spend key's, the input key is the ephemeral key's, and the
stealth tweak is the difference of the two scalars. -/
structure InputKeys (state : MwebInputState) : Prop where
  commit : C.commitPoint state.outputCommit =
    some (scalar state.blind • C.G + (state.value.toNat : ZMod order) • C.H)
  spent : S.ecPubkeyParse state.spentOutputPk = some (scalar state.osk • C.G)
  input : S.ecPubkeyParse state.inputPubkey = some (scalar state.ephemeral • C.G)
  tweak : scalar state.stealthTweak = scalar state.ephemeral - scalar state.osk

/-- The expected output key is the spend key's, shifted and scaled as the secret is. -/
theorem expectedOutputKey_point {spendKey mi outKeyHash Ko : Bytes}
    (h : expectedOutputKey S spendKey mi outKeyHash = some Ko) :
    S.ecPubkeyParse Ko =
      some ((scalar outKeyHash * (scalar spendKey + scalar mi)) • C.G) := by
  simp only [expectedOutputKey, Option.bind_eq_bind, Option.bind_eq_some_iff, Option.pure_def,
    Option.some.injEq] at h
  obtain ⟨spendPub, hsp, miPub, hmi, spPk, hspPk, miPk, hmiPk, Bi, hBi, BiO, hBiO, rfl⟩ := h
  obtain rfl : scalar spendKey • C.G = spPk :=
    Option.some.inj ((C.fromPrivateKey hsp).symm.trans hspPk)
  obtain rfl : scalar mi • C.G = miPk :=
    Option.some.inj ((C.fromPrivateKey hmi).symm.trans hmiPk)
  obtain ⟨rfl, -⟩ := C.combine hBi
  obtain ⟨hpoint, hne⟩ := C.tweakMul hBiO
  rw [C.parse_serialize hne, hpoint, ← add_smul, smul_smul]

/-- **A derived input opens the commitment it names.** -/
theorem sat_mwebDeriveInputState (scanKey spendKey : Bytes) (addressIndex : UInt32)
    (features : UInt8) (spentOutputId spentOutputPk : Bytes) (amount : UInt64)
    (keyExchangePubkey : Bytes) (t : Tape) :
    Sat (mwebDeriveInputState S scanKey spendKey addressIndex features spentOutputId spentOutputPk
        amount keyExchangePubkey)
      (fun state _ => InputKeys C state ∧ state.value = amount ∧
        state.spentOutputPk = spentOutputPk)
      (fun _ _ => True) t := by
  simp only [mwebDeriveInputState, sat_bind, sat_check, sat_orFail, sat_pure, implies_true,
    and_true]
  intro _ kex _ kex' _ tweaked htweaked osk hosk Ko hKo hmatch
  obtain rfl : Ko = spentOutputPk := by simpa using hmatch
  refine sat_mwebBlindSwitch S _ _ fun r t₁ blind _ => sat_drawScalar 8 (fun r' t₂ => ?_) t₁
  intro ephemeral _ inputPubkey hinput outputCommit hcommit
  refine (sat_mwebScalarSubModN ephemeral osk).mono ?_ (fun _ _ h => h)
  rintro _ t₃ hsub stealthTweak rfl
  exact {
    commit := C.commit hcommit
    spent := by
      rw [expectedOutputKey_point C hKo, C.seckeyMul hosk, C.seckeyAdd htweaked, mul_comm]
    input := C.fromPrivateKey hinput
    tweak := hsub stealthTweak rfl }

end Keys

end Jade.Mweb
