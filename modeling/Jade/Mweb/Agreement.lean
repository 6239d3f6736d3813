/-
**Sender and receiver of an MWEB output agree.**

The sender multiplies the two points `A = a B` and `B` of an address by a scalar `s` of its own; the
receiver, who knows `a`, multiplies the published point `s B` by `a`.  Both arrive at `s a B`, so that
everything hashed from that point is the same on both sides: the factor of the output key, the
blinding factor of the commitment, and the masks of the value and of the nonce.

Main definitions:

* `Jade.Mweb.outputSharedSecret`, `Jade.Mweb.inputSharedSecret` — the shared secret as the sender and
  as the receiver computes it;
* `Jade.Mweb.switchedBlind` — the blind switch, when there is memory for it;
* `Jade.Mweb.Binding` — what the sender derives from the shared secret;
* `Jade.Mweb.Agreement` — what the receiver's state has in common with the output;
* `Jade.Mweb.InputMatches` — an input whose output key and commitment are the ones derived for it.

Main results:

* `Jade.Mweb.inputSharedSecret_eq` — the two secrets are one;
* `Jade.Mweb.sender_receiver_agree` — **an output built for an address can be spent by its owner**,
  and no signature is written for an input that does not match.
-/

import Jade.Mweb.Address
import Jade.Mweb.Balance

set_option relaxedAutoImplicit false
set_option autoImplicit false

namespace Jade.Mweb

open Exec

/-! ### Memory and chance -/

/-- Every allocation succeeds, and one of the next eight draws is a scalar. -/
structure Tape.Healthy (t : Tape) : Prop where
  memory : ∀ k, t.allocs k = true
  random : ∃ k < 8, mwebValidateScalar (Bytes.ofNatBE 32 (t.trng k)) = true

section Healthy

variable {E : MwebErr → Tape → Prop} {t : Tape}

theorem sat_alloc_of_memory {Q : Bool → Tape → Prop} (ht : ∀ k, t.allocs k = true)
    (h : ∀ t', (∀ k, t'.allocs k = true) → t'.trng = t.trng → Q true t') : Sat alloc Q E t := by
  simp only [alloc, sat_bind, sat_get, sat_set, sat_pure]
  rw [ht 0]
  exact h _ (fun k => ht (k + 1)) rfl

theorem sat_mwebScalarAddModN_of_memory {Q : Option Bytes → Tape → Prop} (a b : Bytes)
    (ht : ∀ k, t.allocs k = true)
    (h : ∀ r t', (∀ k, t'.allocs k = true) → t'.trng = t.trng → Q (some r) t') :
    Sat (mwebScalarAddModN a b) Q E t := by
  rw [mwebScalarAddModN, sat_bind]
  refine sat_alloc_of_memory ht fun t' ht' htrng => ?_
  simp only [if_true, sat_pure]
  exact h _ t' ht' htrng

theorem sat_mwebScalarSubModN_of_memory {Q : Option Bytes → Tape → Prop} (a b : Bytes)
    (ht : ∀ k, t.allocs k = true) (h : ∀ r t', Q (some r) t') :
    Sat (mwebScalarSubModN a b) Q E t := by
  rw [mwebScalarSubModN, mwebScalarNegModN, sat_bind, sat_bind]
  refine sat_mwebScalarAddModN_of_memory b zero32 ht fun r t₁ ht₁ _ => ?_
  simp only [sat_ite, sat_pure]
  exact ⟨fun _ => sat_mwebScalarAddModN_of_memory a _ ht₁ fun r' t₂ _ _ => h r' t₂,
    fun _ => sat_mwebScalarAddModN_of_memory a _ ht₁ fun r' t₂ _ _ => h r' t₂⟩

/-- A draw that is a scalar is found. -/
theorem sat_drawScalar_of_random {Q : Option Bytes → Tape → Prop} {tries : ℕ}
    (hr : ∃ k < tries, mwebValidateScalar (Bytes.ofNatBE 32 (t.trng k)) = true)
    (ht : ∀ k, t.allocs k = true)
    (h : ∀ s t', IsScalar s → (∀ k, t'.allocs k = true) → Q (some s) t') :
    Sat (drawScalar tries) Q E t := by
  induction tries generalizing t with
  | zero =>
      obtain ⟨k, hk, -⟩ := hr
      omega
  | succ tries ih =>
      rw [drawScalar]
      simp only [getRandom, sat_bind, sat_get, sat_set, sat_pure, sat_ite]
      constructor
      · intro hvalid
        exact h _ _ ((mwebValidateScalar_iff (Bytes.length_ofNatBE _ _)).1 hvalid) ht
      · intro hnot
        refine ih ?_ ht
        obtain ⟨k, hk, hvalid⟩ := hr
        cases k with
        | zero => exact absurd hvalid hnot
        | succ k => exact ⟨k, by omega, hvalid⟩

end Healthy

/-! ### What both sides compute -/

section Model

variable {P : Type} (S : Secp P)

/-- `n_16` of `derive_output_binding`: the nonce of the sender. -/
def senderNonce (senderKey : Bytes) : Bytes := (mwebHashed S MWEB_TAG_NONCE senderKey).take 16

/-- `s` of `derive_output_binding`: the factor of the sender. -/
def senderScalar (senderKey scanPubA spendPubB : Bytes) (value : UInt64) : Bytes :=
  mwebHashed S MWEB_TAG_SENDKEY
    (scanPubA ++ spendPubB ++ Bytes.ofNatLE 8 value.toNat ++ senderNonce S senderKey)

/-- `t` of `derive_output_binding`: the shared secret, hashed from `s A`. -/
def outputSharedSecret (senderKey scanPubA spendPubB : Bytes) (value : UInt64) : Option Bytes :=
  (scalePubkey S scanPubA (senderScalar S senderKey scanPubA spendPubB value)).map
    (mwebHashed S MWEB_TAG_DERIVE)

/-- `ss` of `mweb_derive_input_state`: the shared secret, hashed from `a K_e`. -/
def inputSharedSecret (scanKey keyExchangePubkey : Bytes) : Option Bytes :=
  (scalePubkey S keyExchangePubkey scanKey).map (mwebHashed S MWEB_TAG_DERIVE)

/-- `mweb_blind_switch` when no allocation fails. -/
def switchedBlind (blind : Bytes) (value : UInt64) : Option Bytes := do
  let commitBytes ← mwebPedersenCommit S blind value
  let genJ ← S.ecPubkeyParse GENERATOR_J
  let J ← S.ecPubkeyTweakMul genJ blind
  let tweak := S.sha256 (commitBytes ++ S.ecPubkeySerialize J)
  if Bytes.toNatBE tweak ≥ Bytes.toNatBE SECP256K1_ORDER then none
  else if Bytes.toNatBE blind ≥ Bytes.toNatBE SECP256K1_ORDER then none
  else
    some (Bytes.ofNatBE 32
      ((Bytes.toNatBE blind + Bytes.toNatBE tweak) % Bytes.toNatBE SECP256K1_ORDER))

/-- Taking the mask off a value. -/
def unmaskValue (ss : Bytes) (maskedValue : UInt64) : UInt64 :=
  maskedValue ^^^ UInt64.ofNat (Bytes.toNatLE ((mwebHashed S MWEB_TAG_VALUEMASK ss).take 8))

/-- Taking the mask off a nonce. -/
def unmaskNonce (ss maskedNonce : Bytes) : Bytes :=
  List.zipWith (· ^^^ ·) maskedNonce ((mwebHashed S MWEB_TAG_NONCEMASK ss).take 16)

/-- What the sender derives from the shared secret `ss`. -/
structure Binding (senderKey scanPubA spendPubB : Bytes) (value : UInt64) (ss : Bytes)
    (d : MwebDerivedOutput) : Prop where
  secret : outputSharedSecret S senderKey scanPubA spendPubB value = some ss
  outputPubkey :
    scalePubkey S spendPubB (mwebHashed S MWEB_TAG_OUTKEY ss) = some d.outputPubkey
  keyExchange : scalePubkey S spendPubB (senderScalar S senderKey scanPubA spendPubB value) =
    some d.keyExchangePubkey
  blind : switchedBlind S (mwebHashed S MWEB_TAG_BLIND ss) value = some d.blind
  commit : mwebPedersenCommit S d.blind value = some d.commit
  maskedValue : d.maskedValue =
    value ^^^ UInt64.ofNat (Bytes.toNatLE ((mwebHashed S MWEB_TAG_VALUEMASK ss).take 8))
  maskedNonce : d.maskedNonce = List.zipWith (· ^^^ ·) (senderNonce S senderKey)
    ((mwebHashed S MWEB_TAG_NONCEMASK ss).take 16)

variable {S}

/-- A scaled public key, with the point behind it. -/
theorem exists_of_scalePubkey {pubkey tweak bs : Bytes} {Q : P}
    (hQ : S.ecPubkeyParse pubkey = some Q) (h : scalePubkey S pubkey tweak = some bs) :
    ∃ R, S.ecPubkeyTweakMul Q tweak = some R ∧ S.ecPubkeySerialize R = bs := by
  simp only [scalePubkey, Option.bind_eq_bind, Option.bind_eq_some_iff, Option.pure_def,
    Option.some.injEq] at h
  obtain ⟨Q', hQ', R, hR, hbs⟩ := h
  obtain rfl := Option.some.inj (hQ.symm.trans hQ')
  exact ⟨R, hR, hbs⟩

/-- What comes out of the blind switch is the switched blinding factor, if anything does. -/
theorem sat_mwebBlindSwitch_eq {E : MwebErr → Tape → Prop} (blind : Bytes) (value : UInt64)
    (t : Tape) :
    Sat (mwebBlindSwitch S blind value)
      (fun r _ => ∀ b, r = some b → switchedBlind S blind value = some b) E t := by
  unfold mwebBlindSwitch switchedBlind addCanonical
  dsimp only
  split
  · exact (sat_pure _).2 (by simp)
  · next commitBytes jBytes heq =>
      simp only [Option.bind_eq_bind, Option.bind_eq_some_iff, Option.pure_def,
        Option.some.injEq, Prod.mk.injEq] at heq
      obtain ⟨_, hcommit, genJ, hgen, J, hJ, rfl, rfl⟩ := heq
      rw [sat_bind]
      refine sat_alloc fun ok t' => ?_
      simp only [sat_ite, sat_pure, hcommit, hgen, hJ, Option.bind_eq_bind, Option.bind_some]
      refine ⟨fun _ => ⟨fun _ _ h => by simp at h, fun htweak => ⟨fun _ _ h => by simp at h, ?_⟩⟩,
        fun _ _ h => by simp at h⟩
      intro hblind b hb
      rw [if_neg htweak, if_neg hblind]
      exact hb

theorem sat_mwebBlindSwitch_of_memory {E : MwebErr → Tape → Prop} {Q : Option Bytes → Tape → Prop}
    {blind b : Bytes} {value : UInt64} {t : Tape} (hb : switchedBlind S blind value = some b)
    (ht : ∀ k, t.allocs k = true)
    (h : ∀ t', (∀ k, t'.allocs k = true) → t'.trng = t.trng → Q (some b) t') :
    Sat (mwebBlindSwitch S blind value) Q E t := by
  simp only [switchedBlind, Option.bind_eq_bind, Option.bind_eq_some_iff] at hb
  obtain ⟨commitBytes, hcommit, genJ, hgen, J, hJ, hb⟩ := hb
  rw [Option.ite_none_left_eq_some, Option.ite_none_left_eq_some] at hb
  obtain ⟨htweak, hblind, hb⟩ := hb
  unfold mwebBlindSwitch addCanonical
  simp only [hcommit, hgen, hJ, Option.bind_eq_bind, Option.bind_some, Option.pure_def]
  rw [sat_bind]
  refine sat_alloc_of_memory ht fun t' ht' htrng => ?_
  rw [if_pos rfl, if_neg htweak, if_neg hblind, sat_pure, hb]
  exact h t' ht' htrng

/-- The sender derives the output from the shared secret. -/
theorem sat_deriveOutputBinding_binding (senderKey scanPubA spendPubB : Bytes) (value : UInt64)
    (t : Tape) :
    Sat (deriveOutputBinding S senderKey scanPubA spendPubB value)
      (fun d _ => ∃ ss, Binding S senderKey scanPubA spendPubB value ss d)
      (fun _ _ => True) t := by
  simp only [deriveOutputBinding, sat_bind, sat_orFail, sat_pure, implies_true, and_true]
  intro sA hsA Ko hKo Ke hKe
  refine (sat_mwebBlindSwitch_eq _ _ t).mono ?_ (fun _ _ h => h)
  intro r t' hr blind hblind commit hcommit Ks _
  refine ⟨mwebHashed S MWEB_TAG_DERIVE sA, ?_⟩
  exact {
    secret := by rw [outputSharedSecret, senderScalar, senderNonce, hsA]; rfl
    outputPubkey := hKo
    keyExchange := hKe
    blind := hr blind hblind
    commit := hcommit
    maskedValue := rfl
    maskedNonce := rfl }

theorem sat_mwebBuildOutput_binding (senderKey scanPubA spendPubB : Bytes) (value : UInt64)
    (features : UInt8) (extraData : Bytes) (t : Tape) :
    Sat (mwebBuildOutput S senderKey scanPubA spendPubB value features extraData)
      (fun b _ => ∃ ss, Binding S senderKey scanPubA spendPubB value ss b.toMwebDerivedOutput)
      (fun _ _ => True) t := by
  simp only [mwebBuildOutput, sat_bind, sat_check, implies_true, and_true]
  intro _ _ _
  refine (sat_deriveOutputBinding_binding senderKey scanPubA spendPubB value t).mono ?_
    (fun _ _ h => h)
  intro d t₁ hd
  refine sat_of_forall (fun rangeProof t₂ => ?_) (fun _ _ => trivial)
  exact sat_of_forall (fun signature t₃ => (sat_pure _).2 hd) (fun _ _ => trivial)

end Model

/-! ### The receiver -/

section Receiver

variable {P : Type} [AddCommGroup P] [Module (ZMod order) P] {S : Secp P} (C : PrimeCurve S)
  {scanKey spendKey payload senderKey ss : Bytes} {index : UInt32} {value : UInt64}
  {d : MwebDerivedOutput}

/-- **The two secrets are one**: `a (s B) = s (a B)`. -/
theorem inputSharedSecret_eq (haddr : AddressKeys C scanKey spendKey index payload)
    (hb : Binding S senderKey (payload.take 33) (payload.drop 33) value ss d) :
    ∃ Ke R, S.ecPubkeyParse d.keyExchangePubkey = some Ke ∧
      S.ecPubkeyTweakMul Ke scanKey = some R ∧
        mwebHashed S MWEB_TAG_DERIVE (S.ecPubkeySerialize R) = ss := by
  obtain ⟨B, -, hB, -, hparseB, hparseA⟩ := haddr.point
  obtain ⟨sA, hsA, hss⟩ := Option.map_eq_some_iff.1 hb.secret
  obtain ⟨R, hR, hRser⟩ := exists_of_scalePubkey hparseA hsA
  obtain ⟨Ke, hKe, hKeser⟩ := exists_of_scalePubkey hparseB hb.keyExchange
  obtain ⟨hRpoint, -⟩ := C.tweakMul hR
  obtain ⟨hKepoint, hKene⟩ := C.tweakMul hKe
  -- the receiver's product succeeds, and is the sender's
  obtain ⟨R', hR'⟩ := Option.isSome_iff_exists.1 ((C.tweakMul_isSome hKene).2 haddr.scan)
  obtain ⟨hR'point, -⟩ := C.tweakMul hR'
  have heq : R' = R := by rw [hR'point, hKepoint, hRpoint, smul_comm]
  refine ⟨Ke, R, ?_, heq ▸ hR', ?_⟩
  · rw [← hKeser]
    exact C.parse_serialize hKene
  · rw [hRser, hss]

/-- The output key the receiver expects is the one the sender published. -/
theorem expectedOutputKey_eq (haddr : AddressKeys C scanKey spendKey index payload)
    (hb : Binding S senderKey (payload.take 33) (payload.drop 33) value ss d) :
    IsScalar (mwebHashed S MWEB_TAG_OUTKEY ss) ∧
      expectedOutputKey S spendKey (addressScalar S scanKey index)
        (mwebHashed S MWEB_TAG_OUTKEY ss) = some d.outputPubkey := by
  obtain ⟨B, haddress, hB, -, hparseB, -⟩ := haddr.point
  obtain ⟨Ko, hKo, hKoser⟩ := exists_of_scalePubkey hparseB hb.outputPubkey
  refine ⟨(C.tweakMul_isSome hB).1 (by rw [hKo]; rfl), ?_⟩
  simp only [addressPoint, Option.bind_eq_bind, Option.bind_eq_some_iff] at haddress
  obtain ⟨spendPub, hspend, miPub, hmi, spendPk, hspendPk, miPk, hmiPk, hcombine⟩ := haddress
  simp only [expectedOutputKey, hspend, hmi, hspendPk, hmiPk, hcombine, hKo, Option.bind_eq_bind,
    Option.bind_some, Option.pure_def, hKoser]

/-- The output spend key can be formed: the shifted spend key is not zero, or the address would be
the point at infinity. -/
theorem exists_osk (haddr : AddressKeys C scanKey spendKey index payload)
    (hkey : IsScalar (mwebHashed S MWEB_TAG_OUTKEY ss)) :
    ∃ tweaked osk, S.ecSeckeyTweakAdd spendKey (addressScalar S scanKey index) = some tweaked ∧
      S.ecSeckeyTweakMul tweaked (mwebHashed S MWEB_TAG_OUTKEY ss) = some osk := by
  obtain ⟨B, -, hB, hpoint, -⟩ := haddr.point
  have hne : scalar spendKey + scalar (addressScalar S scanKey index) ≠ 0 := by
    intro h0
    rw [h0, zero_smul] at hpoint
    exact hB hpoint
  obtain ⟨tweaked, htweaked⟩ :=
    Option.isSome_iff_exists.1 (C.seckeyAdd_isSome haddr.spend haddr.shift hne)
  obtain ⟨osk, hosk⟩ := Option.isSome_iff_exists.1
    (C.seckeyMul_isSome (C.seckeyAdd_isScalar htweaked) hkey)
  exact ⟨tweaked, osk, htweaked, hosk⟩

/-- What the receiver's state has in common with the output. -/
structure Agreement (senderKey scanPubA spendPubB scanKey : Bytes) (value : UInt64)
    (d : MwebDerivedOutput) (state : MwebInputState) : Prop where
  secret : ∃ ss, outputSharedSecret S senderKey scanPubA spendPubB value = some ss ∧
    inputSharedSecret S scanKey d.keyExchangePubkey = some ss ∧
      unmaskValue S ss d.maskedValue = value ∧
        unmaskNonce S ss d.maskedNonce = senderNonce S senderKey
  blind : state.blind = d.blind
  commit : state.outputCommit = d.commit
  value : state.value = value
  spendSecret : S.ecPubkeyParse d.outputPubkey = some (scalar state.osk • C.G)

theorem zipWith_xor_cancel {xs ys : Bytes} (h : xs.length ≤ ys.length) :
    List.zipWith (· ^^^ ·) (List.zipWith (· ^^^ ·) xs ys) ys = xs := by
  induction xs generalizing ys with
  | nil => rfl
  | cons x xs ih =>
      cases ys with
      | nil => simp at h
      | cons y ys =>
          simp only [List.length_cons, Nat.add_le_add_iff_right] at h
          simp only [List.zipWith_cons_cons, ih h, UInt8.xor_assoc, UInt8.xor_self, UInt8.xor_zero]

include C in
/-- Taking off the masks gives back what they were put on. -/
theorem unmask_binding {scanPubA spendPubB : Bytes}
    (hb : Binding S senderKey scanPubA spendPubB value ss d) :
    unmaskValue S ss d.maskedValue = value ∧
      unmaskNonce S ss d.maskedNonce = senderNonce S senderKey := by
  constructor
  · rw [unmaskValue, hb.maskedValue, UInt64.xor_assoc, UInt64.xor_self, UInt64.xor_zero]
  · rw [unmaskNonce, hb.maskedNonce]
    refine zipWith_xor_cancel ?_
    simp only [senderNonce, mwebHashed, List.length_take, C.length_blake3]
    omega

/-- **The receiver recovers what the sender built.** -/
theorem sat_mwebDeriveInputState_agrees (haddr : AddressKeys C scanKey spendKey index payload)
    (hb : Binding S senderKey (payload.take 33) (payload.drop 33) value ss d) {features : UInt8}
    (hfeatures : (features &&& MWEB_INPUT_STEALTH_KEY_BIT != 0) = true) (spentOutputId : Bytes)
    {t : Tape} (ht : t.Healthy) :
    Sat (mwebDeriveInputState S scanKey spendKey index features spentOutputId d.outputPubkey value
        d.keyExchangePubkey)
      (fun state _ => Agreement C senderKey (payload.take 33) (payload.drop 33) scanKey value d
        state)
      (fun _ _ => False) t := by
  obtain ⟨Ke, R, hKe, hR, hss⟩ := inputSharedSecret_eq C haddr hb
  obtain ⟨hkey, hKo⟩ := expectedOutputKey_eq C haddr hb
  obtain ⟨tweaked, osk, htweaked, hosk⟩ := exists_osk C haddr hkey
  have hsecret : inputSharedSecret S scanKey d.keyExchangePubkey = some ss := by
    simp only [inputSharedSecret, scalePubkey, hKe, hR, Option.bind_eq_bind, Option.bind_some,
      Option.pure_def, Option.map_some, hss]
  have hspent : S.ecPubkeyParse d.outputPubkey = some (scalar osk • C.G) := by
    rw [expectedOutputKey_point C.toCurve hKo, C.seckeyMul hosk, C.seckeyAdd htweaked, mul_comm]
  obtain ⟨hvalue, hnonce⟩ := unmask_binding C hb
  rw [addressScalar] at htweaked hKo
  simp only [mwebDeriveInputState, hfeatures, hKe, hR, hss, htweaked, hosk, hKo, orFail, check,
    beq_self_eq_true, if_true, sat_bind, sat_pure]
  refine sat_mwebBlindSwitch_of_memory hb.blind ht.memory fun t₁ ht₁ htrng => ?_
  simp only [sat_pure]
  refine sat_drawScalar_of_random (htrng ▸ ht.random) ht₁ fun ephemeral t₂ heph ht₂ => ?_
  obtain ⟨inputPubkey, hinput⟩ := Option.isSome_iff_exists.1 (C.fromPrivateKey_isSome.2 heph)
  simp only [sat_pure, hinput, hb.commit]
  refine sat_mwebScalarSubModN_of_memory ephemeral osk ht₂ fun stealthTweak t₃ => ?_
  simp only [sat_pure]
  exact {
    secret := ⟨ss, hb.secret, hsecret, hvalue, hnonce⟩
    blind := rfl
    commit := rfl
    value := rfl
    spendSecret := hspent }

end Receiver

/-! ### Inputs that match -/

section Inputs

variable {P : Type} {env : Env P}

/-- The output key and the commitment the host gives for an input are the ones that follow from the
wallet's keys, the index and the value. -/
def InputMatches (env : Env P) (inp : PsbtInput) : Prop :=
  ∃ scanKey spendKey ss blind,
    (originPath inp.mwebScanKeyOrigin).bind env.mwebDeriveKeyFromPath = some scanKey ∧
    (originPath inp.mwebSpendKeyOrigin).bind env.mwebDeriveKeyFromPath = some spendKey ∧
    inputSharedSecret env.toSecp scanKey inp.mwebKeyExchangePubkey = some ss ∧
    expectedOutputKey env.toSecp spendKey (addressScalar env.toSecp scanKey inp.mwebAddressIndex)
      (mwebHashed env.toSecp MWEB_TAG_OUTKEY ss) = some inp.mwebSpentOutputPubkey ∧
    switchedBlind env.toSecp (mwebHashed env.toSecp MWEB_TAG_BLIND ss) inp.mwebInputAmount =
      some blind ∧
    mwebPedersenCommit env.toSecp blind inp.mwebInputAmount = some inp.mwebSpentOutputCommit

theorem sat_deriveOwnedInput_matches (inp : PsbtInput) (i : ℕ) (t : Tape) :
    Sat (deriveOwnedInput env inp i) (fun si _ => si.psbtIndex = i ∧ InputMatches env inp)
      (fun _ _ => True) t := by
  simp only [deriveOwnedInput, mwebDeriveInputState, sat_bind, sat_check, sat_orFail, sat_pure,
    implies_true, and_true]
  intro _ _ scanItem _ spendItem _ _ scanPath hscanPath scanKey hscan spendPath hspendPath spendKey
    hspend _ kex hkex kex' hkex' tweaked _ osk _ Ko hKo hmatch
  refine (sat_mwebBlindSwitch_eq _ _ t).mono ?_ (fun _ _ h => h)
  intro r t₁ hr blind hblind
  refine sat_drawScalar 8 (fun r' t₂ ephemeral _ inputPubkey _ commit hcommit => ?_) t₁
  refine sat_of_forall (fun r'' t₃ stealthTweak _ _ heq => ⟨trivial, ?_⟩) fun _ _ => trivial
  refine ⟨scanKey, spendKey, mwebHashed env.toSecp MWEB_TAG_DERIVE
    (env.ecPubkeySerialize kex'), blind, by rw [hscanPath]; exact hscan,
    by rw [hspendPath]; exact hspend, ?_, ?_, hr blind hblind, ?_⟩
  · simp only [inputSharedSecret, scalePubkey, hkex, hkex', Option.bind_eq_bind, Option.bind_some,
      Option.pure_def, Option.map_some]
  · rw [← beq_iff_eq.1 hmatch]
    exact hKo
  · rw [beq_iff_eq.1 heq]
    exact hcommit

/-- Every input of the session matches. -/
def AllMatch (env : Env P) (p : Psbt) (s : MwebSession) : Prop :=
  ∀ si ∈ s.inputs, ∃ inp, p.inputs[si.psbtIndex]? = some inp ∧ InputMatches env inp

theorem keeps_buildInput_allMatch {p : Psbt} {inp : PsbtInput} {i : ℕ}
    (hi : p.inputs[i]? = some inp) :
    Keeps (fun b => AllMatch env p b.session) (buildInput env inp i) := by
  refine Keeps.ite ?_ (Keeps.pure _)
  intro b hb
  rw [sat_bind, sat_call]
  refine (sat_deriveOwnedInput_matches inp i b.tape).mono ?_ (fun _ _ _ => hb)
  rintro si t ⟨hidx, hsi⟩
  refine ((Keeps.check _ _).bind fun _ => keeps_current.bind fun _ => (keeps_call _).bind
    fun total => keeps_update fun s hs => ?_) { b with tape := t } hb
  intro si' hmem
  rcases List.mem_append.1 hmem with hmem | hmem
  · exact hs si' hmem
  · obtain rfl : si' = si := List.mem_singleton.1 hmem
    exact ⟨inp, by rw [hidx, hi], hsi⟩

/-- Only the loop over the inputs adds inputs to the session. -/
theorem sat_buildBody_allMatch (p : Psbt) (kernel : PsbtKernel) {b : Build}
    (h : AllMatch env p b.session) :
    Sat (buildBody env p kernel) (fun _ b' => AllMatch env p b'.session) (fun _ _ => True) b := by
  refine sat_buildBody_of (I := fun _ _ _ => AllMatch env p) (Q := AllMatch env p) ?_ ?_ ?_ ?_ ?_ h
  · intro _ _ _ s s' hsame hs si hsi
    exact hs si (hsame.inputs ▸ hsi)
  · intro pre inp b hi hb
    exact (keeps_buildInput_allMatch hi b hb).mono (fun _ _ h => h) fun _ _ _ => trivial
  · intro pre po b hb
    exact (keeps_buildOutput_of env po pre.length (fun _ _ _ h => h) b hb).mono (fun _ _ h => h)
      fun _ _ _ => trivial
  · intro pre item b hb
    exact (keeps_buildPegout_of env item.2 (fun _ _ _ h => h) b hb).mono (fun _ _ h => h)
      fun _ _ _ => trivial
  · intro features stealthKey b _ _ _ hb _ _
    exact (keeps_buildKernel_of env kernel features stealthKey (fun _ _ _ _ _ _ h => h) b hb).mono
      (fun _ _ h => h) fun _ _ _ => trivial

/-- The inputs of a session that was opened match. -/
theorem sat_mwebSessionBegin_allMatch (networkId : Network) (w : World) :
    Sat (mwebSessionBegin env networkId)
      (fun _ w' => w'.psbt = w.psbt ∧ ∃ s, w'.session = some s ∧ AllMatch env w.psbt s)
      (fun _ _ => True) w := by
  refine (sat_mwebSessionBegin_of (J := fun s => s.inputs = [])
    (R := fun p _ s => AllMatch env p s) (fun _ _ => rfl)
    (fun s s' hsame h => by rw [hsame.inputs, h]) ?_ networkId w).mono ?_ (fun _ _ h => h)
  · intro p kernel b _ h
    exact sat_buildBody_allMatch p kernel fun si hsi => by simp [h] at hsi
  · rintro _ w' ⟨-, hpsbt, -, s, -, hs, hall⟩
    exact ⟨hpsbt, s, hs, hall⟩

/-! ### Signatures -/

/-- Where the MWEB signature of an input has changed, the input matches. -/
def SignaturesMatch (env : Env P) (p₀ p : Psbt) : Prop :=
  ∀ (i : ℕ) (inp₀ inp : PsbtInput), p₀.inputs[i]? = some inp₀ → p.inputs[i]? = some inp →
    inp.mwebInputSignature ≠ inp₀.mwebInputSignature → InputMatches env inp₀

/-- No MWEB signature has changed. -/
def SameSignatures (p₀ p : Psbt) : Prop :=
  ∀ i : ℕ, (p.inputs[i]?).map PsbtInput.mwebInputSignature =
    (p₀.inputs[i]?).map PsbtInput.mwebInputSignature

theorem SameSignatures.signaturesMatch {p₀ p : Psbt} (h : SameSignatures p₀ p) :
    SignaturesMatch env p₀ p := by
  intro i inp₀ inp h₀ h₁ hne
  have hi := h i
  rw [h₀, h₁] at hi
  exact absurd (Option.some.inj hi) hne

/-- Signing a standard input and confirming a pegout write no MWEB signature. -/
theorem SameSignatures.step {p₀ : Psbt} {w : World} (h : SameSignatures p₀ w.psbt)
    (st : SessionStep) : SameSignatures p₀ (st.run w).psbt := by
  cases st with
  | confirmPegout idx => exact h
  | signInput index a b c flags =>
      intro i
      rw [← h i]
      simp only [SessionStep.run, SessionStep.onPsbt, List.getElem?_modify]
      by_cases hi : index = i
      · cases w.psbt.inputs[i]? with
        | none => rfl
        | some inp => simp [hi, signedInput]
      · simp [hi]

theorem SameSignatures.run {p₀ : Psbt} {w : World} (h : SameSignatures p₀ w.psbt)
    (steps : List SessionStep) : SameSignatures p₀ (steps.foldl SessionStep.run w).psbt := by
  induction steps generalizing w with
  | nil => exact h
  | cons st steps ih => exact ih (h.step st)

/-- No step adds an input to the session. -/
theorem AllMatch.run {p₀ : Psbt} {w : World} {s : MwebSession} (hw : w.session = some s)
    (h : AllMatch env p₀ s) (steps : List SessionStep) :
    ∃ s', (steps.foldl SessionStep.run w).session = some s' ∧ AllMatch env p₀ s' := by
  induction steps generalizing w s with
  | nil => exact ⟨s, hw, h⟩
  | cons st steps ih =>
      refine ih (w := st.run w) (s := st.onSession s) (by simp [SessionStep.run, hw]) ?_
      cases st with
      | signInput index a b c flags => exact h
      | confirmPegout idx => exact h

/-- A commit that succeeds writes signatures for the inputs of the session only. -/
theorem sat_commitBody_signaturesMatch {p₀ : Psbt} {w : World} {s : MwebSession}
    (hs : AllMatch env p₀ s) (hsame : SameSignatures p₀ w.psbt) :
    Sat (commitBody env s) (fun _ w' => SignaturesMatch env p₀ w'.psbt) (fun _ _ => True) w := by
  simp only [commitBody, sat_bind, sat_check, implies_true, and_true]
  intro _
  refine (sat_commitOutputs s.outputs w).mono ?_ (fun _ _ _ => trivial)
  intro _ w₁ hw₁
  refine (sat_commitInputs s.inputs w₁).mono ?_ (fun _ _ _ => trivial)
  rintro _ w₂ ⟨signed, hsigned, hw₂⟩
  simp only [commitKernel, sat_bind, sat_get, sat_check, writePsbt, sat_modify, implies_true,
    and_true]
  intro _ i inp₀ inp h₀ hi hne
  simp only [hw₂, hw₁, writeOffsets] at hi
  by_cases hmem : ∃ entry ∈ signed, entry.1.psbtIndex = i
  · obtain ⟨entry, hentry, rfl⟩ := hmem
    have hsi : entry.1 ∈ s.inputs := hsigned ▸ List.mem_map_of_mem hentry
    obtain ⟨inp', hinp', hmatches⟩ := hs _ hsi
    rw [h₀] at hinp'
    obtain rfl := Option.some.inj hinp'
    exact hmatches
  · -- an input that is not in the session keeps its signature
    rw [getElem?_writeAll_of_ne fun entry hentry heq => hmem ⟨entry, hentry, heq⟩] at hi
    exact hsame.signaturesMatch i inp₀ inp h₀ hi hne

theorem sat_mwebSessionCommit_signaturesMatch {p₀ : Psbt} {w : World} {s : MwebSession}
    (hw : w.session = some s) (hs : AllMatch env p₀ s) (hguard : Guarded s p₀ w.psbt)
    (hsame : SameSignatures p₀ w.psbt) :
    Sat (mwebSessionCommit env) (fun _ w' => SignaturesMatch env p₀ w'.psbt)
      (fun _ w' => SignaturesMatch env p₀ w'.psbt) w := by
  simp only [mwebSessionCommit, sat_bind, sat_get, hw, sat_tryCatch, sat_modify, sat_throw]
  refine ((sat_commitBody_signaturesMatch hs hsame).and
    (keeps_commitBody env w ⟨hw, hguard, rfl⟩)).mono (fun _ _ h => h.1) ?_
  rintro _ w' ⟨-, hw', hguard', -⟩
  -- the abort puts the inputs back as they were
  refine SameSignatures.signaturesMatch fun i => ?_
  simp only [mwebSessionAbort, hw', hguard'.undo]

/-- The MWEB part of a signing run: open the session, sign the standard inputs and confirm the
pegouts, commit. -/
def signingRun (env : Env P) (networkId : Network) (steps : List SessionStep) : W Unit := do
  mwebSessionBegin env networkId
  modify (steps.foldl SessionStep.run)
  mwebSessionCommit env

/-- **No signature is written for an input that does not match**, however the run ends. -/
theorem sat_signingRun (networkId : Network) (steps : List SessionStep) (w : World) :
    Sat (signingRun env networkId steps) (fun _ w' => SignaturesMatch env w.psbt w'.psbt)
      (fun _ w' => SignaturesMatch env w.psbt w'.psbt) w := by
  have hrefl : SameSignatures w.psbt w.psbt := fun _ => rfl
  simp only [signingRun, sat_bind, sat_modify]
  refine ((sat_mwebSessionBegin env networkId w).and
    (sat_mwebSessionBegin_allMatch networkId w)).mono ?_ ?_
  · rintro _ w₁ ⟨⟨hpsbt, s, hs, hguard⟩, -, s', hs', hall⟩
    obtain rfl : s = s' := Option.some.inj (hs.symm.trans hs')
    obtain ⟨s₁, hs₁, hguard₁⟩ := Guarded.run (w := w₁) (hpsbt ▸ hguard) hs steps
    obtain ⟨s₂, hs₂, hall₂⟩ := hall.run hs steps
    obtain rfl : s₁ = s₂ := Option.some.inj (hs₁.symm.trans hs₂)
    have hsame : SameSignatures w.psbt (steps.foldl SessionStep.run w₁).psbt :=
      SameSignatures.run (w := w₁) (hpsbt ▸ hrefl) steps
    exact sat_mwebSessionCommit_signaturesMatch hs₁ hall₂ (hpsbt ▸ hguard₁) hsame
  · rintro e w' ⟨⟨hpsbt, -⟩, -⟩
    rw [hpsbt]
    exact hrefl.signaturesMatch

end Inputs

/-! ### A payment on the line -/

def lineEnv : Env (ZMod order) where
  toSecp := lineSecp
  walletFingerprint := [1, 2, 3, 4]
  mwebDeriveKeyFromPath path := some (Bytes.ofNatBE 32 path.length)
  scriptpubkeyGetType _ len := some (if len = 22 then .p2wpkh else .other)

/-- Every allocation succeeds and every draw is 5. -/
def fiveTape : Tape where
  allocs := fun _ => true
  trng := fun _ => 5

/-- No allocation succeeds. -/
def noMemory : Tape where
  allocs := fun _ => false
  trng := fun _ => 5

/-- The keys 1 and 2, the index 7. -/
def linePayload : Option Bytes :=
  addressPayload lineSecp (Bytes.ofNatBE 32 1) (Bytes.ofNatBE 32 2) 7

/-- 10 for the address, sent with the key 3. -/
def linePayment (payload : Bytes) : M MwebBuiltOutput :=
  mwebBuildOutput lineSecp (Bytes.ofNatBE 32 3) (payload.take 33) (payload.drop 33) 10
    MWEB_OUTPUT_STANDARD_FIELDS_BIT []

/-- The receiver of the payment. -/
def lineReceive (features : UInt8) (b : MwebBuiltOutput) : M MwebInputState :=
  mwebDeriveInputState lineSecp (Bytes.ofNatBE 32 1) (Bytes.ofNatBE 32 2) 7 features [] b.outputPubkey
    10 b.keyExchangePubkey

/-- The outcome of receiving the payment. -/
def lineOutcome (features : UInt8) (u : Tape) : Option (Option MwebErr) :=
  match linePayload with
  | none => none
  | some payload =>
      match (linePayment payload).run fiveTape with
      | .error _ _ => none
      | .ok b _ =>
          match (lineReceive features b).run u with
          | .ok _ _ => some none
          | .error e _ => some (some e)

/-- The payment is made, and `lineOutcome` is what becomes of it. -/
theorem exists_linePayment : ∃ payload b t', linePayload = some payload ∧
    (linePayment payload).run fiveTape = .ok b t' ∧ ∀ features u, lineOutcome features u =
      match (lineReceive features b).run u with
      | .ok _ _ => some none
      | .error e _ => some (some e) := by
  have hok : (lineOutcome 1 fiveTape == some none) = true := by decide +kernel
  unfold lineOutcome at hok ⊢
  cases hpayload : linePayload with
  | none => simp [hpayload] at hok
  | some payload =>
      cases hrun : (linePayment payload).run fiveTape with
      | error e t' => simp [hpayload, hrun] at hok
      | ok b t' => exact ⟨payload, b, t', rfl, hrun, fun _ _ => by simp only [hrun]⟩

theorem fiveTape_healthy : fiveTape.Healthy :=
  ⟨fun _ => rfl, 0, by decide, by decide +kernel⟩

/-! ### The result -/

/-- **Sender and receiver agree.**  An output built for the address with some index is recovered,
with all that belongs to it, by the owner of the address, who names the stealth-key feature and does
not run out of memory or luck; and no MWEB signature is written for an input whose output key or
commitment does not match. -/
theorem sender_receiver_agree {P : Type} [AddCommGroup P] [Module (ZMod order) P] {env : Env P}
    (C : PrimeCurve env.toSecp) :
    (∀ (scanKey spendKey : Bytes) (index : UInt32) (payload senderKey : Bytes) (value : UInt64)
        (outputFeatures : UInt8) (extraData : Bytes) (t : Tape) (b : MwebBuiltOutput) (t' : Tape),
      addressPayload env.toSecp scanKey spendKey index = some payload →
      (mwebBuildOutput env.toSecp senderKey (payload.take 33) (payload.drop 33) value
        outputFeatures extraData).run t = .ok b t' →
      ∀ (features : UInt8) (spentOutputId : Bytes) (u : Tape),
        (features &&& MWEB_INPUT_STEALTH_KEY_BIT != 0) = true → u.Healthy →
        ∃ state u', (mwebDeriveInputState env.toSecp scanKey spendKey index features spentOutputId
            b.outputPubkey value b.keyExchangePubkey).run u = .ok state u' ∧
          Agreement C senderKey (payload.take 33) (payload.drop 33) scanKey value
            b.toMwebDerivedOutput state) ∧
      ∀ (networkId : Network) (steps : List SessionStep) (w : World),
        Sat (signingRun env networkId steps) (fun _ w' => SignaturesMatch env w.psbt w'.psbt)
          (fun _ w' => SignaturesMatch env w.psbt w'.psbt) w := by
  refine ⟨?_, sat_signingRun⟩
  intro scanKey spendKey index payload senderKey value outputFeatures extraData t b t' haddr hbuild
    features spentOutputId u hfeatures hu
  obtain ⟨ss, hb⟩ := (sat_mwebBuildOutput_binding senderKey (payload.take 33) (payload.drop 33)
    value outputFeatures extraData t).ok hbuild
  exact (sat_mwebDeriveInputState_agrees C (AddressKeys.of_payload C haddr) hb hfeatures
    spentOutputId hu).exists_ok

/-- The payment of 10 is recovered. -/
theorem sender_receiver_agree_line : ∃ payload b state u', linePayload = some payload ∧
    (lineReceive MWEB_INPUT_STEALTH_KEY_BIT b).run fiveTape = .ok state u' ∧
      Agreement lineCurve (Bytes.ofNatBE 32 3) (payload.take 33) (payload.drop 33)
        (Bytes.ofNatBE 32 1) 10 b.toMwebDerivedOutput state := by
  obtain ⟨payload, b, t', hpayload, hrun, -⟩ := exists_linePayment
  obtain ⟨state, u', hstate, hagree⟩ := (@sender_receiver_agree _ _ _ lineEnv lineCurve).1
    (Bytes.ofNatBE 32 1) (Bytes.ofNatBE 32 2) 7 payload (Bytes.ofNatBE 32 3) 10
    MWEB_OUTPUT_STANDARD_FIELDS_BIT [] fiveTape b t' hpayload hrun MWEB_INPUT_STEALTH_KEY_BIT []
    fiveTape (by decide) fiveTape_healthy
  exact ⟨payload, b, state, u', hpayload, hstate, hagree⟩

/-- The owner of the address does not recover the payment without the stealth-key feature, nor
without memory. -/
theorem sender_receiver_agree_fails : ∃ payload b t', linePayload = some payload ∧
    (linePayment payload).run fiveTape = .ok b t' ∧
      (∃ u', (lineReceive 0 b).run fiveTape = .error .invalidScalar u') ∧
        ∃ u', (lineReceive MWEB_INPUT_STEALTH_KEY_BIT b).run noMemory = .error .internal u' := by
  obtain ⟨payload, b, t', hpayload, hrun, houtcome⟩ := exists_linePayment
  have hfeature := houtcome 0 fiveTape
  have hmemory := houtcome MWEB_INPUT_STEALTH_KEY_BIT noMemory
  have h0 : lineOutcome 0 fiveTape = some (some .invalidScalar) := by decide +kernel
  have h1 : lineOutcome MWEB_INPUT_STEALTH_KEY_BIT noMemory = some (some .internal) := by
    decide +kernel
  rw [h0] at hfeature
  rw [h1] at hmemory
  refine ⟨payload, b, t', hpayload, hrun, ?_, ?_⟩
  · cases hreceive : (lineReceive 0 b).run fiveTape with
    | ok state u' => simp [hreceive] at hfeature
    | error e u' =>
        rw [hreceive] at hfeature
        cases hfeature
        exact ⟨u', rfl⟩
  · cases hreceive : (lineReceive MWEB_INPUT_STEALTH_KEY_BIT b).run noMemory with
    | ok state u' => simp [hreceive] at hmemory
    | error e u' =>
        rw [hreceive] at hmemory
        cases hmemory
        exact ⟨u', rfl⟩

end Jade.Mweb
