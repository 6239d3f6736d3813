/-
**The Schnorr signatures verify (`mweb_schnorr.c` and its callers).**

`mweb_schnorr_sign` hashes a nonce, writes the abscissa of its point into the caller's buffer, and
negates the nonce unless the ordinate is a quadratic residue, which it finds out with Euler's
criterion on big integers.  The challenge is hashed from the buffer, multiplied by the secret key in
place, and the nonce is added.  A failure on the way wipes the buffer.

The callers sign with keys that are put together from several secrets.  A verifier has only the
public points: those of the kernel excess and the stealth excess, or of the spent output and the
input key, with the factor that is hashed from their encodings.

The residue predicate stays abstract, as the group does: all that is asked of it is that Euler's
criterion decides it, and that it holds of one of two opposite points.

Main definitions:

* `Jade.Mweb.QuadCurve` — the group with abscissas and the residue predicate;
* `Jade.Mweb.Verifies` — what a verifier checks;
* `Jade.Mweb.mwebSchnorrSignInto` — `mweb_schnorr_sign` with the caller's buffer;
* `Jade.Mweb.KernelVerifies`, `Jade.Mweb.InputVerifies`, `Jade.Mweb.OutputVerifies` — the callers'
  signatures, from public data.

Main results:

* `Jade.Mweb.sat_mwebSchnorrSign` — a signature verifies under the public point of the key;
* `Jade.Mweb.mwebSchnorrSignInto_eq` — the buffer has the signature, or is wiped;
* `Jade.Mweb.signatures_verify` — **every signature of the subsystem verifies**.
-/

import Jade.Lib.Schnorr
import Jade.Mweb.Kernel
import Jade.Mweb.Output
import Jade.Mweb.PrimeOrder

set_option relaxedAutoImplicit false
set_option autoImplicit false

namespace Jade.Mweb

open Exec

/-! ### The residue predicate -/

/-- Euler's criterion for the ordinate `y`, as a number. -/
def EulerCriterion (y : Bytes) : Prop :=
  Bytes.toNatBE y ^ Bytes.toNatBE SECP256K1_HALF_P_MINUS_1 % Bytes.toNatBE SECP256K1_FIELD_PRIME = 1

/-- **`fe_is_quad` decides Euler's criterion.** -/
theorem sat_feIsQuad {E : MwebErr → Tape → Prop} (y : Bytes) (t : Tape) :
    Sat (feIsQuad y) (fun r _ => ∀ isQuad, r = some isQuad → (isQuad = true ↔ EulerCriterion y))
      E t := by
  rw [feIsQuad, sat_bind]
  refine sat_alloc fun ok t' => ?_
  cases ok with
  | false => simp
  | true =>
      simp only [if_true, sat_pure, Option.some.injEq]
      rintro isQuad rfl
      have hbits : Bytes.toNatBE SECP256K1_HALF_P_MINUS_1 < 2 ^ 256 := by decide
      rw [mpiExpMod_eq _ hbits, beq_iff_eq, EulerCriterion]

/-- The hash kept in the state of an input is that of its two keys. -/
theorem sat_mwebDeriveInputState_keyHash {P : Type} (S : Secp P) (scanKey spendKey : Bytes)
    (addressIndex : UInt32) (features : UInt8) (spentOutputId spentOutputPk : Bytes)
    (amount : UInt64) (keyExchangePubkey : Bytes) (t : Tape) :
    Sat (mwebDeriveInputState S scanKey spendKey addressIndex features spentOutputId spentOutputPk
        amount keyExchangePubkey)
      (fun state _ => state.keyHash = S.blake3 (state.inputPubkey ++ state.spentOutputPk))
      (fun _ _ => True) t := by
  simp only [mwebDeriveInputState, sat_bind, sat_check, sat_orFail, sat_pure, implies_true,
    and_true]
  intros
  refine sat_mwebBlindSwitch S _ _ fun _ _ _ _ => sat_drawScalar 8 (fun _ _ => ?_) _
  intros
  exact sat_of_forall (fun _ _ => trivial) fun _ _ => trivial

section Curve

variable {P : Type} [AddCommGroup P] [Module (ZMod order) P]

/-- The group with what the signatures need: an abscissa and a residue predicate, which are read off
the uncompressed serialisation, and the negation of keys. -/
structure QuadCurve (S : Secp P) extends Curve S where
  choice : Schnorr.SignChoice P Bytes
  length_uncompressed : ∀ R, (S.ecPubkeySerializeUncompressed R).length = 65
  abscissa_eq : ∀ R, choice.abscissa R = Bytes.field 1 32 (S.ecPubkeySerializeUncompressed R)
  chosen_iff : ∀ {R}, R ≠ 0 →
    (choice.chosen R ↔ EulerCriterion (Bytes.field 33 32 (S.ecPubkeySerializeUncompressed R)))
  negate : ∀ {k r}, S.ecSeckeyNegate k = some r → scalar r = -scalar k
  length_seckeyAdd : ∀ {k t r}, S.ecSeckeyTweakAdd k t = some r → r.length = 32

variable {S : Secp P} (C : QuadCurve S)

/-- **What a verifier checks**: a signature `r ‖ s` of 64 bytes on `msg` under the point `pub`, with
the challenge hashed from `r`, the encoding of `pub` and the message. -/
structure Verifies (pub : P) (msg signature : Bytes) : Prop where
  length : signature.length = 64
  accepts : Schnorr.Accepts C.choice C.G pub (signature.take 32) (scalar (signature.drop 32))
    (scalar (S.sha256 (signature.take 32 ++ S.ecPubkeySerialize pub ++ msg)))

/-! ### The signature -/

/-- The nonce is negated unless the point is the chosen one. -/
theorem isChosenNonce {k k' : Bytes} {R : P} {isQuad : Bool} (hR : S.ecPubkeyCreate k = some R)
    (hquad : isQuad = true ↔
      EulerCriterion (Bytes.field 33 32 (S.ecPubkeySerializeUncompressed R)))
    (hk' : (if isQuad then some k else S.ecSeckeyNegate k) = some k') :
    Schnorr.IsChosenNonce C.choice C.G (scalar k) (scalar k') := by
  obtain ⟨hpoint, hne⟩ := C.create hR
  rw [← C.chosen_iff hne, hpoint] at hquad
  cases isQuad with
  | true =>
      obtain rfl : k = k' := Option.some.inj hk'
      exact .inl ⟨hquad.1 rfl, rfl⟩
  | false =>
      refine .inr ⟨fun hchosen => ?_, C.negate hk'⟩
      simpa using hquad.2 hchosen

/-- The response to a chosen nonce makes a signature. -/
theorem verifies_schnorrRespond {secretKey msg k k' signature : Bytes} {R : P}
    (hR : S.ecPubkeyCreate k = some R)
    (hk' : Schnorr.IsChosenNonce C.choice C.G (scalar k) (scalar k'))
    (h : schnorrRespond S secretKey msg
      (Bytes.field 1 32 (S.ecPubkeySerializeUncompressed R)) k' = some signature) :
    Verifies C (scalar secretKey • C.G) msg signature := by
  simp only [schnorrRespond, Option.bind_eq_bind, Option.bind_eq_some_iff, Option.pure_def,
    Option.some.injEq] at h
  obtain ⟨pk, hpk, eSk, heSk, s, hs, rfl⟩ := h
  obtain ⟨rfl, -⟩ := C.create hpk
  obtain ⟨rfl, hne⟩ := C.create hR
  have hlen : (Bytes.field 1 32 (S.ecPubkeySerializeUncompressed (scalar k • C.G))).length = 32 := by
    rw [Bytes.field, List.length_take, List.length_drop, C.length_uncompressed]
    rfl
  refine ⟨by rw [List.length_append, hlen, C.length_seckeyAdd hs], ?_⟩
  rw [List.take_left' hlen, List.drop_left' hlen, C.seckeyAdd hs, C.seckeyMul heSk,
    ← C.abscissa_eq]
  exact Schnorr.accepts_respond hne hk' _ _

/-- **A signature verifies under the public point of the key.** -/
theorem sat_mwebSchnorrSign {E : MwebErr → Tape → Prop} (secretKey msg : Bytes) (t : Tape) :
    Sat (mwebSchnorrSign S secretKey msg)
      (fun r _ => ∀ signature, r = some signature →
        Verifies C (scalar secretKey • C.G) msg signature) E t := by
  rw [mwebSchnorrSign]
  cases hR : S.ecPubkeyCreate (S.sha256 (secretKey ++ msg)) with
  | none => simp
  | some R =>
      dsimp only
      rw [sat_bind]
      refine (sat_feIsQuad _ t).mono ?_ (fun _ _ h => h)
      intro r t' hquad
      cases r with
      | none => simp
      | some isQuad =>
          dsimp only
          split
          · simp
          · next k hk =>
              rw [sat_pure]
              intro signature hsig
              exact verifies_schnorrRespond C hR (isChosenNonce C hR (hquad isQuad rfl) hk) hsig

/-! ### The callers -/

/-- The kernel's signature verifies, from what the kernel contains: under its excess, or, with a
stealth excess, under the excess scaled by the hash of both and shifted by the stealth excess. -/
def KernelVerifies (p : MwebKernelSignParams) (out : MwebKernelSignOutputs) : Prop :=
  ∃ E hash, C.commitPoint out.excessKG = some E ∧
    mwebKernelSigHash S p.features out.excessKG p.fee p.peginAmount p.pegouts p.lockHeight
      (if hasBit p.features MWEB_KERNEL_STEALTH_EXCESS_BIT then some out.stealthExcessG else none)
      p.extraData = some hash ∧
    if hasBit p.features MWEB_KERNEL_STEALTH_EXCESS_BIT then
      ∃ St, S.ecPubkeyParse out.stealthExcessG = some St ∧
        Verifies C (scalar (S.blake3 (S.ecPubkeySerialize E ++ out.stealthExcessG)) • E + St) hash
          out.signature
    else Verifies C E hash out.signature

/-- The signature of an input verifies under its two keys. -/
def InputVerifies (state : MwebInputState) (extraData signature : Bytes) : Prop :=
  ∃ Ko Ki, S.ecPubkeyParse state.spentOutputPk = some Ko ∧
    S.ecPubkeyParse state.inputPubkey = some Ki ∧
    Verifies C (scalar (S.blake3 (state.inputPubkey ++ state.spentOutputPk)) • Ko + Ki)
      (S.blake3 (inputMessage state extraData)) signature

/-- The signature of an output verifies under its sender key. -/
def OutputVerifies (commit Ks Ko msgHash rpHash signature : Bytes) : Prop :=
  ∃ Q, S.ecPubkeyParse Ks = some Q ∧
    Verifies C Q (S.blake3 (commit ++ Ks ++ Ko ++ msgHash ++ rpHash)) signature

/-- A kernel with a stealth excess has been given a stealth key. -/
theorem sat_kernelValidate_stealth (eK : Bytes) (p : MwebKernelSignParams) (t : Tape) :
    Sat (kernelValidate eK p)
      (fun _ _ => hasBit p.features MWEB_KERNEL_STEALTH_EXCESS_BIT = true →
        ∃ key, p.stealthKeyOrNull = some key) (fun _ _ => True) t := by
  simp only [kernelValidate, sat_bind, sat_check, implies_true, and_true]
  intro _ _ _ _ _ _ hkey _ _ hbit
  cases hp : p.stealthKeyOrNull with
  | some key => exact ⟨key, rfl⟩
  | none => simp [hbit, hp] at hkey

theorem commitPoint_zero {eK excess : Bytes} (h : mwebPedersenCommit S eK 0 = some excess) :
    C.commitPoint excess = some (scalar eK • C.G) := by
  rw [C.commit h]
  simp

/-- The key of a kernel with a stealth excess, and its public point. -/
theorem kernelSigKey_point {eK stealthKey stealthExcess sigKey : Bytes} {E : P}
    (h : kernelSigKey S eK (S.ecPubkeySerialize E) (some (stealthKey, stealthExcess)) =
      some sigKey) :
    scalar sigKey • C.G = scalar (S.blake3 (S.ecPubkeySerialize E ++ stealthExcess)) •
      scalar eK • C.G + scalar stealthKey • C.G := by
  simp only [kernelSigKey, Option.bind_eq_bind, Option.bind_eq_some_iff] at h
  obtain ⟨tweaked, htweaked, hsigKey⟩ := h
  rw [C.seckeyAdd hsigKey, C.seckeyMul htweaked]
  exact Schnorr.combined_smul _ _ _ _

/-- **The kernel's signature verifies.** -/
theorem sat_mwebSignKernelWithEk_verifies (eK : Bytes) (p : MwebKernelSignParams) (t : Tape) :
    Sat (mwebSignKernelWithEk S eK p) (fun out _ => KernelVerifies C p out) (fun _ _ => True) t := by
  rw [mwebSignKernelWithEk, sat_bind]
  refine (sat_kernelValidate_stealth eK p t).mono ?_ (fun _ _ h => h)
  intro _ t₁ hkey
  simp only [sat_bind, sat_orFail, implies_true, and_true]
  refine sat_of_forall (fun _ t₂ => ?_) fun _ _ => trivial
  intro excessKG hexcess ekPk hekPk
  have hE := commitPoint_zero C hexcess
  obtain ⟨rfl, -⟩ := C.create hekPk
  by_cases hbit : hasBit p.features MWEB_KERNEL_STEALTH_EXCESS_BIT = true
  · obtain ⟨key, hp⟩ := hkey hbit
    simp only [hbit, if_true, hp, sat_bind, sat_orFail, sat_pure, implies_true, and_true]
    intro spk hspk hash hhash sigKey hsigKey
    obtain ⟨hpoint, hne⟩ := C.create hspk
    refine (sat_mwebSchnorrSign C sigKey hash t₂).mono ?_ (fun _ _ h => h)
    rintro _ t₃ hverifies signature rfl
    refine sat_of_forall (fun _ t₄ => ?_) fun _ _ => trivial
    refine sat_of_forall (fun _ t₅ => ?_) fun _ _ => trivial
    refine ⟨_, hash, hE, by rw [hbit, if_pos rfl]; exact hhash, ?_⟩
    rw [hbit, if_pos rfl]
    refine ⟨scalar key • C.G, by rw [← hpoint]; exact C.parse_serialize hne, ?_⟩
    have h := hverifies signature rfl
    rw [kernelSigKey_point C hsigKey] at h
    exact h
  · simp only [Bool.not_eq_true] at hbit
    simp only [hbit, Bool.false_eq_true, if_false, pure_bind, sat_bind, sat_orFail, implies_true,
      and_true]
    intro hash hhash sigKey hsigKey
    obtain rfl : eK = sigKey := Option.some.inj hsigKey
    refine (sat_mwebSchnorrSign C eK hash t₂).mono ?_ (fun _ _ h => h)
    rintro _ t₃ hverifies signature rfl
    refine sat_of_forall (fun _ t₄ => ?_) fun _ _ => trivial
    refine sat_of_forall (fun _ t₅ => ?_) fun _ _ => trivial
    rw [sat_pure]
    refine ⟨_, hash, hE, by rw [hbit]; exact hhash, ?_⟩
    rw [hbit]
    exact hverifies signature rfl

/-- **The signature of an input verifies**, when its state is one that was derived. -/
theorem sat_mwebSignInputFromState {state : MwebInputState} (hkeys : InputKeys C.toCurve state)
    (hhash : state.keyHash = S.blake3 (state.inputPubkey ++ state.spentOutputPk))
    (extraData : Bytes) (t : Tape) :
    Sat (mwebSignInputFromState S state extraData)
      (fun signature _ => InputVerifies C state extraData signature) (fun _ _ => True) t := by
  simp only [mwebSignInputFromState, sat_bind, sat_orFail, implies_true, and_true]
  intro oskHash hosk sigKey hsigKey
  refine (sat_mwebSchnorrSign C sigKey _ t).mono ?_ (fun _ _ h => h)
  rintro _ t' hverifies signature rfl
  refine ⟨_, _, hkeys.spent, hkeys.input, ?_⟩
  have hpoint : scalar sigKey • C.G =
      scalar state.keyHash • scalar state.osk • C.G + scalar state.ephemeral • C.G := by
    rw [C.seckeyAdd hsigKey, C.seckeyMul hosk]
    exact Schnorr.combined_smul _ _ _ _
  rw [← hhash, ← hpoint]
  exact hverifies signature rfl

/-- **The signature of an output verifies**, when its sender key is the public one of the key. -/
theorem sat_mwebSignOutput {senderKey Ks : Bytes}
    (hKs : S.ecPubkeyParse Ks = some (scalar senderKey • C.G))
    (commit Ko msgHash rpHash : Bytes) (t : Tape) :
    Sat (mwebSignOutput S senderKey commit Ks Ko msgHash rpHash)
      (fun signature _ => OutputVerifies C commit Ks Ko msgHash rpHash signature)
      (fun _ _ => True) t := by
  simp only [mwebSignOutput, sat_bind, sat_check, sat_orFail, implies_true, and_true]
  intro _
  refine (sat_mwebSchnorrSign C senderKey _ t).mono ?_ (fun _ _ h => h)
  rintro _ t' hverifies signature rfl
  exact ⟨_, hKs, hverifies signature rfl⟩

end Curve

/-! ### The buffer -/

section Buffer

variable {P : Type} (S : Secp P)

/-- The label `cleanup` after a failure: the 64 bytes of the caller's buffer are wiped. -/
def schnorrFailed : Bool × Bytes := (false, List.replicate 64 0)

/-- The second half of `mweb_schnorr_sign`: the abscissa is in the buffer. -/
def schnorrRespondInto (secretKey msg k signature : Bytes) : Bool × Bytes :=
  match S.ecPubkeyCreate secretKey with
  | none => schnorrFailed
  | some skPk =>
      let e := S.sha256 (signature.take 32 ++ S.ecPubkeySerialize skPk ++ msg)
      match S.ecSeckeyTweakMul e secretKey with
      | none => schnorrFailed
      | some eSk =>
          match S.ecSeckeyTweakAdd eSk k with
          | none => schnorrFailed
          | some s => (true, signature.take 32 ++ s)

/-- `mweb_schnorr_sign` with the buffer of the caller, as it is at the call and as it is left. -/
def mwebSchnorrSignInto (secretKey msg signature : Bytes) : M (Bool × Bytes) := do
  let k := S.sha256 (secretKey ++ msg)
  match S.ecPubkeyCreate k with
  | none => pure schnorrFailed
  | some R =>
      let uncompressed := S.ecPubkeySerializeUncompressed R
      let signature := Bytes.field 1 32 uncompressed ++ signature.drop 32
      match ← feIsQuad (Bytes.field 33 32 uncompressed) with
      | none => pure schnorrFailed
      | some isQuad =>
          match (if isQuad then some k else S.ecSeckeyNegate k) with
          | none => pure schnorrFailed
          | some k => pure (schnorrRespondInto S secretKey msg k signature)

/-- What the caller finds: the signature, or zeros. -/
def schnorrOutcome : Option Bytes → Bool × Bytes
  | some signature => (true, signature)
  | none => schnorrFailed

theorem schnorrRespondInto_eq {rx : Bytes} (hlen : rx.length = 32) (secretKey msg k rest : Bytes) :
    schnorrRespondInto S secretKey msg k (rx ++ rest) =
      schnorrOutcome (schnorrRespond S secretKey msg rx k) := by
  rw [schnorrRespondInto, schnorrRespond, List.take_left' hlen]
  cases S.ecPubkeyCreate secretKey with
  | none => rfl
  | some skPk =>
      dsimp only [Option.bind_eq_bind, Option.bind_some]
      cases S.ecSeckeyTweakMul (S.sha256 (rx ++ S.ecPubkeySerialize skPk ++ msg)) secretKey with
      | none => rfl
      | some eSk =>
          dsimp only [Option.bind_some]
          cases S.ecSeckeyTweakAdd eSk k with
          | none => rfl
          | some s => rfl

/-- **The buffer has the signature or is wiped**, whatever was in it. -/
theorem mwebSchnorrSignInto_eq (hlen : ∀ R, (S.ecPubkeySerializeUncompressed R).length = 65)
    (secretKey msg buffer : Bytes) :
    mwebSchnorrSignInto S secretKey msg buffer =
      schnorrOutcome <$> mwebSchnorrSign S secretKey msg := by
  rw [mwebSchnorrSignInto, mwebSchnorrSign]
  cases S.ecPubkeyCreate (S.sha256 (secretKey ++ msg)) with
  | none => rfl
  | some R =>
      have hrx : (Bytes.field 1 32 (S.ecPubkeySerializeUncompressed R)).length = 32 := by
        rw [Bytes.field, List.length_take, List.length_drop, hlen]
        rfl
      dsimp only
      rw [map_bind]
      refine bind_congr fun r => ?_
      cases r with
      | none => rfl
      | some isQuad =>
          dsimp only
          cases (if isQuad then some (S.sha256 (secretKey ++ msg))
            else S.ecSeckeyNegate (S.sha256 (secretKey ++ msg))) with
          | none => rfl
          | some k =>
              dsimp only
              rw [schnorrRespondInto_eq S hrx]
              rfl

end Buffer

/-! ### The line with abscissas

The laws have a model: the points of the line, with the square of a point for its abscissa, and one or
minus one for its ordinate. -/

section Line

/-- The point is in the lower half of the line. -/
def lowerHalf (R : ZMod order) : Bool := decide (2 * R.val < order)

/-- One for a point of the lower half, and minus one, which is not a square, for the others. -/
def lineOrdinate (R : ZMod order) : Bytes :=
  Bytes.ofNatBE 32 (if lowerHalf R then 1 else Bytes.toNatBE SECP256K1_FIELD_PRIME - 1)

def lineUncompressed (R : ZMod order) : Bytes := 0x04 :: (coordinate (R * R) ++ lineOrdinate R)

/-- The functions over the line, with another uncompressed encoding. -/
def quadSecp : Secp (ZMod order) :=
  { lineSecp with ecPubkeySerializeUncompressed := lineUncompressed }

theorem length_coordinate (x : ZMod order) : (coordinate x).length = 32 := Bytes.length_ofNatBE _ _

theorem field_abscissa (R : ZMod order) :
    Bytes.field 1 32 (lineUncompressed R) = coordinate (R * R) :=
  List.take_left' (length_coordinate _)

theorem field_ordinate (R : ZMod order) :
    Bytes.field 33 32 (lineUncompressed R) = lineOrdinate R := by
  have hdrop : (lineUncompressed R).drop 33 = lineOrdinate R := by
    rw [lineUncompressed, List.drop_succ_cons, List.drop_left' (length_coordinate _)]
  rw [Bytes.field, hdrop, List.take_of_length_le]
  exact (Bytes.length_ofNatBE _ _).le

theorem lowerHalf_neg {R : ZMod order} (hR : R ≠ 0) : lowerHalf (-R) = !lowerHalf R := by
  have hodd : order % 2 = 1 := by decide
  have hlt := R.val_lt
  have hneg : (-R).val = order - R.val := by rw [ZMod.neg_val, if_neg hR]
  rw [lowerHalf, lowerHalf, hneg, ← decide_not, decide_eq_decide]
  omega

/-- Minus one is not a square, and one is. -/
theorem eulerCriterion_lineOrdinate (R : ZMod order) :
    EulerCriterion (lineOrdinate R) ↔ lowerHalf R = true := by
  have hbits : Bytes.toNatBE SECP256K1_HALF_P_MINUS_1 < 2 ^ 256 := by decide
  rw [EulerCriterion, ← mpiExpMod_eq _ hbits, lineOrdinate]
  cases lowerHalf R with
  | true => exact iff_of_true (by decide +kernel) rfl
  | false => exact iff_of_false (by decide +kernel) Bool.false_ne_true

theorem quadSecp_parse_serialize {Q : ZMod order} (h : Q ≠ 0) :
    quadSecp.ecPubkeyParse (quadSecp.ecPubkeySerialize Q) = some Q := by
  simp only [quadSecp, lineSecp]
  exact lineParse_serialize h

theorem quadSecp_tweakMul {Q R : ZMod order} {t : Bytes}
    (h : quadSecp.ecPubkeyTweakMul Q t = some R) : R = scalar t • Q ∧ R ≠ 0 :=
  lineCurve.tweakMul h

theorem quadSecp_combine {Q R T : ZMod order} (h : quadSecp.ecPubkeyCombine Q R = some T) :
    T = Q + R ∧ T ≠ 0 :=
  lineCurve.combine h

theorem quadSecp_seckeyAdd {k t r : Bytes} (h : quadSecp.ecSeckeyTweakAdd k t = some r) :
    scalar r = scalar k + scalar t :=
  lineCurve.seckeyAdd h

theorem quadSecp_seckeyMul {k t r : Bytes} (h : quadSecp.ecSeckeyTweakMul k t = some r) :
    scalar r = scalar k * scalar t :=
  lineCurve.seckeyMul h

/-- **The laws have a model.** -/
def quadCurve : QuadCurve quadSecp where
  G := lineCurve.G
  H := lineCurve.H
  commitPoint := lineCurve.commitPoint
  create := lineCurve.create
  parse_serialize := quadSecp_parse_serialize
  tweakMul := quadSecp_tweakMul
  combine := quadSecp_combine
  seckeyAdd := quadSecp_seckeyAdd
  seckeyMul := quadSecp_seckeyMul
  fromPrivateKey := lineCurve.fromPrivateKey
  commit := lineCurve.commit
  choice := {
    abscissa := fun R => coordinate (R * R)
    chosen := fun R => lowerHalf R = true
    abscissa_neg := by
      intro R
      rw [neg_mul_neg]
    abscissa_inj := by
      intro R R' _ _ h
      have hsq : R * R = R' * R' := by
        rw [← scalar_coordinate (R * R), h, scalar_coordinate]
      exact (mul_self_eq_mul_self_iff.1 hsq.symm)
    chosen_neg := by
      intro R hR
      rw [lowerHalf_neg hR]
      cases lowerHalf R <;> simp }
  length_uncompressed := by
    intro R
    simp [quadSecp, lineUncompressed, length_coordinate, lineOrdinate, Bytes.length_ofNatBE]
  abscissa_eq R := (field_abscissa R).symm
  chosen_iff := by
    intro R _
    rw [show quadSecp.ecPubkeySerializeUncompressed R = lineUncompressed R from rfl,
      field_ordinate, eulerCriterion_lineOrdinate]
  negate := by
    intro k r h
    simp only [quadSecp, lineSecp] at h
    rw [scalar_of_nonzero h, Nat.cast_sub (Nat.mod_lt _ (by decide)).le, ZMod.natCast_self,
      ZMod.natCast_mod, zero_sub, scalar]
  length_seckeyAdd := by
    intro k t r h
    exact (lineCurve.seckeyAdd_isScalar h).length

end Line

/-! ### The result -/

section Result

variable {P : Type} [AddCommGroup P] [Module (ZMod order) P] {S : Secp P} (C : QuadCurve S)

/-- **The signatures verify.** A signature of `mweb_schnorr_sign`, for any key and message, verifies
under the public point of the key, and the point that its first half stands for is the only one;
what the three callers sign verifies from public data; and the caller's buffer has the signature, or
zeros when there is none. -/
structure SignaturesVerify : Prop where
  schnorr : ∀ secretKey msg t, Sat (mwebSchnorrSign S secretKey msg)
    (fun r _ => ∀ signature, r = some signature →
      Verifies C (scalar secretKey • C.G) msg signature) (fun _ _ => False) t
  equation : ∀ {pub msg signature}, Verifies C pub msg signature →
    ∃! R, R ≠ 0 ∧ C.choice.abscissa R = signature.take 32 ∧ C.choice.chosen R ∧
      scalar (signature.drop 32) • C.G = R +
        scalar (S.sha256 (signature.take 32 ++ S.ecPubkeySerialize pub ++ msg)) • pub
  kernel : ∀ eK p t, Sat (mwebSignKernelWithEk S eK p) (fun out _ => KernelVerifies C p out)
    (fun _ _ => True) t
  input : ∀ scanKey spendKey addressIndex features spentOutputId spentOutputPk amount
    keyExchangePubkey t, Sat (mwebDeriveInputState S scanKey spendKey addressIndex features
      spentOutputId spentOutputPk amount keyExchangePubkey)
    (fun state _ => ∀ extraData u, Sat (mwebSignInputFromState S state extraData)
      (fun signature _ => InputVerifies C state extraData signature) (fun _ _ => True) u)
    (fun _ _ => True) t
  output : ∀ senderKey Ks commit Ko msgHash rpHash t,
    S.ecPubkeyParse Ks = some (scalar senderKey • C.G) →
    Sat (mwebSignOutput S senderKey commit Ks Ko msgHash rpHash)
      (fun signature _ => OutputVerifies C commit Ks Ko msgHash rpHash signature)
      (fun _ _ => True) t
  buffer : ∀ secretKey msg buffer, mwebSchnorrSignInto S secretKey msg buffer =
    schnorrOutcome <$> mwebSchnorrSign S secretKey msg

/-- **Every signature of the subsystem verifies.** -/
theorem signatures_verify : SignaturesVerify C where
  schnorr secretKey msg t := sat_mwebSchnorrSign C secretKey msg t
  equation := by
    intro pub msg signature h
    obtain ⟨R, hR, habscissa, hchosen, heq⟩ := h.accepts
    refine ⟨R, ⟨hR, habscissa, hchosen, heq⟩, ?_⟩
    rintro R' ⟨hR', habscissa', hchosen', -⟩
    exact C.choice.unique hR hR' hchosen hchosen' (habscissa.trans habscissa'.symm)
  kernel eK p t := sat_mwebSignKernelWithEk_verifies C eK p t
  input := by
    intro scanKey spendKey addressIndex features spentOutputId spentOutputPk amount kex t
    refine ((sat_mwebDeriveInputState C.toCurve scanKey spendKey addressIndex features spentOutputId
      spentOutputPk amount kex t).and (sat_mwebDeriveInputState_keyHash S scanKey spendKey
      addressIndex features spentOutputId spentOutputPk amount kex t)).mono ?_ (fun _ _ _ => trivial)
    rintro state t' ⟨⟨hkeys, -, -⟩, hhash⟩ extraData u
    exact sat_mwebSignInputFromState C hkeys hhash extraData u
  output senderKey Ks commit Ko msgHash rpHash t hKs :=
    sat_mwebSignOutput C hKs commit Ko msgHash rpHash t
  buffer := mwebSchnorrSignInto_eq S C.length_uncompressed

end Result

/-- A device with memory. -/
def signingTape : Tape where
  allocs _ := true
  trng _ := 1

/-- On the line, the key 3 signs a message of three bytes. -/
theorem signatures_verify_line : ∃ signature t',
    (mwebSchnorrSign quadSecp (Bytes.ofNatBE 32 3) [1, 2, 3]).run signingTape =
        .ok (some signature) t' ∧
      Verifies quadCurve (scalar (Bytes.ofNatBE 32 3) • quadCurve.G) [1, 2, 3] signature := by
  have hsigns : (match (mwebSchnorrSign quadSecp (Bytes.ofNatBE 32 3) [1, 2, 3]).run signingTape with
      | .ok r _ => r.isSome
      | .error _ _ => false) = true := by decide +kernel
  cases hrun : (mwebSchnorrSign quadSecp (Bytes.ofNatBE 32 3) [1, 2, 3]).run signingTape with
  | error e t' => simp [hrun] at hsigns
  | ok r t' =>
      simp only [hrun] at hsigns
      obtain ⟨signature, rfl⟩ := Option.isSome_iff_exists.1 hsigns
      exact ⟨signature, t', rfl,
        ((signatures_verify quadCurve).schnorr _ _ signingTape).ok hrun signature rfl⟩

end Jade.Mweb
