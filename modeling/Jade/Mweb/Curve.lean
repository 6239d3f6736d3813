/-
**The curve underneath: commitments, the blind switch, Schnorr signatures and range proofs.**

The elliptic-curve arithmetic, the hash functions and the Bulletproof prover are not part of this
repository.  They enter as a record of functions, `Secp`, over a type `P` of points; everything the
subsystem computes with them (`mweb_hash.c`, `mweb_blind.c`, `mweb_schnorr.c`, `mweb_rangeproof.c`)
is written out here.

What the balance results need to know about the missing functions is a second record, `Curve`: the
points form a module over `ZMod n`, there are two generators, and each function that succeeds does
the group operation its documentation names.  Nothing is assumed about the hash functions, and the
generators may be any two points.

Main definitions:

* `Jade.Mweb.Secp` — the functions called;
* `Jade.Mweb.Curve` — the group law they implement;
* `Jade.Mweb.mwebHashed`, `Jade.Mweb.mwebPedersenCommit`, `Jade.Mweb.mwebBlindSwitch`;
* `Jade.Mweb.mwebSchnorrSign`, `Jade.Mweb.mwebSignOutput`, `Jade.Mweb.mwebBuildRangeproof`;
* `Jade.Mweb.pairSecp`, `Jade.Mweb.pairCurve` — a model of the laws.
-/

import Jade.Mweb.Scalar
import Mathlib.Algebra.Module.Basic
import Mathlib.Algebra.Module.Prod

set_option relaxedAutoImplicit false
set_option autoImplicit false

namespace Jade.Mweb

open Exec

/-! ### The functions called -/

/-- What `libwally`, `secp256k1-zkp`, BLAKE3 and the Bulletproof prover are called for.  A function
that returns a failure code returns `none` here. -/
structure Secp (P : Type) where
  /-- `secp256k1_ec_pubkey_create` -/
  ecPubkeyCreate : Bytes → Option P
  /-- `secp256k1_ec_pubkey_parse` of 33 bytes -/
  ecPubkeyParse : Bytes → Option P
  /-- `secp256k1_ec_pubkey_serialize` with `SECP256K1_EC_COMPRESSED` -/
  ecPubkeySerialize : P → Bytes
  /-- `secp256k1_ec_pubkey_serialize` with `SECP256K1_EC_UNCOMPRESSED` -/
  ecPubkeySerializeUncompressed : P → Bytes
  /-- `secp256k1_ec_pubkey_tweak_mul` -/
  ecPubkeyTweakMul : P → Bytes → Option P
  /-- `secp256k1_ec_pubkey_combine` of two points -/
  ecPubkeyCombine : P → P → Option P
  /-- `secp256k1_ec_seckey_tweak_add` -/
  ecSeckeyTweakAdd : Bytes → Bytes → Option Bytes
  /-- `secp256k1_ec_seckey_tweak_mul` -/
  ecSeckeyTweakMul : Bytes → Bytes → Option Bytes
  /-- `secp256k1_ec_seckey_negate` -/
  ecSeckeyNegate : Bytes → Option Bytes
  /-- `wally_ec_public_key_from_private_key` -/
  wallyEcPublicKeyFromPrivateKey : Bytes → Option Bytes
  /-- `secp256k1_pedersen_commit` with `secp256k1_generator_h`, then
  `secp256k1_pedersen_commitment_serialize` -/
  pedersenCommit : Bytes → UInt64 → Option Bytes
  /-- `secp256k1_bulletproof_rangeproof_prove` of one 64-bit value: value, blind, nonce, private
  nonce, extra commitment -/
  bulletproofRangeproofProve : UInt64 → Bytes → Bytes → Bytes → Bytes → Option Bytes
  sha256 : Bytes → Bytes
  blake3 : Bytes → Bytes

/-- The group the functions compute in.  A point held in memory is never the point at infinity,
which has no serialisation. -/
structure Curve {P : Type} [AddCommGroup P] [Module (ZMod order) P] (S : Secp P) where
  /-- The base point, which is also the generator of the blinding factors. -/
  G : P
  /-- `secp256k1_generator_h`, the generator of the values. -/
  H : P
  /-- The point behind a serialised commitment. -/
  commitPoint : Bytes → Option P
  create : ∀ {k Q}, S.ecPubkeyCreate k = some Q → Q = scalar k • G ∧ Q ≠ 0
  parse_serialize : ∀ {Q}, Q ≠ 0 → S.ecPubkeyParse (S.ecPubkeySerialize Q) = some Q
  tweakMul : ∀ {Q t R}, S.ecPubkeyTweakMul Q t = some R → R = scalar t • Q ∧ R ≠ 0
  combine : ∀ {Q R T}, S.ecPubkeyCombine Q R = some T → T = Q + R ∧ T ≠ 0
  seckeyAdd : ∀ {k t r}, S.ecSeckeyTweakAdd k t = some r → scalar r = scalar k + scalar t
  seckeyMul : ∀ {k t r}, S.ecSeckeyTweakMul k t = some r → scalar r = scalar k * scalar t
  fromPrivateKey : ∀ {k bs}, S.wallyEcPublicKeyFromPrivateKey k = some bs →
    S.ecPubkeyParse bs = some (scalar k • G)
  commit : ∀ {r v c}, S.pedersenCommit r v = some c →
    commitPoint c = some (scalar r • G + (v.toNat : ZMod order) • H)

section Model

variable {P : Type} (S : Secp P)

/-! ### Hashing with a tag -/

def MWEB_TAG_ADDRESS : UInt8 := 'A'.toUInt8
def MWEB_TAG_BLIND : UInt8 := 'B'.toUInt8
def MWEB_TAG_DERIVE : UInt8 := 'D'.toUInt8
def MWEB_TAG_NONCE : UInt8 := 'N'.toUInt8
def MWEB_TAG_OUTKEY : UInt8 := 'O'.toUInt8
def MWEB_TAG_SENDKEY : UInt8 := 'S'.toUInt8
def MWEB_TAG_TAG : UInt8 := 'T'.toUInt8
def MWEB_TAG_NONCEMASK : UInt8 := 'X'.toUInt8
def MWEB_TAG_VALUEMASK : UInt8 := 'Y'.toUInt8

/-- `mweb_hashed` -/
def mwebHashed (tag : UInt8) (data : Bytes) : Bytes := S.blake3 (tag :: data)

/-! ### Commitments -/

/-- `mweb_pedersen_commit` -/
def mwebPedersenCommit (blind : Bytes) (value : UInt64) : Option Bytes :=
  S.pedersenCommit blind value

/-- `GENERATOR_J` -/
def GENERATOR_J : Bytes := [
  0x02,
  0xb8, 0x60, 0xf5, 0x67, 0x95, 0xfc, 0x03, 0xf3,
  0xc2, 0x16, 0x85, 0x38, 0x3d, 0x1b, 0x5a, 0x2f,
  0x29, 0x54, 0xf4, 0x9b, 0x7e, 0x39, 0x8b, 0x8d,
  0x2a, 0x01, 0x93, 0x93, 0x36, 0x21, 0x15, 0x5f]

/-- The addition at the end of `mweb_blind_switch`: both operands must be canonical, the sum may be
zero (`addCanonicalWith_eq` for any library of big integers). -/
def addCanonical (blind tweak : Bytes) : M (Option Bytes) := do
  if ← alloc then
    if Bytes.toNatBE tweak ≥ Bytes.toNatBE SECP256K1_ORDER then pure none
    else if Bytes.toNatBE blind ≥ Bytes.toNatBE SECP256K1_ORDER then pure none
    else
      let r := (Bytes.toNatBE blind + Bytes.toNatBE tweak) % Bytes.toNatBE SECP256K1_ORDER
      pure (some (Bytes.ofNatBE 32 r))
  else pure none

/-- `mweb_blind_switch` -/
def mwebBlindSwitch (blind : Bytes) (value : UInt64) : M (Option Bytes) :=
  let J := do
    let commitBytes ← mwebPedersenCommit S blind value
    let genJ ← S.ecPubkeyParse GENERATOR_J
    let J ← S.ecPubkeyTweakMul genJ blind
    pure (commitBytes, S.ecPubkeySerialize J)
  match J with
  | none => pure none
  | some (commitBytes, jBytes) => addCanonical blind (S.sha256 (commitBytes ++ jBytes))

theorem sat_mwebBlindSwitch {Q : Option Bytes → Tape → Prop} {E : MwebErr → Tape → Prop}
    {t : Tape} (blind : Bytes) (value : UInt64) (h : ∀ r t', Q r t') :
    Sat (mwebBlindSwitch S blind value) Q E t := by
  unfold mwebBlindSwitch addCanonical
  dsimp only
  split
  · exact (sat_pure _).2 (h _ _)
  · rw [sat_bind]
    refine sat_alloc fun ok t' => ?_
    simp only [sat_ite, sat_pure]
    exact ⟨fun _ => ⟨fun _ => h _ _, fun _ => ⟨fun _ => h _ _, fun _ => h _ _⟩⟩, fun _ => h _ _⟩

/-! ### Schnorr signatures -/

/-- `SECP256K1_FIELD_PRIME` -/
def SECP256K1_FIELD_PRIME : Bytes := [
  0xFF, 0xFF, 0xFF, 0xFF, 0xFF, 0xFF, 0xFF, 0xFF,
  0xFF, 0xFF, 0xFF, 0xFF, 0xFF, 0xFF, 0xFF, 0xFF,
  0xFF, 0xFF, 0xFF, 0xFF, 0xFF, 0xFF, 0xFF, 0xFF,
  0xFF, 0xFF, 0xFF, 0xFE, 0xFF, 0xFF, 0xFC, 0x2F]

/-- `SECP256K1_HALF_P_MINUS_1` -/
def SECP256K1_HALF_P_MINUS_1 : Bytes := [
  0x7F, 0xFF, 0xFF, 0xFF, 0xFF, 0xFF, 0xFF, 0xFF,
  0xFF, 0xFF, 0xFF, 0xFF, 0xFF, 0xFF, 0xFF, 0xFF,
  0xFF, 0xFF, 0xFF, 0xFF, 0xFF, 0xFF, 0xFF, 0xFF,
  0xFF, 0xFF, 0xFF, 0xFF, 0x7F, 0xFF, 0xFE, 0x17]

/-- `mbedtls_mpi_exp_mod` by squaring; `bits` bounds the length of the exponent.  `feIsQuadWith_eq` takes
any power of a library in its place. -/
def mpiExpMod (m : ℕ) : ℕ → ℕ → ℕ → ℕ
  | 0, _, _ => 1 % m
  | bits + 1, b, e =>
      let sq := mpiExpMod m bits (b * b % m) (e / 2)
      if e % 2 = 1 then b * sq % m else sq

/-- `fe_is_quad`: Euler's criterion; `none` when a big integer could not be allocated. -/
def feIsQuad (y : Bytes) : M (Option Bool) := do
  if ← alloc then
    pure (some (mpiExpMod (Bytes.toNatBE SECP256K1_FIELD_PRIME) 256 (Bytes.toNatBE y)
      (Bytes.toNatBE SECP256K1_HALF_P_MINUS_1) == 1))
  else pure none

/-- The second half of `mweb_schnorr_sign`: the challenge and the response to the nonce `k`, whose
point has the abscissa `rx`. -/
def schnorrRespond (secretKey msg rx k : Bytes) : Option Bytes := do
  let skPk ← S.ecPubkeyCreate secretKey
  let e := S.sha256 (rx ++ S.ecPubkeySerialize skPk ++ msg)
  let eSk ← S.ecSeckeyTweakMul e secretKey
  let s ← S.ecSeckeyTweakAdd eSk k
  pure (rx ++ s)

/-- `mweb_schnorr_sign` -/
def mwebSchnorrSign (secretKey msg : Bytes) : M (Option Bytes) := do
  let k := S.sha256 (secretKey ++ msg)
  match S.ecPubkeyCreate k with
  | none => pure none
  | some R =>
      let uncompressed := S.ecPubkeySerializeUncompressed R
      let rx := Bytes.field 1 32 uncompressed
      match ← feIsQuad (Bytes.field 33 32 uncompressed) with
      | none => pure none
      | some isQuad =>
          match (if isQuad then some k else S.ecSeckeyNegate k) with
          | none => pure none
          | some k => pure (schnorrRespond S secretKey msg rx k)

/-- `mweb_sign_output` -/
def mwebSignOutput (senderKey commit Ks Ko msgHash rpHash : Bytes) : M Bytes := do
  check (mwebValidateScalar senderKey) .invalidScalar
  let sigHash := S.blake3 (commit ++ Ks ++ Ko ++ msgHash ++ rpHash)
  orFail (← mwebSchnorrSign S senderKey sigHash) .internal

/-! ### Range proofs -/

def MWEB_RANGEPROOF_LEN : ℕ := 675

/-- `mweb_build_rangeproof_with_nonces`: the scratch space is an allocation, and a proof of another
length is refused. -/
def mwebBuildRangeproofWithNonces (value : UInt64) (blind nonce privateNonce extraCommit : Bytes) :
    M Bytes := do
  check (mwebValidateScalar nonce && mwebValidateScalar privateNonce) .internal
  check (← alloc) .internal
  let proof ← orFail
    (S.bulletproofRangeproofProve value blind nonce privateNonce extraCommit) .internal
  check (proof.length == MWEB_RANGEPROOF_LEN) .internal
  pure proof

/-- `mweb_build_rangeproof` -/
def mwebBuildRangeproof (value : UInt64) (blind extraCommit : Bytes) : M Bytes := do
  let nonce ← orFail (← drawScalar 8) .internal
  let privateNonce ← orFail (← drawScalar 8) .internal
  mwebBuildRangeproofWithNonces S value blind nonce privateNonce extraCommit

end Model

/-! ### The free module on two generators

The laws have a model: points are pairs of scalars, and a point is serialised as its two
coordinates. -/

section Pair

/-- The points of the model. -/
abbrev Pair : Type := ZMod order × ZMod order

/-- A coordinate is serialised as its canonical numeral. -/
def coordinate (x : ZMod order) : Bytes := Bytes.ofNatBE 32 x.val

theorem scalar_coordinate (x : ZMod order) : scalar (coordinate x) = x := by
  have hlt : x.val < 256 ^ 32 := Nat.lt_trans (ZMod.val_lt x) (by decide)
  rw [scalar, coordinate, Bytes.toNatBE_ofNatBE_of_lt hlt, ZMod.natCast_zmod_val]

/-- `Q` unless it is the point at infinity. -/
def finite (Q : Pair) : Option Pair := if Q = 0 then none else some Q

theorem finite_eq_some {Q R : Pair} (h : finite Q = some R) : R = Q ∧ R ≠ 0 := by
  rw [finite, Option.ite_none_left_eq_some] at h
  obtain ⟨hne, hQ⟩ := h
  obtain rfl : Q = R := Option.some.inj hQ
  exact ⟨rfl, hne⟩

/-- The canonical numeral of a scalar other than zero. -/
def nonzero (n : ℕ) : Option Bytes :=
  if n % order = 0 then none else some (Bytes.ofNatBE 32 (n % order))

theorem scalar_of_nonzero {n : ℕ} {bs : Bytes} (h : nonzero n = some bs) :
    scalar bs = (n : ZMod order) := by
  rw [nonzero, Option.ite_none_left_eq_some] at h
  obtain rfl : Bytes.ofNatBE 32 (n % order) = bs := Option.some.inj h.2
  exact scalar_ofNatBE_mod n

def pairSerialize (Q : Pair) : Bytes := coordinate Q.1 ++ coordinate Q.2

def pairParse (bs : Bytes) : Option Pair := finite (scalar (bs.take 32), scalar (bs.drop 32))

def pairCreate (k : Bytes) : Option Pair := finite (scalar k, 0)

theorem pairParse_serialize {Q : Pair} (h : Q ≠ 0) : pairParse (pairSerialize Q) = some Q := by
  have hlen : (coordinate Q.1).length = 32 := Bytes.length_ofNatBE _ _
  rw [pairParse, pairSerialize, List.take_left' hlen, List.drop_left' hlen, scalar_coordinate,
    scalar_coordinate, finite, if_neg h]

/-- The functions over pairs.  The hash functions send everything to some scalar other than
zero. -/
def pairSecp : Secp Pair where
  ecPubkeyCreate := pairCreate
  ecPubkeyParse := pairParse
  ecPubkeySerialize := pairSerialize
  ecPubkeySerializeUncompressed Q := 0x04 :: pairSerialize Q
  ecPubkeyTweakMul Q t := finite (scalar t • Q)
  ecPubkeyCombine Q R := finite (Q + R)
  ecSeckeyTweakAdd k t := nonzero (Bytes.toNatBE k + Bytes.toNatBE t)
  ecSeckeyTweakMul k t := nonzero (Bytes.toNatBE k * Bytes.toNatBE t)
  ecSeckeyNegate k := nonzero (order - Bytes.toNatBE k % order)
  wallyEcPublicKeyFromPrivateKey k := (pairCreate k).map pairSerialize
  pedersenCommit r v := (finite (scalar r, (v.toNat : ZMod order))).map pairSerialize
  bulletproofRangeproofProve _ _ _ _ _ := some (List.replicate MWEB_RANGEPROOF_LEN 0)
  sha256 bs := Bytes.ofNatBE 32 (Bytes.toNatBE bs % 0xFFFFFFFF + 1)
  blake3 bs := Bytes.ofNatBE 32 (Bytes.toNatBE bs % 0xFFFFFFFB + 1)

/-- **The laws have a model.** -/
def pairCurve : Curve pairSecp where
  G := (1, 0)
  H := (0, 1)
  commitPoint := pairParse
  create h := by
    simp only [pairSecp, pairCreate] at h
    obtain ⟨rfl, hne⟩ := finite_eq_some h
    exact ⟨by simp, hne⟩
  parse_serialize h := by
    simp only [pairSecp]
    exact pairParse_serialize h
  tweakMul h := by
    simp only [pairSecp] at h
    exact finite_eq_some h
  combine h := by
    simp only [pairSecp] at h
    exact finite_eq_some h
  seckeyAdd h := by
    simp only [pairSecp] at h
    rw [scalar_of_nonzero h, Nat.cast_add, scalar, scalar]
  seckeyMul h := by
    simp only [pairSecp] at h
    rw [scalar_of_nonzero h, Nat.cast_mul, scalar, scalar]
  fromPrivateKey h := by
    simp only [pairSecp, pairCreate] at h ⊢
    obtain ⟨Q, hQ, rfl⟩ := Option.map_eq_some_iff.1 h
    obtain ⟨rfl, hne⟩ := finite_eq_some hQ
    rw [pairParse_serialize hne]
    simp
  commit h := by
    simp only [pairSecp] at h
    obtain ⟨Q, hQ, rfl⟩ := Option.map_eq_some_iff.1 h
    obtain ⟨rfl, hne⟩ := finite_eq_some hQ
    rw [pairParse_serialize hne]
    simp

end Pair

end Jade.Mweb
