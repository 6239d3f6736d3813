/-
**The group has prime order, and when the functions over it succeed.**

The order of the group is prime: it has a certificate in the manner of Lucas, whose powers are
computed by the square-and-multiply loop of `mweb_schnorr.c`.  A scalar is a numeral of 32 bytes
below the order and not zero, which is what `mweb_validate_scalar` tests; over a group of prime order
a function that is given scalars and points succeeds, unless its result would be zero.

Main definitions:

* `Jade.Mweb.IsScalar` — a numeral that denotes a scalar other than zero, canonically;
* `Jade.Mweb.PrimeCurve` — the group law, with the conditions under which the functions succeed;
* `Jade.Mweb.lineSecp`, `Jade.Mweb.lineCurve` — a model of it.

Main results:

* `Jade.Mweb.mpiExpMod_eq` — the loop computes the power;
* `Jade.Mweb.order_prime` — **the order is prime**;
* `Jade.Mweb.mwebValidateScalar_iff` — what `mweb_validate_scalar` accepts.
-/

import Jade.Mweb.Curve
import Mathlib.Data.List.Prime
import Mathlib.NumberTheory.LucasPrimality
import Mathlib.Tactic.NormNum.Prime

set_option relaxedAutoImplicit false
set_option autoImplicit false

namespace Jade.Mweb

/-! ### Powers -/

/-- The loop of `fe_is_quad` computes the power, when the exponent is not too long. -/
theorem mpiExpMod_eq (m : ℕ) {bits b e : ℕ} (he : e < 2 ^ bits) :
    mpiExpMod m bits b e = b ^ e % m := by
  induction bits generalizing b e with
  | zero =>
      obtain rfl : e = 0 := by omega
      rfl
  | succ bits ih =>
      have hhalf : e / 2 < 2 ^ bits := by rw [pow_succ] at he; omega
      have hsq : mpiExpMod m bits (b * b % m) (e / 2) = b ^ (2 * (e / 2)) % m := by
        rw [ih hhalf, ← Nat.pow_mod, pow_mul, sq]
      have hdiv := Nat.div_add_mod e 2
      rw [mpiExpMod, hsq]
      by_cases hodd : e % 2 = 1
      · rw [if_pos hodd]
        have hexp : e = 2 * (e / 2) + 1 := by omega
        calc b * (b ^ (2 * (e / 2)) % m) % m = b ^ (2 * (e / 2)) * b % m := by
              rw [Nat.mul_mod_mod, Nat.mul_comm]
          _ = b ^ e % m := by rw [← pow_succ, ← hexp]
      · rw [if_neg hodd]
        have hexp : 2 * (e / 2) = e := by omega
        rw [hexp]

/-! ### The order is prime -/

/-- A number with a generator of its units: the residue `a`, and the prime factors of `p - 1` with
their multiplicities. -/
structure Certificate where
  p : ℕ
  a : ℕ
  factors : List ℕ

/-- The generator has the order `p - 1`, given that the factors are prime. -/
def Certificate.valid (c : Certificate) : Bool :=
  decide (1 < c.p) && decide (c.p < 2 ^ 256) && c.factors.prod == c.p - 1 &&
    mpiExpMod c.p 256 c.a (c.p - 1) == 1 &&
    c.factors.all fun q => mpiExpMod c.p 256 c.a ((c.p - 1) / q) != 1

theorem pow_eq_one_iff {p : ℕ} (hp : 1 < p) (a n : ℕ) :
    (a : ZMod p) ^ n = 1 ↔ a ^ n % p = 1 := by
  rw [← Nat.cast_pow, ← Nat.cast_one, ZMod.natCast_eq_natCast_iff', Nat.mod_eq_of_lt hp]

theorem Certificate.prime {c : Certificate} (h : c.valid = true)
    (hfactors : ∀ q ∈ c.factors, q.Prime) : c.p.Prime := by
  simp only [Certificate.valid, Bool.and_eq_true, decide_eq_true_eq, beq_iff_eq, bne_iff_ne,
    List.all_eq_true] at h
  obtain ⟨⟨⟨⟨hp, hlt⟩, hprod⟩, hone⟩, hne⟩ := h
  have hpow : ∀ n ≤ c.p - 1, mpiExpMod c.p 256 c.a n = c.a ^ n % c.p := by
    intro n hn
    exact mpiExpMod_eq c.p (by omega)
  refine lucas_primality c.p (c.a : ZMod c.p) ?_ ?_
  · rw [pow_eq_one_iff hp, ← hpow _ le_rfl]
    exact hone
  · intro q hq hdvd
    rw [← hprod] at hdvd
    -- a prime factor of the product is one of the factors
    obtain ⟨r, hr, hqr⟩ := (Prime.dvd_prod_iff hq.prime).1 hdvd
    obtain rfl : q = r := (Nat.prime_dvd_prime_iff_eq hq (hfactors r hr)).1 hqr
    rw [ne_eq, pow_eq_one_iff hp, ← hpow _ (Nat.div_le_self _ _)]
    exact hne q hr

/-- The certificates below the order; every factor is small or stands before. -/
def certificates : List Certificate := [
  ⟨44706919, 6, [2, 3, 797, 9349]⟩,
  ⟨174723607534414371449, 3, [2, 2, 2, 17, 59, 4051, 120233, 44706919]⟩,
  ⟨4681609, 23, [2, 2, 2, 3, 97, 2011]⟩,
  ⟨107361793816595537, 3, [2, 2, 2, 2, 16699, 85831, 4681609]⟩,
  ⟨1627771, 3, [2, 3, 5, 29, 1871]⟩,
  ⟨297159362677, 2, [2, 2, 3, 3, 11, 461, 1627771]⟩,
  ⟨545358713, 5, [2, 2, 2, 41, 59, 28181]⟩,
  ⟨29047611873442575647497758179, 2, [2, 293, 305873, 545358713, 297159362677]⟩,
  ⟨341948486974166000522343609283189, 2, [2, 2, 3, 3, 3, 109, 29047611873442575647497758179]⟩,
  ⟨order, 7, [2, 2, 2, 2, 2, 2, 3, 149, 631, 107361793816595537, 174723607534414371449,
    341948486974166000522343609283189]⟩]

/-- The factors too small to need a certificate. -/
def smallPrimes : List ℕ :=
  [2, 3, 5, 11, 17, 29, 41, 59, 97, 109, 149, 293, 461, 631, 797, 1871, 2011, 4051, 9349, 16699,
    28181, 85831, 120233, 305873]

theorem prime_of_mem_smallPrimes {q : ℕ} (h : q ∈ smallPrimes) : q.Prime := by
  simp only [smallPrimes, List.mem_cons, List.not_mem_nil, or_false] at h
  rcases h with rfl | rfl | rfl | rfl | rfl | rfl | rfl | rfl | rfl | rfl | rfl | rfl | rfl | rfl |
    rfl | rfl | rfl | rfl | rfl | rfl | rfl | rfl | rfl | rfl <;> norm_num

/-- Every certificate is valid, and its factors are among the numbers before it. -/
def certified : List ℕ → List Certificate → Bool
  | _, [] => true
  | primes, c :: cs =>
      c.valid && c.factors.all (fun q => primes.contains q) && certified (c.p :: primes) cs

theorem prime_of_certified {primes : List ℕ} {cs : List Certificate}
    (h : certified primes cs = true) (hprimes : ∀ q ∈ primes, q.Prime) :
    ∀ c ∈ cs, c.p.Prime := by
  induction cs generalizing primes with
  | nil => simp
  | cons c cs ih =>
      simp only [certified, Bool.and_eq_true, List.all_eq_true, List.contains_iff_mem] at h
      obtain ⟨⟨hvalid, hfactors⟩, hrest⟩ := h
      have hc := Certificate.prime hvalid fun q hq => hprimes q (hfactors q hq)
      have hcs := ih hrest (List.forall_mem_cons.2 ⟨hc, hprimes⟩)
      exact List.forall_mem_cons.2 ⟨hc, hcs⟩

/-- **The order is prime.** -/
theorem order_prime : order.Prime := by
  have h : certified smallPrimes certificates = true := by decide +kernel
  refine prime_of_certified h (fun q hq => prime_of_mem_smallPrimes hq) ⟨order, 7, [2, 2, 2, 2, 2,
    2, 3, 149, 631, 107361793816595537, 174723607534414371449,
    341948486974166000522343609283189]⟩ ?_
  simp [certificates]

instance : Fact order.Prime := ⟨order_prime⟩

/-! ### Scalars -/

/-- The numeral denotes a scalar other than zero, canonically. -/
structure IsScalar (bs : Bytes) : Prop where
  length : bs.length = 32
  pos : 0 < Bytes.toNatBE bs
  lt : Bytes.toNatBE bs < order

/-- The comparison of two numerals of one length digit by digit. -/
theorem belowOrder_iff {s o : Bytes} (hlen : s.length = o.length) :
    belowOrder s o = true ↔ Bytes.toNatBE s < Bytes.toNatBE o := by
  induction s generalizing o with
  | nil =>
      cases o with
      | nil => simp [belowOrder]
      | cons b o => simp at hlen
  | cons a s ih =>
      cases o with
      | nil => simp at hlen
      | cons b o =>
          simp only [List.length_cons, Nat.add_right_cancel_iff] at hlen
          have hs := Bytes.toNatBE_lt s
          have ho := Bytes.toNatBE_lt o
          rw [belowOrder, Bytes.toNatBE_cons, Bytes.toNatBE_cons, hlen]
          rw [hlen] at hs
          rcases Nat.lt_trichotomy a.toNat b.toNat with hlt | heq | hgt
          · -- the first digit decides
            have hmul : (a.toNat + 1) * 256 ^ o.length ≤ b.toNat * 256 ^ o.length :=
              Nat.mul_le_mul_right _ hlt
            rw [Nat.succ_mul] at hmul
            rw [if_pos (UInt8.lt_iff_toNat_lt.2 hlt)]
            simp only [true_iff]
            omega
          · obtain rfl : a = b := UInt8.toNat_inj.1 heq
            rw [if_neg (UInt8.lt_irrefl a), if_neg (UInt8.lt_irrefl a), ih hlen]
            omega
          · have hmul : (b.toNat + 1) * 256 ^ o.length ≤ a.toNat * 256 ^ o.length :=
              Nat.mul_le_mul_right _ hgt
            rw [Nat.succ_mul] at hmul
            have hnot : ¬ a < b := by
              rw [UInt8.lt_iff_toNat_lt]
              omega
            rw [if_neg hnot, if_pos (UInt8.lt_iff_toNat_lt.2 hgt)]
            simp only [Bool.false_eq_true, false_iff]
            omega

/-- **What `mweb_validate_scalar` accepts.** -/
theorem mwebValidateScalar_iff {s : Bytes} (hlen : s.length = 32) :
    mwebValidateScalar s = true ↔ IsScalar s := by
  have hbelow := belowOrder_iff (s := s) (o := SECP256K1_ORDER) hlen
  rw [toNatBE_SECP256K1_ORDER] at hbelow
  have hzero : Bytes.toNatBE s = 0 ↔ s.all (· == 0) = true := Bytes.toNatBE_eq_zero_iff
  unfold mwebValidateScalar
  constructor
  · intro h
    split at h
    · cases h
    · next hne => exact ⟨hlen, by rw [← hzero] at hne; omega, hbelow.1 h⟩
  · intro h
    have hpos := h.pos
    rw [if_neg (by rw [← hzero]; omega)]
    exact hbelow.2 h.lt

theorem IsScalar.ne_zero {s : Bytes} (h : IsScalar s) : scalar s ≠ 0 := by
  intro h0
  rw [scalar, ZMod.natCast_eq_zero_iff] at h0
  exact absurd (Nat.le_of_dvd h.pos h0) (Nat.not_le.2 h.lt)

/-! ### When the functions succeed -/

/-- The group law, with the conditions under which the functions succeed: keys and factors are
canonical scalars other than zero, and what would be zero is refused. -/
structure PrimeCurve {P : Type} [AddCommGroup P] [Module (ZMod order) P] (S : Secp P)
    extends Curve S where
  parse_ne_zero : ∀ {bs Q}, S.ecPubkeyParse bs = some Q → Q ≠ 0
  length_serialize : ∀ Q, (S.ecPubkeySerialize Q).length = 33
  tweakMul_isSome : ∀ {Q t}, Q ≠ 0 → ((S.ecPubkeyTweakMul Q t).isSome = true ↔ IsScalar t)
  fromPrivateKey_isSome : ∀ {k}, (S.wallyEcPublicKeyFromPrivateKey k).isSome = true ↔ IsScalar k
  seckeyAdd_isSome : ∀ {k t}, IsScalar k → IsScalar t → scalar k + scalar t ≠ 0 →
    (S.ecSeckeyTweakAdd k t).isSome = true
  seckeyAdd_isScalar : ∀ {k t r}, S.ecSeckeyTweakAdd k t = some r → IsScalar r
  seckeyMul_isSome : ∀ {k t}, IsScalar k → IsScalar t → (S.ecSeckeyTweakMul k t).isSome = true
  length_blake3 : ∀ bs, (S.blake3 bs).length = 32

/-! ### The line

The laws have a model: a point is a scalar, and so is a commitment, with 2 for the generator of the
values. -/

section Line

/-- A scalar other than zero, tested. -/
def isScalar (bs : Bytes) : Bool :=
  decide (bs.length = 32) && decide (0 < Bytes.toNatBE bs) && decide (Bytes.toNatBE bs < order)

theorem isScalar_iff {bs : Bytes} : isScalar bs = true ↔ IsScalar bs := by
  simp only [isScalar, Bool.and_eq_true, decide_eq_true_eq]
  exact ⟨fun h => ⟨h.1.1, h.1.2, h.2⟩, fun h => ⟨⟨h.length, h.pos⟩, h.lt⟩⟩

/-- `x` unless it is the point at infinity. -/
def lineFinite (x : ZMod order) : Option (ZMod order) := if x = 0 then none else some x

theorem lineFinite_eq_some {x y : ZMod order} (h : lineFinite x = some y) : y = x ∧ y ≠ 0 := by
  rw [lineFinite, Option.ite_none_left_eq_some] at h
  obtain ⟨hne, hx⟩ := h
  obtain rfl : x = y := Option.some.inj hx
  exact ⟨rfl, hne⟩

theorem lineFinite_of_ne {x : ZMod order} (h : x ≠ 0) : lineFinite x = some x := if_neg h

def lineSerialize (x : ZMod order) : Bytes := 0x02 :: coordinate x

def lineParse (bs : Bytes) : Option (ZMod order) := lineFinite (scalar (bs.drop 1))

theorem lineParse_serialize {x : ZMod order} (h : x ≠ 0) :
    lineParse (lineSerialize x) = some x := by
  have hdrop : (lineSerialize x).drop 1 = coordinate x := rfl
  rw [lineParse, hdrop, scalar_coordinate, lineFinite_of_ne h]

theorem isScalar_ofNatBE {n : ℕ} (hpos : n % order ≠ 0) :
    IsScalar (Bytes.ofNatBE 32 (n % order)) := by
  have hlt : n % order < order := Nat.mod_lt _ (by decide)
  have hval : Bytes.toNatBE (Bytes.ofNatBE 32 (n % order)) = n % order :=
    Bytes.toNatBE_ofNatBE_of_lt (Nat.lt_trans hlt (by decide))
  exact ⟨Bytes.length_ofNatBE _ _, by rw [hval]; omega, by rw [hval]; exact hlt⟩

theorem isScalar_of_nonzero {n : ℕ} {bs : Bytes} (h : nonzero n = some bs) : IsScalar bs := by
  rw [nonzero, Option.ite_none_left_eq_some] at h
  obtain rfl : Bytes.ofNatBE 32 (n % order) = bs := Option.some.inj h.2
  exact isScalar_ofNatBE h.1

theorem nonzero_isSome {n : ℕ} (h : (n : ZMod order) ≠ 0) : (nonzero n).isSome = true := by
  have hmod : n % order ≠ 0 := by
    intro h0
    exact h ((ZMod.natCast_eq_zero_iff n order).2 (Nat.dvd_of_mod_eq_zero h0))
  rw [nonzero, if_neg hmod]
  rfl

/-- The functions over the line. -/
def lineSecp : Secp (ZMod order) where
  ecPubkeyCreate k := if isScalar k then some (scalar k) else none
  ecPubkeyParse := lineParse
  ecPubkeySerialize := lineSerialize
  ecPubkeySerializeUncompressed x := 0x04 :: (coordinate x ++ coordinate x)
  ecPubkeyTweakMul Q t := if isScalar t then lineFinite (scalar t * Q) else none
  ecPubkeyCombine Q R := lineFinite (Q + R)
  ecSeckeyTweakAdd k t :=
    if isScalar k && isScalar t then nonzero (Bytes.toNatBE k + Bytes.toNatBE t) else none
  ecSeckeyTweakMul k t :=
    if isScalar k && isScalar t then nonzero (Bytes.toNatBE k * Bytes.toNatBE t) else none
  ecSeckeyNegate k := nonzero (order - Bytes.toNatBE k % order)
  wallyEcPublicKeyFromPrivateKey k := if isScalar k then some (lineSerialize (scalar k)) else none
  pedersenCommit r v := some (0x08 :: coordinate (scalar r + (v.toNat : ZMod order) * 2))
  bulletproofRangeproofProve _ _ _ _ _ := some (List.replicate MWEB_RANGEPROOF_LEN 0)
  sha256 bs := Bytes.ofNatBE 32 (Bytes.toNatBE bs % 0xFFFFFFFF + 1)
  blake3 bs := Bytes.ofNatBE 32 (Bytes.toNatBE bs % 0xFFFFFFFB + 1)

/-- **The laws have a model.** -/
def lineCurve : PrimeCurve lineSecp where
  G := 1
  H := 2
  commitPoint bs := some (scalar (bs.drop 1))
  create := by
    intro k Q h
    simp only [lineSecp, Option.ite_none_right_eq_some] at h
    obtain ⟨hk, hQ⟩ := h
    obtain rfl : scalar k = Q := Option.some.inj hQ
    exact ⟨by rw [smul_eq_mul, mul_one], (isScalar_iff.1 hk).ne_zero⟩
  parse_serialize := by
    intro Q h
    simp only [lineSecp]
    exact lineParse_serialize h
  tweakMul := by
    intro Q t R h
    simp only [lineSecp, Option.ite_none_right_eq_some] at h
    rw [smul_eq_mul]
    exact lineFinite_eq_some h.2
  combine := by
    intro Q R T h
    simp only [lineSecp] at h
    exact lineFinite_eq_some h
  seckeyAdd := by
    intro k t r h
    simp only [lineSecp, Option.ite_none_right_eq_some] at h
    rw [scalar_of_nonzero h.2, Nat.cast_add, scalar, scalar]
  seckeyMul := by
    intro k t r h
    simp only [lineSecp, Option.ite_none_right_eq_some] at h
    rw [scalar_of_nonzero h.2, Nat.cast_mul, scalar, scalar]
  fromPrivateKey := by
    intro k bs h
    simp only [lineSecp, Option.ite_none_right_eq_some] at h
    obtain ⟨hk, hbs⟩ := h
    obtain rfl : lineSerialize (scalar k) = bs := Option.some.inj hbs
    simp only [lineSecp, smul_eq_mul, mul_one]
    exact lineParse_serialize (isScalar_iff.1 hk).ne_zero
  commit := by
    intro r v c h
    obtain rfl := Option.some.inj h
    simp only [List.drop_succ_cons, List.drop_zero, scalar_coordinate, smul_eq_mul, mul_one]
  parse_ne_zero := by
    intro bs Q h
    simp only [lineSecp, lineParse] at h
    exact (lineFinite_eq_some h).2
  length_serialize := by
    intro Q
    simp [lineSecp, lineSerialize, coordinate, Bytes.length_ofNatBE]
  tweakMul_isSome := by
    intro Q t hQ
    simp only [lineSecp]
    constructor
    · intro h
      by_contra ht
      rw [if_neg (fun hb => ht (isScalar_iff.1 hb))] at h
      cases h
    · intro ht
      rw [if_pos (isScalar_iff.2 ht), lineFinite_of_ne (mul_ne_zero ht.ne_zero hQ)]
      rfl
  fromPrivateKey_isSome := by
    intro k
    simp only [lineSecp]
    rw [← isScalar_iff]
    cases isScalar k <;> simp
  seckeyAdd_isSome := by
    intro k t hk ht hne
    simp only [lineSecp, isScalar_iff.2 hk, isScalar_iff.2 ht, Bool.and_self, if_true]
    refine nonzero_isSome ?_
    rw [Nat.cast_add]
    exact hne
  seckeyAdd_isScalar := by
    intro k t r h
    simp only [lineSecp, Option.ite_none_right_eq_some] at h
    exact isScalar_of_nonzero h.2
  seckeyMul_isSome := by
    intro k t hk ht
    simp only [lineSecp, isScalar_iff.2 hk, isScalar_iff.2 ht, Bool.and_self, if_true]
    refine nonzero_isSome ?_
    rw [Nat.cast_mul]
    exact mul_ne_zero hk.ne_zero ht.ne_zero
  length_blake3 := by
    intro bs
    exact Bytes.length_ofNatBE _ _

end Line

end Jade.Mweb
