/-
**The arithmetic of scalars in memory (`mweb_scalar.c`).**

The operands and the result of a scalar operation are buffers of 32 bytes, and a caller may pass the
buffer of an operand for the result.  Every function reads its operands before it writes, so that it
does not matter where the result goes: it is the canonical numeral of the sum, the opposite or the
difference modulo the group order, for operands of any value.

Main definitions:

* `Jade.Mweb.scalarAdd`, `Jade.Mweb.scalarNeg`, `Jade.Mweb.scalarSub` — the functions, on addresses;
* `Jade.Mweb.WritesScalar` — what a call leaves in memory.

Main results:

* `Jade.Mweb.sat_scalarAdd`, `Jade.Mweb.sat_scalarNeg`, `Jade.Mweb.sat_scalarSub` — what each writes;
* `Jade.Mweb.scalar_arithmetic_exact` — **the arithmetic is exact**, for all operands and addresses.
-/

import Jade.Lib.Memory
import Jade.Mweb.PrimeOrder

set_option relaxedAutoImplicit false
set_option autoImplicit false

namespace Jade.Mweb

open Exec Memory

/-! ### The functions -/

/-- `mweb_scalar_add_mod_n`: the memory afterwards, and what is returned. -/
def scalarAdd (a b out : ℕ) (m : Mem) : M (Mem × Bool) := do
  match ← mwebScalarAddModN (load m a 32) (load m b 32) with
  | some r => return (store m out r, true)
  | none => return (m, false)

/-- `mweb_scalar_neg_mod_n`: the digits are written from the last one on. -/
def scalarNeg (a out : ℕ) (m : Mem) : M (Mem × Bool) := do
  match ← mwebScalarAddModN (load m a 32) zero32 with
  | none => return (m, false)
  | some reduced =>
      if reduced.all (· == 0) then return (store m out zero32, true)
      else return (storeDown m out (Bytes.subBorrow SECP256K1_ORDER reduced).1, true)

/-- `mweb_scalar_sub_mod_n`: the opposite goes to a buffer of its own. -/
def scalarSub (a b out : ℕ) (m : Mem) : M (Mem × Bool) := do
  match ← mwebScalarNegModN (load m b 32) with
  | none => return (m, false)
  | some negB =>
      match ← mwebScalarAddModN (load m a 32) negB with
      | some r => return (store m out r, true)
      | none => return (m, false)

/-! ### What is written -/

/-- There is memory for the big integers of the library. -/
def Plenty (t : Tape) : Prop := ∀ k, t.allocs k = true

/-- The result buffer holds the canonical numeral of the number and the rest of the memory is as it was;
without memory for the library nothing is written. -/
structure WritesScalar (m : Mem) (out x : ℕ) (r : Mem × Bool) : Prop where
  written : r.2 = true → load r.1 out 32 = Bytes.ofNatBE 32 x
  frame : ∀ p, p < out ∨ out + 32 ≤ p → r.1 p = m p
  failed : r.2 = false → r.1 = m

theorem writesScalar_store {m : Mem} {out x : ℕ} {bs : Bytes} (h : bs = Bytes.ofNatBE 32 x) :
    WritesScalar m out x (store m out bs, true) := by
  have hlen : bs.length = 32 := by rw [h, Bytes.length_ofNatBE]
  refine ⟨fun _ => ?_, fun p hp => ?_, fun hfalse => (by cases hfalse)⟩
  · have hload := load_store m out bs
    rw [hlen] at hload
    rw [hload, h]
  · exact store_of_outside (by rwa [hlen])

theorem writesScalar_failed (m : Mem) (out x : ℕ) : WritesScalar m out x (m, false) :=
  ⟨fun htrue => (by cases htrue), fun _ _ => rfl, fun _ => rfl⟩

/-- The numeral of a length is determined by its number. -/
theorem eq_ofNatBE {bs : Bytes} {x : ℕ} (hlen : bs.length = 32) (hval : Bytes.toNatBE bs = x) :
    bs = Bytes.ofNatBE 32 x := by
  rw [← hval, ← hlen, Bytes.ofNatBE_toNatBE]

/-! ### The opposite and the difference as natural numbers -/

theorem toNat_neg_emod (x : ℕ) {n : ℕ} (hn : 0 < n) :
    ((-(x : ℤ)) % n).toNat = (n - x % n) % n := by
  have hlt := Nat.mod_lt x hn
  have hdiv : (x : ℤ) = n * (x / n : ℕ) + (x % n : ℕ) := by
    exact_mod_cast (Nat.div_add_mod x n).symm
  have hshift : -(x : ℤ) = ((n - x % n : ℕ) : ℤ) + n * (-((x / n : ℕ) : ℤ) - 1) := by
    rw [Nat.cast_sub hlt.le]
    linarith
  rw [hshift, Int.add_mul_emod_self_left, ← Int.natCast_emod, Int.toNat_natCast]

theorem toNat_sub_emod (x y : ℕ) {n : ℕ} (hn : 0 < n) :
    (((x : ℤ) - y) % n).toNat = (x + (n - y % n) % n) % n := by
  have hneg := toNat_neg_emod y hn
  have hnonneg : 0 ≤ (-(y : ℤ)) % n := Int.emod_nonneg _ (by omega)
  have hmod : (-(y : ℤ)) % n = (((n - y % n) % n : ℕ) : ℤ) := by
    rw [← hneg, Int.toNat_of_nonneg hnonneg]
  rw [sub_eq_add_neg, Int.add_emod, hmod, ← Int.natCast_emod, ← Nat.cast_add, ← Int.natCast_emod,
    Int.toNat_natCast, Nat.mod_add_mod]

/-! ### What the functions return -/

/-- The digits left by the subtraction from the order are those of the opposite. -/
theorem subBorrow_order {reduced : Bytes} {x : ℕ} (hlen : reduced.length = 32)
    (hval : Bytes.toNatBE reduced = x % order) (hpos : 0 < x % order) :
    (Bytes.subBorrow SECP256K1_ORDER reduced).1 =
      Bytes.ofNatBE 32 ((-(x : ℤ)) % order).toNat := by
  have hlt : x % order < order := Nat.mod_lt _ (by decide)
  have hlen' : SECP256K1_ORDER.length = reduced.length := by rw [hlen]; rfl
  refine eq_ofNatBE ((Bytes.subBorrow_spec hlen').1) ?_
  have hdiff : order - x % order < order := by omega
  rw [Bytes.toNatBE_subBorrow hlen' (by rw [toNatBE_SECP256K1_ORDER, hval]; omega), hval,
    toNatBE_SECP256K1_ORDER, toNat_neg_emod x (by decide), Nat.mod_eq_of_lt hdiff]

/-- The value written for a reduced operand that is zero. -/
theorem zero32_eq {x : ℕ} (hzero : x % order = 0) :
    zero32 = Bytes.ofNatBE 32 ((-(x : ℤ)) % order).toNat := by
  refine eq_ofNatBE (by rfl) ?_
  rw [toNat_neg_emod x (by decide), hzero, Nat.sub_zero, Nat.mod_self, toNatBE_zero32]

section Specs

variable {E : MwebErr → Tape → Prop} {t : Tape}

theorem sat_mwebScalarAddModN_eq (a b : Bytes) :
    Sat (mwebScalarAddModN a b) (fun r t' =>
      (Plenty t → Plenty t' ∧ r.isSome = true) ∧
        ∀ s, r = some s → s = Bytes.ofNatBE 32 ((Bytes.toNatBE a + Bytes.toNatBE b) % order)) E t := by
  simp only [mwebScalarAddModN, alloc, sat_bind, sat_get, sat_set, sat_pure]
  cases halloc : t.allocs 0 with
  | false =>
      refine (sat_pure _).2 ⟨fun hplenty => ?_, by simp⟩
      rw [hplenty 0] at halloc
      cases halloc
  | true =>
      refine (sat_pure _).2 ⟨fun hplenty => ⟨fun k => hplenty (k + 1), rfl⟩, ?_⟩
      intro s hs
      rw [← Option.some.inj hs, toNatBE_SECP256K1_ORDER]

theorem sat_mwebScalarNegModN_eq (a : Bytes) :
    Sat (mwebScalarNegModN a) (fun r t' =>
      (Plenty t → Plenty t' ∧ r.isSome = true) ∧
        ∀ s, r = some s → s = Bytes.ofNatBE 32 ((-(Bytes.toNatBE a : ℤ)) % order).toNat) E t := by
  rw [mwebScalarNegModN, sat_bind]
  refine ((sat_mwebScalarAddModN_eq a zero32).and
    (sat_mwebScalarAddModN_toNat (E := E) a zero32)).mono ?_ (fun _ _ h => h.1)
  intro r t' h
  obtain ⟨⟨hplenty, -⟩, hval⟩ := h
  cases r with
  | none => exact (sat_pure _).2 ⟨fun ht => ⟨(hplenty ht).1, (by cases (hplenty ht).2)⟩, by simp⟩
  | some reduced =>
      obtain ⟨hlen, hreduced⟩ := hval reduced rfl
      rw [toNatBE_zero32, Nat.add_zero] at hreduced
      simp only
      rw [sat_ite]
      refine ⟨fun hzero => (sat_pure _).2 ⟨fun ht => ⟨(hplenty ht).1, rfl⟩, ?_⟩,
        fun hne => (sat_pure _).2 ⟨fun ht => ⟨(hplenty ht).1, rfl⟩, ?_⟩⟩
      · intro s hs
        rw [← Option.some.inj hs]
        exact zero32_eq (by rw [← hreduced]; exact Bytes.toNatBE_eq_zero_iff.2 hzero)
      · intro s hs
        rw [← Option.some.inj hs]
        rw [← Bytes.toNatBE_eq_zero_iff] at hne
        exact subBorrow_order hlen hreduced (by omega)

/-! ### What the calls leave in memory -/

/-- A call that leaves its result in memory, and succeeds when there is memory for the library. -/
abbrev Computes (m : Mem) (out x : ℕ) (t : Tape) (f : M (Mem × Bool)) : Prop :=
  Sat f (fun r t' => WritesScalar m out x r ∧ (Plenty t → Plenty t' ∧ r.2 = true))
    (fun _ _ => False) t

theorem computes_scalarAdd (m : Mem) (a b out : ℕ) :
    Computes m out ((Bytes.toNatBE (load m a 32) + Bytes.toNatBE (load m b 32)) % order) t
      (scalarAdd a b out m) := by
  rw [Computes, scalarAdd, sat_bind]
  refine (sat_mwebScalarAddModN_eq _ _).mono ?_ (fun _ _ h => h)
  intro r t' h
  obtain ⟨hplenty, hval⟩ := h
  cases r with
  | none =>
      exact (sat_pure _).2 ⟨writesScalar_failed _ _ _, fun ht => (by cases (hplenty ht).2)⟩
  | some s =>
      exact (sat_pure _).2 ⟨writesScalar_store (hval s rfl), fun ht => ⟨(hplenty ht).1, rfl⟩⟩

/-- Digit by digit or at once, the same bytes are written. -/
theorem scalarNeg_eq (a out : ℕ) (m : Mem) :
    scalarNeg a out m = (do
      match ← mwebScalarNegModN (load m a 32) with
      | some r => return (store m out r, true)
      | none => return (m, false)) := by
  simp only [scalarNeg, mwebScalarNegModN, storeDown_eq, bind_assoc]
  refine bind_congr fun r => ?_
  cases r with
  | none => rfl
  | some reduced =>
      simp only
      split
      · rfl
      · rfl

theorem computes_scalarNeg (m : Mem) (a out : ℕ) :
    Computes m out ((-(Bytes.toNatBE (load m a 32) : ℤ)) % order).toNat t (scalarNeg a out m) := by
  rw [Computes, scalarNeg_eq, sat_bind]
  refine (sat_mwebScalarNegModN_eq _).mono ?_ (fun _ _ h => h)
  intro r t' h
  obtain ⟨hplenty, hval⟩ := h
  cases r with
  | none =>
      exact (sat_pure _).2 ⟨writesScalar_failed _ _ _, fun ht => (by cases (hplenty ht).2)⟩
  | some s =>
      exact (sat_pure _).2 ⟨writesScalar_store (hval s rfl), fun ht => ⟨(hplenty ht).1, rfl⟩⟩

theorem computes_scalarSub (m : Mem) (a b out : ℕ) :
    Computes m out
      (((Bytes.toNatBE (load m a 32) : ℤ) - Bytes.toNatBE (load m b 32)) % order).toNat t
      (scalarSub a b out m) := by
  rw [Computes, scalarSub, sat_bind]
  refine (sat_mwebScalarNegModN_eq _).mono ?_ (fun _ _ h => h)
  intro r t' h
  obtain ⟨hneg, hnegVal⟩ := h
  cases r with
  | none => exact (sat_pure _).2 ⟨writesScalar_failed _ _ _, fun ht => (by cases (hneg ht).2)⟩
  | some negB =>
      simp only
      rw [sat_bind]
      refine (sat_mwebScalarAddModN_eq _ _).mono ?_ (fun _ _ h => h)
      intro r t'' h
      obtain ⟨hplenty, hval⟩ := h
      cases r with
      | none =>
          refine (sat_pure _).2 ⟨writesScalar_failed _ _ _, fun ht => ?_⟩
          cases (hplenty (hneg ht).1).2
      | some s =>
          refine (sat_pure _).2 ⟨writesScalar_store ?_, fun ht => ⟨(hplenty (hneg ht).1).1, rfl⟩⟩
          have hlt : ∀ x : ℕ, x % order < 256 ^ 32 := fun x =>
            Nat.lt_trans (Nat.mod_lt _ (by decide)) (by decide)
          rw [hval s rfl, hnegVal negB rfl, toNat_neg_emod _ (by decide),
            Bytes.toNatBE_ofNatBE_of_lt (hlt _), toNat_sub_emod _ _ (by decide)]

end Specs

/-! ### The result -/

/-- **The arithmetic of scalars is exact.**  Wherever the operands and the result lie in memory,
overlapping in any way, and whatever the values of the operands, the sum, the opposite and the
difference are written as canonical numerals and nothing else is written; a call fails only without
memory for the library, and then it writes nothing.  A key is accepted exactly when its value lies
between one and the order. -/
theorem scalar_arithmetic_exact (m : Mem) (a b out : ℕ) (t : Tape) :
    Computes m out ((Bytes.toNatBE (load m a 32) + Bytes.toNatBE (load m b 32)) % order) t
        (scalarAdd a b out m) ∧
      Computes m out ((-(Bytes.toNatBE (load m a 32) : ℤ)) % order).toNat t
        (scalarNeg a out m) ∧
      Computes m out
        (((Bytes.toNatBE (load m a 32) : ℤ) - Bytes.toNatBE (load m b 32)) % order).toNat t
        (scalarSub a b out m) ∧
      (mwebValidateScalar (load m a 32) = true ↔
        1 ≤ Bytes.toNatBE (load m a 32) ∧ Bytes.toNatBE (load m a 32) ≤ order - 1) := by
  refine ⟨computes_scalarAdd m a b out, computes_scalarNeg m a out, computes_scalarSub m a b out, ?_⟩
  rw [mwebValidateScalar_iff (length_load m a 32)]
  have horder : 1 ≤ order := by decide
  constructor
  · intro h
    exact ⟨h.pos, Nat.le_sub_one_of_lt h.lt⟩
  · intro h
    exact ⟨length_load m a 32, h.1, Nat.lt_of_le_sub_one horder h.2⟩

end Jade.Mweb
