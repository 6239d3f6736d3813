/-
**Scalars modulo the group order, and what the signer leaves to chance.**

`mweb_scalar.c` does the arithmetic of the kernel and stealth offsets on 32-byte big-endian
numerals, canonical or not.  Addition goes through a big-integer library that may run out of
memory; negation is written out byte by byte.  What the callers rely on is one fact each: the
numeral that comes out denotes, in `ZMod n`, the sum, the opposite or the difference of what the
operands denote.

The allocator and the random number generator are read off a `Tape`, so that a statement about
every tape is a statement about every point where an allocation can fail and every key that can be
drawn.

Main definitions:

* `Jade.Mweb.MwebErr` — the error codes of the subsystem;
* `Jade.Mweb.Tape` — the outcomes of the allocations and the draws to come;
* `Jade.Mweb.scalar` — the element of `ZMod n` a numeral denotes;
* `Jade.Mweb.mwebScalarAddModN`, `Jade.Mweb.mwebScalarNegModN`, `Jade.Mweb.mwebScalarSubModN`,
  `Jade.Mweb.sumModN`;
* `Jade.Mweb.mwebValidateScalar`, `Jade.Mweb.drawScalar` — the keys the device draws for itself.

Main results:

* `Jade.Mweb.sat_mwebScalarAddModN`, `Jade.Mweb.sat_mwebScalarNegModN`,
  `Jade.Mweb.sat_mwebScalarSubModN` — what the results denote.
-/

import Jade.Lib.Bytes
import Jade.Lib.Exec
import Mathlib.Data.ZMod.Basic

set_option relaxedAutoImplicit false
set_option autoImplicit false

namespace Jade.Mweb

open Exec

/-! ### Errors and chance -/

/-- `mweb_err_t`, without `MWEB_OK`. -/
inductive MwebErr
  | missingStealthScalar
  | invalidScalar
  | outputFieldMismatch
  | inputCommitMismatch
  | balanceFail
  | kernelFeatureMismatch
  | foreignMwebInput
  | multiKernelUnsupported
  | missingKernel
  | pegoutsNotDisplayed
  | offsetAccumulateFail
  | unsupportedNetwork
  | userCancel
  | internal
  deriving Repr, DecidableEq

/-- The outcomes of the allocations and the numbers of the random generator, in the order in which
they are asked for. -/
structure Tape where
  allocs : ℕ → Bool
  trng : ℕ → ℕ

/-- A computation that allocates, draws random bytes and may fail. -/
abbrev M : Type → Type := EStateM MwebErr Tape

/-- One allocation: whether there was memory for it. -/
def alloc : M Bool := do
  let t ← get
  set { t with allocs := fun k => t.allocs (k + 1) }
  pure (t.allocs 0)

/-- `get_random`: as many bytes as asked for. -/
def getRandom (len : ℕ) : M Bytes := do
  let t ← get
  set { t with trng := fun k => t.trng (k + 1) }
  pure (Bytes.ofNatBE len (t.trng 0))

/-- `if (!x) { err = e; goto cleanup; }` -/
def orFail {α : Type} (x : Option α) (e : MwebErr) : M α :=
  match x with
  | some a => pure a
  | none => throw e

@[simp] theorem sat_orFail {α : Type} {Q : α → Tape → Prop} {E : MwebErr → Tape → Prop} {t : Tape}
    (x : Option α) (e : MwebErr) :
    Sat (orFail x e) Q E t ↔ (∀ a, x = some a → Q a t) ∧ (x = none → E e t) := by
  cases x <;> simp [orFail]

/-- `SECP256K1_ORDER` -/
def SECP256K1_ORDER : Bytes := [
  0xFF, 0xFF, 0xFF, 0xFF, 0xFF, 0xFF, 0xFF, 0xFF,
  0xFF, 0xFF, 0xFF, 0xFF, 0xFF, 0xFF, 0xFF, 0xFE,
  0xBA, 0xAE, 0xDC, 0xE6, 0xAF, 0x48, 0xA0, 0x3B,
  0xBF, 0xD2, 0x5E, 0x8C, 0xD0, 0x36, 0x41, 0x41]

/-- The order of the group. -/
def order : ℕ := 0xFFFFFFFFFFFFFFFFFFFFFFFFFFFFFFFEBAAEDCE6AF48A03BBFD25E8CD0364141

instance : NeZero order := ⟨by decide⟩

theorem toNatBE_SECP256K1_ORDER : Bytes.toNatBE SECP256K1_ORDER = order := by decide

/-- The scalar a big-endian numeral denotes. -/
def scalar (bs : Bytes) : ZMod order := (Bytes.toNatBE bs : ZMod order)

/-- The canonical numeral of a number. -/
theorem scalar_ofNatBE_mod (x : ℕ) : scalar (Bytes.ofNatBE 32 (x % order)) = (x : ZMod order) := by
  have hlt : x % order < 256 ^ 32 :=
    Nat.lt_trans (Nat.mod_lt _ (by decide)) (by decide)
  rw [scalar, Bytes.toNatBE_ofNatBE_of_lt hlt, ZMod.natCast_mod]

/-- The all-zero numeral of the accumulators. -/
def zero32 : Bytes := List.replicate 32 0

@[simp] theorem toNatBE_zero32 : Bytes.toNatBE zero32 = 0 := by decide

@[simp] theorem scalar_zero32 : scalar zero32 = 0 := by simp [scalar]

/-! ### Arithmetic -/

/-- `mweb_scalar_add_mod_n`: `none` when a big integer could not be allocated.  The big integers of
`mbedtls` are numbers; `mwebScalarAddModNWith_eq` takes any library in their place. -/
def mwebScalarAddModN (a b : Bytes) : M (Option Bytes) := do
  if ← alloc then
    let r := (Bytes.toNatBE a + Bytes.toNatBE b) % Bytes.toNatBE SECP256K1_ORDER
    pure (some (Bytes.ofNatBE 32 r))
  else pure none

/-- `mweb_scalar_neg_mod_n` -/
def mwebScalarNegModN (a : Bytes) : M (Option Bytes) := do
  match ← mwebScalarAddModN a zero32 with
  | none => pure none
  | some reduced =>
      if reduced.all (· == 0) then pure (some zero32)
      else pure (some (Bytes.subBorrow SECP256K1_ORDER reduced).1)

/-- `mweb_scalar_sub_mod_n` -/
def mwebScalarSubModN (a b : Bytes) : M (Option Bytes) := do
  match ← mwebScalarNegModN b with
  | none => pure none
  | some negB => mwebScalarAddModN a negB

/-- `for (i = 0; i < n; i++) { if (!mweb_scalar_add_mod_n(sum, xs[i], sum)) ... }` -/
def sumModN (sum : Bytes) : List Bytes → M (Option Bytes)
  | [] => pure (some sum)
  | x :: xs => do
      match ← mwebScalarAddModN sum x with
      | none => pure none
      | some sum => sumModN sum xs

section Specs

variable {E : MwebErr → Tape → Prop} {t : Tape}

theorem sat_alloc {Q : Bool → Tape → Prop} (h : ∀ b t', Q b t') : Sat alloc Q E t := by
  simp only [alloc, sat_bind, sat_get, sat_set, sat_pure]
  exact h _ _

theorem sat_getRandom {Q : Bytes → Tape → Prop} (len : ℕ) (h : ∀ bs t', Q bs t') :
    Sat (getRandom len) Q E t := by
  simp only [getRandom, sat_bind, sat_get, sat_set, sat_pure]
  exact h _ _

/-- The sum is canonical. -/
theorem sat_mwebScalarAddModN_toNat (a b : Bytes) :
    Sat (mwebScalarAddModN a b) (fun r _ => ∀ s, r = some s →
      s.length = 32 ∧ Bytes.toNatBE s = (Bytes.toNatBE a + Bytes.toNatBE b) % order) E t := by
  rw [mwebScalarAddModN, sat_bind]
  refine sat_alloc fun ok t' => ?_
  cases ok with
  | false => simp
  | true =>
      simp only [if_true, sat_pure, Option.some.injEq]
      rintro s rfl
      rw [toNatBE_SECP256K1_ORDER]
      refine ⟨Bytes.length_ofNatBE _ _, Bytes.toNatBE_ofNatBE_of_lt ?_⟩
      exact Nat.lt_trans (Nat.mod_lt _ (by decide)) (by decide)

theorem sat_mwebScalarAddModN (a b : Bytes) :
    Sat (mwebScalarAddModN a b)
      (fun r _ => ∀ s, r = some s → scalar s = scalar a + scalar b) E t := by
  refine (sat_mwebScalarAddModN_toNat a b).mono ?_ (fun _ _ h => h)
  intro r t' h s hs
  rw [scalar, (h s hs).2, ZMod.natCast_mod, Nat.cast_add, scalar, scalar]

/-- The operand is reduced first, so it need not be canonical. -/
theorem sat_mwebScalarNegModN (a : Bytes) :
    Sat (mwebScalarNegModN a) (fun r _ => ∀ s, r = some s → scalar s = -scalar a) E t := by
  rw [mwebScalarNegModN, sat_bind]
  refine (sat_mwebScalarAddModN_toNat a zero32).mono ?_ (fun _ _ h => h)
  intro r t' h
  cases r with
  | none => simp
  | some reduced =>
      obtain ⟨hlen, hval⟩ := h reduced rfl
      rw [toNatBE_zero32, Nat.add_zero] at hval
      have hred : scalar reduced = scalar a := by
        rw [scalar, hval, ZMod.natCast_mod, scalar]
      simp only
      rw [sat_ite]
      refine ⟨fun hzero => ?_, fun _ => ?_⟩
      · -- a multiple of the order
        rw [← Bytes.toNatBE_eq_zero_iff] at hzero
        simp only [sat_pure, Option.some.injEq]
        rintro s rfl
        rw [scalar_zero32, ← hred, scalar, hzero, Nat.cast_zero, neg_zero]
      · have hlt : Bytes.toNatBE reduced < order := hval ▸ Nat.mod_lt _ (by decide)
        have hsub : Bytes.toNatBE (Bytes.subBorrow SECP256K1_ORDER reduced).1 =
            order - Bytes.toNatBE reduced := by
          rw [Bytes.toNatBE_subBorrow (by rw [hlen]; rfl)
            (by rw [toNatBE_SECP256K1_ORDER]; exact hlt.le), toNatBE_SECP256K1_ORDER]
        simp only [sat_pure, Option.some.injEq]
        rintro s rfl
        rw [scalar, hsub, Nat.cast_sub hlt.le, ZMod.natCast_self, zero_sub, ← hred, scalar]

theorem sat_mwebScalarSubModN (a b : Bytes) :
    Sat (mwebScalarSubModN a b)
      (fun r _ => ∀ s, r = some s → scalar s = scalar a - scalar b) E t := by
  rw [mwebScalarSubModN, sat_bind]
  refine (sat_mwebScalarNegModN b).mono ?_ (fun _ _ h => h)
  intro r t' h
  cases r with
  | none => simp
  | some negB =>
      refine (sat_mwebScalarAddModN a negB).mono ?_ (fun _ _ h => h)
      intro r' t'' h' s hs
      rw [h' s hs, h negB rfl, sub_eq_add_neg]

theorem sat_sumModN (sum : Bytes) (xs : List Bytes) :
    Sat (sumModN sum xs)
      (fun r _ => ∀ s, r = some s → scalar s = scalar sum + (xs.map scalar).sum) E t := by
  induction xs generalizing sum t with
  | nil => simp [sumModN]
  | cons x xs ih =>
      rw [sumModN, sat_bind]
      refine (sat_mwebScalarAddModN sum x).mono ?_ (fun _ _ h => h)
      intro r t' h
      cases r with
      | none => simp
      | some sum' =>
          refine (ih sum').mono ?_ (fun _ _ h => h)
          intro r' t'' h' s hs
          rw [h' s hs, h sum' rfl, List.map_cons, List.sum_cons, add_assoc]

end Specs

/-! ### Keys of the device's own -/

/-- The comparison loop of `mweb_validate_scalar`: the first digit that differs decides. -/
def belowOrder : Bytes → Bytes → Bool
  | s :: ss, o :: os => if s < o then true else if s > o then false else belowOrder ss os
  | _, _ => false

/-- `mweb_validate_scalar`: neither zero nor at or above the order. -/
def mwebValidateScalar (s : Bytes) : Bool :=
  if s.all (· == 0) then false else belowOrder s SECP256K1_ORDER

/-- `for (int tries = 0; tries < 8; ++tries)`: draw until a key is a valid scalar. -/
def drawScalar : ℕ → M (Option Bytes)
  | 0 => pure none
  | tries + 1 => do
      let s ← getRandom 32
      if mwebValidateScalar s then pure (some s) else drawScalar tries

theorem sat_drawScalar {Q : Option Bytes → Tape → Prop} {E : MwebErr → Tape → Prop}
    (tries : ℕ) (h : ∀ r t', Q r t') (t : Tape) : Sat (drawScalar tries) Q E t := by
  induction tries generalizing t with
  | zero => exact (sat_pure _).2 (h _ _)
  | succ tries ih =>
      rw [drawScalar, sat_bind]
      refine sat_getRandom 32 fun s t' => ?_
      rw [sat_ite]
      exact ⟨fun _ => (sat_pure _).2 (h _ _), fun _ => ih t'⟩

end Jade.Mweb
