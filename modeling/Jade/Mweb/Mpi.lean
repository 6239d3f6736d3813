/-
**The big integers of the scalar arithmetic (`mweb_scalar.c`, `mweb_blind.c`, `mweb_schnorr.c`).**

The sums modulo the order and the power in `fe_is_quad` are computed by `mbedtls`, which is not part of
this repository.  Elsewhere its big integers are numbers.  Here the library is a parameter, the three
functions that call it are written out with its calls, and what is relied on is a record of laws: every
big integer has a value, and each call that has the memory for it does to the values what its
documentation says.  Over every library with these laws the three functions are those of the model.

A call that runs out of memory ends its function without a result, whichever call it is, so that there
is one outcome of the allocator for all calls of a function.

Main definitions:

* `Jade.Mweb.MpiLib` — the functions called;
* `Jade.Mweb.MpiLib.Lawful` — what they do to the values;
* `Jade.Mweb.natMpi` — a model of the laws.

Main results:

* `Jade.Mweb.mwebScalarAddModNWith_eq`, `Jade.Mweb.addCanonicalWith_eq`, `Jade.Mweb.feIsQuadWith_eq` —
  **the library may be any with these laws**.
-/

import Jade.Mweb.PrimeOrder

set_option relaxedAutoImplicit false
set_option autoImplicit false

namespace Jade.Mweb

/-! ### The library -/

/-- What `mbedtls/bignum.h` is called for. -/
structure MpiLib where
  Mpi : Type
  /-- `mbedtls_mpi_read_binary` -/
  readBinary : Bytes → Mpi
  /-- `mbedtls_mpi_write_binary`, which fails when the buffer is too small -/
  writeBinary : Mpi → ℕ → Option Bytes
  /-- `mbedtls_mpi_add_mpi` -/
  addMpi : Mpi → Mpi → Mpi
  /-- `mbedtls_mpi_mod_mpi` -/
  modMpi : Mpi → Mpi → Mpi
  /-- `mbedtls_mpi_cmp_mpi` -/
  cmpMpi : Mpi → Mpi → ℤ
  /-- `mbedtls_mpi_cmp_int` -/
  cmpInt : Mpi → ℤ → ℤ
  /-- `mbedtls_mpi_exp_mod`: base, exponent, modulus -/
  expMod : Mpi → Mpi → Mpi → Mpi

/-- What the code relies on: moduli are not zero, and that of a power is odd. -/
structure MpiLib.Lawful (L : MpiLib) (value : L.Mpi → ℕ) : Prop where
  read : ∀ bs, value (L.readBinary bs) = Bytes.toNatBE bs
  write : ∀ x len, value x < 256 ^ len → L.writeBinary x len = some (Bytes.ofNatBE len (value x))
  add : ∀ x y, value (L.addMpi x y) = value x + value y
  mod : ∀ x n, value n ≠ 0 → value (L.modMpi x n) = value x % value n
  cmp : ∀ x y, 0 ≤ L.cmpMpi x y ↔ value y ≤ value x
  cmpInt : ∀ x n, L.cmpInt x n = 0 ↔ (value x : ℤ) = n
  exp : ∀ b e n, value n % 2 = 1 → value (L.expMod b e n) = value b ^ value e % value n

section With

variable (L : MpiLib)

/-! ### The functions over the library -/

/-- `r = (a + b) mod n`, written out. -/
def addModN (a b : L.Mpi) : Option Bytes :=
  L.writeBinary (L.modMpi (L.addMpi a b) (L.readBinary SECP256K1_ORDER)) 32

/-- `mweb_scalar_add_mod_n` -/
def mwebScalarAddModNWith (a b : Bytes) : M (Option Bytes) := do
  if ← alloc then pure (addModN L (L.readBinary a) (L.readBinary b))
  else pure none

/-- The addition at the end of `mweb_blind_switch`. -/
def addCanonicalWith (blind tweak : Bytes) : M (Option Bytes) := do
  if ← alloc then
    let b := L.readBinary blind
    let t := L.readBinary tweak
    let n := L.readBinary SECP256K1_ORDER
    if L.cmpMpi t n ≥ 0 then pure none
    else if L.cmpMpi b n ≥ 0 then pure none
    else pure (addModN L b t)
  else pure none

/-- `fe_is_quad` -/
def feIsQuadWith (y : Bytes) : M (Option Bool) := do
  if ← alloc then
    let res := L.expMod (L.readBinary y) (L.readBinary SECP256K1_HALF_P_MINUS_1)
      (L.readBinary SECP256K1_FIELD_PRIME)
    pure (some (L.cmpInt res 1 == 0))
  else pure none

variable {L} {value : L.Mpi → ℕ}

/-- The sum has room in the buffer. -/
theorem addModN_eq (hL : L.Lawful value) (a b : L.Mpi) :
    addModN L a b =
      some (Bytes.ofNatBE 32 ((value a + value b) % Bytes.toNatBE SECP256K1_ORDER)) := by
  have horder : value (L.readBinary SECP256K1_ORDER) = order := by
    rw [hL.read, toNatBE_SECP256K1_ORDER]
  have hsum : value (L.modMpi (L.addMpi a b) (L.readBinary SECP256K1_ORDER)) =
      (value a + value b) % order := by
    rw [hL.mod _ _ (by rw [horder]; decide), horder, hL.add]
  have hlt : (value a + value b) % order < 256 ^ 32 :=
    Nat.lt_trans (Nat.mod_lt _ (by decide)) (by decide)
  rw [addModN, hL.write _ _ (by rw [hsum]; exact hlt), hsum, toNatBE_SECP256K1_ORDER]

/-- **The sum does not depend on the library.** -/
theorem mwebScalarAddModNWith_eq (hL : L.Lawful value) (a b : Bytes) :
    mwebScalarAddModNWith L a b = mwebScalarAddModN a b := by
  rw [mwebScalarAddModNWith, mwebScalarAddModN]
  refine bind_congr fun ok => ?_
  cases ok with
  | false => rw [if_neg Bool.false_ne_true, if_neg Bool.false_ne_true]
  | true => rw [if_pos rfl, if_pos rfl, addModN_eq hL, hL.read, hL.read]

/-- **Neither does the sum of canonical operands.** -/
theorem addCanonicalWith_eq (hL : L.Lawful value) (blind tweak : Bytes) :
    addCanonicalWith L blind tweak = addCanonical blind tweak := by
  have hcmp : ∀ bs, L.cmpMpi (L.readBinary bs) (L.readBinary SECP256K1_ORDER) ≥ 0 ↔
      Bytes.toNatBE bs ≥ Bytes.toNatBE SECP256K1_ORDER := by
    intro bs
    rw [ge_iff_le, hL.cmp, hL.read, hL.read]
  rw [addCanonicalWith, addCanonical]
  refine bind_congr fun ok => ?_
  cases ok with
  | false => rw [if_neg Bool.false_ne_true, if_neg Bool.false_ne_true]
  | true =>
      rw [if_pos rfl, if_pos rfl]
      refine if_congr (hcmp tweak) rfl (if_congr (hcmp blind) rfl ?_)
      rw [addModN_eq hL, hL.read, hL.read]

/-- **Nor the answer of `fe_is_quad`.** -/
theorem feIsQuadWith_eq (hL : L.Lawful value) (y : Bytes) : feIsQuadWith L y = feIsQuad y := by
  have hodd : value (L.readBinary SECP256K1_FIELD_PRIME) % 2 = 1 := by
    rw [hL.read]
    decide
  have hbits : Bytes.toNatBE SECP256K1_HALF_P_MINUS_1 < 2 ^ 256 := by decide
  have hpower := hL.exp (L.readBinary y) (L.readBinary SECP256K1_HALF_P_MINUS_1) _ hodd
  rw [hL.read, hL.read, hL.read, ← mpiExpMod_eq _ hbits] at hpower
  have hone := hL.cmpInt (L.expMod (L.readBinary y) (L.readBinary SECP256K1_HALF_P_MINUS_1)
    (L.readBinary SECP256K1_FIELD_PRIME)) 1
  rw [hpower, Nat.cast_eq_one] at hone
  rw [feIsQuadWith, feIsQuad]
  refine bind_congr fun ok => ?_
  cases ok with
  | false => rw [if_neg Bool.false_ne_true, if_neg Bool.false_ne_true]
  | true =>
      have hanswer := Bool.eq_iff_iff.2 ((beq_iff_eq.trans hone).trans beq_iff_eq.symm)
      rw [if_pos rfl, if_pos rfl]
      dsimp only
      rw [hanswer]

end With

/-! ### Numbers -/

/-- The numbers are such a library. -/
def natMpi : MpiLib where
  Mpi := ℕ
  readBinary := Bytes.toNatBE
  writeBinary x len := if x < 256 ^ len then some (Bytes.ofNatBE len x) else none
  addMpi x y := x + y
  modMpi x n := x % n
  cmpMpi x y := (x : ℤ) - y
  cmpInt x n := (x : ℤ) - n
  expMod b e n := mpiExpMod n (Nat.log2 e + 1) b e

theorem natMpi_lawful : natMpi.Lawful id where
  read _ := rfl
  write _ _ h := if_pos h
  add _ _ := rfl
  mod _ _ _ := rfl
  cmp _ _ := sub_nonneg.trans Nat.cast_le
  cmpInt _ _ := sub_eq_zero
  exp _ _ n _ := mpiExpMod_eq n Nat.lt_log2_self

end Jade.Mweb
