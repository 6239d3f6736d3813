/-
**Machine counters and the numbers they stand for.**

A counter of a fixed width holds a natural number modulo a power of two.  It may be moved without
looking; whether it says anything about the number is decided once, where it is compared.

Main results:

* `Counter.sub_ofNat_sub_ofNat` — counting down in steps;
* `Counter.eq_toNat_of_ofNat_eq`, `Counter.toNat_le_of_sub_ofNat_eq_zero` — reading a counter;
* `Counter.toNat_sub_ofNat` — counting down without wrapping.
-/

import Mathlib.Algebra.Group.Nat.Defs
import Mathlib.Data.Nat.Notation
import Mathlib.Tactic.Common

set_option relaxedAutoImplicit false
set_option autoImplicit false

namespace Counter

theorem sub_ofNat_sub_ofNat (a : UInt32) (m n : ℕ) :
    a - UInt32.ofNat m - UInt32.ofNat n = a - UInt32.ofNat (m + n) := by
  rw [UInt32.ofNat_add]
  grind

/-- A counter that counted to a number below its range shows the number. -/
theorem eq_toNat_of_ofNat_eq {a : UInt32} {n : ℕ} (hn : n < 2 ^ 32) (h : UInt32.ofNat n = a) :
    n = a.toNat := by
  subst h
  simp only [UInt32.toNat_ofNat']
  omega

/-- A counter that was counted down to zero was counted down at least from its start. -/
theorem toNat_le_of_sub_ofNat_eq_zero {a : UInt32} {n : ℕ} (h : a - UInt32.ofNat n = 0) :
    a.toNat ≤ n := by
  obtain rfl : a = UInt32.ofNat n := by grind
  simp only [UInt32.toNat_ofNat']
  exact Nat.mod_le _ _

theorem toNat_sub_ofNat {a : UInt32} {n : ℕ} (h : n ≤ a.toNat) :
    (a - UInt32.ofNat n).toNat = a.toNat - n := by
  have hn : (UInt32.ofNat n).toNat = n := by
    have := a.toNat_lt
    simp only [UInt32.toNat_ofNat']
    omega
  rw [UInt32.toNat_sub_of_le _ _ (by rw [UInt32.le_iff_toNat_le]; omega), hn]

end Counter
