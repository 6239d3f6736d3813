/-
**Sums of machine words that notice an overflow.**

A checked addition of 64-bit words either fails or returns a word that denotes the sum.  Adding up
a list that way therefore succeeds only with the sum of the numbers the words denote, whatever the
order of the checks.

Main definitions:

* `Checked.IsAdd` — an addition that is exact or fails;
* `Checked.IsExact` — one that fails only when no word denotes the sum;
* `Checked.sum` — adding up a list.

Main results:

* `Checked.toNat_sum` — a sum that did not fail is the sum of the numbers;
* `Checked.sum_eq_some_iff` — an exact addition finds the sum of a list whenever a word denotes it.
-/

import Mathlib.Algebra.BigOperators.Group.List.Basic
import Mathlib.Algebra.GroupWithZero.Nat
import Mathlib.Data.Nat.Notation

set_option relaxedAutoImplicit false
set_option autoImplicit false

namespace Checked

/-- The addition fails or is exact. -/
def IsAdd (add : UInt64 → UInt64 → Option UInt64) : Prop :=
  ∀ {a b r : UInt64}, add a b = some r → r.toNat = a.toNat + b.toNat

/-- The addition succeeds exactly when a word denotes the sum. -/
def IsExact (add : UInt64 → UInt64 → Option UInt64) : Prop :=
  ∀ {a b r : UInt64}, add a b = some r ↔ r.toNat = a.toNat + b.toNat

theorem IsExact.isAdd {add : UInt64 → UInt64 → Option UInt64} (h : IsExact add) : IsAdd add :=
  h.1

/-- Add the words of a list to `acc`, from the first on. -/
def sum (add : UInt64 → UInt64 → Option UInt64) (acc : UInt64) (xs : List UInt64) :
    Option UInt64 :=
  xs.foldlM add acc

theorem toNat_sum {add : UInt64 → UInt64 → Option UInt64} (hadd : IsAdd add) {acc r : UInt64}
    {xs : List UInt64} (h : sum add acc xs = some r) :
    r.toNat = acc.toNat + (xs.map UInt64.toNat).sum := by
  induction xs generalizing acc with
  | nil =>
      obtain rfl : acc = r := Option.some.inj h
      simp
  | cons x xs ih =>
      rw [sum, List.foldlM_cons] at h
      obtain ⟨acc', hacc', h⟩ := Option.bind_eq_some_iff.1 h
      rw [ih h, hadd hacc', List.map_cons, List.sum_cons, Nat.add_assoc]

/-- No order of the additions makes a difference: a partial sum is at most the sum. -/
theorem sum_eq_some_iff {add : UInt64 → UInt64 → Option UInt64} (hadd : IsExact add)
    {acc r : UInt64} {xs : List UInt64} :
    sum add acc xs = some r ↔ r.toNat = acc.toNat + (xs.map UInt64.toNat).sum := by
  constructor
  · exact toNat_sum hadd.isAdd
  intro h
  induction xs generalizing acc with
  | nil =>
      obtain rfl : r = acc := UInt64.toNat_inj.1 (by simpa using h)
      rfl
  | cons x xs ih =>
      rw [List.map_cons, List.sum_cons] at h
      have hlt := r.toNat_lt
      -- the next partial sum is a word
      have hacc : (UInt64.ofNat (acc.toNat + x.toNat)).toNat = acc.toNat + x.toNat :=
        UInt64.toNat_ofNat_of_lt' (show _ < 2 ^ 64 by omega)
      rw [sum, List.foldlM_cons]
      refine Option.bind_eq_some_iff.2 ⟨_, hadd.2 hacc, ih ?_⟩
      omega

end Checked
