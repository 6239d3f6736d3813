/-
**Searching a sorted list.**

A search that skips what is too small, takes what fits and stops at the first element that is too
large finds everything that fits, as long as the list is sorted.

Main definitions:

* `Scan.scan` — the elements such a search takes;
* `Scan.Monotone` — the list is sorted, as far as the comparison can tell.

Main results:

* `Scan.scan_eq_filter` — **in a sorted list everything that fits is found**.
-/

import Mathlib.Data.List.Basic

set_option relaxedAutoImplicit false
set_option autoImplicit false

namespace Scan

variable {α : Type}

/-- The elements that compare equal, up to the first that is greater. -/
def scan (cmp : α → Ordering) : List α → List α
  | [] => []
  | x :: xs =>
      match cmp x with
      | .lt => scan cmp xs
      | .eq => x :: scan cmp xs
      | .gt => []

/-- Behind an element that is greater there are only such elements, and in front of one that is
smaller only such elements. -/
def Monotone (cmp : α → Ordering) (xs : List α) : Prop :=
  xs.Pairwise fun x y => (cmp x = .gt → cmp y = .gt) ∧ (cmp y = .lt → cmp x = .lt)

/-- **In a sorted list everything that fits is found.** -/
theorem scan_eq_filter {cmp : α → Ordering} {xs : List α} (h : Monotone cmp xs) :
    scan cmp xs = xs.filter fun x => cmp x == .eq := by
  induction xs with
  | nil => rfl
  | cons x xs ih =>
      obtain ⟨hx, hxs⟩ := List.pairwise_cons.1 h
      have hrest := ih hxs
      rw [scan, List.filter_cons]
      cases hcmp : cmp x with
      | lt => simpa using hrest
      | eq => simpa using hrest
      | gt =>
          have hnone : xs.filter (fun y => cmp y == .eq) = [] := by
            rw [List.filter_eq_nil_iff]
            intro y hy
            rw [(hx y hy).1 hcmp]
            decide
          simp [hnone]

end Scan
