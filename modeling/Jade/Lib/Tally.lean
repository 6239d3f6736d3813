/-
**Ledgers with accounts for keys.**

A posting is credited to the first account of its key, and lost when there is none. The total under
a key counts all accounts of the key. So whatever is posted in whatever order, the total under a key
that has an account grows by what was posted under it.

Main definitions:

* `Jade.Tally.total` — what is booked under a key;
* `Jade.Tally.credit`, `Jade.Tally.creditAll` — postings.

Main results:

* `Jade.Tally.total_creditAll` — the total under a key grows by what was posted under it.
-/

import Mathlib.Algebra.BigOperators.Group.List.Basic

set_option relaxedAutoImplicit false
set_option autoImplicit false

namespace Jade.Tally

section Monoid

variable {κ M : Type} [DecidableEq κ] [AddCommMonoid M]

/-! ### Totals -/

/-- What is booked under a key. -/
def total (k : κ) : List (κ × M) → M
  | [] => 0
  | entry :: entries => (if entry.1 = k then entry.2 else 0) + total k entries

@[simp] theorem total_nil (k : κ) : total k ([] : List (κ × M)) = 0 := rfl

@[simp] theorem total_cons (k : κ) (entry : κ × M) (entries : List (κ × M)) :
    total k (entry :: entries) = (if entry.1 = k then entry.2 else 0) + total k entries := rfl

@[simp] theorem total_append (k : κ) (entries entries' : List (κ × M)) :
    total k (entries ++ entries') = total k entries + total k entries' := by
  induction entries with
  | nil => rw [List.nil_append, total_nil, zero_add]
  | cons entry entries ih => rw [List.cons_append, total_cons, total_cons, ih, add_assoc]

theorem total_map_zero {α : Type} (key : α → κ) (k : κ) (xs : List α) :
    total k (xs.map fun x => (key x, (0 : M))) = 0 := by
  induction xs with
  | nil => rfl
  | cons x xs ih => rw [List.map_cons, total_cons, ih, ite_self, add_zero]

/-! ### Postings -/

/-- Credit the first account of a key. -/
def credit (posting : κ × M) : List (κ × M) → List (κ × M)
  | [] => []
  | account :: accounts =>
      if account.1 = posting.1 then (account.1, account.2 + posting.2) :: accounts
      else account :: credit posting accounts

/-- One posting after the other. -/
def creditAll (postings accounts : List (κ × M)) : List (κ × M) :=
  postings.foldl (fun accounts posting => credit posting accounts) accounts

@[simp] theorem creditAll_nil (accounts : List (κ × M)) : creditAll [] accounts = accounts := rfl

@[simp] theorem creditAll_cons (posting : κ × M) (postings accounts : List (κ × M)) :
    creditAll (posting :: postings) accounts = creditAll postings (credit posting accounts) := rfl

@[simp] theorem creditAll_append (postings postings' accounts : List (κ × M)) :
    creditAll (postings ++ postings') accounts = creditAll postings'
      (creditAll postings accounts) :=
  List.foldl_append

@[simp] theorem keys_credit (posting : κ × M) (accounts : List (κ × M)) :
    (credit posting accounts).map Prod.fst = accounts.map Prod.fst := by
  induction accounts with
  | nil => rfl
  | cons account accounts ih =>
      rw [credit]
      split
      · rfl
      · rw [List.map_cons, List.map_cons, ih]

/-- A posting changes nothing under another key. -/
theorem total_credit_of_ne {k : κ} {posting : κ × M} (hne : posting.1 ≠ k)
    (accounts : List (κ × M)) : total k (credit posting accounts) = total k accounts := by
  induction accounts with
  | nil => rfl
  | cons account accounts ih =>
      rw [credit]
      split
      · next hsame => rw [total_cons, total_cons, hsame, if_neg hne, if_neg hne]
      · rw [total_cons, total_cons, ih]

/-- A posting counts under its key when the key has an account. -/
theorem total_credit_self {posting : κ × M} {accounts : List (κ × M)}
    (hk : posting.1 ∈ accounts.map Prod.fst) :
    total posting.1 (credit posting accounts) = total posting.1 accounts + posting.2 := by
  induction accounts with
  | nil => cases hk
  | cons account accounts ih =>
      rw [credit]
      split
      · next hsame => rw [total_cons, total_cons, if_pos hsame, if_pos hsame, add_right_comm]
      · next hother =>
          have hrest : posting.1 ∈ accounts.map Prod.fst :=
            (List.mem_cons.1 hk).resolve_left (Ne.symm hother)
          rw [total_cons, total_cons, ih hrest, add_assoc]

/-- **The total under a key with an account grows by what was posted under it.** -/
theorem total_creditAll {k : κ} {accounts : List (κ × M)} (hk : k ∈ accounts.map Prod.fst)
    (postings : List (κ × M)) :
    total k (creditAll postings accounts) = total k accounts + total k postings := by
  induction postings generalizing accounts with
  | nil => rw [creditAll_nil, total_nil, add_zero]
  | cons posting postings ih =>
      have hk' : k ∈ (credit posting accounts).map Prod.fst :=
        (keys_credit posting accounts).symm ▸ hk
      rw [creditAll_cons, ih hk', total_cons, ← add_assoc]
      congr 1
      split
      · next hsame =>
          subst hsame
          exact total_credit_self hk
      · next hother => rw [total_credit_of_ne hother, add_zero]

end Monoid

section Group

variable {κ M : Type} [DecidableEq κ] [AddCommGroup M]

/-- Postings of the opposite amounts. -/
theorem total_map_neg (k : κ) (entries : List (κ × M)) :
    total k (entries.map fun entry => (entry.1, 0 - entry.2)) = -total k entries := by
  induction entries with
  | nil => exact neg_zero.symm
  | cons entry entries ih =>
      rw [List.map_cons, total_cons, total_cons, ih, neg_add]
      split
      · rw [zero_sub]
      · rw [neg_zero]

end Group

end Jade.Tally
