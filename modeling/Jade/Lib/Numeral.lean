/-
**Numerals in any base.**

A row of digits denotes a number, the most significant digit first, and a number has the row of its
last digits, however many are asked for.

Main definitions:

* `Numeral.value`, `Numeral.digits` — the number of a row of digits, and the last digits of a number;
* `Numeral.padded` — the decimal digits of a number behind leading zeros.

Main results:

* `Numeral.value_append` — rows of digits one behind the other;
* `Numeral.value_digits` — the last digits denote the number, modulo a power of the base;
* `Numeral.padded_eq_digits` — a number that fits is padded to its last digits.
-/

import Mathlib.Data.List.Basic
import Mathlib.Data.Nat.Digits.Lemmas
import Mathlib.Tactic.Ring

set_option relaxedAutoImplicit false
set_option autoImplicit false

namespace Numeral

/-! ### Rows of digits -/

/-- The number that digits denote, the most significant one first. -/
def value (base : ℕ) (ds : List ℕ) : ℕ := ds.foldl (fun n d => n * base + d) 0

/-- The last `len` digits of a number. -/
def digits (base : ℕ) : ℕ → ℕ → List ℕ
  | 0, _ => []
  | len + 1, n => n / base ^ len % base :: digits base len n

@[simp] theorem value_nil (base : ℕ) : value base [] = 0 := rfl

@[simp] theorem value_singleton (base d : ℕ) : value base [d] = d := by simp [value]

theorem foldl_value (base n : ℕ) (ds : List ℕ) :
    ds.foldl (fun n d => n * base + d) n = n * base ^ ds.length + value base ds := by
  induction ds generalizing n with
  | nil => simp
  | cons d ds ih =>
      rw [value, List.foldl_cons, List.foldl_cons, ih, ih (0 * base + d), List.length_cons]
      ring

theorem value_append (base : ℕ) (ds es : List ℕ) :
    value base (ds ++ es) = value base ds * base ^ es.length + value base es := by
  rw [value, List.foldl_append, foldl_value, ← value]

theorem value_cons (base d : ℕ) (ds : List ℕ) :
    value base (d :: ds) = d * base ^ ds.length + value base ds := by
  rw [← List.singleton_append, value_append, value_singleton]

@[simp] theorem length_digits (base len n : ℕ) : (digits base len n).length = len := by
  induction len with
  | zero => rfl
  | succ len ih => simp [digits, ih]

theorem lt_of_mem_digits {base len n d : ℕ} (hbase : 0 < base) (h : d ∈ digits base len n) :
    d < base := by
  induction len with
  | zero => simp [digits] at h
  | succ len ih =>
      rw [digits] at h
      rcases List.mem_cons.1 h with rfl | h
      · exact Nat.mod_lt _ hbase
      · exact ih h

theorem value_digits (base len n : ℕ) : value base (digits base len n) = n % base ^ len := by
  induction len with
  | zero => simp [digits, Nat.mod_one]
  | succ len ih => rw [digits, value_cons, length_digits, ih, Nat.mod_pow_succ]; ring

theorem value_lt {base : ℕ} {ds : List ℕ} (h : ∀ d ∈ ds, d < base) :
    value base ds < base ^ ds.length := by
  induction ds with
  | nil => simp
  | cons d ds ih =>
      have hd : d + 1 ≤ base := h d List.mem_cons_self
      have hds := ih fun e he => h e (List.mem_cons_of_mem _ he)
      have hmul : (d + 1) * base ^ ds.length ≤ base * base ^ ds.length := Nat.mul_le_mul_right _ hd
      rw [value_cons, List.length_cons, Nat.pow_succ, Nat.mul_comm _ base]
      rw [Nat.add_mul] at hmul
      omega

theorem digits_add_mul {base : ℕ} (hbase : 0 < base) (len n k : ℕ) :
    digits base len (k * base ^ len + n) = digits base len n := by
  induction len generalizing k with
  | zero => rfl
  | succ len ih =>
      have hsplit : k * base ^ (len + 1) + n = k * base * base ^ len + n := by ring
      have hdigit : (k * base * base ^ len + n) / base ^ len % base = n / base ^ len % base := by
        rw [Nat.add_comm, Nat.add_mul_div_right _ _ (Nat.pow_pos hbase), Nat.add_mul_mod_self_right]
      rw [hsplit, digits, hdigit, ih, ← digits]

/-- A row of digits is the row of the last digits of its number. -/
theorem digits_value {base : ℕ} (hbase : 0 < base) {ds : List ℕ} (h : ∀ d ∈ ds, d < base) :
    digits base ds.length (value base ds) = ds := by
  induction ds with
  | nil => rfl
  | cons d ds ih =>
      have hds : ∀ e ∈ ds, e < base := fun e he => h e (List.mem_cons_of_mem _ he)
      have hdigit : (d * base ^ ds.length + value base ds) / base ^ ds.length % base = d := by
        rw [Nat.mul_comm, Nat.mul_add_div (Nat.pow_pos hbase), Nat.div_eq_of_lt (value_lt hds),
          Nat.add_zero, Nat.mod_eq_of_lt (h d List.mem_cons_self)]
      rw [List.length_cons, digits, value_cons, hdigit, digits_add_mul hbase, ih hds]

/-! ### Leading zeros -/

/-- The decimal digits of a number, filled up to a width with leading zeros. -/
def padded (width n : ℕ) : List ℕ :=
  List.replicate (width - (Nat.digits 10 n).length) 0 ++ (Nat.digits 10 n).reverse

theorem value_reverse (base : ℕ) (ds : List ℕ) : value base ds.reverse = Nat.ofDigits base ds := by
  induction ds with
  | nil => rfl
  | cons d ds ih =>
      rw [List.reverse_cons, value_append, value_singleton, List.length_singleton, ih,
        Nat.ofDigits_cons]
      ring

theorem value_replicate_zero (base len : ℕ) : value base (List.replicate len 0) = 0 := by
  induction len with
  | zero => rfl
  | succ len ih => rw [List.replicate_succ, value_cons, ih, Nat.zero_mul]

/-- A number that fits is padded to its last digits. -/
theorem padded_eq_digits {width n : ℕ} (h : n < 10 ^ width) : padded width n = digits 10 width n := by
  have hlen : (padded width n).length = width := by
    have hle : (Nat.digits 10 n).length ≤ width :=
      (Nat.digits_length_le_iff (by decide) n).2 h
    simp only [padded, List.length_append, List.length_replicate, List.length_reverse]
    omega
  have hsmall : ∀ d ∈ padded width n, d < 10 := by
    intro d hd
    rcases List.mem_append.1 hd with hd | hd
    · rw [(List.mem_replicate.1 hd).2]
      decide
    · exact Nat.digits_lt_base (by decide) (List.mem_reverse.1 hd)
  have hvalue : value 10 (padded width n) = n := by
    rw [padded, value_append, value_replicate_zero, Nat.zero_mul, Nat.zero_add, value_reverse,
      Nat.ofDigits_digits]
  have hrow := digits_value (by decide) hsmall
  rw [hlen, hvalue] at hrow
  exact hrow.symm

end Numeral
