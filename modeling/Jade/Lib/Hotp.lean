/-
**One-time passwords, as the standard has them.**

The shared secret is handed out in base 32.  A password is the end of a number in decimal: four bytes
of the keyed hash of a moving factor, from the place that the last four bits of the hash point to, less
the first bit.  The moving factor is a counter, or the number of time steps that have passed.

The keyed hash is a parameter.

Main definitions:

* `Hotp.base32Value`, `Hotp.base32Decode` — the bytes behind letters and digits;
* `Hotp.truncate`, `Hotp.password` — the password for a moving factor;
* `Hotp.timeSteps` — the moving factor at a time;
* `Hotp.repeatTo` — a key repeated from its start.

Main results:

* `Hotp.cycle_add`, `Hotp.cycle_length` — a key that is repeated.
-/

import Jade.Lib.Bytes
import Jade.Lib.Numeral

set_option relaxedAutoImplicit false
set_option autoImplicit false

namespace Hotp

open Numeral

/-! ### The secret -/

/-- The alphabet: the letters, and the digits from two to seven. -/
def alphabet : List Char := "ABCDEFGHIJKLMNOPQRSTUVWXYZ234567".toList

/-- The value of a character, whose case does not matter. -/
def base32Value (ch : Char) : Option ℕ := alphabet.idxOf? ch.toUpper

theorem base32Value_lt {ch : Char} {d : ℕ} (h : base32Value ch = some d) : d < 32 := by
  rw [base32Value, List.idxOf?, List.findIdx?_eq_some_iff_findIdx_eq] at h
  exact h.1

/-- The bytes behind groups of five bits; bits that do not fill a byte are left out. -/
def base32Decode (groups : List ℕ) : Bytes :=
  Bytes.ofNatBE (5 * groups.length / 8) (value 32 groups / 2 ^ (5 * groups.length % 8))

/-- The first bytes of a key that goes round and round. -/
def cycle (key : Bytes) (len : ℕ) : Bytes :=
  (List.range len).map fun i => key.getD (i % key.length) 0

/-- A key repeated from its start to a length, if it is shorter. -/
def repeatTo (key : Bytes) (len : ℕ) : Bytes := cycle key (max len key.length)

@[simp] theorem length_cycle (key : Bytes) (len : ℕ) : (cycle key len).length = len := by
  simp [cycle]

theorem take_cycle (key : Bytes) {n len : ℕ} (h : n ≤ len) : (cycle key len).take n = cycle key n := by
  rw [cycle, ← List.map_take, List.take_range, Nat.min_eq_left h, ← cycle]

/-- Once round, the key is itself. -/
theorem cycle_length (key : Bytes) : cycle key key.length = key := by
  refine List.ext_getElem (by simp) ?_
  intro i h₁ h₂
  simp only [cycle, List.getElem_map, List.getElem_range]
  rw [Nat.mod_eq_of_lt h₂, List.getD_eq_getElem?_getD, List.getElem?_eq_getElem h₂, Option.getD_some]

/-- After whole rounds it starts again. -/
theorem cycle_add (key : Bytes) {a : ℕ} (h : key.length ∣ a) (n : ℕ) :
    cycle key (a + n) = cycle key a ++ cycle key n := by
  rw [cycle, List.range_add, List.map_append, ← cycle, List.map_map]
  congr 1
  refine List.map_congr_left fun i _ => ?_
  simp only [Function.comp]
  rw [Nat.add_mod, Nat.mod_eq_zero_of_dvd h, Nat.zero_add, Nat.mod_mod]

theorem repeatTo_of_le {key : Bytes} {len : ℕ} (h : len ≤ key.length) : repeatTo key len = key := by
  rw [repeatTo, Nat.max_eq_right h, cycle_length]

theorem flatten_replicate (key : Bytes) (n : ℕ) :
    (List.replicate n key).flatten = cycle key (n * key.length) := by
  induction n with
  | zero => simp [cycle]
  | succ n ih =>
      rw [List.replicate_succ', List.flatten_append, ih, Nat.succ_mul, cycle_add key ⟨n, Nat.mul_comm _ _⟩,
        cycle_length]
      simp

/-! ### The password -/

/-- The last byte of a hash. -/
def lastByte (hash : Bytes) : UInt8 := hash.getLastD 0

/-- The number of 31 bits at the place the last byte points to. -/
def truncate (hash : Bytes) : ℕ :=
  Bytes.toNatBE (Bytes.field ((lastByte hash).toNat % 16) 4 hash) % 2 ^ 31

/-- The password for a moving factor, with the keyed hash `hmac`. -/
def password (hmac : Bytes → Bytes → Bytes) (digits : ℕ) (key : Bytes) (factor : ℕ) : List ℕ :=
  padded digits (truncate (hmac key (Bytes.ofNatBE 8 factor)) % 10 ^ digits)

/-- The moving factor at a time. -/
def timeSteps (period time : ℕ) : ℕ := time / period

end Hotp
