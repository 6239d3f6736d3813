/-
**Bech32.**

A bech32 string is a prefix, the character `1` and a row of digits in base 32, the last six of which
are a checksum over everything before.  A witness program is a version digit and a byte string whose
bits have been regrouped in fives.

Main definitions:

* `Bech32.polymod` — the register of the checksum;
* `Bech32.decode` — the prefix and the digits of a string whose checksum verifies;
* `Bech32.program` — the bytes behind groups of five bits;
* `Bech32.decodeProgram` — the prefix, the version and the program of a string.

Main results:

* `Bech32.polymodStep_xor` — the register is linear;
* `Bech32.polymod_checksum` — a string with its checksum verifies;
* `Bech32.decode_text` — decoding gives back what a text has been made of.
-/

import Jade.Lib.Bytes
import Jade.Lib.Numeral

set_option relaxedAutoImplicit false
set_option autoImplicit false

namespace Bech32

open Numeral

/-! ### The checksum -/

/-- A generator, when the bit is set. -/
def generated (bit : Bool) (generator : ℕ) : ℕ := if bit then generator else 0

/-- One digit enters the register. -/
def polymodStep (c v : ℕ) : ℕ :=
  (c % 2 ^ 25) <<< 5 ^^^ v ^^^ generated (c.testBit 25) 0x3b6a57b2 ^^^
    generated (c.testBit 26) 0x26508e6d ^^^ generated (c.testBit 27) 0x1ea119fa ^^^
    generated (c.testBit 28) 0x3d4233dd ^^^ generated (c.testBit 29) 0x2a1462b3

/-- The register after a row of digits. -/
def polymod (c : ℕ) (vs : List ℕ) : ℕ := vs.foldl polymodStep c

theorem polymod_append (c : ℕ) (vs ws : List ℕ) :
    polymod c (vs ++ ws) = polymod (polymod c vs) ws := by
  rw [polymod, List.foldl_append, ← polymod, ← polymod]

theorem polymod_cons (c v : ℕ) (vs : List ℕ) :
    polymod c (v :: vs) = polymod (polymodStep c v) vs := rfl

theorem generated_xor (a b : Bool) (generator : ℕ) :
    generated (a ^^ b) generator = generated a generator ^^^ generated b generator := by
  cases a <;> cases b <;> simp [generated]

/-- The register is linear. -/
theorem polymodStep_xor (a b v w : ℕ) :
    polymodStep (a ^^^ b) (v ^^^ w) = polymodStep a v ^^^ polymodStep b w := by
  simp only [polymodStep, Nat.testBit_xor, generated_xor, Nat.xor_mod_two_pow,
    Nat.shiftLeft_xor_distrib]
  ac_rfl

/-- What is in the register and what enters it may be followed apart. -/
theorem polymod_xor (a b : ℕ) (vs : List ℕ) :
    polymod (a ^^^ b) vs = polymod a (List.replicate vs.length 0) ^^^ polymod b vs := by
  induction vs generalizing a b with
  | nil => rfl
  | cons v vs ih =>
      rw [List.length_cons, List.replicate_succ, polymod_cons, polymod_cons, polymod_cons, ← ih,
        ← polymodStep_xor, Nat.zero_xor]

theorem generated_lt (bit : Bool) {generator : ℕ} (h : generator < 2 ^ 30) :
    generated bit generator < 2 ^ 30 := by
  cases bit
  · exact Nat.pow_pos (by decide)
  · exact h

theorem polymodStep_lt {c v : ℕ} (hv : v < 2 ^ 30) : polymodStep c v < 2 ^ 30 := by
  have hshift : (c % 2 ^ 25) <<< 5 < 2 ^ 30 := by
    have hlt : c % 2 ^ 25 < 2 ^ 25 := Nat.mod_lt _ (by decide)
    rw [Nat.shiftLeft_eq]
    omega
  refine Nat.xor_lt_two_pow (Nat.xor_lt_two_pow (Nat.xor_lt_two_pow (Nat.xor_lt_two_pow
    (Nat.xor_lt_two_pow (Nat.xor_lt_two_pow hshift hv) ?_) ?_) ?_) ?_) ?_
  all_goals exact generated_lt _ (by decide)

/-- As long as the register does not overflow, it collects the digits. -/
theorem polymodStep_of_lt {c v : ℕ} (hc : c < 2 ^ 25) (hv : v < 32) :
    polymodStep c v = c * 32 + v := by
  have hbit : ∀ k, c.testBit (25 + k) = false := fun k =>
    Nat.testBit_lt_two_pow (Nat.lt_of_lt_of_le hc (Nat.pow_le_pow_right (by decide) (by omega)))
  have hb : c.testBit 25 = false := hbit 0
  simp only [polymodStep, hb, hbit 1, hbit 2, hbit 3, hbit 4, generated, Bool.false_eq_true,
    if_false, Nat.xor_zero, Nat.mod_eq_of_lt hc]
  refine Nat.eq_of_testBit_eq fun i => ?_
  rw [Nat.testBit_xor, Nat.testBit_shiftLeft, Nat.mul_comm, show 32 = 2 ^ 5 by rfl,
    Nat.testBit_two_pow_mul_add _ hv]
  by_cases hi : i < 5
  · rw [if_pos hi, decide_eq_false (by omega), Bool.false_and, Bool.false_xor]
  · have hzero : v.testBit i = false :=
      Nat.testBit_lt_two_pow (Nat.lt_of_lt_of_le hv (Nat.pow_le_pow_right (show 0 < 2 by decide)
        (show 5 ≤ i by omega)))
    rw [if_neg hi, decide_eq_true (by omega), Bool.true_and, hzero, Bool.xor_false]

theorem polymod_of_lt {c : ℕ} {vs : List ℕ} (hvs : ∀ v ∈ vs, v < 32)
    (h : c * 32 ^ vs.length + value 32 vs < 2 ^ 30) :
    polymod c vs = c * 32 ^ vs.length + value 32 vs := by
  induction vs generalizing c with
  | nil => simp [polymod]
  | cons v vs ih =>
      have hv : v < 32 := hvs v List.mem_cons_self
      have hpos : 0 < 32 ^ vs.length := Nat.pow_pos (show 0 < 32 by decide)
      have hsplit : c * 32 ^ (v :: vs).length + value 32 (v :: vs) =
          (c * 32 + v) * 32 ^ vs.length + value 32 vs := by
        rw [value_cons, List.length_cons]
        ring
      rw [hsplit] at h ⊢
      have hc : c < 2 ^ 25 := by
        have hle : c * 32 + v ≤ (c * 32 + v) * 32 ^ vs.length := Nat.le_mul_of_pos_right _ hpos
        omega
      rw [polymod_cons, polymodStep_of_lt hc hv]
      exact ih (fun w hw => hvs w (List.mem_cons_of_mem _ hw)) h

/-- The six digits of the checksum. -/
def checksum (vs : List ℕ) : List ℕ :=
  digits 32 6 (polymod 1 (vs ++ List.replicate 6 0) ^^^ 1)

@[simp] theorem length_checksum (vs : List ℕ) : (checksum vs).length = 6 := length_digits _ _ _

theorem lt_of_mem_checksum {vs : List ℕ} {d : ℕ} (h : d ∈ checksum vs) : d < 32 :=
  lt_of_mem_digits (by decide) h

/-- **A row of digits verifies with its checksum.** -/
theorem polymod_checksum (vs : List ℕ) : polymod 1 (vs ++ checksum vs) = 1 := by
  have hlt : polymod 1 (vs ++ List.replicate 6 0) ^^^ 1 < 2 ^ 30 := by
    refine Nat.xor_lt_two_pow ?_ (by decide)
    rw [List.replicate_succ', ← List.append_assoc, polymod_append]
    exact polymodStep_lt (by decide)
  have hvalue : value 32 (checksum vs) = polymod 1 (vs ++ List.replicate 6 0) ^^^ 1 := by
    rw [checksum, value_digits]
    exact Nat.mod_eq_of_lt hlt
  -- from an empty register, the digits of the checksum give the checksum
  have hempty : polymod 0 (checksum vs) = polymod 1 (vs ++ List.replicate 6 0) ^^^ 1 := by
    rw [polymod_of_lt (fun v hv => lt_of_mem_checksum hv), Nat.zero_mul, Nat.zero_add, hvalue]
    rw [Nat.zero_mul, Nat.zero_add, hvalue]
    exact hlt
  have hapart := polymod_xor (polymod 1 vs) 0 (checksum vs)
  rw [Nat.xor_zero, hempty, length_checksum, ← polymod_append, ← polymod_append,
    ← Nat.xor_assoc, Nat.xor_self, Nat.zero_xor] at hapart
  exact hapart

/-! ### Strings -/

/-- The alphabet. -/
def charset : List Char := "qpzry9x8gf2tvdw0s3jn54khce6mua7l".toList

/-- The value of a character. -/
def digit (ch : Char) : Option ℕ := charset.idxOf? ch

/-- The character of a value. -/
def character (d : ℕ) : Char := charset.getD d 'q'

/-- The digits a prefix enters the checksum with. -/
def hrpExpand (hrp : List Char) : List ℕ :=
  hrp.map (fun ch => ch.toNat / 32) ++ [0] ++ hrp.map fun ch => ch.toNat % 32

/-- What a character of a prefix is. -/
def IsHrpChar (ch : Char) : Prop := 33 ≤ ch.toNat ∧ ch.toNat ≤ 126 ∧ ¬('A' ≤ ch ∧ ch ≤ 'Z')

instance (ch : Char) : Decidable (IsHrpChar ch) :=
  inferInstanceAs (Decidable (_ ∧ _ ∧ ¬_))

/-- The prefix, which ends at the last `1`, and the digits, without the checksum, of a string in
lower case whose checksum verifies.  The length of the string is not limited. -/
def decode (s : List Char) : Option (List Char × List ℕ) := do
  let tail := (s.reverse.takeWhile (· ≠ '1')).reverse
  let hrp := (s.reverse.dropWhile (· ≠ '1')).tail.reverse
  guard (hrp ≠ [] ∧ '1' ∈ s ∧ hrp.all fun ch => decide (IsHrpChar ch))
  let ds ← tail.mapM digit
  guard (6 ≤ ds.length ∧ polymod 1 (hrpExpand hrp ++ ds) = 1)
  return (hrp, ds.take (ds.length - 6))

/-- The bytes behind groups of five bits: there are at most four bits of padding, all of them
zero. -/
def program (groups : List ℕ) : Option Bytes :=
  let bits := 5 * groups.length
  if bits % 8 ≤ 4 ∧ value 32 groups % 2 ^ (bits % 8) = 0 then
    some (Bytes.ofNatBE (bits / 8) (value 32 groups / 2 ^ (bits % 8)))
  else none

/-- The prefix, the version and the program of a string. -/
def decodeProgram (s : List Char) : Option (List Char × ℕ × Bytes) := do
  let (hrp, ds) ← decode s
  match ds with
  | [] => none
  | version :: groups => do
      let bytes ← program groups
      return (hrp, version, bytes)

/-- The string of a prefix and digits. -/
def text (hrp : List Char) (ds : List ℕ) : List Char :=
  hrp ++ '1' :: (ds ++ checksum (hrpExpand hrp ++ ds)).map character

theorem digit_character {d : ℕ} (h : d < 32) : digit (character d) = some d := by
  revert d
  decide

theorem character_ne_one {d : ℕ} (h : d < 32) : character d ≠ '1' := by
  revert d
  decide

theorem mapM_digit {ds : List ℕ} (h : ∀ d ∈ ds, d < 32) :
    (ds.map character).mapM digit = some ds := by
  induction ds with
  | nil => rfl
  | cons d ds ih =>
      rw [List.map_cons, List.mapM_cons, digit_character (h d List.mem_cons_self),
        ih fun e he => h e (List.mem_cons_of_mem _ he)]
      rfl

/-- **Decoding gives back what a text has been made of.** -/
theorem decode_text {hrp : List Char} {ds : List ℕ} (hne : hrp ≠ [])
    (hhrp : ∀ ch ∈ hrp, IsHrpChar ch) (hds : ∀ d ∈ ds, d < 32) :
    decode (text hrp ds) = some (hrp, ds) := by
  have hall : ∀ d ∈ ds ++ checksum (hrpExpand hrp ++ ds), d < 32 := by
    intro d hd
    rcases List.mem_append.1 hd with hd | hd
    · exact hds d hd
    · exact lt_of_mem_checksum hd
  have hsep : ∀ ch ∈ ((ds ++ checksum (hrpExpand hrp ++ ds)).map character).reverse,
      decide (ch ≠ '1') = true := by
    intro ch hch
    rw [List.mem_reverse, List.mem_map] at hch
    obtain ⟨d, hd, rfl⟩ := hch
    exact decide_eq_true (character_ne_one (hall d hd))
  have hreverse : (text hrp ds).reverse =
      ((ds ++ checksum (hrpExpand hrp ++ ds)).map character).reverse ++ '1' :: hrp.reverse := by
    simp [text]
  have htail : (text hrp ds).reverse.takeWhile (· ≠ '1') =
      ((ds ++ checksum (hrpExpand hrp ++ ds)).map character).reverse := by
    rw [hreverse, List.takeWhile_append_of_pos hsep]
    simp
  have hhead : ((text hrp ds).reverse.dropWhile (· ≠ '1')).tail.reverse = hrp := by
    rw [hreverse, List.dropWhile_append_of_pos hsep]
    simp
  have hmem : '1' ∈ text hrp ds := by simp [text]
  have hverify : polymod 1 (hrpExpand hrp ++ (ds ++ checksum (hrpExpand hrp ++ ds))) = 1 := by
    rw [← List.append_assoc]
    exact polymod_checksum _
  have hvalid : (hrp.all fun ch => decide (IsHrpChar ch)) = true :=
    List.all_eq_true.2 fun ch hch => decide_eq_true (hhrp ch hch)
  simp only [decode, htail, hhead, List.reverse_reverse, mapM_digit hall, Option.bind_eq_bind,
    Option.bind_some, Option.pure_def]
  rw [guard, if_pos ⟨hne, hmem, hvalid⟩, guard, if_pos ⟨by simp, hverify⟩]
  simp

end Bech32
