/-
**Byte strings: numerals and C strings.**

A fixed-width numeral is a byte string read in one of the two byte orders.  Reading the big-endian
numeral of a number gives the number back modulo its range, and the schoolbook subtraction of two
numerals of one width denotes the difference together with the borrow that is left over.

Main definitions:

* `Bytes` — a byte string;
* `Bytes.toNatLE`, `Bytes.toNatBE` — the number whose digits are the bytes;
* `Bytes.ofNatLE`, `Bytes.ofNatBE` — the digits of a number, cut to a width;
* `Bytes.subBorrow` — subtraction digit by digit, from the last digit on;
* `Bytes.field` — the bytes of a fixed-size field at an offset of a record;
* `Bytes.cstr` — the bytes of a C string, up to its terminator;
* `Jade.ascii` — the bytes of a text.

Main results:

* `Bytes.toNatBE_ofNatBE` — reading back a numeral;
* `Bytes.subBorrow_spec` — the digits and the borrow of a subtraction denote the difference;
* `Bytes.field_of_prefix` — a record is read off its beginning.
-/

import Mathlib.Data.Nat.Notation
import Mathlib.Data.List.TakeDrop
import Mathlib.Tactic.Linarith
import Mathlib.Tactic.Ring

set_option relaxedAutoImplicit false
set_option autoImplicit false

/-- A byte string. -/
abbrev Bytes : Type := List UInt8

namespace Bytes

/-! ### Numerals -/

/-- The number whose little-endian digits are the bytes. -/
def toNatLE : Bytes → ℕ
  | [] => 0
  | b :: bs => b.toNat + 256 * toNatLE bs

/-- The number whose big-endian digits are the bytes. -/
def toNatBE : Bytes → ℕ
  | [] => 0
  | b :: bs => b.toNat * 256 ^ bs.length + toNatBE bs

/-- The `len` low digits of `n`, the lowest first. -/
def ofNatLE : ℕ → ℕ → Bytes
  | 0, _ => []
  | len + 1, n => UInt8.ofNat (n % 256) :: ofNatLE len (n / 256)

/-- The `len` low digits of `n`, the highest first. -/
def ofNatBE : ℕ → ℕ → Bytes
  | 0, _ => []
  | len + 1, n => UInt8.ofNat (n / 256 ^ len % 256) :: ofNatBE len n

@[simp] theorem toNatBE_nil : toNatBE [] = 0 := rfl

@[simp] theorem toNatBE_cons (b : UInt8) (bs : Bytes) :
    toNatBE (b :: bs) = b.toNat * 256 ^ bs.length + toNatBE bs := rfl

@[simp] theorem length_ofNatBE (len n : ℕ) : (ofNatBE len n).length = len := by
  induction len with
  | zero => rfl
  | succ len ih => simp [ofNatBE, ih]

/-- Reading back a numeral loses what does not fit its width. -/
theorem toNatBE_ofNatBE (len n : ℕ) : toNatBE (ofNatBE len n) = n % 256 ^ len := by
  induction len with
  | zero => simp [ofNatBE, Nat.mod_one]
  | succ len ih =>
      have hdigit : (UInt8.ofNat (n / 256 ^ len % 256)).toNat = n / 256 ^ len % 256 := by
        rw [UInt8.toNat_ofNat']
        omega
      rw [ofNatBE, toNatBE_cons, hdigit, length_ofNatBE, ih, Nat.mod_pow_succ]
      ring

theorem toNatBE_ofNatBE_of_lt {len n : ℕ} (h : n < 256 ^ len) : toNatBE (ofNatBE len n) = n := by
  rw [toNatBE_ofNatBE, Nat.mod_eq_of_lt h]

theorem toNatBE_lt (bs : Bytes) : toNatBE bs < 256 ^ bs.length := by
  induction bs with
  | nil => decide
  | cons b bs ih =>
      have hb : b.toNat + 1 ≤ 256 := b.toNat_lt
      have hmul : (b.toNat + 1) * 256 ^ bs.length ≤ 256 * 256 ^ bs.length :=
        Nat.mul_le_mul_right _ hb
      rw [toNatBE_cons, List.length_cons, Nat.pow_succ]
      rw [Nat.add_mul] at hmul
      omega

theorem ofNatBE_add_mul (len n k : ℕ) : ofNatBE len (k * 256 ^ len + n) = ofNatBE len n := by
  induction len generalizing k with
  | zero => rfl
  | succ len ih =>
      have hsplit : k * 256 ^ (len + 1) + n = k * 256 * 256 ^ len + n := by
        rw [Nat.pow_succ, Nat.mul_comm (256 ^ len), Nat.mul_assoc]
      have hdigit : (k * 256 * 256 ^ len + n) / 256 ^ len % 256 = n / 256 ^ len % 256 := by
        rw [Nat.add_comm, Nat.add_mul_div_right _ _ (Nat.pow_pos (by decide)),
          Nat.add_mul_mod_self_right]
      rw [hsplit, ofNatBE, hdigit, ih, ← ofNatBE]

/-- Writing a numeral again gives the same digits. -/
theorem ofNatBE_toNatBE (bs : Bytes) : ofNatBE bs.length (toNatBE bs) = bs := by
  induction bs with
  | nil => rfl
  | cons b bs ih =>
      have hlt := toNatBE_lt bs
      have hdigit : (b.toNat * 256 ^ bs.length + toNatBE bs) / 256 ^ bs.length % 256 = b.toNat := by
        rw [Nat.mul_comm, Nat.mul_add_div (Nat.pow_pos (by decide)), Nat.div_eq_of_lt hlt,
          Nat.add_zero]
        exact Nat.mod_eq_of_lt b.toNat_lt
      rw [List.length_cons, toNatBE_cons, ofNatBE, hdigit, ofNatBE_add_mul, ih, UInt8.ofNat_toNat]

theorem toNatLE_lt (bs : Bytes) : toNatLE bs < 256 ^ bs.length := by
  induction bs with
  | nil => decide
  | cons b bs ih =>
      have hb := b.toNat_lt
      rw [toNatLE, List.length_cons, Nat.pow_succ]
      omega

@[simp] theorem length_ofNatLE (len n : ℕ) : (ofNatLE len n).length = len := by
  induction len generalizing n with
  | zero => rfl
  | succ len ih => simp [ofNatLE, ih]

theorem toNatLE_ofNatLE_of_lt {len n : ℕ} (h : n < 256 ^ len) : toNatLE (ofNatLE len n) = n := by
  induction len generalizing n with
  | zero =>
      rw [Nat.pow_zero] at h
      rw [ofNatLE, toNatLE]
      omega
  | succ len ih =>
      have hdigit : (UInt8.ofNat (n % 256)).toNat = n % 256 := by
        rw [UInt8.toNat_ofNat']
        omega
      rw [ofNatLE, toNatLE, hdigit, ih (by rw [Nat.pow_succ] at h; omega)]
      omega

/-- Writing out the number a byte string denotes gives the string back. -/
theorem ofNatLE_toNatLE (bs : Bytes) : ofNatLE bs.length (toNatLE bs) = bs := by
  induction bs with
  | nil => rfl
  | cons b bs ih =>
      have hb := b.toNat_lt
      have hdigit : (b.toNat + 256 * toNatLE bs) % 256 = b.toNat := by omega
      have hrest : (b.toNat + 256 * toNatLE bs) / 256 = toNatLE bs := by omega
      rw [List.length_cons, toNatLE, ofNatLE, hdigit, hrest, ih, UInt8.ofNat_toNat]

/-- All digits are zero exactly when the number is. -/
theorem toNatBE_eq_zero_iff {bs : Bytes} : toNatBE bs = 0 ↔ bs.all (· == 0) = true := by
  induction bs with
  | nil => simp
  | cons b bs ih =>
      have hpow : 256 ^ bs.length ≠ 0 := (Nat.pow_pos (by decide)).ne'
      simp [ih, ← UInt8.toNat_inj]

/-! ### Subtraction -/

/-- Subtract digit by digit from the last digit on: the digits of the difference and the borrow
left over at the first digit. -/
def subBorrow : Bytes → Bytes → Bytes × ℕ
  | a :: as, b :: bs =>
      let (ds, borrow) := subBorrow as bs
      let diff : Int := (a.toNat : Int) - b.toNat - borrow
      if diff < 0 then (UInt8.ofNat (diff + 256).toNat :: ds, 1)
      else (UInt8.ofNat diff.toNat :: ds, 0)
  | _, _ => ([], 0)

/-- The borrow is a flag, and the digits make up for the difference. -/
theorem subBorrow_spec {as bs : Bytes} (hlen : as.length = bs.length) :
    (subBorrow as bs).1.length = as.length ∧ (subBorrow as bs).2 ≤ 1 ∧
      toNatBE as + (subBorrow as bs).2 * 256 ^ as.length =
        toNatBE bs + toNatBE (subBorrow as bs).1 := by
  induction as generalizing bs with
  | nil =>
      obtain rfl : bs = [] := List.length_eq_zero_iff.1 hlen.symm
      simp [subBorrow]
  | cons a as ih =>
      cases bs with
      | nil => simp at hlen
      | cons b bs =>
          have hlen' : as.length = bs.length := by simpa using hlen
          obtain ⟨hds, hle, hval⟩ := ih hlen'
          have ha := a.toNat_lt
          have hb := b.toNat_lt
          generalize hrec : subBorrow as bs = rec at hds hle hval
          obtain ⟨ds, borrow⟩ := rec
          -- one digit of the difference, weighted with its place
          have hplace : ∀ d carry : ℕ, d + b.toNat + borrow = a.toNat + carry * 256 →
              a.toNat * 256 ^ as.length + toNatBE as + carry * 256 ^ (as.length + 1) =
                b.toNat * 256 ^ as.length + toNatBE bs + (d * 256 ^ as.length + toNatBE ds) := by
            intro d carry hd
            have hmul := congrArg (· * 256 ^ as.length) hd
            simp only [Nat.add_mul] at hmul
            rw [Nat.pow_succ]
            linarith
          simp only [subBorrow, hrec]
          split
          · -- a borrow is taken from the digit above
            have hd : (UInt8.ofNat ((a.toNat : Int) - b.toNat - borrow + 256).toNat).toNat
                + b.toNat + borrow = a.toNat + 256 := by
              rw [UInt8.toNat_ofNat']
              omega
            refine ⟨by simpa using hds, by simp, ?_⟩
            rw [toNatBE_cons, toNatBE_cons, toNatBE_cons, ← hlen', hds]
            exact hplace _ 1 (by omega)
          · have hd : (UInt8.ofNat ((a.toNat : Int) - b.toNat - borrow).toNat).toNat
                + b.toNat + borrow = a.toNat := by
              rw [UInt8.toNat_ofNat']
              omega
            refine ⟨by simpa using hds, by simp, ?_⟩
            rw [toNatBE_cons, toNatBE_cons, toNatBE_cons, ← hlen', hds]
            exact hplace _ 0 (by omega)

/-- Subtracting a smaller number leaves no borrow, and the digits are those of the difference. -/
theorem toNatBE_subBorrow {as bs : Bytes} (hlen : as.length = bs.length)
    (hle : toNatBE bs ≤ toNatBE as) :
    toNatBE (subBorrow as bs).1 = toNatBE as - toNatBE bs := by
  obtain ⟨hds, hflag, hval⟩ := subBorrow_spec hlen
  have hlt := toNatBE_lt (subBorrow as bs).1
  rw [hds] at hlt
  have hzero : (subBorrow as bs).2 = 0 := by
    by_contra hne
    have hone : (subBorrow as bs).2 = 1 := by omega
    rw [hone] at hval
    omega
  rw [hzero] at hval
  omega

/-! ### Records -/

/-- The `len` bytes at offset `off` of a record. -/
def field (off len : ℕ) (bs : Bytes) : Bytes := (bs.drop off).take len

/-- The C string the bytes start with. -/
def cstr (bs : Bytes) : Bytes := bs.takeWhile (· ≠ 0)

/-- A field that lies inside the beginning of a record is read off that beginning. -/
theorem field_of_prefix {bs cs : Bytes} (h : bs <+: cs) {off len : ℕ}
    (hlen : off + len ≤ bs.length) : field off len cs = field off len bs := by
  obtain ⟨ds, rfl⟩ := h
  rw [field, field, List.drop_append_of_le_length (by omega),
    List.take_append_of_le_length (by rw [List.length_drop]; omega)]

end Bytes

/-- The bytes of a text. -/
def Jade.ascii (s : String) : Bytes := s.toList.map fun c => UInt8.ofNat c.toNat
