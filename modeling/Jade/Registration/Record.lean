/-
**What the records of registered wallets have in common (`wallet.c`, `descriptor.c`,
`multisig.c`).**

A registered wallet is kept in flash as one packed record that ends with a keyed hash of everything
before it.  The key is the private key of the wallet, so that a record is of use to the wallet that
made it only.

The hash function is a parameter: it turns any byte string into 32 bytes.

Main definitions:

* `Jade.MasterKey`, `Jade.walletHmacWithMasterKey` — the keyed hash;
* `Jade.Authentic` — the record ends with the hash of what precedes it;
* `Jade.ReadStop`, `Jade.RecordReader` — the decoders, and why they stop;
* `Jade.CString`, `Jade.readText`, `Jade.textBytes` — a text with its length in front.

Main results:

* `Jade.reads_readText`, `Jade.stops_readText` — a text is read into its array, or turned away when
  its length exceeds the size of the array.
-/

import Jade.Keychain.Keychain
import Jade.Lib.Bytes
import Jade.Lib.Cursor
import Jade.Wallet.Script

set_option relaxedAutoImplicit false
set_option autoImplicit false

namespace Jade

open Exec Cursor

/-! ### The keyed hash -/

/-- HMAC-SHA256 under the private key of the wallet. -/
structure MasterKey where
  hmacSha256 : Bytes → Bytes
  length_hmacSha256 : ∀ data, (hmacSha256 data).length = HMAC_SHA256_LEN

/-- `wallet_hmac_with_master_key` -/
def walletHmacWithMasterKey (key : MasterKey) (data : Bytes) : Option Bytes :=
  if data.isEmpty then none else some (key.hmacSha256 data)

/-- The record ends with the keyed hash of what precedes it. -/
def Authentic (key : MasterKey) (bytes : Bytes) : Prop :=
  walletHmacWithMasterKey key (bytes.take (bytes.length - HMAC_SHA256_LEN)) =
    some (bytes.drop (bytes.length - HMAC_SHA256_LEN))

instance (key : MasterKey) (bytes : Bytes) : Decidable (Authentic key bytes) :=
  inferInstanceAs (Decidable (_ = _))

/-- What is written with its hash behind it is authentic. -/
theorem authentic_append (key : MasterKey) {body : Bytes} (h : body ≠ []) :
    Authentic key (body ++ key.hmacSha256 body) := by
  have hlen : (body ++ key.hmacSha256 body).length - HMAC_SHA256_LEN = body.length := by
    rw [List.length_append, key.length_hmacSha256, Nat.add_sub_cancel]
  rw [Authentic, hlen, List.take_left, List.drop_left, walletHmacWithMasterKey,
    if_neg (by simpa using h)]

/-! ### Decoders -/

/-- Why a record was not decoded: a check turned it away, or the decoder was cut short. -/
inductive ReadStop
  | refused
  | fault (f : Fault)
  deriving DecidableEq, Repr

/-- A decoder; copying from beyond the end of the record is a fault. -/
abbrev RecordReader (α : Type) : Type := Reader ReadStop UInt8 α

/-- `memcpy` of the next `len` bytes of the record. -/
def readBytes (len : ℕ) : RecordReader { bytes : Bytes // bytes.length = len } :=
  take (.fault .overflow) len

/-- The next byte of the record. -/
def readByte : RecordReader UInt8 := next (.fault .overflow)

/-- A little-endian number of `width` bytes. -/
def readNat (width : ℕ) : RecordReader ℕ := do
  let digits ← readBytes width
  pure (Bytes.toNatLE digits.1)

theorem reads_readBytes (len : ℕ) : Reads (readBytes len) (fun bytes word => word = bytes.1) :=
  reads_take _ len

theorem reads_readNat (width : ℕ) :
    Reads (readNat width) (fun n word => n < 256 ^ width ∧ word = Bytes.ofNatLE width n) := by
  refine (reads_bind (reads_take _ width) (fun digits => reads_pure _)).congr ?_
  intro n word
  constructor
  · rintro ⟨digits, _, _, rfl, ⟨rfl, rfl⟩, rfl⟩
    obtain ⟨digits, rfl⟩ := digits
    refine ⟨Bytes.toNatLE_lt digits, ?_⟩
    rw [List.append_nil, Bytes.ofNatLE_toNatLE]
  · rintro ⟨hlt, rfl⟩
    exact ⟨⟨_, Bytes.length_ofNatLE width n⟩, _, [], rfl,
      ⟨(Bytes.toNatLE_ofNatLE_of_lt hlt).symm, rfl⟩, (List.append_nil _).symm⟩

/-- Copying never turns a record away. -/
theorem stops_readNat (width : ℕ) : Stops (readNat width) .refused (fun _ => False) := by
  exact (stops_bind (reads_take _ width) (stops_take width) (fun _ => stops_pure _)).congr
    (fun bs => by simp)

theorem stops_readByte : Stops readByte .refused (fun _ => False) :=
  stops_next.congr (fun bs => by simp)

theorem stops_readBytes (len : ℕ) : Stops (readBytes len) .refused (fun _ => False) :=
  (stops_take len).congr (fun bs => by simp)

/-- No assertion fails while bytes are copied. -/
theorem stops_readBytes_assert (len : ℕ) : Stops (readBytes len) (.fault .assert) (fun _ => False) :=
  (stops_take len).congr (fun bs => by simp)

/-! ### Texts -/

/-- A C string in an array of `cap` bytes: there is room for the terminator. -/
structure CString (cap : ℕ) where
  chars : Bytes
  fits : chars.length < cap
  deriving DecidableEq

/-- A text with its length in front, copied into an array of `cap` bytes; then the terminator is
written behind it. -/
def readText (cap : ℕ) : RecordReader (CString cap) := do
  let len ← readNat 2
  check (len ≤ cap) .refused
  let chars ← readBytes len
  if h : len < cap then pure ⟨chars.1, by rw [chars.2]; exact h⟩ else throw (.fault .overflow)

/-- The bytes a text takes up in a record. -/
def textBytes (chars : Bytes) : Bytes := Bytes.ofNatLE 2 chars.length ++ chars

@[simp] theorem length_textBytes (chars : Bytes) : (textBytes chars).length = 2 + chars.length := by
  rw [textBytes, List.length_append, Bytes.length_ofNatLE]

/-- The record goes on with a length that exceeds `cap`. -/
def TooLong (cap : ℕ) (bs : Bytes) : Prop :=
  ∃ len rest, cap < len ∧ len < 256 ^ 2 ∧ bs = Bytes.ofNatLE 2 len ++ rest

theorem reads_readText {cap : ℕ} (hcap : cap ≤ 256 ^ 2) :
    Reads (readText cap) (fun s word => word = textBytes s.chars) := by
  have hchars : ∀ len, Reads (readBytes len >>= fun chars =>
      if h : len < cap then (pure ⟨chars.1, by rw [chars.2]; exact h⟩ : RecordReader (CString cap))
        else throw (.fault .overflow)) (fun s word => s.chars.length = len ∧ word = s.chars) := by
    intro len
    by_cases h : len < cap
    · simp only [dif_pos h]
      refine (reads_bind (reads_take _ len) (fun chars => reads_pure _)).congr ?_
      rintro ⟨cs, hcs⟩ word
      constructor
      · rintro ⟨⟨chars, rfl⟩, _, _, rfl, ⟨hs, rfl⟩, rfl⟩
        cases hs
        exact ⟨rfl, List.append_nil _⟩
      · rintro ⟨hlen, rfl⟩
        exact ⟨⟨_, hlen⟩, _, [], rfl, ⟨rfl, rfl⟩, (List.append_nil _).symm⟩
    · simp only [dif_neg h]
      refine (reads_bind (reads_take _ len) (fun chars => reads_throw _)).congr ?_
      rintro ⟨cs, hcs⟩ word
      constructor
      · rintro ⟨_, _, _, -, hfalse, -⟩
        exact hfalse.elim
      · rintro ⟨rfl, -⟩
        exact absurd hcs h
  refine (reads_bind (reads_readNat 2) (fun len => reads_bind (reads_check _ _) (fun _ =>
    hchars len))).congr ?_
  intro s word
  constructor
  · rintro ⟨_, _, _, ⟨-, rfl⟩, ⟨_, _, _, ⟨-, rfl⟩, ⟨rfl, rfl⟩, rfl⟩, rfl⟩
    rfl
  · rintro rfl
    have hfits := s.fits
    exact ⟨s.chars.length, _, s.chars, ⟨by omega, rfl⟩, ⟨(), [], s.chars,
      ⟨decide_eq_true (Nat.le_of_lt hfits), rfl⟩, ⟨rfl, rfl⟩, rfl⟩, rfl⟩

theorem stops_readText (cap : ℕ) : Stops (readText cap) .refused (TooLong cap) := by
  have hchars : ∀ len, Stops (readBytes len >>= fun chars =>
      if h : len < cap then (pure ⟨chars.1, by rw [chars.2]; exact h⟩ : RecordReader (CString cap))
        else throw (.fault .overflow)) .refused (fun _ => False) := by
    intro len
    have hlast : ∀ chars : { bytes : Bytes // bytes.length = len }, Stops
        (if h : len < cap then (pure ⟨chars.1, by rw [chars.2]; exact h⟩ : RecordReader (CString cap))
          else throw (.fault .overflow)) .refused (fun _ => False) := by
      intro chars
      split
      · exact stops_pure _
      · exact (stops_throw _).congr (fun bs => by simp)
    exact (stops_bind (reads_take _ len) (stops_readBytes len) hlast).congr (fun bs => by simp)
  refine (stops_bind (reads_readNat 2) (stops_readNat 2) (fun len =>
    stops_bind (reads_check _ _) (stops_check _ _) (fun _ => hchars len))).congr ?_
  intro bs
  constructor
  · rintro (h | ⟨len, _, rest, ⟨hlt, rfl⟩, ⟨hlen, -⟩ | ⟨_, _, _, -, h, -⟩, rfl⟩)
    · exact h.elim
    · exact ⟨len, rest, Nat.not_le.1 (of_decide_eq_false hlen), hlt, rfl⟩
    · exact h.elim
  · rintro ⟨len, rest, hcap, hlt, rfl⟩
    exact .inr ⟨len, _, rest, ⟨hlt, rfl⟩, .inl ⟨decide_eq_false (Nat.not_le.2 hcap), rfl⟩, rfl⟩

end Jade
