/-
**The records of the PIN-protected wallet in flash.**

The flash holds, among other records, the encrypted wallet (`blob`) and the number of PIN attempts
left (`counter`).  They are separate records, written in separate commits: an attempt is paid for
before the blob is read, and the counter is put back to three when an attempt succeeds and again
before a new blob is stored.

Main definitions:

* `Jade.NvsKey` — the records these functions touch;
* `Jade.storageSetEncryptedBlob`, `Jade.storageDecrementCounter`, `Jade.storageRestoreCounter`, … —
  the functions of `storage.c`;
* `Jade.storageKeyNameValid` — the names that a record may have;
* `Jade.counterOf` — the counter as `storage_get_counter` reads it off the flash.

Main results:

* `Jade.sat_storageGetCounter`, `Jade.sat_storageGetEncryptedBlob` — reading has no effect;
* `Jade.counterOf_update_counter`, … — what a commit does to the counter.
-/

import Jade.Lib.Bytes
import Jade.Lib.Flash
import Mathlib.Data.List.TakeDrop

set_option relaxedAutoImplicit false
set_option autoImplicit false

namespace Jade

open Exec Flash

/-! ### Records -/

/-- The records of the default namespace that the keychain uses. -/
inductive NvsKey
  | counter
  | blob
  | networktype
  | keyflags
  deriving DecidableEq, Repr

variable {ρ γ : Type}

/-- `store_blob`: an empty record cannot be stored. -/
def storeBlob (name : NvsKey) (data : Bytes) : Prog NvsKey ρ γ Bool := do
  assert (0 < data.length)
  write name data

/-- `read_blob`: fails when the record is missing or does not fit the buffer of `len` bytes. -/
def readBlob (name : NvsKey) (len : ℕ) : Prog NvsKey ρ γ (Option Bytes) := do
  assert (0 < len)
  match ← read name with
  | some v => return if v.length ≤ len then some v else none
  | none => return none

/-- `read_blob_fixed`: the record must fill the buffer exactly. -/
def readBlobFixed (name : NvsKey) (len : ℕ) : Prog NvsKey ρ γ (Option Bytes) := do
  match ← readBlob name len with
  | some v => return if v.length = len then some v else none
  | none => return none

/-! ### Names of records -/

def NVS_KEY_NAME_MAX_SIZE : ℕ := 16

/-- `isgraph` -/
def isGraph (c : UInt8) : Bool := 33 ≤ c && c ≤ 126

/-- `storage_key_name_valid` -/
def storageKeyNameValid (name : Bytes) : Bool :=
  !name.isEmpty && decide (name.length ≤ NVS_KEY_NAME_MAX_SIZE) && name.all isGraph

/-! ### The attempt counter and the encrypted blob -/

/-- `storage_get_counter`: a missing or malformed counter reads as zero. -/
def storageGetCounter : Prog NvsKey ρ γ UInt8 := do
  match ← readBlobFixed .counter 1 with
  | some v => return v.headD 0
  | none => return 0

/-- `storage_restore_counter`. -/
def storageRestoreCounter : Prog NvsKey ρ γ Bool := storeBlob .counter [3]

/-- `storage_erase_encrypted_blob`: the counter goes first, and only the second result counts. -/
def storageEraseEncryptedBlob : Prog NvsKey ρ γ Bool := do
  let _ ← erase .counter
  erase .blob

/-- `storage_decrement_counter`: pays for one attempt, or erases the wallet when none is left. -/
def storageDecrementCounter : Prog NvsKey ρ γ Bool := do
  let counter ← storageGetCounter
  if counter = 0 ∨ counter > 3 then
    let _ ← storageEraseEncryptedBlob
    return false
  else if ← storeBlob .counter [counter - 1] then
    return true
  else
    let _ ← storageEraseEncryptedBlob
    return false

/-- `storage_set_encrypted_blob`: the counter is restored in a commit of its own, before the blob
is replaced. -/
def storageSetEncryptedBlob (encrypted : Bytes) : Prog NvsKey ρ γ Bool := do
  if ← storageRestoreCounter then
    storeBlob .blob encrypted
  else
    return false

/-- `storage_get_encrypted_blob`, into a buffer of `len` bytes. -/
def storageGetEncryptedBlob (len : ℕ) : Prog NvsKey ρ γ (Option Bytes) := readBlob .blob len

/-! ### What reading returns -/

/-- The record at `k`, when it fits a buffer of `len` bytes. -/
def fitting (st : Store NvsKey) (k : NvsKey) (len : ℕ) : Option Bytes :=
  (st k).filter (·.length ≤ len)

/-- The number of attempts the flash records. -/
def counterOf (st : Store NvsKey) : UInt8 :=
  match st .counter with
  | some [c] => c
  | _ => 0

section Rules

variable {E : Stop → Dev NvsKey ρ γ → Prop} {d : Dev NvsKey ρ γ}

theorem sat_readBlob {Q : Option Bytes → Dev NvsKey ρ γ → Prop} (k : NvsKey) {len : ℕ}
    (hlen : 0 < len) : Sat (readBlob k len) Q E d ↔ Q (fitting d.store k len) d := by
  simp only [readBlob, sat_bind, sat_assert, sat_read, fitting]
  cases h : d.store k with
  | none => simp [hlen]
  | some v => by_cases hv : v.length ≤ len <;> simp [hlen, hv, Option.filter]

/-- The record at `k`, when it fills a buffer of `len` bytes. -/
theorem sat_readBlobFixed {Q : Option Bytes → Dev NvsKey ρ γ → Prop} (k : NvsKey) {len : ℕ}
    (hlen : 0 < len) :
    Sat (readBlobFixed k len) Q E d ↔ Q ((d.store k).filter (·.length = len)) d := by
  simp only [readBlobFixed, sat_bind, sat_readBlob k hlen, fitting]
  cases d.store k with
  | none => simp
  | some v =>
      by_cases hv : v.length = len
      · simp [hv, Option.filter]
      · by_cases hle : v.length ≤ len <;> simp [hv, hle, Option.filter]

theorem sat_storageGetEncryptedBlob {Q : Option Bytes → Dev NvsKey ρ γ → Prop} {len : ℕ}
    (hlen : 0 < len) :
    Sat (storageGetEncryptedBlob len) Q E d ↔ Q (fitting d.store .blob len) d :=
  sat_readBlob .blob hlen

@[simp] theorem sat_storageGetCounter {Q : UInt8 → Dev NvsKey ρ γ → Prop} :
    Sat storageGetCounter Q E d ↔ Q (counterOf d.store) d := by
  simp only [storageGetCounter, readBlobFixed, sat_bind, sat_readBlob NvsKey.counter Nat.one_pos,
    fitting, counterOf]
  -- the record is missing, empty, one byte, or too long for the one-byte buffer
  rcases d.store .counter with _ | _ | ⟨c, _ | ⟨c', v⟩⟩ <;> simp [Option.filter]

@[simp] theorem sat_storeBlob {Q : Bool → Dev NvsKey ρ γ → Prop} (k : NvsKey) (b : UInt8)
    (v : Bytes) : Sat (storeBlob k (b :: v)) Q E d ↔ Sat (write k (b :: v)) Q E d := by
  simp [storeBlob]

end Rules

/-! ### What a commit does to the counter -/

@[simp] theorem counterOf_update_counter (st : Store NvsKey) (c : UInt8) :
    counterOf (Function.update st .counter (some [c])) = c := by simp [counterOf]

@[simp] theorem counterOf_erase_counter (st : Store NvsKey) :
    counterOf (Function.update st .counter none) = 0 := by simp [counterOf]

theorem counterOf_update_of_ne (st : Store NvsKey) {k : NvsKey} (hk : k ≠ .counter)
    (v : Option Bytes) : counterOf (Function.update st k v) = counterOf st := by
  simp [counterOf, Function.update_of_ne hk.symm]

end Jade
