/-
**Memory as a function of the address.**

A buffer is an address and a length, and two buffers may overlap in any way.  Storing a byte string
is storing its bytes one at a time, in either order, as long as none of them is read again in between.

Main definitions:

* `Memory.Mem` — the bytes at all addresses;
* `Memory.load`, `Memory.store` — a buffer, and the memory after a buffer has been filled;
* `Memory.storeDown` — filling a buffer from its last byte to its first.

Main results:

* `Memory.load_store` — what has been stored is there;
* `Memory.store_of_outside` — and nothing else has changed;
* `Memory.storeDown_eq` — the order of the bytes does not matter.
-/

import Jade.Lib.Bytes
import Mathlib.Logic.Function.Basic

set_option relaxedAutoImplicit false
set_option autoImplicit false

namespace Memory

/-- The bytes at all addresses. -/
abbrev Mem : Type := ℕ → UInt8

/-- The `len` bytes at an address. -/
def load (m : Mem) (a len : ℕ) : Bytes := (List.range len).map fun i => m (a + i)

@[simp] theorem length_load (m : Mem) (a len : ℕ) : (load m a len).length = len := by
  simp [load]

/-- The memory after the bytes have been put at an address. -/
def store (m : Mem) (a : ℕ) (bs : Bytes) : Mem := fun p =>
  if a ≤ p ∧ p < a + bs.length then bs.getD (p - a) 0 else m p

/-- The bytes are put there one at a time, the last one first. -/
def storeDown (m : Mem) (a : ℕ) : Bytes → Mem
  | [] => m
  | b :: bs => Function.update (storeDown m (a + 1) bs) a b

theorem store_of_outside {m : Mem} {a : ℕ} {bs : Bytes} {p : ℕ} (h : p < a ∨ a + bs.length ≤ p) :
    store m a bs p = m p := by
  rw [store, if_neg]
  omega

/-- What has been stored is there. -/
theorem load_store (m : Mem) (a : ℕ) (bs : Bytes) : load (store m a bs) a bs.length = bs := by
  refine List.ext_getElem (by simp) ?_
  intro i h₁ h₂
  simp only [load, List.getElem_map, List.getElem_range]
  rw [store, if_pos (by omega), Nat.add_sub_cancel_left,
    List.getD_eq_getElem?_getD, List.getElem?_eq_getElem h₂, Option.getD_some]

/-- The order of the bytes does not matter. -/
theorem storeDown_eq (m : Mem) (a : ℕ) (bs : Bytes) : storeDown m a bs = store m a bs := by
  induction bs generalizing a with
  | nil =>
      funext p
      rw [storeDown, store_of_outside]
      simp only [List.length_nil]
      omega
  | cons b bs ih =>
      funext p
      rw [storeDown, ih]
      by_cases hp : p = a
      · subst hp
        rw [Function.update_self, store, if_pos (by simp only [List.length_cons]; omega),
          Nat.sub_self]
        rfl
      · rw [Function.update_of_ne hp, store, store, List.length_cons]
        by_cases hin : a + 1 ≤ p ∧ p < a + 1 + bs.length
        · obtain ⟨k, rfl⟩ : ∃ k, p = a + 1 + k := ⟨p - (a + 1), by omega⟩
          rw [if_pos hin, if_pos (by omega), Nat.add_sub_cancel_left,
            show a + 1 + k - a = k + 1 by omega]
          rfl
        · rw [if_neg hin, if_neg (by omega)]

end Memory
