/-
**Paths as text (`wallet.c`).**

`wallet_bip32_path_as_str` writes the elements of a path one after another into a buffer.  The buffer
that its callers have is large enough for every path of the length they allow, so that the text is
there and whole.

Main definitions:

* `Jade.maxPathStrLen`, `Jade.pathText` — the size of such a buffer, and the text in it;
* `Jade.isPathChar`, `Jade.pathString` — the characters of a path, and all of it as text.

Main results:

* `Jade.walletBip32PathAsStr_eq` — a path that is not too long is written in full.
-/

import Jade.Wallet.Script
import Mathlib.Data.Nat.Digits.Defs

set_option relaxedAutoImplicit false
set_option autoImplicit false

namespace Jade

/-- `MAX_PATH_STR_LEN` -/
def maxPathStrLen (maxPathElems : ℕ) : ℕ := 1 + (1 + 10 + 1) * maxPathElems + 1

/-- A path as text. -/
def pathText (path : List UInt32) : Bytes :=
  ascii ((walletBip32PathAsStr path (maxPathStrLen MAX_PATH_LEN) false).getD "")

/-- The characters of an element of a path. -/
def isPathChar (c : Char) : Bool := c == 'm' || c == '/' || c == '\'' || c.isDigit

theorem pathElementAsStr_spec (n : UInt32) (i : ℕ) :
    (pathElementAsStr false n i).length ≤ 12 ∧
      (pathElementAsStr false n i).toList.all isPathChar = true := by
  have hdigits : (toString (unharden n).toNat).length ≤ 10 := by
    have hlt := (unharden n).toNat_lt
    exact Nat.repr_length _ 10 (by omega) (by omega)
  have hchars : (toString (unharden n).toNat).toList.all isPathChar = true := by
    rw [List.all_eq_true]
    intro c hc
    have hmem : c ∈ Nat.toDigits 10 (unharden n).toNat := by
      rw [← Nat.toList_repr]
      exact hc
    have hdigit : c.isDigit = true := Nat.isDigit_of_mem_toDigits (by decide) (by decide) hmem
    simp [isPathChar, hdigit]
  have hmark : (if isHardened n then "'" else "" : String).length ≤ 1 ∧
      (if isHardened n then "'" else "" : String).toList.all isPathChar = true := by
    split <;> decide
  rw [pathElementAsStr]
  simp only [Bool.false_and, Bool.false_eq_true, if_false, String.length_append,
    String.toList_append, List.all_append, hchars, hmark.2, Bool.and_true]
  refine ⟨?_, by decide⟩
  have : "/".length = 1 := by decide
  have := hmark.1
  omega

/-- The elements of a path one after another. -/
def pathTail (path : List UInt32) : String := String.join (path.map fun n => pathElementAsStr false n 0)

/-- The complete text of a path. -/
def pathString (path : List UInt32) : String := "m" ++ pathTail path

theorem pathTail_cons (n : UInt32) (path : List UInt32) :
    pathTail (n :: path) = pathElementAsStr false n 0 ++ pathTail path := by
  rw [pathTail, List.map_cons, String.join_cons, ← pathTail]

theorem pathTail_spec (path : List UInt32) :
    (pathTail path).length ≤ 12 * path.length ∧ (pathTail path).toList.all isPathChar = true := by
  induction path with
  | nil => exact ⟨Nat.zero_le _, rfl⟩
  | cons n path ih =>
      obtain ⟨hlen, hchars⟩ := pathElementAsStr_spec n 0
      rw [pathTail_cons, String.length_append, String.toList_append, List.all_append, hchars, ih.2,
        List.length_cons]
      exact ⟨by have := ih.1; omega, rfl⟩

/-- The loop over the elements, from the `k`-th on, writes all of them. -/
theorem pathFold_eq {outputLen : ℕ} (path : List UInt32) {text : String} (k : ℕ)
    (h : text.length + 12 * path.length ≤ outputLen) :
    (path.zipIdx k).foldlM (fun text (n, i) =>
        let element := pathElementAsStr false n i
        if element.length > outputLen - text.length then none else some (text ++ element)) text =
      some (text ++ pathTail path) := by
  induction path generalizing text k with
  | nil => simp [pathTail]
  | cons n path ih =>
      obtain ⟨hlen, -⟩ := pathElementAsStr_spec n k
      rw [List.length_cons] at h
      have hfits : ¬ (pathElementAsStr false n k).length > outputLen - text.length := by omega
      have hnext : (text ++ pathElementAsStr false n k).length + 12 * path.length ≤ outputLen := by
        rw [String.length_append]
        omega
      rw [List.zipIdx_cons, List.foldlM_cons]
      simp only [if_neg hfits]
      rw [pathTail_cons, ← String.append_assoc]
      exact ih (k + 1) hnext

theorem walletBip32PathAsStr_eq {path : List UInt32} (h : path.length ≤ MAX_PATH_LEN) :
    walletBip32PathAsStr path (maxPathStrLen MAX_PATH_LEN) false = some (pathString path) := by
  have hle : path.length ≤ 16 := h
  have hm : "m".length = 1 := by decide
  have hmax : maxPathStrLen MAX_PATH_LEN = 194 := by decide
  have hfits : "m".length + 12 * path.length ≤ maxPathStrLen MAX_PATH_LEN := by omega
  have htail := (pathTail_spec path).1
  have htake : ("m" ++ pathTail path).toList.take (maxPathStrLen MAX_PATH_LEN - 1) =
      ("m" ++ pathTail path).toList := by
    refine List.take_of_length_le ?_
    rw [String.length_toList, String.length_append]
    omega
  simp only [walletBip32PathAsStr]
  rw [show (if false = true then "" else "m") = "m" from rfl]
  erw [pathFold_eq path 0 hfits]
  rw [show ∀ f : String → Option String,
      (some ("m" ++ pathTail path) >>= f) = f ("m" ++ pathTail path) from fun _ => rfl,
    htake, String.ofList_toList]
  rfl

theorem walletBip32PathAsStr_spec {path : List UInt32} (h : path.length ≤ MAX_PATH_LEN) :
    ∃ t : String,
      walletBip32PathAsStr path (maxPathStrLen MAX_PATH_LEN) false = some ("m" ++ t) ∧
        t.length ≤ 12 * path.length ∧ t.toList.all isPathChar = true :=
  ⟨pathTail path, walletBip32PathAsStr_eq h, pathTail_spec path⟩

theorem pathText_eq {path : List UInt32} (h : path.length ≤ MAX_PATH_LEN) :
    ∃ t, walletBip32PathAsStr path (maxPathStrLen MAX_PATH_LEN) false = some t ∧
      pathText path = ascii t := by
  refine ⟨_, walletBip32PathAsStr_eq h, ?_⟩
  rw [pathText, walletBip32PathAsStr_eq h]
  rfl

end Jade
