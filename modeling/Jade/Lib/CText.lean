/-
**Texts of the C library.**

Lines of a text, numbers written in decimal, and the comparison of letters of either case, on byte
strings.

Main definitions:

* `Jade.toLower`, `Jade.sameLetters` — the comparison of `strcasecmp`;
* `Jade.isSpace`, `Jade.isDigit`, `Jade.strtoul` — the numbers at the front of a text;
* `Jade.memchr`, `Jade.printText` — the first of a byte in a text, and what is printed of a text;
* `Jade.textLines` — the lines of a text that have anything in them.

Main results:

* `Jade.memchr_eq_some`, `Jade.length_cstr` — a search that succeeds cuts the text in two, and
  a text is printed in full when it has no terminator inside;
* `Jade.leadingNumber_ascii_toString` — a number that has been written is read again;
* `Jade.textLines_append` — a line is taken off the front of a text;
* `Jade.mem_of_mem_intercalate`, `Jade.mem_of_mem_splitOn` — the bytes of a text and of its pieces;
* `Jade.span_separator` — what stands before and behind the first separator.
-/

import Jade.Lib.Bytes
import Mathlib.Data.List.Basic
import Mathlib.Data.List.TakeWhile

set_option relaxedAutoImplicit false
set_option autoImplicit false

namespace Jade

/-! ### Letters -/

/-- Letters of either case are the same to `strncasecmp`. -/
def toLower (c : UInt8) : UInt8 := if 0x41 ≤ c ∧ c ≤ 0x5a then c + 0x20 else c

/-- `strcasecmp` of two texts without a terminator inside. -/
def sameLetters (as bs : Bytes) : Bool := as.map toLower == bs.map toLower

/-! ### Numbers -/

/-- `isspace` in the C locale. -/
def isSpace (c : UInt8) : Bool := c == 0x20 || (0x09 ≤ c && c ≤ 0x0d)

/-- A decimal digit. -/
def isDigit (c : UInt8) : Bool := 0x30 ≤ c && c ≤ 0x39

/-- The number that the digits at the front of a string spell. -/
def leadingNumber (bs : Bytes) : ℕ :=
  (bs.takeWhile isDigit).foldl (fun n c => 10 * n + (c.toNat - 0x30)) 0

/-- `strtoul` with base 10 and 32 bits: the number, and the text behind it.  What is too large is the
largest number, and a text without a number is left where it is. -/
def strtoul (bs : Bytes) : ℕ × Bytes :=
  match bs.dropWhile isSpace with
  | [] => (0, bs)
  | c :: cs =>
      let digits := if c = 0x2d ∨ c = 0x2b then cs else c :: cs
      if (digits.takeWhile isDigit).isEmpty then (0, bs)
      else
        let n := leadingNumber digits
        (if 2 ^ 32 ≤ n then 2 ^ 32 - 1 else if c = 0x2d then (2 ^ 32 - n) % 2 ^ 32 else n,
          digits.dropWhile isDigit)

/-! ### Searching and printing -/

/-- `memchr`: how far away the first `c` is. -/
def memchr (c : UInt8) (bs : Bytes) : Option ℕ := bs.findIdx? (· == c)

theorem memchr_append {c : UInt8} {key : Bytes} (h : c ∉ key) (rest : Bytes) :
    memchr c (key ++ c :: rest) = some key.length := by
  have hkey : key.findIdx? (· == c) = none := by
    rw [List.findIdx?_eq_none_iff]
    intro x hx
    rw [beq_eq_false_iff_ne]
    rintro rfl
    exact h hx
  rw [memchr, List.findIdx?_append, hkey, List.findIdx?_cons, beq_self_eq_true]
  simp

/-- A search that succeeds cuts the text in two. -/
theorem memchr_eq_some {c : UInt8} {bs : Bytes} {e : ℕ} (h : memchr c bs = some e) :
    c ∉ bs.take e ∧ bs = bs.take e ++ c :: bs.drop (e + 1) ∧ (bs.take e).length = e := by
  rw [memchr, List.findIdx?_eq_some_iff_getElem] at h
  obtain ⟨hlt, hc, hbefore⟩ := h
  have hget : bs[e] = c := beq_iff_eq.1 hc
  refine ⟨?_, ?_, List.length_take_of_le (Nat.le_of_lt hlt)⟩
  · intro hmem
    obtain ⟨j, hj, hjc⟩ := List.mem_iff_getElem.1 hmem
    rw [List.length_take] at hj
    rw [List.getElem_take] at hjc
    exact hbefore j (by omega) (beq_iff_eq.2 hjc)
  · rw [← hget, ← List.drop_eq_getElem_cons hlt, List.take_append_drop]

theorem memchr_eq_none {c : UInt8} {bs : Bytes} : memchr c bs = none ↔ c ∉ bs := by
  rw [memchr, List.findIdx?_eq_none_iff]
  constructor
  · intro h hmem
    simpa using h c hmem
  · intro h x hx
    rw [beq_eq_false_iff_ne]
    rintro rfl
    exact h hx

/-- What `%.*s` prints: at most `precision` bytes, and nothing from a terminator on. -/
def printText (precision : ℕ) (bs : Bytes) : Bytes := Bytes.cstr (bs.take precision)

/-- A C string is all of a text just when the text has no terminator inside. -/
theorem length_cstr {bs : Bytes} : (Bytes.cstr bs).length = bs.length ↔ 0 ∉ bs := by
  rw [Bytes.cstr]
  constructor
  · intro h hmem
    have hself := (List.takeWhile_prefix (fun b : UInt8 => decide (b ≠ 0))).eq_of_length h
    simpa using List.takeWhile_eq_self_iff.1 hself 0 hmem
  · intro h
    rw [List.takeWhile_eq_self_iff.2]
    intro b hb
    exact decide_eq_true fun heq => h (heq ▸ hb)

theorem cstr_eq_self {bs : Bytes} (h : 0 ∉ bs) : Bytes.cstr bs = bs :=
  (List.takeWhile_prefix _).eq_of_length (length_cstr.2 h)

/-- A text with its terminator is read without it. -/
theorem cstr_append_nul {text : Bytes} (h : 0 ∉ text) : Bytes.cstr (text ++ [0]) = text := by
  have hall : ∀ c ∈ text, decide (c ≠ 0) = true := fun c hc => decide_eq_true fun heq => h (heq ▸ hc)
  rw [Bytes.cstr, List.takeWhile_append_of_pos hall]
  simp

theorem printText_eq {precision : ℕ} {bs : Bytes} (h : 0 ∉ bs.take precision) :
    printText precision bs = bs.take precision := cstr_eq_self h

/-- A number has at most `k` digits when it is below the `k`-th power of ten. -/
theorem length_toString_le_iff {n k : ℕ} (hk : 0 < k) : (toString n).length ≤ k ↔ n < 10 ^ k := by
  rw [Nat.toString_eq_ofList_toDigits, String.length_ofList]
  exact Nat.length_toDigits_le_iff (by decide) hk

/-! ### Strings -/

theorem ascii_append (s t : String) : ascii (s ++ t) = ascii s ++ ascii t := by
  rw [ascii, String.toList_append, List.map_append]
  rfl

theorem length_ascii (s : String) : (ascii s).length = s.length := by
  rw [ascii, List.length_map, String.length_toList]

/-- The digits of a number, read again. -/
theorem leadingNumber_ascii_toString (n : ℕ) :
    ascii (toString n) ≠ [] ∧ (ascii (toString n)).all isDigit = true ∧
      leadingNumber (ascii (toString n)) = n := by
  have htext : ascii (toString n) = (Nat.toDigits 10 n).map fun c => UInt8.ofNat c.toNat := by
    rw [ascii, Nat.toString_eq_ofList_toDigits, String.toList_ofList]
  have hdigit : ∀ c ∈ Nat.toDigits 10 n, isDigit (UInt8.ofNat c.toNat) = true ∧
      (UInt8.ofNat c.toNat).toNat = c.toNat := by
    intro c hc
    obtain ⟨hlo, hhi⟩ :=
      Char.isDigit_iff_toNat.1 (Nat.isDigit_of_mem_toDigits (by decide) (by decide) hc)
    change 48 ≤ c.toNat at hlo
    change c.toNat ≤ 57 at hhi
    have hnat : (UInt8.ofNat c.toNat).toNat = c.toNat :=
      UInt8.toNat_ofNat_of_lt' (show c.toNat < 2 ^ 8 by omega)
    refine ⟨?_, hnat⟩
    rw [isDigit, Bool.and_eq_true, decide_eq_true_iff, decide_eq_true_iff, UInt8.le_iff_toNat_le,
      UInt8.le_iff_toNat_le, hnat]
    exact ⟨hlo, hhi⟩
  have hall : (ascii (toString n)).all isDigit = true := by
    rw [htext, List.all_map, List.all_eq_true]
    exact fun c hc => (hdigit c hc).1
  refine ⟨?_, hall, ?_⟩
  · rw [htext]
    simp [Nat.toDigits_ne_nil]
  · rw [leadingNumber, List.takeWhile_eq_self_iff.2 (List.all_eq_true.1 hall), htext,
      List.foldl_map]
    conv => rhs; rw [← Nat.ofDigitChars_ten_toDigits (n := n)]
    rw [Nat.ofDigitChars_eq_foldl]
    refine List.foldl_ext _ _ _ ?_
    intro value c hc
    rw [(hdigit c hc).2]
    rfl

/-! ### Lines -/

/-- The lines of a text that have anything in them. -/
def textLines (text : Bytes) : List Bytes := (text.splitOn 0x0a).filter (!·.isEmpty)

@[simp] theorem textLines_nil : textLines [] = [] := rfl

/-- A line at the front of a text. -/
theorem textLines_append {line : Bytes} (hne : line ≠ []) (hline : 0x0a ∉ line) (rest : Bytes) :
    textLines (line ++ 0x0a :: rest) = line :: textLines rest := by
  have hsplit : (line ++ 0x0a :: rest).splitOn 0x0a = line :: rest.splitOn 0x0a := by
    rw [List.splitOn_append_cons_self, List.splitOn_eq_singleton hline, List.singleton_append]
  rw [textLines, hsplit, List.filter_cons_of_pos (by simpa using hne), textLines]

/-- What is in the pieces and between them. -/
theorem mem_of_mem_intercalate {sep c : UInt8} {pieces : List Bytes}
    (h : c ∈ [sep].intercalate pieces) : c = sep ∨ ∃ piece ∈ pieces, c ∈ piece := by
  induction pieces with
  | nil => exact absurd h List.not_mem_nil
  | cons piece pieces ih =>
      cases pieces with
      | nil =>
          rw [List.intercalate_singleton] at h
          exact .inr ⟨piece, List.mem_singleton_self _, h⟩
      | cons next pieces =>
          rw [List.intercalate_cons_cons, List.mem_append, List.mem_append] at h
          rcases h with (h | h) | h
          · exact .inr ⟨piece, List.mem_cons_self, h⟩
          · exact .inl (List.mem_singleton.1 h)
          · rcases ih h with hsep | ⟨other, hother, hc⟩
            · exact .inl hsep
            · exact .inr ⟨other, List.mem_cons_of_mem _ hother, hc⟩

/-- What is in a piece of a text is in the text. -/
theorem mem_of_mem_splitOn {sep c : UInt8} {text piece : Bytes} (hpiece : piece ∈ text.splitOn sep)
    (hc : c ∈ piece) : c ∈ text := by
  have hmem : ∀ pieces : List Bytes, piece ∈ pieces → c ∈ [sep].intercalate pieces := by
    intro pieces hpiece
    induction pieces with
    | nil => exact absurd hpiece List.not_mem_nil
    | cons first pieces ih =>
        cases pieces with
        | nil =>
            obtain rfl := List.mem_singleton.1 hpiece
            rw [List.intercalate_singleton]
            exact hc
        | cons next pieces =>
            rw [List.intercalate_cons_cons, List.mem_append]
            rcases List.mem_cons.1 hpiece with rfl | hpiece
            · exact .inl (List.mem_append_left _ hc)
            · exact .inr (ih hpiece)
  rw [← @List.intercalate_splitOn _ text _ _ sep]
  exact hmem _ hpiece

/-- What stands before the first separator, and the separator with what stands behind it. -/
theorem span_separator {sep : UInt8} {key : Bytes} (h : sep ∉ key) (rest : Bytes) :
    (key ++ sep :: rest).takeWhile (· ≠ sep) = key ∧
      (key ++ sep :: rest).dropWhile (· ≠ sep) = sep :: rest := by
  have hkey : ∀ c ∈ key, decide (c ≠ sep) = true := fun c hc => decide_eq_true fun heq => h (heq ▸ hc)
  rw [List.takeWhile_append_of_pos hkey, List.dropWhile_append_of_pos hkey]
  simp

end Jade
