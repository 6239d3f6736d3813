/-
**Reading a path that has been written (`wallet.c`).**

`wallet_bip32_path_as_str` writes a path into a buffer of any size, element by element, and
`wallet_bip32_path_from_str` leaves reading it to the library.  An element that fills the buffer to
its last byte has its own last character cut off for the terminator, and is taken for complete.

Main definitions:

* `Jade.fullPath` — the complete text of a path;
* `Jade.PathPiece`, `Jade.ReadsPaths` — what is documented of the library's parser;
* `Jade.walletBip32PathFromStrN` — reading a path of a limited length;
* `Jade.PathShown` — a path is not shown, or shown in full and read again.

Main results:

* `Jade.walletBip32PathAsStr_eq_ite` — what is written into a buffer of any size;
* `Jade.pathShown_iff` — **a path is shown in full or not at all**, unless its text fills the buffer.
-/

import Jade.Lib.CText
import Jade.Lib.Exec
import Jade.Wallet.PathText
import Mathlib.Data.Nat.Bitwise

set_option relaxedAutoImplicit false
set_option autoImplicit false

namespace Jade

open Exec

/-! ### Writing a path -/

/-- The elements of a path, from the `k`-th on. -/
def pathElements (pathOnly : Bool) (k : ℕ) (path : List UInt32) : String :=
  String.join ((path.zipIdx k).map fun (n, i) => pathElementAsStr pathOnly n i)

/-- The complete text of a path. -/
def fullPath (pathOnly : Bool) (path : List UInt32) : String :=
  (if pathOnly then "" else "m") ++ pathElements pathOnly 0 path

theorem pathElements_cons (pathOnly : Bool) (k : ℕ) (n : UInt32) (path : List UInt32) :
    pathElements pathOnly k (n :: path) =
      pathElementAsStr pathOnly n k ++ pathElements pathOnly (k + 1) path := by
  rw [pathElements, List.zipIdx_cons, List.map_cons, String.join_cons, pathElements]

/-- One turn of the loop: the element is written, unless it is longer than what is left. -/
def writeElement (pathOnly : Bool) (outputLen : ℕ) (text : String) (n : UInt32) (i : ℕ) :
    Option String :=
  let element := pathElementAsStr pathOnly n i
  if element.length > outputLen - text.length then none else some (text ++ element)

/-- The loop gets to its end just when everything fits without a terminator. -/
theorem foldlM_writeElement {outputLen : ℕ} (pathOnly : Bool) (path : List UInt32) {text : String}
    (k : ℕ) (htext : text.length ≤ outputLen) :
    (path.zipIdx k).foldlM (fun text (n, i) => writeElement pathOnly outputLen text n i) text =
      if text.length + (pathElements pathOnly k path).length ≤ outputLen then
        some (text ++ pathElements pathOnly k path) else none := by
  induction path generalizing text k with
  | nil =>
      have hnil : pathElements pathOnly k [] = "" := rfl
      rw [hnil, if_pos (by simpa using htext), String.append_empty]
      rfl
  | cons n path ih =>
      rw [List.zipIdx_cons, List.foldlM_cons, pathElements_cons, String.length_append]
      dsimp only
      rw [writeElement]
      by_cases hlong : (pathElementAsStr pathOnly n k).length > outputLen - text.length
      · rw [if_pos hlong, if_neg (by omega)]
        rfl
      · rw [if_neg hlong]
        have hnext : (text ++ pathElementAsStr pathOnly n k).length ≤ outputLen := by
          rw [String.length_append]
          omega
        have hrest := ih (k + 1) hnext
        rw [String.length_append, Nat.add_assoc, String.append_assoc] at hrest
        exact hrest

/-- What is in the buffer: the text, without its last character when it fills the buffer. -/
theorem walletBip32PathAsStr_eq_ite {outputLen : ℕ} (pathOnly : Bool) (path : List UInt32)
    (hlen : 0 < outputLen) :
    walletBip32PathAsStr path outputLen pathOnly =
      if (fullPath pathOnly path).length ≤ outputLen then
        some (String.ofList ((fullPath pathOnly path).toList.take (outputLen - 1))) else none := by
  have hroot : (if pathOnly then "" else "m" : String).length ≤ outputLen := by
    cases pathOnly with
    | true => exact Nat.zero_le _
    | false => exact hlen
  have hfold := foldlM_writeElement pathOnly path 0 hroot
  rw [← String.length_append, ← fullPath] at hfold
  refine (congrArg (fun text => Option.bind text fun text =>
    some (String.ofList (text.toList.take (outputLen - 1)))) hfold).trans ?_
  split
  · rfl
  · rfl

/-! ### Reading a path -/

/-- An element as text: decimal digits, and the mark of a hardened element. -/
structure PathPiece where
  digits : Bytes
  mark : Option UInt8

/-- There are digits, of a number below the mark, and the mark is one of three characters. -/
structure PathPiece.Valid (piece : PathPiece) : Prop where
  ne_nil : piece.digits ≠ []
  digits : piece.digits.all isDigit = true
  value : leadingNumber piece.digits < 2 ^ 31
  mark : ∀ c ∈ piece.mark, c = 0x27 ∨ c = 0x68 ∨ c = 0x48

def PathPiece.text (piece : PathPiece) : Bytes := piece.digits ++ piece.mark.toList

def PathPiece.element (piece : PathPiece) : UInt32 :=
  if piece.mark.isSome then harden (UInt32.ofNat (leadingNumber piece.digits))
  else UInt32.ofNat (leadingNumber piece.digits)

def BIP32_PATH_MAX_LEN : ℕ := 255

/-- What is documented of `bip32_path_from_str_n` with `BIP32_FLAG_ALLOW_UPPER`: a path is `m/`, `M/` or
nothing, and elements with a slash between any two. -/
def ReadsPaths (bip32PathFromStr : Bytes → Option (List UInt32)) : Prop :=
  ∀ (root : Option UInt8) (pieces : List PathPiece), (∀ c ∈ root, c = 0x6d ∨ c = 0x4d) →
    pieces ≠ [] → pieces.length ≤ BIP32_PATH_MAX_LEN → (∀ piece ∈ pieces, piece.Valid) →
      bip32PathFromStr (root.elim [] (fun c => [c, 0x2f]) ++
        [0x2f].intercalate (pieces.map PathPiece.text)) = some (pieces.map PathPiece.element)

/-- `wallet_bip32_path_from_str`, for a path of at most `pathLen` elements. -/
def walletBip32PathFromStrN (bip32PathFromStr : Bytes → Option (List UInt32)) (pathLen : ℕ)
    (pathstr : Bytes) : Option (List UInt32) :=
  match bip32PathFromStr pathstr with
  | none => none
  | some path => if pathLen < path.length then none else some path

/-! ### The elements of a path -/

/-- The mark and the rest of an element. -/
theorem unharden_or (n : UInt32) : unharden n ||| n &&& 0x80000000 = n := by
  rw [unharden, ← UInt32.toBitVec_inj, UInt32.toBitVec_or, UInt32.toBitVec_and,
    UInt32.toBitVec_and, ← BitVec.and_or_distrib_left]
  exact BitVec.and_allOnes

/-- An element has the mark or not. -/
theorem and_mark (n : UInt32) : n &&& 0x80000000 = 0 ∨ n &&& 0x80000000 = 0x80000000 := by
  have hbit : (n &&& 0x80000000).toNat = 2 ^ 31 * (n.toNat.testBit 31).toNat := by
    rw [UInt32.toNat_and]
    exact (Nat.and_two_pow n.toNat 31).trans (Nat.mul_comm _ _)
  rw [← UInt32.toNat_inj, ← UInt32.toNat_inj, hbit]
  cases n.toNat.testBit 31 with
  | false => exact .inl rfl
  | true => exact .inr rfl

theorem unharden_lt (n : UInt32) : (unharden n).toNat < 2 ^ 31 := by
  rw [unharden, UInt32.toNat_and]
  exact Nat.and_lt_two_pow _ (by decide)

/-- An element as it is written. -/
def pathPiece (n : UInt32) : PathPiece where
  digits := ascii (toString (unharden n).toNat)
  mark := if isHardened n then some 0x27 else none

theorem pathPiece_valid (n : UInt32) : (pathPiece n).Valid := by
  obtain ⟨hne, hdigits, hvalue⟩ := leadingNumber_ascii_toString (unharden n).toNat
  refine ⟨hne, hdigits, ?_, ?_⟩
  · change leadingNumber (ascii (toString (unharden n).toNat)) < 2 ^ 31
    rw [hvalue]
    exact unharden_lt n
  · intro c hc
    change c ∈ (if isHardened n then some 0x27 else none) at hc
    split at hc
    · exact .inl (Option.some.inj hc).symm
    · cases hc

/-- What is written for an element stands for it. -/
theorem pathPiece_element (n : UInt32) : (pathPiece n).element = n := by
  have hvalue : UInt32.ofNat (leadingNumber (pathPiece n).digits) = unharden n := by
    change UInt32.ofNat (leadingNumber (ascii (toString (unharden n).toNat))) = unharden n
    rw [(leadingNumber_ascii_toString _).2.2, UInt32.ofNat_toNat]
  have hor := unharden_or n
  rw [PathPiece.element, hvalue, pathPiece]
  rcases and_mark n with hmark | hmark
  · have hsoft : isHardened n = false := by rw [isHardened, hmark]; rfl
    rw [hmark, UInt32.or_zero] at hor
    simpa [hsoft] using hor
  · have hhard : isHardened n = true := by rw [isHardened, hmark]; rfl
    rw [hmark] at hor
    simpa [hhard, harden] using hor

/-- The text of an element, behind a slash unless it is the first of a path alone. -/
theorem ascii_pathElementAsStr (pathOnly : Bool) (n : UInt32) (i : ℕ) :
    ascii (pathElementAsStr pathOnly n i) =
      (if pathOnly && i == 0 then [] else [0x2f]) ++ (pathPiece n).text := by
  rw [pathElementAsStr, ascii_append, ascii_append, List.append_assoc, PathPiece.text, pathPiece]
  congr 1
  · split <;> rfl
  · congr 1
    dsimp only
    split <;> rfl

/-- The elements behind the first, each behind a slash. -/
theorem ascii_pathElements (pathOnly : Bool) (k : ℕ) (path : List UInt32)
    (h : (pathOnly && k == 0) = false) :
    ascii (pathElements pathOnly k path) = path.flatMap fun n => 0x2f :: (pathPiece n).text := by
  induction path generalizing k with
  | nil => rfl
  | cons n path ih =>
      rw [pathElements_cons, ascii_append, ascii_pathElementAsStr, h, ih (k + 1) (by simp),
        List.flatMap_cons]
      rfl

theorem intercalate_eq_flatMap (first : Bytes) (pieces : List Bytes) :
    [0x2f].intercalate (first :: pieces) = first ++ pieces.flatMap fun piece => 0x2f :: piece := by
  induction pieces generalizing first with
  | nil => simp
  | cons piece pieces ih =>
      rw [List.intercalate_cons_cons, ih, List.flatMap_cons, List.append_assoc,
        List.singleton_append]
      rfl

/-- The complete text of a path is one the library documents. -/
theorem ascii_fullPath (pathOnly : Bool) {path : List UInt32} (hne : path ≠ []) :
    ascii (fullPath pathOnly path) =
      (if pathOnly then none else some 0x6d).elim [] (fun c => [c, 0x2f]) ++
        [0x2f].intercalate ((path.map pathPiece).map PathPiece.text) := by
  cases path with
  | nil => exact absurd rfl hne
  | cons n path =>
      have hrest := ascii_pathElements pathOnly 1 path (by simp)
      rw [fullPath, ascii_append, pathElements_cons, ascii_append, ascii_pathElementAsStr, hrest,
        List.map_cons, List.map_cons, intercalate_eq_flatMap, List.flatMap_map, List.flatMap_map]
      cases pathOnly with
      | true => rfl
      | false => rfl

/-! ### A parser to evaluate with -/

/-- An element: digits, and a mark or nothing behind them. -/
def readPiece (text : Bytes) : Option UInt32 :=
  let value := leadingNumber text
  if (text.takeWhile isDigit).isEmpty ∨ 2 ^ 31 ≤ value then none
  else
    match text.dropWhile isDigit with
    | [] => some (UInt32.ofNat value)
    | [c] => if c = 0x27 ∨ c = 0x68 ∨ c = 0x48 then some (harden (UInt32.ofNat value)) else none
    | _ => none

/-- A path without `m/` or `M/` in front of it. -/
def pathBody (text : Bytes) : Bytes :=
  if (text.head? = some 0x6d ∨ text.head? = some 0x4d) ∧ text[1]? = some 0x2f then text.drop 2
  else text

def parsePathText (text : Bytes) : Option (List UInt32) :=
  ((pathBody text).splitOn 0x2f).mapM readPiece

/-- The digits of an element end at its mark. -/
theorem PathPiece.Valid.span {piece : PathPiece} (h : piece.Valid) :
    piece.text.takeWhile isDigit = piece.digits ∧ piece.text.dropWhile isDigit = piece.mark.toList := by
  have hdigits := List.all_eq_true.1 h.digits
  rw [PathPiece.text, List.takeWhile_append_of_pos hdigits, List.dropWhile_append_of_pos hdigits]
  cases hmark : piece.mark with
  | none => simp
  | some c =>
      have hnot : isDigit c = false := by
        rcases h.mark c hmark with rfl | rfl | rfl <;> rfl
      simp [hnot]

theorem readPiece_text {piece : PathPiece} (h : piece.Valid) :
    readPiece piece.text = some piece.element := by
  obtain ⟨htake, hdrop⟩ := h.span
  have hvalue : leadingNumber piece.text = leadingNumber piece.digits := by
    rw [leadingNumber, htake, leadingNumber,
      List.takeWhile_eq_self_iff.2 (List.all_eq_true.1 h.digits)]
  have hnot : ¬((piece.text.takeWhile isDigit).isEmpty ∨ 2 ^ 31 ≤ leadingNumber piece.text) := by
    rw [htake, hvalue, List.isEmpty_iff]
    rintro (hnil | hle)
    · exact h.ne_nil hnil
    · exact absurd h.value (Nat.not_lt.2 hle)
  rw [readPiece, if_neg hnot, hdrop, hvalue, PathPiece.element]
  cases hmark : piece.mark with
  | none => rfl
  | some c =>
      simp only [Option.toList_some, Option.isSome_some, if_true]
      exact if_pos (h.mark c hmark)

/-- There is no slash in an element. -/
theorem PathPiece.Valid.slash_notMem {piece : PathPiece} (h : piece.Valid) : 0x2f ∉ piece.text := by
  intro hmem
  rw [PathPiece.text, List.mem_append] at hmem
  rcases hmem with hmem | hmem
  · exact absurd (List.all_eq_true.1 h.digits _ hmem) (by decide)
  · rcases h.mark _ (Option.mem_toList.1 hmem) with hc | hc | hc <;> exact absurd hc (by decide)

theorem readsPaths_parsePathText : ReadsPaths parsePathText := by
  intro root pieces hroot hne _ hvalid
  have hsplit : ([0x2f].intercalate (pieces.map PathPiece.text)).splitOn 0x2f =
      pieces.map PathPiece.text := by
    refine List.splitOn_intercalate _ ?_ (by simpa using hne)
    intro text htext
    obtain ⟨piece, hpiece, rfl⟩ := List.mem_map.1 htext
    exact (hvalid piece hpiece).slash_notMem
  have hread : (pieces.map PathPiece.text).mapM readPiece = some (pieces.map PathPiece.element) := by
    rw [mapM_eq_some, List.forall₂_map_left_iff, List.forall₂_map_right_iff, List.forall₂_same]
    exact fun piece hpiece => readPiece_text (hvalid piece hpiece)
  have hbody : pathBody (root.elim [] (fun c => [c, 0x2f]) ++
      [0x2f].intercalate (pieces.map PathPiece.text)) =
        [0x2f].intercalate (pieces.map PathPiece.text) := by
    cases root with
    | some c =>
        have hc : c = 0x6d ∨ c = 0x4d := hroot c rfl
        rw [pathBody, if_pos (by simpa using hc)]
        rfl
    | none =>
        -- the path begins with a digit
        obtain ⟨piece, pieces, rfl⟩ := List.exists_cons_of_ne_nil hne
        have hpiece := hvalid piece List.mem_cons_self
        obtain ⟨d, digits, hdigits⟩ := List.exists_cons_of_ne_nil hpiece.ne_nil
        have hd : isDigit d = true :=
          List.all_eq_true.1 hpiece.digits d (by rw [hdigits]; exact List.mem_cons_self)
        have hhead : ([0x2f].intercalate ((piece :: pieces).map PathPiece.text)).head? = some d := by
          rw [List.map_cons, intercalate_eq_flatMap, PathPiece.text, hdigits]
          rfl
        rw [Option.elim_none, List.nil_append, pathBody, hhead, if_neg]
        rintro ⟨hc | hc, -⟩ <;> rw [Option.some.inj hc] at hd <;> exact absurd hd (by decide)
  rw [parsePathText, hbody, hsplit, hread]

/-! ### The result -/

/-- A path is not shown, or it is in the buffer in full, with a terminator, and is read again. -/
def PathShown (bip32PathFromStr : Bytes → Option (List UInt32)) (pathLen outputLen : ℕ)
    (pathOnly : Bool) (path : List UInt32) : Prop :=
  ∀ text, walletBip32PathAsStr path outputLen pathOnly = some text →
    text = fullPath pathOnly path ∧ text.length + 1 ≤ outputLen ∧
      walletBip32PathFromStrN bip32PathFromStr pathLen (ascii text) = some path

/-- **A path is shown in full or not at all**, unless its text fills the buffer and leaves no room for the
terminator; and what is shown in full is read again. -/
theorem pathShown_iff {bip32PathFromStr : Bytes → Option (List UInt32)}
    (hreads : ReadsPaths bip32PathFromStr) {pathLen outputLen : ℕ} (pathOnly : Bool)
    {path : List UInt32} (hne : path ≠ []) (hmax : path.length ≤ BIP32_PATH_MAX_LEN)
    (hlen : path.length ≤ pathLen) (hbuf : 16 < outputLen) :
    PathShown bip32PathFromStr pathLen outputLen pathOnly path ↔
      (fullPath pathOnly path).length ≠ outputLen := by
  have heq := walletBip32PathAsStr_eq_ite pathOnly path (show 0 < outputLen by omega)
  rw [PathShown, heq]
  constructor
  · intro h hfills
    -- the last character is missing
    rw [if_pos (Nat.le_of_eq hfills)] at h
    have htext := (h _ rfl).1
    have hlength := congrArg String.length htext
    rw [String.length_ofList, List.length_take, String.length_toList] at hlength
    omega
  · intro hnot text htext
    split at htext
    · next hle =>
        have htake : (fullPath pathOnly path).toList.take (outputLen - 1) =
            (fullPath pathOnly path).toList :=
          List.take_of_length_le (by rw [String.length_toList]; omega)
        rw [htake, String.ofList_toList] at htext
        obtain rfl := Option.some.inj htext
        refine ⟨rfl, by omega, ?_⟩
        have hread := hreads (if pathOnly then none else some 0x6d) (path.map pathPiece) ?_ ?_ ?_ ?_
        · rw [walletBip32PathFromStrN, ascii_fullPath pathOnly hne, hread, List.map_map]
          have hid : path.map (PathPiece.element ∘ pathPiece) = path :=
            (List.map_congr_left fun n _ => pathPiece_element n).trans (List.map_id path)
          rw [hid]
          exact if_neg (Nat.not_lt.2 hlen)
        · intro c hc
          cases pathOnly with
          | true => cases hc
          | false => exact .inl (Option.some.inj hc).symm
        · simpa using hne
        · rwa [List.length_map]
        · intro piece hpiece
          obtain ⟨n, -, rfl⟩ := List.mem_map.1 hpiece
          exact pathPiece_valid n
    · cases htext

/-- A path in a buffer that is large enough. -/
theorem pathShown_iff_receiving :
    walletBip32PathAsStr [0x80000054, 0x80000000, 5] 194 false = some "m/84'/0'/5" ∧
      PathShown parsePathText MAX_PATH_LEN 194 false [0x80000054, 0x80000000, 5] := by
  refine ⟨by decide +kernel, (pathShown_iff readsPaths_parsePathText false (by decide) (by decide)
    (by decide) (by decide)).2 (by decide +kernel)⟩

/-- The last digit of a path is missing when its text fills the buffer. -/
theorem path_not_shown :
    walletBip32PathAsStr [0x80000054, 0x80000000, 0x80000000, 0, 123] 17 false =
        some "m/84'/0'/0'/0/12" ∧
      ¬PathShown parsePathText MAX_PATH_LEN 17 false [0x80000054, 0x80000000, 0x80000000, 0, 123] := by
  have htext : walletBip32PathAsStr [0x80000054, 0x80000000, 0x80000000, 0, 123] 17 false =
      some "m/84'/0'/0'/0/12" := by decide +kernel
  refine ⟨htext, fun h => ?_⟩
  have hfull := (h _ htext).1
  exact absurd hfull (by decide +kernel)

end Jade
