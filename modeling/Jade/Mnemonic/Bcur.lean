/-
**The payload of a phrase in a UR code (`bcur.c`).**

The payload is CBOR: a map of the words, an array, and the language.  The words are copied into a
buffer one after the other, with a space between any two, as the items of the array are read.

Main definitions:

* `Jade.TinyCborCursor` — the CBOR library as a cursor over items;
* `Jade.bcurParseBip39` — the phrase in a payload;
* `Jade.payloadWords` — the words in a payload, without a buffer;
* `Jade.PayloadOk` — the payload can be read, and its words fit into the buffer;
* `Jade.cryptoBip39` — the payload of some words;
* `Jade.cborCursor` — a cursor over the bytes.

Main results:

* `Jade.bcurParseBip39_iff` — **exactly these payloads are read as they should be**;
* `Jade.bcurParseBip39_cryptoBip39` — the payload of some words gives these words;
* `Jade.cborCursor_lawful` — the cursor over the bytes does what the library documents.
-/

import Jade.Lib.Cbor
import Jade.Mnemonic.Words
import Jade.Utils.CborRpc

set_option relaxedAutoImplicit false
set_option autoImplicit false

namespace Jade

open Exec

/-! ### The library -/

/-- The functions of `tinycbor` that move a cursor. Two of them have assertions of their own, about
the type of the item. -/
structure TinyCborCursor (V : Type) where
  parserInit : Bytes → Option V
  isValid : V → Bool
  isContainer : V → Bool
  isArray : V → Bool
  isTextString : V → Bool
  isInteger : V → Bool
  atEnd : V → Bool
  getInt : V → Except Fault (Option ℤ)
  advance : V → Option V
  getArrayLength : V → Option ℕ
  enterContainer : V → Option V
  leaveContainer : V → V → Option V
  /-- the text, which may be too long for a buffer, and the item behind it -/
  copyTextString : V → Except Fault (Option (Bytes × V))
  textStringEquals : V → Bytes → Option Bool

/-! ### The parser -/

/-- Where the cursors are when the words begin: at the payload, at the array, and in it. -/
structure BcurWords (V : Type) where
  value : V
  mapItem : V
  numberOfWords : ℕ
  arrayItem : V

section Parser

variable {V : Type} (C : TinyCborCursor V)

/-- The array, its length, and its first item. -/
def bcurArray (value mapItem : V) : Option (BcurWords V) := do
  let numberOfWords ← C.getArrayLength mapItem
  if numberOfWords = 0 ∨ C.isContainer mapItem = false then none
  let arrayItem ← C.enterContainer mapItem
  if C.isValid arrayItem && C.isTextString arrayItem then
    some { value, mapItem, numberOfWords, arrayItem }
  else none

/-- `bcur_parse_bip39`, up to the words. -/
def bcurHeader (cbor : Bytes) : Except Fault (Option (BcurWords V)) :=
  match C.parserInit cbor with
  | none => .ok none
  | some value =>
      if !(C.isValid value && C.isContainer value) then .ok none
      else
        match C.enterContainer value with
        | none => .ok none
        | some mapItem =>
            if !C.isValid mapItem then .ok none
            else do
              if (← C.getInt mapItem) ≠ some 1 then return none
              match C.advance mapItem with
              | none => return none
              | some mapItem =>
                  if C.isValid mapItem && C.isArray mapItem then
                    return bcurArray C value mapItem
                  else return none

/-- The separator in front of a word, unless it is the first that is written. -/
def separate (mnemonicLen : ℕ) (out : Bytes) : Except Fault Bytes :=
  if out.isEmpty then .ok out else put mnemonicLen out [0x20]

/-- The loop of `bcur_parse_bip39`: the item behind the words, and what has been written. -/
def copyWords (mnemonicLen : ℕ) : ℕ → V → Bytes → Except Fault (V × Bytes)
  | 0, arrayItem, out => .ok (arrayItem, out)
  | n + 1, arrayItem, out => do
      let out ← separate mnemonicLen out
      match ← C.copyTextString arrayItem with
      | none => .error .assert
      | some (word, next) => do
          -- a text that is too long for the rest of the buffer is an error
          jadeVerify (decide (word.length ≤ mnemonicLen - out.length))
          copyWords mnemonicLen n next (out ++ word)

/-- `bcur_parse_bip39`, behind the words: is the language English? -/
def bcurTrailer (value mapItem arrayItem : V) : Except Fault Bool := do
  jadeVerify (C.atEnd arrayItem)
  let mapItem ← wallyVerify (C.leaveContainer mapItem arrayItem)
  if !(C.isValid mapItem && C.isInteger mapItem) then return false
  if (← C.getInt mapItem) ≠ some 2 then return false
  match C.advance mapItem with
  | none => return false
  | some mapItem =>
      if !(C.isValid mapItem && C.isTextString mapItem) then return false
      if C.textStringEquals mapItem (ascii "en") ≠ some true then return false
      let mapItem ← wallyVerify (C.advance mapItem)
      jadeVerify (C.atEnd mapItem)
      let _ ← wallyVerify (C.leaveContainer value mapItem)
      return true

/-- `bcur_parse_bip39`: what is written to the buffer. -/
def bcurParseBip39 (mnemonicLen : ℕ) (cbor : Bytes) : Except Fault (Option Bytes) := do
  jadeVerify (!cbor.isEmpty)
  match ← bcurHeader C cbor with
  | none => return none
  | some words => do
      let (arrayItem, out) ← copyWords C mnemonicLen words.numberOfWords words.arrayItem []
      if ← bcurTrailer C words.value words.mapItem arrayItem then
        return some (← put mnemonicLen out [0])
      else return none

/-! ### What is in a payload -/

/-- The first key of the map in a payload. -/
structure FirstKey (cbor : Bytes) (value key : V) : Prop where
  init : C.parserInit cbor = some value
  valid : C.isValid value = true
  container : C.isContainer value = true
  enter : C.enterContainer value = some key
  keyValid : C.isValid key = true

/-- The array of the words in a payload: the key 1 stands for it, it announces some items, and the
first of them is a text. -/
structure WordArray (cbor : Bytes) (words : BcurWords V) : Prop where
  key : ∃ key, FirstKey C cbor words.value key ∧ C.getInt key = .ok (some 1) ∧
    C.advance key = some words.mapItem
  valid : C.isValid words.mapItem = true
  array : C.isArray words.mapItem = true
  container : C.isContainer words.mapItem = true
  length : C.getArrayLength words.mapItem = some words.numberOfWords
  pos : words.numberOfWords ≠ 0
  enter : C.enterContainer words.mapItem = some words.arrayItem
  firstValid : C.isValid words.arrayItem = true
  firstText : C.isTextString words.arrayItem = true

/-- The texts from an item on, and the item behind them. -/
def Texts : List Bytes → V → V → Prop
  | [], item, last => item = last
  | text :: texts, item, last =>
      ∃ next, C.copyTextString item = .ok (some (text, next)) ∧ Texts texts next last

/-- The array holds as many texts as it announces and ends with them, and the map goes on behind
it. -/
structure HoldsWords (words : BcurWords V) (texts : List Bytes) (rest : V) : Prop where
  count : texts.length = words.numberOfWords
  items : ∃ last, Texts C texts words.arrayItem last ∧ C.atEnd last = true ∧
    C.leaveContainer words.mapItem last = some rest

/-- The key 2 stands for the language English. -/
structure English (key language : V) : Prop where
  valid : C.isValid key = true
  integer : C.isInteger key = true
  two : C.getInt key = .ok (some 2)
  advance : C.advance key = some language
  languageValid : C.isValid language = true
  text : C.isTextString language = true
  en : C.textStringEquals language (ascii "en") = some true

/-- The map ends behind an item, and can be left there. -/
def EndsBehind (value item : V) : Prop :=
  ∃ last, C.advance item = some last ∧ C.atEnd last = true ∧
    ∃ next, C.leaveContainer value last = some next

/-- A payload of these words, in English. -/
def IsBip39Payload (cbor : Bytes) (texts : List Bytes) : Prop :=
  ∃ words rest language, WordArray C cbor words ∧ HoldsWords C words texts rest ∧
    English C rest language ∧ EndsBehind C words.value language

/-- The length of some words with a space between any two; there is none behind empty words in
front. -/
def joinedLength (texts : List Bytes) : ℕ :=
  ([0x20].intercalate (texts.dropWhile List.isEmpty) : Bytes).length

/-- The payload is not empty, the first key of a map in it is a number, and an array of words in it
holds the texts that it announces, and these fit into the buffer. In a payload in English the map
ends behind the language, the terminator fits as well, and the first word is not empty unless it is
the only one. -/
structure PayloadOk (mnemonicLen : ℕ) (cbor : Bytes) : Prop where
  ne_nil : cbor ≠ []
  number : ∀ value key, FirstKey C cbor value key → C.isInteger key = true
  words : ∀ words, WordArray C cbor words → ∃ texts rest, HoldsWords C words texts rest ∧
    joinedLength texts ≤ mnemonicLen ∧
      ∀ language, English C rest language → EndsBehind C words.value language ∧
        joinedLength texts < mnemonicLen ∧ (texts.head? ≠ some [] ∨ texts.length = 1)

/-- No assertion fails and nothing is written outside the buffer; what is returned are the words in
the payload with a space between any two, and a terminator. -/
def PayloadHarmless (mnemonicLen : ℕ) (cbor : Bytes) : Prop :=
  match bcurParseBip39 C mnemonicLen cbor with
  | .error _ => False
  | .ok none => True
  | .ok (some out) => ∃ texts, IsBip39Payload C cbor texts ∧
      out = [0x20].intercalate texts ++ [0] ∧ out.length ≤ mnemonicLen

end Parser

/-! ### The payload of some words -/

/-- The payload of some words: a map with the words under one, and the language under two. -/
def cryptoBip39 (words : List Bytes) : Bytes :=
  Cbor.encodeHead 5 2 ++ (Cbor.encodeUint 1 ++ (Cbor.encodeHead 4 words.length ++
    (words.flatMap Cbor.encodeText ++ (Cbor.encodeUint 2 ++ Cbor.encodeText (ascii "en")))))

/-- An item of the payload. -/
inductive BcurItem
  | int (n : ℤ)
  | text (content : Bytes)
  | texts (contents : List Bytes)

section Holds

variable {V : Type} (C : TinyCborCursor V)

/-- The cursor is at these texts, which are the rest of an array; where it is then is a place with
the property `k`. -/
def HoldsTexts (k : V → Prop) : List Bytes → V → Prop
  | [], v => C.atEnd v = true ∧ k v
  | content :: contents, v =>
      C.isValid v = true ∧ C.isTextString v = true ∧
        ∃ next, C.copyTextString v = .ok (some (content, next)) ∧ HoldsTexts k contents next

/-- The cursor is at these items, which are the rest of a map. -/
def HoldsItems (k : V → Prop) : List BcurItem → V → Prop
  | [], v => C.atEnd v = true ∧ k v
  | .int n :: items, v =>
      C.isValid v = true ∧ C.isInteger v = true ∧ C.getInt v = .ok (some n) ∧
        ∃ next, C.advance v = some next ∧ HoldsItems k items next
  | .text content :: items, v =>
      C.isValid v = true ∧ C.isTextString v = true ∧
        (∀ s, C.textStringEquals v s = some (content == s)) ∧
        ∃ next, C.advance v = some next ∧ HoldsItems k items next
  | .texts contents :: items, v =>
      C.isValid v = true ∧ C.isArray v = true ∧ C.isContainer v = true ∧
        C.getArrayLength v = some contents.length ∧
        ∃ inner, C.enterContainer v = some inner ∧
          HoldsTexts C (fun last => ∃ next, C.leaveContainer v last = some next ∧
            HoldsItems k items next) contents inner

/-- What the library documents: a number is read just where there is one, and in the payload of some
words the cursor finds the items that were written. -/
structure TinyCborCursor.Lawful : Prop where
  number : ∀ v, (∃ n, C.getInt v = .ok n) ↔ C.isInteger v = true
  payload : ∀ words : List Bytes, words.length < 2 ^ 8 → (∀ w ∈ words, w.length < 24) →
    ∃ v, C.parserInit (cryptoBip39 words) = some v ∧ C.isValid v = true ∧
      C.isContainer v = true ∧ ∃ inner, C.enterContainer v = some inner ∧
        HoldsItems C (fun last => ∃ next, C.leaveContainer v last = some next)
          [.int 1, .texts words, .int 2, .text (ascii "en")] inner

end Holds

/-! ### Joining the words -/

/-- A word behind what has been written. -/
def appendWord (out word : Bytes) : Bytes := if out.isEmpty then word else out ++ [0x20] ++ word

theorem intercalate_append (out word : Bytes) (words : List Bytes) :
    [0x20].intercalate ((out ++ [0x20] ++ word) :: words) =
      [0x20].intercalate (out :: word :: words) := by
  cases words <;> simp

theorem le_length_foldl_appendWord (words : List Bytes) (out : Bytes) :
    out.length ≤ (words.foldl appendWord out).length := by
  induction words generalizing out with
  | nil => exact le_rfl
  | cons word words ih =>
      refine le_trans ?_ (ih (appendWord out word))
      rw [appendWord]
      split
      · next h => simp [List.isEmpty_iff.1 h]
      · simp only [List.length_append]
        omega

/-- At most the spaces in front of the first word that is not empty are left out. -/
theorem length_foldl_appendWord_le (words : List Bytes) (out : Bytes) :
    (words.foldl appendWord out).length ≤ ([0x20].intercalate (out :: words) : Bytes).length := by
  induction words generalizing out with
  | nil => simp
  | cons word words ih =>
      refine (ih (appendWord out word)).trans ?_
      rw [appendWord]
      split
      · rw [List.intercalate_cons_cons]
        simp only [List.length_append]
        omega
      · rw [intercalate_append]

/-- Once something has been written there is a space in front of every word. -/
theorem foldl_appendWord (words : List Bytes) {out : Bytes} (hout : out ≠ []) :
    words.foldl appendWord out = [0x20].intercalate (out :: words) := by
  induction words generalizing out with
  | nil => simp
  | cons word words ih =>
      have happend : appendWord out word = out ++ [0x20] ++ word := by
        rw [appendWord, if_neg (by simpa using hout)]
      rw [List.foldl_cons, happend, ih (by simp), intercalate_append]

/-- What is written of some words. -/
theorem foldl_appendWord_nil (words : List Bytes) :
    words.foldl appendWord [] = [0x20].intercalate (words.dropWhile List.isEmpty) := by
  induction words with
  | nil => rfl
  | cons word words ih =>
      have hfirst : appendWord [] word = word := rfl
      rw [List.foldl_cons, hfirst]
      by_cases hword : word = []
      · rw [hword, ih, List.dropWhile_cons_of_pos List.isEmpty_nil]
      · rw [foldl_appendWord words hword,
          List.dropWhile_cons_of_neg (by simpa using hword)]

/-- The words are joined as they should be, unless there is an empty one in front of others. -/
theorem foldl_appendWord_eq_iff {words : List Bytes} (hne : words ≠ []) :
    words.foldl appendWord [] = [0x20].intercalate words ↔
      words.head? ≠ some [] ∨ words.length = 1 := by
  cases words with
  | nil => exact absurd rfl hne
  | cons word words =>
      have hfirst : appendWord [] word = word := rfl
      rw [List.foldl_cons, hfirst]
      by_cases hword : word = []
      · cases words with
        | nil => simp
        | cons word' words =>
            refine iff_of_false ?_ (by simp [hword])
            intro heq
            have hle := length_foldl_appendWord_le words (appendWord word word')
            rw [List.foldl_cons] at heq
            rw [heq, hword, List.intercalate_cons_cons] at hle
            simp [appendWord] at hle
      · exact iff_of_true (foldl_appendWord words hword) (.inl (by simpa using hword))

/-! ### Reading the words -/

section Reading

variable {V : Type} (C : TinyCborCursor V)

/-- The texts of an array, and the item behind them, without a buffer. -/
def arrayWords : ℕ → V → Except Fault (List Bytes × V)
  | 0, arrayItem => .ok ([], arrayItem)
  | n + 1, arrayItem => do
      match ← C.copyTextString arrayItem with
      | none => .error .assert
      | some (word, next) => do
          let (words, last) ← arrayWords n next
          return (word :: words, last)

/-- The words in a payload, and whether the language is English. -/
def payloadWords (cbor : Bytes) : Except Fault (Option (List Bytes × Bool)) := do
  match ← bcurHeader C cbor with
  | none => return none
  | some words => do
      let (texts, last) ← arrayWords C words.numberOfWords words.arrayItem
      return some (texts, ← bcurTrailer C words.value words.mapItem last)

variable {C}

/-- What comes before the words can be read, unless there is no number in the place of the key. -/
theorem exists_bcurHeader_iff (hC : C.Lawful) (cbor : Bytes) :
    (∃ header, bcurHeader C cbor = .ok header) ↔
      ∀ value key, FirstKey C cbor value key → C.isInteger key = true := by
  by_cases h : ∃ value key, FirstKey C cbor value key
  · obtain ⟨value, key, hkey⟩ := h
    have hall : (∀ value key, FirstKey C cbor value key → C.isInteger key = true) ↔
        C.isInteger key = true := by
      refine ⟨fun h => h value key hkey, ?_⟩
      rintro h value' key' hkey'
      obtain rfl : value = value' := Option.some.inj (hkey.init.symm.trans hkey'.init)
      obtain rfl : key = key' := Option.some.inj (hkey.enter.symm.trans hkey'.enter)
      exact h
    rw [hall, ← hC.number]
    simp only [bcurHeader, hkey.init, hkey.valid, hkey.container, hkey.enter, hkey.keyValid,
      Bool.and_self, Bool.not_true, Bool.false_eq_true, if_false]
    cases C.getInt key with
    | error f => exact iff_of_false (fun ⟨_, h⟩ => nomatch h) fun ⟨_, h⟩ => nomatch h
    | ok n =>
        refine iff_of_true ?_ ⟨n, rfl⟩
        simp only [ok_bind]
        split
        · exact ⟨_, rfl⟩
        · split
          · exact ⟨_, rfl⟩
          · split
            · exact ⟨_, rfl⟩
            · exact ⟨_, rfl⟩
  · refine iff_of_true ⟨none, ?_⟩ fun value key hkey => absurd ⟨value, key, hkey⟩ h
    rw [bcurHeader]
    split
    · rfl
    · next value hinit =>
        split
        · rfl
        · next hmap =>
            split
            · rfl
            · next key henter =>
                split
                · rfl
                · next hvalid =>
                    simp only [Bool.not_eq_true', Bool.not_eq_false, Bool.and_eq_true] at hmap hvalid
                    exact absurd ⟨value, key, hinit, hmap.1, hmap.2, henter, hvalid⟩ h

/-- What comes before the words leads to an array of words. -/
theorem bcurHeader_eq_some {cbor : Bytes} {words : BcurWords V} :
    bcurHeader C cbor = .ok (some words) ↔ WordArray C cbor words := by
  constructor
  · intro h
    rw [bcurHeader] at h
    split at h
    · cases h
    · next value hinit =>
        split at h
        · cases h
        · next hmap =>
            split at h
            · cases h
            · next key henter =>
                split at h
                · cases h
                · next hvalid =>
                    obtain ⟨n, hn, h⟩ := bind_eq_ok.1 h
                    split at h
                    · cases h
                    · next hone =>
                        split at h
                        · cases h
                        · next mapItem hadvance =>
                            split at h
                            · next harray =>
                                have hwords := pure_eq_ok.1 h
                                rw [bcurArray] at hwords
                                obtain ⟨count, hcount, hwords⟩ := Option.bind_eq_some_iff.1 hwords
                                split at hwords
                                · cases hwords
                                · next hpos =>
                                    obtain ⟨item, hitem, hwords⟩ :=
                                      Option.bind_eq_some_iff.1 hwords
                                    split at hwords
                                    · next hfirst =>
                                        cases hwords
                                        rw [not_or] at hpos
                                        rw [not_not] at hone
                                        simp only [Bool.not_eq_true', Bool.not_eq_false,
                                          Bool.and_eq_true] at hmap hvalid harray hfirst hpos
                                        exact ⟨⟨key, ⟨hinit, hmap.1, hmap.2, henter, hvalid⟩,
                                          hone ▸ hn, hadvance⟩, harray.1, harray.2, hpos.2, hcount,
                                          hpos.1, hitem, hfirst.1, hfirst.2⟩
                                    · cases hwords
                            · cases h
  · intro h
    obtain ⟨key, hkey, hone, hadvance⟩ := h.key
    simp only [bcurHeader, hkey.init, hkey.valid, hkey.container, hkey.enter, hkey.keyValid, hone,
      hadvance, h.valid, h.array, ok_bind, Bool.and_self, Bool.not_true, Bool.false_eq_true,
      if_false, if_true, ne_eq, not_true]
    simp [bcurArray, h.length, h.pos, h.container, h.enter, h.firstValid, h.firstText, pure,
      Except.pure]

theorem arrayWords_eq_ok {n : ℕ} {item last : V} {texts : List Bytes} :
    arrayWords C n item = .ok (texts, last) ↔ texts.length = n ∧ Texts C texts item last := by
  induction n generalizing item texts with
  | zero =>
      cases texts with
      | nil => simp [arrayWords, Texts]
      | cons text texts => simp [arrayWords]
  | succ n ih =>
      cases texts with
      | nil =>
          refine iff_of_false ?_ (by simp)
          intro h
          obtain ⟨copied, -, h⟩ := bind_eq_ok.1 h
          cases copied with
          | none => cases h
          | some copied =>
              obtain ⟨rest, -, h⟩ := bind_eq_ok.1 h
              cases h
      | cons text texts =>
          rw [List.length_cons, Nat.add_right_cancel_iff, Texts]
          constructor
          · intro h
            obtain ⟨copied, hcopied, h⟩ := bind_eq_ok.1 h
            cases copied with
            | none => cases h
            | some copied =>
                obtain ⟨rest, hrest, h⟩ := bind_eq_ok.1 h
                cases h
                obtain ⟨hcount, htexts⟩ := ih.1 hrest
                exact ⟨hcount, copied.2, hcopied, htexts⟩
          · rintro ⟨hcount, next, hcopied, htexts⟩
            rw [arrayWords, hcopied, ok_bind]
            dsimp only
            rw [ih.2 ⟨hcount, htexts⟩]
            rfl

/-- Behind the words the payload is in English, and ends. -/
theorem bcurTrailer_eq_true {value mapItem last : V} :
    bcurTrailer C value mapItem last = .ok true ↔
      C.atEnd last = true ∧ ∃ rest language, C.leaveContainer mapItem last = some rest ∧
        English C rest language ∧ EndsBehind C value language := by
  constructor
  · intro h
    obtain ⟨_, hend, h⟩ := bind_eq_ok.1 h
    obtain ⟨rest, hleave, h⟩ := bind_eq_ok.1 h
    split at h
    · cases h
    · next hkey =>
        obtain ⟨n, hn, h⟩ := bind_eq_ok.1 h
        split at h
        · cases h
        · next htwo =>
            split at h
            · cases h
            · next language hadvance =>
                split at h
                · cases h
                · next htext =>
                    split at h
                    · cases h
                    · next hen =>
                        obtain ⟨item, hitem, h⟩ := bind_eq_ok.1 h
                        obtain ⟨_, hitemEnd, h⟩ := bind_eq_ok.1 h
                        obtain ⟨next, hnext, -⟩ := bind_eq_ok.1 h
                        rw [not_not] at htwo hen
                        simp only [Bool.not_eq_true', Bool.not_eq_false, Bool.and_eq_true]
                          at hkey htext
                        rw [jadeVerify_eq_ok] at hend hitemEnd
                        rw [wallyVerify_eq_ok] at hleave hitem hnext
                        exact ⟨hend, rest, language, hleave, ⟨hkey.1, hkey.2, htwo ▸ hn, hadvance,
                          htext.1, htext.2, hen⟩, item, hitem, hitemEnd, next, hnext⟩
  · rintro ⟨hend, rest, language, hleave, h, item, hitem, hitemEnd, next, hnext⟩
    simp only [bcurTrailer, hend, hleave, h.valid, h.integer, h.two, h.advance, h.languageValid,
      h.text, h.en, hitem, hitemEnd, hnext, jadeVerify, wallyVerify, ok_bind, Bool.and_self,
      Bool.not_true, Bool.false_eq_true, if_false, if_true, ne_eq, not_true]
    rfl

/-- What comes behind the words can be read, unless the array does not end there, or a map in English
goes on. -/
theorem exists_bcurTrailer_iff (hC : C.Lawful) {value mapItem last : V} :
    (∃ accepted, bcurTrailer C value mapItem last = .ok accepted) ↔
      C.atEnd last = true ∧ ∃ rest, C.leaveContainer mapItem last = some rest ∧
        ∀ language, English C rest language → EndsBehind C value language := by
  by_cases hend : C.atEnd last = true
  · cases hleave : C.leaveContainer mapItem last with
    | none =>
        refine iff_of_false ?_ (by simp)
        rintro ⟨accepted, h⟩
        obtain ⟨_, -, h⟩ := bind_eq_ok.1 h
        rw [hleave] at h
        cases h
    | some rest =>
        have hrest : (∃ rest', C.leaveContainer mapItem last = some rest' ∧
            ∀ language, English C rest' language → EndsBehind C value language) ↔
              ∀ language, English C rest language → EndsBehind C value language := by
          simp [hleave]
        rw [← hleave, hrest, and_iff_right hend]
        by_cases h : ∃ language, English C rest language
        · obtain ⟨language, h⟩ := h
          have hall : (∀ language, English C rest language → EndsBehind C value language) ↔
              EndsBehind C value language := by
            refine ⟨fun hall => hall language h, ?_⟩
            rintro hends language' h'
            obtain rfl : language = language' := Option.some.inj (h.advance.symm.trans h'.advance)
            exact hends
          rw [hall]
          simp only [bcurTrailer, hend, hleave, h.valid, h.integer, h.two, h.advance,
            h.languageValid, h.text, h.en, jadeVerify, wallyVerify, ok_bind, Bool.and_self,
            Bool.not_true, Bool.false_eq_true, if_false, if_true, ne_eq, not_true]
          constructor
          · rintro ⟨accepted, hrun⟩
            obtain ⟨item, hitem, hrun⟩ := bind_eq_ok.1 hrun
            obtain ⟨_, hitemEnd, hrun⟩ := bind_eq_ok.1 hrun
            obtain ⟨next, hnext, -⟩ := bind_eq_ok.1 hrun
            exact ⟨item, wallyVerify_eq_ok.1 hitem, jadeVerify_eq_ok.1 hitemEnd, next,
              wallyVerify_eq_ok.1 hnext⟩
          · rintro ⟨item, hitem, hitemEnd, next, hnext⟩
            refine ⟨true, ?_⟩
            simp only [hitem, hitemEnd, hnext, ok_bind, if_true]
            rfl
        · refine iff_of_true ⟨false, ?_⟩ fun language hlanguage => absurd ⟨language, hlanguage⟩ h
          simp only [bcurTrailer, hend, hleave, jadeVerify, wallyVerify, ok_bind, if_true]
          split
          · rfl
          · next hkey =>
              simp only [Bool.not_eq_true', Bool.not_eq_false, Bool.and_eq_true] at hkey
              obtain ⟨n, hn⟩ := (hC.number rest).2 hkey.2
              rw [hn, ok_bind]
              split
              · rfl
              · next htwo =>
                  split
                  · rfl
                  · next language hadvance =>
                      split
                      · rfl
                      · next htext =>
                          split
                          · rfl
                          · next hen =>
                              rw [not_not] at htwo hen
                              simp only [Bool.not_eq_true', Bool.not_eq_false,
                                Bool.and_eq_true] at htext
                              exact absurd ⟨language, hkey.1, hkey.2, htwo ▸ hn, hadvance, htext.1,
                                htext.2, hen⟩ h
  · refine iff_of_false ?_ fun h => hend h.1
    rintro ⟨accepted, h⟩
    obtain ⟨_, hverify, -⟩ := bind_eq_ok.1 h
    exact hend (jadeVerify_eq_ok.1 hverify)

end Reading

/-! ### Exactly these payloads are read as they should be -/

section Spec

variable {V : Type} {C : TinyCborCursor V}

/-- There is room for the separator, or not even for the word alone. -/
theorem separate_spec (mnemonicLen : ℕ) (out word : Bytes) :
    (∃ out', separate mnemonicLen out = .ok out' ∧ out' ++ word = appendWord out word ∧
        out'.length ≤ mnemonicLen) ∨
      (∃ f, separate mnemonicLen out = .error f) ∧
        mnemonicLen < (appendWord out word).length := by
  rw [separate, appendWord]
  by_cases hempty : out.isEmpty = true
  · rw [if_pos hempty, if_pos hempty, List.isEmpty_iff.1 hempty]
    exact .inl ⟨[], rfl, rfl, Nat.zero_le _⟩
  · rw [if_neg hempty, if_neg hempty, put]
    split
    · next hle => exact .inl ⟨_, rfl, rfl, by simpa using hle⟩
    · next hfull =>
        refine .inr ⟨⟨_, rfl⟩, ?_⟩
        simp only [List.length_append, List.length_singleton] at hfull ⊢
        omega

/-- One turn of the loop. -/
theorem copyWords_succ (mnemonicLen n : ℕ) (out : Bytes) {item next : V} {word : Bytes}
    (hcopy : C.copyTextString item = .ok (some (word, next))) :
    if (appendWord out word).length ≤ mnemonicLen then
      copyWords C mnemonicLen (n + 1) item out =
        copyWords C mnemonicLen n next (appendWord out word)
    else ∃ f, copyWords C mnemonicLen (n + 1) item out = .error f := by
  rw [copyWords]
  rcases separate_spec mnemonicLen out word with
    ⟨out', hsep, happend, hout'⟩ | ⟨⟨f, hsep⟩, hfull⟩
  · rw [hsep, ok_bind, hcopy, ok_bind, ← happend]
    dsimp only
    rw [List.length_append]
    split
    · next hle =>
        rw [jadeVerify, if_pos (decide_eq_true (by omega)), ok_bind]
    · next hfull =>
        rw [jadeVerify, if_neg]
        · exact ⟨_, rfl⟩
        · rw [decide_eq_true_iff]
          omega
  · rw [hsep, if_neg (Nat.not_le.2 hfull)]
    exact ⟨f, rfl⟩

/-- The words are copied just when they can be read and fit. -/
theorem copyWords_spec {mnemonicLen : ℕ} (n : ℕ) (item : V) {out : Bytes}
    (hout : out.length ≤ mnemonicLen) :
    match arrayWords C n item with
    | .error _ => ∃ f, copyWords C mnemonicLen n item out = .error f
    | .ok (words, last) =>
        if (words.foldl appendWord out).length ≤ mnemonicLen then
          copyWords C mnemonicLen n item out = .ok (last, words.foldl appendWord out)
        else ∃ f, copyWords C mnemonicLen n item out = .error f := by
  induction n generalizing item out with
  | zero => simp [arrayWords, copyWords, hout]
  | succ n ih =>
      -- without a text there is an error, after the separator or before
      have hnone : ∀ x, C.copyTextString item = x → (∀ copied, x ≠ .ok (some copied)) →
          ∃ f, copyWords C mnemonicLen (n + 1) item out = .error f := by
        intro x hx hno
        rw [copyWords]
        rcases separate_spec mnemonicLen out [] with ⟨out', hsep, -⟩ | ⟨⟨f, hsep⟩, -⟩
        · rw [hsep, ok_bind, hx]
          cases x with
          | error f => exact ⟨f, rfl⟩
          | ok copied =>
              cases copied with
              | none => exact ⟨.assert, rfl⟩
              | some copied => exact absurd rfl (hno copied)
        · rw [hsep]
          exact ⟨f, rfl⟩
      rw [arrayWords]
      cases hcopy : C.copyTextString item with
      | error f => exact hnone _ hcopy (by simp)
      | ok copied =>
          cases copied with
          | none => exact hnone _ hcopy (by simp)
          | some copied =>
              obtain ⟨word, next⟩ := copied
              have hstep := copyWords_succ mnemonicLen n out hcopy
              rw [ok_bind]
              dsimp only
              split at hstep
              · next hle =>
                  have hrest := ih next hle
                  rw [hstep]
                  cases hwords : arrayWords C n next with
                  | error f =>
                      rw [hwords] at hrest
                      exact hrest
                  | ok words =>
                      rw [hwords] at hrest
                      exact hrest
              · next hfull =>
                  obtain ⟨f, hstep⟩ := hstep
                  cases arrayWords C n next with
                  | error f' => exact ⟨f, hstep⟩
                  | ok words =>
                      have hle := le_length_foldl_appendWord words.1 (appendWord out word)
                      rw [ok_bind]
                      dsimp only [pure, Except.pure]
                      rw [List.foldl_cons, if_neg (by omega)]
                      exact ⟨f, hstep⟩

/-- The room it takes to read a payload. -/
def roomFor (words : List Bytes) (accepted : Bool) : ℕ :=
  (words.foldl appendWord []).length + if accepted then 1 else 0

/-- What the parser does with a payload: it fails where the payload cannot be read, or its words
have no room; otherwise it returns them when they are what is asked for. -/
theorem bcurParseBip39_spec (mnemonicLen : ℕ) {cbor : Bytes} (hcbor : cbor ≠ []) :
    match payloadWords C cbor with
    | .error _ => ∃ f, bcurParseBip39 C mnemonicLen cbor = .error f
    | .ok none => bcurParseBip39 C mnemonicLen cbor = .ok none
    | .ok (some (words, accepted)) => words ≠ [] ∧
        if roomFor words accepted ≤ mnemonicLen then
          bcurParseBip39 C mnemonicLen cbor =
            .ok (if accepted then some (words.foldl appendWord [] ++ [0]) else none)
        else ∃ f, bcurParseBip39 C mnemonicLen cbor = .error f := by
  rw [bcurParseBip39, jadeVerify, if_pos (by simpa using hcbor), ok_bind, payloadWords]
  cases hheader : bcurHeader C cbor with
  | error f => exact ⟨f, rfl⟩
  | ok header =>
      cases header with
      | none => rfl
      | some header =>
          have hcopy := copyWords_spec (C := C) header.numberOfWords header.arrayItem
            (show ([] : Bytes).length ≤ mnemonicLen from Nat.zero_le mnemonicLen)
          simp only [ok_bind]
          cases hwords : arrayWords C header.numberOfWords header.arrayItem with
          | error f =>
              rw [hwords] at hcopy
              obtain ⟨f', hcopy⟩ := hcopy
              rw [hcopy]
              exact ⟨f', rfl⟩
          | ok texts =>
              obtain ⟨texts, last⟩ := texts
              rw [hwords] at hcopy
              dsimp only at hcopy
              simp only [ok_bind]
              have hne : texts ≠ [] := by
                rintro rfl
                exact (bcurHeader_eq_some.1 hheader).pos (arrayWords_eq_ok.1 hwords).1.symm
              by_cases hfits : (texts.foldl appendWord []).length ≤ mnemonicLen
              · rw [if_pos hfits] at hcopy
                rw [hcopy]
                simp only [ok_bind]
                cases htrailer : bcurTrailer C header.value header.mapItem last with
                | error f => exact ⟨f, rfl⟩
                | ok accepted =>
                    refine ⟨hne, ?_⟩
                    cases accepted with
                    | false =>
                        rw [if_pos (show roomFor texts false ≤ mnemonicLen from hfits)]
                        rfl
                    | true =>
                        simp only [roomFor, ok_bind, if_true, put, List.length_singleton]
                        split
                        · rfl
                        · exact ⟨_, rfl⟩
              · rw [if_neg hfits] at hcopy
                obtain ⟨f', hcopy⟩ := hcopy
                rw [hcopy]
                cases htrailer : bcurTrailer C header.value header.mapItem last with
                | error f => exact ⟨f', rfl⟩
                | ok accepted =>
                    refine ⟨hne, ?_⟩
                    have hroom : ¬roomFor texts accepted ≤ mnemonicLen :=
                      fun h => hfits (le_trans (Nat.le_add_right _ _) h)
                    rw [if_neg hroom]
                    exact ⟨f', rfl⟩

/-- The words that are read in a payload in English. -/
theorem payloadWords_eq_words {cbor : Bytes} {texts : List Bytes} :
    payloadWords C cbor = .ok (some (texts, true)) ↔ IsBip39Payload C cbor texts := by
  constructor
  · intro h
    obtain ⟨header, hheader, h⟩ := bind_eq_ok.1 h
    cases header with
    | none => cases h
    | some words =>
        obtain ⟨read, hread, h⟩ := bind_eq_ok.1 h
        obtain ⟨accepted, htrailer, h⟩ := bind_eq_ok.1 h
        cases h
        obtain ⟨hcount, htexts⟩ := arrayWords_eq_ok.1 hread
        obtain ⟨hend, rest, language, hleave, hlanguage, hends⟩ := bcurTrailer_eq_true.1 htrailer
        exact ⟨words, rest, language, bcurHeader_eq_some.1 hheader,
          ⟨hcount, read.2, htexts, hend, hleave⟩, hlanguage, hends⟩
  · rintro ⟨words, rest, language, harray, ⟨hcount, last, htexts, hend, hleave⟩, hlanguage, hends⟩
    rw [payloadWords, bcurHeader_eq_some.2 harray, ok_bind]
    dsimp only
    rw [arrayWords_eq_ok.2 ⟨hcount, htexts⟩, ok_bind]
    dsimp only
    rw [bcurTrailer_eq_true.2 ⟨hend, rest, language, hleave, hlanguage, hends⟩]
    rfl

/-- A payload of which the parser returns the words is one, and one that it turns away is none. -/
theorem isBip39Payload_of_parse {mnemonicLen : ℕ} {cbor : Bytes} {result : Option Bytes}
    (h : bcurParseBip39 C mnemonicLen cbor = .ok result) :
    result.isSome = true ↔ ∃ texts, IsBip39Payload C cbor texts := by
  have hcbor : cbor ≠ [] := by
    rintro rfl
    cases h
  simp only [← payloadWords_eq_words]
  have hspec := bcurParseBip39_spec (C := C) mnemonicLen hcbor
  rw [h] at hspec
  cases hwords : payloadWords C cbor with
  | error f =>
      rw [hwords] at hspec
      obtain ⟨f', hspec⟩ := hspec
      cases hspec
  | ok payload =>
      cases payload with
      | none =>
          rw [hwords] at hspec
          cases hspec
          simp
      | some payload =>
          obtain ⟨texts, accepted⟩ := payload
          rw [hwords] at hspec
          have hrun := hspec.2
          split at hrun
          · cases accepted with
            | false =>
                cases hrun
                simp
            | true =>
                cases hrun
                simp
          · obtain ⟨f, hrun⟩ := hrun
            cases hrun

/-- The payload can be read, and there is room for its words. -/
theorem payloadOk_iff (hC : C.Lawful) (mnemonicLen : ℕ) {cbor : Bytes} (hcbor : cbor ≠ []) :
    PayloadOk C mnemonicLen cbor ↔ ∃ payload, payloadWords C cbor = .ok payload ∧
      ∀ texts accepted, payload = some (texts, accepted) → roomFor texts accepted ≤ mnemonicLen ∧
        (accepted = true → texts.head? ≠ some [] ∨ texts.length = 1) := by
  constructor
  · intro h
    obtain ⟨header, hheader⟩ := (exists_bcurHeader_iff hC cbor).2 h.number
    rw [payloadWords, hheader, ok_bind]
    cases header with
    | none => exact ⟨none, rfl, fun _ _ h => nomatch h⟩
    | some words =>
        obtain ⟨texts, rest, ⟨hcount, last, htexts, hend, hleave⟩, hroom, henglish⟩ :=
          h.words words (bcurHeader_eq_some.1 hheader)
        have hread : ∃ accepted, bcurTrailer C words.value words.mapItem last = .ok accepted :=
          (exists_bcurTrailer_iff hC).2
            ⟨hend, rest, hleave, fun language hlanguage => (henglish language hlanguage).1⟩
        obtain ⟨accepted, htrailer⟩ := hread
        dsimp only
        rw [arrayWords_eq_ok.2 ⟨hcount, htexts⟩, ok_bind]
        dsimp only
        rw [htrailer]
        refine ⟨some (texts, accepted), rfl, ?_⟩
        rintro _ _ ⟨⟩
        rw [roomFor, foldl_appendWord_nil, ← joinedLength]
        cases accepted with
        | false => exact ⟨hroom, fun h => nomatch h⟩
        | true =>
            obtain ⟨-, rest', language, hleave', hlanguage, -⟩ := bcurTrailer_eq_true.1 htrailer
            obtain rfl : rest = rest' := Option.some.inj (hleave.symm.trans hleave')
            obtain ⟨-, hlt, hfirst⟩ := henglish language hlanguage
            exact ⟨hlt, fun _ => hfirst⟩
  · rintro ⟨payload, hpayload, hall⟩
    obtain ⟨header, hheader, hpayload⟩ := bind_eq_ok.1 hpayload
    refine ⟨hcbor, (exists_bcurHeader_iff hC cbor).1 ⟨header, hheader⟩, ?_⟩
    intro words harray
    obtain rfl := Except.ok.inj (hheader.symm.trans (bcurHeader_eq_some.2 harray))
    obtain ⟨⟨texts, last⟩, hread, hpayload⟩ := bind_eq_ok.1 hpayload
    obtain ⟨accepted, htrailer, hpayload⟩ := bind_eq_ok.1 hpayload
    obtain ⟨hroom, hfirst⟩ := hall texts accepted (pure_eq_ok.1 hpayload).symm
    obtain ⟨hcount, htexts⟩ := arrayWords_eq_ok.1 hread
    obtain ⟨hend, rest, hleave, henglish⟩ := (exists_bcurTrailer_iff hC).1 ⟨accepted, htrailer⟩
    rw [roomFor, foldl_appendWord_nil, ← joinedLength] at hroom
    refine ⟨texts, rest, ⟨hcount, last, htexts, hend, hleave⟩,
      le_trans (Nat.le_add_right _ _) hroom, ?_⟩
    intro language hlanguage
    have hends := henglish language hlanguage
    obtain rfl := Except.ok.inj (htrailer.symm.trans
      (bcurTrailer_eq_true.2 ⟨hend, rest, language, hleave, hlanguage, hends⟩))
    exact ⟨hends, hroom, hfirst rfl⟩

/-- **Exactly these payloads are read as they should be.** -/
theorem bcurParseBip39_iff (hC : C.Lawful) (mnemonicLen : ℕ) (cbor : Bytes) :
    PayloadHarmless C mnemonicLen cbor ↔ PayloadOk C mnemonicLen cbor := by
  rw [PayloadHarmless]
  by_cases hcbor : cbor = []
  · subst hcbor
    exact iff_of_false id fun h => h.ne_nil rfl
  · have hspec := bcurParseBip39_spec (C := C) mnemonicLen hcbor
    rw [payloadOk_iff hC mnemonicLen hcbor]
    simp only [← payloadWords_eq_words]
    cases hwords : payloadWords C cbor with
    | error f =>
        rw [hwords] at hspec
        obtain ⟨f', hspec⟩ := hspec
        rw [hspec]
        exact iff_of_false id fun ⟨_, h, _⟩ => nomatch h
    | ok payload =>
        cases payload with
        | none =>
            rw [hwords] at hspec
            rw [hspec]
            exact iff_of_true trivial ⟨none, rfl, fun _ _ h => nomatch h⟩
        | some payload =>
            obtain ⟨texts, accepted⟩ := payload
            rw [hwords] at hspec
            obtain ⟨hne, hspec⟩ := hspec
            have hjoin := foldl_appendWord_eq_iff hne
            have hread : (∃ payload, (.ok (some (texts, accepted)) :
                Except Fault (Option (List Bytes × Bool))) = .ok payload ∧
                  ∀ texts accepted, payload = some (texts, accepted) →
                    roomFor texts accepted ≤ mnemonicLen ∧
                      (accepted = true → texts.head? ≠ some [] ∨ texts.length = 1)) ↔
                roomFor texts accepted ≤ mnemonicLen ∧
                  (accepted = true → texts.head? ≠ some [] ∨ texts.length = 1) := by
              constructor
              · rintro ⟨payload, h, hall⟩
                exact hall _ _ (Except.ok.inj h).symm
              · intro h
                refine ⟨_, rfl, ?_⟩
                rintro _ _ ⟨⟩
                exact h
            rw [hread]
            by_cases hroom : roomFor texts accepted ≤ mnemonicLen
            · rw [if_pos hroom] at hspec
              rw [hspec, and_iff_right hroom]
              cases accepted with
              | false => simp
              | true =>
                  rw [← hjoin]
                  constructor
                  · rintro ⟨texts', htexts', heq, -⟩ -
                    cases htexts'
                    exact List.append_cancel_right heq
                  · intro h
                    exact ⟨texts, rfl, by rw [h rfl], by simpa [roomFor] using hroom⟩
            · rw [if_neg hroom] at hspec
              obtain ⟨f, hspec⟩ := hspec
              rw [hspec]
              exact iff_of_false id fun h => hroom h.1

/-! ### The payload of some words gives these words -/

theorem arrayWords_of_holds {k : V → Prop} {contents : List Bytes} {v : V}
    (h : HoldsTexts C k contents v) :
    ∃ last, arrayWords C contents.length v = .ok (contents, last) ∧ C.atEnd last = true ∧
      k last := by
  induction contents generalizing v with
  | nil => exact ⟨v, rfl, h.1, h.2⟩
  | cons content contents ih =>
      obtain ⟨-, -, next, hcopy, hrest⟩ := h
      obtain ⟨last, hwords, hend, hk⟩ := ih hrest
      refine ⟨last, ?_, hend, hk⟩
      rw [List.length_cons, arrayWords, hcopy, ok_bind]
      dsimp only
      rw [hwords]
      rfl

/-- The payload of some words is read as these words. -/
theorem payloadWords_cryptoBip39 (hC : C.Lawful) {words : List Bytes} (hne : words ≠ [])
    (hlen : words.length < 2 ^ 8) (hshort : ∀ w ∈ words, w.length < 24) :
    payloadWords C (cryptoBip39 words) = .ok (some (words, true)) := by
  obtain ⟨v, hinit, hvalid, hcontainer, m₁, henter, hitems⟩ := hC.payload words hlen hshort
  obtain ⟨hvalid₁, -, hkey₁, m₂, hadvance₁, hitems⟩ := hitems
  obtain ⟨hvalid₂, harray, hcontainer₂, hlength, inner, henter₂, htexts⟩ := hitems
  obtain ⟨last, hwords, hend, m₃, hleave, hitems⟩ := arrayWords_of_holds htexts
  obtain ⟨hvalid₃, hint₃, hkey₃, m₄, hadvance₃, hitems⟩ := hitems
  obtain ⟨hvalid₄, htext₄, hequals, m₅, hadvance₄, hend₅, r, hleave₅⟩ := hitems
  have hfirst : C.isValid inner = true ∧ C.isTextString inner = true := by
    cases words with
    | nil => exact absurd rfl hne
    | cons w words => exact ⟨htexts.1, htexts.2.1⟩
  have hheader : bcurHeader C (cryptoBip39 words) =
      .ok (some ⟨v, m₂, words.length, inner⟩) := by
    rw [bcurHeader, hinit]
    simp only [hvalid, hcontainer, henter, hvalid₁, hkey₁, hadvance₁, hvalid₂, harray, ok_bind,
      Bool.and_self, Bool.not_true, Bool.false_eq_true, if_false, if_true, ne_eq, not_true]
    simp [bcurArray, hlength, hcontainer₂, henter₂, hfirst, hne, pure, Except.pure]
  have htrailer : bcurTrailer C v m₂ last = .ok true := by
    rw [bcurTrailer]
    simp only [hend, hleave, hvalid₃, hint₃, hkey₃, hadvance₃, hvalid₄, htext₄, hequals, hadvance₄,
      hend₅, hleave₅, jadeVerify, wallyVerify, ok_bind, Bool.and_self, Bool.not_true,
      Bool.false_eq_true, if_false, if_true, ne_eq, not_true, beq_self_eq_true]
    rfl
  rw [payloadWords, hheader, ok_bind]
  dsimp only
  rw [hwords, ok_bind]
  dsimp only
  rw [htrailer]
  rfl

/-- The payload of some words gives these words, when there is room. -/
theorem bcurParseBip39_cryptoBip39 (hC : C.Lawful) {words : List Bytes} {mnemonicLen : ℕ}
    (hne : words ≠ []) (hlen : words.length < 2 ^ 8)
    (hshort : ∀ w ∈ words, w ≠ [] ∧ w.length < 24)
    (hroom : ([0x20].intercalate words : Bytes).length < mnemonicLen) :
    bcurParseBip39 C mnemonicLen (cryptoBip39 words) =
      .ok (some ([0x20].intercalate words ++ [0])) := by
  have hwords := payloadWords_cryptoBip39 hC hne hlen fun w hw => (hshort w hw).2
  have hfirst : words.head? ≠ some [] := by
    intro h
    exact (hshort [] (List.mem_of_mem_head? h)).1 rfl
  have hjoin := (foldl_appendWord_eq_iff hne).2 (.inl hfirst)
  have hcbor : cryptoBip39 words ≠ [] := by simp [cryptoBip39, Cbor.encodeHead]
  have hspec := bcurParseBip39_spec (C := C) mnemonicLen hcbor
  rw [hwords] at hspec
  dsimp only at hspec
  have hfits : roomFor words true ≤ mnemonicLen := by
    rw [roomFor, hjoin]
    exact hroom
  rw [if_pos hfits, hjoin] at hspec
  exact hspec.2

end Spec

/-! ### A cursor over the bytes -/

/-- How long an item is that is not a container. -/
def scalarLength (bs : Bytes) : ℕ :=
  Cbor.headLength bs + if headMajor bs = 2 ∨ headMajor bs = 3 then Cbor.argument bs else 0

/-- The cursor is a number of items and the bytes from the first of them on. -/
def cborCursor : TinyCborCursor (ℕ × Bytes) where
  parserInit bs := if bs.isEmpty then none else some (1, bs)
  isValid v := decide (0 < v.1) && decide (headMajor v.2 < 8)
  isContainer v := headMajor v.2 == 4 || headMajor v.2 == 5
  isArray v := headMajor v.2 == 4
  isTextString v := headMajor v.2 == 3
  isInteger v := decide (headMajor v.2 < 2)
  atEnd v := v.1 == 0
  getInt v :=
    if headMajor v.2 = 0 then .ok (some (Cbor.argument v.2))
    else if headMajor v.2 = 1 then .ok (some (-1 - Cbor.argument v.2))
    else .error .assert
  advance v := some (v.1 - 1, v.2.drop (scalarLength v.2))
  getArrayLength v := if Cbor.lengthKnown v.2 then some (Cbor.argument v.2) else none
  enterContainer v :=
    some (if headMajor v.2 = 5 then 2 * Cbor.argument v.2 else Cbor.argument v.2,
      v.2.drop (Cbor.headLength v.2))
  leaveContainer v last := if last.1 = 0 then some (v.1 - 1, last.2) else none
  copyTextString v :=
    if headMajor v.2 = 3 then
      .ok (some ((v.2.drop (Cbor.headLength v.2)).take (Cbor.argument v.2),
        (v.1 - 1, v.2.drop (scalarLength v.2))))
    else .error .assert
  textStringEquals v s := some ((v.2.drop (Cbor.headLength v.2)).take (Cbor.argument v.2) == s)

/-- A head that has been written is read again. -/
theorem read_encodeHead {m n : ℕ} (hm : m < 8) (hn : n < 2 ^ 8) (rest : Bytes) :
    headMajor (Cbor.encodeHead m n ++ rest) = m ∧ Cbor.argument (Cbor.encodeHead m n ++ rest) = n ∧
      (Cbor.encodeHead m n ++ rest).drop (Cbor.headLength (Cbor.encodeHead m n ++ rest)) = rest ∧
      Cbor.lengthKnown (Cbor.encodeHead m n ++ rest) = true := by
  have hread : ∀ k < 32, ∀ bs, headMajor (UInt8.ofNat (32 * m + k) :: bs) = m ∧
      Cbor.info (UInt8.ofNat (32 * m + k)) = k := by
    intro k hk bs
    have hb : (UInt8.ofNat (32 * m + k)).toNat = 32 * m + k :=
      UInt8.toNat_ofNat_of_lt' (show 32 * m + k < 256 by omega)
    rw [headMajor, Cbor.major, Cbor.info, hb]
    omega
  rw [Cbor.encodeHead]
  by_cases hshort : n < 24
  · obtain ⟨hmajor, hinfo⟩ := hread n (by omega) rest
    have hne : n ≠ 31 := by omega
    rw [if_pos hshort, List.singleton_append]
    generalize UInt8.ofNat (32 * m + n) = b at hmajor hinfo ⊢
    simp [hmajor, Cbor.argument, Cbor.headLength, Cbor.lengthKnown, hinfo, hshort, hne]
  · obtain ⟨hmajor, hinfo⟩ := hread 24 (by decide) (Bytes.ofNatBE 1 n ++ rest)
    have hvalue : Bytes.toNatBE (Bytes.ofNatBE 1 n) = n := Bytes.toNatBE_ofNatBE_of_lt hn
    have hlen : (Bytes.ofNatBE 1 n).length = 1 := Bytes.length_ofNatBE 1 n
    rw [if_neg hshort, if_pos hn, List.cons_append]
    generalize UInt8.ofNat (32 * m + 24) = b at hmajor hinfo ⊢
    generalize Bytes.ofNatBE 1 n = bs at hmajor hvalue hlen ⊢
    have htake : (bs ++ rest).take 1 = bs := List.take_left' hlen
    have hdrop : (bs ++ rest).drop 1 = rest := List.drop_left' hlen
    simp [hmajor, Cbor.argument, Cbor.headLength, Cbor.lengthKnown, hinfo, hvalue, htake, hdrop]

/-- A text that has been written is read again. -/
theorem read_encodeText {content : Bytes} (hlen : content.length < 24) (rest : Bytes) :
    headMajor (Cbor.encodeText content ++ rest) = 3 ∧
      ((Cbor.encodeText content ++ rest).drop
        (Cbor.headLength (Cbor.encodeText content ++ rest))).take
          (Cbor.argument (Cbor.encodeText content ++ rest)) = content ∧
      (Cbor.encodeText content ++ rest).drop (scalarLength (Cbor.encodeText content ++ rest)) =
        rest := by
  obtain ⟨hmajor, hargument, hdrop, -⟩ :=
    read_encodeHead (m := 3) (n := content.length) (by decide) (by omega) (content ++ rest)
  rw [Cbor.encodeText, List.append_assoc, scalarLength, hmajor, if_pos (.inr rfl),
    ← List.drop_drop, hdrop, hargument]
  exact ⟨rfl, List.take_left' rfl, List.drop_left' rfl⟩

/-- A number that has been written is read again. -/
theorem read_encodeUint {n : ℕ} (hn : n < 2 ^ 8) (rest : Bytes) :
    headMajor (Cbor.encodeUint n ++ rest) = 0 ∧ Cbor.argument (Cbor.encodeUint n ++ rest) = n ∧
      (Cbor.encodeUint n ++ rest).drop (scalarLength (Cbor.encodeUint n ++ rest)) = rest := by
  obtain ⟨hmajor, hargument, hdrop, -⟩ := read_encodeHead (m := 0) (by decide) hn rest
  rw [Cbor.encodeUint, scalarLength, hmajor, if_neg (by decide)]
  exact ⟨rfl, hargument, hdrop⟩

theorem holdsTexts_cborCursor {k : ℕ × Bytes → Prop} {words : List Bytes}
    (hshort : ∀ w ∈ words, w.length < 24) {rest : Bytes} (hk : k (0, rest)) :
    HoldsTexts cborCursor k words (words.length, words.flatMap Cbor.encodeText ++ rest) := by
  induction words with
  | nil => exact ⟨rfl, hk⟩
  | cons w words ih =>
      obtain ⟨hmajor, hcontent, hdrop⟩ := read_encodeText (hshort w List.mem_cons_self)
        (words.flatMap Cbor.encodeText ++ rest)
      rw [List.flatMap_cons, List.append_assoc]
      refine ⟨?_, ?_, (words.length, words.flatMap Cbor.encodeText ++ rest), ?_,
        ih fun w' hw' => hshort w' (List.mem_cons_of_mem w hw')⟩
      · simp [cborCursor, hmajor]
      · simp [cborCursor, hmajor]
      · simp only [cborCursor, hmajor, if_true, hcontent, hdrop, List.length_cons,
          Nat.add_sub_cancel]

/-- The cursor finds the words of a payload in it. -/
theorem payload_cborCursor (words : List Bytes) (hlen : words.length < 2 ^ 8)
    (hshort : ∀ w ∈ words, w.length < 24) :
    ∃ v, cborCursor.parserInit (cryptoBip39 words) = some v ∧ cborCursor.isValid v = true ∧
      cborCursor.isContainer v = true ∧ ∃ inner, cborCursor.enterContainer v = some inner ∧
        HoldsItems cborCursor (fun last => ∃ next, cborCursor.leaveContainer v last = some next)
          [.int 1, .texts words, .int 2, .text (ascii "en")] inner := by
  have hen : (ascii "en").length < 24 := by decide
  -- the rests of the payload, from the back
  obtain ⟨hmajor₄, hcontent₄, hdrop₄⟩ := read_encodeText hen []
  rw [List.append_nil] at hmajor₄ hcontent₄ hdrop₄
  obtain ⟨hmajor₃, hargument₃, hdrop₃⟩ :=
    read_encodeUint (n := 2) (by decide) (Cbor.encodeText (ascii "en"))
  obtain ⟨hmajor₂, hargument₂, hdrop₂, hknown₂⟩ := read_encodeHead (m := 4) (by decide) hlen
    (words.flatMap Cbor.encodeText ++ (Cbor.encodeUint 2 ++ Cbor.encodeText (ascii "en")))
  obtain ⟨hmajor₁, hargument₁, hdrop₁⟩ := read_encodeUint (n := 1) (by decide)
    (Cbor.encodeHead 4 words.length ++ (words.flatMap Cbor.encodeText ++
      (Cbor.encodeUint 2 ++ Cbor.encodeText (ascii "en"))))
  obtain ⟨hmajor₀, hargument₀, hdrop₀, -⟩ :=
    read_encodeHead (m := 5) (n := 2) (by decide) (by decide)
    (Cbor.encodeUint 1 ++ (Cbor.encodeHead 4 words.length ++ (words.flatMap Cbor.encodeText ++
      (Cbor.encodeUint 2 ++ Cbor.encodeText (ascii "en")))))
  have hne : (cryptoBip39 words).isEmpty = false := by simp [cryptoBip39, Cbor.encodeHead]
  rw [← cryptoBip39] at hmajor₀ hargument₀ hdrop₀
  generalize cryptoBip39 words = r₀ at hne hmajor₀ hargument₀ hdrop₀ ⊢
  generalize Cbor.encodeText (ascii "en") = r₄ at *
  generalize Cbor.encodeUint 2 ++ r₄ = r₃ at *
  generalize Cbor.encodeHead 4 words.length ++ (words.flatMap Cbor.encodeText ++ r₃) = r₂ at *
  generalize Cbor.encodeUint 1 ++ r₂ = r₁ at *
  refine ⟨(1, r₀), ?_, ?_, ?_, (4, r₁), ?_, ?_⟩
  · simp only [cborCursor, hne, Bool.false_eq_true, if_false]
  · simp [cborCursor, hmajor₀]
  · simp [cborCursor, hmajor₀]
  · simp only [cborCursor, hmajor₀, hargument₀, hdrop₀, if_true]
  refine ⟨by simp [cborCursor, hmajor₁], by simp [cborCursor, hmajor₁],
    by simp [cborCursor, hmajor₁, hargument₁], (3, r₂), by simp only [cborCursor, hdrop₁], ?_⟩
  refine ⟨by simp [cborCursor, hmajor₂], by simp [cborCursor, hmajor₂],
    by simp [cborCursor, hmajor₂], by simp [cborCursor, hknown₂, hargument₂],
    (words.length, words.flatMap Cbor.encodeText ++ r₃), ?_,
    holdsTexts_cborCursor hshort ⟨(2, r₃), rfl, ?_⟩⟩
  · simp only [cborCursor, hmajor₂, hargument₂, hdrop₂]
    rfl
  refine ⟨by simp [cborCursor, hmajor₃], by simp [cborCursor, hmajor₃],
    by simp [cborCursor, hmajor₃, hargument₃], (1, r₄), by simp only [cborCursor, hdrop₃], ?_⟩
  refine ⟨by simp [cborCursor, hmajor₄], by simp [cborCursor, hmajor₄], ?_, (0, []),
    by simp only [cborCursor, hdrop₄], rfl, _, rfl⟩
  intro s
  simp only [cborCursor, hcontent₄]

/-- The cursor over the bytes does what the library documents. -/
theorem cborCursor_lawful : cborCursor.Lawful where
  payload := payload_cborCursor
  number v := by
    simp only [cborCursor]
    by_cases hzero : headMajor v.2 = 0
    · simp [hzero]
    · by_cases hone : headMajor v.2 = 1
      · simp [hone]
      · rw [if_neg hzero, if_neg hone]
        refine iff_of_false (fun ⟨_, h⟩ => nomatch h) ?_
        rw [decide_eq_true_iff]
        omega

end Jade
