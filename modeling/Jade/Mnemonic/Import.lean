/-
**Importing a recovery phrase (`process/mnemonic.c`).**

What has been scanned may be raw entropy, the indices of the words as digits, a UR code, or the
words themselves. The formats are tried in this order, and each writes to the same buffer from its
start.

Main definitions:

* `Jade.MnemonicLib` — the libraries, and `Jade.MnemonicLib.Lawful` — what BIP39 says about them;
* `Jade.importCompactseedqr`, `Jade.importSeedqr`, `Jade.importBcurBip39`, `Jade.importMnemonic` —
  the formats;
* `Jade.InputOk` — what can be imported without harm.

Main results:

* `Jade.importMnemonic_iff` — **exactly these inputs are harmless**;
* `Jade.formats_agree` — **all formats of a phrase give the same text**.
-/

import Jade.Keychain.Derive
import Jade.Mnemonic.Bcur
import Jade.Mnemonic.Expansion

set_option relaxedAutoImplicit false
set_option autoImplicit false

namespace Jade

open Exec

/-! ### The libraries -/

/-- Should be large enough for all 12 and 24 word mnemonics. -/
def MNEMONIC_BUFLEN : ℕ := 256

/-- The libraries, with the word list and the decoder of UR codes: the type and the payload of a
text that is complete. -/
structure MnemonicLib (V : Type) extends KeyPrims where
  words : WordList
  urDecode : Bytes → Option (Bytes × Bytes)
  cbor : TinyCborCursor V

section Formats

variable {V : Type} (M : MnemonicLib V)

/-! ### Raw entropy -/

/-- `import_compactseedqr` -/
def importCompactseedqr (bytes : Bytes) (bufLen : ℕ) : Except Fault (Option Bytes) := do
  if bytes.length ≠ BIP39_ENTROPY_LEN_128 ∧ bytes.length ≠ BIP39_ENTROPY_LEN_256 then return none
  let mnemonic ← wallyVerify (M.bip39MnemonicFromBytes bytes)
  jadeVerify (decide (mnemonic.length < bufLen))
  return some (← put bufLen mnemonic [0])

/-! ### Indices -/

/-- The codes of four bytes each. -/
def seedqrCodes : Bytes → List Bytes
  | a :: b :: c :: d :: rest => [a, b, c, d] :: seedqrCodes rest
  | _ => []

/-- `strtol` of a code; a negative number is a large index. -/
def seedqrIndex (code : Bytes) : ℕ := (strtoul (Bytes.cstr code)).1

/-- What stands in front of the word at position `i`. -/
def seedqrSeparator (i : ℕ) : Bytes := if 0 < i then [0x20] else []

/-- One turn of the loop of `import_seedqr`, for the word at position `i`. -/
def seedqrWord (bufLen i : ℕ) (code out : Bytes) : Except Fault (Option Bytes) :=
  if 2047 < seedqrIndex code then .ok none
  else do
    let word ← wallyVerify (M.words.getWordByIndex (seedqrIndex code))
    -- space, word, terminator
    if bufLen ≤ out.length + 1 + word.length + 1 then return none
    let out ← put bufLen out (seedqrSeparator i)
    return some (← put bufLen out word)

/-- The loop of `import_seedqr`, from the word at position `i` on. -/
def seedqrWords (bufLen : ℕ) : ℕ → List Bytes → Bytes → Except Fault (Option Bytes)
  | _, [], out => do return some (← put bufLen out [0])
  | i, code :: codes, out => do
      match ← seedqrWord M bufLen i code out with
      | none => return none
      | some out => seedqrWords bufLen (i + 1) codes out

/-- A string of appropriate length, and all digits. -/
def seedqrShape (bytes : Bytes) : Bool :=
  (bytes.length == 48 || bytes.length == 96) && (Bytes.cstr bytes).all isDigit

/-- `import_seedqr` -/
def importSeedqr (bytes : Bytes) (bufLen : ℕ) : Except Fault (Option Bytes) :=
  if seedqrShape bytes then seedqrWords M bufLen 0 (seedqrCodes bytes) [] else .ok none

/-! ### UR codes -/

def BCUR_TYPE_CRYPTO_BIP39 : Bytes := ascii "crypto-bip39"

/-- The quick check of `import_bcur_bip39`. -/
def hasBcurTag (bytes : Bytes) : Bool :=
  decide (16 < bytes.length) && sameLetters (ascii "UR:CRYPTO-BIP39") (bytes.take 15)

/-- The payload of a text that `bcur_parse_bip39_wrapper` can decode. -/
def bcurPayload (bytes : Bytes) : Option Bytes :=
  match M.urDecode (Bytes.cstr bytes) with
  | none => none
  | some (type, payload) =>
      if !payload.isEmpty && sameLetters BCUR_TYPE_CRYPTO_BIP39 type then some payload else none

/-- `import_bcur_bip39` -/
def importBcurBip39 (bytes : Bytes) (bufLen : ℕ) : Except Fault (Option Bytes) :=
  if hasBcurTag bytes then
    match bcurPayload M bytes with
    | none => .ok none
    | some payload => bcurParseBip39 M.cbor bufLen payload
  else .ok none

/-! ### All formats -/

/-- Try a format, and if it does not match what comes next. -/
def orElse (first next : Except Fault (Option Bytes)) : Except Fault (Option Bytes) := do
  match ← first with
  | some out => return some out
  | none => next

/-- `import_mnemonic`: what is written to the buffer. -/
def importMnemonic (bytes : Bytes) (bufLen : ℕ) : Except Fault (Option Bytes) :=
  orElse (importCompactseedqr M bytes bufLen) <|
    orElse (importSeedqr M bytes bufLen) <|
      orElse (importBcurBip39 M bytes bufLen) (expandWords M.words bytes bufLen)

end Formats

/-- What BIP39 says about the functions: entropy of 16 or 32 bytes has a phrase of 12 or 24 words of
the list. -/
structure MnemonicLib.Lawful {V : Type} (M : MnemonicLib V) : Prop where
  words : M.words.Lawful
  cbor : M.cbor.Lawful
  entropy : ∀ e : Bytes, e.length = BIP39_ENTROPY_LEN_128 ∨ e.length = BIP39_ENTROPY_LEN_256 →
    ∃ indices : List ℕ, 3 * e.length = 4 * indices.length ∧
      (∀ i ∈ indices, i < BIP39_WORDLIST_LEN) ∧
        M.bip39MnemonicFromBytes e = some (M.words.phrase indices)

/-! ### What is imported -/

section Property

variable {V : Type} (M : MnemonicLib V)

/-- The text is one with indices of words. -/
def IsSeedqr (bytes : Bytes) : Prop :=
  seedqrShape bytes = true ∧ ∀ code ∈ seedqrCodes bytes, seedqrIndex code < BIP39_WORDLIST_LEN

instance (bytes : Bytes) : Decidable (IsSeedqr bytes) :=
  inferInstanceAs (Decidable (_ ∧ ∀ code ∈ seedqrCodes bytes, _))

/-- The texts between the spaces, expanded to the words they stand for. -/
def ExpandedWords (bytes out : Bytes) : Prop :=
  ∃ indices, List.Forall₂ M.words.Expands ((Bytes.cstr bytes).splitOn 0x20) indices ∧
    out = M.words.phrase indices ++ [0]

/-- What an input stands for, with a terminator. -/
def Expanded (bytes out : Bytes) : Prop :=
  if bytes.length = BIP39_ENTROPY_LEN_128 ∨ bytes.length = BIP39_ENTROPY_LEN_256 then
    ∃ text, M.bip39MnemonicFromBytes bytes = some text ∧ out = text ++ [0]
  else if IsSeedqr bytes then
    out = M.words.phrase ((seedqrCodes bytes).map seedqrIndex) ++ [0]
  else
    match (if hasBcurTag bytes then bcurPayload M bytes else none) with
    | none => ExpandedWords M bytes out
    | some payload =>
        (∃ words, IsBip39Payload M.cbor payload words ∧ out = [0x20].intercalate words ++ [0]) ∨
          (¬∃ words, IsBip39Payload M.cbor payload words) ∧ ExpandedWords M bytes out

/-- No assertion fails and nothing is written outside the buffer; what is returned is what the input
stands for, and its length is the number of bytes written. -/
def ImportHarmless (bytes : Bytes) (bufLen : ℕ) : Prop :=
  match importMnemonic M bytes bufLen with
  | .error _ => False
  | .ok none => True
  | .ok (some out) => Expanded M bytes out ∧ out.length ≤ bufLen

/-- The input is entropy, or indices of words, or a UR code with a payload that is as it should be, or
a text that is not empty. -/
def InputOk (bytes : Bytes) (bufLen : ℕ) : Prop :=
  bytes.length = BIP39_ENTROPY_LEN_128 ∨ bytes.length = BIP39_ENTROPY_LEN_256 ∨ IsSeedqr bytes ∨
    match (if hasBcurTag bytes then bcurPayload M bytes else none) with
    | none => Bytes.cstr bytes ≠ []
    | some payload => PayloadOk M.cbor bufLen payload

end Property

/-! ### Each format -/

section Spec

variable {V : Type} {M : MnemonicLib V}

/-- A phrase of a few words is short. -/
theorem length_phrase_lt (hL : M.words.Lawful) {indices : List ℕ}
    (hall : ∀ i ∈ indices, i < BIP39_WORDLIST_LEN) :
    (M.words.phrase indices).length ≤ 9 * indices.length := by
  induction indices with
  | nil => simp [WordList.phrase]
  | cons i indices ih =>
      have hword := (hL.length (hall i List.mem_cons_self)).2
      have hrest := ih fun j hj => hall j (List.mem_cons_of_mem i hj)
      cases indices with
      | nil =>
          simp only [WordList.phrase, List.map_singleton, List.intercalate_singleton,
            List.length_singleton]
          omega
      | cons j indices =>
          simp only [WordList.phrase, List.map_cons, List.intercalate_cons_cons,
            List.length_append, List.length_cons, List.length_nil] at hrest ⊢
          omega

/-- Raw entropy of the right length has its phrase written; other inputs are left to other formats.
-/
theorem importCompactseedqr_spec (hM : M.Lawful) {bufLen : ℕ} (hbuf : MNEMONIC_BUFLEN ≤ bufLen)
    (bytes : Bytes) :
    if bytes.length = BIP39_ENTROPY_LEN_128 ∨ bytes.length = BIP39_ENTROPY_LEN_256 then
      ∃ text, M.bip39MnemonicFromBytes bytes = some text ∧ text.length + 1 ≤ bufLen ∧
        importCompactseedqr M bytes bufLen = .ok (some (text ++ [0]))
    else importCompactseedqr M bytes bufLen = .ok none := by
  rw [importCompactseedqr]
  split
  · next hlen =>
      obtain ⟨indices, hcount, hall, hphrase⟩ := hM.entropy bytes hlen
      have hshort := length_phrase_lt hM.words hall
      have hroom : (M.words.phrase indices).length < bufLen := by
        rw [BIP39_ENTROPY_LEN_128, BIP39_ENTROPY_LEN_256] at hlen
        rw [MNEMONIC_BUFLEN] at hbuf
        omega
      refine ⟨_, hphrase, hroom, ?_⟩
      rw [if_neg (by rw [not_and_or, not_not, not_not]; exact hlen), hphrase]
      simp only [wallyVerify, jadeVerify, ok_bind, decide_eq_true hroom, if_true]
      rw [put_eq_ok hroom]
      rfl
  · next hlen =>
      rw [not_or] at hlen
      rw [if_pos hlen]
      rfl

/-- The words of some indices, from position `i` on, each with its separator. -/
def seedqrText (L : WordList) : ℕ → List ℕ → Bytes
  | _, [] => []
  | i, index :: indices => seedqrSeparator i ++ L.word index ++ seedqrText L (i + 1) indices

theorem seedqrText_succ (L : WordList) (i : ℕ) {indices : List ℕ} (hne : indices ≠ []) :
    seedqrText L (i + 1) indices = 0x20 :: L.phrase indices := by
  induction indices generalizing i with
  | nil => exact absurd rfl hne
  | cons index indices ih =>
      rw [seedqrText, seedqrSeparator, if_pos (Nat.succ_pos i)]
      cases indices with
      | nil => simp [seedqrText, WordList.phrase]
      | cons j indices =>
          rw [ih (i + 1) (by simp)]
          simp [WordList.phrase]

theorem seedqrText_zero (L : WordList) (indices : List ℕ) :
    seedqrText L 0 indices = L.phrase indices := by
  cases indices with
  | nil => rfl
  | cons index indices =>
      rw [seedqrText, seedqrSeparator, if_neg (by decide)]
      cases indices with
      | nil => simp [seedqrText, WordList.phrase]
      | cons j indices =>
          rw [seedqrText_succ L 0 (by simp)]
          simp [WordList.phrase]

/-- A word is written when its index is one, and there is room for a terminator behind it. -/
theorem seedqrWord_eq (bufLen i : ℕ) (code out : Bytes) :
    seedqrWord M bufLen i code out =
      .ok (if seedqrIndex code < BIP39_WORDLIST_LEN ∧
          out.length + (M.words.word (seedqrIndex code)).length + 2 < bufLen then
        some (out ++ seedqrSeparator i ++ M.words.word (seedqrIndex code)) else none) := by
  have hsep : (seedqrSeparator i).length ≤ 1 := by
    rw [seedqrSeparator]
    split <;> simp
  rw [seedqrWord, BIP39_WORDLIST_LEN]
  by_cases hindex : 2047 < seedqrIndex code
  · rw [if_pos hindex, if_neg (fun h => absurd h.1 (by omega))]
  · have hlt : seedqrIndex code < 2048 := by omega
    rw [if_neg hindex, WordList.getWordByIndex, BIP39_WORDLIST_LEN, if_pos hlt]
    simp only [wallyVerify, ok_bind]
    by_cases hfull : bufLen ≤ out.length + 1 + (M.words.word (seedqrIndex code)).length + 1
    · rw [if_pos hfull, if_neg (fun h => absurd h.2 (by omega))]
      rfl
    · rw [if_neg hfull, if_pos ⟨hlt, by omega⟩, put_eq_ok (by omega), ok_bind,
        put_eq_ok (by rw [List.length_append]; omega)]
      rfl

/-- The loop does not fail, and when there is room it writes the words of all indices. -/
theorem seedqrWords_spec {bufLen : ℕ} (codes : List Bytes) (i : ℕ) (out : Bytes)
    (hout : out.length < bufLen) :
    ∃ result, seedqrWords M bufLen i codes out = .ok result ∧
      (∀ out', result = some out' →
        (∀ code ∈ codes, seedqrIndex code < BIP39_WORDLIST_LEN) ∧
          out' = out ++ seedqrText M.words i (codes.map seedqrIndex) ++ [0] ∧
            out'.length ≤ bufLen) ∧
      (M.words.Lawful → (∀ code ∈ codes, seedqrIndex code < BIP39_WORDLIST_LEN) →
        out.length + 9 * codes.length + 2 ≤ bufLen → result ≠ none) := by
  induction codes generalizing i out with
  | nil =>
      refine ⟨some (out ++ [0]), ?_, ?_, fun _ _ _ => by simp⟩
      · rw [seedqrWords, put_eq_ok (by simpa using Nat.succ_le_of_lt hout)]
        rfl
      · intro out' hout'
        obtain rfl := Option.some.inj hout'
        refine ⟨fun code hcode => absurd hcode List.not_mem_nil, by simp [seedqrText], ?_⟩
        simpa using Nat.succ_le_of_lt hout
  | cons code codes ih =>
      rw [seedqrWords, seedqrWord_eq, ok_bind]
      by_cases hword : seedqrIndex code < BIP39_WORDLIST_LEN ∧
          out.length + (M.words.word (seedqrIndex code)).length + 2 < bufLen
      · rw [if_pos hword]
        have hsep : (seedqrSeparator i).length ≤ 1 := by
          rw [seedqrSeparator]
          split <;> simp
        have hlen : (out ++ seedqrSeparator i ++ M.words.word (seedqrIndex code)).length ≤
            out.length + 1 + (M.words.word (seedqrIndex code)).length := by
          rw [List.length_append, List.length_append]
          omega
        obtain ⟨result, hrun, hsome, hroom⟩ := ih (i + 1)
          (out ++ seedqrSeparator i ++ M.words.word (seedqrIndex code)) (by omega)
        refine ⟨result, hrun, ?_, ?_⟩
        · intro out' hout'
          obtain ⟨hall, htext, hle⟩ := hsome out' hout'
          refine ⟨?_, ?_, hle⟩
          · intro code' hcode'
            rcases List.mem_cons.1 hcode' with rfl | hcode'
            · exact hword.1
            · exact hall code' hcode'
          · rw [htext, List.map_cons, seedqrText]
            simp
        · intro hL hall htotal
          refine hroom hL (fun code' hcode' => hall code' (List.mem_cons_of_mem code hcode')) ?_
          have hshort := (hL.length hword.1).2
          rw [List.length_cons] at htotal
          omega
      · rw [if_neg hword]
        refine ⟨none, rfl, by simp, ?_⟩
        intro hL hall htotal _
        have hindex := hall code List.mem_cons_self
        have hshort := (hL.length hindex).2
        rw [List.length_cons] at htotal
        exact hword ⟨hindex, by omega⟩

theorem length_seedqrCodes (bytes : Bytes) : (seedqrCodes bytes).length = bytes.length / 4 := by
  induction bytes using seedqrCodes.induct with
  | case1 a b c d rest ih =>
      rw [seedqrCodes, List.length_cons, ih]
      simp only [List.length_cons]
      omega
  | case2 bytes hno =>
      rw [seedqrCodes]
      · rcases bytes with _ | ⟨a, _ | ⟨b, _ | ⟨c, _ | ⟨d, rest⟩⟩⟩⟩
        · rfl
        · simp
        · simp
        · simp
        · exact absurd rfl (hno a b c d rest)
      · exact hno

/-- Indices of words are expanded to these words; other inputs are left to other formats. -/
theorem importSeedqr_spec (hM : M.Lawful) {bufLen : ℕ} (hbuf : MNEMONIC_BUFLEN ≤ bufLen)
    (bytes : Bytes) :
    if IsSeedqr bytes then
      importSeedqr M bytes bufLen =
        .ok (some (M.words.phrase ((seedqrCodes bytes).map seedqrIndex) ++ [0])) ∧
      (M.words.phrase ((seedqrCodes bytes).map seedqrIndex) ++ [0]).length ≤ bufLen
    else importSeedqr M bytes bufLen = .ok none := by
  rw [importSeedqr]
  rw [MNEMONIC_BUFLEN] at hbuf
  by_cases hshape : seedqrShape bytes = true
  · rw [if_pos hshape]
    obtain ⟨result, hrun, hsome, hroom⟩ :=
      seedqrWords_spec (M := M) (seedqrCodes bytes) 0 []
        (show ([] : Bytes).length < bufLen by simp only [List.length_nil]; omega)
    have hcount : (seedqrCodes bytes).length ≤ 24 := by
      rw [length_seedqrCodes]
      rw [seedqrShape, Bool.and_eq_true, Bool.or_eq_true, beq_iff_eq, beq_iff_eq] at hshape
      omega
    by_cases hall : ∀ code ∈ seedqrCodes bytes, seedqrIndex code < BIP39_WORDLIST_LEN
    · rw [if_pos (show IsSeedqr bytes from ⟨hshape, hall⟩)]
      have hne := hroom hM.words hall (by simp only [List.length_nil]; omega)
      obtain ⟨out, hout⟩ := Option.ne_none_iff_exists'.1 hne
      obtain ⟨-, htext, hle⟩ := hsome out hout
      rw [seedqrText_zero, List.nil_append] at htext
      rw [hrun, hout, htext]
      exact ⟨rfl, htext ▸ hle⟩
    · rw [if_neg (show ¬IsSeedqr bytes from fun h => hall h.2), hrun]
      cases result with
      | none => rfl
      | some out => exact absurd (hsome out rfl).1 hall
  · rw [if_neg hshape, if_neg (show ¬IsSeedqr bytes from fun h => hshape h.1)]

/-- A text with the tag of a UR code starts with a letter. -/
theorem exists_head_of_hasBcurTag {bytes : Bytes} (h : hasBcurTag bytes = true) :
    ∃ c cs, bytes = c :: cs ∧ 0x41 ≤ c := by
  cases bytes with
  | nil => cases h
  | cons c cs =>
      rw [hasBcurTag, Bool.and_eq_true, sameLetters, List.take_succ_cons, List.map_cons] at h
      have hfirst : 0x75 = toLower c := (List.cons.inj (eq_of_beq h.2)).1
      refine ⟨c, cs, rfl, ?_⟩
      by_contra hlow
      rw [toLower, if_neg (fun hupper => hlow hupper.1)] at hfirst
      subst hfirst
      exact hlow (by decide)

theorem ne_zero_of_letter {c : UInt8} (h : 0x41 ≤ c) : c ≠ 0 ∧ isDigit c = false := by
  constructor
  · rintro rfl
    exact absurd h (by decide)
  · rw [isDigit, Bool.and_eq_false_iff]
    right
    rw [decide_eq_false_iff_not]
    intro hdigit
    exact absurd (UInt8.le_trans h hdigit) (by decide)

/-- A text with the tag of a UR code is not empty. -/
theorem cstr_ne_nil_of_hasBcurTag {bytes : Bytes} (h : hasBcurTag bytes = true) :
    Bytes.cstr bytes ≠ [] := by
  obtain ⟨c, cs, rfl, hletter⟩ := exists_head_of_hasBcurTag h
  simp [Bytes.cstr, (ne_zero_of_letter hletter).1]

/-- A text is expanded to words without harm just when it is not empty. -/
theorem expandWords_harmless (hM : M.Lawful) (bytes : Bytes) (bufLen : ℕ) :
    (match expandWords M.words bytes bufLen with
      | .error _ => False
      | .ok none => True
      | .ok (some out) => ExpandedWords M bytes out ∧ out.length ≤ bufLen) ↔
        Bytes.cstr bytes ≠ [] := by
  by_cases hempty : Bytes.cstr bytes = []
  · have hrun : expandWords M.words bytes bufLen = .ok (some []) := by
      rw [expandWords, hempty]
      rfl
    rw [hrun]
    refine iff_of_false ?_ (fun h => h hempty)
    rintro ⟨⟨indices, -, hout⟩, -⟩
    exact absurd hout (by simp)
  · refine iff_of_true ?_ hempty
    obtain ⟨result, hrun, hspec⟩ := expandWords_spec hM.words bytes bufLen
    rw [hrun]
    cases result with
    | none => trivial
    | some out =>
        rcases hspec out rfl with ⟨h, -⟩ | ⟨indices, hall, hout, hlen⟩
        · exact absurd h hempty
        · exact ⟨⟨indices, hall, hout⟩, hlen⟩

/-! ### Exactly these inputs are harmless -/

/-- **Exactly these inputs are harmless.** -/
theorem importMnemonic_iff (hM : M.Lawful) {bufLen : ℕ} (hbuf : MNEMONIC_BUFLEN ≤ bufLen)
    (bytes : Bytes) : ImportHarmless M bytes bufLen ↔ InputOk M bytes bufLen := by
  rw [ImportHarmless, InputOk, importMnemonic]
  have hcompact := importCompactseedqr_spec hM hbuf bytes
  have hseedqr := importSeedqr_spec hM hbuf bytes
  by_cases hentropy : bytes.length = BIP39_ENTROPY_LEN_128 ∨ bytes.length = BIP39_ENTROPY_LEN_256
  · rw [if_pos hentropy] at hcompact
    obtain ⟨text, htext, hlen, hrun⟩ := hcompact
    rw [hrun, ← or_assoc]
    refine iff_of_true ⟨?_, by simpa using hlen⟩ (.inl hentropy)
    rw [Expanded, if_pos hentropy]
    exact ⟨text, htext, rfl⟩
  · rw [if_neg hentropy] at hcompact
    rw [hcompact, ← or_assoc, or_iff_right hentropy]
    change (match orElse (importSeedqr M bytes bufLen) _ with
      | .error _ => False
      | .ok none => True
      | .ok (some out) => Expanded M bytes out ∧ out.length ≤ bufLen) ↔ _
    by_cases hindices : IsSeedqr bytes
    · rw [if_pos hindices] at hseedqr
      obtain ⟨hrun, hlen⟩ := hseedqr
      rw [hrun]
      refine iff_of_true ⟨?_, hlen⟩ (.inl hindices)
      rw [Expanded, if_neg hentropy, if_pos hindices]
    · rw [if_neg hindices] at hseedqr
      rw [hseedqr, or_iff_right hindices]
      change (match orElse (importBcurBip39 M bytes bufLen) _ with
        | .error _ => False
        | .ok none => True
        | .ok (some out) => Expanded M bytes out ∧ out.length ≤ bufLen) ↔ _
      simp only [Expanded, if_neg hentropy, if_neg hindices, importBcurBip39]
      have hwords := expandWords_harmless hM bytes bufLen
      by_cases htag : hasBcurTag bytes = true
      · rw [if_pos htag, if_pos htag]
        cases hpayload : bcurPayload M bytes with
        | none => exact hwords
        | some payload =>
            dsimp only
            rw [← bcurParseBip39_iff hM.cbor bufLen payload, PayloadHarmless]
            have htext := hwords.2 (cstr_ne_nil_of_hasBcurTag htag)
            cases hparse : bcurParseBip39 M.cbor bufLen payload with
            | error f => exact Iff.rfl
            | ok result =>
                have hread := isBip39Payload_of_parse hparse
                cases result with
                | none =>
                    refine iff_of_true ?_ trivial
                    have hno : ¬∃ words, IsBip39Payload M.cbor payload words :=
                      fun h => absurd (hread.2 h) Bool.false_ne_true
                    have hother : ∀ out, ¬∃ words, IsBip39Payload M.cbor payload words ∧
                        out = [0x20].intercalate words ++ [0] := by
                      rintro out ⟨words, hwords, -⟩
                      exact hno ⟨words, hwords⟩
                    simpa only [orElse, ok_bind, hno, hother, not_false_eq_true, true_and,
                      false_or] using htext
                | some out =>
                    have hyes := hread.1 rfl
                    simp only [orElse, ok_bind, hyes, not_true, false_and, or_false, pure,
                      Except.pure]
                    constructor
                    · rintro ⟨⟨words, hwords, heq⟩, hlen⟩
                      exact ⟨words, hwords, heq, hlen⟩
                    · rintro ⟨words, hwords, heq, hlen⟩
                      exact ⟨⟨words, hwords, heq⟩, hlen⟩
      · rw [if_neg htag, if_neg htag]
        exact hwords

/-! ### All formats of a phrase give the same text -/

/-- A digit as a character. -/
def digitChar (d : ℕ) : UInt8 := UInt8.ofNat (0x30 + d)

theorem digitChar_spec {d : ℕ} (hd : d < 10) :
    isDigit (digitChar d) = true ∧ isSpace (digitChar d) = false ∧ digitChar d ≠ 0 ∧
      digitChar d ≠ 0x2d ∧ digitChar d ≠ 0x2b ∧ (digitChar d).toNat - 0x30 = d := by
  have hall : ∀ d < 10, isDigit (digitChar d) = true ∧ isSpace (digitChar d) = false ∧
      digitChar d ≠ 0 ∧ digitChar d ≠ 0x2d ∧ digitChar d ≠ 0x2b ∧
        (digitChar d).toNat - 0x30 = d := by decide
  exact hall d hd

/-- An index as four digits. -/
def seedqrDigits (index : ℕ) : Bytes :=
  [digitChar (index / 1000), digitChar (index / 100 % 10), digitChar (index / 10 % 10),
    digitChar (index % 10)]

/-- Four digits are read as the index they were written for. -/
theorem seedqrIndex_seedqrDigits {index : ℕ} (h : index < BIP39_WORDLIST_LEN) :
    seedqrIndex (seedqrDigits index) = index ∧ (seedqrDigits index).all isDigit = true := by
  rw [BIP39_WORDLIST_LEN] at h
  obtain ⟨ha, haspace, ha0, haminus, haplus, hanat⟩ := digitChar_spec (d := index / 1000) (by omega)
  obtain ⟨hb, -, hb0, -, -, hbnat⟩ := digitChar_spec (d := index / 100 % 10) (by omega)
  obtain ⟨hc, -, hc0, -, -, hcnat⟩ := digitChar_spec (d := index / 10 % 10) (by omega)
  obtain ⟨hd, -, hd0, -, -, hdnat⟩ := digitChar_spec (d := index % 10) (by omega)
  have hcstr : Bytes.cstr (seedqrDigits index) = seedqrDigits index :=
    cstr_eq_self (by simp [seedqrDigits, ha0.symm, hb0.symm, hc0.symm, hd0.symm])
  have hnumber : leadingNumber (seedqrDigits index) = index := by
    simp only [leadingNumber, seedqrDigits, List.takeWhile_cons, ha, hb, hc, hd, if_true,
      List.takeWhile_nil, List.foldl_cons, List.foldl_nil, hanat, hbnat, hcnat, hdnat]
    omega
  refine ⟨?_, by simp [seedqrDigits, ha, hb, hc, hd]⟩
  rw [seedqrIndex, hcstr, strtoul]
  rw [seedqrDigits] at hnumber ⊢
  simp only [List.dropWhile_cons, haspace, Bool.false_eq_true, if_false, haminus, haplus, or_self,
    List.takeWhile_cons, ha, if_true, List.isEmpty_cons, hnumber]
  rw [if_neg (by omega)]

theorem seedqrCodes_flatMap (indices : List ℕ) :
    seedqrCodes (indices.flatMap seedqrDigits) = indices.map seedqrDigits := by
  induction indices with
  | nil => rfl
  | cons index indices ih =>
      rw [List.flatMap_cons, List.map_cons, ← ih]
      rfl

theorem length_flatMap_seedqrDigits (indices : List ℕ) :
    (indices.flatMap seedqrDigits).length = 4 * indices.length := by
  induction indices with
  | nil => rfl
  | cons index indices ih =>
      rw [List.flatMap_cons, List.length_append, ih, List.length_cons, seedqrDigits]
      simp only [List.length_cons, List.length_nil]
      omega

/-- The digits of words of the list are such an input. -/
theorem isSeedqr_flatMap {indices : List ℕ} (hcount : indices.length = 12 ∨ indices.length = 24)
    (hall : ∀ i ∈ indices, i < BIP39_WORDLIST_LEN) : IsSeedqr (indices.flatMap seedqrDigits) := by
  have hdigits : ∀ c ∈ indices.flatMap seedqrDigits, isDigit c = true := by
    intro c hc
    obtain ⟨i, hi, hc⟩ := List.mem_flatMap.1 hc
    exact List.all_eq_true.1 (seedqrIndex_seedqrDigits (hall i hi)).2 c hc
  have hzero : 0 ∉ indices.flatMap seedqrDigits := fun h => absurd (hdigits 0 h) (by decide)
  refine ⟨?_, ?_⟩
  · rw [seedqrShape, cstr_eq_self hzero, length_flatMap_seedqrDigits, List.all_eq_true.2 hdigits,
      Bool.and_true, Bool.or_eq_true, beq_iff_eq, beq_iff_eq]
    omega
  · intro code hcode
    rw [seedqrCodes_flatMap] at hcode
    obtain ⟨i, hi, rfl⟩ := List.mem_map.1 hcode
    rw [(seedqrIndex_seedqrDigits (hall i hi)).1]
    exact hall i hi

/-- A UR code of a payload: a byte takes two letters. -/
structure UrText (M : MnemonicLib V) (text payload : Bytes) : Prop where
  tag : hasBcurTag text = true
  decoded : bcurPayload M text = some payload
  length : 2 * payload.length ≤ text.length

theorem not_seedqrShape_of_letter {c : UInt8} (cs : Bytes) (hletter : 0x41 ≤ c) :
    seedqrShape (c :: cs) = false := by
  obtain ⟨hzero, hdigit⟩ := ne_zero_of_letter hletter
  have hcstr : Bytes.cstr (c :: cs) = c :: Bytes.cstr cs := by simp [Bytes.cstr, hzero]
  rw [seedqrShape, hcstr, List.all_cons, hdigit, Bool.false_and, Bool.and_false]

/-- What is too long for entropy and starts with a letter is a UR code, or a text. -/
theorem importMnemonic_text (hM : M.Lawful) {bufLen : ℕ} (hbuf : MNEMONIC_BUFLEN ≤ bufLen)
    {c : UInt8} {cs : Bytes} (hlen : 32 < (c :: cs).length) (hletter : 0x41 ≤ c) :
    importMnemonic M (c :: cs) bufLen =
      orElse (importBcurBip39 M (c :: cs) bufLen) (expandWords M.words (c :: cs) bufLen) := by
  have hcompact := importCompactseedqr_spec hM hbuf (c :: cs)
  rw [if_neg] at hcompact
  · rw [importMnemonic, hcompact, importSeedqr, not_seedqrShape_of_letter cs hletter]
    rfl
  · rw [BIP39_ENTROPY_LEN_128, BIP39_ENTROPY_LEN_256]
    omega

/-- Every word takes at least four bytes. -/
theorem le_length_phrase (hL : M.words.Lawful) {indices : List ℕ} (hne : indices ≠ [])
    (hall : ∀ i ∈ indices, i < BIP39_WORDLIST_LEN) :
    4 * indices.length ≤ (M.words.phrase indices).length + 1 := by
  induction indices with
  | nil => exact absurd rfl hne
  | cons i indices ih =>
      have hword := (hL.length (hall i List.mem_cons_self)).1
      cases indices with
      | nil =>
          simp only [WordList.phrase, List.map_singleton, List.intercalate_singleton,
            List.length_singleton]
          omega
      | cons j indices =>
          have hrest := ih (by simp) fun k hk => hall k (List.mem_cons_of_mem i hk)
          simp only [WordList.phrase, List.map_cons, List.intercalate_cons_cons,
            List.length_append, List.length_cons, List.length_nil] at hrest ⊢
          omega

/-- Words do not look like a UR code. -/
theorem not_hasBcurTag_phrase (hL : M.words.Lawful) {indices : List ℕ}
    (hall : ∀ i ∈ indices, i < BIP39_WORDLIST_LEN) :
    hasBcurTag (M.words.phrase indices) = false := by
  rw [Bool.eq_false_iff]
  intro h
  rw [hasBcurTag, Bool.and_eq_true, sameLetters] at h
  have hcolon : (0x3a : UInt8) ∈ ((M.words.phrase indices).take 15).map toLower := by
    rw [← eq_of_beq h.2]
    decide
  obtain ⟨c, hc, hlower⟩ := List.mem_map.1 hcolon
  rcases hL.mem_phrase hall (List.mem_of_mem_take hc) with rfl | ⟨hlow, -⟩
  · exact absurd hlower (by decide)
  · rw [toLower, if_neg] at hlower
    · subst hlower
      exact absurd hlow (by decide)
    · intro hupper
      exact absurd (UInt8.le_trans hlow hupper.2) (by decide)

/-- A phrase is not empty, and starts with a letter. -/
theorem exists_head_phrase (hL : M.words.Lawful) {indices : List ℕ} (hne : indices ≠ [])
    (hall : ∀ i ∈ indices, i < BIP39_WORDLIST_LEN) :
    ∃ c cs, M.words.phrase indices = c :: cs ∧ 0x41 ≤ c := by
  cases indices with
  | nil => exact absurd rfl hne
  | cons i indices =>
      have hi := hall i List.mem_cons_self
      have hlen := (hL.length hi).1
      cases hword : M.words.word i with
      | nil =>
          rw [hword] at hlen
          exact absurd hlen (by decide)
      | cons c cs =>
          have hletter := hL.letters hi c (by rw [hword]; exact List.mem_cons_self)
          refine ⟨c, ?_, ?_, UInt8.le_trans (by decide) hletter.1⟩
          · exact cs ++ if indices = [] then [] else 0x20 :: M.words.phrase indices
          · cases indices with
            | nil => simp [WordList.phrase, hword]
            | cons j indices => simp [WordList.phrase, hword]

theorem le_length_cryptoBip39 (hL : M.words.Lawful) {indices : List ℕ}
    (hall : ∀ i ∈ indices, i < BIP39_WORDLIST_LEN) :
    3 * indices.length ≤ (cryptoBip39 (indices.map M.words.word)).length := by
  have htexts : 3 * indices.length ≤
      ((indices.map M.words.word).flatMap Cbor.encodeText : Bytes).length := by
    induction indices with
    | nil => exact Nat.zero_le _
    | cons i indices ih =>
        have hword := (hL.length (hall i List.mem_cons_self)).1
        have hrest := ih fun j hj => hall j (List.mem_cons_of_mem i hj)
        rw [List.map_cons, List.flatMap_cons, List.length_append, Cbor.encodeText,
          List.length_append, List.length_cons]
        omega
  rw [cryptoBip39]
  simp only [List.length_append]
  omega

/-- **All formats of a phrase give the same text**: its entropy, the digits of its words, the words,
and a UR code of the words. -/
theorem formats_agree (hM : M.Lawful) {bufLen : ℕ} (hbuf : MNEMONIC_BUFLEN ≤ bufLen) {e : Bytes}
    (he : e.length = BIP39_ENTROPY_LEN_128 ∨ e.length = BIP39_ENTROPY_LEN_256) :
    ∃ indices, M.bip39MnemonicFromBytes e = some (M.words.phrase indices) ∧
      ∀ input, (input = e ∨ input = indices.flatMap seedqrDigits ∨ input = M.words.phrase indices ∨
          UrText M input (cryptoBip39 (indices.map M.words.word))) →
        importMnemonic M input bufLen = .ok (some (M.words.phrase indices ++ [0])) := by
  obtain ⟨indices, hcount, hall, hphrase⟩ := hM.entropy e he
  have hcount' : indices.length = 12 ∨ indices.length = 24 := by
    rw [BIP39_ENTROPY_LEN_128, BIP39_ENTROPY_LEN_256] at he
    omega
  have hne : indices ≠ [] := by
    rintro rfl
    rcases hcount' with h | h <;> cases h
  have hroom : (M.words.phrase indices).length < bufLen := by
    have hshort := length_phrase_lt hM.words hall
    rw [MNEMONIC_BUFLEN] at hbuf
    omega
  refine ⟨indices, hphrase, ?_⟩
  rintro input (rfl | rfl | rfl | hur)
  · have hcompact := importCompactseedqr_spec hM hbuf input
    rw [if_pos he] at hcompact
    obtain ⟨text, htext, -, hrun⟩ := hcompact
    obtain rfl : text = M.words.phrase indices := Option.some.inj (htext.symm.trans hphrase)
    rw [importMnemonic, hrun]
    rfl
  · have hcompact := importCompactseedqr_spec hM hbuf (indices.flatMap seedqrDigits)
    have hseedqr := importSeedqr_spec hM hbuf (indices.flatMap seedqrDigits)
    have hmap : (seedqrCodes (indices.flatMap seedqrDigits)).map seedqrIndex = indices := by
      rw [seedqrCodes_flatMap, List.map_map]
      exact (List.map_congr_left fun i hi => (seedqrIndex_seedqrDigits (hall i hi)).1).trans
        (List.map_id indices)
    rw [if_neg] at hcompact
    · rw [if_pos (isSeedqr_flatMap hcount' hall), hmap] at hseedqr
      rw [importMnemonic, hcompact, hseedqr.1]
      rfl
    · rw [length_flatMap_seedqrDigits, BIP39_ENTROPY_LEN_128, BIP39_ENTROPY_LEN_256]
      omega
  · obtain ⟨c, cs, hhead, hletter⟩ := exists_head_phrase hM.words hne hall
    have hlong := le_length_phrase hM.words hne hall
    have hrest : importMnemonic M (M.words.phrase indices) bufLen =
        expandWords M.words (M.words.phrase indices) bufLen := by
      have htag := not_hasBcurTag_phrase hM.words hall
      rw [hhead] at hlong htag ⊢
      rw [importMnemonic_text hM hbuf (by omega) hletter, importBcurBip39, htag]
      rfl
    rw [hrest, expandWords_words hM.words hne hall hroom]
  · have hpayload := le_length_cryptoBip39 hM.words hall
    have hlong := hur.length
    obtain ⟨c, cs, rfl, hletter⟩ := exists_head_of_hasBcurTag hur.tag
    have hshort : ∀ w ∈ indices.map M.words.word, w ≠ [] ∧ w.length < 24 := by
      intro w hw
      obtain ⟨i, hi, rfl⟩ := List.mem_map.1 hw
      have hword := hM.words.length (hall i hi)
      refine ⟨fun h => ?_, by omega⟩
      rw [h] at hword
      exact absurd hword.1 (by decide)
    rw [importMnemonic_text hM hbuf (by omega) hletter, importBcurBip39, if_pos hur.tag,
      hur.decoded]
    dsimp only
    rw [bcurParseBip39_cryptoBip39 hM.cbor (by simpa using hne)
      (by rw [List.length_map]; omega) hshort hroom]
    rfl

end Spec

end Jade
