/-
**Words and their prefixes (`process/mnemonic.c`).**

A recovery phrase may be scanned as words, or as prefixes of words, with a space between any two.
Every prefix is looked up in the word list, from its first word on: words before the prefix are
skipped, and behind the first word that is greater nothing is looked at.  A prefix stands for a word
when it is the word, or when no other word begins with it.

Main definitions:

* `Jade.WordList` — the word list, and `Jade.WordList.Lawful` — what BIP39 says about it;
* `Jade.strncmp`, `Jade.validWords` — the words a prefix may stand for;
* `Jade.expandWords` — the words of a text, written into a buffer;
* `Jade.WordList.Expands` — a word is the one a prefix stands for.

Main results:

* `Jade.validWords_spec` — the search does not fail, and finds all words there are;
* `Jade.expandWords_spec` — **a text is expanded to the words its prefixes stand for**, or turned
  away.
-/

import Jade.Lib.CText
import Jade.Lib.Exec
import Jade.Lib.Scan
import Jade.Wallet.Script

set_option relaxedAutoImplicit false
set_option autoImplicit false

namespace Jade

open Exec

/-! ### The word list -/

def BIP39_WORDLIST_LEN : ℕ := 2048

/-- The English word list.  Behind the terminator of a word there is something else in memory. -/
structure WordList where
  word : ℕ → Bytes
  behind : ℕ → ℕ → UInt8

/-- What BIP39 says about the list: it is sorted, and its words are short texts of small letters. -/
structure WordList.Lawful (L : WordList) : Prop where
  sorted : ∀ {i j : ℕ}, i < j → j < BIP39_WORDLIST_LEN → L.word i < L.word j
  letters : ∀ {i : ℕ}, i < BIP39_WORDLIST_LEN → ∀ c ∈ L.word i, 0x61 ≤ c ∧ c ≤ 0x7a
  length : ∀ {i : ℕ}, i < BIP39_WORDLIST_LEN → 3 ≤ (L.word i).length ∧ (L.word i).length ≤ 8

namespace WordList

variable (L : WordList)

/-- `bip39_get_word_by_index` -/
def getWordByIndex (index : ℕ) : Option Bytes :=
  if index < BIP39_WORDLIST_LEN then some (L.word index) else none

/-- Is there a terminator at position `n` of the word? -/
def endsAt (index n : ℕ) : Bool :=
  if n < (L.word index).length then false
  else n == (L.word index).length || L.behind index n == 0

end WordList

/-! ### The words of a prefix -/

/-- `strncmp` of a text with another one, as far as the other one goes. -/
def strncmp : Bytes → Bytes → Ordering
  | _, [] => .eq
  | [], b :: _ => if b = 0 then .eq else .lt
  | a :: s, b :: t =>
      if a < b then .lt
      else if b < a then .gt
      else if a = 0 then .eq
      else strncmp s t

/-- What `valid_words` has found: how many words there are, the first of them, and whether one of
them is the whole text. -/
structure Matches where
  number : ℕ := 0
  first : ℕ := 0
  exactMatch : Bool := false
  deriving DecidableEq

section Search

variable (L : WordList)

/-- A word with the prefix. -/
def Matches.add (found : Matches) (index : ℕ) (word : Bytes) : Except Fault Matches :=
  if L.endsAt index word.length then do
    jadeVerify (found.number == 0)
    jadeVerify (!found.exactMatch)
    pure { number := 1, first := index, exactMatch := true }
  else
    .ok { found with
      number := found.number + 1
      first := if found.number = 0 then index else found.first }

/-- The loop of `valid_words`. -/
def validWordsFrom (word : Bytes) : List ℕ → Matches → Except Fault Matches
  | [], found => .ok found
  | index :: indices, found =>
      match strncmp (L.word index) word with
      | .lt => validWordsFrom word indices found
      | .gt => .ok found
      | .eq => do
          let found ← found.add L index word
          validWordsFrom word indices found

/-- `valid_words` on the whole list, for one word; without a text it may be any word. -/
def validWords (word : Bytes) : Except Fault Matches :=
  if word.isEmpty then .ok { number := BIP39_WORDLIST_LEN }
  else validWordsFrom L word (List.range BIP39_WORDLIST_LEN) {}

/-! ### Expanding a text -/

/-- A text is cut at every space before its terminator; what is behind the terminator belongs to the
last piece. -/
def wordTokens : Bytes → List Bytes
  | [] => [[]]
  | c :: cs =>
      if c = 0 then [c :: cs]
      else if c = 0x20 then [] :: wordTokens cs
      else (wordTokens cs).modifyHead (c :: ·)

/-- `isprint` -/
def isPrint (c : UInt8) : Bool := 0x20 ≤ c && c ≤ 0x7e

/-- One turn of the loop of `expand_words`: the word, and the byte behind its prefix. -/
def expandToken (bufLen : ℕ) (out token : Bytes) (separator : UInt8) :
    Except Fault (Option Bytes) := do
  let found ← validWords L token
  if found.number ≠ 1 ∧ found.exactMatch = false then return none
  let word ← wallyVerify (L.getWordByIndex found.first)
  if bufLen ≤ out.length + word.length then return none
  let out ← put bufLen out word
  let out ← put bufLen out [separator]
  return some out

/-- The loop of `expand_words`, which ends behind the last piece, or with the buffer full. -/
def expandTokens (bufLen : ℕ) (out : Bytes) : List Bytes → Except Fault (Option Bytes)
  | [] => .ok (some out)
  | [token] => expandToken L bufLen out token 0
  | token :: tokens => do
      match ← expandToken L bufLen out token 0x20 with
      | none => pure none
      | some out => if out.length < bufLen then expandTokens bufLen out tokens else pure none

/-- `expand_words`: what is written to the buffer, for a text of printable characters. -/
def expandWords (bytes : Bytes) (bufLen : ℕ) : Except Fault (Option Bytes) :=
  if !(Bytes.cstr bytes).all isPrint then .ok none
  else if (Bytes.cstr bytes).isEmpty then .ok (some [])
  else expandTokens L bufLen [] (wordTokens bytes)

end Search

/-! ### What a prefix stands for -/

/-- The word is the text, or the only one that begins with it. -/
def WordList.Expands (L : WordList) (text : Bytes) (index : ℕ) : Prop :=
  index < BIP39_WORDLIST_LEN ∧ text <+: L.word index ∧
    (L.word index = text ∨ ∀ j < BIP39_WORDLIST_LEN, text <+: L.word j → j = index)

/-- The words at some indices, with a space between any two. -/
def WordList.phrase (L : WordList) (indices : List ℕ) : Bytes :=
  [0x20].intercalate (indices.map L.word)

/-! ### Comparing a word with a prefix -/

section Compare

variable {s s' t : Bytes}

/-- The first bytes decide, unless they are the same. -/
theorem strncmp_cons {a : UInt8} (b : UInt8) (s t : Bytes) (ha : a ≠ 0) :
    (a < b ∧ strncmp (a :: s) (b :: t) = .lt) ∨ (b < a ∧ strncmp (a :: s) (b :: t) = .gt) ∨
      (a = b ∧ strncmp (a :: s) (b :: t) = strncmp s t) := by
  rw [strncmp]
  by_cases hlt : a < b
  · exact .inl ⟨hlt, if_pos hlt⟩
  · by_cases hgt : b < a
    · exact .inr (.inl ⟨hgt, by rw [if_neg hlt, if_pos hgt]⟩)
    · have heq : a = b := UInt8.le_antisymm (UInt8.not_lt.1 hgt) (UInt8.not_lt.1 hlt)
      exact .inr (.inr ⟨heq, by rw [if_neg hlt, if_neg hgt, if_neg ha]⟩)

theorem ne_zero_of_notMem {a : UInt8} (h : 0 ∉ a :: s) : a ≠ 0 ∧ 0 ∉ s := by
  rw [List.mem_cons, not_or] at h
  exact ⟨Ne.symm h.1, h.2⟩

/-- A text compares equal with its prefixes. -/
theorem strncmp_of_prefix (ht : 0 ∉ t) (h : t <+: s) : strncmp s t = .eq := by
  induction t generalizing s with
  | nil => rw [strncmp]
  | cons b t ih =>
      obtain ⟨rest, rfl⟩ := h
      obtain ⟨hb, ht⟩ := ne_zero_of_notMem ht
      rcases strncmp_cons b (t ++ rest) t hb with ⟨hlt, -⟩ | ⟨hlt, -⟩ | ⟨-, heq⟩
      · exact absurd hlt (UInt8.lt_irrefl _)
      · exact absurd hlt (UInt8.lt_irrefl _)
      · exact heq.trans (ih ht (List.prefix_append t rest))

/-- What compares equal begins with the other text, up to its terminator, and goes no further when
there is one. -/
theorem prefix_of_strncmp (hs : 0 ∉ s) (h : strncmp s t = .eq) :
    Bytes.cstr t <+: s ∧ (0 ∈ t → s = Bytes.cstr t) := by
  induction t generalizing s with
  | nil => exact ⟨List.nil_prefix, fun hmem => absurd hmem List.not_mem_nil⟩
  | cons b t ih =>
      cases s with
      | nil =>
          rw [strncmp] at h
          split at h
          · next hb => simp [Bytes.cstr, hb]
          · cases h
      | cons a s =>
          obtain ⟨ha, hs⟩ := ne_zero_of_notMem hs
          rcases strncmp_cons b s t ha with ⟨-, hcmp⟩ | ⟨-, hcmp⟩ | ⟨rfl, hcmp⟩
          · cases hcmp.symm.trans h
          · cases hcmp.symm.trans h
          · obtain ⟨hfront, hall⟩ := ih hs (hcmp.symm.trans h)
            have hcstr : Bytes.cstr (a :: t) = a :: Bytes.cstr t := by simp [Bytes.cstr, ha]
            rw [hcstr]
            refine ⟨List.cons_prefix_cons.2 ⟨rfl, hfront⟩, fun hmem => ?_⟩
            rw [hall ((List.mem_cons.1 hmem).resolve_left (Ne.symm ha))]

/-- Of two words in order, the second is greater than a text when the first is, and the first is
smaller when the second is. -/
theorem strncmp_mono (hs : 0 ∉ s) (hs' : 0 ∉ s') (hlt : s < s') :
    (strncmp s t = .gt → strncmp s' t = .gt) ∧ (strncmp s' t = .lt → strncmp s t = .lt) := by
  induction t generalizing s s' with
  | nil => simp [strncmp]
  | cons b t ih =>
      cases s' with
      | nil => exact absurd hlt (List.not_lt_nil s)
      | cons a' s' =>
          obtain ⟨ha', htail'⟩ := ne_zero_of_notMem hs'
          have hcmp' := strncmp_cons b s' t ha'
          cases s with
          | nil =>
              -- the empty text is the smallest
              have hpos : 0 < a' := UInt8.pos_iff_ne_zero.2 ha'
              have hnil : strncmp [] (b :: t) = if b = 0 then .eq else .lt := by rw [strncmp]
              rw [hnil]
              by_cases hb : b = 0
              · subst hb
                rcases hcmp' with ⟨hlt, -⟩ | ⟨-, hcmp'⟩ | ⟨rfl, -⟩
                · exact absurd hlt (UInt8.not_lt.2 UInt8.zero_le)
                · simp [hcmp']
                · exact absurd rfl ha'
              · simp [hb]
          | cons a s =>
              obtain ⟨ha, htail⟩ := ne_zero_of_notMem hs
              have hcmp := strncmp_cons b s t ha
              rcases List.cons_lt_cons_iff.1 hlt with hlt | ⟨rfl, hltail⟩
              · constructor
                · intro h
                  have hle : b ≤ a := by
                    rcases hcmp with ⟨-, hcmp⟩ | ⟨hle, -⟩ | ⟨rfl, -⟩
                    · cases hcmp.symm.trans h
                    · exact UInt8.le_of_lt hle
                    · exact UInt8.le_refl _
                  have hb : b < a' := UInt8.lt_of_le_of_lt hle hlt
                  rcases hcmp' with ⟨hlt', -⟩ | ⟨-, hcmp'⟩ | ⟨rfl, -⟩
                  · exact absurd hlt' (UInt8.lt_asymm hb)
                  · exact hcmp'
                  · exact absurd hb (UInt8.lt_irrefl _)
                · intro h
                  have hle : a' ≤ b := by
                    rcases hcmp' with ⟨hle, -⟩ | ⟨-, hcmp'⟩ | ⟨rfl, -⟩
                    · exact UInt8.le_of_lt hle
                    · cases hcmp'.symm.trans h
                    · exact UInt8.le_refl _
                  have hb : a < b := UInt8.lt_of_lt_of_le hlt hle
                  rcases hcmp with ⟨-, hcmp⟩ | ⟨hlt', -⟩ | ⟨rfl, -⟩
                  · exact hcmp
                  · exact absurd hlt' (UInt8.lt_asymm hb)
                  · exact absurd hb (UInt8.lt_irrefl _)
              · have hsame : ∀ u, strncmp (a :: u) (b :: t) =
                    if a < b then .lt else if b < a then .gt else strncmp u t := by
                  intro u
                  rw [strncmp, if_neg ha]
                rw [hsame, hsame]
                by_cases hab : a < b
                · simp [hab]
                · by_cases hba : b < a
                  · simp [hab, hba]
                  · simpa only [if_neg hab, if_neg hba] using ih htail htail' hltail

end Compare

/-! ### The search finds every word there is -/

section Spec

variable {L : WordList}

theorem WordList.Lawful.zero_notMem (hL : L.Lawful) {i : ℕ} (hi : i < BIP39_WORDLIST_LEN) :
    0 ∉ L.word i := by
  intro h
  exact absurd (hL.letters hi 0 h).1 (by decide)

theorem WordList.Lawful.monotone (hL : L.Lawful) (w : Bytes) :
    Scan.Monotone (fun i => strncmp (L.word i) w) (List.range BIP39_WORDLIST_LEN) := by
  refine List.Pairwise.imp_of_mem ?_ List.pairwise_lt_range
  intro i j hi hj hij
  exact strncmp_mono (hL.zero_notMem (List.mem_range.1 hi)) (hL.zero_notMem (List.mem_range.1 hj))
    (hL.sorted hij (List.mem_range.1 hj))

/-- Where a word that begins with the text ends with it, the word comes first among all that begin
with the text. -/
theorem WordList.Lawful.le_of_endsAt (hL : L.Lawful) {w : Bytes} {i j : ℕ}
    (hi : i < BIP39_WORDLIST_LEN) (hj : j < BIP39_WORDLIST_LEN)
    (hwi : strncmp (L.word i) w = .eq) (hwj : strncmp (L.word j) w = .eq)
    (hends : L.endsAt i w.length = true) : i ≤ j := by
  by_contra hlt
  have hsorted := hL.sorted (Nat.lt_of_not_le hlt) hi
  obtain ⟨hfront, hall⟩ := prefix_of_strncmp (hL.zero_notMem hi) hwi
  obtain ⟨hfront', hall'⟩ := prefix_of_strncmp (hL.zero_notMem hj) hwj
  by_cases hzero : 0 ∈ w
  · rw [hall hzero, hall' hzero] at hsorted
    exact List.lt_irrefl _ hsorted
  · have hcstr : Bytes.cstr w = w := cstr_eq_self hzero
    rw [hcstr] at hfront hfront'
    have hlen : (L.word i).length ≤ w.length := by
      by_contra h
      rw [WordList.endsAt, if_pos (Nat.lt_of_not_le h)] at hends
      cases hends
    obtain rfl : w = L.word i := hfront.eq_of_length_le hlen
    exact absurd hsorted (List.not_lt.2 hfront'.le)

/-- What the search knows when it has seen the words at these indices. -/
structure Matches.Of (L : WordList) (w : Bytes) (found : Matches) (seen : List ℕ) : Prop where
  number : found.number = seen.length
  first : found.first = seen.headD 0
  exactMatch : found.exactMatch = true ↔ ∃ i ∈ seen, L.endsAt i w.length = true

theorem validWordsFrom_eq (w : Bytes) (indices : List ℕ) (found : Matches) :
    validWordsFrom L w indices found =
      (Scan.scan (fun i => strncmp (L.word i) w) indices).foldlM
        (fun found index => found.add L index w) found := by
  induction indices generalizing found with
  | nil => rfl
  | cons index indices ih =>
      rw [validWordsFrom, Scan.scan]
      cases strncmp (L.word index) w with
      | lt => exact ih found
      | gt => rfl
      | eq => exact bind_congr fun found => ih found

/-- A word that begins with the text is added to what has been seen. -/
theorem Matches.Of.add {w : Bytes} {found : Matches} {seen : List ℕ} (h : found.Of L w seen)
    {index : ℕ} (hfirst : L.endsAt index w.length = true → seen = []) :
    ∃ found', found.add L index w = .ok found' ∧ found'.Of L w (seen ++ [index]) := by
  rw [Matches.add]
  cases hends : L.endsAt index w.length with
  | true =>
      obtain rfl := hfirst hends
      have hnone : found.exactMatch = false := by
        rw [Bool.eq_false_iff]
        intro hexact
        obtain ⟨i, hi, -⟩ := h.exactMatch.1 hexact
        exact absurd hi List.not_mem_nil
      refine ⟨{ number := 1, first := index, exactMatch := true }, ?_, rfl, rfl, ?_⟩
      · simp [jadeVerify, h.number, hnone]
        rfl
      · simp [hends]
  | false =>
      refine ⟨_, rfl, ?_, ?_, ?_⟩
      · simp [h.number]
      · cases seen with
        | nil => simp [h.number]
        | cons i seen => simp [h.number, h.first]
      · simp [h.exactMatch, hends]

/-- The words that begin with the text, in the order of the list. -/
def WordList.matching (L : WordList) (w : Bytes) : List ℕ :=
  (List.range BIP39_WORDLIST_LEN).filter fun i => strncmp (L.word i) w == .eq

theorem WordList.mem_matching {w : Bytes} {i : ℕ} :
    i ∈ L.matching w ↔ i < BIP39_WORDLIST_LEN ∧ strncmp (L.word i) w = .eq := by
  simp [WordList.matching]

/-- The search does not fail, and finds all words that begin with the text. -/
theorem validWords_spec (hL : L.Lawful) {w : Bytes} (hw : w ≠ []) :
    ∃ found, validWords L w = .ok found ∧ found.Of L w (L.matching w) := by
  have hfold : ∀ (rest seen : List ℕ) (found : Matches), seen ++ rest = L.matching w →
      found.Of L w seen →
      ∃ found', rest.foldlM (fun found index => found.add L index w) found = .ok found' ∧
        found'.Of L w (L.matching w) := by
    intro rest
    induction rest with
    | nil =>
        intro seen found hall hof
        rw [List.append_nil] at hall
        exact ⟨found, rfl, hall ▸ hof⟩
    | cons index rest ih =>
        intro seen found hall hof
        have hsorted : (seen ++ index :: rest).Pairwise (· < ·) := by
          rw [hall]
          exact List.pairwise_lt_range.filter _
        have hmatch : ∀ i ∈ seen ++ index :: rest,
            i < BIP39_WORDLIST_LEN ∧ strncmp (L.word i) w = .eq := by
          intro i hi
          rw [hall] at hi
          exact WordList.mem_matching.1 hi
        have hfirst : L.endsAt index w.length = true → seen = [] := by
          intro hends
          rw [List.eq_nil_iff_forall_not_mem]
          intro i hi
          have hlt := (List.pairwise_append.1 hsorted).2.2 i hi index List.mem_cons_self
          have hindex := hmatch index (List.mem_append_right _ List.mem_cons_self)
          have hi := hmatch i (List.mem_append_left _ hi)
          exact absurd hlt (Nat.not_lt.2 (hL.le_of_endsAt hindex.1 hi.1 hindex.2 hi.2 hends))
        obtain ⟨found', hadd, hof'⟩ := hof.add hfirst
        obtain ⟨found'', hrest, hof''⟩ := ih (seen ++ [index]) found' (by simpa using hall) hof'
        exact ⟨found'', bind_eq_ok.2 ⟨found', hadd, hrest⟩, hof''⟩
  obtain ⟨found, hfound, hof⟩ := hfold (L.matching w) [] {} (List.nil_append _) ⟨rfl, rfl, by simp⟩
  refine ⟨found, ?_, hof⟩
  rw [validWords, if_neg (by simpa using hw), validWordsFrom_eq,
    Scan.scan_eq_filter (hL.monotone w)]
  exact hfound

/-- A word that ends with the text is the first that is found. -/
theorem WordList.Lawful.headD_matching (hL : L.Lawful) {w : Bytes} {i : ℕ}
    (hi : i ∈ L.matching w) (hends : L.endsAt i w.length = true) : (L.matching w).headD 0 = i := by
  have hsorted : (L.matching w).Pairwise (· < ·) := List.pairwise_lt_range.filter _
  have hi' := WordList.mem_matching.1 hi
  cases hall : L.matching w with
  | nil =>
      rw [hall] at hi
      exact absurd hi List.not_mem_nil
  | cons j rest =>
      have hj : j < BIP39_WORDLIST_LEN ∧ strncmp (L.word j) w = .eq := by
        rw [← WordList.mem_matching, hall]
        exact List.mem_cons_self
      rw [hall] at hi hsorted
      rcases List.mem_cons.1 hi with rfl | hrest
      · rfl
      · have hlt := (List.pairwise_cons.1 hsorted).1 i hrest
        exact absurd hlt (Nat.not_lt.2 (hL.le_of_endsAt hi'.1 hj.1 hi'.2 hj.2 hends))

/-- What the search settles on is what the text stands for. -/
theorem Matches.Of.expands (hL : L.Lawful) {w : Bytes} {found : Matches}
    (h : found.Of L w (L.matching w)) (hone : found.number = 1 ∨ found.exactMatch = true) :
    L.Expands (Bytes.cstr w) found.first := by
  -- the word that is found, and that there is no other when it does not end with the text
  have hword : found.first ∈ L.matching w ∧ (L.endsAt found.first w.length = true ∨
      ∀ j ∈ L.matching w, j = found.first) := by
    rcases hone with hone | hexact
    · obtain ⟨i, hall⟩ := List.length_eq_one_iff.1 (h.number.symm.trans hone)
      have hfirst : found.first = i := by rw [h.first, hall, List.headD_cons]
      rw [hall, hfirst]
      exact ⟨List.mem_singleton_self i, .inr fun j hj => List.mem_singleton.1 hj⟩
    · obtain ⟨i, hi, hends⟩ := h.exactMatch.1 hexact
      have hfirst : found.first = i := h.first.trans (hL.headD_matching hi hends)
      rw [hfirst]
      exact ⟨hi, .inl hends⟩
  obtain ⟨hmem, hor⟩ := hword
  obtain ⟨hlt, hcmp⟩ := WordList.mem_matching.1 hmem
  obtain ⟨hfront, hall⟩ := prefix_of_strncmp (hL.zero_notMem hlt) hcmp
  refine ⟨hlt, hfront, ?_⟩
  by_cases hzero : 0 ∈ w
  · exact .inl (hall hzero)
  · rw [cstr_eq_self hzero] at hfront ⊢
    rcases hor with hends | hunique
    · left
      refine (hfront.eq_of_length_le ?_).symm
      by_contra hlen
      rw [WordList.endsAt, if_pos (Nat.lt_of_not_le hlen)] at hends
      cases hends
    · right
      intro j hj hpre
      exact hunique j (WordList.mem_matching.2 ⟨hj, strncmp_of_prefix hzero hpre⟩)

/-! ### Expanding a text -/

theorem wordTokens_ne_nil (bs : Bytes) : wordTokens bs ≠ [] := by
  induction bs with
  | nil => simp [wordTokens]
  | cons c cs ih =>
      rw [wordTokens]
      split_ifs <;> simp [ih]

/-- The pieces are those of the C string. -/
theorem map_cstr_wordTokens (bs : Bytes) :
    (wordTokens bs).map Bytes.cstr = (Bytes.cstr bs).splitOn 0x20 := by
  induction bs with
  | nil => rfl
  | cons c cs ih =>
      rw [wordTokens]
      by_cases hzero : c = 0
      · simp [hzero, Bytes.cstr]
      · have hcstr : ∀ bs, Bytes.cstr (c :: bs) = c :: Bytes.cstr bs := by
          intro bs
          simp [Bytes.cstr, hzero]
        rw [if_neg hzero, hcstr, List.splitOn_cons_eq_if_modifyHead]
        by_cases hspace : c = 0x20
        · simp [hspace, ih, Bytes.cstr]
        · rw [if_neg hspace, if_neg (by simpa using hspace), ← ih]
          cases wordTokens cs with
          | nil => rfl
          | cons token tokens => simp [hcstr]

theorem wordTokens_eq_splitOn {bs : Bytes} (h : 0 ∉ bs) : wordTokens bs = bs.splitOn 0x20 := by
  induction bs with
  | nil => rfl
  | cons c cs ih =>
      obtain ⟨hzero, hcs⟩ := ne_zero_of_notMem h
      rw [wordTokens, if_neg hzero, List.splitOn_cons_eq_if_modifyHead, ih hcs]
      simp

/-- A piece is turned away, or expanded to what it stands for. -/
theorem expandToken_spec (hL : L.Lawful) (bufLen : ℕ) (out token : Bytes) (separator : UInt8) :
    expandToken L bufLen out token separator = .ok none ∨
      ∃ index, L.Expands (Bytes.cstr token) index ∧
        expandToken L bufLen out token separator =
          .ok (some (out ++ L.word index ++ [separator])) ∧
        (out ++ L.word index ++ [separator]).length ≤ bufLen := by
  rw [expandToken]
  by_cases hempty : token = []
  · left
    subst hempty
    rfl
  · obtain ⟨found, hfound, hof⟩ := validWords_spec hL hempty
    rw [hfound, ok_bind]
    by_cases hnone : found.number ≠ 1 ∧ found.exactMatch = false
    · rw [if_pos hnone]
      exact .inl rfl
    · have hone : found.number = 1 ∨ found.exactMatch = true := by
        by_contra h
        rw [not_or] at h
        exact hnone ⟨h.1, Bool.eq_false_iff.2 h.2⟩
      have hexpands := hof.expands hL hone
      rw [if_neg hnone, WordList.getWordByIndex, if_pos hexpands.1]
      simp only [wallyVerify, ok_bind]
      by_cases hlong : bufLen ≤ out.length + (L.word found.first).length
      · rw [if_pos hlong]
        exact .inl rfl
      · refine .inr ⟨found.first, hexpands, ?_, ?_⟩
        · rw [if_neg hlong, put_eq_ok (by omega), ok_bind, put_eq_ok (by simp; omega)]
          rfl
        · simp only [List.length_append, List.length_singleton]
          omega

/-- The loop ends with all pieces expanded, or the text is turned away. -/
theorem expandTokens_spec (hL : L.Lawful) (bufLen : ℕ) {tokens : List Bytes} (hne : tokens ≠ [])
    (out : Bytes) :
    ∃ result, expandTokens L bufLen out tokens = .ok result ∧ ∀ out', result = some out' →
      ∃ indices,
        List.Forall₂ (fun token index => L.Expands (Bytes.cstr token) index) tokens indices ∧
        out' = out ++ L.phrase indices ++ [0] ∧ out'.length ≤ bufLen := by
  induction tokens generalizing out with
  | nil => exact absurd rfl hne
  | cons token tokens ih =>
      cases tokens with
      | nil =>
          rw [expandTokens]
          rcases expandToken_spec hL bufLen out token 0 with h | ⟨index, hexpands, h, hlen⟩
          · exact ⟨none, h, by simp⟩
          · refine ⟨_, h, ?_⟩
            intro out' hout
            obtain rfl := Option.some.inj hout
            refine ⟨[index], .cons hexpands .nil, ?_, hlen⟩
            simp [WordList.phrase]
      | cons token' tokens =>
          rw [expandTokens]
          · rcases expandToken_spec hL bufLen out token 0x20 with
              h | ⟨index, hexpands, h, -⟩
            · rw [h]
              exact ⟨none, rfl, by simp⟩
            · rw [h, ok_bind]
              dsimp only
              split
              · obtain ⟨result, hrest, hspec⟩ := ih (by simp) (out ++ L.word index ++ [0x20])
                refine ⟨result, hrest, ?_⟩
                intro out' hout
                obtain ⟨indices, hall, rfl, hlen⟩ := hspec out' hout
                refine ⟨index :: indices, .cons hexpands hall, ?_, hlen⟩
                cases indices with
                | nil => cases hall
                | cons i indices => simp [WordList.phrase]
              · exact ⟨none, rfl, by simp⟩
          · simp

/-- **A text is expanded to the words its prefixes stand for**, or turned away; of an empty text
nothing is written. -/
theorem expandWords_spec (hL : L.Lawful) (bytes : Bytes) (bufLen : ℕ) :
    ∃ result, expandWords L bytes bufLen = .ok result ∧ ∀ out, result = some out →
      (Bytes.cstr bytes = [] ∧ out = []) ∨
        ∃ indices, List.Forall₂ L.Expands ((Bytes.cstr bytes).splitOn 0x20) indices ∧
          out = L.phrase indices ++ [0] ∧ out.length ≤ bufLen := by
  rw [expandWords]
  split
  · exact ⟨none, rfl, by simp⟩
  · split
    · next hempty =>
        refine ⟨some [], rfl, ?_⟩
        intro out hout
        exact .inl ⟨List.isEmpty_iff.1 hempty, (Option.some.inj hout).symm⟩
    · obtain ⟨result, hrun, hspec⟩ :=
        expandTokens_spec hL bufLen (wordTokens_ne_nil bytes) []
      refine ⟨result, hrun, ?_⟩
      intro out hout
      obtain ⟨indices, hall, hphrase, hlen⟩ := hspec out hout
      refine .inr ⟨indices, ?_, hphrase, hlen⟩
      rw [← map_cstr_wordTokens, List.forall₂_map_left_iff]
      exact hall

/-- The letters of a phrase. -/
theorem WordList.Lawful.mem_phrase (hL : L.Lawful) {indices : List ℕ}
    (hall : ∀ i ∈ indices, i < BIP39_WORDLIST_LEN) {c : UInt8} (hc : c ∈ L.phrase indices) :
    c = 0x20 ∨ (0x61 ≤ c ∧ c ≤ 0x7a) := by
  rcases mem_of_mem_intercalate hc with rfl | ⟨word, hword, hc⟩
  · exact .inl rfl
  · obtain ⟨i, hi, rfl⟩ := List.mem_map.1 hword
    exact .inr (hL.letters (hall i hi) c hc)

end Spec

end Jade
