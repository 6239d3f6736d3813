/-
**Which texts are expanded (`process/mnemonic.c`).**

A text without a terminator inside is expanded just when each of its pieces stands for a word and
the words have room with a terminator behind them. What is written is expanded to itself, and a byte
is looked at in a word only as far as its terminator.

Main results:

* `Jade.validWords_of_expands` — what a piece stands for is what the search settles on;
* `Jade.expandTokens_of_expands` — pieces that stand for words are expanded when there is room;
* `Jade.expandWords_exact` — **exactly the texts of words and their prefixes are expanded**.
-/

import Jade.Mnemonic.Words

set_option relaxedAutoImplicit false
set_option autoImplicit false

namespace Jade

open Exec

/-! ### Pieces that stand for words -/

section Expansion

variable {L : WordList}

/-- A piece that is not there stands for no word: every word begins with it. -/
theorem WordList.Lawful.ne_nil_of_expands (hL : L.Lawful) {text : Bytes} {index : ℕ}
    (h : L.Expands text index) : text ≠ [] := by
  rintro rfl
  obtain ⟨hlt, -, hword | hunique⟩ := h
  · have hlen := (hL.length hlt).1
    rw [hword] at hlen
    exact absurd hlen (by decide)
  · have h0 := hunique 0 (by decide) List.nil_prefix
    have h1 := hunique 1 (by decide) List.nil_prefix
    omega

/-- A word stands for itself. -/
theorem WordList.expands_word {i : ℕ} (hi : i < BIP39_WORDLIST_LEN) : L.Expands (L.word i) i :=
  ⟨hi, List.prefix_refl _, .inl rfl⟩

/-- The word that a piece stands for is the one the search settles on. -/
theorem validWords_of_expands (hL : L.Lawful) {w : Bytes} (hzero : 0 ∉ w) {i : ℕ}
    (h : L.Expands w i) :
    ∃ found, validWords L w = .ok found ∧ (found.number = 1 ∨ found.exactMatch = true) ∧
      found.first = i := by
  obtain ⟨found, hfound, hof⟩ := validWords_spec hL (hL.ne_nil_of_expands h)
  obtain ⟨hlt, hfront, hone⟩ := h
  have hmem : i ∈ L.matching w := WordList.mem_matching.2 ⟨hlt, strncmp_of_prefix hzero hfront⟩
  refine ⟨found, hfound, ?_⟩
  rcases hone with rfl | hunique
  · have hends : L.endsAt i (L.word i).length = true := by simp [WordList.endsAt]
    exact ⟨.inr (hof.exactMatch.2 ⟨i, hmem, hends⟩), hof.first.trans (hL.headD_matching hmem hends)⟩
  · have hall : ∀ j ∈ L.matching w, j = i := by
      intro j hj
      obtain ⟨hjlt, hcmp⟩ := WordList.mem_matching.1 hj
      have hpre := (prefix_of_strncmp (hL.zero_notMem hjlt) hcmp).1
      rw [cstr_eq_self hzero] at hpre
      exact hunique j hjlt hpre
    have hnodup : (L.matching w).Nodup := List.nodup_range.filter _
    have hlist : L.matching w = [i] := List.perm_singleton.1
      ((List.perm_ext_iff_of_nodup hnodup (List.nodup_singleton i)).2 fun j =>
        ⟨fun hj => List.mem_singleton.2 (hall j hj), fun hj => List.mem_singleton.1 hj ▸ hmem⟩)
    refine ⟨.inl ?_, ?_⟩
    · rw [hof.number, hlist, List.length_singleton]
    · rw [hof.first, hlist, List.headD_cons]

/-- A piece that stands for a word is expanded when there is room. -/
theorem expandToken_of_expands (hL : L.Lawful) {bufLen : ℕ} {out token : Bytes} (hzero : 0 ∉ token)
    {i : ℕ} (h : L.Expands token i) (separator : UInt8)
    (hroom : out.length + (L.word i).length < bufLen) :
    expandToken L bufLen out token separator =
      .ok (some (out ++ L.word i ++ [separator])) := by
  obtain ⟨found, hfound, hone, rfl⟩ := validWords_of_expands hL hzero h
  have hnot : ¬(found.number ≠ 1 ∧ found.exactMatch = false) := by
    rintro ⟨hnumber, hexact⟩
    rcases hone with hone | hone
    · exact hnumber hone
    · rw [hexact] at hone
      cases hone
  rw [expandToken, hfound, ok_bind, if_neg hnot, WordList.getWordByIndex, if_pos h.1]
  simp only [wallyVerify, ok_bind]
  rw [if_neg (by omega), put_eq_ok (Nat.le_of_lt hroom), ok_bind, put_eq_ok]
  · rfl
  · rw [List.length_append, List.length_singleton]
    exact hroom

/-- Pieces that stand for words are expanded when there is room for all of them and a terminator. -/
theorem expandTokens_of_expands (hL : L.Lawful) {bufLen : ℕ} {tokens : List Bytes}
    {indices : List ℕ} (h : List.Forall₂ L.Expands tokens indices) (hne : tokens ≠ [])
    (hzero : ∀ token ∈ tokens, 0 ∉ token) (out : Bytes)
    (hroom : out.length + (L.phrase indices).length < bufLen) :
    expandTokens L bufLen out tokens = .ok (some (out ++ L.phrase indices ++ [0])) := by
  induction h generalizing out with
  | nil => exact absurd rfl hne
  | @cons token index tokens indices hexpands hrest ih =>
      obtain ⟨htoken, htokens⟩ := List.forall_mem_cons.1 hzero
      cases hrest with
      | nil =>
          have hphrase : L.phrase [index] = L.word index := by simp [WordList.phrase]
          rw [hphrase] at hroom ⊢
          exact expandToken_of_expands hL htoken hexpands 0 hroom
      | @cons token' index' tokens indices hexpands' hrest =>
          have hphrase : L.phrase (index :: index' :: indices) =
              L.word index ++ [0x20] ++ L.phrase (index' :: indices) := by simp [WordList.phrase]
          rw [hphrase] at hroom ⊢
          simp only [List.length_append, List.length_singleton] at hroom
          rw [expandTokens, expandToken_of_expands hL htoken hexpands 0x20 (by omega), ok_bind]
          · dsimp only
            rw [if_pos (by simp only [List.length_append, List.length_singleton]; omega),
              ih (by simp) htokens (out ++ L.word index ++ [0x20])
                (by simp only [List.length_append, List.length_singleton]; omega)]
            simp
          · simp

/-- What stands on one side has something on the other side. -/
theorem exists_of_mem_left {α β : Type} {R : α → β → Prop} {as : List α} {bs : List β}
    (h : List.Forall₂ R as bs) {a : α} (ha : a ∈ as) : ∃ b, R a b := by
  induction h with
  | nil => exact absurd ha List.not_mem_nil
  | cons hab _ ih =>
      rcases List.mem_cons.1 ha with rfl | ha
      · exact ⟨_, hab⟩
      · exact ih ha

/-- The words at some indices are the pieces of their phrase. -/
theorem splitOn_phrase (hL : L.Lawful) {indices : List ℕ} (hne : indices ≠ [])
    (hall : ∀ i ∈ indices, i < BIP39_WORDLIST_LEN) :
    (L.phrase indices).splitOn 0x20 = indices.map L.word := by
  refine List.splitOn_intercalate _ ?_ (by simpa using hne)
  intro w hw hmem
  obtain ⟨i, hi, rfl⟩ := List.mem_map.1 hw
  exact absurd (hL.letters (hall i hi) _ hmem).1 (by decide)

theorem WordList.Lawful.zero_notMem_phrase (hL : L.Lawful) {indices : List ℕ}
    (hall : ∀ i ∈ indices, i < BIP39_WORDLIST_LEN) : 0 ∉ L.phrase indices := by
  intro h
  rcases hL.mem_phrase hall h with h | ⟨h, -⟩
  · exact absurd h (by decide)
  · exact absurd h (by decide)

/-- A text whose pieces stand for words is expanded when there is room. -/
theorem expandWords_of_expands (hL : L.Lawful) {bufLen : ℕ} {text : Bytes} (hne : text ≠ [])
    (hzero : 0 ∉ text) {indices : List ℕ}
    (hall : List.Forall₂ L.Expands (text.splitOn 0x20) indices)
    (hroom : (L.phrase indices).length < bufLen) :
    expandWords L text bufLen = .ok (some (L.phrase indices ++ [0])) := by
  -- a piece is made of letters
  have hpiece : ∀ piece ∈ text.splitOn 0x20, ∀ c ∈ piece, 0x61 ≤ c ∧ c ≤ 0x7a := by
    intro piece hpiece c hc
    obtain ⟨i, hi⟩ := exists_of_mem_left hall hpiece
    exact hL.letters hi.1 c (hi.2.1.subset hc)
  have hprint : text.all isPrint = true := by
    rw [List.all_eq_true]
    intro c hc
    have hjoin : [0x20].intercalate (text.splitOn 0x20) = text := List.intercalate_splitOn 0x20
    rw [← hjoin] at hc
    rw [isPrint, Bool.and_eq_true, decide_eq_true_iff, decide_eq_true_iff]
    rcases mem_of_mem_intercalate hc with rfl | ⟨piece, hmem, hc⟩
    · decide
    · obtain ⟨hlow, hhigh⟩ := hpiece piece hmem c hc
      exact ⟨UInt8.le_trans (by decide) hlow, UInt8.le_trans hhigh (by decide)⟩
  have htokens : ∀ token ∈ text.splitOn 0x20, 0 ∉ token := by
    intro token htoken h
    exact hzero (mem_of_mem_splitOn htoken h)
  rw [expandWords, cstr_eq_self hzero, hprint, if_neg (by simp), if_neg (by simpa using hne),
    wordTokens_eq_splitOn hzero,
    expandTokens_of_expands hL hall (List.splitOn_ne_nil _ _) htokens [] (by simpa using hroom)]
  rfl

/-- Words are expanded to themselves. -/
theorem expandWords_words (hL : L.Lawful) {bufLen : ℕ} {indices : List ℕ} (hne : indices ≠ [])
    (hall : ∀ i ∈ indices, i < BIP39_WORDLIST_LEN) (hlen : (L.phrase indices).length < bufLen) :
    expandWords L (L.phrase indices) bufLen = .ok (some (L.phrase indices ++ [0])) := by
  have hsplit := splitOn_phrase hL hne hall
  have hphrase : L.phrase indices ≠ [] := by
    intro h
    rw [h] at hsplit
    cases indices with
    | nil => exact hne rfl
    | cons i indices =>
        have hw : [] = L.word i := (List.cons.inj hsplit).1
        have hlen := (hL.length (hall i List.mem_cons_self)).1
        rw [← hw] at hlen
        exact absurd hlen (by decide)
  refine expandWords_of_expands hL hphrase (hL.zero_notMem_phrase hall) ?_ hlen
  rw [hsplit, List.forall₂_map_left_iff, List.forall₂_same]
  exact fun i hi => WordList.expands_word (hall i hi)

end Expansion

/-! ### A word list to evaluate with -/

/-- The first words of the list. -/
def firstWords : List Bytes := [ascii "abandon", ascii "ability", ascii "able", ascii "about"]

/-- The words behind the first ones are four letters each. -/
def toyWord (i : ℕ) : Bytes :=
  if i < 4 then firstWords.getD i []
  else [0x62, 0x61 + UInt8.ofNat (i / 26 / 26), 0x61 + UInt8.ofNat (i / 26 % 26),
    0x61 + UInt8.ofNat (i % 26)]

def toyWords : WordList where
  word := toyWord
  behind _ _ := 0

theorem small_letter {n : ℕ} (hn : n < 26) :
    0x61 ≤ 0x61 + UInt8.ofNat n ∧ 0x61 + UInt8.ofNat n ≤ 0x7a ∧
      (0x61 + UInt8.ofNat n).toNat = 0x61 + n := by
  have hall : ∀ n < 26, 0x61 ≤ 0x61 + UInt8.ofNat n ∧ 0x61 + UInt8.ofNat n ≤ 0x7a ∧
      (0x61 + UInt8.ofNat n).toNat = 0x61 + n := by decide
  exact hall n hn

theorem toyWords_lawful : toyWords.Lawful where
  sorted {i j} hij hj := by
    rw [BIP39_WORDLIST_LEN] at hj
    change toyWord i < toyWord j
    rw [toyWord, toyWord]
    by_cases hj4 : j < 4
    · rw [if_pos (by omega), if_pos hj4]
      have hall : ∀ j < 4, ∀ i < j, firstWords.getD i [] < firstWords.getD j [] := by decide
      exact hall j hj4 i hij
    · rw [if_neg hj4]
      by_cases hi4 : i < 4
      · rw [if_pos hi4]
        have hhead : ∀ i < 4, (firstWords.getD i []).head? = some 0x61 := by decide
        obtain ⟨cs, hcs⟩ := List.head?_eq_some_iff.1 (hhead i hi4)
        rw [hcs, List.cons_lt_cons_iff]
        exact .inl (by decide)
      · rw [if_neg hi4]
        obtain ⟨-, -, ha⟩ := small_letter (n := i / 26 / 26) (by omega)
        obtain ⟨-, -, hb⟩ := small_letter (n := i / 26 % 26) (by omega)
        obtain ⟨-, -, hc⟩ := small_letter (n := i % 26) (by omega)
        obtain ⟨-, -, ha'⟩ := small_letter (n := j / 26 / 26) (by omega)
        obtain ⟨-, -, hb'⟩ := small_letter (n := j / 26 % 26) (by omega)
        obtain ⟨-, -, hc'⟩ := small_letter (n := j % 26) (by omega)
        simp only [List.cons_lt_cons_iff, UInt8.lt_iff_toNat_lt, ← UInt8.toNat_inj, ha, hb, hc, ha',
          hb', hc', List.not_lt_nil, and_false, or_false, true_and]
        omega
  letters {i} hi c hc := by
    rw [BIP39_WORDLIST_LEN] at hi
    change c ∈ toyWord i at hc
    rw [toyWord] at hc
    by_cases hi4 : i < 4
    · rw [if_pos hi4] at hc
      have hall : ∀ i < 4, (firstWords.getD i []).all (fun c => 0x61 ≤ c && c ≤ 0x7a) = true := by
        decide
      have hletter := List.all_eq_true.1 (hall i hi4) c hc
      rw [Bool.and_eq_true, decide_eq_true_iff, decide_eq_true_iff] at hletter
      exact hletter
    · rw [if_neg hi4] at hc
      obtain ⟨ha, ha', -⟩ := small_letter (n := i / 26 / 26) (by omega)
      obtain ⟨hb, hb', -⟩ := small_letter (n := i / 26 % 26) (by omega)
      obtain ⟨hd, hd', -⟩ := small_letter (n := i % 26) (by omega)
      simp only [List.mem_cons, List.not_mem_nil, or_false] at hc
      rcases hc with rfl | rfl | rfl | rfl
      · decide
      · exact ⟨ha, ha'⟩
      · exact ⟨hb, hb'⟩
      · exact ⟨hd, hd'⟩
  length {i} _ := by
    change 3 ≤ (toyWord i).length ∧ (toyWord i).length ≤ 8
    rw [toyWord]
    by_cases hi4 : i < 4
    · rw [if_pos hi4]
      have hall : ∀ i < 4, 3 ≤ (firstWords.getD i []).length ∧
          (firstWords.getD i []).length ≤ 8 := by decide
      exact hall i hi4
    · rw [if_neg hi4]
      simp

/-! ### The result -/

/-- **Exactly the texts of words and their prefixes are expanded**, to the words with a space
between any two, when these have room: a text without a terminator inside is turned away otherwise.
What is written is expanded to itself, and no word is looked at behind its terminator. -/
theorem expandWords_exact {L : WordList} (hL : L.Lawful) {text : Bytes} (hne : text ≠ [])
    (hzero : 0 ∉ text) (bufLen : ℕ) :
    ∃ result, expandWords L text bufLen = .ok result ∧
      (result.isSome = true ↔ ∃ indices, List.Forall₂ L.Expands (text.splitOn 0x20) indices ∧
        (L.phrase indices).length + 1 ≤ bufLen) ∧
      (∀ out, result = some out → ∃ indices,
        List.Forall₂ L.Expands (text.splitOn 0x20) indices ∧ out = L.phrase indices ++ [0] ∧
          out.length ≤ bufLen ∧ expandWords L (L.phrase indices) bufLen = .ok (some out)) ∧
      ∀ token ∈ text.splitOn 0x20, ∀ i < BIP39_WORDLIST_LEN, strncmp (L.word i) token = .eq →
        token.length ≤ (L.word i).length := by
  obtain ⟨result, hrun, hspec⟩ := expandWords_spec hL text bufLen
  rw [cstr_eq_self hzero] at hspec
  refine ⟨result, hrun, ⟨?_, ?_⟩, ?_, ?_⟩
  · intro hsome
    obtain ⟨out, rfl⟩ := Option.isSome_iff_exists.1 hsome
    rcases hspec out rfl with ⟨hnil, -⟩ | ⟨indices, hall, rfl, hlen⟩
    · exact absurd hnil hne
    · exact ⟨indices, hall, by simpa using hlen⟩
  · rintro ⟨indices, hall, hlen⟩
    have hexpanded := expandWords_of_expands hL hne hzero hall hlen
    rw [Except.ok.inj (hrun.symm.trans hexpanded)]
    rfl
  · intro out hout
    rcases hspec out hout with ⟨hnil, -⟩ | ⟨indices, hall, rfl, hlen⟩
    · exact absurd hnil hne
    · refine ⟨indices, hall, rfl, hlen, expandWords_words hL ?_ ?_ ?_⟩
      · rintro rfl
        exact List.splitOn_ne_nil _ _ (List.forall₂_nil_right_iff.1 hall)
      · intro i hi
        obtain ⟨token, hexpands⟩ := exists_of_mem_left hall.flip hi
        exact hexpands.1
      · rw [List.length_append, List.length_singleton] at hlen
        exact Nat.lt_of_succ_le hlen
  · intro token htoken i hi hcmp
    have htoken0 : 0 ∉ token := fun h => hzero (mem_of_mem_splitOn htoken h)
    have hfront := (prefix_of_strncmp (hL.zero_notMem hi) hcmp).1
    rw [cstr_eq_self htoken0] at hfront
    exact hfront.length_le

/-- The words that begin with an `a` are the first four. -/
theorem lt_four_of_proper {text : Bytes} {j : ℕ} (htext : text.head? = some 0x61)
    (h : text <+: toyWords.word j) : j < 4 := by
  by_contra hj
  obtain ⟨cs, rfl⟩ := List.head?_eq_some_iff.1 htext
  obtain ⟨rest, hrest⟩ := h
  change (0x61 :: cs) ++ rest = toyWord j at hrest
  rw [toyWord, if_neg hj, List.cons_append] at hrest
  exact absurd (List.cons.inj hrest).1 (by decide)

/-- `aba` is the prefix of one word alone. -/
theorem toyWords_expands_aba : toyWords.Expands (ascii "aba") 0 := by
  have hfirst : ∀ j < 4, ascii "aba" <+: toyWords.word j → j = 0 := by decide
  exact ⟨by decide, by decide, .inr fun j _ h => hfirst j (lt_four_of_proper rfl h) h⟩

/-- Prefixes are expanded as well as words; a prefix of several words is turned away. -/
theorem expandWords_exact_prefixes :
    List.Forall₂ toyWords.Expands ((ascii "aba able abou").splitOn 0x20) [0, 2, 3] ∧
      (∃ result, expandWords toyWords (ascii "aba able abou") 256 = .ok result ∧
        result.isSome = true) ∧
      ∃ result, expandWords toyWords (ascii "able ab") 256 = .ok result ∧ result = none := by
  have habou : ∀ j < 4, ascii "abou" <+: toyWords.word j → j = 3 := by decide
  have hall : List.Forall₂ toyWords.Expands ((ascii "aba able abou").splitOn 0x20) [0, 2, 3] :=
    .cons toyWords_expands_aba <| .cons ⟨by decide, by decide, .inl rfl⟩ <|
      .cons ⟨by decide, by decide, .inr fun j _ h => habou j (lt_four_of_proper rfl h) h⟩ .nil
  have hne : ascii "aba able abou" ≠ [] ∧ ascii "able ab" ≠ [] := by decide
  obtain ⟨result, hrun, hiff, -⟩ := expandWords_exact toyWords_lawful hne.1 (by decide) 256
  refine ⟨hall, ⟨result, hrun, hiff.2 ⟨[0, 2, 3], hall, by decide⟩⟩, ?_⟩
  -- both "abandon" and "ability" begin like that
  obtain ⟨result', hrun', hiff', -⟩ := expandWords_exact toyWords_lawful hne.2 (by decide) 256
  refine ⟨result', hrun', Option.not_isSome_iff_eq_none.1 fun hsome => ?_⟩
  obtain ⟨indices, hexpands, -⟩ := hiff'.1 hsome
  have hmem : ascii "ab" ∈ (ascii "able ab").splitOn 0x20 := by decide
  obtain ⟨index, hindex, -, hword | honly⟩ := exists_of_mem_left hexpands hmem
  · have hlen := (toyWords_lawful.length hindex).1
    rw [hword] at hlen
    exact absurd hlen (by decide)
  · have h0 := honly 0 (by decide) (by decide)
    have h1 := honly 1 (by decide) (by decide)
    omega

/-- Thirty-three times the prefix of the first word. -/
def longText : Bytes := [0x20].intercalate (List.replicate 33 (ascii "aba"))

/-- A text is turned away when there is no room for its words in the buffer of a mnemonic; of an empty
text, whose only piece stands for no word, nothing is written. -/
theorem expandWords_not_exact :
    (List.Forall₂ toyWords.Expands (longText.splitOn 0x20) (List.replicate 33 0) ∧
      expandWords toyWords longText 256 = .ok none) ∧
    (¬∃ indices, List.Forall₂ toyWords.Expands (([] : Bytes).splitOn 0x20) indices) ∧
      expandWords toyWords [] 256 = .ok (some []) := by
  have hsplit : longText.splitOn 0x20 = List.replicate 33 (ascii "aba") := by decide +kernel
  refine ⟨⟨?_, by decide +kernel⟩, ?_, rfl⟩
  · rw [hsplit, List.forall₂_iff_get]
    refine ⟨rfl, fun i hi hi' => ?_⟩
    simp only [List.get_eq_getElem, List.getElem_replicate]
    exact toyWords_expands_aba
  · rintro ⟨indices, hall⟩
    rw [List.splitOn_nil] at hall
    obtain ⟨i, hi⟩ := exists_of_mem_left hall (List.mem_singleton_self [])
    exact toyWords_lawful.ne_nil_of_expands hi rfl

end Jade
