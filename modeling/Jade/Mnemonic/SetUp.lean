/-
**Setting up a wallet from an imported phrase.**

A phrase that has been imported and that passes the check of its words is used to set up a wallet:
the keys are derived from it, and the entropy of a wallet that is to stay is kept beside them.  Only
the entropy of 12 or 24 words is expected there, and the check accepts other numbers of words too.

Main definitions:

* `Jade.wordCount` — the number of words of a text;
* `Jade.KeyPrims.SetsUp` — what is documented of the functions that derive keys;
* `Jade.SetUpHarmless` — no assertion fails while a wallet is set up.

Main results:

* `Jade.setUpHarmless_iff` — exactly the phrases of 12 or 24 words set up a wallet that stays;
* `Jade.import_agrees_and_harmless` — **which inputs, payloads and phrases are harmless**.
-/

import Jade.Keychain.StoreLoad
import Jade.Mnemonic.Import

set_option relaxedAutoImplicit false
set_option autoImplicit false

namespace Jade

open Exec Flash

/-! ### The functions that derive keys -/

/-- The number of words of a text, with a space between any two. -/
def wordCount (mnemonic : Bytes) : ℕ := (mnemonic.splitOn 0x20).length

/-- What is documented of the functions, for texts that pass the check: three words hold four bytes
of entropy, and what does not fit the buffer is an error. Seeds without a key do not occur in
practice and are left out. -/
structure KeyPrims.SetsUp (P : KeyPrims) : Prop where
  bytes : ∀ m, P.bip39MnemonicValidate m = true → 4 * wordCount m ≤ 3 * BIP39_ENTROPY_LEN_256 →
    ∃ e, P.bip39MnemonicToBytes m = some e ∧ 3 * e.length = 4 * wordCount m
  long : ∀ m, P.bip39MnemonicValidate m = true → 3 * BIP39_ENTROPY_LEN_256 < 4 * wordCount m →
    P.bip39MnemonicToBytes m = none
  seed : ∀ m passphrase, P.bip39MnemonicValidate m = true →
    ∃ s, P.bip39MnemonicToSeed m (some passphrase) = some s ∧ s.length = BIP32_ENTROPY_LEN_512
  key : ∀ s : Bytes, s.length = BIP32_ENTROPY_LEN_512 →
    ∃ k, P.bip32KeyFromSeed s BIP32_VER_MAIN_PRIVATE = some k
  child : ∀ s k, P.bip32KeyFromSeed s BIP32_VER_MAIN_PRIVATE = some k →
    ∃ derived, P.bip32KeyFromParentPath k [GA_PATH_ROOT] = some derived
  blinding : ∀ s : Bytes, s.length = BIP32_ENTROPY_LEN_512 →
    ∃ mbk, P.wallyAssetBlindingKeyFromSeed s = some mbk

/-- No assertion fails while a wallet is set up from the phrase, for good or temporarily, on a
device without a wallet. -/
def SetUpHarmless (P : KeyPrims) (temporary : Bool) (mnemonic : Bytes) : Prop :=
  ∀ (d : Dev NvsKey Ram PinTest) (advancedMode : Bool) (entered : Bytes),
    d.ram.keychainData = none → (temporary = true ∨ d.ram.hasEncryptedBlob = false) →
      entered.length ≤ PASSPHRASE_MAX_LEN →
        Sat (initialiseWithMnemonic P temporary (some mnemonic) advancedMode entered)
          (fun _ _ => True) (fun e _ => e = .power) d

/-! ### Deriving the keys -/

section SetUp

variable {P : KeyPrims} {mnemonic : Bytes} {d : Dev NvsKey Ram PinTest}

/-- A phrase that passes the check has keys. -/
theorem sat_keychainDeriveFromMnemonic (hP : P.SetsUp)
    (hvalid : P.bip39MnemonicValidate mnemonic = true) {passphrase : Bytes}
    (hlen : passphrase.length ≤ PASSPHRASE_MAX_LEN) :
    Sat (keychainDeriveFromMnemonic P mnemonic (some passphrase))
      (fun keydata d' => keydata.isSome = true ∧ d' = d) (fun _ _ => False) d := by
  obtain ⟨s, hs, hslen⟩ := hP.seed mnemonic passphrase hvalid
  obtain ⟨k, hk⟩ := hP.key s hslen
  obtain ⟨derived, hderived⟩ := hP.child s k hk
  obtain ⟨mbk, hmbk⟩ := hP.blinding s hslen
  have hlong : (some passphrase).any (fun p => decide (p.length > PASSPHRASE_MAX_LEN)) = false := by
    simpa using hlen
  rw [keychainDeriveFromMnemonic, hlong, hvalid, hs]
  simp only [Bool.false_eq_true, if_false, Bool.not_true, sat_bind, sat_assert, hslen,
    keychainDeriveFromSeed, hk, hmbk, walletCalculateGaservicePath, hderived, sat_pure]
  simp [BIP32_ENTROPY_LEN_512]

/-- What is asked for is a passphrase that the keyboard lets the user enter. -/
theorem sat_getPassphrase_le {entered : Bytes} (hlen : entered.length ≤ PASSPHRASE_MAX_LEN) :
    Sat (getPassphrase entered)
      (fun passphrase d' => passphrase.length ≤ PASSPHRASE_MAX_LEN ∧ d' = d)
      (fun _ _ => False) d := by
  simp only [getPassphrase, keychainGetPassphraseFreq, sat_bind, sat_getRam, sat_pure]
  split
  · exact (sat_pure _).2 ⟨Nat.zero_le _, rfl⟩
  all_goals
    simp only [sat_bind, sat_assert, sat_pure]
    exact ⟨fun _ => ⟨hlen, trivial⟩, fun h => absurd hlen (of_decide_eq_false h)⟩

/-- Clearing the restriction stops when the power is lost, and otherwise leaves the rest alone. -/
theorem sat_keychainClear_harmless (hdata : d.ram.keychainData.isSome = true) :
    Sat keychainClearNetworkTypeRestriction
      (fun _ d' => d'.ram = { d.ram with networkTypeRestriction := .none })
      (fun e _ => e = .power ∧ d.fates ≠ []) d := by
  have hcut : d.fate ≠ .done → d.fates ≠ [] := by
    intro h hnil
    exact h (by rw [Dev.fate, hnil]; rfl)
  have hlen : decide (0 < (NetworkType.none.toBytes).length) = true := rfl
  simp only [keychainClearNetworkTypeRestriction, keychainHasTemporary,
    storageSetNetworkTypeRestriction, storeBlob, write, sat_bind, sat_getRam, sat_assert, sat_pure,
    sat_ite, sat_modifyRam, sat_commit, hdata, Bool.or_true, true_implies, Bool.true_eq_false,
    false_implies, and_true, hlen]
  refine ⟨fun _ => ⟨fun _ => rfl, fun _ => trivial, fun h => ?_, fun h => ?_⟩, fun _ => trivial⟩
  · exact ⟨trivial, hcut (by rw [h]; decide)⟩
  · exact ⟨trivial, hcut (by rw [h]; decide)⟩

/-- The keys of a phrase that passes the check are set, without an entropy beside them. -/
theorem sat_deriveKeychain_valid (hP : P.SetsUp) (temporary : Bool)
    (hvalid : P.bip39MnemonicValidate mnemonic = true) {entered : Bytes}
    (hlen : entered.length ≤ PASSPHRASE_MAX_LEN) :
    Sat (deriveKeychain P temporary mnemonic entered)
      (fun ok d' => ok = true ∧ d'.ram.keychainTemporary = temporary ∧ d'.ram.mnemonicEntropy = [])
      (fun e _ => e = .power ∧ d.fates ≠ []) d := by
  rw [deriveKeychain, sat_bind]
  refine (sat_getPassphrase_le hlen).mono ?_ (fun _ _ h => h.elim)
  rintro passphrase d' ⟨hle, rfl⟩
  rw [sat_bind, sat_assert]
  refine ⟨fun _ => ?_, fun h => absurd hle (of_decide_eq_false h)⟩
  rw [sat_bind]
  refine (sat_keychainDeriveFromMnemonic hP hvalid hle).mono ?_ (fun _ _ h => h.elim)
  rintro (_ | keydata) d' ⟨hsome, rfl⟩
  · cases hsome
  · simp only [keychainSet, sat_bind, sat_storageGetKeyFlags, sat_modifyRam]
    refine (sat_keychainClear_harmless rfl).mono ?_ (fun _ _ h => h)
    intro _ d' hram
    exact (sat_pure _).2 ⟨rfl, by rw [hram], by rw [hram]⟩

/-- The entropy of a phrase can be kept if it has the expected length. -/
theorem sat_keychainCacheMnemonicEntropy (hP : P.SetsUp)
    (hvalid : P.bip39MnemonicValidate mnemonic = true)
    (htemp : d.ram.keychainTemporary = false) (hempty : d.ram.mnemonicEntropy = []) :
    Sat (keychainCacheMnemonicEntropy P.toPrims mnemonic)
      (fun _ _ => wordCount mnemonic = 12 ∨ wordCount mnemonic = 24)
      (fun e _ => e = .assert ∧ wordCount mnemonic ≠ 12 ∧ wordCount mnemonic ≠ 24) d := by
  simp only [keychainCacheMnemonicEntropy, sat_bind, sat_getRam, sat_assert, htemp, hempty,
    Bool.not_false, true_implies, decide_true, Bool.true_eq_false, false_implies, and_true]
  by_cases hfits : 4 * wordCount mnemonic ≤ 3 * BIP39_ENTROPY_LEN_256
  · obtain ⟨e, he, hcount⟩ := hP.bytes mnemonic hvalid hfits
    rw [he]
    simp only [sat_bind, sat_assert, sat_modifyRam]
    constructor
    · intro hlen
      rw [Bool.or_eq_true, decide_eq_true_eq, decide_eq_true_eq, BIP39_ENTROPY_LEN_128,
        BIP39_ENTROPY_LEN_256] at hlen
      omega
    · intro hlen
      rw [Bool.or_eq_false_iff, decide_eq_false_iff_not, decide_eq_false_iff_not,
        BIP39_ENTROPY_LEN_128, BIP39_ENTROPY_LEN_256] at hlen
      exact ⟨trivial, by omega, by omega⟩
  · rw [not_le] at hfits
    rw [hP.long mnemonic hvalid hfits]
    rw [BIP39_ENTROPY_LEN_256] at hfits
    refine (sat_assert _).2 ⟨fun h => absurd h Bool.false_ne_true, fun _ => ⟨rfl, ?_, ?_⟩⟩
    · omega
    · omega

/-- Setting up a wallet from a phrase that passes the check: the end is reached with an expected
number of words or a temporary wallet, and an assertion fails otherwise. -/
theorem sat_initialiseWithMnemonic_valid (hP : P.SetsUp) (temporary : Bool)
    (hvalid : P.bip39MnemonicValidate mnemonic = true) (advancedMode : Bool) {entered : Bytes}
    (hdata : d.ram.keychainData = none) (hpin : temporary = true ∨ d.ram.hasEncryptedBlob = false)
    (hlen : entered.length ≤ PASSPHRASE_MAX_LEN) :
    Sat (initialiseWithMnemonic P temporary (some mnemonic) advancedMode entered)
      (fun _ _ => temporary = true ∨ wordCount mnemonic = 12 ∨ wordCount mnemonic = 24)
      (fun e _ => (e = .power ∧ d.fates ≠ []) ∨
        e = .assert ∧ temporary = false ∧ wordCount mnemonic ≠ 12 ∧ wordCount mnemonic ≠ 24) d := by
  have hnew : (temporary || !d.ram.hasEncryptedBlob) = true := by
    rcases hpin with h | h
    · rw [h, Bool.true_or]
    · rw [h, Bool.not_false, Bool.or_true]
  simp only [initialiseWithMnemonic, keychainHasPin, keychainSetConfirmExportBlindingKey, sat_bind,
    sat_getRam, sat_assert, sat_pure, sat_modifyRam, hdata, hvalid, hnew, Option.isNone_none,
    Bool.not_true, Bool.false_eq_true, if_false, true_implies, Bool.true_eq_false, false_implies,
    and_true]
  refine (sat_deriveKeychain_valid hP temporary hvalid hlen).mono ?_ (fun _ _ h => .inl h)
  rintro ok d' ⟨rfl, htemp, hempty⟩
  simp only [Bool.not_true, Bool.false_eq_true, if_false]
  cases temporary with
  | true => exact (sat_pure _).2 (.inl rfl)
  | false =>
      refine (sat_keychainCacheMnemonicEntropy hP hvalid htemp hempty).mono ?_ ?_
      · intro _ _ hcount
        exact .inr hcount
      · intro e _ h
        exact .inr ⟨h.1, rfl, h.2⟩

/-- A device without a wallet, whose flash takes everything. -/
def blankDevice : Dev NvsKey Ram PinTest where
  store _ := none
  ram := .init
  fates := []
  log := []

/-- **Exactly the phrases of 12 or 24 words set up a wallet that stays.** -/
theorem setUpHarmless_iff (hP : P.SetsUp) (temporary : Bool)
    (hvalid : P.bip39MnemonicValidate mnemonic = true) :
    SetUpHarmless P temporary mnemonic ↔
      temporary = true ∨ wordCount mnemonic = 12 ∨ wordCount mnemonic = 24 := by
  constructor
  · intro h
    by_contra hcount
    have hrun := h blankDevice false [] rfl (.inr rfl) (Nat.zero_le _)
    have hspec := sat_initialiseWithMnemonic_valid (d := blankDevice) hP temporary hvalid false rfl
      (.inr rfl) (show ([] : Bytes).length ≤ PASSPHRASE_MAX_LEN from Nat.zero_le _)
    -- nothing stops the run on this device but the assertion
    cases hend : (initialiseWithMnemonic P temporary (some mnemonic) false []).run blankDevice with
    | ok u d' => exact hcount (hspec.ok hend)
    | error e d' =>
        obtain rfl := hrun.error hend
        rcases hspec.error hend with ⟨-, hfates⟩ | ⟨hassert, -⟩
        · exact hfates rfl
        · cases hassert
  · intro hcount d advancedMode entered hdata hpin hlen
    refine (sat_initialiseWithMnemonic_valid hP temporary hvalid advancedMode hdata hpin hlen).mono
      (fun _ _ _ => trivial) ?_
    rintro e _ (⟨hpower, -⟩ | ⟨-, htemp, h12, h24⟩)
    · exact hpower
    · rcases hcount with h | h | h
      · rw [htemp] at h
        cases h
      · exact absurd h h12
      · exact absurd h h24

end SetUp

/-! ### Libraries to evaluate with -/

/-- The phrase of 16 bytes of zeros. -/
def zeroPhrase : Bytes := toyWords.phrase (List.replicate 11 0 ++ [3])

/-- A phrase of 15 words. -/
def fifteenWords : Bytes := toyWords.phrase (List.replicate 15 0)

/-- The UR code of the words of 16 bytes of zeros. -/
def zeroUrText : Bytes :=
  ascii "UR:CRYPTO-BIP39/OEADLK" ++ (List.replicate 11 (ascii "IOHSIDHSJTIEJLJT")).flatten ++
    ascii "IHHSIDJLKPJYAOIDIHJTIOONFERD"

/-- The phrases above pass the check, and others do not. -/
def toyMnemonicLib : MnemonicLib (ℕ × Bytes) where
  toKeyPrims := { toyKeyPrims with
    bip39MnemonicValidate m := m == zeroPhrase || m == fifteenWords
    bip39MnemonicFromBytes e := some (if e = List.replicate 16 0 then zeroPhrase
      else toyWords.phrase (List.replicate (3 * e.length / 4) 0))
    bip39MnemonicToBytes m :=
      if m = zeroPhrase then some (List.replicate 16 0)
      else if m = fifteenWords then some (List.replicate 20 0) else none }
  words := toyWords
  urDecode text := if text = zeroUrText then
    some (BCUR_TYPE_CRYPTO_BIP39, cryptoBip39 ((List.replicate 11 0 ++ [3]).map toyWord)) else none
  cbor := cborCursor

theorem toyMnemonicLib_lawful : toyMnemonicLib.Lawful where
  words := toyWords_lawful
  cbor := cborCursor_lawful
  entropy e he := by
    by_cases hzero : e = List.replicate 16 0
    · subst hzero
      exact ⟨List.replicate 11 0 ++ [3], by decide, by decide, rfl⟩
    · refine ⟨List.replicate (3 * e.length / 4) 0, ?_, ?_, ?_⟩
      · rw [BIP39_ENTROPY_LEN_128, BIP39_ENTROPY_LEN_256] at he
        rw [List.length_replicate]
        omega
      · intro i hi
        rw [List.eq_of_mem_replicate hi]
        decide
      · change some (if e = List.replicate 16 0 then _ else _) = _
        rw [if_neg hzero]
        rfl

theorem toyMnemonicLib_setsUp : toyMnemonicLib.toKeyPrims.SetsUp := by
  -- only two phrases pass the check
  have hcases : ∀ m, toyMnemonicLib.bip39MnemonicValidate m = true →
      (m = zeroPhrase ∧ wordCount m = 12 ∧
          toyMnemonicLib.bip39MnemonicToBytes m = some (List.replicate 16 0)) ∨
        m = fifteenWords ∧ wordCount m = 15 ∧
          toyMnemonicLib.bip39MnemonicToBytes m = some (List.replicate 20 0) := by
    intro m hm
    have heq : m = zeroPhrase ∨ m = fifteenWords := by
      simpa [toyMnemonicLib] using hm
    rcases heq with rfl | rfl
    · exact .inl ⟨rfl, by decide, rfl⟩
    · exact .inr ⟨rfl, by decide, by decide⟩
  refine ⟨?_, ?_, ?_, fun _ _ => ⟨_, rfl⟩, fun _ _ _ => ⟨_, rfl⟩, fun _ _ => ⟨_, rfl⟩⟩
  · intro m hm _
    rcases hcases m hm with ⟨-, hcount, hbytes⟩ | ⟨-, hcount, hbytes⟩
    · exact ⟨_, hbytes, by rw [hcount]; rfl⟩
    · exact ⟨_, hbytes, by rw [hcount]; rfl⟩
  · intro m hm hlong
    rw [BIP39_ENTROPY_LEN_256] at hlong
    rcases hcases m hm with ⟨-, hcount, -⟩ | ⟨-, hcount, -⟩ <;> omega
  · exact fun _ _ _ => ⟨_, rfl, rfl⟩

/-! ### The result -/

/-- **Which inputs, payloads and phrases are harmless**: all formats of a phrase give the same text,
and exactly the inputs that are no empty text and no UR code with an unreadable payload are imported
or turned away without harm, and exactly the phrases of 12 or 24 words set up a wallet that stays.
-/
theorem import_agrees_and_harmless {V : Type} {M : MnemonicLib V} (hM : M.Lawful)
    (hP : M.toKeyPrims.SetsUp) :
    (∀ (bufLen : ℕ) (e : Bytes), MNEMONIC_BUFLEN ≤ bufLen →
      (e.length = BIP39_ENTROPY_LEN_128 ∨ e.length = BIP39_ENTROPY_LEN_256) →
        ∃ indices, M.bip39MnemonicFromBytes e = some (M.words.phrase indices) ∧
          ∀ input, (input = e ∨ input = indices.flatMap seedqrDigits ∨
              input = M.words.phrase indices ∨
                UrText M input (cryptoBip39 (indices.map M.words.word))) →
            importMnemonic M input bufLen = .ok (some (M.words.phrase indices ++ [0]))) ∧
    (∀ (bufLen : ℕ) (bytes : Bytes), MNEMONIC_BUFLEN ≤ bufLen →
      (ImportHarmless M bytes bufLen ↔ InputOk M bytes bufLen)) ∧
    (∀ (bufLen : ℕ) (payload : Bytes),
      PayloadHarmless M.cbor bufLen payload ↔ PayloadOk M.cbor bufLen payload) ∧
    ∀ (temporary : Bool) (mnemonic : Bytes), M.bip39MnemonicValidate mnemonic = true →
      (SetUpHarmless M.toKeyPrims temporary mnemonic ↔
        temporary = true ∨ wordCount mnemonic = 12 ∨ wordCount mnemonic = 24) := by
  refine ⟨?_, ?_, ?_, ?_⟩
  · intro bufLen e hbuf he
    exact formats_agree hM hbuf he
  · intro bufLen bytes hbuf
    exact importMnemonic_iff hM hbuf bytes
  · intro bufLen payload
    exact bcurParseBip39_iff hM.cbor bufLen payload
  · intro temporary mnemonic hvalid
    exact setUpHarmless_iff hP temporary hvalid

/-- The code of 16 bytes of zeros is imported as its phrase, which sets up a wallet; and a payload of
three words is read in a buffer of 14 bytes. -/
theorem import_agrees_and_harmless_zeros :
    importMnemonic toyMnemonicLib (List.replicate 16 0) 256 = .ok (some (zeroPhrase ++ [0])) ∧
      UrText toyMnemonicLib zeroUrText (cryptoBip39 ((List.replicate 11 0 ++ [3]).map toyWord)) ∧
        PayloadHarmless cborCursor 14 (cryptoBip39 [ascii "zoo", ascii "zone", ascii "zero"]) ∧
          SetUpHarmless toyMnemonicLib.toKeyPrims false zeroPhrase := by
  obtain ⟨hformats, -, hpayload, hsetup⟩ :=
    import_agrees_and_harmless toyMnemonicLib_lawful toyMnemonicLib_setsUp
  refine ⟨?_, ⟨by decide +kernel, by decide +kernel, by decide +kernel⟩, ?_, ?_⟩
  · obtain ⟨indices, hphrase, himport⟩ :=
      hformats 256 (List.replicate 16 0) (Nat.le_refl _) (.inl List.length_replicate)
    have hzero : zeroPhrase = toyMnemonicLib.words.phrase indices := Option.some.inj hphrase
    rw [hzero]
    exact himport _ (.inl rfl)
  · have hwords : payloadWords cborCursor (cryptoBip39 [ascii "zoo", ascii "zone", ascii "zero"]) =
        .ok (some ([ascii "zoo", ascii "zone", ascii "zero"], true)) :=
      payloadWords_cryptoBip39 cborCursor_lawful (by decide) (by decide) (by decide)
    refine (hpayload 14 _).2 ((payloadOk_iff cborCursor_lawful 14 (by decide)).2
      ⟨_, hwords, ?_⟩)
    rintro _ _ ⟨⟩
    decide
  · exact (hsetup false zeroPhrase (by decide)).2 (.inr (.inl (by decide)))

/-- A code with a number in the place of a second word. -/
def numberPayload : Bytes := [0xa1, 0x01, 0x82, 0x61, 0x61, 0x07]

/-- An assertion fails on the payload, and on setting up a wallet from 15 words that pass the check;
the empty text is imported without a terminator. -/
theorem import_not_harmless :
    ¬PayloadHarmless cborCursor MNEMONIC_BUFLEN numberPayload ∧
      ¬ImportHarmless toyMnemonicLib [] MNEMONIC_BUFLEN ∧
        toyMnemonicLib.bip39MnemonicValidate fifteenWords = true ∧
          ¬SetUpHarmless toyMnemonicLib.toKeyPrims false fifteenWords := by
  refine ⟨?_, ?_, by decide, ?_⟩
  · have hparse : bcurParseBip39 cborCursor MNEMONIC_BUFLEN numberPayload = .error .assert := by rfl
    rw [PayloadHarmless, hparse]
    exact id
  · have himport : importMnemonic toyMnemonicLib [] MNEMONIC_BUFLEN = .ok (some []) := by rfl
    rw [importMnemonic_iff toyMnemonicLib_lawful (Nat.le_refl _)]
    rintro (h | h | h | h)
    · cases h
    · cases h
    · cases h.1
    · exact h rfl
  · rw [setUpHarmless_iff toyMnemonicLib_setsUp false (by decide)]
    decide

end Jade
