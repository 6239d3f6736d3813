/-
**Loading a registered wallet (`multisig.c`, `descriptor.c`, `storage.c`).**

A loader fetches the blob that flash has under a name, decodes it under the key of the wallet, and
looks at the fields once more.  It leaves a message when something is wrong, and it returns a
result, and its callers look at the result.  The last look at the fields leaves a message, but it
does not change the result; and what the decoders assert about the length of a record is checked by
nobody.

Main definitions:

* `Jade.Loaded` — what a loader leaves behind;
* `Jade.multisigLoadFromStorage`, `Jade.descriptorLoadFromStorage` — the loaders;
* `Jade.IsMultisig` — the bytes of a multisig record;
* `Jade.Underivable`, `Jade.Aborts` — the key of a signer cannot be derived;
* `Jade.LoadsSoundly` — what the callers rely on.

Main results:

* `Jade.multisigDataFromBytes_eq_ok_iff` — the decoder returns what the record is of;
* `Jade.loadFromStorage_iff` — **a loader can be relied on exactly when the stored record is one
  that the decoder gets through, and one whose fields are valid**.
-/

import Jade.Registration.Descriptor
import Jade.Registration.Multisig

set_option relaxedAutoImplicit false
set_option autoImplicit false

namespace Jade

open Exec Cursor

/-! ### The loaders -/

/-- The blobs of a namespace by their names. -/
abbrev Registrations : Type := Bytes → Option Bytes

/-- `read_blob` into a buffer of `len` bytes; a blob that is longer is not read. -/
def Registrations.readBlob (stored : Registrations) (name : Bytes) (len : ℕ) : Option Bytes :=
  match stored name with
  | none => none
  | some blob => if blob.length ≤ len then some blob else none

/-- What a loader leaves behind: its result, the structure it has filled in, and the message. -/
structure Loaded (α : Type) where
  result : Bool
  output : Option α
  errmsg : Option String
  deriving DecidableEq

/-- What both loaders do with the blob they have fetched.  When a check turns the record away, the
structure is not filled in. -/
def loadRecord {α : Type} (notFound refused invalid : String) (registration : Option Bytes)
    (fromBytes : Bytes → Except ReadStop α) (isInvalid : α → Bool) : Except Fault (Loaded α) :=
  match registration with
  | none => .ok ⟨false, none, some notFound⟩
  | some registration =>
      match fromBytes registration with
      | .error (.fault f) => .error f
      | .error .refused => .ok ⟨false, none, some refused⟩
      | .ok output => .ok ⟨true, some output, if isInvalid output then some invalid else none⟩

/-- `MAX_MULTISIG_BYTES_LEN` -/
def MAX_MULTISIG_BYTES_LEN : ℕ :=
  multisigBytesLen MULTISIG_MASTER_BLINDING_KEY_SIZE MAX_ALLOWED_SIGNERS
    (MAX_ALLOWED_SIGNERS * 2 * MAX_PATH_LEN)

/-- `is_multisig` of a persisted variant -/
def isMultisigByte (variant : UInt8) : Bool := variant == 4 || variant == 5 || variant == 6

/-- Something is wrong with the fields of a multisig record that has been decoded. -/
def multisigDataInvalid (data : MultisigRecord) : Bool :=
  !isMultisigByte data.variant || data.threshold == 0 ||
    decide (data.xpubs.1.length < data.threshold.toNat) || data.xpubs.1.isEmpty ||
    decide (MAX_ALLOWED_SIGNERS < data.xpubs.1.length) ||
    ((blindingKeyBytes data.masterBlindingKey).length != 0 &&
      (blindingKeyBytes data.masterBlindingKey).length != MULTISIG_MASTER_BLINDING_KEY_SIZE)

/-- Something is wrong with the fields of a descriptor that has been decoded. -/
def descriptorDataInvalid (data : DescriptorRecord) : Bool :=
  decide (MAX_DESCRIPTOR_SCRIPT_LEN < data.script.chars.length) ||
    decide (MAX_ALLOWED_SIGNERS < data.values.1.length)

section Loaders

variable {K : Type} (L : MultisigLib K)

/-- `multisig_load_from_storage`, with room for the details of `signerDetailsLen` signers. -/
def multisigLoadFromStorage (stored : Registrations) (multisigName : Bytes)
    (signerDetailsLen : ℕ) : Except Fault (Loaded MultisigOutput) :=
  loadRecord "Cannot find named multisig wallet" "Cannot de-serialise multisig wallet data"
    "Multisig wallet data invalid" (stored.readBlob multisigName MAX_MULTISIG_BYTES_LEN)
    (fun registration => multisigDataFromBytes L registration signerDetailsLen)
    (fun output => multisigDataInvalid output.1)

/-- `descriptor_load_from_storage` -/
def descriptorLoadFromStorage (key : MasterKey) (stored : Registrations) (descriptorName : Bytes) :
    Except Fault (Loaded DescriptorRecord) :=
  loadRecord "Cannot find named descriptor wallet" "Cannot de-serialise descriptor wallet data"
    "Descriptor wallet data invalid" (stored.readBlob descriptorName MAX_DESCRIPTOR_BYTES_LEN)
    (descriptorFromBytes key) descriptorDataInvalid

/-! ### The bytes of a multisig record -/

/-- There are no more keys than signers. -/
theorem length_xpubs_le
    (signers : { signers : List (Xpub × Option Signer) // signers.length ≤ MAX_ALLOWED_SIGNERS }) :
    (signers.1.map (·.1)).length ≤ MAX_ALLOWED_SIGNERS := by
  rw [List.length_map]
  exact signers.2

/-- The signers of a record: the keys one after another in an older one, and in the current one the
number of signers and their words. -/
def SignerBytes (n : ℕ) (header : MultisigHeader) (output : MultisigOutput) (body : Bytes) : Prop :=
  if header.version < 3 then
    ∃ xpubs, xpubs.1 ≠ [] ∧ body = xpubs.1.flatMap (·.1) ∧ output = (header.record xpubs, [], 0)
  else
    ∃ (signers : { signers : List (Xpub × Option Signer) // signers.length ≤ MAX_ALLOWED_SIGNERS })
      (words : Bytes), signers.1 ≠ [] ∧ Spells (fun i => SignerRead L (i < n)) signers.1 words ∧
        body = UInt8.ofNat signers.1.length :: words ∧
        output = (header.record ⟨signers.1.map (·.1), length_xpubs_le signers⟩,
          signers.1.filterMap (·.2), signers.1.length)

/-- The bytes are a record: a header, the signers, and the hash is all that is left. -/
def IsMultisig (n : ℕ) (output : MultisigOutput) (bytes : Bytes) : Prop :=
  ∃ (header : MultisigHeader) (word body mac : Bytes), HeaderWord header word ∧
    SignerBytes L n header output body ∧ mac.length = HMAC_SHA256_LEN ∧
      bytes = word ++ (body ++ mac)

/-- The keys of an older record fill what is in front of the hash. -/
theorem readSimpleSigners_eq_ok {bytes : Bytes}
    {xpubs : { xpubs : List Xpub // xpubs.length ≤ MAX_ALLOWED_SIGNERS }} :
    readSimpleSigners bytes = .ok xpubs ↔ xpubs.1 ≠ [] ∧ bytes = xpubs.1.flatMap (·.1) := by
  constructor
  · intro h
    rw [readSimpleSigners] at h
    split at h
    · cases h
    · case isFalse hnum =>
        split at h
        · cases h
        · case isFalse hlen =>
            rw [not_or] at hnum
            split at h
            · cases h
            · case h_2 xpubs' rest hrun =>
                cases h
                obtain ⟨words, ⟨hcount, hspell⟩, rfl⟩ :=
                  (reads_readSlots _ (fun _ => reads_readBytes BIP32_SERIALIZED_LEN) _ _ _ _ _).1 hrun
                have hwords := spells_iff.1 hspell
                have hwidth : words.length = xpubs.1.length * BIP32_SERIALIZED_LEN := by
                  rw [hwords]
                  exact length_flatMap_xpubs xpubs.1
                rw [← hcount, List.length_append, hwidth] at hlen
                have hrest : rest = [] := List.length_eq_zero_iff.1 (by omega)
                refine ⟨?_, by rw [hrest, List.append_nil, hwords]⟩
                intro hnil
                rw [hnil] at hcount
                exact hnum.1 hcount.symm
  · rintro ⟨hne, rfl⟩
    exact readSimpleSigners_flatMap xpubs hne

/-- The signers of a record, with the hash behind them. -/
theorem multisigSignersFromBytes_eq_ok {header : MultisigHeader} {n : ℕ} {output : MultisigOutput}
    {rest : Bytes} (hrest : HMAC_SHA256_LEN < rest.length) :
    multisigSignersFromBytes L header n rest = .ok output ↔
      ∃ body mac : Bytes, SignerBytes L n header output body ∧ mac.length = HMAC_SHA256_LEN ∧
        rest = body ++ mac := by
  rw [multisigSignersFromBytes, if_neg (by omega)]
  by_cases hversion : header.version < 3
  · simp only [SignerBytes, if_pos hversion]
    constructor
    · intro h
      cases hsimple : readSimpleSigners (rest.take (rest.length - HMAC_SHA256_LEN)) with
      | error e =>
          rw [hsimple] at h
          cases h
      | ok xpubs =>
          rw [hsimple] at h
          cases h
          obtain ⟨hne, hbytes⟩ := readSimpleSigners_eq_ok.1 hsimple
          refine ⟨_, rest.drop (rest.length - HMAC_SHA256_LEN), ⟨xpubs, hne, hbytes, rfl⟩, ?_,
            (List.take_append_drop _ _).symm⟩
          rw [List.length_drop]
          omega
    · rintro ⟨body, mac, ⟨xpubs, hne, rfl, rfl⟩, hmac, rfl⟩
      have hlen : (xpubs.1.flatMap (·.1) ++ mac).length - HMAC_SHA256_LEN =
          (xpubs.1.flatMap (·.1)).length := by
        rw [List.length_append, hmac, Nat.add_sub_cancel]
      rw [hlen, List.take_left, readSimpleSigners_flatMap xpubs hne]
      rfl
  · simp only [SignerBytes, if_neg hversion]
    constructor
    · intro h
      cases hsigners : (readCompleteSigners L n).run rest with
      | error e rest' =>
          rw [hsigners] at h
          cases h
      | ok signers mac =>
          rw [hsigners] at h
          dsimp only at h
          split at h
          · cases h
          · case isFalse hmac =>
              cases h
              obtain ⟨_, ⟨hne, words, hspell, rfl⟩, rfl⟩ :=
                (reads_readCompleteSigners L n _ _ _).1 hsigners
              exact ⟨_, mac, ⟨signers, words, hne, hspell, rfl, rfl⟩, not_not.1 hmac, rfl⟩
    · rintro ⟨body, mac, ⟨signers, words, hne, hspell, rfl, rfl⟩, hmac, rfl⟩
      have hrun : (readCompleteSigners L n).run
          (UInt8.ofNat signers.1.length :: words ++ mac) = .ok signers mac :=
        (reads_readCompleteSigners L n _ _ _).2 ⟨_, ⟨hne, words, hspell, rfl⟩, rfl⟩
      rw [hrun]
      dsimp only
      rw [if_neg (not_not.2 hmac)]

/-- On an authentic record, `multisig_data_from_bytes` returns what the record is of. -/
theorem multisigDataFromBytes_eq_ok_iff {bytes : Bytes} {n : ℕ} {output : MultisigOutput}
    (hmin : MIN_MULTISIG_BYTES_LEN ≤ bytes.length) (hauth : Authentic L.key bytes) :
    multisigDataFromBytes L bytes n = .ok output ↔ IsMultisig L n output bytes := by
  constructor
  · intro h
    cases hrun : readMultisigHeader.run bytes with
    | error e rest =>
        rw [multisigDataFromBytes, if_neg (Nat.not_lt.2 hmin), if_neg (not_not.2 hauth), hrun] at h
        cases h
    | ok header rest =>
        have hlen := length_rest_of_header hmin hrun
        obtain ⟨word, hword, rfl⟩ := (reads_readMultisigHeader _ _ _).1 hrun
        rw [multisigDataFromBytes_append L hmin hauth hword rfl,
          multisigSignersFromBytes_eq_ok L hlen] at h
        obtain ⟨body, mac, hbody, hmac, rfl⟩ := h
        exact ⟨header, word, body, mac, hword, hbody, hmac, rfl⟩
  · rintro ⟨header, word, body, mac, hword, hbody, hmac, rfl⟩
    have hrun := (reads_readMultisigHeader _ header (body ++ mac)).2 ⟨word, hword, rfl⟩
    have hlen := length_rest_of_header hmin hrun
    rw [multisigDataFromBytes_append L hmin hauth hword rfl, multisigSignersFromBytes_eq_ok L hlen]
    exact ⟨body, mac, hbody, hmac, rfl⟩

/-! ### Keys that cannot be derived -/

/-- The key decodes, but it cannot be derived along the path behind it. -/
def Underivable (xpub : Xpub) (path : PathArray) : Prop :=
  path.1 ≠ [] ∧ ∃ root, L.wallet.bip32KeyUnserialize xpub.1 = some root ∧
    L.wallet.bip32PublicKeyFromParentPath root path.1 = none

theorem outputXpub_assert_iff {xpub : Xpub} {path : PathArray} :
    outputXpub L xpub path = .error (.fault .assert) ↔ Underivable L xpub path := by
  rw [outputXpub, walletDerivePubkey, Underivable]
  by_cases hpath : path.1 = []
  · simp [hpath]
  · rw [if_neg (by simpa using hpath)]
    cases L.wallet.bip32KeyUnserialize xpub.1 with
    | none => simp
    | some root =>
        simp only [List.isEmpty_iff, hpath, if_false, ne_eq, not_false_iff, true_and,
          Option.some.injEq, exists_eq_left']
        cases hderive : L.wallet.bip32PublicKeyFromParentPath root path.1 with
        | none => simp [wallyVerify, bind, Except.bind]
        | some hdkey =>
            simp only [wallyVerify_some, ok_bind, pure, Except.pure, reduceCtorEq, iff_false]
            cases L.bip32KeySerialize hdkey with
            | none => simp
            | some output => simp

/-- The record goes on with a signer whose key cannot be derived. -/
def SignerAborts (want : Bool) (bs : Bytes) : Prop :=
  ∃ fingerprint derivation xpub path rest, (want = true → ∃ text, xpubText L xpub = .ok text) ∧
    Underivable L xpub path ∧ bs = signerWord fingerprint derivation xpub path ++ rest

/-- Some signers have been read, and the key of the next one cannot be derived. -/
def SignersAbort (n : ℕ) (bs : Bytes) : Prop :=
  ∃ (num : UInt8) (signers : List (Xpub × Option Signer)) (words rest : Bytes),
    num.toNat ≤ MAX_ALLOWED_SIGNERS ∧ signers.length < num.toNat ∧
      Spells (fun i => SignerRead L (i < n)) signers words ∧
      SignerAborts L (signers.length < n) rest ∧ bs = num :: (words ++ rest)

/-- The record has a signer of version 3 whose key cannot be derived along the path behind it. -/
def Aborts (n : ℕ) (bytes : Bytes) : Prop :=
  ∃ header word rest, HeaderWord header word ∧ ¬ header.version < 3 ∧ SignersAbort L n rest ∧
    bytes = word ++ rest

/-- No assertion fails while a path is read. -/
theorem stops_readPath_assert : Stops readPath (.fault .assert) (fun _ => False) := by
  have hword : Stops readUInt32 (.fault .assert) (fun _ => False) :=
    (stops_bind (reads_readNat 4) (stops_bind (reads_take _ 4) (stops_readBytes_assert 4)
      fun _ => stops_pure _) fun _ => stops_pure _).congr fun bs => by simp
  have hwords : ∀ len : UInt8, Stops (check (len.toNat ≤ MAX_PATH_LEN) .refused >>= fun _ =>
      readSlots (.fault .overflow) (fun _ => readUInt32) MAX_PATH_LEN len.toNat) (.fault .assert)
      (fun _ => False) := by
    intro len
    exact (stops_guard (by decide) fun _ => stops_readSlots _ (fun _ => reads_readUInt32)
      (fun _ => hword) MAX_PATH_LEN len.toNat (fun h => by cases h)).congr fun bs => by simp
  have hbyte : Stops readByte (.fault .assert) (fun _ => False) :=
    stops_next.congr fun bs => by simp
  exact (stops_bind (reads_next _) hbyte hwords).congr fun bs => by simp

/-- An assertion fails at a signer whose key cannot be derived. -/
theorem stops_readSigner_assert (want : Bool) :
    Stops (readSigner L want) (.fault .assert) (SignerAborts L want) := by
  have hlast : ∀ (fingerprint : Sized BIP32_KEY_FINGERPRINT_LEN) (derivation : PathArray)
      (text : Option (CString 120)) (path : PathArray) (xpub : Xpub),
      Stops (lift (outputXpub L xpub path) >>= fun output => (pure (output, text.map fun text =>
        { fingerprint, derivation, xpub := text, path := .elements path }) :
          RecordReader (Xpub × Option Signer))) (.fault .assert)
        (fun _ => Underivable L xpub path) := by
    intro fingerprint derivation text path xpub
    refine (stops_bind (reads_lift _) (stops_lift _) (fun output => stops_pure _)).congr ?_
    intro bs
    simp [outputXpub_assert_iff]
  refine (stops_bind (reads_take _ _) (stops_readBytes_assert _) (fun fingerprint =>
    stops_bind reads_readPath stops_readPath_assert (fun derivation =>
      stops_bind (reads_take _ _) (stops_readBytes_assert _) (fun xpub =>
        stops_bind (reads_lift _) (stops_lift _) (fun text =>
          stops_bind reads_readPath stops_readPath_assert (fun path =>
            hlast fingerprint derivation text path xpub)))))).congr ?_
  intro bs
  constructor
  · rintro (h | ⟨fingerprint, _, _, rfl, h | ⟨derivation, _, _, rfl, h | ⟨xpub, _, _, rfl,
      h | ⟨text, _, _, ⟨htext, rfl⟩, h | ⟨path, _, rest, rfl, h, rfl⟩, rfl⟩, rfl⟩, rfl⟩, rfl⟩)
    · exact h.elim
    · exact h.elim
    · exact h.elim
    · cases want with
      | false => cases h
      | true =>
          cases ht : xpubText L xpub with
          | error e =>
              rw [ht] at h
              cases h
              exact absurd ht (xpubText_ne_fault L xpub _)
          | ok t =>
              rw [ht] at h
              cases h
    · exact h.elim
    · refine ⟨fingerprint, derivation, xpub, path, rest, ?_, h, by simp [signerWord]⟩
      rintro rfl
      rw [wantedText_eq_ok] at htext
      obtain ⟨t, ht, -⟩ := htext
      exact ⟨t, ht⟩
  · rintro ⟨fingerprint, derivation, xpub, path, rest, htext, h, rfl⟩
    have hlift : ∃ text, (if want then (xpubText L xpub).map some else .ok none) = .ok text := by
      simp only [wantedText_eq_ok]
      cases want with
      | false => exact ⟨none, rfl⟩
      | true =>
          obtain ⟨t, ht⟩ := htext rfl
          exact ⟨some t, t, ht, rfl⟩
    obtain ⟨text, htext⟩ := hlift
    refine .inr ⟨fingerprint, _, _, rfl, .inr ⟨derivation, _, _, rfl, .inr ⟨xpub, _, _, rfl,
      .inr ⟨text, [], _, ⟨htext, rfl⟩, .inr ⟨path, _, rest, rfl, h, rfl⟩, rfl⟩, rfl⟩, rfl⟩, ?_⟩
    simp [signerWord]

/-- An assertion fails at a record whose hash is right exactly when the key of a signer cannot be
derived. -/
theorem multisigDataFromBytes_assert_iff {bytes : Bytes}
    (hmin : MIN_MULTISIG_BYTES_LEN ≤ bytes.length) (hauth : Authentic L.key bytes) (n : ℕ) :
    multisigDataFromBytes L bytes n = .error (.fault .assert) ↔ Aborts L n bytes := by
  rw [multisigDataFromBytes_fault_iff L hmin hauth]
  constructor
  · rintro ⟨header, word, rest, hword, hversion, hne, hstops, hbytes⟩
    exact ⟨header, word, rest, hword, hversion,
      (stops_signers L (by decide) (stops_readSigner_assert L) n hne).1 hstops, hbytes⟩
  · rintro ⟨header, word, rest, hword, hversion, habort, hbytes⟩
    have hne : rest ≠ [] := by
      rintro rfl
      obtain ⟨_, _, _, _, -, -, -, -, hnil⟩ := habort
      cases hnil
    exact ⟨header, word, rest, hword, hversion, hne,
      (stops_signers L (by decide) (stops_readSigner_assert L) n hne).2 habort, hbytes⟩

end Loaders

/-! ### What the callers rely on -/

/-- The fields of a multisig record are valid. -/
structure MultisigRecord.Valid (data : MultisigRecord) : Prop where
  variant : isMultisigByte data.variant = true
  threshold_pos : 0 < data.threshold
  threshold_le : data.threshold.toNat ≤ data.xpubs.1.length

theorem multisigDataInvalid_eq_false_iff {data : MultisigRecord} :
    multisigDataInvalid data = false ↔ data.Valid := by
  have hkey : (blindingKeyBytes data.masterBlindingKey).length = 0 ∨
      (blindingKeyBytes data.masterBlindingKey).length = MULTISIG_MASTER_BLINDING_KEY_SIZE := by
    cases data.masterBlindingKey with
    | none => exact .inl rfl
    | some key => exact .inr key.2
  have hle := data.xpubs.2
  constructor
  · intro h
    simp only [multisigDataInvalid, Bool.or_eq_false_iff, Bool.not_eq_false', beq_eq_false_iff_ne,
      decide_eq_false_iff_not, Nat.not_lt] at h
    obtain ⟨⟨⟨⟨⟨hvariant, hzero⟩, hthreshold⟩, -⟩, -⟩, -⟩ := h
    exact ⟨hvariant, UInt8.pos_iff_ne_zero.2 hzero, hthreshold⟩
  · rintro ⟨hvariant, hpos, hthreshold⟩
    have hne : data.xpubs.1 ≠ [] := by
      intro hnil
      have := UInt8.lt_iff_toNat_lt.1 hpos
      rw [hnil, List.length_nil] at hthreshold
      simp only [UInt8.toNat_zero] at this
      omega
    have hzero : data.threshold ≠ 0 := UInt8.pos_iff_ne_zero.1 hpos
    simp only [multisigDataInvalid, hvariant, Bool.not_true, Bool.false_or, Bool.or_eq_false_iff,
      beq_eq_false_iff_ne, decide_eq_false_iff_not, Nat.not_lt, List.isEmpty_eq_false_iff]
    refine ⟨⟨⟨⟨hzero, hthreshold⟩, hne⟩, hle⟩, ?_⟩
    rcases hkey with h | h
    · simp [h]
    · simp [h]

/-- What the callers of a loader rely on: it returns; the result is true exactly when what is stored
decodes to a record, which is then in the output, and it is valid; and with a message the result is
false. -/
structure LoadsSoundly {α : Type} (record valid : α → Prop) (run : Except Fault (Loaded α)) :
    Prop where
  returns : ∃ r, run = .ok r
  result_iff : ∀ r, run = .ok r → (r.result = true ↔ ∃ a, record a)
  output : ∀ r, run = .ok r → r.result = true → ∃ a, r.output = some a ∧ record a ∧ valid a
  errmsg : ∀ r, run = .ok r → r.errmsg ≠ none → r.result = false

/-- The callers can rely on a loader exactly when the decoder gets through the blob, and what it
returns is valid. -/
theorem loadsSoundly_loadRecord_iff {α : Type} {record valid : α → Prop}
    {notFound refused invalid : String} {registration : Option Bytes}
    {fromBytes : Bytes → Except ReadStop α} {isInvalid : α → Bool}
    (hnone : registration = none → ∀ a, ¬record a)
    (hrecord : ∀ bytes, registration = some bytes →
      (∀ f, fromBytes bytes ≠ .error (.fault f)) → ∀ a, record a ↔ fromBytes bytes = .ok a)
    (hvalid : ∀ a, isInvalid a = false ↔ valid a) :
    LoadsSoundly record valid
        (loadRecord notFound refused invalid registration fromBytes isInvalid) ↔
      ∀ bytes, registration = some bytes →
        (∀ f, fromBytes bytes ≠ .error (.fault f)) ∧ ∀ a, fromBytes bytes = .ok a → valid a := by
  constructor
  · rintro ⟨⟨r, hr⟩, -, -, herrmsg⟩ bytes rfl
    rw [loadRecord] at hr herrmsg
    cases hrun : fromBytes bytes with
    | error e =>
        cases e with
        | refused => exact ⟨fun f hf => (by cases hf), fun a ha => (by cases ha)⟩
        | fault f =>
            simp only [hrun] at hr
            cases hr
    | ok output =>
        refine ⟨fun f hf => (by cases hf), fun a ha => ?_⟩
        obtain rfl := Except.ok.inj ha
        rw [← hvalid]
        simp only [hrun] at herrmsg
        by_contra hinvalid
        have hmessage := herrmsg _ rfl
        rw [if_pos (Bool.eq_true_of_not_eq_false hinvalid)] at hmessage
        exact absurd (hmessage (Option.some_ne_none _)) (by simp)
  · intro h
    cases registration with
    | none =>
        refine ⟨⟨_, rfl⟩, ?_, ?_, fun _ hr _ => ?_⟩
        · intro r hr
          obtain rfl := Except.ok.inj hr
          exact ⟨fun hresult => Bool.noConfusion hresult,
            fun ⟨a, ha⟩ => absurd ha (hnone rfl a)⟩
        · intro r hr hresult
          obtain rfl := Except.ok.inj hr
          exact Bool.noConfusion hresult
        · obtain rfl := Except.ok.inj hr
          rfl
    | some bytes =>
        obtain ⟨hfault, hall⟩ := h bytes rfl
        have hiff := hrecord bytes rfl hfault
        rw [loadRecord]
        cases hrun : fromBytes bytes with
        | error e =>
            cases e with
            | fault f => exact absurd hrun (hfault f)
            | refused =>
                refine ⟨⟨_, rfl⟩, ?_, ?_, fun _ hr _ => ?_⟩
                · intro r hr
                  obtain rfl := Except.ok.inj hr
                  refine ⟨fun hresult => Bool.noConfusion hresult, fun ⟨a, ha⟩ => ?_⟩
                  rw [hiff, hrun] at ha
                  cases ha
                · intro r hr hresult
                  obtain rfl := Except.ok.inj hr
                  exact Bool.noConfusion hresult
                · obtain rfl := Except.ok.inj hr
                  rfl
        | ok output =>
            have hsane := (hvalid output).2 (hall output hrun)
            have houtput := (hiff output).2 hrun
            refine ⟨⟨_, rfl⟩, ?_, ?_, ?_⟩
            · intro r hr
              obtain rfl := Except.ok.inj hr
              exact ⟨fun _ => ⟨output, houtput⟩, fun _ => rfl⟩
            · intro r hr _
              obtain rfl := Except.ok.inj hr
              exact ⟨output, rfl, houtput, hall output hrun⟩
            · intro r hr hmessage
              obtain rfl := Except.ok.inj hr
              simp [hsane] at hmessage

section Sound

variable {K : Type} (L : MultisigLib K)

/-- What is stored under a name is a multisig record of this wallet. -/
def StoresMultisig (stored : Registrations) (name : Bytes) (n : ℕ) (output : MultisigOutput) :
    Prop :=
  ∃ bytes, stored.readBlob name MAX_MULTISIG_BYTES_LEN = some bytes ∧ Authentic L.key bytes ∧
    IsMultisig L n output bytes

/-- What is stored under a name is a descriptor record of this wallet. -/
def StoresDescriptor (key : MasterKey) (stored : Registrations) (name : Bytes)
    (output : DescriptorRecord) : Prop :=
  ∃ bytes, stored.readBlob name MAX_DESCRIPTOR_BYTES_LEN = some bytes ∧ Authentic key bytes ∧
    IsDescriptor output bytes

/-- A multisig record that the decoder gets through, and that is valid when it is decoded: it is not
too short, and where its hash is right, the lengths of its signers do not lead past its end, all
their keys can be derived, and it is the record of valid fields. -/
def SoundMultisig (n : ℕ) (bytes : Bytes) : Prop :=
  MIN_MULTISIG_BYTES_LEN ≤ bytes.length ∧
    (Authentic L.key bytes → ¬Overruns L n bytes ∧ ¬Aborts L n bytes ∧
      ∀ output, IsMultisig L n output bytes → output.1.Valid)

theorem multisigDataFromBytes_sound_iff {bytes : Bytes} {n : ℕ} :
    ((∀ f, multisigDataFromBytes L bytes n ≠ .error (.fault f)) ∧
        ∀ output, multisigDataFromBytes L bytes n = .ok output → output.1.Valid) ↔
      SoundMultisig L n bytes := by
  by_cases hmin : MIN_MULTISIG_BYTES_LEN ≤ bytes.length
  · by_cases hauth : Authentic L.key bytes
    · simp only [multisigDataFromBytes_eq_ok_iff L hmin hauth]
      constructor
      · rintro ⟨hfault, hvalid⟩
        exact ⟨hmin, fun _ => ⟨fun h =>
          hfault _ ((multisigDataFromBytes_overflow_iff L hmin hauth n).2 h), fun h =>
          hfault _ ((multisigDataFromBytes_assert_iff L hmin hauth n).2 h), hvalid⟩⟩
      · rintro ⟨-, h⟩
        obtain ⟨hoverrun, habort, hvalid⟩ := h hauth
        refine ⟨fun f hf => ?_, hvalid⟩
        cases f with
        | overflow => exact hoverrun ((multisigDataFromBytes_overflow_iff L hmin hauth n).1 hf)
        | assert => exact habort ((multisigDataFromBytes_assert_iff L hmin hauth n).1 hf)
    · have hrun : multisigDataFromBytes L bytes n = .error .refused := by
        rw [multisigDataFromBytes, if_neg (Nat.not_lt.2 hmin), if_pos hauth]
      rw [hrun]
      exact ⟨fun _ => ⟨hmin, fun h => absurd h hauth⟩,
        fun _ => ⟨fun f hf => (by cases hf), fun output h => (by cases h)⟩⟩
  · have hrun : multisigDataFromBytes L bytes n = .error (.fault .assert) := by
      rw [multisigDataFromBytes, if_pos (Nat.not_le.1 hmin)]
    exact ⟨fun h => absurd hrun (h.1 _), fun h => absurd h.1 hmin⟩

theorem loadsSoundly_multisig_iff (stored : Registrations) (name : Bytes) (n : ℕ) :
    LoadsSoundly (StoresMultisig L stored name n) (fun output => output.1.Valid)
        (multisigLoadFromStorage L stored name n) ↔
      ∀ bytes, stored.readBlob name MAX_MULTISIG_BYTES_LEN = some bytes →
        SoundMultisig L n bytes := by
  rw [multisigLoadFromStorage, loadsSoundly_loadRecord_iff]
  · simp only [multisigDataFromBytes_sound_iff]
  · rintro hnone output ⟨bytes, hbytes, -⟩
    rw [hnone] at hbytes
    cases hbytes
  · intro bytes hbytes hfault output
    have hmin : MIN_MULTISIG_BYTES_LEN ≤ bytes.length := by
      by_contra hshort
      refine hfault .assert ?_
      rw [multisigDataFromBytes, if_pos (Nat.not_le.1 hshort)]
    constructor
    · rintro ⟨bytes', hbytes', hauth, houtput⟩
      rw [hbytes] at hbytes'
      obtain rfl := Option.some.inj hbytes'
      exact (multisigDataFromBytes_eq_ok_iff L hmin hauth).2 houtput
    · intro hrun
      have hauth : Authentic L.key bytes := by
        by_contra hauth
        rw [multisigDataFromBytes, if_neg (Nat.not_lt.2 hmin), if_pos hauth] at hrun
        cases hrun
      exact ⟨bytes, hbytes, hauth, (multisigDataFromBytes_eq_ok_iff L hmin hauth).1 hrun⟩
  · exact fun _ => multisigDataInvalid_eq_false_iff

theorem descriptorFromBytes_sound_iff {key : MasterKey} {bytes : Bytes} :
    (∀ f, descriptorFromBytes key bytes ≠ .error (.fault f)) ↔ AdmissibleRecord key bytes := by
  by_cases hmin : MIN_DESCRIPTOR_BYTES_LEN ≤ bytes.length
  · rw [← wellHandled_iff key hmin]
    constructor
    · intro hfault
      cases hrun : descriptorFromBytes key bytes with
      | error e =>
          cases e with
          | refused => exact .inl hrun
          | fault f => exact absurd hrun (hfault f)
      | ok output =>
          have hlen : HMAC_SHA256_LEN ≤ bytes.length := by
            by_contra hshort
            refine hfault .overflow ?_
            rw [descriptorFromBytes, if_neg (Nat.not_lt.2 hmin), if_pos (Nat.not_le.1 hshort)]
          have hauth : Authentic key bytes := by
            by_contra hauth
            rw [descriptorFromBytes, if_neg (Nat.not_lt.2 hmin), if_neg (Nat.not_lt.2 hlen),
              if_pos hauth] at hrun
            cases hrun
          exact .inr ⟨output, hrun, hauth, (descriptorFromBytes_eq_ok_iff hlen hauth).1 hrun⟩
    · intro h f hf
      rcases h with h | ⟨output, h, -⟩
      · rw [h] at hf
        cases hf
      · rw [h] at hf
        cases hf
  · have hrun : descriptorFromBytes key bytes = .error (.fault .assert) := by
      rw [descriptorFromBytes, if_pos (Nat.not_le.1 hmin)]
    refine ⟨fun h => absurd hrun (h _), fun h => absurd ?_ hmin⟩
    have hlen := h.1
    rw [HMAC_SHA256_LEN] at hlen
    rw [MIN_DESCRIPTOR_BYTES_LEN]
    omega

theorem loadsSoundly_descriptor_iff (key : MasterKey) (stored : Registrations) (name : Bytes) :
    LoadsSoundly (StoresDescriptor key stored name) (fun _ => True)
        (descriptorLoadFromStorage key stored name) ↔
      ∀ bytes, stored.readBlob name MAX_DESCRIPTOR_BYTES_LEN = some bytes →
        AdmissibleRecord key bytes := by
  rw [descriptorLoadFromStorage, loadsSoundly_loadRecord_iff]
  · simp only [implies_true, and_true, descriptorFromBytes_sound_iff]
  · rintro hnone output ⟨bytes, hbytes, -⟩
    rw [hnone] at hbytes
    cases hbytes
  · intro bytes hbytes hfault output
    have hlen : HMAC_SHA256_LEN ≤ bytes.length := (descriptorFromBytes_sound_iff.1 hfault).1
    constructor
    · rintro ⟨bytes', hbytes', hauth, houtput⟩
      rw [hbytes] at hbytes'
      obtain rfl := Option.some.inj hbytes'
      exact (descriptorFromBytes_eq_ok_iff hlen hauth).2 houtput
    · intro hrun
      have hauth : Authentic key bytes := by
        by_contra hauth
        have hrefused := (descriptorFromBytes_refused_iff hlen).2 fun h => absurd h hauth
        rw [hrefused] at hrun
        cases hrun
      exact ⟨bytes, hbytes, hauth, (descriptorFromBytes_eq_ok_iff hlen hauth).1 hrun⟩
  · intro output
    have hscript := output.script.fits
    have hvalues := output.values.2
    simp only [descriptorDataInvalid, Bool.or_eq_false_iff, decide_eq_false_iff_not, Nat.not_lt,
      iff_true]
    exact ⟨Nat.le_of_lt hscript, hvalues⟩

/-! ### The result -/

/-- **The callers of a loader can rely on it exactly when what is stored under the name is a record
that the decoder gets through, and, for a multisig, one of valid fields, or nothing that fits the
buffer.** -/
theorem loadFromStorage_iff (stored : Registrations) (name : Bytes) (n : ℕ) :
    (LoadsSoundly (StoresMultisig L stored name n) (fun output => output.1.Valid)
        (multisigLoadFromStorage L stored name n) ↔
      ∀ bytes, stored.readBlob name MAX_MULTISIG_BYTES_LEN = some bytes →
        SoundMultisig L n bytes) ∧
      (LoadsSoundly (StoresDescriptor L.key stored name) (fun _ => True)
          (descriptorLoadFromStorage L.key stored name) ↔
        ∀ bytes, stored.readBlob name MAX_DESCRIPTOR_BYTES_LEN = some bytes →
          AdmissibleRecord L.key bytes) :=
  ⟨loadsSoundly_multisig_iff L stored name n, loadsSoundly_descriptor_iff L.key stored name⟩

end Sound

/-- An older record of one key with a threshold of two. -/
def overThresholdBody : Bytes := [1, 4, 0, 2] ++ List.replicate 78 0

/-- That record under every name, with the hash that a wallet gives it. -/
def overThreshold (L : MultisigLib Unit) : Registrations := fun _ =>
  some (overThresholdBody ++ L.key.hmacSha256 overThresholdBody)

theorem overThreshold_loads (L : MultisigLib Unit) (name : Bytes) :
    ∃ output, multisigLoadFromStorage L (overThreshold L) name 0 =
        .ok ⟨true, some output, some "Multisig wallet data invalid"⟩ ∧
      output.1.threshold = 2 ∧ output.1.xpubs.1.length = 1 := by
  have hauth : Authentic L.key (overThresholdBody ++ L.key.hmacSha256 overThresholdBody) :=
    authentic_append L.key (by decide)
  have hlen : (overThresholdBody ++ L.key.hmacSha256 overThresholdBody).length = 114 := by
    rw [List.length_append, L.key.length_hmacSha256]
    rfl
  have hmin : MIN_MULTISIG_BYTES_LEN ≤
      (overThresholdBody ++ L.key.hmacSha256 overThresholdBody).length := by
    rw [hlen]
    decide
  let header : MultisigHeader :=
    { version := 1, variant := 4, sorted := false, threshold := 2, masterBlindingKey := none }
  let xpubs : { xpubs : List Xpub // xpubs.length ≤ MAX_ALLOWED_SIGNERS } :=
    ⟨[⟨List.replicate 78 0, by decide⟩], by decide⟩
  have hrun : multisigDataFromBytes L (overThresholdBody ++ L.key.hmacSha256 overThresholdBody) 0 =
      .ok (header.record xpubs, [], 0) := by
    have hword : HeaderWord header [1, 4, 0, 2] := ⟨by decide, fun _ => rfl, 0, rfl, rfl⟩
    refine (multisigDataFromBytes_eq_ok_iff L hmin hauth).2 ⟨header, [1, 4, 0, 2],
      List.replicate 78 0, L.key.hmacSha256 overThresholdBody, hword, ?_,
      L.key.length_hmacSha256 _, rfl⟩
    rw [SignerBytes, if_pos (by decide)]
    exact ⟨xpubs, by decide, rfl, rfl⟩
  have hread : (overThreshold L).readBlob name MAX_MULTISIG_BYTES_LEN =
      some (overThresholdBody ++ L.key.hmacSha256 overThresholdBody) := by
    rw [Registrations.readBlob, overThreshold]
    dsimp only
    rw [hlen, if_pos (by decide)]
  refine ⟨(header.record xpubs, [], 0), ?_, rfl, rfl⟩
  rw [multisigLoadFromStorage, hread]
  simp only [loadRecord, hrun]
  rfl

/-- Such a record is loaded, together with the message that its data is invalid; and a record cut to
nine bytes stops the device. -/
theorem loadFromStorage_invalid :
    (∃ output, multisigLoadFromStorage singleMultisigLib (overThreshold singleMultisigLib)
        (ascii "main") 0 = .ok ⟨true, some output, some "Multisig wallet data invalid"⟩ ∧
      output.1.threshold = 2 ∧ output.1.xpubs.1.length = 1) ∧
    ¬LoadsSoundly
        (StoresMultisig singleMultisigLib (overThreshold singleMultisigLib) (ascii "main") 0)
        (fun output => output.1.Valid)
        (multisigLoadFromStorage singleMultisigLib (overThreshold singleMultisigLib)
          (ascii "main") 0) ∧
      multisigLoadFromStorage singleMultisigLib (fun _ => some (overThresholdBody.take 9))
          (ascii "main") 0 = .error .assert := by
  refine ⟨overThreshold_loads singleMultisigLib (ascii "main"), fun hsound => ?_, rfl⟩
  obtain ⟨output, hrun, -, -⟩ := overThreshold_loads singleMultisigLib (ascii "main")
  have hresult := hsound.errmsg _ hrun (Option.some_ne_none _)
  exact Bool.noConfusion hresult

end Jade
