/-
**The record of a registered multisig wallet (`multisig.c`).**

The record of a multisig wallet has come in four versions.  The first three hold the key of every
signer, already derived along its fixed path, one after another up to the keyed hash.  The fourth
holds what was registered: the fingerprint, the derivation, the key and the additional path of every
signer, and derives the key again whenever the record is read.

The older signers are counted by the length of the record before any is copied.  The newer ones are
copied as their lengths say, and only then compared with the length of the record.

Main definitions:

* `Jade.Signer`, `Jade.MultisigRecord` — the values;
* `Jade.MultisigLib` — the libraries below;
* `Jade.multisigDataToBytes`, `Jade.multisigDataFromBytes` — writing and reading a record;
* `Jade.IsLegacyRecord` — the records of the first three versions;
* `Jade.Overruns` — the lengths of the signers lead past the end of the record.

Main results:

* `Jade.reads_readSigner`, `Jade.stops_readSigner` — one signer;
* `Jade.multisig_record_exact` — **a registered multisig is read back, as far as its keys can be
  derived; older records are read as they were written; and a record whose hash is right is left
  exactly when the lengths of its signers lead past its end**.
-/

import Jade.Registration.Record

set_option relaxedAutoImplicit false
set_option autoImplicit false

namespace Jade

open Exec Cursor

/-! ### Fields of fixed and of bounded size -/

def BIP32_KEY_FINGERPRINT_LEN : ℕ := 4
def MULTISIG_MASTER_BLINDING_KEY_SIZE : ℕ := HMAC_SHA512_LEN / 2

/-- An array of `len` bytes. -/
abbrev Sized (len : ℕ) : Type := { bytes : Bytes // bytes.length = len }

/-- A serialised extended key. -/
abbrev Xpub : Type := Sized BIP32_SERIALIZED_LEN

/-- A path with its length, as far as the array goes. -/
abbrev PathArray : Type := { path : List UInt32 // path.length ≤ MAX_PATH_LEN }

/-- The elements of a path, as they lie in memory. -/
def pathBytes (path : List UInt32) : Bytes := path.flatMap fun n => Bytes.ofNatLE 4 n.toNat

/-- A path with the number of its elements in front. -/
def pathWord (path : PathArray) : Bytes := UInt8.ofNat path.1.length :: pathBytes path.1

def readUInt32 : RecordReader UInt32 := do
  let n ← readNat 4
  pure (UInt32.ofNat n)

def readPath : RecordReader PathArray := do
  let len ← readByte
  check (len.toNat ≤ MAX_PATH_LEN) .refused
  readSlots (.fault .overflow) (fun _ => readUInt32) MAX_PATH_LEN len.toNat

theorem reads_readUInt32 : Reads readUInt32 (fun n word => word = Bytes.ofNatLE 4 n.toNat) := by
  refine (reads_bind (reads_readNat 4) (fun n => reads_pure _)).congr ?_
  intro n word
  constructor
  · rintro ⟨m, _, _, ⟨hlt, rfl⟩, ⟨rfl, rfl⟩, rfl⟩
    rw [List.append_nil, UInt32.toNat_ofNat_of_lt' hlt]
  · rintro rfl
    exact ⟨n.toNat, _, [], ⟨n.toNat_lt, rfl⟩, ⟨(UInt32.ofNat_toNat).symm, rfl⟩,
      (List.append_nil _).symm⟩

theorem reads_readPath : Reads readPath (fun path word => word = pathWord path) := by
  refine (reads_bind (reads_next _) (fun len => reads_bind (reads_check _ _) (fun _ =>
    reads_readSlots _ (fun _ => reads_readUInt32) MAX_PATH_LEN len.toNat))).congr ?_
  intro path word
  constructor
  · rintro ⟨len, _, _, rfl, ⟨_, _, words, ⟨-, rfl⟩, ⟨hlen, hspell⟩, rfl⟩, rfl⟩
    rw [pathWord, hlen, UInt8.ofNat_toNat, spells_iff.1 hspell]
    rfl
  · rintro rfl
    have hle : path.1.length ≤ 16 := path.2
    have hnum : (UInt8.ofNat path.1.length).toNat = path.1.length := by
      rw [UInt8.toNat_ofNat']
      omega
    refine ⟨_, _, pathBytes path.1, rfl, ⟨(), [], _, ⟨decide_eq_true ?_, rfl⟩,
      ⟨hnum.symm, spells_iff.2 rfl⟩, rfl⟩, rfl⟩
    rw [hnum]
    exact path.2

/-- The record ends within a path. -/
def PathCut (bs : Bytes) : Prop :=
  bs = [] ∨ ∃ (len : UInt8) (rest : Bytes), len.toNat ≤ MAX_PATH_LEN ∧ rest.length < len.toNat * 4 ∧
    bs = len :: rest

theorem length_pathBytes (path : List UInt32) : (pathBytes path).length = path.length * 4 := by
  induction path with
  | nil => rfl
  | cons n path ih =>
      rw [pathBytes, List.flatMap_cons, ← pathBytes, List.length_append, ih, Bytes.length_ofNatLE,
        List.length_cons]
      omega

theorem stops_readUInt32 :
    Stops readUInt32 (.fault .overflow) (fun bs => bs.length < 4) := by
  refine (stops_bind (reads_readNat 4) (stops_bind (reads_take _ 4) (stops_take 4)
    (fun _ => stops_pure _)) (fun n => stops_pure _)).congr ?_
  intro bs
  simp

theorem stops_readPath : Stops readPath (.fault .overflow) PathCut := by
  have hwords : ∀ len : UInt8, Stops (check (len.toNat ≤ MAX_PATH_LEN) .refused >>= fun _ =>
      readSlots (.fault .overflow) (fun _ => readUInt32) MAX_PATH_LEN len.toNat) (.fault .overflow)
      (fun rest => decide (len.toNat ≤ MAX_PATH_LEN) = true ∧ rest.length < len.toNat * 4) := by
    intro len
    refine stops_guard (by decide) (fun hle => stops_readSlots_fixed _ reads_readUInt32
      stops_readUInt32 ?_ ?_ _ _ (of_decide_eq_true hle))
    · rintro n word rfl
      exact Bytes.length_ofNatLE 4 _
    · intro word hword
      refine ⟨UInt32.ofNat (Bytes.toNatLE word), ?_⟩
      have hlt := Bytes.toNatLE_lt word
      rw [hword] at hlt
      rw [UInt32.toNat_ofNat_of_lt' hlt, ← hword, Bytes.ofNatLE_toNatLE]
  refine (stops_bind (reads_next _) stops_next hwords).congr ?_
  intro bs
  constructor
  · rintro (⟨-, rfl⟩ | ⟨len, _, rest, rfl, ⟨hle, hlt⟩, rfl⟩)
    · exact .inl rfl
    · exact .inr ⟨len, rest, of_decide_eq_true hle, hlt, rfl⟩
  · rintro (rfl | ⟨len, rest, hle, hlt, rfl⟩)
    · exact .inl ⟨rfl, rfl⟩
    · exact .inr ⟨len, _, rest, rfl, ⟨decide_eq_true hle, hlt⟩, rfl⟩

/-! ### Signers -/

/-- The path of a signer behind its key: the elements, or a text with wildcards. -/
inductive SignerPath
  | elements (path : PathArray)
  | string (text : CString 64)
  deriving DecidableEq

/-- `path_len` -/
def SignerPath.length : SignerPath → ℕ
  | .elements path => path.1.length
  | .string text => text.chars.length

/-- `signer_t` -/
structure Signer where
  fingerprint : Sized BIP32_KEY_FINGERPRINT_LEN
  derivation : PathArray
  xpub : CString 120
  path : SignerPath
  deriving DecidableEq

/-- `multisig_data_t` -/
structure MultisigRecord where
  /-- whatever byte the record has -/
  variant : UInt8
  sorted : Bool
  threshold : UInt8
  masterBlindingKey : Option (Sized MULTISIG_MASTER_BLINDING_KEY_SIZE)
  xpubs : { xpubs : List Xpub // xpubs.length ≤ MAX_ALLOWED_SIGNERS }
  deriving DecidableEq

/-- The libraries below.  Writing out the bytes that a text was decoded to gives the text back. -/
structure MultisigLib (K : Type) where
  key : MasterKey
  wallet : Wallet K
  /-- `bip32_key_serialize` of a public key -/
  bip32KeySerialize : K → Option Xpub
  /-- `wally_base58_to_bytes` and `wally_base58_from_bytes`, with a checksum -/
  base58ToBytes : Bytes → Option Bytes
  base58FromBytes : Bytes → Option Bytes
  base58FromBytes_toBytes : ∀ {text bytes}, base58ToBytes text = some bytes →
    base58FromBytes bytes = some text

section Model

variable {K : Type} (L : MultisigLib K)

/-! ### Writing -/

/-- `script_variant_t`, as persisted -/
def scriptVariantByte : ScriptVariant → UInt8
  | .green => 0
  | .p2pkh => 1
  | .p2wpkh => 2
  | .p2wpkhP2sh => 3
  | .multiP2wsh => 4
  | .multiP2sh => 5
  | .multiP2wshP2sh => 6
  | .p2tr => 7

/-- The bytes of a signer. -/
def signerWord (fingerprint : Sized BIP32_KEY_FINGERPRINT_LEN) (derivation : PathArray) (xpub : Xpub)
    (path : PathArray) : Bytes :=
  fingerprint.1 ++ pathWord derivation ++ xpub.1 ++ pathWord path

/-- One turn of the loop of `multisig_data_to_bytes`: what is written of a signer. -/
def signerToBytes (signer : Signer) : Option Bytes :=
  match L.base58ToBytes signer.xpub.chars with
  | none => none
  | some written =>
      if h : written.length = BIP32_SERIALIZED_LEN then
        match signer.path with
        | .string _ => none
        | .elements path => some (signerWord signer.fingerprint signer.derivation ⟨written, h⟩ path)
      else none

/-- The loop of `multisig_data_to_bytes`, with `counted_path_elements`. -/
def signersToBytes (total : ℕ) : List Signer → ℕ → Except Fault (Option Bytes)
  | [], counted => do
      jadeVerify (counted = total)
      pure (some [])
  | signer :: signers, counted => do
      let counted := counted + signer.derivation.1.length + signer.path.length
      jadeVerify (counted ≤ total)
      match signerToBytes L signer with
      | none => pure none
      | some bytes => do
          let rest ← signersToBytes total signers counted
          pure (rest.map (bytes ++ ·))

/-- The record in front of the signers: the flag is there from version 1 on, the blinding key from
version 2 on. -/
def multisigHead (version variant sorted threshold : UInt8) (masterBlindingKey : Bytes) : Bytes :=
  [version, variant] ++ (if 0 < version then [sorted] else []) ++ [threshold] ++
    if 1 < version then UInt8.ofNat masterBlindingKey.length :: masterBlindingKey else []

def CURRENT_MULTISIG_RECORD_VERSION : UInt8 := 3

/-- The smallest valid multisig record, for sanity checking: version 1, 1of1. -/
def MIN_MULTISIG_BYTES_LEN : ℕ := 4 + 78 + 32

/-- `MULTISIG_BYTES_LEN` -/
def multisigBytesLen (masterBlindingKeyLen numSigners totalNumPathElements : ℕ) : ℕ :=
  6 + masterBlindingKeyLen + numSigners * (6 + BIP32_SERIALIZED_LEN) + totalNumPathElements * 4 +
    HMAC_SHA256_LEN

/-- `sorted`, as a byte -/
def sortedByte (sorted : Bool) : UInt8 := if sorted then 1 else 0

/-- `multisig_data_to_bytes`, into a buffer of `outputLen` bytes. -/
def multisigDataToBytes (variant : ScriptVariant) (sorted : Bool) (threshold : UInt8)
    (masterBlindingKey : Bytes) (signers : List Signer) (totalNumPathElements outputLen : ℕ) :
    Except Fault (Option Bytes) := do
  jadeVerify (0 < threshold)
  jadeVerify (masterBlindingKey.isEmpty ||
    masterBlindingKey.length = MULTISIG_MASTER_BLINDING_KEY_SIZE)
  jadeVerify (threshold.toNat ≤ signers.length)
  jadeVerify (signers.length ≤ MAX_ALLOWED_SIGNERS)
  jadeVerify (totalNumPathElements ≤ signers.length * 2 * MAX_PATH_LEN)
  jadeVerify (outputLen =
    multisigBytesLen masterBlindingKey.length signers.length totalNumPathElements)
  match ← signersToBytes L totalNumPathElements signers 0 with
  | none => pure none
  | some signerBytes => do
      let body := multisigHead CURRENT_MULTISIG_RECORD_VERSION (scriptVariantByte variant)
        (sortedByte sorted) threshold masterBlindingKey ++
          (UInt8.ofNat signers.length :: signerBytes)
      jadeVerify (body.length + HMAC_SHA256_LEN = outputLen)
      pure ((walletHmacWithMasterKey L.key body).map (body ++ ·))

/-! ### Reading -/

/-- The fields in front of the signers. -/
structure MultisigHeader where
  version : UInt8
  variant : UInt8
  sorted : Bool
  threshold : UInt8
  masterBlindingKey : Option (Sized MULTISIG_MASTER_BLINDING_KEY_SIZE)

/-- Version 1 adds the 'sorted' flag, which otherwise defaults to false. -/
def readSorted (version : UInt8) : RecordReader Bool :=
  if 0 < version then do
    let sorted ← readByte
    pure (sorted != 0)
  else pure false

/-- Version 2 adds the 'blinding key' data, which otherwise defaults to none. -/
def readBlindingKey (version : UInt8) :
    RecordReader (Option (Sized MULTISIG_MASTER_BLINDING_KEY_SIZE)) :=
  if 1 < version then do
    let keylen ← readByte
    if keylen = 0 then pure none
    else do
      check (keylen.toNat = MULTISIG_MASTER_BLINDING_KEY_SIZE) .refused
      let masterBlindingKey ← readBytes MULTISIG_MASTER_BLINDING_KEY_SIZE
      pure (some masterBlindingKey)
  else pure none

/-- `multisig_data_from_bytes`, up to the signers. -/
def readMultisigHeader : RecordReader MultisigHeader := do
  let version ← readByte
  check (version ≤ CURRENT_MULTISIG_RECORD_VERSION) .refused
  let variant ← readByte
  let sorted ← readSorted version
  let threshold ← readByte
  let masterBlindingKey ← readBlindingKey version
  pure { version, variant, sorted, threshold, masterBlindingKey }

/-- The key put before the user. -/
def xpubText (xpub : Xpub) : Except ReadStop (CString 120) :=
  match L.base58FromBytes xpub.1 with
  | none => .error .refused
  | some text => if h : text.length < 120 then .ok ⟨text, h⟩ else .error .refused

/-- The key that addresses are made from: the one of the record, derived along the additional
path. -/
def outputXpub (xpub : Xpub) (path : PathArray) : Except ReadStop Xpub :=
  if path.1.isEmpty then .ok xpub
  else
    match walletDerivePubkey L.wallet xpub.1 path.1 with
    | .error f => .error (.fault f)
    | .ok none => .error .refused
    | .ok (some hdkey) =>
        match L.bip32KeySerialize hdkey with
        | none => .error .refused
        | some output => .ok output

/-- One turn of the loop of `read_complete_signers`; `want` says whether there is room for the
details. -/
def readSigner (want : Bool) : RecordReader (Xpub × Option Signer) := do
  let fingerprint ← readBytes BIP32_KEY_FINGERPRINT_LEN
  let derivation ← readPath
  let xpub ← readBytes BIP32_SERIALIZED_LEN
  let text ← lift (if want then (xpubText L xpub).map some else .ok none)
  let path ← readPath
  let output ← lift (outputXpub L xpub path)
  pure (output, text.map fun text =>
    { fingerprint, derivation, xpub := text, path := .elements path })

/-- `read_complete_signers`, up to the check of the length. -/
def readCompleteSigners (signerDetailsLen : ℕ) :
    RecordReader { signers : List (Xpub × Option Signer) // signers.length ≤ MAX_ALLOWED_SIGNERS } :=
  do
    let numSigners ← readByte
    check (numSigners ≠ 0 && numSigners.toNat ≤ MAX_ALLOWED_SIGNERS) .refused
    readSlots (.fault .overflow) (fun i => readSigner L (i < signerDetailsLen)) MAX_ALLOWED_SIGNERS
      numSigners.toNat

/-- `read_simple_signers` -/
def readSimpleSigners (signerBytes : Bytes) :
    Except ReadStop { xpubs : List Xpub // xpubs.length ≤ MAX_ALLOWED_SIGNERS } :=
  let numXpubs := signerBytes.length / BIP32_SERIALIZED_LEN
  if numXpubs = 0 ∨ MAX_ALLOWED_SIGNERS < numXpubs then .error .refused
  else if numXpubs * BIP32_SERIALIZED_LEN ≠ signerBytes.length then .error .refused
  else
    match (readSlots (.fault .overflow) (fun _ => readBytes BIP32_SERIALIZED_LEN)
        MAX_ALLOWED_SIGNERS numXpubs).run signerBytes with
    | .error e _ => .error e
    | .ok xpubs _ => .ok xpubs

/-- The record of a header and its keys. -/
def MultisigHeader.record (h : MultisigHeader)
    (xpubs : { xpubs : List Xpub // xpubs.length ≤ MAX_ALLOWED_SIGNERS }) : MultisigRecord :=
  { variant := h.variant, sorted := h.sorted, threshold := h.threshold,
    masterBlindingKey := h.masterBlindingKey, xpubs }

/-- What `multisig_data_from_bytes` returns: the record, the details and the number of signers. -/
abbrev MultisigOutput : Type := MultisigRecord × List Signer × ℕ

/-- `multisig_data_from_bytes`, from the signers on. -/
def multisigSignersFromBytes (header : MultisigHeader) (signerDetailsLen : ℕ) (bytes : Bytes) :
    Except ReadStop MultisigOutput :=
  -- the smallest record rules out that this wraps around
  let signerBytesLen := bytes.length - HMAC_SHA256_LEN
  if signerBytesLen = 0 then .error (.fault .assert)
  else if header.version < 3 then
    (readSimpleSigners (bytes.take signerBytesLen)).map fun xpubs => (header.record xpubs, [], 0)
  else
    match (readCompleteSigners L signerDetailsLen).run bytes with
    | .error e _ => .error e
    | .ok signers rest =>
        if rest.length ≠ HMAC_SHA256_LEN then .error .refused
        else
          .ok (header.record ⟨signers.1.map (·.1), by simpa using signers.2⟩,
            signers.1.filterMap (·.2), signers.1.length)

/-- `multisig_data_from_bytes`, with room for the details of `signerDetailsLen` signers. -/
def multisigDataFromBytes (bytes : Bytes) (signerDetailsLen : ℕ) : Except ReadStop MultisigOutput :=
  if bytes.length < MIN_MULTISIG_BYTES_LEN then .error (.fault .assert)
  else if ¬ Authentic L.key bytes then .error .refused
  else
    match readMultisigHeader.run bytes with
    | .error e _ => .error e
    | .ok header rest => multisigSignersFromBytes L header signerDetailsLen rest

/-! ### The header -/

/-- The bytes of a blinding key; there are none when there is no key. -/
def blindingKeyBytes (k : Option (Sized MULTISIG_MASTER_BLINDING_KEY_SIZE)) : Bytes :=
  k.elim [] (·.1)

/-- The bytes a header is read from. -/
def HeaderWord (h : MultisigHeader) (word : Bytes) : Prop :=
  h.version ≤ CURRENT_MULTISIG_RECORD_VERSION ∧ (¬ 1 < h.version → h.masterBlindingKey = none) ∧
    ∃ sorted : UInt8, h.sorted = (decide (0 < h.version) && sorted != 0) ∧
      word = multisigHead h.version h.variant sorted h.threshold
        (blindingKeyBytes h.masterBlindingKey)

theorem reads_readSorted (version : UInt8) : Reads (readSorted version) (fun s word =>
    ∃ b : UInt8, s = (decide (0 < version) && b != 0) ∧
      word = if 0 < version then [b] else []) := by
  rw [readSorted]
  by_cases h : 0 < version
  · simp only [if_pos h]
    refine (reads_bind (reads_next _) (fun b => reads_pure _)).congr ?_
    intro s word
    constructor
    · rintro ⟨b, _, _, rfl, ⟨rfl, rfl⟩, rfl⟩
      exact ⟨b, by simp [h], rfl⟩
    · rintro ⟨b, rfl, rfl⟩
      exact ⟨b, _, [], rfl, ⟨by simp [h], rfl⟩, rfl⟩
  · simp only [if_neg h]
    refine (reads_pure false).congr ?_
    intro s word
    simp [h]

theorem reads_readBlindingKey (version : UInt8) : Reads (readBlindingKey version) (fun k word =>
    (¬ 1 < version → k = none) ∧ word = if 1 < version then
      UInt8.ofNat (blindingKeyBytes k).length :: blindingKeyBytes k else []) := by
  rw [readBlindingKey]
  by_cases h : 1 < version
  · simp only [if_pos h]
    have hkey : ∀ keylen : UInt8, Reads
        (if keylen = 0 then
            (pure none : RecordReader (Option (Sized MULTISIG_MASTER_BLINDING_KEY_SIZE)))
          else do
            check (keylen.toNat = MULTISIG_MASTER_BLINDING_KEY_SIZE) .refused
            let masterBlindingKey ← readBytes MULTISIG_MASTER_BLINDING_KEY_SIZE
            pure (some masterBlindingKey))
        (fun k word => keylen.toNat = (blindingKeyBytes k).length ∧ word = blindingKeyBytes k) := by
      intro keylen
      by_cases hzero : keylen = 0
      · simp only [if_pos hzero]
        refine (reads_pure none).congr ?_
        intro k word
        constructor
        · rintro ⟨rfl, rfl⟩
          exact ⟨by rw [hzero]; rfl, rfl⟩
        · rintro ⟨hlen, rfl⟩
          cases k with
          | none => exact ⟨rfl, rfl⟩
          | some k =>
              have hk : (0 : UInt8).toNat = k.1.length := by rw [← hzero]; exact hlen
              rw [k.2] at hk
              cases hk
      · simp only [if_neg hzero]
        refine (reads_bind (reads_check _ _) (fun _ => reads_bind (reads_take _ _) (fun k =>
          reads_pure _))).congr ?_
        intro k word
        constructor
        · rintro ⟨_, _, _, ⟨hlen, rfl⟩, ⟨k, _, _, rfl, ⟨rfl, rfl⟩, rfl⟩, rfl⟩
          exact ⟨(of_decide_eq_true hlen).trans k.2.symm, List.append_nil _⟩
        · rintro ⟨hlen, rfl⟩
          cases k with
          | none => exact absurd (UInt8.toNat_inj.1 hlen) hzero
          | some k =>
              exact ⟨(), [], _, ⟨decide_eq_true (hlen.trans k.2), rfl⟩, ⟨k, _, [], rfl,
                ⟨rfl, rfl⟩, (List.append_nil _).symm⟩, rfl⟩
    refine (reads_bind (reads_next _) hkey).congr ?_
    intro k word
    constructor
    · rintro ⟨keylen, _, _, rfl, ⟨hlen, rfl⟩, rfl⟩
      refine ⟨fun hn => absurd h hn, ?_⟩
      rw [← hlen, UInt8.ofNat_toNat]
      rfl
    · rintro ⟨-, rfl⟩
      have hlt : (blindingKeyBytes k).length < 256 := by
        cases k with
        | none => decide
        | some k =>
            rw [blindingKeyBytes, Option.elim_some, k.2]
            decide
      exact ⟨_, _, _, rfl, ⟨UInt8.toNat_ofNat_of_lt' hlt, rfl⟩, rfl⟩
  · simp only [if_neg h]
    refine (reads_pure none).congr ?_
    intro k word
    simp [h]

theorem reads_readMultisigHeader : Reads readMultisigHeader HeaderWord := by
  refine (reads_bind (reads_next _) (fun version => reads_bind (reads_check _ _) (fun _ =>
    reads_bind (reads_next _) (fun variant => reads_bind (reads_readSorted version) (fun sorted =>
      reads_bind (reads_next _) (fun threshold => reads_bind (reads_readBlindingKey version)
        (fun k => reads_pure _))))))).congr ?_
  intro h word
  constructor
  · rintro ⟨version, _, _, rfl, ⟨_, _, _, ⟨hversion, rfl⟩, ⟨variant, _, _, rfl, ⟨sorted, _, _,
      ⟨b, hb, rfl⟩, ⟨threshold, _, _, rfl, ⟨k, _, _, ⟨hk, rfl⟩, ⟨rfl, rfl⟩, rfl⟩, rfl⟩, rfl⟩, rfl⟩,
      rfl⟩, rfl⟩
    exact ⟨of_decide_eq_true hversion, hk, b, hb, by simp [multisigHead]⟩
  · rintro ⟨hversion, hk, b, hb, rfl⟩
    refine ⟨h.version, _, _, rfl, ⟨(), [], _, ⟨decide_eq_true hversion, rfl⟩, ⟨h.variant, _, _, rfl,
      ⟨h.sorted, _, _, ⟨b, hb, rfl⟩, ⟨h.threshold, _, _, rfl, ⟨h.masterBlindingKey, _, [], ⟨hk, rfl⟩,
        ⟨rfl, rfl⟩, rfl⟩, rfl⟩, rfl⟩, rfl⟩, rfl⟩, ?_⟩
    simp [multisigHead]

/-- The header and a blinding key take up 37 bytes at most. -/
theorem needs_readMultisigHeader : Needs (.fault .overflow) readMultisigHeader 37 := by
  have hsorted : ∀ version, Needs (.fault .overflow) (readSorted version) 1 := fun version =>
    Needs.ite (Needs.next.bind fun _ => Needs.pure _ 0) (Needs.pure _ 1)
  have hkey : ∀ version, Needs (.fault .overflow) (readBlindingKey version) 33 := fun version =>
    Needs.ite
      (Needs.next.bind (m := 32) fun keylen => Needs.ite (Needs.pure _ _)
        ((Needs.check _ (by decide)).bind fun _ => (Needs.take _).bind fun _ => Needs.pure _ 0))
      (Needs.pure _ _)
  exact Needs.next.bind fun version => (Needs.check _ (by decide)).bind fun _ =>
    Needs.next.bind fun _ => (hsorted version).bind fun _ => Needs.next.bind fun _ =>
      (hkey version).bind fun _ => Needs.pure _ 0

/-- No assertion of the header fails. -/
theorem stops_readMultisigHeader :
    Stops readMultisigHeader (.fault .assert) (fun _ => False) := by
  have hbyte : Stops readByte (.fault .assert) (fun _ => False) :=
    stops_next.congr fun bs => by simp
  have hsorted : ∀ version, Stops (readSorted version) (.fault .assert) (fun _ => False) := by
    intro version
    rw [readSorted]
    split
    · exact (stops_bind (reads_next _) hbyte fun _ => stops_pure _).congr fun bs => by simp
    · exact stops_pure _
  have hcheck : ∀ c : Bool, Stops (check c ReadStop.refused : RecordReader Unit) (.fault .assert)
      (fun _ => False) := fun c => (stops_check c _).congr fun bs => by simp
  have hkey : ∀ version, Stops (readBlindingKey version) (.fault .assert) (fun _ => False) := by
    intro version
    have hsome : ∀ keylen : UInt8, Stops
        (if keylen = 0 then
            (pure none : RecordReader (Option (Sized MULTISIG_MASTER_BLINDING_KEY_SIZE)))
          else do
            check (keylen.toNat = MULTISIG_MASTER_BLINDING_KEY_SIZE) .refused
            let masterBlindingKey ← readBytes MULTISIG_MASTER_BLINDING_KEY_SIZE
            pure (some masterBlindingKey)) (.fault .assert) (fun _ => False) := by
      intro keylen
      split
      · exact stops_pure _
      · exact (stops_bind (reads_check _ _) (hcheck _) fun _ => stops_bind (reads_take _ _)
          (stops_readBytes_assert _) fun _ => stops_pure _).congr fun bs => by simp
    rw [readBlindingKey]
    split
    · exact (stops_bind (reads_next _) hbyte hsome).congr fun bs => by simp
    · exact stops_pure _
  exact (stops_bind (reads_next _) hbyte fun version => stops_bind (reads_check _ _) (hcheck _)
    fun _ => stops_bind (reads_next _) hbyte fun _ => stops_bind (reads_readSorted version)
      (hsorted version) fun _ => stops_bind (reads_next _) hbyte fun _ =>
        stops_bind (reads_readBlindingKey version) (hkey version) fun _ => stops_pure _).congr
    fun bs => by simp

/-! ### The signers -/

/-- What the bytes of a signer are read as: the key that is put out, and the details if there is room
for them. -/
def SignerRead (want : Bool) (read : Xpub × Option Signer) (word : Bytes) : Prop :=
  ∃ fingerprint derivation xpub path, word = signerWord fingerprint derivation xpub path ∧
    outputXpub L xpub path = .ok read.1 ∧
    if want then ∃ text, xpubText L xpub = .ok text ∧
      read.2 = some { fingerprint, derivation, xpub := text, path := .elements path }
    else read.2 = none

/-- The text of the key, when it is wanted. -/
theorem wantedText_eq_ok {want : Bool} {xpub : Xpub} {text : Option (CString 120)} :
    (if want then (xpubText L xpub).map some else .ok none) = .ok text ↔
      if want then ∃ t, xpubText L xpub = .ok t ∧ text = some t else text = none := by
  cases want with
  | false => simp [eq_comm]
  | true =>
      cases xpubText L xpub with
      | error e => simp [Except.map]
      | ok t => simp [Except.map, eq_comm]

theorem reads_readSigner (want : Bool) : Reads (readSigner L want) (SignerRead L want) := by
  refine (reads_bind (reads_take _ _) (fun fingerprint => reads_bind reads_readPath (fun derivation =>
    reads_bind (reads_take _ _) (fun xpub => reads_bind (reads_lift _) (fun text =>
      reads_bind reads_readPath (fun path => reads_bind (reads_lift _) (fun output =>
        reads_pure _))))))).congr ?_
  intro read word
  constructor
  · rintro ⟨fingerprint, _, _, rfl, ⟨derivation, _, _, rfl, ⟨xpub, _, _, rfl, ⟨text, _, _,
      ⟨htext, rfl⟩, ⟨path, _, _, rfl, ⟨output, _, _, ⟨houtput, rfl⟩, ⟨rfl, rfl⟩, rfl⟩, rfl⟩, rfl⟩,
      rfl⟩, rfl⟩, rfl⟩
    refine ⟨fingerprint, derivation, xpub, path, by simp [signerWord], houtput, ?_⟩
    rw [wantedText_eq_ok] at htext
    cases want with
    | false => simpa using htext
    | true =>
        obtain ⟨t, ht, rfl⟩ := htext
        exact ⟨t, ht, rfl⟩
  · rintro ⟨fingerprint, derivation, xpub, path, rfl, houtput, htext⟩
    have hlift : ∃ text, (if want then (xpubText L xpub).map some else .ok none) = .ok text ∧
        read.2 = text.map fun text =>
          { fingerprint, derivation, xpub := text, path := .elements path } := by
      simp only [wantedText_eq_ok]
      cases want with
      | false => exact ⟨none, rfl, htext⟩
      | true =>
          obtain ⟨t, ht, hread⟩ := htext
          exact ⟨some t, ⟨t, ht, rfl⟩, hread⟩
    obtain ⟨text, htext, hread⟩ := hlift
    refine ⟨fingerprint, _, _, rfl, ⟨derivation, _, _, rfl, ⟨xpub, _, _, rfl, ⟨text, [], _,
      ⟨htext, rfl⟩, ⟨path, _, [], rfl, ⟨read.1, [], [], ⟨houtput, rfl⟩, ⟨?_, rfl⟩, rfl⟩, rfl⟩, rfl⟩,
      rfl⟩, rfl⟩, ?_⟩
    · rw [← hread]
    · simp [signerWord]

/-- The record ends within a signer. -/
inductive SignerCut (want : Bool) : Bytes → Prop
  | fingerprint (bs : Bytes) : bs.length < BIP32_KEY_FINGERPRINT_LEN → SignerCut want bs
  | derivation (fingerprint : Sized BIP32_KEY_FINGERPRINT_LEN) (bs : Bytes) :
      PathCut bs → SignerCut want (fingerprint.1 ++ bs)
  | xpub (fingerprint : Sized BIP32_KEY_FINGERPRINT_LEN) (derivation : PathArray) (bs : Bytes) :
      bs.length < BIP32_SERIALIZED_LEN → SignerCut want (fingerprint.1 ++ (pathWord derivation ++ bs))
  | path (fingerprint : Sized BIP32_KEY_FINGERPRINT_LEN) (derivation : PathArray) (xpub : Xpub)
      (bs : Bytes) : (want = true → ∃ text, xpubText L xpub = .ok text) → PathCut bs →
        SignerCut want (fingerprint.1 ++ (pathWord derivation ++ (xpub.1 ++ bs)))

theorem xpubText_ne_fault (xpub : Xpub) (f : Fault) : xpubText L xpub ≠ .error (.fault f) := by
  intro h
  rw [xpubText] at h
  split at h
  · cases h
  · split at h
    · cases h
    · cases h

theorem outputXpub_ne_overflow (xpub : Xpub) (path : PathArray) :
    outputXpub L xpub path ≠ .error (.fault .overflow) := by
  intro h
  rw [outputXpub] at h
  split at h
  · cases h
  · split at h
    · case h_1 f hf =>
        -- only the assertion can be reported
        cases h
        rw [walletDerivePubkey] at hf
        split at hf
        · cases hf
        · split at hf
          · cases hf
          · case isFalse =>
              simp only [wallyVerify, bind, Except.bind] at hf
              split at hf
              · case h_1 heq =>
                  split at heq
                  · cases heq
                  · cases heq
                    cases hf
              · cases hf
    · cases h
    · split at h
      · cases h
      · cases h

theorem stops_readSigner (want : Bool) :
    Stops (readSigner L want) (.fault .overflow) (SignerCut L want) := by
  have hpure : ∀ (fingerprint : Sized BIP32_KEY_FINGERPRINT_LEN) (derivation : PathArray)
      (text : Option (CString 120)) (path : PathArray) (xpub : Xpub),
      Stops (lift (outputXpub L xpub path) >>= fun output => (pure (output, text.map fun text =>
        { fingerprint, derivation, xpub := text, path := .elements path }) :
          RecordReader (Xpub × Option Signer))) (.fault .overflow) (fun _ => False) := by
    intro fingerprint derivation text path xpub
    refine (stops_bind (reads_lift _) (stops_lift _) (fun output => stops_pure _)).congr ?_
    intro bs
    simp [outputXpub_ne_overflow]
  refine (stops_bind (reads_take _ _) (stops_take _) (fun fingerprint =>
    stops_bind reads_readPath stops_readPath (fun derivation =>
      stops_bind (reads_take _ _) (stops_take _) (fun xpub =>
        stops_bind (reads_lift _) (stops_lift _) (fun text =>
          stops_bind reads_readPath stops_readPath (fun path =>
            hpure fingerprint derivation text path xpub)))))).congr ?_
  intro bs
  constructor
  · rintro (⟨-, h⟩ | ⟨fingerprint, _, _, rfl, h | ⟨derivation, _, _, rfl, ⟨-, h⟩ | ⟨xpub, _, _, rfl,
      h | ⟨text, _, _, ⟨htext, rfl⟩, h | ⟨_, _, _, _, h, _⟩, rfl⟩, rfl⟩, rfl⟩, rfl⟩)
    · exact .fingerprint _ h
    · exact .derivation _ _ h
    · exact .xpub _ _ _ h
    · cases want with
      | false => cases h
      | true =>
          cases ht : xpubText L xpub with
          | error e =>
              rw [ht] at h
              cases h
              exact absurd ht (xpubText_ne_fault L xpub _)
          | ok t =>
              rw [ht] at h
              cases h
    · refine .path _ _ _ _ ?_ h
      rintro rfl
      rw [wantedText_eq_ok] at htext
      obtain ⟨t, ht, -⟩ := htext
      exact ⟨t, ht⟩
    · exact h.elim
  · intro h
    cases h with
    | fingerprint _ h => exact .inl ⟨rfl, h⟩
    | derivation fingerprint bs h => exact .inr ⟨fingerprint, _, bs, rfl, .inl h, rfl⟩
    | xpub fingerprint derivation bs h =>
        exact .inr ⟨fingerprint, _, _, rfl, .inr ⟨derivation, _, bs, rfl, .inl ⟨rfl, h⟩, rfl⟩, rfl⟩
    | path fingerprint derivation xpub bs htext h =>
        have hlift : ∃ text, (if want then (xpubText L xpub).map some else .ok none) = .ok text := by
          simp only [wantedText_eq_ok]
          cases want with
          | false => exact ⟨none, rfl⟩
          | true =>
              obtain ⟨t, ht⟩ := htext rfl
              exact ⟨some t, t, ht, rfl⟩
        obtain ⟨text, htext⟩ := hlift
        exact .inr ⟨fingerprint, _, _, rfl, .inr ⟨derivation, _, _, rfl, .inr ⟨xpub, _, bs, rfl,
          .inr ⟨text, [], bs, ⟨htext, rfl⟩, .inl h, rfl⟩, rfl⟩, rfl⟩, rfl⟩

theorem reads_readCompleteSigners (n : ℕ) : Reads (readCompleteSigners L n) (fun signers word =>
    signers.1 ≠ [] ∧ ∃ words, Spells (fun i => SignerRead L (i < n)) signers.1 words ∧
      word = UInt8.ofNat signers.1.length :: words) := by
  refine (reads_bind (reads_next _) (fun num => reads_bind (reads_check _ _) (fun _ =>
    reads_readSlots _ (fun i => reads_readSigner L (i < n)) MAX_ALLOWED_SIGNERS num.toNat))).congr ?_
  intro signers word
  constructor
  · rintro ⟨num, _, _, rfl, ⟨_, _, words, ⟨hnum, rfl⟩, ⟨hlen, hspell⟩, rfl⟩, rfl⟩
    have hne : num ≠ 0 := by
      rintro rfl
      simp at hnum
    refine ⟨?_, _, hspell, by rw [hlen, UInt8.ofNat_toNat]; rfl⟩
    intro hnil
    rw [hnil, List.length_nil] at hlen
    exact hne (UInt8.toNat_inj.1 hlen.symm)
  · rintro ⟨hne, words, hspell, rfl⟩
    have hle : signers.1.length ≤ 15 := signers.2
    have hpos : 0 < signers.1.length := List.length_pos_iff.2 hne
    have hnum : (UInt8.ofNat signers.1.length).toNat = signers.1.length := by
      rw [UInt8.toNat_ofNat']
      omega
    refine ⟨_, _, words, rfl, ⟨(), [], words, ⟨?_, rfl⟩, ⟨hnum.symm, hspell⟩, rfl⟩, rfl⟩
    have hzero : UInt8.ofNat signers.1.length ≠ 0 := by
      intro h
      rw [h] at hnum
      simp at hnum
      omega
    rw [hnum]
    simpa [hzero] using signers.2

/-- The record ends within the signers: some have been read, and the next one is cut short. -/
def SignersCut (n : ℕ) (bs : Bytes) : Prop :=
  ∃ (num : UInt8) (signers : List (Xpub × Option Signer)) (words rest : Bytes),
    num.toNat ≤ MAX_ALLOWED_SIGNERS ∧ signers.length < num.toNat ∧
      Spells (fun i => SignerRead L (i < n)) signers words ∧
      SignerCut L (signers.length < n) rest ∧ bs = num :: (words ++ rest)

/-- What stops one signer stops the signers, after some have been read. -/
theorem stops_signers {e : ReadStop} {R : Bool → Bytes → Prop} (he : ReadStop.refused ≠ e)
    (hsigner : ∀ want, Stops (readSigner L want) e (R want)) (n : ℕ) {bs : Bytes} (hbs : bs ≠ []) :
    (∃ rest, (readCompleteSigners L n).run bs = .error e rest) ↔
      ∃ (num : UInt8) (signers : List (Xpub × Option Signer)) (words rest : Bytes),
        num.toNat ≤ MAX_ALLOWED_SIGNERS ∧ signers.length < num.toNat ∧
          Spells (fun i => SignerRead L (i < n)) signers words ∧
          R (signers.length < n) rest ∧ bs = num :: (words ++ rest) := by
  have hsigners : ∀ num : UInt8, Stops
      (check (num ≠ 0 && num.toNat ≤ MAX_ALLOWED_SIGNERS) .refused >>= fun _ =>
        readSlots (.fault .overflow) (fun i => readSigner L (i < n)) MAX_ALLOWED_SIGNERS num.toNat)
      e _ := fun num =>
    stops_guard he (fun hnum => stops_readSlots _ (fun i => reads_readSigner L (i < n))
      (fun i => hsigner (i < n)) MAX_ALLOWED_SIGNERS num.toNat
      (fun _ => by simpa using (Bool.and_eq_true_iff.1 hnum).2))
  have hstops := stops_bind (reads_next (.fault .overflow)) stops_next hsigners
  rw [readCompleteSigners, readByte, hstops bs]
  constructor
  · rintro (⟨-, rfl⟩ | ⟨num, _, _, rfl, ⟨hnum, signers, words, rest, hlt, -, hspell, hcut, rfl⟩, rfl⟩)
    · exact absurd rfl hbs
    · exact ⟨num, signers, words, rest, by simpa using (Bool.and_eq_true_iff.1 hnum).2, hlt, hspell,
        hcut, rfl⟩
  · rintro ⟨num, signers, words, rest, hle, hlt, hspell, hcut, rfl⟩
    have hzero : num ≠ 0 := by
      rintro rfl
      simp at hlt
    exact .inr ⟨num, _, _, rfl, ⟨by simp [hzero, hle], signers, words, rest, hlt,
      Nat.lt_of_lt_of_le hlt hle, hspell, hcut, rfl⟩, rfl⟩

theorem stops_readCompleteSigners (n : ℕ) {bs : Bytes} (hbs : bs ≠ []) :
    (∃ rest, (readCompleteSigners L n).run bs = .error (.fault .overflow) rest) ↔
      SignersCut L n bs :=
  stops_signers L (by decide) (stops_readSigner L) n hbs

/-! ### Older records -/

theorem length_flatMap_xpubs (xs : List Xpub) :
    (xs.flatMap (·.1)).length = xs.length * BIP32_SERIALIZED_LEN := by
  induction xs with
  | nil => rfl
  | cons x xs ih =>
      rw [List.flatMap_cons, List.length_append, ih, x.2, List.length_cons, Nat.succ_mul]
      omega

/-- The keys one after another are read as they are. -/
theorem readSimpleSigners_flatMap
    (xpubs : { xpubs : List Xpub // xpubs.length ≤ MAX_ALLOWED_SIGNERS }) (hne : xpubs.1 ≠ []) :
    readSimpleSigners (xpubs.1.flatMap (·.1)) = .ok xpubs := by
  have hnum : (xpubs.1.flatMap (·.1)).length / BIP32_SERIALIZED_LEN = xpubs.1.length := by
    rw [length_flatMap_xpubs]
    exact Nat.mul_div_cancel _ (by decide)
  have hpos := List.length_pos_iff.2 hne
  have hle := xpubs.2
  have hrun := (reads_readSlots (ReadStop.fault .overflow)
    (fun _ => reads_readBytes BIP32_SERIALIZED_LEN) MAX_ALLOWED_SIGNERS xpubs.1.length
    (xpubs.1.flatMap (·.1)) xpubs []).2 ⟨_, ⟨rfl, spells_iff.2 rfl⟩, (List.append_nil _).symm⟩
  rw [readSimpleSigners]
  simp only [hnum]
  rw [if_neg (by omega), if_neg (not_not.2 (length_flatMap_xpubs _).symm)]
  simp only [hrun]

/-- The older signers are counted before any is copied. -/
theorem readSimpleSigners_ne_fault (bytes : Bytes) (f : Fault) :
    readSimpleSigners bytes ≠ .error (.fault f) := by
  intro h
  rw [readSimpleSigners] at h
  split at h
  · cases h
  · case isFalse hnum =>
      split at h
      · cases h
      · case isFalse hlen =>
          split at h
          · case h_1 e rest hrun =>
              cases h
              cases f with
              | assert =>
                  have hstops := stops_readSlots (ReadStop.fault .overflow)
                    (fun _ => reads_readBytes BIP32_SERIALIZED_LEN)
                    (fun _ => stops_readBytes_assert BIP32_SERIALIZED_LEN) MAX_ALLOWED_SIGNERS
                    (bytes.length / BIP32_SERIALIZED_LEN) (fun h => by cases h)
                  obtain ⟨_, _, _, -, -, -, hcut, -⟩ := (hstops bytes).1 ⟨rest, hrun⟩
                  exact hcut
              | overflow =>
                  have hstops := stops_readSlots_fixed (ReadStop.fault .overflow)
                    (reads_readBytes BIP32_SERIALIZED_LEN) ((stops_take BIP32_SERIALIZED_LEN).congr
                      (fun bs => by simp)) (fun a word hword => by rw [hword]; exact a.2)
                    (fun word hword => ⟨⟨word, hword⟩, rfl⟩)
                    MAX_ALLOWED_SIGNERS (bytes.length / BIP32_SERIALIZED_LEN) (by omega)
                  have := (hstops bytes).1 ⟨rest, hrun⟩
                  omega
          · cases h

/-! ### A record after its header -/

theorem multisigDataFromBytes_append {bytes word rest : Bytes} {header : MultisigHeader}
    (hmin : MIN_MULTISIG_BYTES_LEN ≤ bytes.length) (hauth : Authentic L.key bytes)
    (hword : HeaderWord header word) (hbytes : bytes = word ++ rest) (n : ℕ) :
    multisigDataFromBytes L bytes n = multisigSignersFromBytes L header n rest := by
  have hrun : readMultisigHeader.run bytes = .ok header rest :=
    (reads_readMultisigHeader _ _ _).2 ⟨word, hword, hbytes⟩
  rw [multisigDataFromBytes, if_neg (Nat.not_lt.2 hmin), if_neg (not_not.2 hauth), hrun]

/-- The header leaves part of the smallest record, besides the hash. -/
theorem length_rest_of_header {bytes rest : Bytes} {header : MultisigHeader}
    (hmin : MIN_MULTISIG_BYTES_LEN ≤ bytes.length)
    (hrun : readMultisigHeader.run bytes = .ok header rest) : HMAC_SHA256_LEN < rest.length := by
  rw [MIN_MULTISIG_BYTES_LEN] at hmin
  have := (needs_readMultisigHeader bytes (by omega)).2 header rest hrun
  rw [HMAC_SHA256_LEN]
  omega

/-- The keys of an older record are those that were written. -/
theorem multisigSignersFromBytes_legacy {header : MultisigHeader} (hversion : header.version < 3)
    (xpubs : { xpubs : List Xpub // xpubs.length ≤ MAX_ALLOWED_SIGNERS }) (hne : xpubs.1 ≠ [])
    {mac : Bytes} (hmac : mac.length = HMAC_SHA256_LEN) (n : ℕ) :
    multisigSignersFromBytes L header n (xpubs.1.flatMap (·.1) ++ mac) =
      .ok (header.record xpubs, [], 0) := by
  have hlen : (xpubs.1.flatMap (·.1) ++ mac).length - HMAC_SHA256_LEN =
      (xpubs.1.flatMap (·.1)).length := by
    rw [List.length_append, hmac, Nat.add_sub_cancel]
  have hpos : (xpubs.1.flatMap (·.1)).length ≠ 0 := by
    obtain ⟨x, xs, hxs⟩ := List.exists_cons_of_ne_nil hne
    have hx : 0 < BIP32_SERIALIZED_LEN := by decide
    rw [hxs, List.flatMap_cons, List.length_append, x.2]
    omega
  rw [multisigSignersFromBytes]
  simp only [hlen]
  rw [if_neg hpos, if_pos hversion, List.take_left, readSimpleSigners_flatMap xpubs hne]
  rfl

/-! ### What is left is read -/

/-- The record goes on with signers of version 3 whose lengths lead past its end. -/
def Overruns (n : ℕ) (bytes : Bytes) : Prop :=
  ∃ header word rest, HeaderWord header word ∧ ¬ header.version < 3 ∧ SignersCut L n rest ∧
    bytes = word ++ rest

/-- Only a check stops the header, as long as the record is not too short for it. -/
theorem readMultisigHeader_ne_fault {bytes rest : Bytes}
    (hmin : MIN_MULTISIG_BYTES_LEN ≤ bytes.length) (f : Fault) :
    readMultisigHeader.run bytes ≠ .error (.fault f) rest := by
  cases f with
  | overflow =>
      rw [MIN_MULTISIG_BYTES_LEN] at hmin
      exact (needs_readMultisigHeader bytes (by omega)).1 rest
  | assert => exact fun h => (stops_readMultisigHeader bytes).1 ⟨rest, h⟩

/-- A record whose hash is right is left exactly where its signers are. -/
theorem multisigDataFromBytes_fault_iff {bytes : Bytes}
    (hmin : MIN_MULTISIG_BYTES_LEN ≤ bytes.length) (hauth : Authentic L.key bytes) (n : ℕ)
    (f : Fault) :
    multisigDataFromBytes L bytes n = .error (.fault f) ↔
      ∃ header word rest, HeaderWord header word ∧ ¬ header.version < 3 ∧ rest ≠ [] ∧
        (∃ rest', (readCompleteSigners L n).run rest = .error (.fault f) rest') ∧
          bytes = word ++ rest := by
  constructor
  · intro h
    cases hrun : readMultisigHeader.run bytes with
    | error e rest =>
        rw [multisigDataFromBytes, if_neg (Nat.not_lt.2 hmin), if_neg (not_not.2 hauth), hrun] at h
        cases h
        exact absurd hrun (readMultisigHeader_ne_fault hmin f)
    | ok header rest =>
        have hlen := length_rest_of_header hmin hrun
        obtain ⟨word, hword, rfl⟩ := (reads_readMultisigHeader _ _ _).1 hrun
        have hne : rest ≠ [] := by
          rintro rfl
          simp at hlen
        rw [multisigDataFromBytes_append L hmin hauth hword rfl n, multisigSignersFromBytes,
          if_neg (by omega)] at h
        by_cases hversion : header.version < 3
        · rw [if_pos hversion] at h
          cases hsimple : readSimpleSigners (rest.take (rest.length - HMAC_SHA256_LEN)) with
          | error e =>
              rw [hsimple] at h
              cases h
              exact absurd hsimple (readSimpleSigners_ne_fault _ f)
          | ok xpubs =>
              rw [hsimple] at h
              cases h
        · rw [if_neg hversion] at h
          cases hsigners : (readCompleteSigners L n).run rest with
          | error e rest' =>
              rw [hsigners] at h
              cases h
              exact ⟨header, word, rest, hword, hversion, hne, ⟨rest', hsigners⟩, rfl⟩
          | ok signers rest' =>
              rw [hsigners] at h
              dsimp only at h
              split at h
              · cases h
              · cases h
  · rintro ⟨header, word, rest, hword, hversion, -, ⟨rest', hsigners⟩, hbytes⟩
    have hrun := (reads_readMultisigHeader _ _ _).2 ⟨word, hword, hbytes⟩
    have hlen := length_rest_of_header hmin hrun
    rw [multisigDataFromBytes_append L hmin hauth hword hbytes n, multisigSignersFromBytes,
      if_neg (by omega), if_neg hversion, hsigners]

/-- A record whose hash is right is read beyond its end exactly when the lengths of its signers lead
there. -/
theorem multisigDataFromBytes_overflow_iff {bytes : Bytes}
    (hmin : MIN_MULTISIG_BYTES_LEN ≤ bytes.length) (hauth : Authentic L.key bytes) (n : ℕ) :
    multisigDataFromBytes L bytes n = .error (.fault .overflow) ↔ Overruns L n bytes := by
  rw [multisigDataFromBytes_fault_iff L hmin hauth]
  constructor
  · rintro ⟨header, word, rest, hword, hversion, hne, hstops, hbytes⟩
    exact ⟨header, word, rest, hword, hversion, (stops_readCompleteSigners L n hne).1 hstops, hbytes⟩
  · rintro ⟨header, word, rest, hword, hversion, hcut, hbytes⟩
    have hne : rest ≠ [] := by
      rintro rfl
      obtain ⟨_, _, _, _, -, -, -, -, hnil⟩ := hcut
      cases hnil
    exact ⟨header, word, rest, hword, hversion, hne, (stops_readCompleteSigners L n hne).2 hcut,
      hbytes⟩

/-! ### Round trip -/

/-- What the definition of a multisig wallet consists of. -/
structure MultisigDefinition where
  variant : ScriptVariant
  sorted : Bool
  threshold : UInt8
  masterBlindingKey : Option (Sized MULTISIG_MASTER_BLINDING_KEY_SIZE)
  signers : List Signer

/-- The key of a signer decodes, and the path behind it is an array. -/
def Persists (signer : Signer) (xpub : Xpub) (path : PathArray) : Prop :=
  L.base58ToBytes signer.xpub.chars = some xpub.1 ∧ signer.path = .elements path

/-- A definition that can be registered: `validate_signers` and the callers of
`multisig_data_to_bytes` see to it. -/
structure MultisigDefinition.Valid (d : MultisigDefinition) : Prop where
  threshold_pos : 0 < d.threshold
  threshold_le : d.threshold.toNat ≤ d.signers.length
  signers_le : d.signers.length ≤ MAX_ALLOWED_SIGNERS
  persists : ∀ signer ∈ d.signers, ∃ xpub path, Persists L signer xpub path

/-- `total_num_path_elements` -/
def totalNumPathElements (signers : List Signer) : ℕ :=
  (signers.map fun signer => signer.derivation.1.length + signer.path.length).sum

theorem totalNumPathElements_cons (signer : Signer) (signers : List Signer) :
    totalNumPathElements (signer :: signers) =
      signer.derivation.1.length + signer.path.length + totalNumPathElements signers := by
  simp [totalNumPathElements]

/-- The key that addresses are made from is the registered one, derived along the additional path. -/
def Derives (signer : Signer) (output : Xpub) : Prop :=
  ∃ xpub path, Persists L signer xpub path ∧ outputXpub L xpub path = .ok output

theorem signerToBytes_eq_some {signer : Signer} {xpub : Xpub} {path : PathArray}
    (h : Persists L signer xpub path) :
    signerToBytes L signer = some (signerWord signer.fingerprint signer.derivation xpub path) := by
  obtain ⟨hxpub, hpath⟩ := h
  rw [signerToBytes, hxpub]
  simp only
  rw [dif_pos xpub.2, hpath]

/-- The text of the key is the one that was registered. -/
theorem xpubText_eq_ok {signer : Signer} {xpub : Xpub} {path : PathArray}
    (h : Persists L signer xpub path) : xpubText L xpub = .ok signer.xpub := by
  rw [xpubText, L.base58FromBytes_toBytes h.1]
  exact dif_pos signer.xpub.fits

theorem length_signerWord {signer : Signer} {xpub : Xpub} {path : PathArray}
    (h : Persists L signer xpub path) :
    (signerWord signer.fingerprint signer.derivation xpub path).length =
      6 + BIP32_SERIALIZED_LEN + (signer.derivation.1.length + signer.path.length) * 4 := by
  rw [h.2]
  simp only [signerWord, pathWord, SignerPath.length, List.length_append, List.length_cons,
    length_pathBytes, signer.fingerprint.2, xpub.2, BIP32_KEY_FINGERPRINT_LEN]
  omega

/-- A signer is read back, with its details if there is room for them. -/
theorem signerRead_signerWord {signer : Signer} {xpub output : Xpub} {path : PathArray}
    (h : Persists L signer xpub path) (houtput : outputXpub L xpub path = .ok output)
    (want : Bool) :
    SignerRead L want (output, if want then some signer else none)
      (signerWord signer.fingerprint signer.derivation xpub path) := by
  refine ⟨signer.fingerprint, signer.derivation, xpub, path, rfl, houtput, ?_⟩
  cases want with
  | false => rfl
  | true =>
      refine ⟨signer.xpub, xpubText_eq_ok L h, ?_⟩
      rw [← h.2]
      rfl

/-- The words the signers are written as. -/
theorem signersToBytes_eq_ok {signers : List Signer} {total : ℕ} (counted : ℕ)
    (htotal : total = counted + totalNumPathElements signers)
    (h : ∀ signer ∈ signers, ∃ xpub path, Persists L signer xpub path) :
    ∃ words, signersToBytes L total signers counted = .ok (some words) ∧
      words.length =
        signers.length * (6 + BIP32_SERIALIZED_LEN) + totalNumPathElements signers * 4 ∧
      ∀ (n : ℕ) (outputs : List Xpub), List.Forall₂ (Derives L) signers outputs →
        ∃ reads : List (Xpub × Option Signer), Spells (fun i => SignerRead L (i < n)) reads words ∧
          reads.map (·.1) = outputs ∧ reads.filterMap (·.2) = signers.take n := by
  induction signers generalizing counted with
  | nil =>
      refine ⟨[], ?_, rfl, ?_⟩
      · simp [signersToBytes, htotal, totalNumPathElements, jadeVerify, bind, Except.bind, pure,
          Except.pure]
      · intro n outputs houtputs
        cases houtputs
        exact ⟨[], .nil, rfl, by simp⟩
  | cons signer signers ih =>
      obtain ⟨xpub, path, hsigner⟩ := h signer List.mem_cons_self
      rw [totalNumPathElements_cons] at htotal
      obtain ⟨words, hwords, hlen, hreads⟩ := ih
        (counted + signer.derivation.1.length + signer.path.length) (by omega)
        (fun s hs => h s (List.mem_cons_of_mem signer hs))
      refine ⟨signerWord signer.fingerprint signer.derivation xpub path ++ words, ?_, ?_, ?_⟩
      · have hle : counted + signer.derivation.1.length + signer.path.length ≤ total := by omega
        simp [signersToBytes, jadeVerify, hle, signerToBytes_eq_some L hsigner, hwords, bind,
          Except.bind, pure, Except.pure]
      · rw [List.length_append, length_signerWord L hsigner, hlen, List.length_cons,
          totalNumPathElements_cons, Nat.succ_mul]
        omega
      · intro n outputs houtputs
        cases houtputs with
        | @cons _ output _ outputs houtput houtputs =>
            obtain ⟨xpub', path', hsigner', hderives⟩ := houtput
            have hxpub : xpub' = xpub := Subtype.ext
              (Option.some_injective _ (hsigner'.1.symm.trans hsigner.1))
            have hpath : path' = path := by
              have := hsigner'.2.symm.trans hsigner.2
              cases this
              rfl
            rw [hxpub, hpath] at hderives
            obtain ⟨reads, hspell, hmap, hfilter⟩ := hreads (n - 1) outputs houtputs
            have hshift : (fun i => SignerRead L (decide (i + 1 < n))) =
                fun i => SignerRead L (decide (i < n - 1)) := by
              funext i
              rw [decide_eq_decide.2 (by omega : i + 1 < n ↔ i < n - 1)]
            refine ⟨(output, if decide (0 < n) then some signer else none) :: reads,
              .cons (signerRead_signerWord L hsigner hderives _) ?_, ?_, ?_⟩
            · rw [hshift]
              exact hspell
            · rw [List.map_cons, hmap]
            · cases n with
              | zero => simpa using hfilter
              | succ n => simpa using hfilter

/-- No path is longer than its array. -/
theorem totalNumPathElements_le {signers : List Signer}
    (h : ∀ signer ∈ signers, ∃ xpub path, Persists L signer xpub path) :
    totalNumPathElements signers ≤ signers.length * 2 * MAX_PATH_LEN := by
  induction signers with
  | nil => exact Nat.zero_le _
  | cons signer signers ih =>
      obtain ⟨xpub, path, -, hpath⟩ := h signer List.mem_cons_self
      have hrest : totalNumPathElements signers ≤ signers.length * 2 * 16 :=
        ih (fun s hs => h s (List.mem_cons_of_mem signer hs))
      have hderivation : signer.derivation.1.length ≤ 16 := signer.derivation.2
      have hle : path.1.length ≤ 16 := path.2
      rw [totalNumPathElements_cons, List.length_cons, hpath, SignerPath.length]
      change _ ≤ (signers.length + 1) * 2 * 16
      omega

/-- Every signer has its key derived, one by one. -/
theorem exists_forall₂_derives {signers : List Signer}
    (h : ∀ signer ∈ signers, ∃ output, Derives L signer output) :
    ∃ outputs, List.Forall₂ (Derives L) signers outputs := by
  induction signers with
  | nil => exact ⟨[], .nil⟩
  | cons signer signers ih =>
      obtain ⟨output, houtput⟩ := h signer List.mem_cons_self
      obtain ⟨outputs, houtputs⟩ := ih (fun s hs => h s (List.mem_cons_of_mem signer hs))
      exact ⟨output :: outputs, .cons houtput houtputs⟩

namespace MultisigDefinition

/-- The fields in front of the signers. -/
def header (d : MultisigDefinition) : MultisigHeader where
  version := CURRENT_MULTISIG_RECORD_VERSION
  variant := scriptVariantByte d.variant
  sorted := d.sorted
  threshold := d.threshold
  masterBlindingKey := d.masterBlindingKey

/-- The length of the record. -/
def bytesLen (d : MultisigDefinition) : ℕ :=
  multisigBytesLen (blindingKeyBytes d.masterBlindingKey).length d.signers.length
    (totalNumPathElements d.signers)

/-- The record, written into a buffer of its length. -/
def toBytes (d : MultisigDefinition) : Except Fault (Option Bytes) :=
  multisigDataToBytes L d.variant d.sorted d.threshold (blindingKeyBytes d.masterBlindingKey)
    d.signers (totalNumPathElements d.signers) d.bytesLen

/-- The record is the header, the signers and the hash, and it fills its buffer. -/
theorem toBytes_eq_ok {d : MultisigDefinition} (hd : d.Valid L) :
    ∃ bytes words word mac : Bytes, d.toBytes L = .ok (some bytes) ∧ bytes.length = d.bytesLen ∧
      Authentic L.key bytes ∧ mac.length = HMAC_SHA256_LEN ∧ HeaderWord d.header word ∧
      bytes = word ++ (UInt8.ofNat d.signers.length :: words ++ mac) ∧
      ∀ (n : ℕ) (outputs : List Xpub), List.Forall₂ (Derives L) d.signers outputs →
        ∃ reads : List (Xpub × Option Signer), Spells (fun i => SignerRead L (i < n)) reads words ∧
          reads.map (·.1) = outputs ∧ reads.filterMap (·.2) = d.signers.take n := by
  obtain ⟨words, hwords, hlen, hreads⟩ :=
    signersToBytes_eq_ok L 0 (Nat.zero_add _).symm hd.persists
  have hkey : ((blindingKeyBytes d.masterBlindingKey).isEmpty ||
      decide ((blindingKeyBytes d.masterBlindingKey).length = MULTISIG_MASTER_BLINDING_KEY_SIZE)) =
      true := by
    cases d.masterBlindingKey with
    | none => rfl
    | some k => simp [blindingKeyBytes, k.2]
  generalize hhead : multisigHead CURRENT_MULTISIG_RECORD_VERSION (scriptVariantByte d.variant)
    (sortedByte d.sorted) d.threshold (blindingKeyBytes d.masterBlindingKey) = word
  generalize hbody : word ++ (UInt8.ofNat d.signers.length :: words) = body
  have hheadlen : word.length = 5 + (blindingKeyBytes d.masterBlindingKey).length := by
    rw [← hhead]
    simp [multisigHead, CURRENT_MULTISIG_RECORD_VERSION]
    omega
  have hbodylen : body.length + HMAC_SHA256_LEN = d.bytesLen := by
    rw [← hbody, List.length_append, List.length_cons, hlen, hheadlen, bytesLen, multisigBytesLen]
    omega
  have hne : body ≠ [] := by
    rw [← hbody]
    simp
  refine ⟨body ++ L.key.hmacSha256 body, words, word, L.key.hmacSha256 body, ?_, ?_,
    authentic_append L.key hne, L.key.length_hmacSha256 body, ?_, ?_, hreads⟩
  · have htotal := totalNumPathElements_le L hd.persists
    have houtput : d.bytesLen = multisigBytesLen (blindingKeyBytes d.masterBlindingKey).length
      d.signers.length (totalNumPathElements d.signers) := rfl
    rw [toBytes, multisigDataToBytes, jadeVerify_bind (decide_eq_true hd.threshold_pos),
      jadeVerify_bind hkey, jadeVerify_bind (decide_eq_true hd.threshold_le),
      jadeVerify_bind (decide_eq_true hd.signers_le), jadeVerify_bind (decide_eq_true htotal),
      jadeVerify_bind (decide_eq_true houtput),
      hwords]
    have hbind : ∀ f : Option Bytes → Except Fault (Option Bytes),
        Except.ok (some words) >>= f = f (some words) := fun _ => rfl
    rw [hbind]
    dsimp only
    rw [hhead, hbody, jadeVerify_bind (decide_eq_true hbodylen), walletHmacWithMasterKey,
      if_neg (by simpa using hne)]
    rfl
  · rw [List.length_append, L.key.length_hmacSha256, hbodylen]
  · have hversion : 1 < CURRENT_MULTISIG_RECORD_VERSION := by decide
    refine ⟨UInt8.le_refl _, fun h => absurd hversion h, sortedByte d.sorted, ?_, hhead.symm⟩
    cases hsorted : d.sorted with
    | false => simp [header, hsorted, sortedByte]
    | true => simp [header, hsorted, sortedByte, CURRENT_MULTISIG_RECORD_VERSION]
  · rw [← hbody]
    simp

end MultisigDefinition

/-- A record of a definition is read back when the keys of all its signers can be derived. -/
theorem multisigDataFromBytes_toBytes {d : MultisigDefinition} {bytes words word mac : Bytes}
    {n : ℕ} (hd : d.Valid L) (hlen : bytes.length = d.bytesLen) (hauth : Authentic L.key bytes)
    (hmac : mac.length = HMAC_SHA256_LEN) (hword : HeaderWord d.header word)
    (hbytes : bytes = word ++ (UInt8.ofNat d.signers.length :: words ++ mac))
    {reads : List (Xpub × Option Signer)} {outputs : List Xpub}
    (hspell : Spells (fun i => SignerRead L (i < n)) reads words)
    (hmap : reads.map (·.1) = outputs) (hreads : reads.length = d.signers.length)
    (houtputs : outputs.length ≤ MAX_ALLOWED_SIGNERS) :
    multisigDataFromBytes L bytes n =
      .ok (d.header.record ⟨outputs, houtputs⟩, reads.filterMap (·.2), d.signers.length) := by
  have hpos : 0 < d.signers.length :=
    Nat.lt_of_lt_of_le (UInt8.lt_iff_toNat_lt.1 hd.threshold_pos) hd.threshold_le
  have hmin : MIN_MULTISIG_BYTES_LEN ≤ bytes.length := by
    have hmul : 1 * (6 + BIP32_SERIALIZED_LEN) ≤ d.signers.length * (6 + BIP32_SERIALIZED_LEN) :=
      Nat.mul_le_mul_right _ hpos
    rw [hlen, MultisigDefinition.bytesLen, multisigBytesLen]
    simp only [MIN_MULTISIG_BYTES_LEN, BIP32_SERIALIZED_LEN, HMAC_SHA256_LEN] at hmul ⊢
    omega
  have hle : reads.length ≤ MAX_ALLOWED_SIGNERS := by
    rw [hreads]
    exact hd.signers_le
  have hne : reads ≠ [] := by
    rintro rfl
    rw [← hreads] at hpos
    exact Nat.lt_irrefl 0 hpos
  have hrun : (readCompleteSigners L n).run (UInt8.ofNat d.signers.length :: words ++ mac) =
      .ok ⟨reads, hle⟩ mac :=
    (reads_readCompleteSigners L n _ _ _).2
      ⟨_, ⟨hne, words, hspell, by rw [hreads]⟩, rfl⟩
  have hsigner : (UInt8.ofNat d.signers.length :: words ++ mac).length - HMAC_SHA256_LEN ≠ 0 := by
    rw [List.length_append, List.length_cons, hmac]
    omega
  have hversion : ¬ d.header.version < 3 := UInt8.lt_irrefl 3
  rw [multisigDataFromBytes_append L hmin hauth hword hbytes, multisigSignersFromBytes,
    if_neg hsigner, if_neg hversion, hrun]
  dsimp only
  rw [if_neg (not_not.2 hmac), hreads]
  subst hmap
  rfl

/-- The record of a definition is read back with the keys that are derived for its signers. -/
theorem multisigDataFromBytes_of_derives {d : MultisigDefinition} (hd : d.Valid L) :
    ∃ bytes, d.toBytes L = .ok (some bytes) ∧ bytes.length = d.bytesLen ∧
      ∀ (n : ℕ) (outputs : { xpubs : List Xpub // xpubs.length ≤ MAX_ALLOWED_SIGNERS }),
        List.Forall₂ (Derives L) d.signers outputs.1 →
          multisigDataFromBytes L bytes n =
            .ok (d.header.record outputs, d.signers.take n, d.signers.length) := by
  obtain ⟨bytes, words, word, mac, hto, hlen, hauth, hmac, hword, hbytes, hreads⟩ :=
    MultisigDefinition.toBytes_eq_ok L hd
  refine ⟨bytes, hto, hlen, fun n outputs houtputs => ?_⟩
  obtain ⟨reads, hspell, hmap, hfilter⟩ := hreads n outputs.1 houtputs
  have hlength : reads.length = d.signers.length := by
    rw [houtputs.length_eq, ← hmap, List.length_map]
  rw [multisigDataFromBytes_toBytes L hd hlen hauth hmac hword hbytes hspell hmap hlength outputs.2,
    hfilter]

/-- **A definition that is registered is read back exactly when the keys of its signers can be
derived, with as many details as there is room for; a record without a valid hash is rejected; an
older record is read as it was written; and of a record with a valid hash, nothing beyond its end is
read unless the lengths of its signers lead there.** -/
theorem multisig_record_exact :
    (∀ d : MultisigDefinition, d.Valid L → ∃ bytes, d.toBytes L = .ok (some bytes) ∧
      bytes.length = d.bytesLen ∧ ∀ n,
        ((∃ outputs, List.Forall₂ (Derives L) d.signers outputs.1 ∧
          multisigDataFromBytes L bytes n =
            .ok (d.header.record outputs, d.signers.take n, d.signers.length)) ↔
          ∀ signer ∈ d.signers, ∃ output, Derives L signer output)) ∧
      ∀ (bytes : Bytes) (n : ℕ), MIN_MULTISIG_BYTES_LEN ≤ bytes.length →
        (¬ Authentic L.key bytes → multisigDataFromBytes L bytes n = .error .refused) ∧
        (Authentic L.key bytes →
          (∀ header word xpubs mac, header.version < 3 → HeaderWord header word → xpubs.1 ≠ [] →
            mac.length = HMAC_SHA256_LEN → bytes = word ++ (xpubs.1.flatMap (·.1) ++ mac) →
              multisigDataFromBytes L bytes n = .ok (header.record xpubs, [], 0)) ∧
          (multisigDataFromBytes L bytes n ≠ .error (.fault .overflow) ↔ ¬ Overruns L n bytes)) := by
  constructor
  · intro d hd
    obtain ⟨bytes, hto, hlen, hload⟩ := multisigDataFromBytes_of_derives L hd
    refine ⟨bytes, hto, hlen, fun n => ?_⟩
    constructor
    · rintro ⟨outputs, hderives, -⟩ signer hsigner
      obtain ⟨i, hi, rfl⟩ := List.mem_iff_getElem.1 hsigner
      exact ⟨_, hderives.get hi (by rw [← hderives.length_eq]; exact hi)⟩
    · intro hderives
      obtain ⟨outputs, houtputs⟩ := exists_forall₂_derives L hderives
      have hle : outputs.length ≤ MAX_ALLOWED_SIGNERS := by
        rw [← houtputs.length_eq]
        exact hd.signers_le
      exact ⟨⟨outputs, hle⟩, houtputs, hload n ⟨outputs, hle⟩ houtputs⟩
  · intro bytes n hmin
    constructor
    · intro hauth
      rw [multisigDataFromBytes, if_neg (Nat.not_lt.2 hmin), if_pos hauth]
    · intro hauth
      constructor
      · intro header word xpubs mac hversion hword hne hmac hbytes
        rw [multisigDataFromBytes_append L hmin hauth hword hbytes,
          multisigSignersFromBytes_legacy L hversion xpubs hne hmac]
      · rw [← multisigDataFromBytes_overflow_iff L hmin hauth n]

end Model

/-! ### One signer -/

/-- A key, and the text it is written as. -/
def singleXpub : Xpub := ⟨[
  4, 136, 178, 30, 0, 0, 0, 0, 0, 0, 0, 0, 0, 135, 61, 255, 129, 192, 47, 82, 86, 35, 253,
  31, 229, 22, 126, 172, 58, 85, 160, 73, 222, 61, 49, 75, 180, 46, 226, 39, 255, 237, 55,
  213, 8, 3, 57, 163, 96, 19, 48, 21, 151, 218, 239, 65, 251, 229, 147, 160, 44, 197, 19,
  208, 181, 85, 39, 236, 45, 241, 5, 14, 46, 143, 244, 156, 133, 194], rfl⟩

def singleXpubText : CString 120 := ⟨ascii "xpub661MyMwAqRbcFtXgS5sYJABqqG9YLmC4Q1Rdap9gSE8NqtwybGhePY2g" ++
  ascii "Z29ESFjqJoCu1Rupje8YtGqsefD265TMg7usUDFdp6W1EGMcet8", by decide⟩

/-- A signer with that key, which is not derived any further. -/
def singleSigner : Signer where
  fingerprint := ⟨[52, 66, 25, 62], rfl⟩
  derivation := ⟨[], Nat.zero_le _⟩
  xpub := singleXpubText
  path := .elements ⟨[], Nat.zero_le _⟩

/-- A wallet of that signer. -/
def singleMultisig : MultisigDefinition where
  variant := .multiP2wsh
  sorted := false
  threshold := 1
  masterBlindingKey := none
  signers := [singleSigner]

/-- The hash of that record under a key that is one in every byte. -/
def singleMultisigHmac : Bytes := [
  236, 235, 9, 175, 248, 239, 152, 31, 133, 136, 251, 76, 253, 240, 242, 144, 123, 156, 227,
  227, 142, 28, 32, 247, 115, 244, 205, 200, 148, 55, 99, 17]

/-- A wallet that is not asked for anything. -/
def idleWallet : Wallet Unit where
  xpriv := ()
  gaservicePath := []
  service _ := ()
  pubKey _ := []
  hash160 _ := []
  bip32PrivateKeyFromParentPath _ _ := none
  bip32PublicKeyFromParentPath _ _ := none
  bip32KeyUnserialize _ := none
  keypathBip32Key _ _ := none
  keypathBip32PublicKey _ _ := none
  scriptpubkeyGetType _ _ := none
  witnessProgramFromBytes _ _ := none
  scriptpubkeyP2shFromBytes _ := none
  scriptpubkeyP2pkhFromBytes _ := none
  scriptpubkeyP2trFromBytes _ _ := none
  scriptpubkeyMultisigFromBytes _ _ _ := none
  scriptpubkeyCsv2of2Then1FromBytes _ _ := none
  scriptpubkeyCsv2of2Then1FromBytesOpt _ _ := none
  csvBlocksFromCsv2of2Then1 _ := none

/-- The libraries on that record. -/
def singleMultisigLib : MultisigLib Unit where
  key := { hmacSha256 := fun _ => singleMultisigHmac, length_hmacSha256 := fun _ => rfl }
  wallet := idleWallet
  bip32KeySerialize _ := none
  base58ToBytes text := if text = singleXpubText.chars then some singleXpub.1 else none
  base58FromBytes bytes := if bytes = singleXpub.1 then some singleXpubText.chars else none
  base58FromBytes_toBytes := by
    intro text bytes h
    split at h
    · case isTrue htext =>
        cases h
        rw [if_pos rfl, htext]
    · cases h

/-! ### Two signers -/

/-- The keys of two signers, and the first one derived along `0/1`. -/
def firstXpub : Xpub := ⟨[
  4, 136, 178, 30, 4, 75, 110, 82, 151, 128, 0, 0, 2, 227, 79, 143, 230, 23, 95, 83, 191, 131,
  24, 122, 22, 13, 217, 112, 63, 219, 252, 127, 181, 209, 248, 151, 226, 165, 156, 219, 94, 204,
  52, 23, 18, 2, 248, 227, 68, 99, 13, 231, 192, 90, 0, 63, 133, 75, 92, 225, 50, 190, 182, 73,
  125, 78, 112, 147, 53, 80, 51, 192, 0, 37, 126, 241, 224, 116], rfl⟩

def secondXpub : Xpub := ⟨[
  4, 136, 178, 30, 4, 57, 215, 82, 198, 128, 0, 0, 2, 253, 150, 245, 38, 208, 82, 0, 226, 238, 3,
  163, 135, 120, 88, 203, 23, 41, 191, 122, 190, 52, 69, 86, 68, 78, 194, 209, 159, 10, 15, 32,
  217, 2, 59, 167, 32, 112, 141, 160, 169, 180, 183, 229, 24, 159, 95, 214, 200, 75, 204, 249,
  152, 187, 137, 130, 136, 130, 102, 129, 124, 192, 102, 12, 93, 109], rfl⟩

def firstChild : Xpub := ⟨[
  4, 136, 178, 30, 6, 204, 156, 102, 67, 0, 0, 0, 1, 75, 239, 211, 128, 169, 122, 154, 198, 126,
  13, 127, 6, 49, 8, 130, 72, 17, 229, 143, 4, 108, 96, 18, 165, 211, 85, 197, 42, 223, 19, 243,
  42, 2, 112, 168, 255, 38, 101, 85, 142, 175, 236, 101, 128, 115, 149, 222, 25, 148, 112, 227,
  97, 136, 16, 239, 244, 142, 195, 91, 89, 250, 210, 240, 154, 204], rfl⟩

def firstXpubText : CString 120 := ⟨ascii "xpub6E64WfdQwBGz85XhbZryr9gUGUPBgoSu5WV6tJWpzAvgAmpVpdPH" ++
  ascii "kT3XYm9R5J6MeWzvLQoz4q845taC9Q28XutbptxAmg7q8QPkjvTL4oi", by decide⟩

def secondXpubText : CString 120 := ⟨ascii "xpub6DxZavechuxXHnpKJy1qGgv8gZWyXwWEVrq3qTumQeHkjYSUiAZj" ++
  ascii "BYaH62tpg5ehSm6fggpNRCGBh4F3pv987vcRWiHCtdFNJEuMWaorxj5", by decide⟩

/-- The first signer, with an additional path. -/
def firstSigner : Signer where
  fingerprint := ⟨[52, 66, 25, 62], rfl⟩
  derivation := ⟨[harden 48, harden 0, harden 0, harden 2], by decide⟩
  xpub := firstXpubText
  path := .elements ⟨[0, 1], by decide⟩

def secondSigner : Signer where
  fingerprint := ⟨[189, 22, 190, 229], rfl⟩
  derivation := ⟨[harden 48, harden 0, harden 1, harden 2], by decide⟩
  xpub := secondXpubText
  path := .elements ⟨[], Nat.zero_le _⟩

/-- A wallet of both signers, with a blinding key. -/
def twoSignerMultisig : MultisigDefinition where
  variant := .multiP2wsh
  sorted := true
  threshold := 2
  masterBlindingKey := some ⟨List.replicate 32 0x11, rfl⟩
  signers := [firstSigner, secondSigner]

/-- The fields of a record of version 1. -/
def legacyHeader : MultisigHeader where
  version := 1
  variant := 6
  sorted := true
  threshold := 2
  masterBlindingKey := none

/-- The record of version 1 with the keys that are derived for the two signers. -/
def legacyBody : Bytes := [1, 6, 1, 2] ++ (firstChild.1 ++ secondXpub.1)

/-- The hashes of the two records under a key that is one in every byte. -/
def twoSignerHmac : Bytes → Bytes := fun data =>
  if data = legacyBody then [
    19, 48, 22, 183, 11, 82, 141, 237, 70, 204, 243, 75, 236, 97, 165, 65, 224, 143, 38, 141, 38,
    174, 121, 117, 250, 214, 43, 191, 229, 226, 217, 5]
  else if data.take 5 = [3, 4, 1, 2, 32] then [
    58, 204, 84, 99, 213, 157, 189, 177, 116, 35, 102, 230, 176, 248, 12, 207, 115, 111, 51, 221,
    144, 42, 16, 95, 94, 138, 159, 22, 207, 159, 98, 68]
  else List.replicate 32 1

theorem length_twoSignerHmac (data : Bytes) : (twoSignerHmac data).length = HMAC_SHA256_LEN := by
  unfold twoSignerHmac
  split_ifs <;> rfl

/-- A wallet that derives the one key. -/
def twoSignerWallet : Wallet Xpub where
  xpriv := firstXpub
  gaservicePath := []
  service _ := firstXpub
  pubKey _ := []
  hash160 _ := []
  bip32PrivateKeyFromParentPath _ _ := none
  bip32PublicKeyFromParentPath key path :=
    if key = firstXpub ∧ path = [0, 1] then some firstChild else none
  bip32KeyUnserialize bytes := if bytes = firstXpub.1 then some firstXpub else none
  keypathBip32Key _ _ := none
  keypathBip32PublicKey _ _ := none
  scriptpubkeyGetType _ _ := none
  witnessProgramFromBytes _ _ := none
  scriptpubkeyP2shFromBytes _ := none
  scriptpubkeyP2pkhFromBytes _ := none
  scriptpubkeyP2trFromBytes _ _ := none
  scriptpubkeyMultisigFromBytes _ _ _ := none
  scriptpubkeyCsv2of2Then1FromBytes _ _ := none
  scriptpubkeyCsv2of2Then1FromBytesOpt _ _ := none
  csvBlocksFromCsv2of2Then1 _ := none

/-- The libraries on the two records. -/
def twoSignerLib : MultisigLib Xpub where
  key := { hmacSha256 := twoSignerHmac, length_hmacSha256 := length_twoSignerHmac }
  wallet := twoSignerWallet
  bip32KeySerialize := some
  base58ToBytes text :=
    if text = firstXpubText.chars then some firstXpub.1
    else if text = secondXpubText.chars then some secondXpub.1
    else none
  base58FromBytes bytes :=
    if bytes = firstXpub.1 then some firstXpubText.chars
    else if bytes = secondXpub.1 then some secondXpubText.chars
    else none
  base58FromBytes_toBytes := by
    intro text bytes h
    split_ifs at h with hfirst hsecond
    · cases h
      rw [if_pos rfl, hfirst]
    · cases h
      rw [if_neg (by decide +kernel), if_pos rfl, hsecond]

theorem firstSigner_persists :
    Persists twoSignerLib firstSigner firstXpub ⟨[0, 1], by decide⟩ :=
  ⟨by decide +kernel, rfl⟩

theorem secondSigner_persists :
    Persists twoSignerLib secondSigner secondXpub ⟨[], by decide⟩ :=
  ⟨by decide +kernel, rfl⟩

theorem twoSignerMultisig_valid : twoSignerMultisig.Valid twoSignerLib where
  threshold_pos := by decide
  threshold_le := by decide
  signers_le := by decide
  persists := by
    intro signer hsigner
    rcases List.mem_cons.1 hsigner with rfl | hsigner
    · exact ⟨_, _, firstSigner_persists⟩
    · obtain rfl := List.mem_singleton.1 hsigner
      exact ⟨_, _, secondSigner_persists⟩

/-- Both signers are read back with the details of the first signer, for which there is room; the record of
version 1 is read as it was written; and a record of zeros is rejected. -/
theorem multisig_record_exact_two :
    (∃ bytes, twoSignerMultisig.toBytes twoSignerLib = .ok (some bytes) ∧
      ∃ outputs, List.Forall₂ (Derives twoSignerLib) twoSignerMultisig.signers outputs.1 ∧
        multisigDataFromBytes twoSignerLib bytes 1 =
          .ok (twoSignerMultisig.header.record outputs, [firstSigner], 2)) ∧
      multisigDataFromBytes twoSignerLib (legacyBody ++ twoSignerHmac legacyBody) 15 =
        .ok (legacyHeader.record ⟨[firstChild, secondXpub], by decide⟩, [], 0) ∧
      ¬ Overruns twoSignerLib 15 (legacyBody ++ twoSignerHmac legacyBody) ∧
      multisigDataFromBytes twoSignerLib (List.replicate 114 0) 15 = .error .refused := by
  obtain ⟨bytes, hbytes, -, hread⟩ :=
    (multisig_record_exact twoSignerLib).1 twoSignerMultisig twoSignerMultisig_valid
  obtain ⟨hlegacy, hoverruns⟩ := ((multisig_record_exact twoSignerLib).2
    (legacyBody ++ twoSignerHmac legacyBody) 15 (by decide +kernel)).2 (by decide +kernel)
  have hread' := hlegacy legacyHeader [1, 6, 1, 2] ⟨[firstChild, secondXpub], by decide⟩
    (twoSignerHmac legacyBody) (by decide) ⟨by decide, fun _ => rfl, 1, rfl, rfl⟩ (List.cons_ne_nil _ _)
    (length_twoSignerHmac _) (by simp [legacyBody])
  refine ⟨⟨bytes, hbytes, (hread 1).2 ?_⟩, hread', ?_,
    ((multisig_record_exact twoSignerLib).2 _ 15 (by decide)).1 (by decide +kernel)⟩
  · intro signer hsigner
    rcases List.mem_cons.1 hsigner with rfl | hsigner
    · exact ⟨firstChild, firstXpub, _, firstSigner_persists, rfl⟩
    · obtain rfl := List.mem_singleton.1 hsigner
      exact ⟨secondXpub, secondXpub, _, secondSigner_persists, rfl⟩
  · exact hoverruns.1 (by rw [hread']; simp)

/-- A record that promises fifteen signers and ends within the first. -/
def overrunBody : Bytes := [3, 4, 0, 1, 0, 15, 0, 0, 0, 0, 16] ++ List.replicate 71 0

/-- Whatever the key, such a record is read beyond its end once its hash is right. -/
theorem multisigDataFromBytes_overrun (key : MasterKey) :
    MIN_MULTISIG_BYTES_LEN ≤ (overrunBody ++ key.hmacSha256 overrunBody).length ∧
      Authentic key (overrunBody ++ key.hmacSha256 overrunBody) ∧
      ∀ (L : MultisigLib Unit) (n : ℕ), L.key = key →
        multisigDataFromBytes L (overrunBody ++ key.hmacSha256 overrunBody) n =
          .error (.fault .overflow) := by
  have hmin : MIN_MULTISIG_BYTES_LEN ≤ (overrunBody ++ key.hmacSha256 overrunBody).length := by
    rw [List.length_append, key.length_hmacSha256]
    decide
  have hauth : Authentic key (overrunBody ++ key.hmacSha256 overrunBody) :=
    authentic_append key (by decide)
  refine ⟨hmin, hauth, ?_⟩
  rintro L n rfl
  rw [multisigDataFromBytes_overflow_iff L hmin hauth]
  have hpath : (List.replicate 16 (0 : UInt32)).length ≤ MAX_PATH_LEN := by decide
  refine ⟨{ version := 3, variant := 4, sorted := false, threshold := 1, masterBlindingKey := none },
    [3, 4, 0, 1, 0], _, ⟨by decide, fun _ => rfl, 0, rfl, rfl⟩, by decide,
    ⟨15, [], [], _, by decide, by decide, .nil, .xpub ⟨[0, 0, 0, 0], rfl⟩
      ⟨List.replicate 16 0, hpath⟩ (List.replicate 7 0 ++ L.key.hmacSha256 overrunBody) ?_, rfl⟩, ?_⟩
  · rw [List.length_append, L.key.length_hmacSha256]
    decide
  · rfl

/-- The record under the key of the wallet above. -/
theorem multisig_record_overrun :
    MIN_MULTISIG_BYTES_LEN ≤
        (overrunBody ++ singleMultisigLib.key.hmacSha256 overrunBody).length ∧
      Authentic singleMultisigLib.key
        (overrunBody ++ singleMultisigLib.key.hmacSha256 overrunBody) ∧
      multisigDataFromBytes singleMultisigLib
          (overrunBody ++ singleMultisigLib.key.hmacSha256 overrunBody) 1 =
        .error (.fault .overflow) := by
  obtain ⟨hmin, hauth, hrun⟩ := multisigDataFromBytes_overrun singleMultisigLib.key
  exact ⟨hmin, hauth, hrun singleMultisigLib 1 rfl⟩

end Jade
