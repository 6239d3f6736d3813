/-
**A multisig wallet from a text file (`process/register_multisig.c`).**

The file is read line by line, each line a name and a value.  The name, the policy, the format and a
derivation must come before the first signer; a derivation holds until the next one is read.  The
value of a line is copied into an array of 128 bytes, a derivation must not be empty, and the
version of a key is overwritten when it is not the one of the network.

The file that the device writes for a registered wallet is therefore not always read back: the text
of a derivation can have up to 193 characters, a registered derivation can be empty, and a registered
key can have the other version.

Main definitions:

* `Jade.splitLine`, `Jade.FileState`, `Jade.processLine` — one line;
* `Jade.registerMultisigFile` — the code;
* `Jade.Registered` — what is known of a registered wallet;
* `Jade.Importable` — the signers that are read back.

Main results:

* `Jade.foldlM_headLines`, `Jade.foldlM_signerLines` — what the lines of an exported file are read as;
* `Jade.multisig_file_exact` — **the exporter stays within its buffer, and what it writes is accepted
  and yields the same record exactly when every signer is importable**.
-/

import Jade.Registration.ExportFile

set_option relaxedAutoImplicit false
set_option autoImplicit false

namespace Jade

open Exec

/-! ### Lines -/

/-- The lines of a file, without the empty ones and the comments: `get_next_line`. -/
def fileLines (file : Bytes) : List Bytes := (textLines file).filter (·.head? != some 0x23)

/-- `split_line`: the name and the value, which goes into an array of 128 bytes. -/
def splitLine (line : Bytes) : Option (Bytes × Bytes) :=
  match line.dropWhile (· ≠ 0x3a) with
  | [] => none
  | _ :: rest =>
      let name := line.takeWhile (· ≠ 0x3a)
      let value := rest.dropWhile isSpace
      if name.isEmpty || value.isEmpty || decide (128 ≤ value.length) then none
      else some (name, value)

/-- What has been read; a field that is not there has not been read yet. -/
structure FileState where
  name : Option (CString MAX_MULTISIG_NAME_SIZE)
  nameTruncated : Bool
  policy : Option (ℕ × ℕ)
  variant : Option ScriptVariant
  sorted : Option Bool
  blindingKey : Option (Sized MULTISIG_MASTER_BLINDING_KEY_SIZE)
  /-- the current signer's derivation path -/
  path : Option PathArray
  signers : List Signer

def FileState.init : FileState := ⟨none, false, none, none, none, none, none, []⟩

def rejectFile {α : Type} (message : String) : Except RegisterStop α :=
  .error (.rejected CBOR_RPC_BAD_PARAMETERS message)

/-- "N of M" -/
def parsePolicy (value : Bytes) : Option (ℕ × ℕ) :=
  match value.dropWhile (· ≠ 0x20) with
  | [] => none
  | _ :: rest =>
      match rest.dropWhile (· ≠ 0x20) with
      | [] => none
      | _ :: last =>
          let (threshold, end1) := strtoul (value.takeWhile (· ≠ 0x20))
          let (nsigners, end2) := strtoul last
          if threshold = 0 ∨ nsigners = 0 ∨ nsigners < threshold ∨ MAX_ALLOWED_SIGNERS < nsigners ∨
              end1 ≠ [] ∨ end2 ≠ [] ∨
              !sameLetters (Bytes.cstr (rest.takeWhile (· ≠ 0x20))) (ascii "of") then none
          else some (threshold, nsigners)

/-- The script type of a name. -/
def parseFormat (value : Bytes) : Option ScriptVariant :=
  if sameLetters (Bytes.cstr value) (ascii "P2WSH") then some .multiP2wsh
  else if sameLetters (Bytes.cstr value) (ascii "P2WSH-P2SH") ||
      sameLetters (Bytes.cstr value) (ascii "P2SH-P2WSH") then some .multiP2wshP2sh
  else if sameLetters (Bytes.cstr value) (ascii "P2SH") then some .multiP2sh
  else none

def parseSorted (value : Bytes) : Option Bool :=
  if sameLetters (Bytes.cstr value) (ascii "TRUE") then some true
  else if sameLetters (Bytes.cstr value) (ascii "FALSE") then some false
  else none

/-- The name, with its spaces sanitized to underscores. -/
def importName (value : Bytes) : CString MAX_MULTISIG_NAME_SIZE where
  chars := ((Bytes.cstr value).take (MAX_MULTISIG_NAME_SIZE - 1)).map
    fun c => if isSpace c then 0x5f else c
  fits := by
    rw [List.length_map, List.length_take]
    exact Nat.lt_of_le_of_lt (Nat.min_le_left _ _) (by decide)

def readName (value : Bytes) (st : FileState) : Except RegisterStop FileState :=
  if st.name.isSome then rejectFile "Invalid multisig file"
  else if !storageKeyNameValid (importName value).chars then rejectFile "Invalid multisig name"
  else .ok { st with
    name := some (importName value)
    nameTruncated := decide (MAX_MULTISIG_NAME_SIZE - 1 < value.length) }

def readPolicy (value : Bytes) (st : FileState) : Except RegisterStop FileState :=
  if st.policy.isSome then rejectFile "Invalid multisig file"
  else
    match parsePolicy value with
    | none => rejectFile "Invalid multisig policy"
    | some policy => .ok { st with policy := some policy }

def readFormat (value : Bytes) (st : FileState) : Except RegisterStop FileState :=
  if st.variant.isSome then rejectFile "Invalid multisig file"
  else
    match parseFormat value with
    | none => rejectFile "Invalid multisig format"
    | some variant => .ok { st with variant := some variant }

def readSortedFlag (value : Bytes) (st : FileState) : Except RegisterStop FileState :=
  if st.sorted.isSome then rejectFile "Invalid multisig file"
  else
    match parseSorted value with
    | none => rejectFile "Invalid sorted flag"
    | some sorted => .ok { st with sorted := some sorted }

section Model

variable {K : Type} (L : FileLib K)

def readBlindingKeyHex (value : Bytes) (st : FileState) : Except RegisterStop FileState :=
  if st.blindingKey.isSome then rejectFile "Invalid multisig file"
  else if value.length ≠ 2 * MULTISIG_MASTER_BLINDING_KEY_SIZE then
    rejectFile "Invalid master blinding key"
  else
    match L.hexToBytes value with
    | none => rejectFile "Invalid master blinding key"
    | some key =>
        if h : key.length = MULTISIG_MASTER_BLINDING_KEY_SIZE then
          .ok { st with blindingKey := some ⟨key, h⟩ }
        else rejectFile "Invalid master blinding key"

/-- The derivation, which may be seen multiple times, for instance once per signer. -/
def readDerivation (value : Bytes) (st : FileState) : Except RegisterStop FileState :=
  match L.bip32PathFromStr value with
  | none => rejectFile "Invalid derivation path"
  | some path =>
      if h : path.length ≤ MAX_PATH_LEN then
        if path.isEmpty then rejectFile "Invalid derivation path"
        else .ok { st with path := some ⟨path, h⟩ }
      else rejectFile "Invalid derivation path"

/-- `BIP32_VER_TEST_PUBLIC` or `BIP32_VER_MAIN_PUBLIC` -/
def xpubVersion (testnet : Bool) : Bytes :=
  if testnet then [0x04, 0x35, 0x87, 0xcf] else [0x04, 0x88, 0xb2, 0x1e]

/-- The key of a signer; its version bytes are overwritten if they are not as expected. -/
def importXpub (testnet : Bool) (value : Bytes) : Except RegisterStop (CString 120) :=
  if h : value.length < 4 ∨ 120 ≤ value.length then rejectFile "Invalid signer xpub"
  else
    match L.base58ToBytes (Bytes.cstr value) with
    | none => rejectFile "Invalid signer xpub"
    | some serialised =>
        if serialised.length ≠ BIP32_SERIALIZED_LEN then rejectFile "Invalid signer xpub"
        else if serialised.take 4 = xpubVersion testnet then
          .ok ⟨Bytes.cstr value, Nat.lt_of_le_of_lt (List.takeWhile_prefix _).length_le
            (Nat.not_le.1 (not_or.1 h).2)⟩
        else
          match L.base58FromBytes (xpubVersion testnet ++ serialised.drop 4) with
          | none => rejectFile "Invalid signer xpub"
          | some xpub => if hlt : xpub.length < 120 then .ok ⟨xpub, hlt⟩ else .error (.fault .assert)

/-- "fingerprint: xpub", after all the mandatory fields. -/
def readSignerLine (testnet : Bool) (name value : Bytes) (st : FileState) :
    Except RegisterStop FileState :=
  match st.name, st.policy, st.variant, st.path with
  | some _, some (_, nsigners), some _, some path =>
      if nsigners ≤ st.signers.length then rejectFile "Invalid number of signers"
      else
        match L.hexToBytes name with
        | none => rejectFile "Invalid signer fingerprint"
        | some fingerprint =>
            if h : fingerprint.length = BIP32_KEY_FINGERPRINT_LEN then
              if path.1.isEmpty then rejectFile "Derivation path too long"
              else do
                let xpub ← importXpub L testnet value
                return { st with signers := st.signers ++
                  [⟨⟨fingerprint, h⟩, path, xpub, .elements ⟨[], Nat.zero_le _⟩⟩] }
            else rejectFile "Invalid signer fingerprint"
  | _, _, _, _ => rejectFile "Insufficient information records"

/-- Handle a line by its name. -/
def readField (testnet : Bool) (name value : Bytes) (st : FileState) :
    Except RegisterStop FileState :=
  if sameLetters name MSIG_FILE_NAME then readName value st
  else if sameLetters name MSIG_FILE_POLICY then readPolicy value st
  else if sameLetters name MSIG_FILE_FORMAT then readFormat value st
  else if sameLetters name MSIG_FILE_SORTED then readSortedFlag value st
  else if sameLetters name MSIG_FILE_BLINDING_KEY then readBlindingKeyHex L value st
  else if sameLetters name MSIG_FILE_DERIVATION then readDerivation L value st
  else if name.length = BIP32_KEY_FINGERPRINT_LEN * 2 then readSignerLine L testnet name value st
  else rejectFile "Invalid multisig file"

/-- One turn of the loop of `register_multisig_file`. -/
def processLine (testnet : Bool) (st : FileState) (line : Bytes) : Except RegisterStop FileState :=
  match splitLine line with
  | none => rejectFile "Invalid multisig file"
  | some (name, value) => readField L testnet name value st

/-- What `register_multisig_file` does when the file is exhausted. -/
def finishFile (keepTruncated : Bool) (st : FileState) : Except RegisterStop MultisigArgs :=
  match st.name, st.policy, st.variant, st.path with
  | some name, some (threshold, nsigners), some variant, some _ =>
      if st.signers.length ≠ nsigners ∨ nsigners = 0 then rejectFile "Invalid number of signers"
      else if st.nameTruncated && name.chars.length != MAX_MULTISIG_NAME_SIZE - 1 then
        .error (.fault .assert)
      else if st.nameTruncated && !keepTruncated then rejectFile "Invalid multisig name"
      else .ok {
        name
        variant
        sorted := st.sorted.getD true
        threshold
        signers := st.signers
        masterBlindingKey := st.blindingKey }
  | _, _, _, _ => rejectFile "Insufficient information records"

/-- `register_multisig_file`; `testnet` is the restriction of the device, and `keepTruncated` the
user's answer when the name is too long. -/
def registerMultisigFile (R : Registrar) (testnet keepTruncated : Bool) (file : Bytes)
    (store : MultisigStore) : Except RegisterStop MultisigStore := do
  verified (jadeVerify (file.length ≠ 0))
  let st ← (fileLines file).foldlM (processLine L testnet) FileState.init
  let args ← finishFile keepTruncated st
  registerMultisig L.toSignerLib R args store

end Model

/-! ### The lines of an exported file -/

/-- A line without its end. -/
def keyValue (key value : Bytes) : Bytes := key ++ ascii ": " ++ value

/-- A text that can stand behind a colon: not empty, without a line end, and not beginning with a
space. -/
def IsValue (value : Bytes) : Prop :=
  ∃ c cs, value = c :: cs ∧ isSpace c = false ∧ 0x0a ∉ value

theorem isValue_of_head {value : Bytes} (hhead : value.head?.map isSpace = some false)
    (heol : 0x0a ∉ value) : IsValue value := by
  cases value with
  | nil => cases hhead
  | cons c cs => exact ⟨c, cs, rfl, Option.some.inj hhead, heol⟩

theorem isSpace_of_isGraph {c : UInt8} (h : isGraph c = true) : isSpace c = false := by
  simp only [isGraph, Bool.and_eq_true, decide_eq_true_eq, UInt8.le_iff_toNat_le] at h
  have h33 : 33 ≤ c.toNat := h.1
  have hne : c ≠ 0x20 := by
    rintro rfl
    exact absurd h33 (by decide)
  have hgt : ¬ c ≤ 0x0d := by
    rw [UInt8.le_iff_toNat_le]
    intro hle
    have : c.toNat ≤ 13 := hle
    omega
  simp [isSpace, hne, hgt]

/-- Printable characters make a value. -/
theorem isValue_of_isGraph {value : Bytes} (hne : value ≠ []) (h : value.all isGraph = true) :
    IsValue value := by
  cases value with
  | nil => exact absurd rfl hne
  | cons c cs =>
      rw [List.all_eq_true] at h
      refine ⟨c, cs, rfl, isSpace_of_isGraph (h c List.mem_cons_self), ?_⟩
      intro hmem
      exact absurd (h 0x0a hmem) (by decide)

/-- A text that can stand before a colon: letters and digits. -/
def IsKey (key : Bytes) : Prop := key ≠ [] ∧ key.all isAlnum = true

theorem IsKey.notMem {key : Bytes} (h : IsKey key) {c : UInt8} (hc : isAlnum c = false) : c ∉ key := by
  intro hmem
  rw [List.all_eq_true.1 h.2 c hmem] at hc
  cases hc

/-- A key is split off from its value, which must fit its array. -/
theorem splitLine_keyValue {key value : Bytes} (hkey : IsKey key) (hvalue : IsValue value) :
    splitLine (keyValue key value) = if 128 ≤ value.length then none else some (key, value) := by
  obtain ⟨c, cs, rfl, hspace, -⟩ := hvalue
  have hline : keyValue key (c :: cs) = key ++ 0x3a :: (0x20 :: c :: cs) := by
    rw [keyValue, List.append_assoc]
    rfl
  have hcolon : 0x3a ∉ key := hkey.notMem (by decide)
  obtain ⟨htake, hdrop⟩ := span_separator hcolon (0x20 :: c :: cs)
  have hvalue : (0x20 :: c :: cs).dropWhile isSpace = c :: cs := by
    rw [List.dropWhile_cons_of_pos (by decide), List.dropWhile_cons_of_neg (by simp [hspace])]
  have hempty : key.isEmpty = false := by simpa using hkey.1
  rw [splitLine, hline, hdrop]
  dsimp only
  rw [htake, hvalue, hempty]
  simp only [Bool.false_or, List.isEmpty_cons, decide_eq_true_eq]

/-- A line is taken off the front of the file. -/
theorem fileLines_textLine {key value : Bytes} (hkey : IsKey key) (hvalue : IsValue value)
    (rest : Bytes) :
    fileLines (textLine key value ++ rest) = keyValue key value :: fileLines rest := by
  obtain ⟨-, -, -, -, heol⟩ := hvalue
  have hhash : 0x23 ∉ key := hkey.notMem (by decide)
  have hkeyEol : 0x0a ∉ key := hkey.notMem (by decide)
  have hline : textLine key value ++ rest = keyValue key value ++ 0x0a :: rest := by
    simp [textLine, keyValue]
  have hlineEol : 0x0a ∉ keyValue key value := by
    rw [keyValue, List.mem_append, List.mem_append]
    rintro ((h | h) | h)
    · exact hkeyEol h
    · exact absurd h (by decide)
    · exact heol h
  rw [fileLines, hline, textLines_append (by simp [keyValue, hkey.1]) hlineEol,
    List.filter_cons_of_pos]
  · rfl
  · cases key with
    | nil => exact absurd rfl hkey.1
    | cons k key =>
        have hk : k ≠ 0x23 := fun h => hhash (h ▸ List.mem_cons_self)
        simpa [keyValue] using hk

section Run

variable {K : Type} {L : FileLib K}

/-- A line at the front of the file is handled first. -/
theorem foldlM_textLine {key value : Bytes} (hkey : IsKey key) (hvalue : IsValue value)
    (testnet : Bool) (rest : Bytes) (st : FileState) :
    (fileLines (textLine key value ++ rest)).foldlM (processLine L testnet) st =
      (if 128 ≤ value.length then rejectFile "Invalid multisig file"
        else readField L testnet key value st) >>= fun st =>
          (fileLines rest).foldlM (processLine L testnet) st := by
  rw [fileLines_textLine hkey hvalue, List.foldlM_cons, processLine, splitLine_keyValue hkey hvalue]
  by_cases hlen : 128 ≤ value.length
  · rw [if_pos hlen, if_pos hlen]
  · rw [if_neg hlen, if_neg hlen]

/-- A line that is accepted. -/
theorem foldlM_textLine_of_ok {key value : Bytes} (hkey : IsKey key) (hvalue : IsValue value)
    (hlen : value.length < 128) {testnet : Bool} {rest : Bytes} {st st' : FileState}
    (h : readField L testnet key value st = .ok st') :
    (fileLines (textLine key value ++ rest)).foldlM (processLine L testnet) st =
      (fileLines rest).foldlM (processLine L testnet) st' := by
  rw [foldlM_textLine hkey hvalue, if_neg (Nat.not_le.2 hlen), h]
  rfl

/-- What has been read when the signers are reached. -/
def headState (name : CString MAX_MULTISIG_NAME_SIZE) (threshold numSigners : ℕ)
    (variant : ScriptVariant) (sorted : Bool)
    (key : Option (Sized MULTISIG_MASTER_BLINDING_KEY_SIZE)) : FileState where
  name := some name
  nameTruncated := false
  policy := some (threshold, numSigners)
  variant := some variant
  sorted := if sorted then none else some false
  blindingKey := key
  path := none
  signers := []

/-- A valid name is imported as it is. -/
theorem importName_of_valid {name : CString MAX_MULTISIG_NAME_SIZE}
    (h : storageKeyNameValid name.chars = true) : importName name.chars = name := by
  obtain ⟨chars, hfits⟩ := name
  simp only [storageKeyNameValid, Bool.and_eq_true, List.all_eq_true] at h
  have hcstr : Bytes.cstr chars = chars := by
    rw [Bytes.cstr, ← List.append_nil chars, List.takeWhile_append_of_pos, List.takeWhile_nil]
    intro c hc
    refine decide_eq_true fun h0 => ?_
    exact absurd (h0 ▸ h.2 c hc) (by decide)
  have hmap : chars.map (fun c => if isSpace c then 0x5f else c) = chars := by
    conv_rhs => rw [← List.map_id chars]
    refine List.map_congr_left fun c hc => ?_
    rw [isSpace_of_isGraph (h.2 c hc)]
    rfl
  have htake : chars.take (MAX_MULTISIG_NAME_SIZE - 1) = chars :=
    List.take_of_length_le (Nat.le_sub_one_of_lt hfits)
  simp only [importName, hcstr, htake, hmap]

theorem readName_of_valid {name : CString MAX_MULTISIG_NAME_SIZE}
    (h : storageKeyNameValid name.chars = true) {st : FileState} (hst : st.name = none) :
    readName name.chars st = .ok { st with name := some name, nameTruncated := false } := by
  have hlen : ¬ MAX_MULTISIG_NAME_SIZE - 1 < name.chars.length :=
    Nat.not_lt.2 (Nat.le_sub_one_of_lt name.fits)
  simp [readName, hst, importName_of_valid h, h, decide_eq_false hlen]

/-- The policy is printed and parsed. -/
theorem parsePolicy_policyText {threshold numSigners : ℕ} (hpos : 0 < threshold)
    (hle : threshold ≤ numSigners) (hmax : numSigners ≤ MAX_ALLOWED_SIGNERS) :
    parsePolicy (policyText threshold numSigners) = some (threshold, numSigners) ∧
      IsValue (policyText threshold numSigners) ∧ (policyText threshold numSigners).length < 128 := by
  -- at most fifteen signers
  have hall : ∀ t : Fin 16, ∀ n : Fin 16, 0 < t.val → t.val ≤ n.val →
      parsePolicy (policyText t.val n.val) = some (t.val, n.val) ∧
        (policyText t.val n.val).head?.map isSpace = some false ∧ 0x0a ∉ policyText t.val n.val ∧
          (policyText t.val n.val).length < 128 := by
    decide +kernel
  have hn : numSigners < 16 := Nat.lt_succ_of_le hmax
  obtain ⟨hparse, hhead, heol, hlen⟩ :=
    hall ⟨threshold, Nat.lt_of_le_of_lt hle hn⟩ ⟨numSigners, hn⟩ hpos hle
  exact ⟨hparse, isValue_of_head hhead heol, hlen⟩

/-- The format is printed and parsed. -/
theorem parseFormat_formatText {variant : ScriptVariant} {format : Bytes}
    (h : formatText (scriptVariantByte variant) = some format) :
    parseFormat format = some variant ∧ IsValue format ∧ format.length < 128 := by
  have hall : ∀ v f, formatText (scriptVariantByte v) = some f →
      parseFormat f = some v ∧ f.head?.map isSpace = some false ∧ 0x0a ∉ f ∧ f.length < 128 := by
    intro v f hf
    cases v <;> cases hf <;> decide +kernel
  obtain ⟨hparse, hhead, heol, hlen⟩ := hall variant format h
  exact ⟨hparse, isValue_of_head hhead heol, hlen⟩

theorem isValue_of_isAlnum {value : Bytes} (hne : value ≠ []) (h : value.all isAlnum = true) :
    IsValue value := by
  refine isValue_of_isGraph hne (List.all_eq_true.2 fun c hc => ?_)
  have hall : ∀ n : Fin 256, isAlnum (UInt8.ofNat n.val) = true →
      isGraph (UInt8.ofNat n.val) = true := by decide +kernel
  have := hall ⟨c.toNat, c.toNat_lt⟩
  rw [UInt8.ofNat_toNat] at this
  exact this (List.all_eq_true.1 h c hc)

theorem isKey_hex (hL : L.Lawful) {bytes : Bytes} (hne : bytes ≠ []) : IsKey (L.hexFromBytes bytes) := by
  refine ⟨?_, hL.hex_text bytes⟩
  intro hnil
  have hlen := hL.length_hex bytes
  have := List.length_pos_iff.2 hne
  rw [hnil, List.length_nil] at hlen
  omega

theorem readBlindingKeyHex_of_hex (hL : L.Lawful) (key : Sized MULTISIG_MASTER_BLINDING_KEY_SIZE)
    {st : FileState} (hst : st.blindingKey = none) :
    readBlindingKeyHex L (L.hexFromBytes key.1) st = .ok { st with blindingKey := some key } := by
  have hlen : (L.hexFromBytes key.1).length = 2 * MULTISIG_MASTER_BLINDING_KEY_SIZE := by
    rw [hL.length_hex, key.2]
  simp [readBlindingKeyHex, hst, hlen, hL.hexToBytes_fromBytes, key.2]

/-- The comment at the front of the file. -/
theorem fileLines_comment (rest : Bytes) :
    fileLines (ascii "# Exported by Blockstream Jade" ++ ([0x0a] ++ rest)) = fileLines rest := by
  rw [fileLines, List.singleton_append, textLines_append (by decide) (by decide),
    List.filter_cons_of_neg (by decide)]
  rfl

theorem isKey_fields : IsKey MSIG_FILE_NAME ∧ IsKey MSIG_FILE_POLICY ∧ IsKey MSIG_FILE_FORMAT ∧
    IsKey MSIG_FILE_SORTED ∧ IsKey MSIG_FILE_BLINDING_KEY ∧ IsKey MSIG_FILE_DERIVATION := by
  unfold IsKey
  decide

/-- The names of the fields are told apart. -/
theorem readField_fields (testnet : Bool) (value : Bytes) (st : FileState) :
    readField L testnet MSIG_FILE_NAME value st = readName value st ∧
      readField L testnet MSIG_FILE_POLICY value st = readPolicy value st ∧
      readField L testnet MSIG_FILE_FORMAT value st = readFormat value st ∧
      readField L testnet MSIG_FILE_SORTED value st = readSortedFlag value st ∧
      readField L testnet MSIG_FILE_BLINDING_KEY value st = readBlindingKeyHex L value st ∧
      readField L testnet MSIG_FILE_DERIVATION value st = readDerivation L value st := by
  refine ⟨if_pos (by decide), ?_, ?_, ?_, ?_, ?_⟩
  · rw [readField, if_neg (by decide), if_pos (by decide)]
  · rw [readField, if_neg (by decide), if_neg (by decide), if_pos (by decide)]
  · rw [readField, if_neg (by decide), if_neg (by decide), if_neg (by decide), if_pos (by decide)]
  · rw [readField, if_neg (by decide), if_neg (by decide), if_neg (by decide), if_neg (by decide),
      if_pos (by decide)]
  · rw [readField, if_neg (by decide), if_neg (by decide), if_neg (by decide), if_neg (by decide),
      if_neg (by decide), if_pos (by decide)]

theorem readPolicy_of_ok {value : Bytes} {policy : ℕ × ℕ} {st : FileState} (hst : st.policy = none)
    (h : parsePolicy value = some policy) :
    readPolicy value st = .ok { st with policy := some policy } := by
  rw [readPolicy, hst, h]
  rfl

theorem readFormat_of_ok {value : Bytes} {variant : ScriptVariant} {st : FileState}
    (hst : st.variant = none) (h : parseFormat value = some variant) :
    readFormat value st = .ok { st with variant := some variant } := by
  rw [readFormat, hst, h]
  rfl

theorem readSortedFlag_of_ok {value : Bytes} {sorted : Bool} {st : FileState}
    (hst : st.sorted = none) (h : parseSorted value = some sorted) :
    readSortedFlag value st = .ok { st with sorted := some sorted } := by
  rw [readSortedFlag, hst, h]
  rfl

/-- The lines in front of the signers. -/
theorem foldlM_headLines (hL : L.Lawful) {name : CString MAX_MULTISIG_NAME_SIZE}
    {threshold numSigners : ℕ} {variant : ScriptVariant} {format : Bytes} {sorted : Bool}
    {key : Option (Sized MULTISIG_MASTER_BLINDING_KEY_SIZE)}
    (hname : storageKeyNameValid name.chars = true) (hpos : 0 < threshold)
    (hle : threshold ≤ numSigners) (hmax : numSigners ≤ MAX_ALLOWED_SIGNERS)
    (hformat : formatText (scriptVariantByte variant) = some format) (testnet : Bool)
    (rest : Bytes) :
    (fileLines (headText L name.chars threshold numSigners format sorted key ++ rest)).foldlM
        (processLine L testnet) FileState.init =
      (fileLines rest).foldlM (processLine L testnet)
        (headState name threshold numSigners variant sorted key) := by
  obtain ⟨hkName, hkPolicy, hkFormat, hkSorted, hkKey, -⟩ := isKey_fields
  obtain ⟨hpolicy, hvPolicy, hlPolicy⟩ := parsePolicy_policyText hpos hle hmax
  obtain ⟨hfmt, hvFormat, hlFormat⟩ := parseFormat_formatText hformat
  have hvName : IsValue name.chars := by
    simp only [storageKeyNameValid, Bool.and_eq_true] at hname
    exact isValue_of_isGraph (by simpa using hname.1.1) hname.2
  have hlName : name.chars.length < 128 := Nat.lt_trans name.fits (by decide)
  unfold headText
  simp only [List.append_assoc]
  rw [fileLines_comment,
    foldlM_textLine_of_ok hkName hvName hlName
      ((readField_fields testnet _ _).1.trans (readName_of_valid hname rfl)),
    foldlM_textLine_of_ok hkPolicy hvPolicy hlPolicy
      ((readField_fields testnet _ _).2.1.trans (readPolicy_of_ok rfl hpolicy)),
    foldlM_textLine_of_ok hkFormat hvFormat hlFormat
      ((readField_fields testnet _ _).2.2.1.trans (readFormat_of_ok rfl hfmt))]
  -- the two lines that need not be there
  have hsortedLine : ∀ (st : FileState) (tail : Bytes), st.sorted = none →
      (fileLines ((if sorted then [] else textLine MSIG_FILE_SORTED (ascii "False")) ++ tail)).foldlM
          (processLine L testnet) st =
        (fileLines tail).foldlM (processLine L testnet)
          { st with sorted := if sorted then none else some false } := by
    intro st tail hst
    cases sorted with
    | true =>
        rw [if_pos rfl, if_pos rfl, List.nil_append, ← hst]
    | false =>
        rw [if_neg Bool.false_ne_true, if_neg Bool.false_ne_true,
          foldlM_textLine_of_ok hkSorted (isValue_of_head (by decide) (by decide)) (by decide)
            ((readField_fields testnet _ _).2.2.2.1.trans
              (readSortedFlag_of_ok hst (by decide : parseSorted (ascii "False") = some false)))]
  rw [hsortedLine _ _ rfl]
  cases key with
  | none => rfl
  | some key =>
      have hne : key.1 ≠ [] := List.ne_nil_of_length_pos (by rw [key.2]; decide)
      have hlen : (L.hexFromBytes key.1).length = 64 := by rw [hL.length_hex, key.2]; rfl
      dsimp only
      rw [foldlM_textLine_of_ok hkKey (isValue_of_isAlnum (isKey_hex hL hne).1 (hL.hex_text _))
        (by omega) ((readField_fields testnet _ _).2.2.2.2.1.trans
          (readBlindingKeyHex_of_hex hL key rfl))]
      rfl

/-! ### The lines of the signers -/

/-- The signer, with its key as text, is what was registered. -/
def SignerText (L : FileLib K) (signer : Signer) : Prop :=
  ∃ xpub path, Persists L.toMultisigLib signer xpub path

theorem SignerText.spec (hL : L.Lawful) {signer : Signer} (h : SignerText L signer) :
    IsValue signer.xpub.chars ∧ 82 ≤ signer.xpub.chars.length ∧ signer.xpub.chars.length ≤ 112 ∧
      Bytes.cstr signer.xpub.chars = signer.xpub.chars := by
  obtain ⟨xpub, path, hbytes, -⟩ := h
  obtain ⟨hmin, hmax, halnum⟩ := hL.base58_text hbytes xpub.2
  refine ⟨isValue_of_isAlnum (List.ne_nil_of_length_pos (by omega)) halnum, hmin, hmax, ?_⟩
  rw [Bytes.cstr, ← List.append_nil signer.xpub.chars, List.takeWhile_append_of_pos,
    List.takeWhile_nil]
  intro c hc
  refine decide_eq_true fun h0 => ?_
  exact absurd (h0 ▸ List.all_eq_true.1 halnum c hc) (by decide)

/-- What a signer is imported as. -/
def ImportsAs (L : FileLib K) (testnet : Bool) (signer signer' : Signer) : Prop :=
  signer.derivation.1 ≠ [] ∧ (pathText signer.derivation.1).length < 128 ∧
    ∃ xpub, importXpub L testnet signer.xpub.chars = .ok xpub ∧
      signer' = ⟨signer.fingerprint, signer.derivation, xpub, .elements ⟨[], Nat.zero_le _⟩⟩

/-- A signer is complete. -/
def FileState.addSigner (st : FileState) (signer : Signer) : FileState :=
  { st with path := some signer.derivation, signers := st.signers ++ [signer] }

theorem isValue_pathText (path : PathArray) : IsValue (pathText path.1) := by
  obtain ⟨-, t, htext, -, hgraph⟩ := pathText_spec path
  exact isValue_of_isGraph (by rw [htext]; simp) hgraph

/-- The text of a derivation is read back, unless it is empty. -/
theorem readDerivation_pathText {path : PathArray} (hread : L.ReadsPath path.1)
    (st st' : FileState) :
    readDerivation L (pathText path.1) st = .ok st' ↔
      path.1 ≠ [] ∧ st' = { st with path := some path } := by
  by_cases hnil : path.1 = []
  · have hreject : readDerivation L (pathText path.1) st = rejectFile "Invalid derivation path" := by
      rw [readDerivation, hnil]
      rcases hread.nil_text hnil with h | h
      · rw [h]
      · rw [h]
        exact dif_pos (Nat.zero_le _)
    rw [hreject]
    constructor
    · intro h
      cases h
    · intro h
      exact absurd hnil h.1
  · have hok : readDerivation L (pathText path.1) st = .ok { st with path := some path } := by
      have hempty : ¬ path.1.isEmpty = true := by simpa using hnil
      rw [readDerivation, hread.path_text hnil]
      dsimp only
      rw [dif_pos path.2, if_neg hempty]
    rw [hok]
    constructor
    · intro h
      exact ⟨hnil, (Except.ok.inj h).symm⟩
    · intro h
      rw [h.2]

/-- The name of a line with eight digits is none of the fields. -/
theorem readField_hex (hL : L.Lawful) (fingerprint : Sized BIP32_KEY_FINGERPRINT_LEN)
    (testnet : Bool) (value : Bytes) (st : FileState) :
    readField L testnet (L.hexFromBytes fingerprint.1) value st =
      readSignerLine L testnet (L.hexFromBytes fingerprint.1) value st := by
  have hlen : (L.hexFromBytes fingerprint.1).length = 8 := by
    rw [hL.length_hex, fingerprint.2]
    rfl
  have hne : ∀ field : Bytes, field.length ≠ 8 →
      ¬ sameLetters (L.hexFromBytes fingerprint.1) field = true := by
    intro field hfield hsame
    have := congrArg List.length (eq_of_beq hsame)
    rw [List.length_map, List.length_map, hlen] at this
    exact hfield this.symm
  rw [readField, if_neg (hne _ (by decide)), if_neg (hne _ (by decide)), if_neg (hne _ (by decide)),
    if_neg (hne _ (by decide)), if_neg (hne _ (by decide)), if_neg (hne _ (by decide))]
  exact if_pos hlen

/-- Name, policy and format have been read, and there is room for a signer. -/
structure FileState.Ready (st : FileState) (room : ℕ) : Prop where
  name : st.name ≠ none
  variant : st.variant ≠ none
  policy : ∃ threshold nsigners, st.policy = some (threshold, nsigners) ∧
    st.signers.length + room ≤ nsigners

theorem readSignerLine_eq (hL : L.Lawful) {signer : Signer} {testnet : Bool} {st : FileState}
    {room : ℕ} (hst : st.Ready (room + 1)) (hpath : st.path = some signer.derivation)
    (hne : signer.derivation.1 ≠ []) :
    readSignerLine L testnet (L.hexFromBytes signer.fingerprint.1) signer.xpub.chars st = (do
      let xpub ← importXpub L testnet signer.xpub.chars
      return { st with signers := st.signers ++
        [⟨signer.fingerprint, signer.derivation, xpub, .elements ⟨[], Nat.zero_le _⟩⟩] }) := by
  obtain ⟨name, hname⟩ := Option.ne_none_iff_exists'.1 hst.name
  obtain ⟨variant, hvariant⟩ := Option.ne_none_iff_exists'.1 hst.variant
  obtain ⟨threshold, nsigners, hpolicy, hroom⟩ := hst.policy
  have hempty : ¬ signer.derivation.1.isEmpty = true := by simpa using hne
  rw [readSignerLine, hname, hpolicy, hvariant, hpath]
  dsimp only
  rw [if_neg (by omega), hL.hexToBytes_fromBytes]
  dsimp only
  rw [dif_pos signer.fingerprint.2, if_neg hempty]

/-- The two lines of a signer. -/
theorem foldlM_signerText (hL : L.Lawful) {signer : Signer} (hsigner : SignerText L signer)
    (hread : L.ReadsPath signer.derivation.1) (testnet : Bool) {st st' : FileState} {room : ℕ} (hst : st.Ready (room + 1)) (rest : Bytes) :
    (fileLines (signerText L signer ++ rest)).foldlM (processLine L testnet) st = .ok st' ↔
      ∃ signer', ImportsAs L testnet signer signer' ∧
        (fileLines rest).foldlM (processLine L testnet) (st.addSigner signer') = .ok st' := by
  obtain ⟨hvalue, hmin, hmax, -⟩ := hsigner.spec hL
  obtain ⟨-, -, -, -, -, hkey⟩ := isKey_fields
  have hfp : signer.fingerprint.1 ≠ [] :=
    List.ne_nil_of_length_pos (by rw [signer.fingerprint.2]; decide)
  have hready : { st with path := some signer.derivation : FileState }.Ready (room + 1) :=
    ⟨hst.name, hst.variant, hst.policy⟩
  have hfits : ¬ 128 ≤ signer.xpub.chars.length := by omega
  rw [signerText, List.append_assoc, foldlM_textLine hkey (isValue_pathText _),
    (readField_fields testnet _ st).2.2.2.2.2]
  constructor
  · intro h
    obtain ⟨st1, h1, h⟩ := bind_eq_ok.1 h
    by_cases hlen : 128 ≤ (pathText signer.derivation.1).length
    · rw [if_pos hlen] at h1
      cases h1
    · rw [if_neg hlen, readDerivation_pathText hread] at h1
      obtain ⟨hne, rfl⟩ := h1
      rw [foldlM_textLine (isKey_hex hL hfp) hvalue, if_neg hfits, readField_hex hL,
        readSignerLine_eq hL hready rfl hne] at h
      obtain ⟨st2, h2, h⟩ := bind_eq_ok.1 h
      obtain ⟨xpub, hxpub, h2⟩ := bind_eq_ok.1 h2
      cases h2
      exact ⟨_, ⟨hne, Nat.not_le.1 hlen, xpub, hxpub, rfl⟩, h⟩
  · rintro ⟨signer', ⟨hne, hlen, xpub, hxpub, rfl⟩, h⟩
    rw [if_neg (Nat.not_le.2 hlen), (readDerivation_pathText hread _ _).2 ⟨hne, rfl⟩]
    refine bind_eq_ok.2 ⟨_, rfl, ?_⟩
    rw [foldlM_textLine (isKey_hex hL hfp) hvalue, if_neg hfits, readField_hex hL,
      readSignerLine_eq hL hready rfl hne, hxpub]
    exact h

theorem FileState.Ready.addSigner {st : FileState} {room : ℕ} (h : st.Ready (room + 1))
    (signer : Signer) : (st.addSigner signer).Ready room := by
  obtain ⟨threshold, nsigners, hpolicy, hroom⟩ := h.policy
  refine ⟨h.name, h.variant, threshold, nsigners, hpolicy, ?_⟩
  simp only [FileState.addSigner, List.length_append, List.length_singleton]
  omega

/-- **The lines of all the signers.** -/
theorem foldlM_signerLines (hL : L.Lawful) {signers : List Signer}
    (hsigners : ∀ signer ∈ signers, SignerText L signer)
    (hread : ∀ signer ∈ signers, L.ReadsPath signer.derivation.1) (testnet : Bool)
    {st st' : FileState} (hst : st.Ready signers.length) :
    (fileLines (signers.flatMap (signerText L))).foldlM (processLine L testnet) st = .ok st' ↔
      ∃ signers', List.Forall₂ (ImportsAs L testnet) signers signers' ∧
        st' = signers'.foldl FileState.addSigner st := by
  induction signers generalizing st with
  | nil =>
      constructor
      · intro h
        exact ⟨[], .nil, (Except.ok.inj h).symm⟩
      · rintro ⟨signers', hnil, rfl⟩
        cases hnil
        rfl
  | cons signer signers ih =>
      have hrest := @ih (fun s hs => hsigners s (List.mem_cons_of_mem signer hs))
        (fun s hs => hread s (List.mem_cons_of_mem signer hs))
      rw [List.flatMap_cons, foldlM_signerText hL (hsigners signer List.mem_cons_self)
        (hread signer List.mem_cons_self) testnet hst]
      constructor
      · rintro ⟨signer', himport, h⟩
        obtain ⟨signers', himports, rfl⟩ := (hrest (hst.addSigner signer')).1 h
        exact ⟨signer' :: signers', .cons himport himports, rfl⟩
      · rintro ⟨signers', himports, rfl⟩
        cases himports with
        | @cons _ signer' _ signers' himport himports =>
            exact ⟨signer', himport,
              (hrest (hst.addSigner signer')).2 ⟨signers', himports, rfl⟩⟩

/-- What adding signers leaves. -/
theorem foldl_addSigner (signers : List Signer) (st : FileState) :
    ∃ path, (signers ≠ [] → path ≠ none) ∧ signers.foldl FileState.addSigner st =
      { st with path, signers := st.signers ++ signers } := by
  induction signers generalizing st with
  | nil => exact ⟨st.path, fun h => absurd rfl h, by simp⟩
  | cons signer signers ih =>
      obtain ⟨path, hpath, hfold⟩ := ih (st.addSigner signer)
      refine ⟨path, fun _ => ?_, ?_⟩
      · cases signers with
        | nil =>
            have := congrArg FileState.path hfold
            simp only [List.foldl_nil, FileState.addSigner] at this
            rw [← this]
            simp
        | cons s signers => exact hpath (by simp)
      · rw [List.foldl_cons, hfold]
        simp [FileState.addSigner]

/-! ### What a signer is imported as -/

/-- The lines of a signer are read back. -/
def Importable (L : FileLib K) (testnet : Bool) (signer : Signer) : Prop :=
  signer.derivation.1 ≠ [] ∧ (pathText signer.derivation.1).length < 128 ∧
    ∃ bytes, L.base58ToBytes signer.xpub.chars = some bytes ∧ bytes.take 4 = xpubVersion testnet

theorem length_overwritten (testnet : Bool) {serialised : Bytes}
    (h : serialised.length = BIP32_SERIALIZED_LEN) :
    (xpubVersion testnet ++ serialised.drop 4).length = BIP32_SERIALIZED_LEN := by
  have hversion : (xpubVersion testnet).length = 4 := by cases testnet <;> rfl
  rw [List.length_append, hversion, List.length_drop, h]
  rfl

/-- An imported key decodes. -/
theorem importXpub_decodes (hL : L.Lawful) {testnet : Bool} {value : Bytes} {xpub : CString 120}
    (h : importXpub L testnet value = .ok xpub) :
    ∃ bytes, L.base58ToBytes xpub.chars = some bytes ∧ bytes.length = BIP32_SERIALIZED_LEN := by
  unfold importXpub at h
  split at h
  · cases h
  · split at h
    · cases h
    · next serialised hbytes =>
        split_ifs at h with hlen hversion
        · cases h
        · cases h
          exact ⟨serialised, hbytes, not_not.1 hlen⟩
        · split at h
          · cases h
          · next text htext =>
              split_ifs at h
              cases h
              have hsize := length_overwritten testnet (not_not.1 hlen)
              exact ⟨_, hL.base58ToBytes_fromBytes hsize htext, hsize⟩

/-- A key is imported as it is exactly when it has the version of the network. -/
theorem importXpub_eq_self_iff (hL : L.Lawful) (testnet : Bool) {signer : Signer} {bytes : Bytes}
    (hsigner : SignerText L signer) (hbytes : L.base58ToBytes signer.xpub.chars = some bytes)
    (hsize : bytes.length = BIP32_SERIALIZED_LEN) :
    importXpub L testnet signer.xpub.chars = .ok signer.xpub ↔
      bytes.take 4 = xpubVersion testnet := by
  obtain ⟨-, hmin, hmax, hcstr⟩ := hsigner.spec hL
  have hfits : ¬ (signer.xpub.chars.length < 4 ∨ 120 ≤ signer.xpub.chars.length) := by omega
  rw [importXpub, dif_neg hfits]
  simp only [hcstr, hbytes, hsize, ne_eq, not_true, if_false]
  constructor
  · intro h
    by_contra hversion
    rw [if_neg hversion] at h
    split at h
    · cases h
    · next text htext =>
        split_ifs at h
        have heq : text = signer.xpub.chars := congrArg CString.chars (Except.ok.inj h)
        have hover := hL.base58ToBytes_fromBytes (length_overwritten testnet hsize) htext
        rw [heq, hbytes] at hover
        -- the key would have the version it is overwritten with
        refine hversion ?_
        rw [Option.some.inj hover, List.take_left' (by cases testnet <;> rfl)]
  · intro hversion
    rw [if_pos hversion]

/-- A signer is imported as itself exactly when it is importable. -/
theorem importsAs_self_iff (hL : L.Lawful) {testnet : Bool} {signer : Signer}
    (hsigner : SignerText L signer) (hpath : signer.noAdditionalPath = true) :
    ImportsAs L testnet signer signer ↔ Importable L testnet signer := by
  obtain ⟨xpub, -, hbytes, -⟩ := id hsigner
  have hself := importXpub_eq_self_iff hL testnet hsigner hbytes xpub.2
  have hnil : signer.path = .elements ⟨[], Nat.zero_le _⟩ := by
    unfold Signer.noAdditionalPath at hpath
    split at hpath
    · cases hpath
    · next path hp =>
        obtain ⟨elements, hle⟩ := path
        obtain rfl : elements = [] := List.isEmpty_iff.1 hpath
        exact hp
  constructor
  · rintro ⟨hne, hlen, x, hx, heq⟩
    have hxeq : x = signer.xpub := (congrArg Signer.xpub heq).symm
    rw [hxeq] at hx
    exact ⟨hne, hlen, xpub.1, hbytes, hself.1 hx⟩
  · rintro ⟨hne, hlen, bytes, hbytes', hversion⟩
    have heq : bytes = xpub.1 := Option.some.inj (hbytes'.symm.trans hbytes)
    rw [heq] at hversion
    refine ⟨hne, hlen, signer.xpub, hself.2 hversion, ?_⟩
    rw [← hnil]

/-! ### Registered wallets -/

/-- What is registered under a name. -/
def registrationArgs (name : CString MAX_MULTISIG_NAME_SIZE) (d : MultisigDefinition) :
    MultisigArgs where
  name := name
  variant := d.variant
  sorted := d.sorted
  threshold := d.threshold.toNat
  signers := d.signers
  masterBlindingKey := d.masterBlindingKey

theorem definition_registrationArgs (name : CString MAX_MULTISIG_NAME_SIZE)
    (d : MultisigDefinition) : (registrationArgs name d).definition = d := by
  simp [registrationArgs, MultisigArgs.definition]

/-- The wallet has passed the checks of `register_multisig`. -/
def Registered (L : FileLib K) (name : CString MAX_MULTISIG_NAME_SIZE) (d : MultisigDefinition) :
    Prop := Registrable L.toSignerLib (registrationArgs name d)

theorem Registered.signerText {name : CString MAX_MULTISIG_NAME_SIZE} {d : MultisigDefinition}
    (h : Registered L name d) : ∀ signer ∈ d.signers, SignerText L signer := by
  obtain ⟨total, htotal⟩ := h.validated
  exact persists_of_validateSigners L.toSignerLib htotal

theorem Registered.valid {name : CString MAX_MULTISIG_NAME_SIZE} {d : MultisigDefinition}
    (h : Registered L name d) : d.Valid L.toMultisigLib where
  threshold_pos := UInt8.lt_iff_toNat_lt.2 (Nat.pos_of_ne_zero h.threshold_pos)
  threshold_le := h.threshold_le
  signers_le := h.signers_le
  persists := h.signerText

/-- Nothing is derived when there is no additional path. -/
theorem derives_of_noAdditionalPath {signer : Signer} (hsigner : SignerText L signer)
    (hpath : signer.noAdditionalPath = true) : ∃ output, Derives L.toMultisigLib signer output := by
  obtain ⟨xpub, path, hpersists⟩ := hsigner
  have hempty : path.1.isEmpty = true := by
    rw [Signer.noAdditionalPath, hpersists.2] at hpath
    exact hpath
  exact ⟨xpub, xpub, path, hpersists, if_pos hempty⟩

/-- Wallets without additional paths that have the same record have the same signers. -/
theorem signers_eq_of_toBytes_eq {d d' : MultisigDefinition} {bytes : Bytes}
    (hd : d.Valid L.toMultisigLib) (hd' : d'.Valid L.toMultisigLib)
    (hpath : ∀ signer ∈ d.signers, signer.noAdditionalPath = true)
    (hpath' : ∀ signer ∈ d'.signers, signer.noAdditionalPath = true)
    (hbytes : d.toBytes L.toMultisigLib = .ok (some bytes))
    (hbytes' : d'.toBytes L.toMultisigLib = .ok (some bytes)) : d.signers = d'.signers := by
  have hload : ∀ {e : MultisigDefinition}, e.Valid L.toMultisigLib →
      (∀ signer ∈ e.signers, signer.noAdditionalPath = true) →
        e.toBytes L.toMultisigLib = .ok (some bytes) → ∃ outputs,
          multisigDataFromBytes L.toMultisigLib bytes MAX_ALLOWED_SIGNERS =
            .ok (e.header.record outputs, e.signers, e.signers.length) := by
    intro e he hnone hto
    obtain ⟨bytes', hto', -, hload⟩ := multisigDataFromBytes_of_derives L.toMultisigLib he
    obtain rfl : bytes = bytes' := Option.some.inj (Except.ok.inj (hto.symm.trans hto'))
    obtain ⟨outputs, houtputs⟩ := exists_forall₂_derives L.toMultisigLib fun signer hsigner =>
      derives_of_noAdditionalPath (he.persists signer hsigner) (hnone signer hsigner)
    have hle : outputs.length ≤ MAX_ALLOWED_SIGNERS := by
      rw [← houtputs.length_eq]
      exact he.signers_le
    refine ⟨⟨outputs, hle⟩, ?_⟩
    rw [hload MAX_ALLOWED_SIGNERS ⟨outputs, hle⟩ houtputs, List.take_of_length_le he.signers_le]
  obtain ⟨outputs, h⟩ := hload hd hpath hbytes
  obtain ⟨outputs', h'⟩ := hload hd' hpath' hbytes'
  have := Except.ok.inj (h.symm.trans h')
  exact congrArg (·.2.1) this

/-! ### Import after export -/

/-- The wallet with its signers as they are imported. -/
def importedDefinition (d : MultisigDefinition) (signers : List Signer) : MultisigDefinition :=
  { d with signers }

/-- What is read off a file once the lines of the signers have been read. -/
theorem finishFile_foldl {name : CString MAX_MULTISIG_NAME_SIZE} {d : MultisigDefinition}
    {signers : List Signer} (hlen : signers.length = d.signers.length) (hne : signers ≠ [])
    (keepTruncated : Bool) :
    finishFile keepTruncated (signers.foldl FileState.addSigner (headState name d.threshold.toNat
      d.signers.length d.variant d.sorted d.masterBlindingKey)) =
        .ok (registrationArgs name (importedDefinition d signers)) := by
  obtain ⟨path, hpath, hfold⟩ := foldl_addSigner signers (headState name d.threshold.toNat
    d.signers.length d.variant d.sorted d.masterBlindingKey)
  obtain ⟨path, rfl⟩ := Option.ne_none_iff_exists'.1 (hpath hne)
  have hnil : d.signers ≠ [] := by
    rintro hd
    rw [hd] at hlen
    exact hne (List.length_eq_zero_iff.1 hlen)
  rw [hfold]
  cases hsorted : d.sorted <;>
    simp [finishFile, headState, hlen, hnil, registrationArgs, importedDefinition, hsorted]

/-- **An exported file is registered with the signers as they are imported.** -/
theorem registerMultisigFile_exportText (hL : L.Lawful) {name : CString MAX_MULTISIG_NAME_SIZE}
    {d : MultisigDefinition} (hreg : Registered L name d)
    (hread : ∀ signer ∈ d.signers, L.ReadsPath signer.derivation.1) {format : Bytes}
    (hformat : formatText (scriptVariantByte d.variant) = some format) (R : Registrar)
    (testnet keepTruncated : Bool) (store store' : MultisigStore) :
    registerMultisigFile L R testnet keepTruncated (exportText L name.chars d.threshold.toNat
        d.signers.length format d.sorted d.masterBlindingKey d.signers) store = .ok store' ↔
      ∃ signers', List.Forall₂ (ImportsAs L testnet) d.signers signers' ∧
        registerMultisig L.toSignerLib R (registrationArgs name (importedDefinition d signers'))
          store = .ok store' := by
  have hpos : 0 < d.threshold.toNat := Nat.pos_of_ne_zero hreg.threshold_pos
  have hle : d.threshold.toNat ≤ d.signers.length := hreg.threshold_le
  have hready : (headState name d.threshold.toNat d.signers.length d.variant d.sorted
      d.masterBlindingKey).Ready d.signers.length :=
    ⟨by simp [headState], by simp [headState], _, _, rfl, by simp [headState]⟩
  have hlines := fun st' => @foldlM_signerLines K L hL d.signers hreg.signerText hread testnet _ st' hready
  have hhead := @foldlM_headLines K L hL name d.threshold.toNat d.signers.length d.variant format
    d.sorted d.masterBlindingKey hreg.name hpos hle hreg.signers_le hformat testnet
    (d.signers.flatMap (signerText L))
  have hnonempty : (exportText L name.chars d.threshold.toNat d.signers.length format d.sorted
      d.masterBlindingKey d.signers).length ≠ 0 := by
    simp [exportText, headText]
  have hfile : verified (jadeVerify (decide ((exportText L name.chars d.threshold.toNat
      d.signers.length format d.sorted d.masterBlindingKey d.signers).length ≠ 0))) = .ok () := by
    rw [decide_eq_true hnonempty]
    rfl
  have hfinish : ∀ {signers' : List Signer}, List.Forall₂ (ImportsAs L testnet) d.signers signers' →
      finishFile keepTruncated (signers'.foldl FileState.addSigner (headState name
        d.threshold.toNat d.signers.length d.variant d.sorted d.masterBlindingKey)) =
          .ok (registrationArgs name (importedDefinition d signers')) := by
    intro signers' himports
    have hlen := himports.length_eq
    exact finishFile_foldl hlen.symm (List.ne_nil_of_length_pos (by omega)) keepTruncated
  rw [registerMultisigFile, hfile]
  constructor
  · intro h
    obtain ⟨_, -, h⟩ := bind_eq_ok.1 h
    obtain ⟨st, hst, h⟩ := bind_eq_ok.1 h
    rw [exportText, hhead, hlines] at hst
    obtain ⟨signers', himports, rfl⟩ := hst
    obtain ⟨args, hargs, h⟩ := bind_eq_ok.1 h
    rw [hfinish himports] at hargs
    cases hargs
    exact ⟨signers', himports, h⟩
  · rintro ⟨signers', himports, h⟩
    refine bind_eq_ok.2 ⟨(), rfl, bind_eq_ok.2 ⟨_, ?_, bind_eq_ok.2 ⟨_, hfinish himports, h⟩⟩⟩
    rw [exportText, hhead, hlines]
    exact ⟨signers', himports, rfl⟩

/-- What a wallet is imported as is valid again. -/
theorem valid_importedDefinition (hL : L.Lawful) {d : MultisigDefinition}
    (hd : d.Valid L.toMultisigLib) {testnet : Bool} {signers : List Signer}
    (h : List.Forall₂ (ImportsAs L testnet) d.signers signers) :
    (importedDefinition d signers).Valid L.toMultisigLib ∧
      ∀ signer ∈ signers, signer.noAdditionalPath = true := by
  have hall : ∀ signer' ∈ signers, ∃ signer, ImportsAs L testnet signer signer' := by
    intro signer' hmem
    obtain ⟨i, hi, rfl⟩ := List.mem_iff_getElem.1 hmem
    exact ⟨_, h.get (by rw [h.length_eq]; exact hi) hi⟩
  refine ⟨⟨hd.threshold_pos, ?_, ?_, ?_⟩, ?_⟩
  · exact h.length_eq ▸ hd.threshold_le
  · exact h.length_eq ▸ hd.signers_le
  · intro signer' hmem
    obtain ⟨signer, -, -, xpub, hxpub, rfl⟩ := hall signer' hmem
    obtain ⟨bytes, hbytes, hsize⟩ := importXpub_decodes hL hxpub
    exact ⟨⟨bytes, hsize⟩, _, hbytes, rfl⟩
  · intro signer' hmem
    obtain ⟨signer, -, -, xpub, -, rfl⟩ := hall signer' hmem
    rfl

theorem exists_formatText {variant : ScriptVariant} (h : isMultisig variant = true) :
    ∃ format, formatText (scriptVariantByte variant) = some format := by
  cases variant with
  | multiP2wsh => exact ⟨_, rfl⟩
  | multiP2sh => exact ⟨_, rfl⟩
  | multiP2wshP2sh => exact ⟨_, rfl⟩
  | _ => cases h

end Run

/-! ### A wallet of one signer -/

/-- The key at `m/48'` of the wallet of `singleXpub`, and the text it is written as. -/
def derivedXpub : Xpub := ⟨[
  4, 136, 178, 30, 1, 52, 66, 25, 62, 128, 0, 0, 48, 120, 46, 179, 189, 124, 105, 19, 51, 213, 1,
  148, 57, 220, 111, 45, 121, 189, 15, 197, 228, 49, 194, 108, 226, 99, 217, 254, 174, 70, 197, 89,
  14, 2, 155, 12, 91, 147, 209, 151, 216, 13, 187, 194, 183, 202, 210, 83, 154, 22, 82, 247, 26,
  155, 231, 101, 223, 175, 247, 254, 159, 53, 236, 228, 32, 14], rfl⟩

def derivedXpubText : CString 120 := ⟨ascii "xpub68Gmy5EdvgidXKCDFpcnJz2UdJ8BpMJYYftT5PxQwmwTUwytGwoFdE8U" ++
  ascii "9gUbfvuAghA5WWx4CKy1a4vuEi8sd2GdQwHRRkAFE6sdcGtCyCm", by decide⟩

/-- That key as a signer. -/
def derivedSigner : Signer where
  fingerprint := singleSigner.fingerprint
  derivation := ⟨[0x80000030], by decide⟩
  xpub := derivedXpubText
  path := .elements ⟨[], Nat.zero_le _⟩

def derivedMultisig : MultisigDefinition := { singleMultisig with signers := [derivedSigner] }

def derivedMultisigHmac : Bytes := [
  195, 67, 93, 18, 179, 229, 196, 79, 193, 39, 43, 210, 169, 106, 234, 249, 222, 39, 33, 226, 119,
  146, 223, 63, 182, 138, 37, 162, 108, 106, 18, 133]

/-- The wallet; a key is the 78 bytes it is written as. -/
def seedWallet : Wallet Bytes where
  xpriv := singleXpub.1
  gaservicePath := []
  service _ := []
  pubKey key := key.drop 45
  hash160 key := if key = singleXpub.1 then
    [52, 66, 25, 62, 27, 183, 9, 22, 233, 20, 85, 33, 114, 205, 78, 45, 188, 157, 248, 17] else []
  bip32PrivateKeyFromParentPath _ _ := none
  bip32PublicKeyFromParentPath key path :=
    if key = singleXpub.1 ∧ path = [0x80000030] then some derivedXpub.1 else none
  bip32KeyUnserialize bytes := some bytes
  keypathBip32Key _ _ := none
  keypathBip32PublicKey _ _ := none
  scriptpubkeyGetType _ _ := none
  witnessProgramFromBytes _ _ := none
  scriptpubkeyP2shFromBytes _ := none
  scriptpubkeyP2pkhFromBytes _ := none
  scriptpubkeyP2trFromBytes _ _ := none
  scriptpubkeyMultisigFromBytes _ _ _ := none
  scriptpubkeyCsv2of2Then1FromBytes _ _ := none
  scriptpubkeyCsv2of2Then1FromBytesOpt _ _ := none
  csvBlocksFromCsv2of2Then1 _ := none

/-- A hexadecimal digit, and its value. -/
def hexDigit (n : ℕ) : UInt8 := UInt8.ofNat (if n < 10 then 0x30 + n else 0x57 + n)

def hexValue (c : UInt8) : Option ℕ :=
  if isDigit c then some (c.toNat - 0x30)
  else if 0x61 ≤ toLower c ∧ toLower c ≤ 0x66 then some ((toLower c).toNat - 0x57)
  else none

def hexFromBytes (bytes : Bytes) : Bytes :=
  bytes.flatMap fun b => [hexDigit (b.toNat / 16), hexDigit (b.toNat % 16)]

def hexToBytes : Bytes → Option Bytes
  | [] => some []
  | [_] => none
  | c :: d :: rest =>
      match hexValue c, hexValue d, hexToBytes rest with
      | some hi, some lo, some bytes => some (UInt8.ofNat (16 * hi + lo) :: bytes)
      | _, _, _ => none

/-- A byte is written in two digits, and read back from them. -/
theorem hexDigits_spec (b : UInt8) : hexValue (hexDigit (b.toNat / 16)) = some (b.toNat / 16) ∧
    hexValue (hexDigit (b.toNat % 16)) = some (b.toNat % 16) ∧
      isAlnum (hexDigit (b.toNat / 16)) = true ∧ isAlnum (hexDigit (b.toNat % 16)) = true := by
  have hall : ∀ n : Fin 16, hexValue (hexDigit n.val) = some n.val ∧
      isAlnum (hexDigit n.val) = true := by decide +kernel
  have hlt := b.toNat_lt
  obtain ⟨hhi, hhi'⟩ := hall ⟨b.toNat / 16, by omega⟩
  obtain ⟨hlo, hlo'⟩ := hall ⟨b.toNat % 16, by omega⟩
  exact ⟨hhi, hlo, hhi', hlo'⟩

theorem hexToBytes_hexFromBytes (bytes : Bytes) : hexToBytes (hexFromBytes bytes) = some bytes := by
  induction bytes with
  | nil => rfl
  | cons b bytes ih =>
      obtain ⟨hhi, hlo, -⟩ := hexDigits_spec b
      have hb : UInt8.ofNat (16 * (b.toNat / 16) + b.toNat % 16) = b := by
        rw [Nat.div_add_mod, UInt8.ofNat_toNat]
      change hexToBytes (hexDigit (b.toNat / 16) :: hexDigit (b.toNat % 16) :: hexFromBytes bytes) = _
      simp only [hexToBytes, hhi, hlo, ih, hb]

/-- The libraries on the records of the wallet. -/
def seedFileLib : FileLib Bytes where
  key := {
    hmacSha256 := fun data => if data.length = 94 then derivedMultisigHmac else singleMultisigHmac
    length_hmacSha256 := fun data => by split <;> rfl }
  wallet := seedWallet
  bip32KeySerialize _ := none
  base58ToBytes text :=
    if text = singleXpubText.chars then some singleXpub.1
    else if text = derivedXpubText.chars then some derivedXpub.1 else none
  base58FromBytes bytes :=
    if bytes = singleXpub.1 then some singleXpubText.chars
    else if bytes = derivedXpub.1 then some derivedXpubText.chars else none
  base58FromBytes_toBytes := by
    intro text bytes h
    split_ifs at h with h1 h2
    · cases h
      rw [if_pos rfl, h1]
    · cases h
      rw [if_neg (by decide), if_pos rfl, h2]
  chainCode key := (key.drop 13).take 32
  bip32PathStrIsHardened _ := none
  hexFromBytes := hexFromBytes
  hexToBytes := hexToBytes
  bip32PathFromStr text := if text = ascii "m/48'" then some [0x80000030] else none

theorem seedFileLib_lawful : seedFileLib.Lawful where
  base58_text := by
    intro text bytes h _
    change (if text = singleXpubText.chars then _ else _) = _ at h
    split_ifs at h with h1 h2
    · rw [h1]
      decide +kernel
    · rw [h2]
      decide +kernel
  base58ToBytes_fromBytes := by
    intro bytes text _ h
    change (if bytes = singleXpub.1 then _ else _) = _ at h
    split_ifs at h with h1 h2
    · cases h
      rw [h1]
      rfl
    · cases h
      rw [h2]
      decide +kernel
  length_hex := by
    intro bytes
    change (hexFromBytes bytes).length = _
    induction bytes with
    | nil => rfl
    | cons b bytes ih =>
        rw [hexFromBytes, List.flatMap_cons, List.length_append, ← hexFromBytes, ih,
          List.length_cons, List.length_cons, List.length_cons, List.length_nil]
        omega
  hex_text := by
    intro bytes
    change (hexFromBytes bytes).all isAlnum = true
    induction bytes with
    | nil => rfl
    | cons b bytes ih =>
        obtain ⟨-, -, hhi, hlo⟩ := hexDigits_spec b
        rw [hexFromBytes, List.flatMap_cons, List.all_append, ← hexFromBytes, ih]
        simp [hhi, hlo]
  hexToBytes_fromBytes := hexToBytes_hexFromBytes

/-! ### The result -/

/-- **The exporter stays within its buffer, whatever length it accepts; and the file it writes is
accepted and yields the same record exactly when every signer has a derivation, the text of no
derivation takes more than 127 characters, and every key has the version of the network.** -/
theorem multisig_file_exact {K : Type} {L : FileLib K} (hL : L.Lawful)
    {name : CString MAX_MULTISIG_NAME_SIZE} {d : MultisigDefinition} (hreg : Registered L name d)
    (hread : ∀ signer ∈ d.signers, L.ReadsPath signer.derivation.1)
    (outputs : { xpubs : List Xpub // xpubs.length ≤ MAX_ALLOWED_SIGNERS })
    (hderives : List.Forall₂ (Derives L.toMultisigLib) d.signers outputs.1) :
    ∃ bytes, d.toBytes L.toMultisigLib = .ok (some bytes) ∧
      multisigDataFromBytes L.toMultisigLib bytes MAX_ALLOWED_SIGNERS =
        .ok (d.header.record outputs, d.signers, d.signers.length) ∧
      ∀ outputLen, multisigFileMaxLen d.signers.length ≤ outputLen →
        (∀ f, multisigCreateExportFile L name (d.header.record outputs) d.signers outputLen ≠
          .error (.fault f)) ∧
        ∀ file, multisigCreateExportFile L name (d.header.record outputs) d.signers outputLen =
            .ok file →
          ∀ (R : Registrar) (testnet keepTruncated : Bool) (store : MultisigStore),
            R.Accepts store name.chars bytes →
              ((∃ store', registerMultisigFile L R testnet keepTruncated file store = .ok store' ∧
                  store'.record name.chars = some bytes) ↔
                ∀ signer ∈ d.signers, Importable L testnet signer) := by
  have hd := hreg.valid
  obtain ⟨bytes, hto, -, hload⟩ := multisigDataFromBytes_of_derives L.toMultisigLib hd
  refine ⟨bytes, hto, ?_, fun outputLen hlen => ?_⟩
  · rw [hload MAX_ALLOWED_SIGNERS outputs hderives, List.take_of_length_le hd.signers_le]
  obtain ⟨format, hformat⟩ := exists_formatText hreg.multi
  have hthreshold : d.threshold.toNat ≤ MAX_ALLOWED_SIGNERS :=
    Nat.le_trans hreg.threshold_le hreg.signers_le
  have hxpub : ∀ signer ∈ d.signers, signer.xpub.chars.length ≤ 112 := fun signer hsigner =>
    ((hreg.signerText signer hsigner).spec hL).2.2.1
  have hexport := @multisigCreateExportFile_eq K L hL name (d.header.record outputs) d.signers
    outputLen format hderives.length_eq hthreshold hxpub hformat hlen
  cases hall : d.signers.all Signer.noAdditionalPath with
  | false =>
      rw [hexport, hall]
      refine ⟨?_, ?_⟩
      · intro f h
        cases h
      · intro file h
        cases h
  | true =>
      rw [hexport, hall]
      refine ⟨?_, ?_⟩
      · intro f h
        cases h
      intro file hfile R testnet keepTruncated store haccepts
      cases hfile
      rw [List.all_eq_true] at hall
      have himport := registerMultisigFile_exportText hL hreg hread hformat R testnet keepTruncated store
      constructor
      · rintro ⟨store', hok, hrecord⟩
        obtain ⟨signers', himports, hok⟩ := (himport store').1 hok
        obtain ⟨registration, hto', hrecord'⟩ := registerMultisig_record L.toSignerLib hok
        obtain rfl : registration = bytes := Option.some.inj (hrecord'.symm.trans hrecord)
        rw [definition_registrationArgs] at hto'
        obtain ⟨hd', hpath'⟩ := valid_importedDefinition hL hd himports
        -- the same record has the same signers
        have hsame : d.signers = signers' := signers_eq_of_toBytes_eq hd hd' hall hpath' hto hto'
        rw [← hsame, List.forall₂_same] at himports
        exact fun signer hsigner => (importsAs_self_iff hL (hreg.signerText signer hsigner)
          (hall signer hsigner)).1 (himports signer hsigner)
      · intro himportable
        obtain ⟨store', hpersist⟩ := persistMultisig_of_accepts haccepts
        refine ⟨store', (himport store').2 ⟨d.signers, List.forall₂_same.2 ?_, ?_⟩,
          persistMultisig_record hpersist⟩
        · exact fun signer hsigner => (importsAs_self_iff hL (hreg.signerText signer hsigner)
            (hall signer hsigner)).2 (himportable signer hsigner)
        · have hto' : (registrationArgs name d).definition.toBytes L.toMultisigLib =
              .ok (some bytes) := by
            rw [definition_registrationArgs]
            exact hto
          exact (registerMultisig_eq L.toSignerLib hreg R store hto').trans hpersist

/-- The name `"a"`. -/
def singleName : CString MAX_MULTISIG_NAME_SIZE := ⟨ascii "a", by decide⟩

theorem derivedMultisig_registered : Registered seedFileLib singleName derivedMultisig where
  multi := rfl
  threshold_pos := by decide
  threshold_le := by decide
  signers_le := by decide
  name := by decide
  validated := ⟨1, by decide +kernel⟩

theorem singleMultisig_registered : Registered seedFileLib singleName singleMultisig where
  multi := rfl
  threshold_pos := by decide
  threshold_le := by decide
  signers_le := by decide
  name := by decide
  validated := ⟨0, by decide +kernel⟩

theorem multisig_file_exact_single :
    ∃ bytes file store', derivedMultisig.toBytes seedFileLib.toMultisigLib = .ok (some bytes) ∧
      multisigCreateExportFile seedFileLib singleName (derivedMultisig.header.record
        ⟨[derivedXpub], by decide⟩) derivedMultisig.signers (multisigFileMaxLen 1) = .ok file ∧
      registerMultisigFile seedFileLib ⟨true, true⟩ false false file ⟨fun _ => none, 0⟩ =
        .ok store' ∧
      store'.record singleName.chars = some bytes := by
  have hread : ∀ signer ∈ derivedMultisig.signers, seedFileLib.ReadsPath signer.derivation.1 := by
    intro signer hsigner
    obtain rfl := List.mem_singleton.1 hsigner
    exact ⟨fun _ => by decide +kernel, fun h => by cases h⟩
  have hpersists : Persists seedFileLib.toMultisigLib derivedSigner derivedXpub ⟨[], by decide⟩ :=
    ⟨by decide +kernel, rfl⟩
  have hderives : List.Forall₂ (Derives seedFileLib.toMultisigLib) derivedMultisig.signers
      [derivedXpub] := .cons ⟨derivedXpub, _, hpersists, rfl⟩ .nil
  obtain ⟨bytes, hbytes, -, hfile⟩ := multisig_file_exact seedFileLib_lawful
    derivedMultisig_registered hread ⟨[derivedXpub], by decide⟩ hderives
  have hexport : ∃ file, multisigCreateExportFile seedFileLib singleName
      (derivedMultisig.header.record ⟨[derivedXpub], by decide⟩) derivedMultisig.signers
        (multisigFileMaxLen 1) = .ok file := by
    refine ⟨_, (multisigCreateExportFile_eq seedFileLib_lawful rfl (by decide) ?_ rfl
      (Nat.le_refl _)).trans (if_pos (by decide))⟩
    intro signer hsigner
    obtain rfl := List.mem_singleton.1 hsigner
    decide
  obtain ⟨file, hok⟩ := hexport
  obtain ⟨store', himport, hrecord⟩ := ((hfile (multisigFileMaxLen 1) (Nat.le_refl _)).2 file hok
    ⟨true, true⟩ false false ⟨fun _ => none, 0⟩ (.inr ⟨rfl, rfl, .inr (by decide)⟩)).2 (by
      intro signer hsigner
      obtain rfl := List.mem_singleton.1 hsigner
      exact ⟨by decide, by decide +kernel, derivedXpub.1, by decide +kernel, by decide⟩)
  exact ⟨bytes, file, store', hbytes, hok, himport, hrecord⟩

/-- A wallet whose signer has no derivation is exported, and its file is rejected. -/
theorem multisig_file_underived :
    seedFileLib.Lawful ∧ Registered seedFileLib singleName singleMultisig ∧
      ∃ file, multisigCreateExportFile seedFileLib singleName
          (singleMultisig.header.record ⟨[singleXpub], by decide⟩) singleMultisig.signers
          (multisigFileMaxLen 1) = .ok file ∧
        ∀ R testnet keepTruncated store store',
          registerMultisigFile seedFileLib R testnet keepTruncated file store ≠ .ok store' := by
  have hread : ∀ signer ∈ singleMultisig.signers, seedFileLib.ReadsPath signer.derivation.1 := by
    intro signer hsigner
    obtain rfl := List.mem_singleton.1 hsigner
    exact ⟨fun h => absurd rfl h, fun _ => .inl (by decide +kernel)⟩
  have hxpub : ∀ signer ∈ singleMultisig.signers, signer.xpub.chars.length ≤ 112 := by
    intro signer hsigner
    obtain rfl := List.mem_singleton.1 hsigner
    decide
  refine ⟨seedFileLib_lawful, singleMultisig_registered, _,
    (multisigCreateExportFile_eq seedFileLib_lawful rfl (by decide) hxpub rfl
      (Nat.le_refl _)).trans (if_pos (by decide)), ?_⟩
  intro R testnet keepTruncated store store' hok
  obtain ⟨signers', himports, -⟩ := (registerMultisigFile_exportText seedFileLib_lawful
    singleMultisig_registered hread rfl R testnet keepTruncated store store').1 hok
  cases himports with
  | cons himport _ => exact himport.1 rfl

end Jade
