/-
**A registered multisig wallet as a text file (`multisig.c`).**

The file names the wallet, its policy and its format, and has two lines for every signer: its
derivation, and its fingerprint with its key.  The lines are written one after another into a buffer
of the length that the caller gives.  The check before a line does not count the end of the line, so
that a line that just fills the buffer would have its terminator written behind it; the length that
the caller must give leaves room for it.

Main definitions:

* `Jade.FileLib`, `Jade.FileLib.Lawful`, `Jade.FileLib.ReadsPath` — the libraries below, and what
  they document;
* `Jade.writeText`, `Jade.multisigCreateExportFile` — the code;
* `Jade.exportText` — the file.

Main results:

* `Jade.multisigCreateExportFile_eq` — the file is written as it should be, and within its buffer,
  unless a signer has an additional path.
-/

import Jade.Lib.CText
import Jade.Registration.Signers
import Jade.Wallet.PathText

set_option relaxedAutoImplicit false
set_option autoImplicit false

namespace Jade

open Exec

/-! ### The libraries below -/

/-- Hexadecimal digits, and paths as text. -/
structure FileLib (K : Type) extends SignerLib K where
  /-- `wally_hex_from_bytes` and `wally_hex_n_to_bytes` -/
  hexFromBytes : Bytes → Bytes
  hexToBytes : Bytes → Option Bytes
  /-- `bip32_path_from_str_n` -/
  bip32PathFromStr : Bytes → Option (List UInt32)

/-- A letter or a digit. -/
def isAlnum (c : UInt8) : Bool := isDigit c || (0x61 ≤ toLower c && toLower c ≤ 0x7a)

/-- What the libraries document.  A key of 78 bytes is written, with its checksum, in 82 to 112
letters and digits, which decode to it; and bytes are written in two digits each. -/
structure FileLib.Lawful {K : Type} (L : FileLib K) : Prop where
  base58_text : ∀ {text bytes}, L.base58ToBytes text = some bytes →
    bytes.length = BIP32_SERIALIZED_LEN →
      82 ≤ text.length ∧ text.length ≤ 112 ∧ text.all isAlnum = true
  base58ToBytes_fromBytes : ∀ {bytes text}, bytes.length = BIP32_SERIALIZED_LEN →
    L.base58FromBytes bytes = some text → L.base58ToBytes text = some bytes
  length_hex : ∀ bytes, (L.hexFromBytes bytes).length = 2 * bytes.length
  hex_text : ∀ bytes, (L.hexFromBytes bytes).all isAlnum = true
  hexToBytes_fromBytes : ∀ bytes, L.hexToBytes (L.hexFromBytes bytes) = some bytes

/-- A path is read back from its text; the empty one is an error or nothing. -/
structure FileLib.ReadsPath {K : Type} (L : FileLib K) (path : List UInt32) : Prop where
  path_text : path ≠ [] → L.bip32PathFromStr (pathText path) = some path
  nil_text : path = [] →
    L.bip32PathFromStr (pathText []) = none ∨ L.bip32PathFromStr (pathText []) = some []

/-! ### Writing -/

def MSIG_FILE_NAME : Bytes := ascii "Name"
def MSIG_FILE_FORMAT : Bytes := ascii "Format"
def MSIG_FILE_SORTED : Bytes := ascii "Sorted"
def MSIG_FILE_POLICY : Bytes := ascii "Policy"
def MSIG_FILE_BLINDING_KEY : Bytes := ascii "BlindingKey"
def MSIG_FILE_DERIVATION : Bytes := ascii "Derivation"

/-- `MULTISIG_FILE_MAX_LEN` -/
def multisigFileMaxLen (numSigners : ℕ) : ℕ :=
  32 + 22 + 17 + 19 + 14 + 78 + numSigners * (13 + maxPathStrLen MAX_PATH_LEN + 122)

/-- `write_text`, behind what is in the buffer already.  The terminator is always written, behind
the end of the line if there is one. -/
def writeText (outputLen : ℕ) (text : Bytes) (addEol : Bool) (out : Bytes) : Except ReadStop Bytes :=
  if outputLen - out.length ≤ text.length then .error .refused
  else if addEol then
    if outputLen - out.length ≤ text.length + 1 then .error (.fault .overflow)
    else .ok (out ++ text ++ [0x0a])
  else .ok (out ++ text)

/-- `WRITE_KEY_VALUE_LINE` -/
def writeKeyValueLine (outputLen : ℕ) (key value out : Bytes) : Except ReadStop Bytes := do
  let out ← writeText outputLen key false out
  let out ← writeText outputLen (ascii ": ") false out
  writeText outputLen value true out

/-- The policy, as it is printed into a buffer. -/
def policyText (threshold numSigners : ℕ) : Bytes :=
  ascii (toString threshold ++ " of " ++ toString numSigners)

/-- The name of a script type. -/
def formatText (variant : UInt8) : Option Bytes :=
  if variant = scriptVariantByte .multiP2wsh then some (ascii "P2WSH")
  else if variant = scriptVariantByte .multiP2wshP2sh then some (ascii "P2SH-P2WSH")
  else if variant = scriptVariantByte .multiP2sh then some (ascii "P2SH")
  else none

/-- The flag is only written if the multisig is not sorted, as sorted is the default. -/
def writeSorted (outputLen : ℕ) (sorted : Bool) (out : Bytes) : Except ReadStop Bytes :=
  if !sorted then writeKeyValueLine outputLen MSIG_FILE_SORTED (ascii "False") out else .ok out

section Model

variable {K : Type} (L : FileLib K)

/-- The line of the blinding key, which is not standard, and only there when it is set. -/
def writeBlindingKey (outputLen : ℕ) (key : Option (Sized MULTISIG_MASTER_BLINDING_KEY_SIZE))
    (out : Bytes) : Except ReadStop Bytes :=
  match key with
  | none => .ok out
  | some key => writeKeyValueLine outputLen MSIG_FILE_BLINDING_KEY (L.hexFromBytes key.1) out

/-- One turn of the loop over the signers.  Signers with an additional path cannot be exported. -/
def exportSigner (outputLen : ℕ) (out : Bytes) (signer : Signer) : Except ReadStop Bytes :=
  match signer.path with
  | .string _ => .error .refused
  | .elements path =>
      if path.1.length ≠ 0 then .error .refused
      else
        match walletBip32PathAsStr signer.derivation.1 (maxPathStrLen MAX_PATH_LEN) false with
        | none => .error .refused
        | some buf => do
            let out ← writeKeyValueLine outputLen MSIG_FILE_DERIVATION (ascii buf) out
            writeKeyValueLine outputLen (L.hexFromBytes signer.fingerprint.1) signer.xpub.chars out

/-- A failed assertion ends the export. -/
def exportVerify (c : Bool) : Except ReadStop Unit := if c then .ok () else .error (.fault .assert)

/-- `multisig_create_export_file` into a buffer of `outputLen` bytes. -/
def multisigCreateExportFile (multisigName : CString MAX_MULTISIG_NAME_SIZE)
    (multisigData : MultisigRecord) (signerDetails : List Signer) (outputLen : ℕ) :
    Except ReadStop Bytes := do
  exportVerify (signerDetails.length = multisigData.xpubs.1.length)
  exportVerify (multisigFileMaxLen signerDetails.length ≤ outputLen)
  let out ← writeText outputLen (ascii "# Exported by Blockstream Jade") true []
  let out ← writeKeyValueLine outputLen MSIG_FILE_NAME multisigName.chars out
  let out ← writeKeyValueLine outputLen MSIG_FILE_POLICY
    (policyText multisigData.threshold.toNat multisigData.xpubs.1.length) out
  match formatText multisigData.variant with
  | none => .error .refused
  | some format => do
      let out ← writeKeyValueLine outputLen MSIG_FILE_FORMAT format out
      let out ← writeSorted outputLen multisigData.sorted out
      let out ← writeBlindingKey L outputLen multisigData.masterBlindingKey out
      let out ← signerDetails.foldlM (exportSigner L outputLen) out
      exportVerify (out.length < outputLen)
      return out

end Model

/-! ### Characters -/

theorem isGraph_of_isPathChar {c : Char} (h : isPathChar c = true) :
    isGraph (UInt8.ofNat c.toNat) = true := by
  simp only [isPathChar, Bool.or_eq_true, beq_iff_eq] at h
  rcases h with ((rfl | rfl) | rfl) | h
  · decide
  · decide
  · decide
  · obtain ⟨hlo, hhi⟩ := Char.isDigit_iff_toNat.1 h
    change 48 ≤ c.toNat at hlo
    change c.toNat ≤ 57 at hhi
    have hlt : c.toNat < 256 := by omega
    simp only [isGraph, Bool.and_eq_true, decide_eq_true_eq, UInt8.le_iff_toNat_le,
      UInt8.toNat_ofNat_of_lt' hlt]
    exact ⟨by simpa using (by omega : 33 ≤ c.toNat), by simpa using (by omega : c.toNat ≤ 126)⟩

/-- The text of a path fits its buffer, begins with the master key and has no spaces. -/
theorem pathText_spec (path : PathArray) :
    walletBip32PathAsStr path.1 (maxPathStrLen MAX_PATH_LEN) false ≠ none ∧
      ∃ t, pathText path.1 = 0x6d :: t ∧ (pathText path.1).length ≤ 193 ∧
        (pathText path.1).all isGraph = true := by
  obtain ⟨t, ht, hlen, hchars⟩ := walletBip32PathAsStr_spec path.2
  have htext : pathText path.1 = 0x6d :: ascii t := by
    rw [pathText, ht, Option.getD_some, ascii_append]
    rfl
  have hle : path.1.length ≤ 16 := path.2
  refine ⟨by rw [ht]; simp, ascii t, htext, ?_, ?_⟩
  · rw [htext, List.length_cons, length_ascii]
    omega
  · rw [htext, List.all_cons, ascii, List.all_map, Bool.and_eq_true]
    refine ⟨by decide, ?_⟩
    rw [List.all_eq_true] at hchars ⊢
    exact fun c hc => isGraph_of_isPathChar (hchars c hc)

/-! ### The file -/

/-- A line with a key and a value. -/
def textLine (key value : Bytes) : Bytes := key ++ ascii ": " ++ value ++ [0x0a]

theorem length_textLine (key value : Bytes) :
    (textLine key value).length = key.length + value.length + 3 := by
  have : (ascii ": ").length = 2 := by decide
  simp only [textLine, List.length_append, List.length_singleton]
  omega

/-- What is written when there is room for it, with its terminator. -/
theorem writeText_eq {outputLen : ℕ} {text out : Bytes} {addEol : Bool}
    (h : out.length + text.length + (if addEol then 1 else 0) < outputLen) :
    writeText outputLen text addEol out = .ok (out ++ text ++ if addEol then [0x0a] else []) := by
  unfold writeText
  cases addEol with
  | false =>
      rw [if_neg (by simp at h; omega)]
      simp
  | true =>
      simp only [if_true] at h ⊢
      rw [if_neg (by omega), if_neg (by omega)]

theorem writeKeyValueLine_eq {outputLen : ℕ} {key value out : Bytes}
    (h : out.length + (textLine key value).length < outputLen) :
    writeKeyValueLine outputLen key value out = .ok (out ++ textLine key value) := by
  rw [length_textLine] at h
  have hcolon : (ascii ": ").length = 2 := by decide
  have h1 : writeText outputLen key false out = .ok (out ++ key) := by
    rw [writeText_eq (by simp; omega)]
    simp
  have h2 : writeText outputLen (ascii ": ") false (out ++ key) = .ok (out ++ key ++ ascii ": ") := by
    rw [writeText_eq (by simp; omega)]
    simp
  have h3 := @writeText_eq outputLen value (out ++ key ++ ascii ": ") true (by simp; omega)
  have hrun : writeKeyValueLine outputLen key value out =
      writeText outputLen value true (out ++ key ++ ascii ": ") := by
    simp only [writeKeyValueLine, h1, h2, bind, Except.bind]
  rw [hrun, h3, textLine]
  simp

section Model

variable {K : Type} (L : FileLib K)

/-- The two lines of a signer. -/
def signerText (signer : Signer) : Bytes :=
  textLine MSIG_FILE_DERIVATION (pathText signer.derivation.1) ++
    textLine (L.hexFromBytes signer.fingerprint.1) signer.xpub.chars

/-- The lines in front of the signers. -/
def headText (multisigName : Bytes) (threshold numSigners : ℕ) (format : Bytes) (sorted : Bool)
    (key : Option (Sized MULTISIG_MASTER_BLINDING_KEY_SIZE)) : Bytes :=
  ascii "# Exported by Blockstream Jade" ++ [0x0a] ++ textLine MSIG_FILE_NAME multisigName ++
    textLine MSIG_FILE_POLICY (policyText threshold numSigners) ++
    textLine MSIG_FILE_FORMAT format ++
    (if sorted then [] else textLine MSIG_FILE_SORTED (ascii "False")) ++
    match key with
    | none => []
    | some key => textLine MSIG_FILE_BLINDING_KEY (L.hexFromBytes key.1)

/-- The file of a multisig wallet. -/
def exportText (multisigName : Bytes) (threshold numSigners : ℕ) (format : Bytes) (sorted : Bool)
    (key : Option (Sized MULTISIG_MASTER_BLINDING_KEY_SIZE)) (signers : List Signer) : Bytes :=
  headText L multisigName threshold numSigners format sorted key ++ signers.flatMap (signerText L)

/-! ### The exporter writes it -/

/-- Nothing is derived behind the key. -/
def Signer.noAdditionalPath (signer : Signer) : Bool :=
  match signer.path with
  | .string _ => false
  | .elements path => path.1.isEmpty

variable {L}

theorem length_signerText (hL : L.Lawful) {signer : Signer} (hx : signer.xpub.chars.length ≤ 112) :
    (signerText L signer).length ≤ 329 := by
  obtain ⟨-, t, -, hpath, -⟩ := pathText_spec signer.derivation
  have hfp : signer.fingerprint.1.length = 4 := signer.fingerprint.2
  have hkey : MSIG_FILE_DERIVATION.length = 10 := by decide
  rw [signerText, List.length_append, length_textLine, length_textLine, hL.length_hex, hfp]
  omega

theorem exportSigner_eq {signer : Signer} {outputLen : ℕ} {out : Bytes}
    (h : out.length + (signerText L signer).length < outputLen) :
    exportSigner L outputLen out signer =
      if signer.noAdditionalPath then .ok (out ++ signerText L signer) else .error .refused := by
  cases hpath : signer.path with
  | string text => simp [exportSigner, Signer.noAdditionalPath, hpath]
  | elements path =>
      cases hempty : path.1.isEmpty with
      | false =>
          have hne : path.1.length ≠ 0 := by simpa using hempty
          simp [exportSigner, Signer.noAdditionalPath, hpath, hempty, hne]
      | true =>
          obtain ⟨hsome, -⟩ := pathText_spec signer.derivation
          obtain ⟨t, ht⟩ := Option.ne_none_iff_exists'.1 hsome
          have htext : ascii t = pathText signer.derivation.1 := by
            rw [pathText, ht, Option.getD_some]
          have hnil : ¬ path.1.length ≠ 0 := by simpa using hempty
          rw [signerText, List.length_append] at h
          have h1 : writeKeyValueLine outputLen MSIG_FILE_DERIVATION (pathText signer.derivation.1)
              out = .ok (out ++ textLine MSIG_FILE_DERIVATION (pathText signer.derivation.1)) :=
            writeKeyValueLine_eq (by omega)
          have h2 := @writeKeyValueLine_eq outputLen (L.hexFromBytes signer.fingerprint.1)
            signer.xpub.chars (out ++ textLine MSIG_FILE_DERIVATION (pathText signer.derivation.1))
            (by rw [List.length_append]; omega)
          simp only [exportSigner, hpath, if_neg hnil, ht, htext, h1, bind, Except.bind, h2,
            Signer.noAdditionalPath, hempty, if_true, signerText, List.append_assoc]

theorem length_signersText (hL : L.Lawful) {signers : List Signer}
    (hx : ∀ signer ∈ signers, signer.xpub.chars.length ≤ 112) :
    (signers.flatMap (signerText L)).length ≤ signers.length * 329 := by
  induction signers with
  | nil => exact Nat.le_refl 0
  | cons signer signers ih =>
      have hsigner := length_signerText hL (hx signer List.mem_cons_self)
      have hrest := ih fun s hs => hx s (List.mem_cons_of_mem signer hs)
      rw [List.flatMap_cons, List.length_append, List.length_cons]
      omega

/-- The loop over the signers. -/
theorem foldlM_exportSigner (hL : L.Lawful) {signers : List Signer} {outputLen : ℕ} {out : Bytes}
    (hx : ∀ signer ∈ signers, signer.xpub.chars.length ≤ 112)
    (h : out.length + signers.length * 329 < outputLen) :
    signers.foldlM (exportSigner L outputLen) out =
      if signers.all Signer.noAdditionalPath then .ok (out ++ signers.flatMap (signerText L))
      else .error .refused := by
  induction signers generalizing out with
  | nil => simp [pure, Except.pure]
  | cons signer signers ih =>
      have hlen := length_signerText hL (hx signer List.mem_cons_self)
      rw [List.length_cons] at h
      rw [List.foldlM_cons, exportSigner_eq (by omega), List.all_cons]
      cases signer.noAdditionalPath with
      | false => rfl
      | true =>
          have hnext : (out ++ signerText L signer).length + signers.length * 329 < outputLen := by
            rw [List.length_append]
            omega
          rw [if_pos rfl, show ∀ f : Bytes → Except ReadStop Bytes,
            (Except.ok (out ++ signerText L signer) >>= f) = f (out ++ signerText L signer) from
              fun _ => rfl, ih (fun s hs => hx s (List.mem_cons_of_mem signer hs)) hnext]
          simp

theorem length_policyText {threshold numSigners : ℕ} (ht : threshold ≤ MAX_ALLOWED_SIGNERS)
    (hn : numSigners ≤ MAX_ALLOWED_SIGNERS) : (policyText threshold numSigners).length ≤ 8 := by
  have hdigits : ∀ n ≤ MAX_ALLOWED_SIGNERS, (toString n).length ≤ 2 := by
    intro n hle
    have hle' : n ≤ 15 := hle
    exact Nat.repr_length n 2 (by omega) (by omega)
  have hof : " of ".length = 4 := by decide
  have := hdigits threshold ht
  have := hdigits numSigners hn
  rw [policyText, length_ascii, String.length_append, String.length_append]
  omega

theorem length_formatText {variant : UInt8} {format : Bytes} (h : formatText variant = some format) :
    format.length ≤ 10 := by
  unfold formatText at h
  split_ifs at h <;> cases h <;> decide

theorem writeBlindingKey_eq (hL : L.Lawful) {outputLen : ℕ}
    {key : Option (Sized MULTISIG_MASTER_BLINDING_KEY_SIZE)} {out : Bytes}
    (h : out.length + 78 < outputLen) :
    writeBlindingKey L outputLen key out = .ok (out ++ match key with
      | none => []
      | some key => textLine MSIG_FILE_BLINDING_KEY (L.hexFromBytes key.1)) := by
  cases key with
  | none => rw [writeBlindingKey, List.append_nil]
  | some key =>
      have hkey : MSIG_FILE_BLINDING_KEY.length = 11 := by decide
      have hsize : key.1.length = 32 := key.2
      refine writeKeyValueLine_eq ?_
      rw [length_textLine, hL.length_hex]
      omega

/-- **The file is written as it should be, within its buffer**, unless a signer has an additional
path.  The policy and the keys are those of a registered wallet. -/
theorem multisigCreateExportFile_eq (hL : L.Lawful) {name : CString MAX_MULTISIG_NAME_SIZE}
    {record : MultisigRecord} {signers : List Signer} {outputLen : ℕ} {format : Bytes}
    (hn : signers.length = record.xpubs.1.length)
    (ht : record.threshold.toNat ≤ MAX_ALLOWED_SIGNERS)
    (hx : ∀ signer ∈ signers, signer.xpub.chars.length ≤ 112)
    (hformat : formatText record.variant = some format)
    (hlen : multisigFileMaxLen signers.length ≤ outputLen) :
    multisigCreateExportFile L name record signers outputLen =
      if signers.all Signer.noAdditionalPath then
        .ok (exportText L name.chars record.threshold.toNat signers.length format record.sorted
          record.masterBlindingKey signers)
      else .error .refused := by
  have hmax : multisigFileMaxLen signers.length = 182 + signers.length * 329 := by
    simp [multisigFileMaxLen, maxPathStrLen, MAX_PATH_LEN]
  have hnum : record.xpubs.1.length ≤ MAX_ALLOWED_SIGNERS := record.xpubs.2
  have hname : name.chars.length < 16 := name.fits
  have hkeys : MSIG_FILE_NAME.length = 4 ∧ MSIG_FILE_POLICY.length = 6 ∧
    MSIG_FILE_FORMAT.length = 6 ∧ MSIG_FILE_SORTED.length = 6 ∧ (ascii "False").length = 5 := by decide
  have hpolicy := length_policyText ht hnum
  have hformatLen := length_formatText hformat
  have hcomment : (ascii "# Exported by Blockstream Jade").length = 30 := by decide
  -- the lines one after another, with what is in the buffer before each
  have h0 := @writeText_eq outputLen (ascii "# Exported by Blockstream Jade") [] true
    (by simp only [if_true, List.length_nil]; omega)
  rw [if_pos rfl, List.nil_append] at h0
  generalize hout0 : ascii "# Exported by Blockstream Jade" ++ [0x0a] = out0 at h0
  have hlen0 : out0.length = 31 := by rw [← hout0, List.length_append, hcomment]; rfl
  have h1 := @writeKeyValueLine_eq outputLen MSIG_FILE_NAME name.chars out0
    (by rw [length_textLine]; omega)
  generalize hout1 : out0 ++ textLine MSIG_FILE_NAME name.chars = out1 at h1
  have hlen1 : out1.length ≤ 53 := by rw [← hout1, List.length_append, length_textLine]; omega
  have h2 := @writeKeyValueLine_eq outputLen MSIG_FILE_POLICY
    (policyText record.threshold.toNat record.xpubs.1.length) out1 (by rw [length_textLine]; omega)
  generalize hout2 : out1 ++ textLine MSIG_FILE_POLICY
    (policyText record.threshold.toNat record.xpubs.1.length) = out2 at h2
  have hlen2 : out2.length ≤ 70 := by rw [← hout2, List.length_append, length_textLine]; omega
  have h3 := @writeKeyValueLine_eq outputLen MSIG_FILE_FORMAT format out2
    (by rw [length_textLine]; omega)
  generalize hout3 : out2 ++ textLine MSIG_FILE_FORMAT format = out3 at h3
  have hlen3 : out3.length ≤ 89 := by rw [← hout3, List.length_append, length_textLine]; omega
  have h4 : writeSorted outputLen record.sorted out3 =
      .ok (out3 ++ if record.sorted then [] else textLine MSIG_FILE_SORTED (ascii "False")) := by
    cases record.sorted with
    | false => exact writeKeyValueLine_eq (by rw [length_textLine]; omega)
    | true =>
        rw [if_pos rfl, List.append_nil]
        rfl
  generalize hout4 : (out3 ++ if record.sorted then [] else textLine MSIG_FILE_SORTED (ascii "False")) =
    out4 at h4
  have hlen4 : out4.length ≤ 103 := by
    rw [← hout4, List.length_append]
    split
    · rw [List.length_nil]
      omega
    · rw [length_textLine]
      omega
  have h5 := @writeBlindingKey_eq K L hL outputLen record.masterBlindingKey out4 (by omega)
  generalize hout5 : (out4 ++ match record.masterBlindingKey with
      | none => []
      | some key => textLine MSIG_FILE_BLINDING_KEY (L.hexFromBytes key.1)) = out5 at h5
  have hlen5 : out5.length ≤ 181 := by
    rw [← hout5, List.length_append]
    cases record.masterBlindingKey with
    | none =>
        rw [List.length_nil]
        omega
    | some key =>
        have hkey : MSIG_FILE_BLINDING_KEY.length = 11 := by decide
        have hsize : key.1.length = 32 := key.2
        dsimp only
        rw [length_textLine, hL.length_hex]
        omega
  have h6 := @foldlM_exportSigner K L hL signers outputLen out5 hx (by omega)
  simp only [multisigCreateExportFile, exportVerify, decide_eq_true hn, decide_eq_true hlen, if_true,
    bind, Except.bind, h0, h1, h2, hformat, h3, h4, h5, h6]
  cases hall : signers.all Signer.noAdditionalPath with
  | false => rfl
  | true =>
      have hend : (out5 ++ signers.flatMap (signerText L)).length < outputLen := by
        have := length_signersText hL hx
        rw [List.length_append]
        omega
      have htext : exportText L name.chars record.threshold.toNat signers.length format record.sorted
          record.masterBlindingKey signers = out5 ++ signers.flatMap (signerText L) := by
        unfold exportText headText
        rw [hn, hout0, hout1, hout2, hout3, hout4]
        exact congrArg (· ++ signers.flatMap (signerText L)) hout5
      rw [htext]
      simp only [if_true, decide_eq_true hend]
      rfl

end Model

end Jade
