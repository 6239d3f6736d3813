/-
**Signing a message file (`process/sign_message.c`, `wallet.c`, `ui/sign_message.c`).**

A message file is one line: a keyword, a path, a label, and behind a colon the message.  The code cuts
it up with searches for the next separator.  Every search but one is tested before its result is
used; where the path is not followed by a space, the length of its text is computed from a null
pointer.  What the user confirms is a text of at most 191 characters, the hash of the message and the
path.  The text is printed into a buffer, and the code insists that as much was printed as there was,
which a NUL byte in the message prevents.

Main definitions:

* `Jade.MessageWally`, `Jade.MessageWally.Lawful` — the functions of `libwally` and `mbedtls`, and what
  they document;
* `Jade.confirmSignMessage`, `Jade.walletSignMessageHash`, `Jade.signMessageFile` — the code;
* `Jade.MessageFile` — the form of a file;
* `Jade.fileHolds` — the files the code can deal with.

Main results:

* `Jade.readMessageFile_cases` — which files are read, and which are not even refused;
* `Jade.fileRun_iff` — what the code does with a file, exactly when it can deal with it.
-/

import Jade.Lib.CText
import Jade.Utils.Handler
import Jade.Utils.Network
import Jade.Wallet.PathText

set_option relaxedAutoImplicit false
set_option autoImplicit false

namespace Jade

open Exec

/-! ### The libraries below -/

def EC_SIGNATURE_LEN : ℕ := 64
def EC_SIGNATURE_RECOVERABLE_LEN : ℕ := 65
def WALLY_HOST_COMMITMENT_LEN : ℕ := 32
def WALLY_S2C_DATA_LEN : ℕ := 32
def BITCOIN_MESSAGE_MAX_LEN : ℕ := 64 * 1024 - 64

/-- What is called below: the hash of a message, keys and signatures, and texts.  A key is that of a
path below the key of the unlocked wallet. -/
structure MessageWally where
  /-- `wally_format_bitcoin_message` and `wally_format_litecoin_message` with
  `BITCOIN_MESSAGE_FLAG_HASH` -/
  formatBitcoinMessage : Bytes → Option Bytes
  formatLitecoinMessage : Bytes → Option Bytes
  /-- `wally_hex_from_bytes` -/
  hexFromBytes : Bytes → Bytes
  /-- `bip32_path_from_str_n` with `BIP32_FLAG_ALLOW_UPPER` -/
  bip32PathFromStr : Bytes → Option (List UInt32)
  /-- `bip32_key_from_parent_path` -/
  bip32KeyFromParentPath : List UInt32 → Option Bytes
  /-- `wally_ec_sig_from_bytes` with `EC_FLAG_RECOVERABLE` -/
  ecSigFromBytes : Bytes → Bytes → Option Bytes
  /-- `wally_ae_sig_from_bytes` -/
  aeSigFromBytes : Bytes → Bytes → Bytes → Option Bytes
  /-- `wally_ae_signer_commit_from_bytes` -/
  aeSignerCommitFromBytes : Bytes → Bytes → Bytes → Option Bytes
  /-- `mbedtls_base64_encode`, without the terminator -/
  base64Encode : Bytes → Bytes

/-- What the libraries document. -/
structure MessageWally.Lawful (W : MessageWally) : Prop where
  bitcoin_isSome : ∀ text, (W.formatBitcoinMessage text).isSome = true ↔
    0 < text.length ∧ text.length ≤ BITCOIN_MESSAGE_MAX_LEN
  litecoin_isSome : ∀ text, (W.formatLitecoinMessage text).isSome = true ↔
    0 < text.length ∧ text.length ≤ BITCOIN_MESSAGE_MAX_LEN
  length_bitcoin : ∀ {text hash}, W.formatBitcoinMessage text = some hash → hash.length = 32
  length_litecoin : ∀ {text hash}, W.formatLitecoinMessage text = some hash → hash.length = 32
  length_hex : ∀ bytes, (W.hexFromBytes bytes).length = 2 * bytes.length
  key_isSome : ∀ {path : List UInt32}, path ≠ [] → path.length ≤ MAX_PATH_LEN →
    (W.bip32KeyFromParentPath path).isSome = true
  length_ecSig : ∀ {key hash sig}, W.ecSigFromBytes key hash = some sig →
    sig.length = EC_SIGNATURE_RECOVERABLE_LEN
  length_aeSig : ∀ {key hash entropy sig}, W.aeSigFromBytes key hash entropy = some sig →
    sig.length = EC_SIGNATURE_LEN
  commit_isSome : ∀ {path key hash commitment}, W.bip32KeyFromParentPath path = some key →
    hash.length = 32 → commitment.length = WALLY_HOST_COMMITMENT_LEN →
      (W.aeSignerCommitFromBytes key hash commitment).isSome = true
  length_base64 : ∀ bytes, (W.base64Encode bytes).length = 4 * ((bytes.length + 2) / 3)
  base64_text : ∀ bytes, 0 ∉ W.base64Encode bytes

/-! ### The code -/

def MAX_DISPLAY_MESSAGE_LEN : ℕ := 192

/-- The details of a message, as they are shown for confirmation: the text in one line and in pages,
the hash in groups of digits, and the path. -/
structure SignMessageScreen where
  message : Bytes
  pages : List Bytes
  hash : Bytes
  path : Bytes
  deriving DecidableEq

/-- The replies to a request for a signature. -/
inductive MessageReply
  | signerCommitment (bytes : Bytes)
  | signature (text : Bytes)
  deriving DecidableEq

/-- The text of `confirm_sign_message`, truncated if it is overlong. -/
def displayedMessage (msg : Bytes) : Except Fault Bytes :=
  if msg.length < MAX_DISPLAY_MESSAGE_LEN then do
    let message := printText msg.length msg
    jadeVerify (decide (message.length = msg.length))
    return message
  else do
    let message := printText (MAX_DISPLAY_MESSAGE_LEN - 4) msg ++ ascii "..."
    jadeVerify (decide (message.length = MAX_DISPLAY_MESSAGE_LEN - 1))
    return message

/-- The one or two pages of `make_sign_message_activities`, each behind an empty line. -/
def messagePages (msgtxt : Bytes) : Except Fault (List Bytes) := do
  jadeVerify (decide (msgtxt.length ≤ MAX_DISPLAY_MESSAGE_LEN))
  let maxDisplayLen := MAX_DISPLAY_MESSAGE_LEN / 2
  if msgtxt.length ≤ maxDisplayLen then do
    let buf := 0x0a :: msgtxt
    jadeVerify (decide (buf.length < 1 + maxDisplayLen + 1))
    return [buf]
  else do
    let buf := 0x0a :: msgtxt.take maxDisplayLen
    jadeVerify (decide (buf.length < 1 + maxDisplayLen + 1))
    let buf' := 0x0a :: msgtxt.drop maxDisplayLen
    jadeVerify (decide (buf'.length < 1 + maxDisplayLen + 1))
    return [buf, buf']

/-- The digits of a hash in eight groups of eight. -/
def hashGroups (hashhex : Bytes) : Bytes :=
  List.intercalate (ascii "  ") ((List.range 8).map fun i => (hashhex.drop (8 * i)).take 8)

/-- `show_sign_message_activity`, as far as the texts go. -/
def showSignMessageActivity (message hashhex pathstr : Bytes) : Except Fault SignMessageScreen := do
  jadeVerify (decide (hashhex.length = 64))
  jadeVerify (decide ((hashGroups hashhex).length < 96))
  let pages ← messagePages message
  return { message, pages, hash := hashGroups hashhex, path := pathstr }

section Model

variable (W : MessageWally) (user : SignMessageScreen → Bool)

/-- `confirm_sign_message` -/
def confirmSignMessage (msg hash pathstr : Bytes) : Handler SignMessageScreen MessageReply Bool := do
  orFault (jadeVerify (decide (hash.length = 32)))
  let message ← orFault (displayedMessage msg)
  let screen ← orFault (showSignMessageActivity message (W.hexFromBytes hash) pathstr)
  askUser user screen

/-- `wallet_get_message_hash` -/
def walletGetMessageHash (bytes : Bytes) (network : Network) : Option Bytes :=
  if bytes.isEmpty then none
  else
    match (if networkIsLitecoin network then W.formatLitecoinMessage bytes
      else W.formatBitcoinMessage bytes) with
    | none => none
    | some hash => if hash.length = 32 then some hash else none

/-- The signature of `wallet_sign_message_hash`: an anti-exfil one if the host has given entropy. -/
def messageSignature (privkey hash : Bytes) (aeHostEntropy : Option Bytes) : Option Bytes :=
  match aeHostEntropy with
  | some entropy => W.aeSigFromBytes privkey hash entropy
  | none => W.ecSigFromBytes privkey hash

/-- `wallet_sign_message_hash` into a buffer of `EC_SIGNATURE_LEN * 2` bytes; the text that is
written has its terminator. -/
def walletSignMessageHash (hash : Bytes) (path : List UInt32) (aeHostEntropy : Option Bytes) :
    Except Fault (Option Bytes) :=
  if path.isEmpty || decide (hash.length ≠ 32) then .ok none
  else if aeHostEntropy.any fun entropy => decide (entropy.length ≠ WALLY_S2C_DATA_LEN) then .ok none
  else do
    let privkey ← wallyVerify (W.bip32KeyFromParentPath path)
    match messageSignature W privkey hash aeHostEntropy with
    | none => return none
    | some signature => do
        let output := W.base64Encode signature
        jadeVerify (decide (output.length < EC_SIGNATURE_LEN * 2))
        return some (output ++ [0])

/-- `wallet_bip32_path_from_str` -/
def walletBip32PathFromStr (pathstr : Bytes) : Option (List UInt32) :=
  match W.bip32PathFromStr pathstr with
  | none => none
  | some path => if MAX_PATH_LEN < path.length then none else some path

def SIGN_MESSAGE_FILE_PREFIX : Bytes := ascii "signmessage"
def SIGN_MESSAGE_FILE_LABEL_ASCII : Bytes := ascii "ascii"

/-- `end - ptr`.  When the search has failed, the difference is that of a null pointer, and what is
handed on reaches beyond the text. -/
def searchedLength (found : Option ℕ) : Except Fault ℕ :=
  match found with
  | none => .error .overflow
  | some len => .ok len

/-- A rejection of a file. -/
def refuseFile {α : Type} (errmsg : String) : Except SignErr α :=
  .error (.reject CBOR_RPC_BAD_PARAMETERS errmsg)

/-- A fault while a file is read. -/
def fileFault {α : Type} : Except Fault α → Except SignErr α
  | .ok a => .ok a
  | .error f => .error (.fault f)

/-- The words in front of a separator: the text in front of it is `word`, in letters of any case. -/
def wordBefore (sep : UInt8) (word : Bytes) (ptr : Bytes) : Option Bytes :=
  match memchr sep ptr with
  | none => none
  | some len =>
      if decide (len ≠ word.length) || !sameLetters (ptr.take len) word then none
      else some (ptr.drop (len + 1))

/-- The fields of `sign_message_file`: the path, its standardised text, and the message. -/
def readMessageFile (str : Bytes) : Except SignErr (List UInt32 × Bytes × Bytes) := do
  fileFault (jadeVerify (!str.isEmpty))
  match wordBefore 0x20 SIGN_MESSAGE_FILE_PREFIX str with
  | none => refuseFile "Invalid prefix"
  | some ptr => do
      -- bip32 path: parse, then print back
      let len ← fileFault (searchedLength (memchr 0x20 ptr))
      match walletBip32PathFromStr W (ptr.take len) with
      | none | some [] => refuseFile "Invalid bip32 path"
      | some path =>
          match walletBip32PathAsStr path (maxPathStrLen MAX_PATH_LEN) false with
          | none => refuseFile "Invalid bip32 path"
          | some pathstr =>
              match wordBefore 0x3a SIGN_MESSAGE_FILE_LABEL_ASCII (ptr.drop (len + 1)) with
              | none => refuseFile "Invalid message prefix"
              | some [] => refuseFile "Invalid message bytes"
              | some (b :: msg) =>
                  if b = 0 then refuseFile "Invalid message bytes"
                  else return (path, ascii pathstr, b :: msg)

/-- `sign_message_file`: the signature, with its terminator. -/
def signMessageFile (str : Bytes) : Handler SignMessageScreen MessageReply Bytes := do
  match readMessageFile W str with
  | .error e => throw e
  | .ok (path, pathstr, msg) =>
      match walletGetMessageHash W msg .bitcoin with
      | none => reject CBOR_RPC_INTERNAL_ERROR "Failed to get message hash"
      | some hash => do
          if ← confirmSignMessage W user msg hash pathstr then do
            match ← orFault (walletSignMessageHash W hash path none) with
            | none => reject CBOR_RPC_INTERNAL_ERROR "Failed to sign message"
            | some signature => pure signature
          else reject CBOR_RPC_USER_CANCELLED "User declined to sign message"

end Model

/-! ### Reading a file -/

/-- A word is found in front of a separator that none of its letters can be taken for. -/
theorem wordBefore_eq_some {sep : UInt8} {word ptr rest : Bytes}
    (hsep : toLower sep ∉ word.map toLower) :
    wordBefore sep word ptr = some rest ↔
      ∃ w, ptr = w ++ sep :: rest ∧ sameLetters w word = true := by
  constructor
  · intro h
    unfold wordBefore at h
    cases hsearch : memchr sep ptr with
    | none => simp [hsearch] at h
    | some len =>
        simp only [hsearch, Option.ite_none_left_eq_some, Bool.or_eq_true, decide_eq_true_eq,
          Bool.not_eq_true', not_or, Bool.not_eq_false] at h
        obtain ⟨⟨-, hsame⟩, hrest⟩ := h
        obtain rfl := Option.some.inj hrest
        exact ⟨ptr.take len, (memchr_eq_some hsearch).2.1, hsame⟩
  · rintro ⟨w, rfl, hsame⟩
    have hmap : w.map toLower = word.map toLower := beq_iff_eq.1 hsame
    have hw : sep ∉ w := fun hmem => hsep (hmap ▸ List.mem_map_of_mem hmem)
    have hlen : w.length = word.length := by simpa using congrArg List.length hmap
    have htake : (w ++ sep :: rest).take w.length = w := List.take_left
    have hdrop : (w ++ sep :: rest).drop (w.length + 1) = rest := by
      rw [← List.drop_drop, List.drop_left]
      rfl
    rw [wordBefore, memchr_append hw]
    dsimp only
    rw [htake, hdrop, hsame, if_neg (by simp [hlen])]

/-- **The form of a file**: the keyword, the path, the label and the message. -/
def MessageFile (W : MessageWally) (text : Bytes) (path : List UInt32) (msg : Bytes) : Prop :=
  ∃ word pathstr label,
    text = word ++ 0x20 :: (pathstr ++ 0x20 :: (label ++ 0x3a :: msg)) ∧
    sameLetters word SIGN_MESSAGE_FILE_PREFIX = true ∧
    0x20 ∉ pathstr ∧ W.bip32PathFromStr pathstr = some path ∧ path ≠ [] ∧
      path.length ≤ MAX_PATH_LEN ∧
    sameLetters label SIGN_MESSAGE_FILE_LABEL_ASCII = true ∧ msg ≠ []

/-- The keyword is there, and no space behind what should be the path. -/
def Unfinished (text : Bytes) : Prop :=
  ∃ word rest, text = word ++ 0x20 :: rest ∧
    sameLetters word SIGN_MESSAGE_FILE_PREFIX = true ∧ 0x20 ∉ rest

section Read

variable {W : MessageWally}

theorem space_not_prefix : toLower 0x20 ∉ SIGN_MESSAGE_FILE_PREFIX.map toLower := by decide

theorem colon_not_label : toLower 0x3a ∉ SIGN_MESSAGE_FILE_LABEL_ASCII.map toLower := by decide

/-- What is read behind the path. -/
theorem readMessageFile_eq {text ptr : Bytes} {len : ℕ} (hne : text ≠ [])
    (hword : wordBefore 0x20 SIGN_MESSAGE_FILE_PREFIX text = some ptr)
    (hlen : memchr 0x20 ptr = some len) :
    readMessageFile W text =
      match walletBip32PathFromStr W (ptr.take len) with
      | none | some [] => refuseFile "Invalid bip32 path"
      | some path =>
          match walletBip32PathAsStr path (maxPathStrLen MAX_PATH_LEN) false with
          | none => refuseFile "Invalid bip32 path"
          | some pathstr =>
              match wordBefore 0x3a SIGN_MESSAGE_FILE_LABEL_ASCII (ptr.drop (len + 1)) with
              | none => refuseFile "Invalid message prefix"
              | some [] => refuseFile "Invalid message bytes"
              | some (b :: msg) =>
                  if b = 0 then refuseFile "Invalid message bytes"
                  else .ok (path, ascii pathstr, b :: msg) := by
  have hassert : fileFault (jadeVerify (!text.isEmpty)) = .ok () := by
    cases text with
    | nil => exact absurd rfl hne
    | cons b bs => rfl
  rw [readMessageFile, hassert]
  simp only [hword, hlen]
  rfl

/-- A path text that the library reads is the text of a path that is not too long. -/
theorem walletBip32PathFromStr_eq_some {pathstr : Bytes} {path : List UInt32} :
    walletBip32PathFromStr W pathstr = some path ↔
      W.bip32PathFromStr pathstr = some path ∧ path.length ≤ MAX_PATH_LEN := by
  unfold walletBip32PathFromStr
  cases W.bip32PathFromStr pathstr with
  | none => simp
  | some p =>
      simp only [Option.ite_none_left_eq_some, Option.some.injEq, Nat.not_lt]
      constructor
      · rintro ⟨hle, rfl⟩
        exact ⟨rfl, hle⟩
      · rintro ⟨rfl, hle⟩
        exact ⟨hle, rfl⟩

/-- The four ways to read a file: it is empty, it is unfinished, it is refused, or it is read. -/
theorem readMessageFile_cases (text : Bytes) :
    (text = [] ∧ readMessageFile W text = .error (.fault .assert)) ∨
      (Unfinished text ∧ readMessageFile W text = .error (.fault .overflow)) ∨
      (∃ errmsg, readMessageFile W text = refuseFile errmsg) ∨
      ∃ path msg, MessageFile W text path msg ∧ msg.head? ≠ some 0 ∧
        readMessageFile W text = .ok (path, pathText path, msg) := by
  by_cases hne : text = []
  · subst hne
    exact .inl ⟨rfl, rfl⟩
  have hassert : fileFault (jadeVerify (!text.isEmpty)) = .ok () := by
    cases text with
    | nil => exact absurd rfl hne
    | cons b bs => rfl
  right
  cases hword : wordBefore 0x20 SIGN_MESSAGE_FILE_PREFIX text with
  | none =>
      refine .inr (.inl ⟨"Invalid prefix", ?_⟩)
      rw [readMessageFile, hassert]
      simp only [hword]
      rfl
  | some ptr =>
      obtain ⟨word, hsplit, hsame⟩ := (wordBefore_eq_some space_not_prefix).1 hword
      cases hlen : memchr 0x20 ptr with
      | none =>
          refine .inl ⟨⟨word, ptr, hsplit, hsame, memchr_eq_none.1 hlen⟩, ?_⟩
          rw [readMessageFile, hassert]
          simp only [hword, hlen]
          rfl
      | some len =>
          right
          rw [readMessageFile_eq hne hword hlen]
          split
          · exact .inl ⟨_, rfl⟩
          · exact .inl ⟨_, rfl⟩
          next path hpathne hpath =>
          split
          · exact .inl ⟨_, rfl⟩
          next pathstr hstr =>
          split
          · exact .inl ⟨_, rfl⟩
          · exact .inl ⟨_, rfl⟩
          next b msg hlabel =>
          split
          · exact .inl ⟨_, rfl⟩
          next hb =>
          -- nothing has been refused: put the pieces together
          obtain ⟨label, hsplit', hsame'⟩ := (wordBefore_eq_some colon_not_label).1 hlabel
          obtain ⟨hpath, hle⟩ := walletBip32PathFromStr_eq_some.1 hpath
          obtain ⟨hnot, hptr, -⟩ := memchr_eq_some hlen
          rw [hsplit'] at hptr
          refine .inr ⟨path, b :: msg, ⟨word, ptr.take len, label, by rw [hsplit, ← hptr], hsame,
            hnot, hpath, fun hnil => hpathne hnil, hle, hsame', List.cons_ne_nil _ _⟩, ?_, ?_⟩
          · simpa using hb
          · rw [pathText, hstr]
            rfl

/-- **Which files are read**: those of the form, whose message does not begin with a NUL byte. -/
theorem readMessageFile_of_file {text msg : Bytes} {path : List UInt32}
    (hfile : MessageFile W text path msg) (hhead : msg.head? ≠ some 0) :
    readMessageFile W text = .ok (path, pathText path, msg) := by
  obtain ⟨word, p, label, rfl, hsame, hnot, hpath, hne, hle, hsame', hmsg⟩ := hfile
  have hword : wordBefore 0x20 SIGN_MESSAGE_FILE_PREFIX
      (word ++ 0x20 :: (p ++ 0x20 :: (label ++ 0x3a :: msg))) =
      some (p ++ 0x20 :: (label ++ 0x3a :: msg)) :=
    (wordBefore_eq_some space_not_prefix).2 ⟨word, rfl, hsame⟩
  have hlabel : wordBefore 0x3a SIGN_MESSAGE_FILE_LABEL_ASCII (label ++ 0x3a :: msg) = some msg :=
    (wordBefore_eq_some colon_not_label).2 ⟨label, rfl, hsame'⟩
  have htake : (p ++ 0x20 :: (label ++ 0x3a :: msg)).take p.length = p := List.take_left
  have hdrop : (p ++ 0x20 :: (label ++ 0x3a :: msg)).drop (p.length + 1) = label ++ 0x3a :: msg := by
    rw [← List.drop_drop, List.drop_left]
    rfl
  obtain ⟨t, ht, htext⟩ := pathText_eq hle
  rw [readMessageFile_eq (by simp) hword (memchr_append hnot _), htake, hdrop,
    walletBip32PathFromStr_eq_some.2 ⟨hpath, hle⟩]
  cases path with
  | nil => exact absurd rfl hne
  | cons n path =>
      cases msg with
      | nil => exact absurd rfl hmsg
      | cons b msg =>
          simp only [ht, hlabel]
          rw [if_neg (by simpa using hhead), htext]

/-- A file that is empty or unfinished is not even refused. -/
theorem readMessageFile_of_unfinished {text : Bytes} (h : text = [] ∨ Unfinished text) :
    ∃ f, readMessageFile W text = .error (.fault f) := by
  cases h with
  | inl hnil =>
      subst hnil
      exact ⟨.assert, rfl⟩
  | inr h =>
      obtain ⟨word, rest, rfl, hsame, hnot⟩ := h
      have hword : wordBefore 0x20 SIGN_MESSAGE_FILE_PREFIX (word ++ 0x20 :: rest) = some rest :=
        (wordBefore_eq_some space_not_prefix).2 ⟨word, rfl, hsame⟩
      have hassert : fileFault (jadeVerify (!(word ++ 0x20 :: rest).isEmpty)) = .ok () := by
        cases word with
        | nil => rfl
        | cons b word => rfl
      refine ⟨.overflow, ?_⟩
      rw [readMessageFile, hassert]
      simp only [hword, memchr_eq_none.2 hnot]
      rfl

end Read

/-! ### What is shown -/

/-- The part of a message that is printed. -/
def shownPart (msg : Bytes) : Bytes :=
  if msg.length < MAX_DISPLAY_MESSAGE_LEN then msg else msg.take (MAX_DISPLAY_MESSAGE_LEN - 4)

/-- The text shown: the message in full when it fits, and its beginning otherwise. -/
def shownText (msg : Bytes) : Bytes :=
  if msg.length < MAX_DISPLAY_MESSAGE_LEN then msg
  else msg.take (MAX_DISPLAY_MESSAGE_LEN - 4) ++ ascii "..."

/-- **A screen for a message**: its text, whole in one line and whole over the pages, the digits of
its hash, and the path. -/
structure ShowsMessage (W : MessageWally) (path : List UInt32) (msg hash : Bytes)
    (screen : SignMessageScreen) : Prop where
  message : screen.message = shownText msg
  pages : screen.pages.flatMap List.tail = shownText msg
  hash : screen.hash = hashGroups (W.hexFromBytes hash)
  path : screen.path = pathText path

theorem length_shownText_le (msg : Bytes) : (shownText msg).length ≤ MAX_DISPLAY_MESSAGE_LEN - 1 := by
  have hdots : (ascii "...").length = 3 := by decide
  unfold shownText MAX_DISPLAY_MESSAGE_LEN
  split
  · omega
  · rw [List.length_append, List.length_take, hdots]
    omega

/-- A message is printed as it is when what is printed of it has no NUL byte. -/
theorem displayedMessage_of_noNul {msg : Bytes} (h : 0 ∉ shownPart msg) :
    displayedMessage msg = .ok (shownText msg) := by
  unfold shownPart at h
  unfold displayedMessage shownText
  split
  · next hlt =>
      rw [if_pos hlt] at h
      have htake : msg.take msg.length = msg := List.take_length
      have hprint : printText msg.length msg = msg := by
        rw [printText_eq (by rw [htake]; exact h), htake]
      simp [hprint, jadeVerify, bind, Except.bind, pure, Except.pure]
  · next hlt =>
      rw [if_neg hlt] at h
      have hdots : (ascii "...").length = 3 := by decide
      have hlen : (msg.take (MAX_DISPLAY_MESSAGE_LEN - 4) ++ ascii "...").length =
          MAX_DISPLAY_MESSAGE_LEN - 1 := by
        rw [List.length_append, List.length_take, hdots]
        unfold MAX_DISPLAY_MESSAGE_LEN at hlt ⊢
        omega
      simp [printText_eq h, hlen, jadeVerify, bind, Except.bind, pure, Except.pure]

/-- With a NUL byte in what is to be printed, less is printed than the code insists on. -/
theorem displayedMessage_of_nul {msg : Bytes} (h : 0 ∈ shownPart msg) :
    displayedMessage msg = .error .assert := by
  have hcut : ∀ {precision : ℕ}, 0 ∈ msg.take precision →
      (printText precision msg).length < (msg.take precision).length := by
    intro precision hmem
    refine lt_of_le_of_ne (List.takeWhile_prefix _).length_le fun heq => ?_
    exact length_cstr.1 heq hmem
  unfold shownPart at h
  unfold displayedMessage
  split
  · next hlt =>
      rw [if_pos hlt] at h
      have hlt' := @hcut msg.length (by rwa [List.take_length])
      rw [List.take_length] at hlt'
      simp [jadeVerify, bind, Except.bind, Nat.ne_of_lt hlt']
  · next hlt =>
      rw [if_neg hlt] at h
      have hlt' := hcut h
      have hdots : (ascii "...").length = 3 := by decide
      have hne : (printText (MAX_DISPLAY_MESSAGE_LEN - 4) msg ++ ascii "...").length ≠
          MAX_DISPLAY_MESSAGE_LEN - 1 := by
        rw [List.length_append, hdots]
        rw [List.length_take] at hlt'
        unfold MAX_DISPLAY_MESSAGE_LEN at hlt' ⊢
        omega
      simp only [jadeVerify, decide_eq_false hne]
      rfl

theorem messagePages_eq {msgtxt : Bytes} (h : msgtxt.length ≤ MAX_DISPLAY_MESSAGE_LEN - 1) :
    ∃ pages, messagePages msgtxt = .ok pages ∧ pages.flatMap List.tail = msgtxt := by
  have hmax : MAX_DISPLAY_MESSAGE_LEN = 192 := rfl
  rw [hmax] at h
  unfold messagePages
  rw [jadeVerify_bind (decide_eq_true (by omega))]
  dsimp only
  split
  · next hle =>
      refine ⟨[0x0a :: msgtxt], ?_, by simp⟩
      rw [jadeVerify_bind (decide_eq_true (by rw [List.length_cons]; omega))]
      rfl
  · next hle =>
      refine ⟨[0x0a :: msgtxt.take (MAX_DISPLAY_MESSAGE_LEN / 2),
        0x0a :: msgtxt.drop (MAX_DISPLAY_MESSAGE_LEN / 2)], ?_, by simp⟩
      rw [jadeVerify_bind (decide_eq_true (by rw [List.length_cons, List.length_take]; omega)),
        jadeVerify_bind (decide_eq_true (by rw [List.length_cons, List.length_drop]; omega))]
      rfl

theorem length_hashGroups {hashhex : Bytes} (h : hashhex.length = 64) :
    (hashGroups hashhex).length = 78 := by
  have hgroup : ∀ i < 8, ((hashhex.drop (8 * i)).take 8).length = 8 := by
    intro i hi
    rw [List.length_take, List.length_drop]
    omega
  have hspace : (ascii "  ").length = 2 := by decide
  have hrange : List.range 8 = [0, 1, 2, 3, 4, 5, 6, 7] := by decide
  simp only [hashGroups, hrange, List.map_cons, List.map_nil, List.intercalate_cons_cons,
    List.intercalate_singleton, List.length_append, hspace]
  rw [hgroup 0 (by omega), hgroup 1 (by omega), hgroup 2 (by omega), hgroup 3 (by omega),
    hgroup 4 (by omega), hgroup 5 (by omega), hgroup 6 (by omega), hgroup 7 (by omega)]

section Confirm

variable {W : MessageWally} (hW : W.Lawful) (user : SignMessageScreen → Bool)

include hW in
/-- **What the user is asked**, when what is printed of the message has no NUL byte. -/
theorem confirmSignMessage_of_noNul (path : List UInt32) {msg hash : Bytes}
    (hhash : hash.length = 32) (h : 0 ∉ shownPart msg) :
    ∃ screen, ShowsMessage W path msg hash screen ∧
      confirmSignMessage W user msg hash (pathText path) = askUser user screen := by
  have hhex : (W.hexFromBytes hash).length = 64 := by rw [hW.length_hex, hhash]
  obtain ⟨pages, hpages, hall⟩ := messagePages_eq (length_shownText_le msg)
  refine ⟨⟨shownText msg, pages, hashGroups (W.hexFromBytes hash), pathText path⟩,
    ⟨rfl, hall, rfl, rfl⟩, ?_⟩
  have hscreen : showSignMessageActivity (shownText msg) (W.hexFromBytes hash) (pathText path) =
      .ok ⟨shownText msg, pages, hashGroups (W.hexFromBytes hash), pathText path⟩ := by
    unfold showSignMessageActivity
    rw [jadeVerify_bind (decide_eq_true hhex),
      jadeVerify_bind (decide_eq_true (by rw [length_hashGroups hhex]; omega)), hpages]
    rfl
  unfold confirmSignMessage
  rw [displayedMessage_of_noNul h, jadeVerify, if_pos (decide_eq_true hhash)]
  simp only [orFault, pure_bind, hscreen]

/-- With a NUL byte there the device restarts. -/
theorem confirmSignMessage_of_nul {path : List UInt32} {msg hash : Bytes}
    (hhash : hash.length = 32) (h : 0 ∈ shownPart msg) :
    confirmSignMessage W user msg hash (pathText path) = throw (.fault .assert) := by
  unfold confirmSignMessage
  rw [displayedMessage_of_nul h, jadeVerify, if_pos (decide_eq_true hhash)]
  rfl

end Confirm

/-! ### What is signed -/

section Signed

variable {W : MessageWally} (hW : W.Lawful)

include hW in
/-- The hash of a message is there just when the message is not too long. -/
theorem walletGetMessageHash_isSome {msg : Bytes} (hmsg : msg ≠ []) (network : Network) :
    (walletGetMessageHash W msg network).isSome = true ↔ msg.length ≤ BITCOIN_MESSAGE_MAX_LEN := by
  have hpos : 0 < msg.length := List.length_pos_iff.2 hmsg
  have hempty : msg.isEmpty = false := by simpa using hmsg
  unfold walletGetMessageHash
  rw [hempty, if_neg Bool.false_ne_true]
  cases hfamily : networkIsLitecoin network with
  | true =>
      have hiff := hW.litecoin_isSome msg
      rw [if_pos rfl]
      cases hhash : W.formatLitecoinMessage msg with
      | none =>
          simp only [hhash, Option.isSome_none, Bool.false_eq_true, false_iff, not_and] at hiff ⊢
          exact hiff hpos
      | some hash =>
          simp only [hhash, Option.isSome_some, true_iff] at hiff
          simp [hW.length_litecoin hhash, hiff.2]
  | false =>
      have hiff := hW.bitcoin_isSome msg
      rw [if_neg Bool.false_ne_true]
      cases hhash : W.formatBitcoinMessage msg with
      | none =>
          simp only [hhash, Option.isSome_none, Bool.false_eq_true, false_iff, not_and] at hiff ⊢
          exact hiff hpos
      | some hash =>
          simp only [hhash, Option.isSome_some, true_iff] at hiff
          simp [hW.length_bitcoin hhash, hiff.2]

theorem length_walletGetMessageHash {msg hash : Bytes} {network : Network}
    (h : walletGetMessageHash W msg network = some hash) : hash.length = 32 := by
  unfold walletGetMessageHash at h
  split at h
  · cases h
  · split at h
    · cases h
    · rw [Option.ite_none_right_eq_some] at h
      obtain ⟨hlen, heq⟩ := h
      rw [← Option.some.inj heq]
      exact hlen

include hW in
/-- **The signature is over the hash, with the key of the path**; it is returned as text with its
terminator. -/
theorem walletSignMessageHash_eq {path : List UInt32} {hash : Bytes} (aeHostEntropy : Option Bytes)
    (hne : path ≠ []) (hle : path.length ≤ MAX_PATH_LEN) (hhash : hash.length = 32)
    (hentropy : ∀ entropy, aeHostEntropy = some entropy → entropy.length = WALLY_S2C_DATA_LEN) :
    ∃ key, W.bip32KeyFromParentPath path = some key ∧
      walletSignMessageHash W hash path aeHostEntropy =
        .ok ((messageSignature W key hash aeHostEntropy).map fun sig =>
          W.base64Encode sig ++ [0]) := by
  obtain ⟨key, hkey⟩ := Option.isSome_iff_exists.1 (hW.key_isSome hne hle)
  refine ⟨key, hkey, ?_⟩
  have hpath : (path.isEmpty || decide (hash.length ≠ 32)) = false := by simp [hne, hhash]
  have hlen : (aeHostEntropy.any fun entropy => decide (entropy.length ≠ WALLY_S2C_DATA_LEN)) =
      false := by
    cases aeHostEntropy with
    | none => rfl
    | some entropy => simp [hentropy entropy rfl]
  unfold walletSignMessageHash
  rw [hpath, hlen, if_neg Bool.false_ne_true, if_neg Bool.false_ne_true, hkey, wallyVerify, ok_bind]
  cases hsig : messageSignature W key hash aeHostEntropy with
  | none => rfl
  | some sig =>
      have hsize : sig.length ≤ EC_SIGNATURE_RECOVERABLE_LEN := by
        cases aeHostEntropy with
        | none => exact (hW.length_ecSig hsig).le
        | some entropy => exact (hW.length_aeSig hsig).trans_le (by decide)
      have htext : (W.base64Encode sig).length < EC_SIGNATURE_LEN * 2 := by
        rw [hW.length_base64]
        unfold EC_SIGNATURE_RECOVERABLE_LEN at hsize
        unfold EC_SIGNATURE_LEN
        omega
      simp only [jadeVerify_bind (decide_eq_true htext), Option.map_some]
      rfl

end Signed

/-! ### The result for files -/

section Result

variable {W : MessageWally} (hW : W.Lawful)

/-- **The files the code can deal with.**  A text is not empty and not unfinished; and if it is a file
whose message is not too long to be hashed, what is printed of the message has no NUL byte. -/
def fileHolds (W : MessageWally) (text : Bytes) : Prop :=
  text ≠ [] ∧ ¬Unfinished text ∧
    ∀ path msg, MessageFile W text path msg → msg.head? ≠ some 0 →
      msg.length ≤ BITCOIN_MESSAGE_MAX_LEN → 0 ∉ shownPart msg

/-- The user has been asked about a file of the right form, and nothing else. -/
def FileAsked (W : MessageWally) (text : Bytes) (answers : List (SignMessageScreen × Bool)) : Prop :=
  ∃ path msg hash screen accepted, MessageFile W text path msg ∧
    walletGetMessageHash W msg .bitcoin = some hash ∧ ShowsMessage W path msg hash screen ∧
      answers = [(screen, accepted)]

/-- The user has confirmed the message of the file with its hash and path, and the signature is over
that hash with the key of that path. -/
def FileSigned (W : MessageWally) (text output : Bytes)
    (answers : List (SignMessageScreen × Bool)) : Prop :=
  ∃ path msg hash screen key sig, MessageFile W text path msg ∧
    walletGetMessageHash W msg .bitcoin = some hash ∧ ShowsMessage W path msg hash screen ∧
      answers = [(screen, true)] ∧
    W.bip32KeyFromParentPath path = some key ∧ W.ecSigFromBytes key hash = some sig ∧
      output = W.base64Encode sig ++ [0]

/-- What a run over a file has to satisfy. -/
def FileRun (W : MessageWally) (user : SignMessageScreen → Bool) (text : Bytes) : Prop :=
  Sat (signMessageFile W user text)
    (fun output t => FileSigned W text output t.answers ∧ t.replies = [])
    (fun e t => e.isFault = false ∧ (t.answers = [] ∨ FileAsked W text t.answers) ∧ t.replies = [])
    {}

theorem MessageFile.path_ne_nil {text msg : Bytes} {path : List UInt32}
    (h : MessageFile W text path msg) :
    path ≠ [] ∧ path.length ≤ MAX_PATH_LEN ∧ msg ≠ [] := by
  obtain ⟨-, -, -, -, -, -, -, hne, hle, -, hmsg⟩ := h
  exact ⟨hne, hle, hmsg⟩

include hW in
/-- A file that holds is signed when the user confirms it, or refused. -/
theorem fileRun_of_holds {text : Bytes} (h : fileHolds W text) (user : SignMessageScreen → Bool) :
    FileRun W user text := by
  obtain ⟨hne, hfinished, hnul⟩ := h
  unfold FileRun signMessageFile
  rcases readMessageFile_cases (W := W) text with ⟨hnil, -⟩ | ⟨hcut, -⟩ | ⟨errmsg, hread⟩ |
    ⟨path, msg, hfile, hhead, hread⟩
  · exact absurd hnil hne
  · exact absurd hcut hfinished
  · rw [hread]
    exact (sat_throw _).2 ⟨rfl, .inl rfl, rfl⟩
  · rw [hread]
    dsimp only
    obtain ⟨hpath, hle, hmsg⟩ := hfile.path_ne_nil
    cases hhash : walletGetMessageHash W msg .bitcoin with
    | none => exact (sat_reject _ _).2 ⟨rfl, .inl rfl, rfl⟩
    | some hash =>
        have hlen := length_walletGetMessageHash hhash
        have hmax := (walletGetMessageHash_isSome hW hmsg .bitcoin).1 (by rw [hhash]; rfl)
        obtain ⟨screen, hshows, hconfirm⟩ := confirmSignMessage_of_noNul hW user path hlen
          (hnul path msg hfile hhead hmax)
        obtain ⟨key, hkey, hsign⟩ :=
          walletSignMessageHash_eq hW none hpath hle hlen (by simp)
        simp only [hconfirm, hsign, orFault, sat_bind, sat_askUser, sat_ite, sat_pure]
        refine ⟨fun hyes => ?_, fun _ => ?_⟩
        · cases hsig : messageSignature W key hash none with
          | none => exact (sat_reject _ _).2 ⟨rfl, .inr ⟨path, msg, hash, screen, _, hfile, hhash,
              hshows, rfl⟩, rfl⟩
          | some sig =>
              refine (sat_pure _).2 ⟨⟨path, msg, hash, screen, key, sig, hfile, hhash, hshows, ?_,
                hkey, hsig, rfl⟩, rfl⟩
              rw [hyes]
              rfl
        · exact (sat_reject _ _).2 ⟨rfl, .inr ⟨path, msg, hash, screen, _, hfile, hhash, hshows,
            rfl⟩, rfl⟩

include hW in
/-- Otherwise the device restarts, whatever the user would answer. -/
theorem signMessageFile_of_not_holds {text : Bytes} (h : ¬fileHolds W text)
    (user : SignMessageScreen → Bool) : ∃ f, signMessageFile W user text = throw (.fault f) := by
  by_cases hcut : text = [] ∨ Unfinished text
  · obtain ⟨f, hread⟩ := readMessageFile_of_unfinished (W := W) hcut
    exact ⟨f, by rw [signMessageFile, hread]⟩
  · obtain ⟨hne, hfinished⟩ := not_or.1 hcut
    -- it is a file that is read, and its message is printed
    have hprinted : ∃ path msg, MessageFile W text path msg ∧ msg.head? ≠ some 0 ∧
        msg.length ≤ BITCOIN_MESSAGE_MAX_LEN ∧ 0 ∈ shownPart msg := by
      by_contra hnone
      refine h ⟨hne, hfinished, fun path msg hfile hhead hmax hmem => ?_⟩
      exact hnone ⟨path, msg, hfile, hhead, hmax, hmem⟩
    obtain ⟨path, msg, hfile, hhead, hmax, hmem⟩ := hprinted
    obtain ⟨-, -, hmsg⟩ := hfile.path_ne_nil
    obtain ⟨hash, hhash⟩ :=
      Option.isSome_iff_exists.1 ((walletGetMessageHash_isSome hW hmsg .bitcoin).2 hmax)
    refine ⟨.assert, ?_⟩
    rw [signMessageFile, readMessageFile_of_file hfile hhead]
    simp only [hhash, confirmSignMessage_of_nul user (length_walletGetMessageHash hhash) hmem]
    rfl

include hW in
/-- Whether it holds or not, a signature is that of the file. -/
theorem sat_signMessageFile (user : SignMessageScreen → Bool) (text : Bytes) :
    Sat (signMessageFile W user text)
      (fun output t => FileSigned W text output t.answers ∧ t.replies = [])
      (fun _ t => t.replies = []) {} := by
  by_cases h : fileHolds W text
  · exact (fileRun_of_holds hW h user).mono (fun _ _ h => h) fun _ _ h => h.2.2
  · obtain ⟨f, hrun⟩ := signMessageFile_of_not_holds hW h user
    rw [hrun]
    exact (sat_throw _).2 rfl

include hW in
/-- **Exactly when the code can deal with a file.** -/
theorem fileRun_iff (text : Bytes) : (∀ user, FileRun W user text) ↔ fileHolds W text := by
  refine ⟨fun h => ?_, fun h user => fileRun_of_holds hW h user⟩
  by_contra hnot
  obtain ⟨f, hrun⟩ := signMessageFile_of_not_holds hW hnot fun _ => true
  have hsat := h fun _ => true
  rw [FileRun, hrun, sat_throw] at hsat
  exact absurd hsat.1 (by simp [SignErr.isFault])

end Result

end Jade
