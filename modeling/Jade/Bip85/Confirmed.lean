/-
**Exports of BIP85 entropy: what is confirmed, and where the device restarts.**

What is released was confirmed, for exactly the size and the index of the request.  An assertion may
fail before: the index is printed into a buffer of 24 bytes, which a number of seven digits overflows.

Main definitions:

* `Jade.Bip85Wally.Lawful` — what the libraries document;
* `Jade.PassesExport`, `Jade.PassesDigests` — the parameters pass the checks;
* `Jade.Bip85Run` — what a run has to satisfy.

Main results:

* `Jade.bip39Run_iff`, `Jade.rsaRun_iff` — **exactly when an export does what it has to**.
-/

import Jade.Bip85.Requests
import Jade.Lib.CText

set_option relaxedAutoImplicit false
set_option autoImplicit false

namespace Jade

open Exec

/-- **What the libraries document.**  The entropy of a wallet or of an RSA key is there exactly for
indices below `2 ^ 31`. -/
structure Bip85Wally.Lawful (W : Bip85Wally) : Prop where
  publicKey : ∀ {key}, W.newPrivatekey = some key → ∃ pubkey, W.publicKey key = some pubkey ∧
    pubkey.length = EC_PUBLIC_KEY_LEN
  bip39_isSome : ∀ {nwords} (index : UInt32), nwords = 12 ∨ nwords = 24 →
    ((W.bip39Entropy nwords index).isSome = true ↔ index.toNat < 2 ^ 31)
  length_bip39 : ∀ {nwords index entropy}, W.bip39Entropy nwords index = some entropy →
    entropy.length = 4 * nwords.toNat / 3
  rsa_isSome : ∀ {keyBits} (index : UInt32), rsaKeySizeValid keyBits = true →
    ((W.rsaEntropy keyBits index).isSome = true ↔ index.toNat < 2 ^ 31)
  length_rsa : ∀ {keyBits index entropy}, W.rsaEntropy keyBits index = some entropy →
    entropy.length = 64
  encrypted_ne : ∀ {key text pubkey label encrypted},
    W.aesCbcWithEcdhKey key text pubkey label = some encrypted → encrypted ≠ []
  length_sign : ∀ {keyBits entropy key i digest signature},
    W.rsaGenKey keyBits entropy = some key → W.rsaSign key i digest = some signature →
      signature.length = keyBits.toNat / 8

/-! ### What a run has to satisfy -/

/-- A number is in a line of a screen, whole. -/
def ShowsNumber (screen : Bip85Screen) (n : ℕ) : Prop :=
  ∃ line ∈ screen.message, ∃ before after : String, line = before ++ toString n ++ after ∧
    (∀ c ∈ before.toList.getLast?, c.isDigit = false) ∧ ∀ c ∈ after.toList.head?, c.isDigit = false

/-- What the user is asked shows the size and the index, unless it is about a swap. -/
def AskedExactly (swap : Bool) (size index : UInt32) (t : Talk Bip85Screen Bip85Reply) : Prop :=
  ∀ answer ∈ t.answers, swap = true ∨
    (ShowsNumber answer.1 size.toNat ∧ ShowsNumber answer.1 index.toNat)

/-- What is released is of one kind, and the user has agreed. -/
def ReleasedOnly (P : Bip85Reply → Prop) (t : Talk Bip85Screen Bip85Reply) : Prop :=
  ∀ reply ∈ t.replies, P reply ∧ ∃ screen, t.answers = [(screen, true)]

/-- **What a run has to satisfy**: the device does not restart, the user is asked about exactly the
size and the index, and what is released has the property. -/
def Bip85Run (swap : Bool) (size index : UInt32) (P : Bip85Reply → Prop)
    (x : Handler Bip85Screen Bip85Reply Unit) : Prop :=
  Sat x (fun _ t => AskedExactly swap size index t ∧ ReleasedOnly P t)
    (fun e t => e.isFault = false ∧ AskedExactly swap size index t ∧ ReleasedOnly P t) {}

/-- Entropy, encrypted for the host. -/
def IsEntropy (W : Bip85Wally) (entropy : Option Bytes) (label pubkey : Bytes)
    (reply : Bip85Reply) : Prop :=
  ∃ key ephPubkey text encrypted, W.newPrivatekey = some key ∧ W.publicKey key = some ephPubkey ∧
    entropy = some text ∧ W.aesCbcWithEcdhKey key text pubkey label = some encrypted ∧
      reply = .entropy ephPubkey encrypted

/-- The signatures over the digests, with the key of the size and the index. -/
def AreSignatures (W : Bip85Wally) (keyBits index : UInt32) (digests : List Bytes)
    (reply : Bip85Reply) : Prop :=
  ∃ entropy key signatures, W.rsaEntropy keyBits index = some entropy ∧
    W.rsaGenKey keyBits entropy = some key ∧
    (digests.zipIdx.mapM fun (digest, i) => W.rsaSign key i digest) = some signatures ∧
      reply = .signatures signatures

/-! ### Parameters that pass -/

section Passes

variable {V : Type} (C : TinyCborValues V)

/-- The parameters of an export pass the checks. -/
structure PassesExport (method sizeField : String) (valid : UInt32 → Bool) (value : V)
    (size index : UInt32) (pubkey : Bytes) : Prop where
  current : assertCurrentMessage C.toTinyCborStrings value (ascii method) = .ok ()
  params : ∃ params, getMsgParams C.toTinyCborStrings value = some params ∧
    rpcGetSizet C sizeField params = some size ∧ rpcGetSizet C "index" params = some index ∧
      rpcGetBytesPtr C.toTinyCbor "pubkey" params = .ok (some pubkey)
  valid : valid size = true
  length : pubkey.length = EC_PUBLIC_KEY_LEN

/-- The parameters of a request for signatures pass the checks. -/
structure PassesDigests (value : V) (keyBits index : UInt32) (digests : List Bytes) : Prop where
  current : assertCurrentMessage C.toTinyCborStrings value (ascii "sign_bip85_digests") = .ok ()
  params : ∃ params, getMsgParams C.toTinyCborStrings value = some params ∧
    rpcGetString C "key_type" 8 params = .ok KEY_TYPE_RSA ∧
    rpcGetSizet C "key_bits" params = some keyBits ∧ rpcGetSizet C "index" params = some index ∧
      getDigests C "digests" params = .ok digests
  bits : rsaKeySizeValid keyBits = true ∧ keyBits ≤ MAX_RSA_GEN_KEY_LEN
  count : digests ≠ [] ∧ digests.length ≤ maxDigests keyBits

/-- The id of a request can be repeated in an answer: it does not begin with a NUL byte. -/
def IdRepeats (value : V) : Prop := ∃ id, rpcGetId C.toTinyCbor value = .ok id ∧ Bytes.cstr id ≠ []

end Passes

/-! ### Texts -/

section Texts

theorem printed_eq {size : ℕ} {text : String} (hpos : 0 < text.length) (hlt : text.length < size) :
    printed size text = .ok text := by
  have hc : (decide (0 < text.length) && decide (text.length < size)) = true := by
    simp [hpos, hlt]
  rw [printed, jadeVerify_bind hc]
  rfl

theorem printed_of_le {size : ℕ} {text : String} (h : size ≤ text.length) :
    printed size text = .error .assert := by
  have hc : (decide (0 < text.length) && decide (text.length < size)) = false := by
    simp [Nat.not_lt.2 h]
  rw [printed, hc]
  rfl

theorem length_uint32_le (n : UInt32) : (toString n.toNat).length ≤ 10 :=
  (length_toString_le_iff (by decide)).2 (by have := n.toNat_lt; omega)

theorem length_uint32_pos (n : UInt32) : 0 < (toString n.toNat).length := by
  rw [Nat.toString_eq_ofList_toDigits, String.length_ofList]
  exact Nat.length_toDigits_pos

/-- **The index is printed in full exactly when it has at most six digits.** -/
theorem printed_index {index : UInt32} :
    (index.toNat < 10 ^ 6 →
      printed 24 ("for BIP85 index " ++ toString index.toNat ++ "?") =
        .ok ("for BIP85 index " ++ toString index.toNat ++ "?")) ∧
      (¬index.toNat < 10 ^ 6 →
        printed 24 ("for BIP85 index " ++ toString index.toNat ++ "?") = .error .assert) := by
  have hlen : ("for BIP85 index " ++ toString index.toNat ++ "?").length =
      17 + (toString index.toNat).length := by
    rw [String.length_append, String.length_append,
      show "for BIP85 index ".length = 16 by decide, show "?".length = 1 by decide]
    omega
  have hiff := length_toString_le_iff (n := index.toNat) (k := 6) (by decide)
  constructor
  · intro h
    have := hiff.2 h
    exact printed_eq (by omega) (by omega)
  · intro h
    have := mt hiff.1 h
    exact printed_of_le (by omega)

/-- A text that does not begin with a digit. -/
theorem noDigit_of_all {o : Option Char} (h : o.all (fun c => !c.isDigit) = true) :
    ∀ c ∈ o, c.isDigit = false := by
  intro c hc
  have hdigit := Option.all_eq_true _ _ |>.1 h c hc
  rwa [Bool.not_eq_true'] at hdigit

theorem showsNumber_of_mem {screen : Bip85Screen} {n : ℕ} (before after : String)
    (hmem : before ++ toString n ++ after ∈ screen.message)
    (hbefore : ∀ c ∈ before.toList.getLast?, c.isDigit = false)
    (hafter : ∀ c ∈ after.toList.head?, c.isDigit = false) : ShowsNumber screen n :=
  ⟨_, hmem, before, after, rfl, hbefore, hafter⟩

end Texts

/-! ### Replies -/

section Replies

variable {V : Type} {C : TinyCborValues V} {value : V}

theorem length_rpcGetId {V : Type} {C : TinyCbor V} {value : V} {id : Bytes}
    (h : rpcGetId C value = .ok id) : id.length ≤ MAXLEN_ID := by
  unfold rpcGetId at h
  split at h
  · obtain rfl := Except.ok.inj h
    exact Nat.zero_le _
  · split at h
    · obtain rfl := Except.ok.inj h
      exact Nat.zero_le _
    · split at h
      · obtain rfl := Except.ok.inj h
        exact Nat.zero_le _
      · split at h
        · obtain rfl := Except.ok.inj h
          exact Nat.zero_le _
        · split at h
          · cases h
          next content _ =>
          obtain ⟨u, hu, heq⟩ := bind_eq_ok.1 h
          obtain rfl := pure_eq_ok.1 heq
          by_contra hlen
          have hfalse : ¬content.length < MAXLEN_ID + 1 := by omega
          rw [jadeAssert, if_neg (by simpa using hfalse)] at hu
          cases hu

/-- **A reply is sent exactly when** the id can be repeated and the result fits the buffer. -/
theorem replyMessageResult_iff {payload outputSize : ℕ} :
    (∃ a, getter (replyMessageResult C value payload outputSize) = .ok a) ↔
      ∃ id, rpcGetId C.toTinyCbor value = .ok id ∧ Bytes.cstr id ≠ [] ∧
        replyHead (Bytes.cstr id) + payload ≤ outputSize := by
  unfold replyMessageResult
  cases hid : rpcGetId C.toTinyCbor value with
  | error e =>
      constructor
      · intro h
        obtain ⟨a, ha⟩ := h
        cases ha
      · intro h
        obtain ⟨id, hid, -⟩ := h
        cases hid
  | ok id =>
      simp only [ok_bind, Except.ok.injEq, exists_eq_left']
      by_cases hempty : Bytes.cstr id = []
      · refine ⟨fun ⟨a, h⟩ => ?_, fun h => absurd hempty h.1⟩
        cases id with
        | nil => cases h
        | cons b bs => simp [replyToMessageResultWithId, hempty, jadeAssert, getter, bind,
            Except.bind] at h
      · have hne : id.length ≠ 0 := by
          rintro hzero
          rw [List.length_eq_zero_iff] at hzero
          rw [hzero] at hempty
          exact hempty rfl
        have hne' : (Bytes.cstr id).length ≠ 0 := by simpa using hempty
        by_cases hfits : replyHead (Bytes.cstr id) + payload ≤ outputSize
        · simp [replyToMessageResultWithId, jadeAssert, hne, hne', hfits, hempty, getter, bind,
            Except.bind, pure, Except.pure]
        · simp [replyToMessageResultWithId, jadeAssert, hne, hne', hfits, getter, bind, Except.bind]

/-- A result that is small enough is sent when the id can be repeated. -/
theorem replyMessageResult_of_repeats {payload outputSize : ℕ} (h : IdRepeats C value)
    (hfits : payload + 28 ≤ outputSize) :
    ∃ a, getter (replyMessageResult C value payload outputSize) = .ok a := by
  obtain ⟨id, hid, hne⟩ := h
  refine replyMessageResult_iff.2 ⟨id, hid, hne, ?_⟩
  have hlen : (Bytes.cstr id).length ≤ MAXLEN_ID :=
    (List.takeWhile_prefix _).length_le.trans (length_rpcGetId hid)
  have := replyHead_le hlen
  omega

theorem stringSize_le {bytes : Bytes} {n : ℕ} (h : bytes.length ≤ n) (hn : n < 2 ^ 16) :
    stringSize bytes ≤ n + 3 := by
  unfold stringSize stringHead
  split_ifs <;> omega

/-- The two strings of an export fit its buffer. -/
theorem bip85Payload_le {data : Bip85Data} (hpubkey : data.pubkey.length = EC_PUBLIC_KEY_LEN)
    (hencrypted : data.encrypted.length ≤ ENCRYPTED_LEN) : bip85Payload data + 28 ≤ 256 := by
  have h1 : stringSize data.pubkey ≤ 36 := stringSize_le (n := 33) hpubkey.le (by decide)
  have h2 : stringSize data.encrypted ≤ 131 := stringSize_le (n := 128) hencrypted (by decide)
  have h3 : stringSize (ascii "pubkey") = 7 := by decide
  have h4 : stringSize (ascii "encrypted") = 10 := by decide
  unfold bip85Payload
  omega

end Replies

/-! ### Exports -/

section Exports

variable {V : Type} {C : TinyCborValues V} {value : V} {W : Bip85Wally}

/-- An export: ask, derive and encrypt, reply. -/
def exportRun (C : TinyCborValues V) (value : V) (ask : Handler Bip85Screen Bip85Reply Bool)
    (make : Handler Bip85Screen Bip85Reply Bip85Data) : Handler Bip85Screen Bip85Reply Unit := do
  let data ← (do
    if ← ask then make else reject CBOR_RPC_USER_CANCELLED "User declined to export entropy")
  replyBip85Data C value data

/-- The entropy of a wallet is there, and of the right size. -/
theorem walletGetBip85Bip39Entropy_eq (hW : W.Lawful) {nwords index : UInt32}
    (hwords : nwords = 12 ∨ nwords = 24) (hindex : index.toNat < 2 ^ 31) :
    ∃ entropy, W.bip39Entropy nwords index = some entropy ∧
      walletGetBip85Bip39Entropy W nwords index = .ok entropy ∧ entropy ≠ [] ∧
        entropy.length ≤ HMAC_SHA512_LEN := by
  obtain ⟨entropy, hentropy⟩ := Option.isSome_iff_exists.1 ((hW.bip39_isSome index hwords).2 hindex)
  have hlen := hW.length_bip39 hentropy
  have hsize : 16 ≤ entropy.length ∧ entropy.length ≤ 32 ∧ nwords ≠ 0 := by
    rcases hwords with rfl | rfl
    · exact ⟨hlen.ge, hlen.trans_le (by decide), by decide⟩
    · exact ⟨le_trans (by decide) hlen.ge, hlen.le, by decide⟩
  have hmax : entropy.length ≤ HMAC_SHA512_LEN := hsize.2.1.trans (by decide)
  refine ⟨entropy, hentropy, ?_, List.ne_nil_of_length_pos (by omega), hmax⟩
  rw [walletGetBip85Bip39Entropy, jadeVerify_bind (decide_eq_true hsize.2.2), hentropy, wallyVerify,
    ok_bind, jadeVerify_bind (decide_eq_true hmax)]
  rfl

theorem rsaKeySizeValid_iff {keyBits : UInt32} : rsaKeySizeValid keyBits = true ↔
    keyBits = 1024 ∨ keyBits = 2048 ∨ keyBits = 3072 ∨ keyBits = 4096 ∨ keyBits = 8192 := by
  simp [rsaKeySizeValid, or_assoc]

/-- So is that of an RSA key. -/
theorem walletGetBip85RsaEntropy_eq (hW : W.Lawful) {keyBits index : UInt32}
    (hbits : rsaKeySizeValid keyBits = true) (hindex : index.toNat < 2 ^ 31) :
    ∃ entropy, W.rsaEntropy keyBits index = some entropy ∧
      walletGetBip85RsaEntropy W keyBits index = .ok entropy ∧ entropy.length = 64 := by
  obtain ⟨entropy, hentropy⟩ := Option.isSome_iff_exists.1 ((hW.rsa_isSome index hbits).2 hindex)
  have hlen := hW.length_rsa hentropy
  have hne : keyBits ≠ 0 := by
    rintro rfl
    exact absurd hbits (by decide)
  have hmax : entropy.length ≤ HMAC_SHA512_LEN := hlen.le
  refine ⟨entropy, hentropy, ?_, hlen⟩
  rw [walletGetBip85RsaEntropy, jadeVerify_bind (decide_eq_true hne), hentropy, wallyVerify, ok_bind,
    jadeVerify_bind (decide_eq_true hmax)]
  rfl

/-- The verification of an index that libwally does not take fails. -/
theorem walletGetBip85RsaEntropy_of_le (hW : W.Lawful) {keyBits index : UInt32}
    (hbits : rsaKeySizeValid keyBits = true) (hindex : ¬index.toNat < 2 ^ 31) :
    walletGetBip85RsaEntropy W keyBits index = .error .assert := by
  have hne : keyBits ≠ 0 := by
    rintro rfl
    exact absurd hbits (by decide)
  have hnone : W.rsaEntropy keyBits index = none := by
    rw [← Option.not_isSome_iff_eq_none]
    exact mt (hW.rsa_isSome index hbits).1 hindex
  rw [walletGetBip85RsaEntropy, jadeVerify_bind (decide_eq_true hne), hnone]
  rfl

/-- **What is encrypted** is the entropy, for the key of the host. -/
theorem sat_encryptedEntropy (hW : W.Lawful) {getEntropy : Except Fault Bytes}
    {label pubkey entropy : Bytes} (hpubkey : pubkey.length = EC_PUBLIC_KEY_LEN)
    (hget : getEntropy = .ok entropy) (hne : entropy ≠ []) (hmax : entropy.length ≤ HMAC_SHA512_LEN)
    (t : Talk Bip85Screen Bip85Reply) :
    Sat (encryptedEntropy W getEntropy label pubkey)
      (fun data t' => t' = t ∧
        IsEntropy W (some entropy) label pubkey (.entropy data.pubkey data.encrypted) ∧
        data.pubkey.length = EC_PUBLIC_KEY_LEN ∧ data.encrypted.length ≤ ENCRYPTED_LEN ∧
          data.encrypted ≠ [])
      (fun e t' => t' = t ∧ e.isFault = false) t := by
  have hsize : (entropy.isEmpty || decide (HMAC_SHA512_LEN < entropy.length)) = false := by
    simp [hne, Nat.not_lt.2 hmax]
  rw [encryptedEntropy, jadeVerify, if_pos (decide_eq_true hpubkey)]
  simp only [orFault, pure_bind]
  cases hkey : W.newPrivatekey with
  | none => exact (sat_reject _ _).2 ⟨rfl, rfl⟩
  | some key =>
      obtain ⟨ephPubkey, hpub, hlen⟩ := hW.publicKey hkey
      simp only [hpub, wallyVerify, hget, pure_bind, hsize, Bool.false_eq_true, if_false]
      cases henc : W.aesCbcWithEcdhKey key entropy pubkey label with
      | none => exact (sat_reject _ _).2 ⟨rfl, rfl⟩
      | some encrypted =>
          rw [sat_ite]
          refine ⟨fun _ => (sat_reject _ _).2 ⟨rfl, rfl⟩, fun hfits => (sat_pure _).2 ⟨rfl, ?_⟩⟩
          exact ⟨⟨key, ephPubkey, entropy, encrypted, hkey, hpub, rfl, henc, rfl⟩, hlen,
            Nat.not_lt.1 hfits, hW.encrypted_ne henc⟩

/-- **A run of an export** that asks on the right screen. -/
theorem bip85Run_exportRun {swap : Bool} {size index : UInt32} {P : Bip85Reply → Prop}
    {user : Bip85Screen → Bool} {screen : Bip85Screen}
    {make : Handler Bip85Screen Bip85Reply Bip85Data} (hid : IdRepeats C value)
    (hscreen : swap = true ∨ (ShowsNumber screen size.toNat ∧ ShowsNumber screen index.toNat))
    (hmake : ∀ t, Sat make
      (fun data t' => t' = t ∧ P (.entropy data.pubkey data.encrypted) ∧
        data.pubkey.length = EC_PUBLIC_KEY_LEN ∧ data.encrypted.length ≤ ENCRYPTED_LEN ∧
          data.encrypted ≠ [])
      (fun e t' => t' = t ∧ e.isFault = false) t) :
    Bip85Run swap size index P (exportRun C value (askUser user screen) make) := by
  have hasked : ∀ {answer replies}, AskedExactly swap size index ⟨[(screen, answer)], replies⟩ := by
    intro answer replies p hp
    obtain rfl := List.mem_singleton.1 hp
    exact hscreen
  have hnone : ∀ {answers}, ReleasedOnly P ⟨answers, []⟩ := by
    intro answers reply hreply
    cases hreply
  unfold Bip85Run exportRun
  simp only [sat_bind, sat_askUser, sat_ite]
  refine ⟨fun hyes => ?_, fun _ => (sat_reject _ _).2 ⟨rfl, hasked, hnone⟩⟩
  refine (hmake _).mono ?_ ?_
  · rintro data t' ⟨rfl, hP, hpubkey, hencrypted, hne⟩
    obtain ⟨a, ha⟩ := replyMessageResult_of_repeats hid (bip85Payload_le hpubkey hencrypted)
    have hempty : (!data.encrypted.isEmpty) = true := by simpa using hne
    simp only [replyBip85Data, hempty, jadeVerify, if_true, orFault, pure_bind, ha, sat_sendReply]
    refine ⟨hasked, ?_⟩
    intro reply hreply
    obtain rfl := List.mem_singleton.1 hreply
    refine ⟨hP, screen, ?_⟩
    rw [hyes]
    rfl
  · rintro e t' ⟨rfl, he⟩
    exact ⟨he, hasked, hnone⟩

theorem not_bip85Run_throw {swap : Bool} {size index : UInt32} {P : Bip85Reply → Prop} {f : Fault} :
    ¬Bip85Run swap size index P (throw (.fault f)) := by
  rw [Bip85Run, sat_throw]
  exact fun h => absurd h.1 (by simp [SignErr.isFault])

/-- A run that gets as far as the reply needs an id that can be repeated. -/
theorem idRepeats_of_bip85Run {swap : Bool} {size index : UInt32} {P : Bip85Reply → Prop}
    {screen : Bip85Screen} {data : Bip85Data}
    (h : Bip85Run swap size index P
      (exportRun C value (askUser (fun _ => true) screen) (pure data))) : IdRepeats C value := by
  unfold Bip85Run exportRun at h
  simp only [sat_bind, sat_askUser, sat_ite, sat_pure, replyBip85Data, sat_orFault] at h
  obtain ⟨hok, hfault⟩ := h.1 trivial
  cases hverify : jadeVerify (!data.encrypted.isEmpty) with
  | error f => exact absurd (hfault f hverify).1 (by simp [SignErr.isFault])
  | ok u =>
      obtain ⟨-, hbad⟩ := hok u hverify
      cases hget : getter (replyMessageResult C value (bip85Payload data) 256) with
      | error f => exact absurd (hbad f hget).1 (by simp [SignErr.isFault])
      | ok a =>
          obtain ⟨id, hid, hne, -⟩ := replyMessageResult_iff.1 ⟨a, hget⟩
          exact ⟨id, hid, hne⟩

/-- The confirmation of an export shows what is exported, and the index, if it can be printed. -/
theorem confirmExport_eq {what : String} (index size : UInt32) (after : String)
    (hwhat : what = toString size.toNat ++ after) (hlen : what.length < 24)
    (hafter : ∀ c ∈ after.toList.head?, c.isDigit = false) :
    (index.toNat < 10 ^ 6 → ∃ screen : Bip85Screen,
      (ShowsNumber screen size.toNat ∧ ShowsNumber screen index.toNat) ∧
        ∀ user, confirmExport user what index = askUser user screen) ∧
      (¬index.toNat < 10 ^ 6 → ∀ user, confirmExport user what index = throw (.fault .assert)) := by
  have hpos : 0 < what.length := by
    have := length_uint32_pos size
    rw [hwhat, String.length_append]
    omega
  have hprint : printed 24 what = .ok what := printed_eq hpos hlen
  constructor
  · intro hindex
    refine ⟨⟨"Key Export", ["Export an encrypted", what,
      "for BIP85 index " ++ toString index.toNat ++ "?"]⟩, ⟨?_, ?_⟩, fun user => ?_⟩
    · refine showsNumber_of_mem "" after ?_ (by simp) hafter
      rw [String.empty_append, ← hwhat]
      simp
    · refine showsNumber_of_mem "for BIP85 index " "?" (by simp) ?_ ?_
      · exact noDigit_of_all (by decide)
      · exact noDigit_of_all (by decide)
    · rw [confirmExport, hprint, printed_index.1 hindex]
      rfl
  · intro hindex user
    rw [confirmExport, hprint, printed_index.2 hindex]
    rfl

/-- The process for a wallet's entropy, once the parameters have passed. -/
theorem getBip85Bip39EntropyProcess_eq {nwords index : UInt32} {pubkey : Bytes}
    (h : PassesExport C "get_bip85_bip39_entropy" "num_words" (fun n => n == 12 || n == 24) value
      nwords index pubkey) (user : Bip85Screen → Bool) :
    getBip85Bip39EntropyProcess C W user value =
      exportRun C value (confirmBip39 user nwords index)
        (getEncryptedBip85Bip39Entropy W nwords index pubkey) := by
  obtain ⟨params, hparams, hsize, hindex, hpubkey⟩ := h.params
  have hvalid : (nwords == 12 || nwords == 24) = true := h.valid
  simp only [getBip85Bip39EntropyProcess, withMsgParams, h.current, hparams, getter, orFault,
    pure_bind, getBip85Bip39EntropyData, checkedSizet, hsize, hvalid, if_true, checkedIndex, hindex,
    checkedPubkey, hpubkey, Option.getD_some, h.length, ne_eq, not_true, if_false, exportRun]

/-- The process for an RSA key's entropy, once the parameters have passed. -/
theorem getBip85RsaEntropyProcess_eq {keyBits index : UInt32} {pubkey : Bytes}
    (h : PassesExport C "get_bip85_rsa_entropy" "key_bits" rsaKeySizeValid value keyBits index
      pubkey) (user : Bip85Screen → Bool) :
    getBip85RsaEntropyProcess C W user value =
      exportRun C value (confirmExport user (toString keyBits.toNat ++ " rsa key size") index)
        (getEncryptedBip85RsaEntropy W keyBits index pubkey) := by
  obtain ⟨params, hparams, hsize, hindex, hpubkey⟩ := h.params
  simp only [getBip85RsaEntropyProcess, withMsgParams, h.current, hparams, getter, orFault,
    pure_bind, getBip85RsaEntropyData, checkedSizet, hsize, h.valid, if_true, checkedIndex, hindex,
    checkedPubkey, hpubkey, Option.getD_some, h.length, ne_eq, not_true, if_false, exportRun]

end Exports

/-! ### A wallet that derives everything -/

/-- Keys and entropy that only have the right size. -/
def toyBip85Wally : Bip85Wally where
  newPrivatekey := some (List.replicate 32 1)
  publicKey key := some (2 :: key)
  bip39Entropy nwords index :=
    if index.toNat < 2 ^ 31 then some (List.replicate (4 * nwords.toNat / 3) index.toUInt8) else none
  rsaEntropy _ index :=
    if index.toNat < 2 ^ 31 then some (List.replicate 64 index.toUInt8) else none
  aesCbcWithEcdhKey key text _ _ :=
    some ((key.take 16 ++ text ++ List.replicate 128 0).take (16 + (text.length / 16 + 1) * 16 + 32))
  rsaGenKey keyBits entropy := some (List.replicate (keyBits.toNat / 8) (entropy.headD 0))
  rsaSign key _ _ := some key

theorem toyBip85Wally_lawful : toyBip85Wally.Lawful where
  publicKey h := by
    obtain rfl := Option.some.inj h
    exact ⟨_, rfl, by decide⟩
  bip39_isSome index _ := by
    simp only [toyBip85Wally]
    split <;> simp_all
  length_bip39 h := by
    simp only [toyBip85Wally, Option.ite_none_right_eq_some, Option.some.injEq] at h
    rw [← h.2, List.length_replicate]
  rsa_isSome index _ := by
    simp only [toyBip85Wally]
    split <;> simp_all
  length_rsa h := by
    simp only [toyBip85Wally, Option.ite_none_right_eq_some, Option.some.injEq] at h
    rw [← h.2, List.length_replicate]
  encrypted_ne h := by
    obtain rfl := Option.some.inj h
    refine List.ne_nil_of_length_pos ?_
    simp only [List.length_take, List.length_append, List.length_replicate]
    omega
  length_sign hkey hsign := by
    obtain rfl := Option.some.inj hkey
    obtain rfl := Option.some.inj hsign
    simp

/-! ### Exports, exactly -/

section ExportsExactly

variable {V : Type} {C : TinyCborValues V} {value : V}

/-- **Exactly when an export does what it has to**: for the indices that `ask` can print, and an id
that can be repeated. -/
theorem exportRun_iff {swap : Bool} {size index : UInt32} {printable : Prop}
    {P : Bip85Wally → Bip85Reply → Prop}
    (ask : (Bip85Screen → Bool) → Handler Bip85Screen Bip85Reply Bool)
    (make : Bip85Wally → Handler Bip85Screen Bip85Reply Bip85Data)
    (hask : printable → ∃ screen : Bip85Screen,
      (swap = true ∨ (ShowsNumber screen size.toNat ∧ ShowsNumber screen index.toNat)) ∧
        ∀ user, ask user = askUser user screen)
    (hnot : ¬printable → ∀ user, ask user = throw (.fault .assert))
    (hmake : printable → ∀ {W : Bip85Wally}, W.Lawful → ∀ t, Sat (make W)
      (fun data t' => t' = t ∧ P W (.entropy data.pubkey data.encrypted) ∧
        data.pubkey.length = EC_PUBLIC_KEY_LEN ∧ data.encrypted.length ≤ ENCRYPTED_LEN ∧
          data.encrypted ≠ [])
      (fun e t' => t' = t ∧ e.isFault = false) t)
    (htoy : printable → ∃ data, make toyBip85Wally = pure data) :
    (∀ {W : Bip85Wally}, W.Lawful → ∀ user,
      Bip85Run swap size index (P W) (exportRun C value (ask user) (make W))) ↔
      printable ∧ IdRepeats C value := by
  constructor
  · intro h
    have hrun := h toyBip85Wally_lawful fun _ => true
    have hprint : printable := by
      by_contra hprint
      rw [hnot hprint] at hrun
      exact not_bip85Run_throw hrun
    obtain ⟨screen, -, hscreen⟩ := hask hprint
    obtain ⟨data, hdata⟩ := htoy hprint
    rw [hscreen, hdata] at hrun
    exact ⟨hprint, idRepeats_of_bip85Run hrun⟩
  · rintro ⟨hprint, hid⟩ W hW user
    obtain ⟨screen, hshows, hscreen⟩ := hask hprint
    rw [hscreen]
    exact bip85Run_exportRun hid hshows (hmake hprint hW)

/-- The toy wallet encrypts whatever there is. -/
theorem toy_encryptedEntropy {getEntropy : Except Fault Bytes} {label pubkey entropy : Bytes}
    (hpubkey : pubkey.length = EC_PUBLIC_KEY_LEN) (hget : getEntropy = .ok entropy)
    (hne : entropy ≠ []) (hmax : entropy.length ≤ HMAC_SHA512_LEN) :
    ∃ data, encryptedEntropy toyBip85Wally getEntropy label pubkey = pure data := by
  have hsize : (entropy.isEmpty || decide (HMAC_SHA512_LEN < entropy.length)) = false := by
    simp [hne, Nat.not_lt.2 hmax]
  have hle : entropy.length ≤ 64 := hmax
  have hfits : ¬ENCRYPTED_LEN < ((List.take 16 (List.replicate 32 1) ++ entropy ++
      List.replicate 128 0).take (16 + (entropy.length / 16 + 1) * 16 + 32) : Bytes).length := by
    rw [List.length_take]
    unfold ENCRYPTED_LEN HMAC_SHA512_LEN
    omega
  refine ⟨⟨2 :: List.replicate 32 1, (List.take 16 (List.replicate 32 1) ++ entropy ++
    List.replicate 128 0).take (16 + (entropy.length / 16 + 1) * 16 + 32)⟩, ?_⟩
  rw [encryptedEntropy, jadeVerify, if_pos (decide_eq_true hpubkey)]
  simp only [orFault, pure_bind, toyBip85Wally, wallyVerify, hget, hsize, Bool.false_eq_true,
    if_false]
  rw [if_neg hfits]

theorem bip39Run_iff {nwords index : UInt32} {pubkey : Bytes}
    (h : PassesExport C "get_bip85_bip39_entropy" "num_words" (fun n => n == 12 || n == 24) value
      nwords index pubkey) :
    (∀ {W : Bip85Wally}, W.Lawful → ∀ user,
      Bip85Run (isSwap nwords index) nwords index
        (IsEntropy W (W.bip39Entropy nwords index) HMAC_BIP39_MESSAGE pubkey)
        (getBip85Bip39EntropyProcess C W user value)) ↔
      (isSwap nwords index = true ∨ index.toNat < 10 ^ 6) ∧ IdRepeats C value := by
  have hwords : nwords = 12 ∨ nwords = 24 := by simpa using h.valid
  have hindex : isSwap nwords index = true ∨ index.toNat < 10 ^ 6 → index.toNat < 2 ^ 31 := by
    intro h
    rcases h with hswap | hlt
    · simp only [isSwap, Bool.and_eq_true, beq_iff_eq] at hswap
      rw [hswap.2]
      decide
    · omega
  simp only [getBip85Bip39EntropyProcess_eq h]
  refine exportRun_iff (fun user => confirmBip39 user nwords index)
    (fun W => getEncryptedBip85Bip39Entropy W nwords index pubkey) ?_ ?_ ?_ ?_
  · intro hprint
    by_cases hswap : isSwap nwords index = true
    · exact ⟨_, .inl hswap, fun user => by rw [confirmBip39, if_pos hswap]⟩
    · obtain ⟨screen, hshows, hscreen⟩ := (confirmExport_eq index nwords " word seed phrase"
        rfl (by rcases hwords with rfl | rfl <;> decide)
        (noDigit_of_all (by decide))).1 (hprint.resolve_left hswap)
      exact ⟨screen, .inr hshows, fun user => by rw [confirmBip39, if_neg hswap, hscreen]⟩
  · intro hprint user
    obtain ⟨hswap, hlarge⟩ := not_or.1 hprint
    rw [confirmBip39, if_neg hswap]
    exact (confirmExport_eq index nwords " word seed phrase" rfl
      (by rcases hwords with rfl | rfl <;> decide) (noDigit_of_all (by decide))).2 hlarge user
  · intro hprint W hW t
    obtain ⟨entropy, hentropy, hget, hne, hmax⟩ :=
      walletGetBip85Bip39Entropy_eq hW hwords (hindex hprint)
    rw [hentropy]
    exact sat_encryptedEntropy hW h.length hget hne hmax t
  · intro hprint
    obtain ⟨entropy, -, hget, hne, hmax⟩ :=
      walletGetBip85Bip39Entropy_eq toyBip85Wally_lawful hwords (hindex hprint)
    exact toy_encryptedEntropy h.length hget hne hmax

theorem rsaRun_iff {keyBits index : UInt32} {pubkey : Bytes}
    (h : PassesExport C "get_bip85_rsa_entropy" "key_bits" rsaKeySizeValid value keyBits index
      pubkey) :
    (∀ {W : Bip85Wally}, W.Lawful → ∀ user,
      Bip85Run false keyBits index
        (IsEntropy W (W.rsaEntropy keyBits index) HMAC_RSA_MESSAGE pubkey)
        (getBip85RsaEntropyProcess C W user value)) ↔
      index.toNat < 10 ^ 6 ∧ IdRepeats C value := by
  have hlen : (toString keyBits.toNat ++ " rsa key size").length < 24 := by
    rcases rsaKeySizeValid_iff.1 h.valid with rfl | rfl | rfl | rfl | rfl <;> decide
  have hentropy : index.toNat < 10 ^ 6 → ∀ {W : Bip85Wally}, W.Lawful →
      ∃ entropy, W.rsaEntropy keyBits index = some entropy ∧
        walletGetBip85RsaEntropy W keyBits index = .ok entropy ∧ entropy ≠ [] ∧
          entropy.length ≤ HMAC_SHA512_LEN := by
    intro hindex W hW
    have hsmall : index.toNat < 2 ^ 31 := by omega
    obtain ⟨entropy, hentropy, hget, hlen⟩ := walletGetBip85RsaEntropy_eq hW h.valid hsmall
    exact ⟨entropy, hentropy, hget, List.ne_nil_of_length_pos (by omega), hlen.le⟩
  simp only [getBip85RsaEntropyProcess_eq h]
  refine exportRun_iff
    (fun user => confirmExport user (toString keyBits.toNat ++ " rsa key size") index)
    (fun W => getEncryptedBip85RsaEntropy W keyBits index pubkey) ?_ ?_ ?_ ?_
  · intro hprint
    obtain ⟨screen, hshows, hscreen⟩ :=
      (confirmExport_eq index keyBits " rsa key size" rfl hlen
        (noDigit_of_all (by decide))).1 hprint
    exact ⟨screen, .inr hshows, hscreen⟩
  · intro hprint
    exact (confirmExport_eq index keyBits " rsa key size" rfl hlen
      (noDigit_of_all (by decide))).2 hprint
  · intro hprint W hW t
    obtain ⟨entropy, hsome, hget, hne, hmax⟩ := hentropy hprint hW
    rw [hsome]
    exact sat_encryptedEntropy hW h.length hget hne hmax t
  · intro hprint
    obtain ⟨entropy, -, hget, hne, hmax⟩ := hentropy hprint toyBip85Wally_lawful
    exact toy_encryptedEntropy h.length hget hne hmax

end ExportsExactly

end Jade
