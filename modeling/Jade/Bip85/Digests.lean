/-
**Signatures with BIP85 keys: what is confirmed, and where the device restarts.**

The three texts of the confirmation always fit.  Two assertions fail later: the key is derived after
the user has agreed, and only for an index below `2 ^ 31`; and six signatures of 3072 bits are more
than the buffer of the reply holds.

Main results:

* `Jade.digestsRun_iff` — **exactly when signing does what it has to**;
* `Jade.bip85_iff` — the three requests together.
-/

import Jade.Bip85.Confirmed

set_option relaxedAutoImplicit false
set_option autoImplicit false

namespace Jade

open Exec

section Digests

variable {V : Type} {C : TinyCborValues V} {value : V} {W : Bip85Wally}

/-! ### Asking -/

/-- A key that signs has one of four sizes. -/
theorem keySize_cases {keyBits : UInt32} (h : rsaKeySizeValid keyBits = true)
    (hle : keyBits ≤ MAX_RSA_GEN_KEY_LEN) :
    keyBits = 1024 ∨ keyBits = 2048 ∨ keyBits = 3072 ∨ keyBits = 4096 := by
  rcases rsaKeySizeValid_iff.1 h with rfl | rfl | rfl | rfl | rfl
  · exact .inl rfl
  · exact .inr (.inl rfl)
  · exact .inr (.inr (.inl rfl))
  · exact .inr (.inr (.inr rfl))
  · exact absurd hle (by decide)

theorem maxDigests_le (keyBits : UInt32) : maxDigests keyBits ≤ 8 := by
  unfold maxDigests
  split_ifs <;> omega

/-- The number of digests is printed in full. -/
theorem printed_numDigests {n : ℕ} (h : n ≤ 8) :
    printed 20 (if 1 < n then "Sign " ++ toString n ++ " digests" else "Sign passed digest") =
      .ok (if 1 < n then "Sign " ++ toString n ++ " digests" else "Sign passed digest") := by
  have hall : ∀ n : Fin 9,
      0 < (if 1 < n.val then "Sign " ++ toString n.val ++ " digests" else "Sign passed digest").length ∧
      (if 1 < n.val then "Sign " ++ toString n.val ++ " digests" else "Sign passed digest").length < 20 := by
    decide
  obtain ⟨hpos, hlt⟩ := hall ⟨n, by omega⟩
  exact printed_eq hpos hlt

/-- **The size and the index are shown in full**, whatever the index. -/
theorem confirmDigests_eq {keyBits : UInt32} (index : UInt32) {n : ℕ}
    (hbits : rsaKeySizeValid keyBits = true) (hn : n ≤ 8) :
    ∃ screen : Bip85Screen,
      (ShowsNumber screen keyBits.toNat ∧ ShowsNumber screen index.toNat) ∧
        ∀ user, confirmDigests user keyBits index n = askUser user screen := by
  have hkey : printed 24 ("with " ++ toString keyBits.toNat ++ "-bit key") =
      .ok ("with " ++ toString keyBits.toNat ++ "-bit key") := by
    rcases rsaKeySizeValid_iff.1 hbits with rfl | rfl | rfl | rfl | rfl <;>
      exact printed_eq (by decide) (by decide)
  have hindex : printed 32 ("index: " ++ toString index.toNat ++ "?") =
      .ok ("index: " ++ toString index.toNat ++ "?") := by
    have hlen : ("index: " ++ toString index.toNat ++ "?").length =
        8 + (toString index.toNat).length := by
      rw [String.length_append, String.length_append,
        show "index: ".length = 7 by decide, show "?".length = 1 by decide]
      omega
    have := length_uint32_le index
    exact printed_eq (by omega) (by omega)
  refine ⟨⟨"BIPI85 RSA Signing",
    [if 1 < n then "Sign " ++ toString n ++ " digests" else "Sign passed digest",
      "with " ++ toString keyBits.toNat ++ "-bit key",
      "index: " ++ toString index.toNat ++ "?"]⟩, ⟨?_, ?_⟩, fun user => ?_⟩
  · exact showsNumber_of_mem "with " "-bit key" (by simp) (noDigit_of_all (by decide))
      (noDigit_of_all (by decide))
  · exact showsNumber_of_mem "index: " "?" (by simp) (noDigit_of_all (by decide))
      (noDigit_of_all (by decide))
  · rw [confirmDigests, printed_numDigests hn, hkey, hindex]
    rfl

/-! ### Signing -/

/-- Digests that are read have the right length. -/
theorem length_of_digestItems {items : List V} {digests : List Bytes}
    (h : digestItems C items = .ok (some digests)) : ∀ d ∈ digests, d.length = RSA_DIGEST_LEN := by
  induction items generalizing digests with
  | nil =>
      obtain rfl := Option.some.inj (Except.ok.inj h)
      exact fun d hd => absurd hd List.not_mem_nil
  | cons item items ih =>
      obtain ⟨data, -, h⟩ := bind_eq_ok.1 h
      cases data with
      | none => cases h
      | some data =>
          dsimp only at h
          by_cases hlen : data.length = RSA_DIGEST_LEN
          · rw [if_neg (not_not.2 hlen)] at h
            obtain ⟨rest, hrest, h⟩ := bind_eq_ok.1 h
            cases rest with
            | none => cases h
            | some rest =>
                obtain rfl := Option.some.inj (Except.ok.inj h)
                intro d hd
                rcases List.mem_cons.1 hd with rfl | hd
                · exact hlen
                · exact ih hrest d hd
          · rw [if_pos hlen] at h
            cases h

theorem length_of_getDigests {field : String} {digests : List Bytes}
    (h : getDigests C field value = .ok digests) : ∀ d ∈ digests, d.length = RSA_DIGEST_LEN := by
  have hnil : ∀ d ∈ ([] : List Bytes), d.length = RSA_DIGEST_LEN :=
    fun d hd => absurd hd List.not_mem_nil
  unfold getDigests at h
  split at h
  · obtain rfl := Except.ok.inj h
    exact hnil
  · split at h
    · obtain rfl := Except.ok.inj h
      exact hnil
    · obtain ⟨read, hread, h⟩ := bind_eq_ok.1 h
      obtain rfl := Except.ok.inj h
      cases read with
      | none => exact hnil
      | some digests => exact length_of_digestItems hread

/-- The loop over the digests, when all have the right length. -/
theorem signDigests_eq {key : Bytes} {digests : List Bytes}
    (h : ∀ d ∈ digests, d.length = RSA_DIGEST_LEN) :
    signDigests W key digests = digests.zipIdx.mapM fun (digest, i) => W.rsaSign key i digest := by
  have hall : ∀ xs : List (Bytes × ℕ), (∀ x ∈ xs, x.1.length = RSA_DIGEST_LEN) →
      xs.mapM (fun (digest, i) =>
        if digest.length ≠ RSA_DIGEST_LEN then none else W.rsaSign key i digest) =
      xs.mapM fun (digest, i) => W.rsaSign key i digest := by
    intro xs
    induction xs with
    | nil => intro _; rfl
    | cons x xs ih =>
        intro hxs
        rw [List.mapM_cons, List.mapM_cons, ih fun y hy => hxs y (List.mem_cons_of_mem x hy)]
        simp only [hxs x List.mem_cons_self, ne_eq, not_true, if_false]
  refine hall digests.zipIdx fun x hx => ?_
  obtain ⟨_, hd⟩ := List.mem_zipIdx' (x := x.1) (i := x.2) hx
  rw [hd]
  exact h _ (List.getElem_mem _)

/-- **The key is that of the size and the index**, for an index that libwally takes. -/
theorem rsaBip85KeySignDigests_eq (hW : W.Lawful) {keyBits index : UInt32} {digests : List Bytes}
    (hbits : rsaKeySizeValid keyBits = true) (hle : keyBits ≤ MAX_RSA_GEN_KEY_LEN)
    (hne : digests ≠ []) (hlen : ∀ d ∈ digests, d.length = RSA_DIGEST_LEN)
    (hindex : index.toNat < 2 ^ 31) :
    ∃ entropy, W.rsaEntropy keyBits index = some entropy ∧
      rsaBip85KeySignDigests W keyBits index digests =
        .ok ((W.rsaGenKey keyBits entropy).bind fun key =>
          digests.zipIdx.mapM fun (digest, i) => W.rsaSign key i digest) := by
  obtain ⟨entropy, hentropy, hget, hsize⟩ := walletGetBip85RsaEntropy_eq hW hbits hindex
  have hempty : (!digests.isEmpty) = true := by simpa using hne
  refine ⟨entropy, hentropy, ?_⟩
  rw [rsaBip85KeySignDigests, jadeVerify_bind (decide_eq_true hle), jadeVerify_bind hbits,
    jadeVerify_bind hempty, getBip85RsaCtx, jadeVerify_bind (decide_eq_true hle),
    jadeVerify_bind hbits, hget, ok_bind, jadeVerify_bind (decide_eq_true hsize)]
  cases W.rsaGenKey keyBits entropy with
  | none => rfl
  | some key =>
      rw [Option.bind_some, ← signDigests_eq hlen]
      rfl

/-- For any other index the derivation is verified, and there is none. -/
theorem rsaBip85KeySignDigests_of_le (hW : W.Lawful) {keyBits index : UInt32} {digests : List Bytes}
    (hbits : rsaKeySizeValid keyBits = true) (hle : keyBits ≤ MAX_RSA_GEN_KEY_LEN)
    (hne : digests ≠ []) (hindex : ¬index.toNat < 2 ^ 31) :
    rsaBip85KeySignDigests W keyBits index digests = .error .assert := by
  have hempty : (!digests.isEmpty) = true := by simpa using hne
  rw [rsaBip85KeySignDigests, jadeVerify_bind (decide_eq_true hle), jadeVerify_bind hbits,
    jadeVerify_bind hempty, getBip85RsaCtx, jadeVerify_bind (decide_eq_true hle),
    jadeVerify_bind hbits, walletGetBip85RsaEntropy_of_le hW hbits hindex]
  rfl

/-! ### Replying -/

/-- Signatures have the length of the key. -/
theorem length_signatures (hW : W.Lawful) {keyBits : UInt32} {entropy key : Bytes}
    {digests signatures : List Bytes} (hkey : W.rsaGenKey keyBits entropy = some key)
    (hsign : (digests.zipIdx.mapM fun (digest, i) => W.rsaSign key i digest) = some signatures) :
    signatures.length = digests.length ∧
      ∀ signature ∈ signatures, signature.length = keyBits.toNat / 8 := by
  have hall := mapM_eq_some.1 hsign
  refine ⟨by simpa using hall.length_eq.symm, fun signature hmem => ?_⟩
  obtain ⟨i, hi, rfl⟩ := List.mem_iff_getElem.1 hmem
  exact hW.length_sign hkey (hall.get (by rw [hall.length_eq]; exact hi) hi)

/-- The encoded size of signatures of one length. -/
theorem signaturesPayload_eq {signatures : List Bytes} {len : ℕ}
    (h : ∀ signature ∈ signatures, signature.length = len) :
    signaturesPayload signatures = 1 + signatures.length * (stringHead len + len) := by
  have hsizes : signatures.map stringSize =
      List.replicate signatures.length (stringHead len + len) := by
    refine List.eq_replicate_iff.2 ⟨by simp, fun size hsize => ?_⟩
    obtain ⟨signature, hmem, rfl⟩ := List.mem_map.1 hsize
    rw [stringSize, h signature hmem]
  simp [signaturesPayload, hsizes]

/-- **The signatures fit the buffer**, unless they are six of 3072 bits. -/
theorem signaturesPayload_fits {keyBits : UInt32} {n : ℕ} (hbits : rsaKeySizeValid keyBits = true)
    (hle : keyBits ≤ MAX_RSA_GEN_KEY_LEN) (hn : n ≤ maxDigests keyBits) :
    1 + n * (stringHead (keyBits.toNat / 8) + keyBits.toNat / 8) + 28 ≤ 2304 ∨
      (keyBits = 3072 ∧ n = 6 ∧
        2304 < 1 + n * (stringHead (keyBits.toNat / 8) + keyBits.toNat / 8)) := by
  rcases keySize_cases hbits hle with rfl | rfl | rfl | rfl
  · have hmax : maxDigests 1024 = 8 := by decide
    have hsize : stringHead ((1024 : UInt32).toNat / 8) + (1024 : UInt32).toNat / 8 = 130 := by
      decide
    rw [hsize]
    omega
  · have hmax : maxDigests 2048 = 8 := by decide
    have hsize : stringHead ((2048 : UInt32).toNat / 8) + (2048 : UInt32).toNat / 8 = 259 := by
      decide
    rw [hsize]
    omega
  · have hmax : maxDigests 3072 = 6 := by decide
    have hsize : stringHead ((3072 : UInt32).toNat / 8) + (3072 : UInt32).toNat / 8 = 387 := by
      decide
    rw [hsize]
    by_cases hfive : n ≤ 5
    · exact .inl (by omega)
    · exact .inr ⟨rfl, by omega, by omega⟩
  · have hmax : maxDigests 4096 = 4 := by decide
    have hsize : stringHead ((4096 : UInt32).toNat / 8) + (4096 : UInt32).toNat / 8 = 515 := by
      decide
    rw [hsize]
    omega

/-! ### Signing, exactly -/

/-- The process, once the parameters have passed. -/
theorem signBip85DigestsProcess_eq {keyBits index : UInt32} {digests : List Bytes}
    (h : PassesDigests C value keyBits index digests) (user : Bip85Screen → Bool) :
    signBip85DigestsProcess C W user value =
      confirmAndSignDigests C W user value keyBits index digests := by
  obtain ⟨params, hparams, htype, hkeyBits, hindex, hdigests⟩ := h.params
  obtain ⟨hbits, hle⟩ := h.bits
  obtain ⟨hne, hmax⟩ := h.count
  have hvalid : (!decide (MAX_RSA_GEN_KEY_LEN < keyBits) && rsaKeySizeValid keyBits) = true := by
    simp [hbits, UInt32.not_lt.2 hle]
  have hempty : digests.isEmpty = false := by simpa using hne
  simp only [signBip85DigestsProcess, withMsgParams, h.current, hparams, getter, orFault, pure_bind,
    paramsGetBip85RsaKey, htype, ne_eq, not_true, if_false, checkedSizet, hkeyBits, hvalid, if_true,
    checkedIndex, hindex, hdigests, hempty, Bool.false_eq_true]
  rw [if_neg (Nat.not_lt.2 hmax)]

/-- **Exactly when signing does what it has to.** -/
theorem digestsRun_iff {keyBits index : UInt32} {digests : List Bytes}
    (h : PassesDigests C value keyBits index digests) :
    (∀ {W : Bip85Wally}, W.Lawful → ∀ user,
      Bip85Run false keyBits index (AreSignatures W keyBits index digests)
        (signBip85DigestsProcess C W user value)) ↔
      index.toNat < 2 ^ 31 ∧ ¬(keyBits = 3072 ∧ digests.length = 6) ∧ IdRepeats C value := by
  obtain ⟨hbits, hle⟩ := h.bits
  obtain ⟨hne, hmax⟩ := h.count
  have hlen : ∀ d ∈ digests, d.length = RSA_DIGEST_LEN := by
    obtain ⟨params, -, -, -, -, hdigests⟩ := h.params
    exact length_of_getDigests hdigests
  obtain ⟨screen, hshows, hscreen⟩ :=
    confirmDigests_eq index hbits (hmax.trans (maxDigests_le keyBits))
  simp only [signBip85DigestsProcess_eq h, confirmAndSignDigests, hscreen]
  constructor
  · intro hrun
    have hyes := hrun toyBip85Wally_lawful fun _ => true
    simp only [Bip85Run, sat_bind, sat_askUser, sat_ite, sat_orFault] at hyes
    obtain ⟨hok, hfault⟩ := hyes.1 trivial
    have hindex : index.toNat < 2 ^ 31 := by
      by_contra hindex
      have hassert := rsaBip85KeySignDigests_of_le toyBip85Wally_lawful hbits hle hne hindex
      exact absurd (hfault _ hassert).1 (by simp [SignErr.isFault])
    obtain ⟨entropy, hentropy, hsign⟩ :=
      rsaBip85KeySignDigests_eq toyBip85Wally_lawful hbits hle hne hlen hindex
    -- the toy wallet signs everything, so that the reply is reached
    obtain ⟨signatures, hsignatures⟩ : ∃ signatures, (digests.zipIdx.mapM fun (digest, i) =>
        toyBip85Wally.rsaSign (List.replicate (keyBits.toNat / 8) (entropy.headD 0)) i digest) =
        some signatures := by
      refine ⟨digests.zipIdx.map fun _ =>
        List.replicate (keyBits.toNat / 8) (entropy.headD 0), ?_⟩
      exact mapM_eq_some.2 (List.forall₂_map_right_iff.2 (List.forall₂_same.2 fun _ _ => rfl))
    have hkey : toyBip85Wally.rsaGenKey keyBits entropy =
      some (List.replicate (keyBits.toNat / 8) (entropy.headD 0)) := rfl
    obtain ⟨hcount, hsizes⟩ := length_signatures toyBip85Wally_lawful hkey hsignatures
    rw [hkey, Option.bind_some, hsignatures] at hsign
    have hreply := hok _ hsign
    simp only [sat_bind, sat_orFault] at hreply
    cases hget : getter (replyMessageResult C value (signaturesPayload signatures) 2304) with
    | error f => exact absurd (hreply.2 f hget).1 (by simp [SignErr.isFault])
    | ok a =>
        obtain ⟨id, hid, hidne, hfits⟩ := replyMessageResult_iff.1 ⟨a, hget⟩
        rw [signaturesPayload_eq hsizes, hcount] at hfits
        refine ⟨hindex, ?_, id, hid, hidne⟩
        rintro ⟨hkeyBits, hsix⟩
        rcases signaturesPayload_fits hbits hle hmax with hsmall | ⟨-, -, hlarge⟩
        · rw [hkeyBits, hsix] at hsmall
          exact absurd hsmall (by decide)
        · omega
  · rintro ⟨hindex, hsix, hid⟩ W hW user
    have hasked : ∀ {answer replies},
        AskedExactly false keyBits index ⟨[(screen, answer)], replies⟩ := by
      intro answer replies p hp
      obtain rfl := List.mem_singleton.1 hp
      exact .inr hshows
    have hnone : ∀ {answers}, ReleasedOnly (AreSignatures W keyBits index digests) ⟨answers, []⟩ := by
      intro answers reply hreply
      cases hreply
    obtain ⟨entropy, hentropy, hsign⟩ := rsaBip85KeySignDigests_eq hW hbits hle hne hlen hindex
    simp only [Bip85Run, sat_bind, sat_askUser, sat_ite, hsign, orFault, pure_bind]
    refine ⟨fun hyes => ?_, fun _ => (sat_reject _ _).2 ⟨rfl, hasked, hnone⟩⟩
    cases hkey : W.rsaGenKey keyBits entropy with
    | none => exact (sat_reject _ _).2 ⟨rfl, hasked, hnone⟩
    | some key =>
        rw [Option.bind_some]
        cases hsignatures : digests.zipIdx.mapM fun (digest, i) => W.rsaSign key i digest with
        | none => exact (sat_reject _ _).2 ⟨rfl, hasked, hnone⟩
        | some signatures =>
            obtain ⟨hcount, hsizes⟩ := length_signatures hW hkey hsignatures
            have hfits : signaturesPayload signatures + 28 ≤ 2304 := by
              rw [signaturesPayload_eq hsizes, hcount]
              rcases signaturesPayload_fits hbits hle hmax with hsmall | ⟨hkeyBits, hn, -⟩
              · exact hsmall
              · exact absurd ⟨hkeyBits, hn⟩ hsix
            obtain ⟨a, ha⟩ := replyMessageResult_of_repeats hid hfits
            simp only [ha, sat_bind, sat_pure, sat_sendReply]
            refine ⟨hasked, fun reply hreply => ?_⟩
            obtain rfl := List.mem_singleton.1 hreply
            refine ⟨⟨entropy, key, signatures, hentropy, hkey, hsignatures, rfl⟩, screen, ?_⟩
            rw [hyes]
            rfl

end Digests

/-! ### Requests as they are sent -/

/-- The head of a request with id `"1"`: what follows is the map of the parameters. -/
def toyRequestHead (method : String) : Bytes :=
  0xa3 :: shortText "id" ++ shortText "1" ++ shortText "method" ++ shortText method ++
    shortText "params"

def toyPubkey : Bytes := 0x02 :: List.replicate 32 0x11

/-- The parameters for the entropy of twelve words, with the index as it is encoded. -/
def toyExportParams (index : Bytes) : Bytes :=
  0xa3 :: shortText "num_words" ++ [0x0c] ++ shortText "index" ++ index ++ shortText "pubkey" ++
    ([0x58, 0x21] ++ toyPubkey)

/-- The parameters for signatures over `count` equal digests, with the number of bits and the index as
they are encoded. -/
def toySignParams (keyBits index : Bytes) (count : ℕ) : Bytes :=
  0xa4 :: shortText "key_type" ++ shortText "RSA" ++ shortText "key_bits" ++ keyBits ++
    shortText "index" ++ index ++ shortText "digests" ++ (UInt8.ofNat (0x80 + count) ::
      (List.replicate count ([0x58, 0x20] ++ List.replicate 32 0x22)).flatten)

def toyExport (index : Bytes) : Bytes :=
  toyRequestHead "get_bip85_bip39_entropy" ++ toyExportParams index

def toySign (keyBits index : Bytes) (count : ℕ) : Bytes :=
  toyRequestHead "sign_bip85_digests" ++ toySignParams keyBits index count

/-- The parameters of three such requests pass. -/
theorem passes_toySign :
    PassesDigests tinyCborValues (toySign [0x19, 0x04, 0x00] [0x1a, 0x7f, 0xff, 0xff, 0xff] 1)
      1024 0x7fffffff (List.replicate 1 (List.replicate 32 0x22)) ∧
    PassesDigests tinyCborValues (toySign [0x19, 0x04, 0x00] [0x1a, 0x80, 0x00, 0x00, 0x00] 1)
      1024 0x80000000 (List.replicate 1 (List.replicate 32 0x22)) ∧
    PassesDigests tinyCborValues (toySign [0x19, 0x0c, 0x00] [0x00] 6)
      3072 0 (List.replicate 6 (List.replicate 32 0x22)) := by
  refine ⟨⟨?_, ⟨toySignParams [0x19, 0x04, 0x00] [0x1a, 0x7f, 0xff, 0xff, 0xff] 1, ?_⟩, ?_, ?_⟩,
    ⟨?_, ⟨toySignParams [0x19, 0x04, 0x00] [0x1a, 0x80, 0x00, 0x00, 0x00] 1, ?_⟩, ?_, ?_⟩,
    ⟨?_, ⟨toySignParams [0x19, 0x0c, 0x00] [0x00] 6, ?_⟩, ?_, ?_⟩⟩ <;> decide +kernel

theorem passes_toyExport :
    PassesExport tinyCborValues "get_bip85_bip39_entropy" "num_words" (fun n => n == 12 || n == 24)
      (toyExport [0x00]) 12 0 toyPubkey ∧
    PassesExport tinyCborValues "get_bip85_bip39_entropy" "num_words" (fun n => n == 12 || n == 24)
      (toyExport [0x1a, 0x00, 0x0f, 0x42, 0x40]) 12 1000000 toyPubkey := by
  refine ⟨⟨?_, ⟨toyExportParams [0x00], ?_⟩, rfl, ?_⟩,
    ⟨?_, ⟨toyExportParams [0x1a, 0x00, 0x0f, 0x42, 0x40], ?_⟩, rfl, ?_⟩⟩ <;> decide +kernel

theorem idRepeats_toyExport : IdRepeats tinyCborValues (toyExport [0x00]) :=
  ⟨ascii "1", by decide +kernel, by decide⟩

theorem idRepeats_toySign : IdRepeats tinyCborValues
    (toySign [0x19, 0x04, 0x00] [0x1a, 0x7f, 0xff, 0xff, 0xff] 1) :=
  ⟨ascii "1", by decide +kernel, by decide⟩

/-! ### The result -/

/-- **The three requests**: exactly when they are confirmed as they should be, release what they
should, and do not restart the device.  The number of words decides whether an export is that of a
swap. -/
theorem bip85_iff {V : Type} (C : TinyCborValues V) (value : V) :
    (∀ {nwords index pubkey}, PassesExport C "get_bip85_bip39_entropy" "num_words"
        (fun n => n == 12 || n == 24) value nwords index pubkey →
      ((∀ {W : Bip85Wally}, W.Lawful → ∀ user, Bip85Run (isSwap nwords index) nwords index
          (IsEntropy W (W.bip39Entropy nwords index) HMAC_BIP39_MESSAGE pubkey)
          (getBip85Bip39EntropyProcess C W user value)) ↔
        (isSwap nwords index = true ∨ index.toNat < 10 ^ 6) ∧ IdRepeats C value)) ∧
    (∀ {keyBits index pubkey}, PassesExport C "get_bip85_rsa_entropy" "key_bits" rsaKeySizeValid
        value keyBits index pubkey →
      ((∀ {W : Bip85Wally}, W.Lawful → ∀ user, Bip85Run false keyBits index
          (IsEntropy W (W.rsaEntropy keyBits index) HMAC_RSA_MESSAGE pubkey)
          (getBip85RsaEntropyProcess C W user value)) ↔
        index.toNat < 10 ^ 6 ∧ IdRepeats C value)) ∧
    ∀ {keyBits index digests}, PassesDigests C value keyBits index digests →
      ((∀ {W : Bip85Wally}, W.Lawful → ∀ user, Bip85Run false keyBits index
          (AreSignatures W keyBits index digests) (signBip85DigestsProcess C W user value)) ↔
        index.toNat < 2 ^ 31 ∧ ¬(keyBits = 3072 ∧ digests.length = 6) ∧ IdRepeats C value) :=
  ⟨bip39Run_iff, rsaRun_iff, digestsRun_iff⟩

/-- An export with index 0, and a signature with the largest index there is. -/
theorem bip85_small_requests :
    (∀ {W : Bip85Wally}, W.Lawful → ∀ user, Bip85Run (isSwap 12 0) 12 0
      (IsEntropy W (W.bip39Entropy 12 0) HMAC_BIP39_MESSAGE toyPubkey)
      (getBip85Bip39EntropyProcess tinyCborValues W user (toyExport [0x00]))) ∧
    ∀ {W : Bip85Wally}, W.Lawful → ∀ user, Bip85Run false 1024 0x7fffffff
      (AreSignatures W 1024 0x7fffffff (List.replicate 1 (List.replicate 32 0x22)))
      (signBip85DigestsProcess tinyCborValues W user
        (toySign [0x19, 0x04, 0x00] [0x1a, 0x7f, 0xff, 0xff, 0xff] 1)) := by
  obtain ⟨hexport, -, -⟩ := bip85_iff tinyCborValues (toyExport [0x00])
  obtain ⟨-, -, hsign⟩ :=
    bip85_iff tinyCborValues (toySign [0x19, 0x04, 0x00] [0x1a, 0x7f, 0xff, 0xff, 0xff] 1)
  exact ⟨(hexport passes_toyExport.1).2 ⟨.inr (by decide), idRepeats_toyExport⟩,
    (hsign passes_toySign.1).2 ⟨by decide, by decide, idRepeats_toySign⟩⟩

/-- An export with an index of seven digits, a signature with the index `2 ^ 31`, and six signatures of
3072 bits: the device restarts. -/
theorem bip85_restarts :
    (¬∀ {W : Bip85Wally}, W.Lawful → ∀ user, Bip85Run (isSwap 12 1000000) 12 1000000
      (IsEntropy W (W.bip39Entropy 12 1000000) HMAC_BIP39_MESSAGE toyPubkey)
      (getBip85Bip39EntropyProcess tinyCborValues W user
        (toyExport [0x1a, 0x00, 0x0f, 0x42, 0x40]))) ∧
    (¬∀ {W : Bip85Wally}, W.Lawful → ∀ user, Bip85Run false 1024 0x80000000
      (AreSignatures W 1024 0x80000000 (List.replicate 1 (List.replicate 32 0x22)))
      (signBip85DigestsProcess tinyCborValues W user
        (toySign [0x19, 0x04, 0x00] [0x1a, 0x80, 0x00, 0x00, 0x00] 1))) ∧
    ¬∀ {W : Bip85Wally}, W.Lawful → ∀ user, Bip85Run false 3072 0
      (AreSignatures W 3072 0 (List.replicate 6 (List.replicate 32 0x22)))
      (signBip85DigestsProcess tinyCborValues W user (toySign [0x19, 0x0c, 0x00] [0x00] 6)) := by
  obtain ⟨-, hlarge, hsix⟩ := passes_toySign
  refine ⟨fun h => ?_, fun h => ?_, fun h => ?_⟩
  · exact absurd ((bip39Run_iff passes_toyExport.2).1 h).1 (by decide)
  · exact absurd ((digestsRun_iff hlarge).1 h).1 (by decide)
  · exact ((digestsRun_iff hsix).1 h).2.1 ⟨rfl, List.length_replicate⟩

end Jade
