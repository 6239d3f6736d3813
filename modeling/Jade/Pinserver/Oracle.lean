/-
**An oracle that answers.**

The oracle is not part of the device. What it does with a question is what the device's own tests
do: it undoes the encoding, takes the public key of the session and the counter off the front,
tweaks its own private key with them, decrypts the rest, and finds out from the signature which unit
is asking. It answers with a key under the same session.

Main definitions:

* `Jade.Pinclient.PinWally.Lawful` — what the libraries document;
* `Jade.Pinclient.OracleWally` — the functions the oracle needs;
* `Jade.Pinclient.openQuestion`, `Jade.Pinclient.answerText` — the oracle.

Main results:

* `Jade.Pinclient.openQuestion_of_question` — **an oracle opens the questions that are put to it**;
* `Jade.Pinclient.decryptReply_of_answer` — **the device opens its answers**.
-/

import Jade.Pinserver.Interaction
import Jade.SignMessage.Request

set_option relaxedAutoImplicit false
set_option autoImplicit false

namespace Jade.Pinclient

open Flash

/-! ### Libraries -/

/-- What the libraries document, as far as the exchange rests on it: an encoding is undone by
decoding and is a text; the lengths; keys that are valid have public keys; and what was encrypted
between two key pairs is decrypted from the other side. -/
structure PinWally.Lawful (W : PinWally) : Prop where
  base64Decode : ∀ bytes, W.base64Decode (W.base64Encode bytes) = some bytes
  base64_text : ∀ bytes, 0 ∉ W.base64Encode bytes
  base64_ne_nil : ∀ bytes, bytes ≠ [] → W.base64Encode bytes ≠ []
  publicKey_length : ∀ k p, W.ecPublicKeyFromPrivateKey k = some p → p.length = EC_PUBLIC_KEY_LEN
  publicKey_isSome : ∀ k, W.ecPrivateKeyVerify k = true → (W.ecPublicKeyFromPrivateKey k).isSome
  signature_length : ∀ k hash sig, W.ecSigFromBytes k hash = some sig →
    sig.length = EC_SIGNATURE_RECOVERABLE_LEN
  hmac_length : ∀ k m, (W.hmacSha256 k m).length = HMAC_SHA256_LEN
  encrypted_length : ∀ k iv m P label e, W.aesEncryptWithEcdhKey k iv m P label = some e →
    e.length = aesEncryptedLen m.length + HMAC_SHA256_LEN
  decrypt : ∀ a A b B iv m label e, W.ecPublicKeyFromPrivateKey a = some A →
    W.ecPublicKeyFromPrivateKey b = some B → W.aesEncryptWithEcdhKey a iv m B label = some e →
      W.aesDecryptWithEcdhKey b e A label = some m

/-- The functions of the libraries that only the oracle needs. -/
structure OracleWally where
  /-- `wally_ec_private_key_bip341_tweak`: key, tweak -/
  ecPrivateKeyBip341Tweak : Bytes → Bytes → Option Bytes
  /-- `wally_ec_sig_to_public_key`: hash, signature -/
  ecSigToPublicKey : Bytes → Bytes → Option Bytes

/-- The two halves of a tweak agree, and a signature leads to the key it was made with. -/
structure OracleWally.Lawful (L : OracleWally) (W : PinWally) : Prop where
  tweak : ∀ k P tweak T, W.ecPublicKeyFromPrivateKey k = some P →
    W.ecPublicKeyBip341Tweak P tweak = some T →
      ∃ t, L.ecPrivateKeyBip341Tweak k tweak = some t ∧ W.ecPublicKeyFromPrivateKey t = some T
  recover : ∀ k P hash sig, W.ecPublicKeyFromPrivateKey k = some P →
    W.ecSigFromBytes k hash = some sig → L.ecSigToPublicKey hash sig = some P

/-! ### The oracle -/

/-- What an oracle reads in a question. -/
structure OpenQuestion where
  /-- the public key of the session -/
  cke : Bytes
  /-- the oracle's private key for the session -/
  session : Bytes
  counter : ℕ
  /-- the public key of the unit -/
  unit : Bytes
  pinSecret : Bytes
  entropy : Bytes
  deriving DecidableEq

section Oracle

variable (W : PinWally) (L : OracleWally)

/-- The number in the clear part of a question. -/
def wireCounter (r : HttpRequest) : Option ℕ :=
  (W.base64Decode r.strdata).map fun bytes =>
    Bytes.toNatLE ((bytes.drop EC_PUBLIC_KEY_LEN).take REPLAY_COUNTER_LEN)

/-- An oracle with the private key `oracleKey` opens a question. -/
def openQuestion (oracleKey : Bytes) (r : HttpRequest) : Option OpenQuestion := do
  let bytes ← W.base64Decode r.strdata
  let cke := bytes.take EC_PUBLIC_KEY_LEN
  let counter := (bytes.drop EC_PUBLIC_KEY_LEN).take REPLAY_COUNTER_LEN
  let payload := bytes.drop (EC_PUBLIC_KEY_LEN + REPLAY_COUNTER_LEN)
  let session ← L.ecPrivateKeyBip341Tweak oracleKey (sessionTweak W cke counter)
  let cleartext ← W.aesDecryptWithEcdhKey session payload cke LABEL_ORACLE_REQUEST
  let signed := cleartext.take (cleartext.length - EC_SIGNATURE_RECOVERABLE_LEN)
  let sig := cleartext.drop (cleartext.length - EC_SIGNATURE_RECOVERABLE_LEN)
  let unit ← L.ecSigToPublicKey (W.sha256 (cke ++ counter ++ signed)) sig
  return {
    cke := cke
    session := session
    counter := Bytes.toNatLE counter
    unit := unit
    pinSecret := signed.take PIN_SECRET_LEN
    entropy := signed.drop PIN_SECRET_LEN }

/-- The text of an answer with a key. -/
def answerText (q : OpenQuestion) (iv serverKey : Bytes) : Option Bytes :=
  (W.aesEncryptWithEcdhKey q.session iv serverKey q.cke LABEL_ORACLE_RESPONSE).map W.base64Encode

variable {W L} {st : Store ClientKey} {ask : Ask} {j : ℕ} {keys : PinKeys} {r : HttpRequest}

/-- What is sent, in the clear. -/
theorem strdata_of_question (hW : W.Lawful) (h : Question W st ask j keys r) :
    ∃ unit entropy iv sig payload, unitKeyOf W st = some unit ∧
      entropy.length = (if ask.passClientEntropy then ENTROPY_LEN else 0) ∧
      signPayload W unit keys (getPinSecret W ask.pin unit) entropy = some sig ∧
      encryptPayload W keys (getPinSecret W ask.pin unit) entropy sig iv = some payload ∧
      W.base64Decode r.strdata = some (keys.cke ++ keys.replayCounter ++ payload) := by
  obtain ⟨unit, data, sentAt, hunit, hcontent, rfl⟩ := h.content
  obtain ⟨entropy, iv, sig, payload, hentropy, -, hsig, hpayload, hdata⟩ := hcontent.made
  refine ⟨unit, entropy, iv, sig, payload, hunit, hentropy, hsig, hpayload, ?_⟩
  rw [assembleReplyData, Option.ite_none_right_eq_some] at hdata
  obtain rfl := Option.some.inj hdata.2
  rw [httpRequest, cstr_eq_self (hW.base64_text _), hW.base64Decode]

theorem length_cke (hW : W.Lawful) (h : KeysFor W st j keys) :
    keys.cke.length = EC_PUBLIC_KEY_LEN := hW.publicKey_length _ _ h.cke

theorem length_replayCounter (h : KeysFor W st j keys) :
    keys.replayCounter.length = REPLAY_COUNTER_LEN := by
  rw [h.counter, Bytes.length_ofNatLE]

theorem toNatLE_replayCounter (h : KeysFor W st j keys) :
    Bytes.toNatLE keys.replayCounter = j := by
  have hlt : j < 256 ^ REPLAY_COUNTER_LEN := by
    have hbelow := h.below
    simp only [UINT32_MAX, REPLAY_COUNTER_LEN] at hbelow ⊢
    omega
  rw [h.counter, Bytes.toNatLE_ofNatLE_of_lt hlt]

/-- The parts of what is sent. -/
theorem parts_of_question (hW : W.Lawful) (h : KeysFor W st j keys) (payload : Bytes) :
    let bytes := keys.cke ++ keys.replayCounter ++ payload
    bytes.take EC_PUBLIC_KEY_LEN = keys.cke ∧
      (bytes.drop EC_PUBLIC_KEY_LEN).take REPLAY_COUNTER_LEN = keys.replayCounter ∧
      bytes.drop (EC_PUBLIC_KEY_LEN + REPLAY_COUNTER_LEN) = payload := by
  intro bytes
  have hcke := length_cke hW h
  have hcounter := length_replayCounter h
  refine ⟨?_, ?_, ?_⟩
  · simp only [bytes]
    rw [List.append_assoc, List.take_left' hcke]
  · simp only [bytes]
    rw [List.append_assoc, List.drop_left' hcke, List.take_left' hcounter]
  · exact List.drop_left' (by rw [List.length_append, hcke, hcounter])

/-- The counter is there for everyone to read. -/
theorem wireCounter_of_question (hW : W.Lawful) (h : Question W st ask j keys r) :
    wireCounter W r = some j := by
  obtain ⟨unit, entropy, iv, sig, payload, -, -, -, -, hdecode⟩ := strdata_of_question hW h
  rw [wireCounter, hdecode, Option.map_some, (parts_of_question hW h.opened payload).2.1,
    toNatLE_replayCounter h.opened]

/-- **An oracle opens the questions that are put to it**, and finds the unit that asks, the secret
made from the PIN, and entropy where some was to be passed. -/
theorem openQuestion_of_question (hW : W.Lawful) (hL : L.Lawful W) {oracleKey : Bytes}
    (horacle : W.ecPublicKeyFromPrivateKey oracleKey = some (oraclePubkey W st))
    (h : Question W st ask j keys r) :
    ∃ q unit, openQuestion W L oracleKey r = some q ∧ unitKeyOf W st = some unit ∧
      W.ecPublicKeyFromPrivateKey unit = some q.unit ∧ q.counter = j ∧
      q.pinSecret = getPinSecret W ask.pin unit ∧
      q.entropy.length = (if ask.passClientEntropy then ENTROPY_LEN else 0) ∧
      q.cke = keys.cke ∧ W.ecPublicKeyFromPrivateKey q.session = some keys.ske := by
  obtain ⟨unit, entropy, iv, sig, payload, hunit, hentropy, hsig, hpayload, hdecode⟩ :=
    strdata_of_question hW h
  obtain ⟨htake, hmid, hdrop⟩ := parts_of_question hW h.opened payload
  -- the oracle's half of the session
  have hske := h.opened.ske
  rw [generateSke, Option.ite_none_right_eq_some] at hske
  obtain ⟨session, hsession, hpub⟩ := hL.tweak _ _ _ _ horacle hske.2
  -- the cleartext
  rw [encryptPayload, Option.filter_eq_some_iff] at hpayload
  have hclear := hW.decrypt _ _ _ _ _ _ _ _ h.opened.cke hpub hpayload.1
  have hsiglen := hW.signature_length _ _ _ hsig
  have hsecretlen : (getPinSecret W ask.pin unit).length = PIN_SECRET_LEN := hW.hmac_length _ _
  have hlen : (getPinSecret W ask.pin unit ++ entropy ++ sig).length - EC_SIGNATURE_RECOVERABLE_LEN =
      (getPinSecret W ask.pin unit ++ entropy).length := by
    rw [List.length_append, hsiglen, Nat.add_sub_cancel]
  -- the signature
  have hvalid : W.ecPrivateKeyVerify unit = true := by
    rw [unitKeyOf, Option.filter_eq_some_iff] at hunit
    exact hunit.2
  obtain ⟨pub, hpubunit⟩ := Option.isSome_iff_exists.1 (hW.publicKey_isSome unit hvalid)
  have hrecover := hL.recover _ _ _ _ hpubunit hsig
  refine ⟨⟨keys.cke, session, j, pub, getPinSecret W ask.pin unit, entropy⟩, unit, ?_, hunit,
    hpubunit, rfl, rfl, hentropy, rfl, hpub⟩
  have hsigned : keys.cke ++ keys.replayCounter ++ (getPinSecret W ask.pin unit ++ entropy) =
      keys.cke ++ keys.replayCounter ++ getPinSecret W ask.pin unit ++ entropy := by
    rw [List.append_assoc _ (getPinSecret W ask.pin unit)]
  simp only [openQuestion, hdecode, Option.bind_eq_bind, Option.bind_some, htake, hmid, hdrop,
    hsession, hclear, hlen, List.take_left, List.drop_left, hsigned, hrecover,
    List.take_left' hsecretlen, List.drop_left' hsecretlen, toNatLE_replayCounter h.opened]
  rfl

/-- **The device opens the answer to its question.** -/
theorem decryptReply_of_answer (hW : W.Lawful) {q : OpenQuestion} {iv serverKey encrypted : Bytes}
    (hkeys : KeysFor W st j keys) (hcke : q.cke = keys.cke)
    (hsession : W.ecPublicKeyFromPrivateKey q.session = some keys.ske)
    (hlen : serverKey.length = AES_KEY_LEN_256)
    (h : W.aesEncryptWithEcdhKey q.session iv serverKey q.cke LABEL_ORACLE_RESPONSE =
      some encrypted) :
    encrypted.length = SERVER_REPLY_PAYLOAD_LEN ∧ decryptReply W keys encrypted = some serverKey := by
  have hencrypted := hW.encrypted_length _ _ _ _ _ _ h
  rw [hlen] at hencrypted
  refine ⟨hencrypted, ?_⟩
  rw [hcke] at h
  rw [decryptReply, hW.decrypt _ _ _ _ _ _ _ _ hsession hkeys.cke h, Option.filter_some,
    if_pos (by rw [decide_eq_true_eq]; exact hlen)]

end Oracle

/-! ### A library -/

/-- The value of a digit of base 64. -/
def toyDigitValue (c : UInt8) : Option ℕ :=
  let n := c.toNat
  if 0x41 ≤ n ∧ n < 0x5b then some (n - 0x41)
  else if 0x61 ≤ n ∧ n < 0x7b then some (n - 0x47)
  else if 0x30 ≤ n ∧ n < 0x3a then some (n + 4)
  else if n = 0x2b then some 62
  else if n = 0x2f then some 63
  else none

/-- Four digits are three bytes. -/
def toyBase64Decode : Bytes → Option Bytes
  | [] => some []
  | a :: b :: c :: d :: text => do
      let w ← toyDigitValue a
      let x ← toyDigitValue b
      if d = 0x3d ∧ text = [] then
        if c = 0x3d then return [UInt8.ofNat (w * 4 + x / 16)]
        else
          let y ← toyDigitValue c
          return [UInt8.ofNat (w * 4 + x / 16), UInt8.ofNat (x % 16 * 16 + y / 4)]
      else
        let y ← toyDigitValue c
        let z ← toyDigitValue d
        let bytes ← toyBase64Decode text
        return UInt8.ofNat (w * 4 + x / 16) :: UInt8.ofNat (x % 16 * 16 + y / 4) ::
          UInt8.ofNat (y % 4 * 64 + z) :: bytes
  | _ => none

theorem toyDigitValue_toyDigit {n : ℕ} (h : n < 64) :
    toyDigitValue (toyDigit n) = some n ∧ toyDigit n ≠ 0x3d := by
  have hall : ∀ n : Fin 64, toyDigitValue (toyDigit n) = some n.val ∧ toyDigit n ≠ 0x3d := by
    decide
  exact hall ⟨n, h⟩

theorem ofNat_eq_of_toNat {a : UInt8} {n : ℕ} (h : n = a.toNat) : UInt8.ofNat n = a := by
  rw [h, UInt8.ofNat_toNat]

/-- What was encoded is decoded. -/
theorem toyBase64Decode_toyBase64 (bytes : Bytes) :
    toyBase64Decode (toyBase64 bytes) = some bytes := by
  induction bytes using toyBase64.induct with
  | case1 => rfl
  | case2 a =>
      have ha := a.toNat_lt
      have h₁ := (toyDigitValue_toyDigit (n := a.toNat / 4) (by omega)).1
      have h₂ := (toyDigitValue_toyDigit (n := a.toNat % 4 * 16) (by omega)).1
      have hbyte : UInt8.ofNat (a.toNat / 4 * 4 + a.toNat % 4 * 16 / 16) = a :=
        ofNat_eq_of_toNat (by omega)
      rw [toyBase64, toyBase64Decode]
      simp only [h₁, h₂, Option.bind_eq_bind, Option.bind_some, and_self, if_true, hbyte]
      rfl
  | case3 a b =>
      have ha := a.toNat_lt
      have hb := b.toNat_lt
      have h₁ := (toyDigitValue_toyDigit (n := a.toNat / 4) (by omega)).1
      have h₂ := (toyDigitValue_toyDigit (n := a.toNat % 4 * 16 + b.toNat / 16) (by omega)).1
      have h₃ := toyDigitValue_toyDigit (n := b.toNat % 16 * 4) (by omega)
      have hfst : UInt8.ofNat (a.toNat / 4 * 4 + (a.toNat % 4 * 16 + b.toNat / 16) / 16) = a :=
        ofNat_eq_of_toNat (by omega)
      have hsnd : UInt8.ofNat ((a.toNat % 4 * 16 + b.toNat / 16) % 16 * 16 +
          b.toNat % 16 * 4 / 4) = b := ofNat_eq_of_toNat (by omega)
      rw [toyBase64, toyBase64Decode]
      simp only [h₁, h₂, h₃.1, h₃.2, Option.bind_eq_bind, Option.bind_some, and_self, if_true,
        if_false, hfst, hsnd]
      rfl
  | case4 a b c bytes ih =>
      have ha := a.toNat_lt
      have hb := b.toNat_lt
      have hc := c.toNat_lt
      have h₁ := (toyDigitValue_toyDigit (n := a.toNat / 4) (by omega)).1
      have h₂ := (toyDigitValue_toyDigit (n := a.toNat % 4 * 16 + b.toNat / 16) (by omega)).1
      have h₃ := (toyDigitValue_toyDigit (n := b.toNat % 16 * 4 + c.toNat / 64) (by omega)).1
      have h₄ := toyDigitValue_toyDigit (n := c.toNat % 64) (by omega)
      have hfst : UInt8.ofNat (a.toNat / 4 * 4 + (a.toNat % 4 * 16 + b.toNat / 16) / 16) = a :=
        ofNat_eq_of_toNat (by omega)
      have hsnd : UInt8.ofNat ((a.toNat % 4 * 16 + b.toNat / 16) % 16 * 16 +
          (b.toNat % 16 * 4 + c.toNat / 64) / 4) = b := ofNat_eq_of_toNat (by omega)
      have hthd : UInt8.ofNat ((b.toNat % 16 * 4 + c.toNat / 64) % 4 * 64 + c.toNat % 64) = c :=
        ofNat_eq_of_toNat (by omega)
      rw [toyBase64, toyBase64Decode]
      simp only [h₁, h₂, h₃, h₄.1, h₄.2, Option.bind_eq_bind, Option.bind_some, false_and, if_false,
        ih, hfst, hsnd, hthd]
      rfl

def toyXor (a b : Bytes) : Bytes := List.zipWith (· ^^^ ·) a b

def toyDigest (m : Bytes) : Bytes := (m ++ List.replicate 32 0).take 32

/-- What two keys have in common, for a label. -/
def toyTag (k P label : Bytes) : Bytes := toyXor (toyXor k P.tail) (toyDigest label)

/-- Padding to a multiple of the block length, by bytes that say how many they are. -/
def toyPad (m : Bytes) : Bytes :=
  m ++ List.replicate (16 - m.length % 16) (UInt8.ofNat (16 - m.length % 16))

/-- A library whose keys are their own public keys, and which hides nothing. -/
def toyPinWally : PinWally where
  serverPublicKey := 2 :: List.replicate 32 7
  ecPrivateKeyVerify k := decide (k.length = 32)
  ecPublicKeyVerify P := decide (P.length = 33 ∧ P.head? = some 2)
  ecPublicKeyFromPrivateKey k := if k.length = 32 then some (2 :: k) else none
  ecPublicKeyBip341Tweak P tweak :=
    if P.length = 33 ∧ tweak.length = 32 then some (2 :: toyXor P.tail tweak) else none
  ecSigFromBytes k hash := if k.length = 32 ∧ hash.length = 32 then some (k ++ hash ++ [0]) else none
  sha256 := toyDigest
  hmacSha256 k m := toyDigest (m ++ k)
  aesEncryptWithEcdhKey k iv m P label :=
    if k.length = 32 ∧ P.length = 33 ∧ iv.length = 16 then some (iv ++ toyPad m ++ toyTag k P label)
    else none
  aesDecryptWithEcdhKey k e P label :=
    let body := (e.take (e.length - 32)).drop 16
    if e.drop (e.length - 32) = toyTag k P label then
      some (body.take (body.length - (body.getLast?.getD 0).toNat))
    else none
  base64Encode := toyBase64
  base64Decode := toyBase64Decode

def toyOracleWally : OracleWally where
  ecPrivateKeyBip341Tweak k tweak :=
    if k.length = 32 ∧ tweak.length = 32 then some (toyXor k tweak) else none
  ecSigToPublicKey hash sig :=
    if (sig.drop 32).take 32 = hash then some (2 :: sig.take 32) else none

theorem length_toyXor {a b : Bytes} (h : a.length = b.length) : (toyXor a b).length = a.length := by
  rw [toyXor, List.length_zipWith, ← h, Nat.min_self]

@[simp] theorem length_toyDigest (m : Bytes) : (toyDigest m).length = 32 := by
  rw [toyDigest, List.length_take, List.length_append, List.length_replicate]
  omega

theorem toyXor_comm (a b : Bytes) : toyXor a b = toyXor b a := by
  rw [toyXor, toyXor, List.zipWith_comm]
  congr 1
  funext x y
  exact UInt8.xor_comm y x

theorem length_toyTag {k P label : Bytes} (hk : k.length = 32) (hP : P.length = 33) :
    (toyTag k P label).length = 32 := by
  have htail : k.length = P.tail.length := by rw [List.length_tail, hP, hk]
  have hxor : (toyXor k P.tail).length = 32 := (length_toyXor htail).trans hk
  rw [toyTag, length_toyXor (by rw [hxor, length_toyDigest]), hxor]

theorem length_toyPad (m : Bytes) : (toyPad m).length = aesPaddedLen m.length := by
  rw [toyPad, List.length_append, List.length_replicate, aesPaddedLen, AES_BLOCK_LEN]
  omega

/-- The last byte of the padding says how long it is. -/
theorem unpad_toyPad (m : Bytes) :
    (toyPad m).take ((toyPad m).length - ((toyPad m).getLast?.getD 0).toNat) = m := by
  have hpos : 0 < 16 - m.length % 16 := by omega
  obtain ⟨n, hn⟩ := Nat.exists_eq_succ_of_ne_zero hpos.ne'
  have hlast : (toyPad m).getLast? = some (UInt8.ofNat (16 - m.length % 16)) := by
    rw [toyPad, hn, List.replicate_succ', ← List.append_assoc, List.getLast?_append]
    rfl
  have hto : (UInt8.ofNat (16 - m.length % 16)).toNat = 16 - m.length % 16 := by
    rw [UInt8.toNat_ofNat']
    omega
  rw [hlast, Option.getD_some, hto, toyPad, List.length_append, List.length_replicate,
    Nat.add_sub_cancel, List.take_left]

theorem toyPinWally_lawful : toyPinWally.Lawful where
  base64Decode := toyBase64Decode_toyBase64
  base64_text := toyBase64_text
  base64_ne_nil := by
    intro bytes hne hnil
    have hdecode := toyBase64Decode_toyBase64 bytes
    rw [show toyBase64 bytes = [] from hnil] at hdecode
    exact hne (Option.some.inj hdecode).symm
  publicKey_length := by
    intro k p h
    obtain ⟨hk, hp⟩ := Option.ite_none_right_eq_some.1 h
    rw [← Option.some.inj hp, List.length_cons, hk]
    rfl
  publicKey_isSome := by
    intro k hk
    have hk' : k.length = 32 := of_decide_eq_true hk
    simp [toyPinWally, hk']
  signature_length := by
    intro k hash sig h
    obtain ⟨⟨hk, hhash⟩, hsig⟩ := Option.ite_none_right_eq_some.1 h
    rw [← Option.some.inj hsig]
    simp [hk, hhash, EC_SIGNATURE_RECOVERABLE_LEN]
  hmac_length := by
    intro k m
    exact length_toyDigest (m ++ k)
  encrypted_length := by
    intro k iv m P label e h
    obtain ⟨⟨hk, hP, hiv⟩, he⟩ := Option.ite_none_right_eq_some.1 h
    rw [← Option.some.inj he, List.length_append, List.length_append, length_toyPad, length_toyTag hk hP,
      hiv]
    rfl
  decrypt := by
    intro a A b B iv m label e hA hB h
    obtain ⟨ha, hA⟩ := Option.ite_none_right_eq_some.1 hA
    obtain ⟨hb, hB⟩ := Option.ite_none_right_eq_some.1 hB
    obtain rfl := Option.some.inj hA
    obtain rfl := Option.some.inj hB
    obtain ⟨⟨-, hlen, hiv⟩, he⟩ := Option.ite_none_right_eq_some.1 h
    obtain rfl := Option.some.inj he
    have hcommon : toyTag a (2 :: b) label = toyTag b (2 :: a) label := by
      rw [toyTag, toyTag, List.tail_cons, List.tail_cons, toyXor_comm a b]
    have htag : (toyTag b (2 :: a) label).length = 32 := by
      rw [← hcommon]
      exact length_toyTag ha hlen
    have hsub : (iv ++ toyPad m ++ toyTag b (2 :: a) label).length - 32 =
        (iv ++ toyPad m).length := by
      rw [List.length_append, htag, Nat.add_sub_cancel]
    simp only [toyPinWally, hcommon, hsub, List.drop_left, List.take_left, if_true]
    rw [List.drop_left' hiv, unpad_toyPad]

theorem toyOracleWally_lawful : toyOracleWally.Lawful toyPinWally where
  tweak := by
    intro k P tweak T hP hT
    obtain ⟨hk, hP⟩ := Option.ite_none_right_eq_some.1 hP
    obtain rfl := Option.some.inj hP
    obtain ⟨⟨-, htweak⟩, hT⟩ := Option.ite_none_right_eq_some.1 hT
    obtain rfl := Option.some.inj hT
    have hlen : (toyXor k tweak).length = 32 := (length_toyXor (by rw [hk, htweak])).trans hk
    exact ⟨toyXor k tweak, if_pos ⟨hk, htweak⟩, if_pos hlen⟩
  recover := by
    intro k P hash sig hP hsig
    obtain ⟨hk, hP⟩ := Option.ite_none_right_eq_some.1 hP
    obtain rfl := Option.some.inj hP
    obtain ⟨⟨-, hhash⟩, hsig⟩ := Option.ite_none_right_eq_some.1 hsig
    obtain rfl := Option.some.inj hsig
    have htake : (k ++ hash ++ [0]).take 32 = k := by
      rw [List.append_assoc, List.take_left' hk]
    have hmid : ((k ++ hash ++ [0]).drop 32).take 32 = hash := by
      rw [List.append_assoc, List.drop_left' hk, List.take_left' hhash]
    simp only [toyOracleWally, hmid, htake, if_true]

end Jade.Pinclient
