/-
**The device and the oracle agree (`pinclient.c`).**

A question can be opened by the oracle that holds the private key, and by the session's two keys the
answer can be opened by the device. So whatever the host does with the messages, an honest answer to
the last question brings the key that the oracle's mapping and the PIN give; and while the key of
the unit and the key of the oracle stay, this is one function of the PIN, for new PINs and for
logins, over any number of retries, failed commits and power losses.

This is also where the oracle as it is used by the settings, a function of the three keys, is tied
to the messages.

Main definitions:

* `Jade.Pinclient.HonestAnswer` — the message that brings an answer;
* `Jade.Pinclient.DecryptsTo` — a message with something that decrypts to a key;
* `Jade.Pinclient.keyedStep` — a run that keeps the two keys;
* `Jade.Pinclient.Agreed` — what holds of every call.

Main results:

* `Jade.Pinclient.decryptsTo_of_pinVerdict` — a key comes from nothing else;
* `Jade.Pinclient.pinVerdict_of_honestAnswer` — the device opens an honest answer;
* `Jade.Pinclient.oracle_handshake` — **along every run all calls agree with the oracle**.
-/

import Jade.Pinserver.Replay

set_option relaxedAutoImplicit false
set_option autoImplicit false

namespace Jade.Pinclient

open Exec Flash

/-! ### Answers -/

section Answers

variable {V : Type} (W : PinWally) (L : OracleWally) (C : TinyCborStrings V)

/-- A message with the answer of an oracle that maps a unit and the secret of a PIN to a key. -/
structure HonestAnswer (oracleKey : Bytes) (serverKey : Bytes → Bytes → Bytes) (r : HttpRequest)
    (value : V) : Prop where
  notCancel : isCurrentMessage C value (ascii "cancel") = .ok false
  isPin : isCurrentMessage C value (ascii "pin") = .ok true
  keyLength : ∀ unit pinSecret, (serverKey unit pinSecret).length = AES_KEY_LEN_256
  data : ∃ q iv text params, openQuestion W L oracleKey r = some q ∧
    answerText W q iv (serverKey q.unit q.pinSecret) = some text ∧
    getMsgParams C value = some params ∧
    rpcGetStringPtr C.toTinyCbor "data" params = .ok (some text)

/-- A message with something that decrypts to a key, between a private key of the device and a public
key of the oracle. -/
structure DecryptsTo (privkey ske : Bytes) (value : V) (serverkey : Bytes) : Prop where
  isPin : isCurrentMessage C value (ascii "pin") = .ok true
  keyLength : serverkey.length = AES_KEY_LEN_256
  data : ∃ params text encrypted, getMsgParams C value = some params ∧
    rpcGetStringPtr C.toTinyCbor "data" params = .ok (some text) ∧
    W.base64Decode text = some encrypted ∧ encrypted.length = SERVER_REPLY_PAYLOAD_LEN ∧
    W.aesDecryptWithEcdhKey privkey encrypted ske LABEL_ORACLE_RESPONSE = some serverkey

variable {W L C} {st : Store ClientKey} {ask : Ask} {j : ℕ} {keys : PinKeys} {r : HttpRequest}

theorem decryptsTo_of_pinMessageKey {value : V} {serverkey : Bytes}
    (hpin : isCurrentMessage C value (ascii "pin") = .ok true)
    (h : pinMessageKey W C keys value = .ok (.success serverkey)) :
    DecryptsTo W C keys.privkey keys.ske value serverkey := by
  rw [pinMessageKey] at h
  split at h
  · cases h
  · next params hparams =>
      obtain ⟨data, hdata, h⟩ := bind_eq_ok.1 h
      split at h
      · cases h
      · next hne =>
          split at h
          · cases h
          · next encrypted hfilter =>
              split at h
              · cases h
              · next key hkey =>
                  obtain rfl : key = serverkey := by
                    cases h
                    rfl
                  rw [Option.filter_eq_some_iff, decide_eq_true_eq] at hfilter
                  rw [decryptReply, Option.filter_eq_some_iff, decide_eq_true_eq] at hkey
                  cases data with
                  | none => exact absurd rfl hne
                  | some text =>
                      exact ⟨hpin, hkey.2, params, text, encrypted, hparams, hdata, hfilter.1,
                        hfilter.2, hkey.1⟩

/-- **A key comes from nothing but a message that decrypts to it.** -/
theorem decryptsTo_of_pinVerdict {m : Incoming V} {serverkey : Bytes}
    (h : pinVerdict W C keys (some m) = .ok (.success serverkey)) :
    DecryptsTo W C keys.privkey keys.ske m.value serverkey := by
  obtain ⟨cancel, -, h⟩ := bind_eq_ok.1 h
  split at h
  · cases h
  · obtain ⟨isPin, hpin, h⟩ := bind_eq_ok.1 h
    split at h
    · cases h
    · next hyes =>
        obtain rfl : isPin = true := by simpa using hyes
        exact decryptsTo_of_pinMessageKey hpin h

/-- **The device opens an honest answer to its question.** -/
theorem pinVerdict_of_honestAnswer (hW : W.Lawful) (hL : L.Lawful W) {oracleKey : Bytes}
    {serverKey : Bytes → Bytes → Bytes} {m : Incoming V}
    (horacle : W.ecPublicKeyFromPrivateKey oracleKey = some (oraclePubkey W st))
    (h : Question W st ask j keys r) (hm : HonestAnswer W L C oracleKey serverKey r m.value) :
    ∃ q unit, openQuestion W L oracleKey r = some q ∧ unitKeyOf W st = some unit ∧
      W.ecPublicKeyFromPrivateKey unit = some q.unit ∧ q.pinSecret = getPinSecret W ask.pin unit ∧
      pinVerdict W C keys (some m) = .ok (.success (serverKey q.unit q.pinSecret)) := by
  obtain ⟨q, unit, hopen, hunit, hpub, -, hsecret, -, hcke, hsession⟩ :=
    openQuestion_of_question hW hL horacle h
  refine ⟨q, unit, hopen, hunit, hpub, hsecret, ?_⟩
  obtain ⟨q', iv, text, params, hopen', htext, hparams, hdata⟩ := hm.data
  obtain rfl : q = q' := Option.some.inj (hopen.symm.trans hopen')
  obtain ⟨encrypted, hencrypted, rfl⟩ := Option.map_eq_some_iff.1 htext
  obtain ⟨hlen, hdecrypt⟩ := decryptReply_of_answer hW h.opened hcke hsession
    (hm.keyLength q.unit q.pinSecret) hencrypted
  have hne : encrypted ≠ [] := by
    rintro rfl
    cases hlen
  have htextne : (W.base64Encode encrypted).isEmpty = false :=
    List.isEmpty_eq_false_iff.2 (hW.base64_ne_nil encrypted hne)
  have hfilter : (W.base64Decode (W.base64Encode encrypted)).filter
      (fun bytes => decide (bytes.length = SERVER_REPLY_PAYLOAD_LEN)) = some encrypted := by
    rw [hW.base64Decode, Option.filter_some, if_pos (decide_eq_true hlen)]
  simp only [pinVerdict, hm.notCancel, hm.isPin, pinMessageKey, hparams, hdata, ok_bind,
    Bool.not_true, Bool.false_eq_true, if_false, Option.getD_some, htextne, hfilter, hdecrypt]
  rfl

end Answers

/-! ### Runs that keep the keys -/

section Runs

variable {V : Type} (W : PinWally) (C : TinyCborStrings V)

/-- Settings in which the key of the unit and the key of the oracle are as they were. -/
def keepKeys (st : Store ClientKey) (records : Store OracleKey) : Store OracleKey
  | .privatekey => st (.settings .privatekey)
  | .pinsvrpubkey => st (.settings .pinsvrpubkey)
  | k => records k

/-- A call, or a change of anything but the two keys and the counter. -/
def keyedStep (w : Wire V) : WireOp V → Wire V
  | .call o => wireStep W C w (.call o)
  | .elsewhere records => wireStep W C w (.elsewhere (keepKeys w.store records))

/-- The oracle as a function of the three keys. -/
def pinOracle (serverKey : Bytes → Bytes → Bytes → Bytes) : PinOracle where
  serverPublicKey := W.serverPublicKey
  publicKeyVerify := W.ecPublicKeyVerify
  privateKeyVerify := W.ecPrivateKeyVerify
  publicKeyFromPrivateKey privatekey := (W.ecPublicKeyFromPrivateKey privatekey).getD []
  hmacSha256 := W.hmacSha256
  serverKey := serverKey

/-- **A call agrees with the oracle**: whatever is asked can be opened, and is asked for the PIN on
behalf of the unit; an honest answer in the last message brings the key of that PIN; and a key is
brought by nothing but a last message that decrypts to it, between the private key behind the
session's public key and the public key of the oracle's half of the session. -/
structure Agreed (L : OracleWally) (oracleKey pubkey privatekey : Bytes) (o : Outcome V) : Prop where
  opened : ∀ r ∈ requests o.events, ∃ q, openQuestion W L oracleKey r = some q ∧
    wireCounter W r = some q.counter ∧ W.ecPublicKeyFromPrivateKey privatekey = some q.unit ∧
    q.pinSecret = getPinSecret W o.ask.pin privatekey ∧
    q.entropy.length = (if o.ask.passClientEntropy then ENTROPY_LEN else 0)
  answered : ∀ serverKey before out m after r,
    o.events = before ++ [.sent out, .took m] ++ after → (∀ m', .took m' ∉ after) →
    out.body = .data (.httpRequest r) → HonestAnswer W L C oracleKey (serverKey pubkey) r m.value →
    o.key = some (finalAes (pinOracle W serverKey) pubkey privatekey o.ask.pin)
  onlyAnswered : ∀ aeskey, o.key = some aeskey → ∃ before out m r q privkey ske serverkey,
    o.events = before ++ [.sent out, .took m] ∧ out.body = .data (.httpRequest r) ∧
    openQuestion W L oracleKey r = some q ∧ W.ecPublicKeyFromPrivateKey privkey = some q.cke ∧
    W.ecPublicKeyFromPrivateKey q.session = some ske ∧
    DecryptsTo W C privkey ske m.value serverkey ∧ aeskey = W.hmacSha256 serverkey o.ask.pin

/-- The invariant of the runs, for every private key that the unit has or may still get. -/
structure Agreement (L : OracleWally) (oracleKey pubkey : Bytes) (w : Wire V) : Prop where
  pubkey_eq : oraclePubkey W w.store = pubkey
  agreed : ∀ privatekey, (∀ key, unitKeyOf W w.store = some key → key = privatekey) →
    ∀ o ∈ w.outcomes, Agreed W C L oracleKey pubkey privatekey o

variable {W C} {L : OracleWally} {oracleKey pubkey : Bytes}

/-- Everything in a list has a partner in the other. -/
theorem exists_of_forall₂ {α β : Type} {R : α → β → Prop} {as : List α} {bs : List β}
    (h : List.Forall₂ R as bs) : ∀ a ∈ as, ∃ b, R a b := by
  induction h with
  | nil => exact fun a ha => absurd ha List.not_mem_nil
  | @cons a b as bs hab _ ih =>
      intro a' ha'
      rcases List.mem_cons.1 ha' with rfl | ha'
      · exact ⟨b, hab⟩
      · exact ih a' ha'

/-- What is asked along a call. -/
theorem question_of_mem {ask : Ask} {d d' : ClientDev V} (h : Progress W ask d d')
    (hstart : d.ram.talk.events = []) {r : HttpRequest} (hr : r ∈ requests d'.ram.talk.events) :
    ∃ j keys, Question W d'.store ask j keys r := by
  obtain ⟨es, js, hevents, -, -, hasked⟩ := h.asked
  rw [hevents, hstart, List.nil_append] at hr
  exact exists_of_forall₂ hasked r hr

/-- **One call agrees.** -/
theorem agreed_of_concluded (hW : W.Lawful) (hL : L.Lawful W) {ask : Ask} {d d' : ClientDev V}
    {key : Option Bytes}
    (horacle : W.ecPublicKeyFromPrivateKey oracleKey = some (oraclePubkey W d'.store))
    (h : Concluded W C ask d d' key) (hstart : d.ram.talk.events = []) {privatekey : Bytes}
    (hunit : ∀ k, unitKeyOf W d'.store = some k → k = privatekey) :
    Agreed W C L oracleKey (oraclePubkey W d'.store) privatekey
      { ask := ask, events := d'.ram.talk.events, key := key } where
  opened := by
    intro r hr
    obtain ⟨j, keys, hq⟩ := question_of_mem h.progress hstart hr
    obtain ⟨q, unit, hopen, hhas, hpub, hcounter, hsecret, hentropy, -, -⟩ :=
      openQuestion_of_question hW hL horacle hq
    obtain rfl := hunit unit hhas
    refine ⟨q, hopen, ?_, hpub, hsecret, hentropy⟩
    rw [wireCounter_of_question hW hq, hcounter]
  answered := by
    intro serverKey before out m after r hevents hno hbody hm
    obtain ⟨j, keys, hq, hkey⟩ := h.heard before out m after r
      (by rw [hstart, List.nil_append]; exact hevents) hno hbody
    obtain ⟨q, unit, -, hhas, hpub, hsecret, hverdict⟩ :=
      pinVerdict_of_honestAnswer hW hL horacle hq hm
    obtain rfl := hunit unit hhas
    have hresult := hkey _ hverdict
    rw [hsecret] at hresult
    simp only [finalAes, pinOracle, hpub, Option.getD_some]
    exact hresult
  onlyAnswered := by
    intro aeskey haeskey
    obtain ⟨before, out, m, r, j, keys, serverkey, hevents, hbody, hq, hverdict, hmade⟩ :=
      h.answered aeskey haeskey
    obtain ⟨q, unit, hopen, -, -, -, -, -, hcke, hsession⟩ :=
      openQuestion_of_question hW hL horacle hq
    exact ⟨before, out, m, r, q, keys.privkey, keys.ske, serverkey, hevents, hbody, hopen,
      hcke ▸ hq.opened.cke, hsession, decryptsTo_of_pinVerdict hverdict, hmade⟩

/-- **What one step preserves.** -/
theorem keyedStep_agreement (hW : W.Lawful) (hL : L.Lawful W)
    (horacle : W.ecPublicKeyFromPrivateKey oracleKey = some pubkey) {w : Wire V}
    (h : Agreement W C L oracleKey pubkey w) (op : WireOp V) :
    Agreement W C L oracleKey pubkey (keyedStep W C w op) := by
  cases op with
  | elsewhere records => exact ⟨h.pubkey_eq, h.agreed⟩
  | call o =>
      obtain ⟨d', key, hstep, hconcluded⟩ := wireStep_call (W := W) (C := C) w o
      have hkept := hconcluded.progress.kept
      have hpubkey : oraclePubkey W d'.store = pubkey :=
        (oraclePubkey_of_kept hkept).trans h.pubkey_eq
      rw [keyedStep, hstep]
      refine ⟨hpubkey, ?_⟩
      intro privatekey hunit o' ho'
      rcases List.mem_append.1 ho' with ho' | ho'
      · exact h.agreed privatekey (fun k hk => hunit k (hkept.unit k hk)) o' ho'
      · obtain rfl := List.mem_singleton.1 ho'
        have hagreed := agreed_of_concluded hW hL (hpubkey ▸ horacle) hconcluded rfl hunit
        rwa [hpubkey] at hagreed

/-- **Along every run all calls agree with the oracle**: one private key of the unit is behind all
of them, so that the same PIN brings the same key with every honest answer, when it is set and
whenever it is entered again. -/
theorem oracle_handshake (hW : W.Lawful) (hL : L.Lawful W) (C : TinyCborStrings V)
    (st : Store ClientKey)
    (horacle : W.ecPublicKeyFromPrivateKey oracleKey = some (oraclePubkey W st))
    (ops : List (WireOp V)) :
    ∃ privatekey, ∀ o ∈ (Run.run (keyedStep W C) { store := st } ops).outcomes,
      Agreed W C L oracleKey (oraclePubkey W st) privatekey o := by
  have hstart : Agreement W C L oracleKey (oraclePubkey W st) ({ store := st } : Wire V) := by
    refine ⟨rfl, ?_⟩
    intro privatekey _ o ho
    exact absurd ho List.not_mem_nil
  have hend := Run.run_invariant (I := Agreement W C L oracleKey (oraclePubkey W st))
    (fun _ op h => keyedStep_agreement hW hL horacle h op) hstart ops
  refine ⟨(unitKeyOf W (Run.run (keyedStep W C) { store := st } ops).store).getD [], ?_⟩
  refine hend.agreed _ ?_
  intro key hkey
  rw [hkey, Option.getD_some]

end Runs

/-! ### A run with an oracle -/

def toyOracleKey : Bytes := List.replicate 32 7

def toyServerKey (_pubkey unit pinSecret : Bytes) : Bytes := toyDigest (pinSecret ++ unit)

/-- The host's message with the answer of the oracle. -/
def toyAnswer (r : HttpRequest) : Incoming Bytes where
  source := 2
  value := toyRequestHead "pin" ++ [0xa1] ++ shortText "data" ++ [0x78, 0x80] ++
    ((openQuestion toyPinWally toyOracleWally toyOracleKey r).bind fun q =>
      answerText toyPinWally q (List.replicate 16 0) (toyServerKey [] q.unit q.pinSecret)).getD []

/-- A call whose question is answered: the question does not depend on what comes after it. -/
def toyAnsweredCall (w : Wire Bytes) (document : Document) : AskOp Bytes :=
  let o := toyCall document []
  let asked := (wireStep toyPinWally tinyCborStrings w (.call { o with inbox := [] })).outcomes
  { o with inbox := (asked.drop w.outcomes.length).flatMap fun o =>
      (requests o.events).map toyAnswer }

/-- A new PIN, a login that is cut off, and a change of the addresses. -/
def toyShakenFirst : List (WireOp Bytes) :=
  [.call (toyAnsweredCall { store := fun _ => none } .setPin),
    .call (toyCall .getPin [.cutAfter]), .elsewhere (fun _ => some [0x61])]

/-- Then another login. -/
def toyShakenOps : List (WireOp Bytes) :=
  toyShakenFirst ++ [.call (toyAnsweredCall
    (Run.run (keyedStep toyPinWally tinyCborStrings) { store := fun _ => none } toyShakenFirst)
    .getPin)]

def toyShaken : Wire Bytes :=
  Run.run (keyedStep toyPinWally tinyCborStrings) { store := fun _ => none } toyShakenOps

/-- The new PIN and the second login bring the key of the PIN. -/
theorem oracle_handshake_toy :
    (toyShaken.outcomes.map fun o => o.key) =
      [some (finalAes (pinOracle toyPinWally toyServerKey) toyPinWally.serverPublicKey
        ((unitKeyOf toyPinWally toyShaken.store).getD []) [1, 2, 3, 4, 5, 6]), none,
      some (finalAes (pinOracle toyPinWally toyServerKey) toyPinWally.serverPublicKey
        ((unitKeyOf toyPinWally toyShaken.store).getD []) [1, 2, 3, 4, 5, 6])] ∧
    ∃ privatekey, ∀ o ∈ toyShaken.outcomes,
      Agreed toyPinWally tinyCborStrings toyOracleWally toyOracleKey toyPinWally.serverPublicKey
        privatekey o :=
  ⟨by decide +kernel, oracle_handshake toyPinWally_lawful toyOracleWally_lawful tinyCborStrings
    (fun _ => none) (by decide +kernel) toyShakenOps⟩

end Jade.Pinclient
