/-
**What a login unlocks.**

A login that succeeds on a device with a stored wallet has a key from the oracle, for the PIN that
was entered, and the key opens the wallet in flash; one that succeeds on a device without a stored
wallet leaves the wallet in flash under the key for the new PIN. So a wallet that was stored comes
back, and with the key it was stored under only, whatever the host does with the messages and
however often the device was restarted or a PIN was wrong in between.

Main definitions:

* `Jade.Pinclient.Later` — the exchange goes on, and the key of the unit and the oracle's key stay;
* `Jade.Pinclient.Obtained` — where the key of a PIN comes from;
* `Jade.Pinclient.Unlocked`, `Jade.Pinclient.Stored` — what a login that succeeds has done;
* `Jade.Pinclient.LoginOutcome` — what comes of a login;
* `Jade.Pinclient.Returned` — a stored wallet has come back.

Main results:

* `Jade.Pinclient.sat_authUserProcess` — **one login**;
* `Jade.Pinclient.stored_wallet_returns` — **the wallet that was stored comes back**.
-/

import Jade.Pinserver.Handshake
import Jade.Pinserver.LoginSteps

set_option relaxedAutoImplicit false
set_option autoImplicit false

namespace Jade.Pinclient

open Exec Flash

/-! ### The wallet in memory -/

section Wallets

variable {P : KeyPrims}

/-- These keys are those of a wallet that was stored: of its mnemonic with some passphrase, or the
stored ones. -/
def Yields (P : KeyPrims) : Payload → Keychain → Prop
  | .entropy e, k => ∃ mnemonic passphrase s s', P.bip39MnemonicFromBytes e = some mnemonic ∧
      (keychainDeriveFromMnemonic P mnemonic (some passphrase)).run s = .ok (some k) s'
  | .keys xpriv path masterUnblindingKey, k =>
      k.xpriv = xpriv ∧ k.gaservicePath = path ∧ k.masterUnblindingKey = masterUnblindingKey

/-- Loading that succeeds had an attempt left, and found the wallet. -/
theorem sat_keychainLoad_unlocks (aeskey : Bytes) (d : Dev NvsKey Ram PinTest) :
    Sat (keychainLoad P.toPrims aeskey)
      (fun ok d' => ok = true → aeskey.length = AES_KEY_LEN_256 ∧ Ready d ∧
        ∃ p, loads P.toPrims aeskey d.store = some p ∧ d'.ram.Holds (some p))
      (fun _ _ => True) d := by
  have hrecord := sat_keychainLoad_record P.toPrims aeskey d
  by_cases hnone : d.ram.Holds none
  · refine ((sat_keychainLoad_loads P.toPrims aeskey hnone).and hrecord).mono ?_
      (fun _ _ _ => trivial)
    rintro ok d' ⟨⟨hor, -⟩, -, hrecord⟩ hok
    obtain ⟨-, hkey, -, hready⟩ := hrecord hok
    rcases hor with ⟨hfalse, -⟩ | ⟨-, hsome, hholds, -⟩
    · rw [hok] at hfalse
      cases hfalse
    · obtain ⟨p, hp⟩ := Option.isSome_iff_exists.1 hsome
      rw [hp] at hholds
      exact ⟨hkey, hready, p, hp, hholds⟩
  · -- a wallet in memory is not replaced
    refine hrecord.mono ?_ (fun _ _ _ => trivial)
    rintro ok d' ⟨-, hrecord⟩ hok
    exact absurd (hrecord hok).2.2.1 hnone

/-- The record of the restriction is not the wallet. -/
theorem saved_update_networktype {aeskey cleartext : Bytes} {st : Store NvsKey}
    (h : Saved P aeskey cleartext st) (v : Option Bytes) :
    Saved P aeskey cleartext (Function.update st .networktype v) := by
  have hcommit := (frame_saved P aeskey cleartext).commit v ⟨st, Ram.init, [], []⟩ h
  exact ((sat_commit _ _).1 hcommit).1 rfl

/-- Entropy that was loaded is not empty. -/
theorem ne_nil_of_loads {aeskey : Bytes} {st : Store NvsKey} {e : Bytes}
    (h : loads P.toPrims aeskey st = some (.entropy e)) : e ≠ [] := by
  obtain ⟨serialized, -, hparsed⟩ := Option.bind_eq_some_iff.1 h
  exact ne_nil_of_parsed hparsed

/-- The keys of the wallet that is in memory. -/
theorem sat_keychainCompleteDerivation_yields {p : Payload} (passphrase : Bytes)
    {d : Dev NvsKey Ram PinTest} (hd : d.ram.Holds (some p)) :
    Sat (keychainCompleteDerivationWithPassphrase P passphrase)
      (fun ok d' => (ok = true → ∃ k, d'.ram.keychainData = some k ∧ Yields P p k) ∧
        (ok = false → d'.ram.keychainData = d.ram.keychainData))
      (fun _ _ => True) d := by
  have hfails : (false = true → ∃ k, d.ram.keychainData = some k ∧ Yields P p k) ∧
      (false = false → d.ram.keychainData = d.ram.keychainData) :=
    ⟨fun h => Bool.noConfusion h, fun _ => rfl⟩
  simp only [keychainCompleteDerivationWithPassphrase, keychainRequiresPassphrase, sat_bind,
    sat_getRam, sat_pure, sat_ite]
  refine ⟨fun _ => by simp, fun hreq => ?_⟩
  cases p with
  | keys xpriv path mbk =>
      obtain ⟨hentropy, -⟩ := hd
      rw [hentropy] at hreq
      simp at hreq
  | entropy e =>
      obtain ⟨-, hentropy⟩ := hd
      rw [hentropy]
      cases hmnemonic : P.bip39MnemonicFromBytes e with
      | none => exact (sat_pure _).2 hfails
      | some mnemonic =>
          simp only [sat_bind]
          refine ((silent_keychainDeriveFromMnemonic P mnemonic _).sat_self d).mono ?_
            (fun _ _ _ => trivial)
          rintro r _ ⟨rfl, hrun⟩
          cases r with
          | none => exact (sat_pure _).2 hfails
          | some keydata =>
              simp only [keychainSet, sat_bind, sat_storageGetKeyFlags, sat_modifyRam]
              refine (sat_pure _).2 ⟨fun _ => ?_, fun h => Bool.noConfusion h⟩
              exact ⟨keydata, rfl, mnemonic, passphrase, _, _, hmnemonic, hrun⟩

/-- Changing the key leaves the wallet in memory alone. -/
theorem sat_keychainReencrypt_wallet (hP : P.Lawful) (currAeskey newAeskey : Bytes) (iv : Iv)
    (d : Dev NvsKey Ram PinTest) :
    Sat (keychainReencrypt P.toPrims currAeskey newAeskey iv)
      (fun _ d' => d'.ram.wallet = d.ram.wallet) (fun _ _ => True) d := by
  simp only [keychainReencrypt, keychainHasPin, sat_ite, sat_pure, sat_bind, sat_getRam]
  refine ⟨fun _ => trivial, fun hlen => ⟨fun _ => trivial, fun _ => ?_⟩⟩
  have hcurr : currAeskey.length = AES_KEY_LEN_256 := not_not.1 fun h => hlen (.inl h)
  refine (sat_keychainLoadAndDecryptBlob_stored P.toPrims hcurr d).mono ?_ (fun _ _ _ => trivial)
  rintro r d₁ ⟨hwallet, -⟩
  cases r with
  | none => exact (sat_pure _).2 hwallet
  | some serialized =>
      refine (sat_keychainEncryptAndSaveBlob_saved hP newAeskey iv serialized d₁).mono ?_
        (fun _ _ h => h)
      intro _ d₂ h
      rw [h.1]
      exact hwallet

end Wallets

/-! ### Later -/

section Later

variable {V : Type} (W : PinWally)

/-- The exchange has gone on, and the two keys have stayed. -/
structure Later (d d' : ClientDev V) : Prop where
  grown : Grown d d'
  pubkey : oraclePubkey W d'.store = oraclePubkey W d.store
  unit : ∀ key, unitKeyOf W d.store = some key → unitKeyOf W d'.store = some key

variable {W} {d d' d'' : ClientDev V}

theorem Later.trans (h : Later W d d') (h' : Later W d' d'') : Later W d d'' where
  grown := h.grown.trans h'.grown
  pubkey := h'.pubkey.trans h.pubkey
  unit := fun key hkey => h'.unit key (h.unit key hkey)

/-- The settings have stayed, and the exchange. -/
theorem later_of_settings (htalk : d'.ram.talk = d.ram.talk)
    (hpubkey : d'.store (.settings .pinsvrpubkey) = d.store (.settings .pinsvrpubkey))
    (hunit : d'.store (.settings .privatekey) = d.store (.settings .privatekey)) :
    Later W d d' where
  grown := (quiet_of_talk htalk).grown
  pubkey := by simp only [oraclePubkey, fixedRecord, settings, hpubkey]
  unit := by
    intro key hkey
    rw [← hkey]
    simp only [unitKeyOf, fixedRecord, settings, hunit]

theorem Later.refl (d : ClientDev V) : Later W d d := later_of_settings rfl rfl rfl

/-- The keychain does neither. -/
theorem later_putWallet (w : Dev NvsKey Ram PinTest) (d : ClientDev V) :
    Later W d (putWallet w d) := later_of_settings rfl rfl rfl

theorem later_of_kept (h : Kept W d d') (hgrown : Grown d d') : Later W d d' where
  grown := hgrown
  pubkey := oraclePubkey_of_kept h
  unit := h.unit

theorem Said.later (h : Said d d') : Later W d d' := later_of_kept h.kept h.quiet.grown

theorem Still.later (h : Still d d') : Later W d d' :=
  later_of_kept h.kept (quiet_of_talk h.talk).grown

end Later

/-! ### What a login has done -/

section Logins

variable {V : Type} (L : AuthLib V)

/-- **Where the key of a PIN comes from**: a message that was taken right after a question for the
PIN opens under the keys of the question. -/
structure Obtained (document : Document) (d : ClientDev V) (pin : Pin) (aeskey : Bytes) : Prop where
  heard : ∃ before out m after r j keys serverkey,
    d.ram.talk.events = before ++ [.sent out, .took m] ++ after ∧
    out.body = .data (.httpRequest r) ∧
    Question L.wally d.store ⟨pin.toList, document, decide (document = .setPin)⟩ j keys r ∧
    pinVerdict L.wally L.cbor.toTinyCborStrings keys (some m) = .ok (.success serverkey) ∧
    aeskey = L.wally.hmacSha256 serverkey pin.toList

/-- The wallet in flash was opened with the key for the PIN that was entered. -/
structure Unlocked (u : UserInput) (d d' : ClientDev V) : Prop where
  opened : ∃ pin aeskey p k, u.pin = some pin ∧ Obtained L .getPin d' pin aeskey ∧
    aeskey.length = AES_KEY_LEN_256 ∧ (1 ≤ counterOf (walletStore d.store) ∧
      counterOf (walletStore d.store) ≤ 3) ∧
    loads L.keys.toPrims aeskey (walletStore d.store) = some p ∧
    d'.ram.keychain.keychainData = some k ∧ Yields L.keys p k

/-- The wallet that is going to be stored: the one in memory, or the one of the mnemonic that the
user enters when there is none. -/
def Fresh (u : UserInput) (d : ClientDev V) (p : Payload) : Prop :=
  if d.ram.keychain.keychainData.isSome then d.ram.keychain.payload = some p
  else ∃ mnemonic e, u.mnemonic = some mnemonic ∧
    L.keys.bip39MnemonicToBytes mnemonic = some e ∧ p = .entropy e

/-- The wallet was put into flash under the key for the PIN that was confirmed. -/
structure Stored (u : UserInput) (p : Payload) (d : ClientDev V) : Prop where
  saved : ∃ pin aeskey, confirmedPin u.newPin = some pin ∧ Obtained L .setPin d pin aeskey ∧
    p.Storable L.keys ∧ Saved L.keys aeskey (p.encode L.keys.toPrims) (walletStore d.store)

variable {L} {d d' d'' : ClientDev V} {document : Document} {u : UserInput} {p : Payload}

theorem Obtained.later {pin : Pin} {aeskey : Bytes} (h : Obtained L document d pin aeskey)
    (hlater : Later L.wally d d') : Obtained L document d' pin aeskey := by
  obtain ⟨before, out, m, after, r, j, keys, serverkey, hevents, hbody, hq, hverdict, hmade⟩ :=
    h.heard
  obtain ⟨es, hes⟩ := hlater.grown
  refine ⟨before, out, m, after ++ es, r, j, keys, serverkey, ?_, hbody,
    hq.congr hlater.pubkey hlater.unit, hverdict, hmade⟩
  rw [hes, hevents, List.append_assoc]

theorem PinAsked.obtained {typed : Option Pin} {pin : Pin} {aeskey : Bytes}
    (h : PinAsked L document typed d d' (some (pin, aeskey))) :
    typed = some pin ∧ Obtained L document d' pin aeskey := by
  obtain ⟨htyped, before, out, m, r, j, keys, serverkey, hevents, hbody, hq, hverdict, hmade⟩ :=
    h.answered pin aeskey rfl
  refine ⟨htyped, before, out, m, [], r, j, keys, serverkey, ?_, hbody, hq, hverdict, hmade⟩
  rw [hevents, List.append_nil]

theorem Unlocked.later (h : Unlocked L u d d') (hlater : Later L.wally d' d'')
    (hdata : d''.ram.keychain.keychainData = d'.ram.keychain.keychainData) :
    Unlocked L u d d'' := by
  obtain ⟨pin, aeskey, p, k, hpin, hobtained, hkey, hready, hp, hk, hyields⟩ := h.opened
  exact ⟨pin, aeskey, p, k, hpin, hobtained.later hlater, hkey, hready, hp, hdata.trans hk, hyields⟩

/-- Only the records of the wallet before the login matter. -/
theorem Unlocked.before (h : Unlocked L u d' d'')
    (hstore : walletStore d'.store = walletStore d.store) : Unlocked L u d d'' := by
  obtain ⟨pin, aeskey, p, k, hpin, hobtained, hkey, hready, hp, hk, hyields⟩ := h.opened
  rw [hstore] at hready hp
  exact ⟨pin, aeskey, p, k, hpin, hobtained, hkey, hready, hp, hk, hyields⟩

theorem Stored.later (h : Stored L u p d) (hlater : Later L.wally d d')
    (hsaved : ∀ aeskey cleartext, Saved L.keys aeskey cleartext (walletStore d.store) →
      Saved L.keys aeskey cleartext (walletStore d'.store)) : Stored L u p d' := by
  obtain ⟨pin, aeskey, hpin, hobtained, hstorable, hsave⟩ := h.saved
  exact ⟨pin, aeskey, hpin, hobtained.later hlater, hstorable, hsaved _ _ hsave⟩

theorem walletStore_of_kept {W : PinWally} (h : Kept W d d') :
    walletStore d'.store = walletStore d.store := by
  funext k
  exact h.frame (.settings (.wallet k)) (by simp) (by simp)

theorem keychain_of_kept {W : PinWally} (h : Kept W d d') :
    d'.ram.keychain = d.ram.keychain := congrArg Prod.fst h.held

/-! ### The steps -/

/-- The wallet is set again, for another port. -/
theorem sat_resetKeychain (temporary : Bool) (d : ClientDev V) :
    Sat (resetKeychain temporary : ClientM V Unit)
      (fun _ d' => Later L.wally d d' ∧ walletStore d'.store = walletStore d.store ∧
        d'.ram.keychain.keychainData = d.ram.keychain.keychainData)
      (fun _ _ => True) d := by
  rw [resetKeychain, sat_bind]
  refine (sat_messageSource d).mono ?_ (fun _ _ _ => trivial)
  intro source d₁ hd₁
  subst d₁
  simp only [sat_bind, sat_getRam]
  cases hdata : d.ram.keychain.keychainData with
  | none => exact (sat_throw _).2 trivial
  | some keydata =>
      simp only [sat_onWallet, keychainSet, sat_bind, sat_storageGetKeyFlags, sat_modifyRam]
      exact ⟨later_putWallet _ d, rfl, rfl⟩

/-- The flag for a new PIN is taken back. -/
theorem sat_clearRequest (d : ClientDev V) :
    Sat (modifyRam fun r => { r with changePinRequested := false } : ClientM V Unit)
      (fun _ d' => Later L.wally d d' ∧ walletStore d'.store = walletStore d.store ∧
        d'.ram.keychain.keychainData = d.ram.keychain.keychainData)
      (fun _ _ => True) d := by
  rw [sat_modifyRam]
  exact ⟨later_of_settings rfl rfl rfl, rfl, rfl⟩

/-- A rejection is the end. -/
theorem sat_rejectCurrent_end {α : Type} (code : ℤ) (errmsg : String) (a : α) (d : ClientDev V) :
    Sat (do rejectCurrent L code errmsg; return a : ClientM V α) (fun a' d' => a' = a ∧ Said d d')
      (fun _ _ => True) d := by
  rw [sat_bind]
  exact (sat_rejectCurrent code errmsg d).mono (fun _ _ h => (sat_pure _).2 ⟨rfl, h⟩)
    (fun _ _ _ => trivial)

/-- Changing the PIN leaves the wallet in memory alone. -/
theorem sat_changePinIfRequested (hP : L.keys.Lawful) (aeskey : Bytes) (suppressConfirmation : Bool)
    (u : UserInput) (d : ClientDev V) :
    Sat (changePinIfRequested L aeskey suppressConfirmation u)
      (fun _ d' => Later L.wally d d' ∧
        d'.ram.keychain.keychainData = d.ram.keychain.keychainData)
      (fun _ _ => True) d := by
  have hchange : ∀ next : Option (Pin × Bytes) → ClientM V Unit, next none = pure () →
      (∀ pin newAeskey, next (some (pin, newAeskey)) = do
        let iv ← drawIv
        let _ ← onWallet (keychainReencrypt L.keys.toPrims aeskey newAeskey iv)) →
      ∀ d₁ : ClientDev V, Later L.wally d d₁ →
      d₁.ram.keychain.keychainData = d.ram.keychain.keychainData →
      Sat (setPinGetAeskey L u >>= next)
        (fun _ d' => Later L.wally d d' ∧
          d'.ram.keychain.keychainData = d.ram.keychain.keychainData)
        (fun _ _ => True) d₁ := by
    intro next hnone hsome d₁ hlater hdata
    rw [sat_bind]
    refine (sat_setPinGetAeskey u d₁).mono ?_ (fun _ _ _ => trivial)
    intro r d₂ hasked
    have hlater₂ := hlater.trans (later_of_kept hasked.kept hasked.grown)
    have hdata₂ : d₂.ram.keychain.keychainData = d.ram.keychain.keychainData := by
      rw [keychain_of_kept hasked.kept, hdata]
    cases r with
    | none =>
        rw [hnone]
        exact (sat_pure _).2 ⟨hlater₂, hdata₂⟩
    | some entry =>
        obtain ⟨pin, newAeskey⟩ := entry
        rw [hsome]
        simp only [drawIv, sat_bind, sat_pure]
        refine (sat_getRandom AES_BLOCK_LEN).mono ?_ (fun _ _ h => h.elim)
        rintro bytes d₃ ⟨hstill, -⟩
        rw [sat_onWallet]
        refine (sat_keychainReencrypt_wallet hP aeskey newAeskey _ (walletDev d₃)).mono ?_
          (fun _ _ _ => trivial)
        intro _ w hwallet
        refine ⟨(hlater₂.trans hstill.later).trans (later_putWallet w d₃), ?_⟩
        have hw : w.ram.keychainData = d₃.ram.keychain.keychainData := congrArg Prod.fst hwallet
        rw [putWallet_keychain, hw, keychain_of_kept (W := L.wally) hstill.kept, hdata₂]
  rw [changePinIfRequested, sat_bind, sat_getRam, sat_ite]
  refine ⟨fun _ => ?_, fun _ => (sat_pure _).2 ⟨.refl d, rfl⟩⟩
  cases suppressConfirmation with
  | true =>
      simp only [Bool.not_true, Bool.false_eq_true, if_false, Bool.true_or, if_true]
      exact hchange _ rfl (fun _ _ => rfl) d (.refl d) rfl
  | false =>
      simp only [Bool.not_false, if_true, Bool.false_or, sat_bind]
      refine (sat_showScreen _ d).mono ?_ (fun _ _ h => h.elim)
      rintro _ d₁ ⟨htalked, hevents⟩
      have hsaid := said_of_shown htalked hevents
      have hdata : d₁.ram.keychain.keychainData = d.ram.keychain.keychainData := by
        rw [keychain_of_kept (W := L.wally) hsaid.kept]
      rw [sat_ite]
      exact ⟨fun _ => hchange _ rfl (fun _ _ => rfl) d₁ hsaid.later hdata,
        fun _ => (sat_pure _).2 ⟨hsaid.later, hdata⟩⟩

/-- The passphrase, when there is a mnemonic to go with it. -/
theorem sat_completeDerivation (u : UserInput) {aeskey : Bytes} {st : Store NvsKey}
    (hp : loads L.keys.toPrims aeskey st = some p) (hd : d.ram.keychain.Holds (some p)) :
    Sat (completeDerivation L u)
      (fun ok d' => Later L.wally d d' ∧ (ok = true →
        ∃ k, d'.ram.keychain.keychainData = some k ∧ Yields L.keys p k) ∧
        (ok = false → d'.ram.keychain.keychainData = none))
      (fun _ _ => True) d := by
  have hholds : (walletDev d).ram.Holds (some p) := hd
  have hwallet : Sat (do
        if ← keychainRequiresPassphrase then
          let passphrase ← getPassphrase u.passphrase
          keychainCompleteDerivationWithPassphrase L.keys passphrase
        else return true : KeychainM Bool)
      (fun ok w => (ok = true → ∃ k, w.ram.keychainData = some k ∧ Yields L.keys p k) ∧
        (ok = false → w.ram.keychainData = none))
      (fun _ _ => True) (walletDev d) := by
    simp only [keychainRequiresPassphrase, sat_bind, sat_getRam, sat_pure, sat_ite]
    refine ⟨fun hreq => ?_, fun hreq => ⟨fun _ => ?_, fun h => Bool.noConfusion h⟩⟩
    · refine (sat_getPassphrase u.passphrase _).mono ?_ (fun _ _ _ => trivial)
      intro passphrase w hw
      obtain ⟨hw, -⟩ := hw
      subst w
      have hnone : (walletDev d).ram.keychainData = none := by
        simpa using And.left (by simpa using hreq)
      refine (sat_keychainCompleteDerivation_yields passphrase hholds).mono ?_ (fun _ _ h => h)
      exact fun _ _ h => ⟨h.1, fun hfalse => (h.2 hfalse).trans hnone⟩
    · cases p with
      | entropy e =>
          obtain ⟨hdata, hentropy⟩ := hholds
          rw [hdata, hentropy] at hreq
          simp [ne_nil_of_loads hp] at hreq
      | keys xpriv path mbk =>
          obtain ⟨-, k, hk, hyields⟩ := hholds
          exact ⟨k, hk, hyields⟩
  rw [completeDerivation, sat_onWallet]
  exact hwallet.mono (fun _ w h => ⟨later_putWallet w d, h⟩) (fun _ _ _ => trivial)

/-- Where the check comes to its end, nothing has happened. -/
theorem sat_checkWalletErasePin (pin : Pin) (d : ClientDev V) :
    Sat (checkWalletErasePin L pin) (fun _ d' => d' = d) (fun _ _ => True) d := by
  simp only [checkWalletErasePin, sat_bind, sat_get, sat_ite]
  refine ⟨fun _ => ?_, fun _ => (sat_pure _).2 rfl⟩
  -- the device is switched off in the end
  refine (sat_self _ _).mono ?_ (fun _ _ _ => trivial)
  intro _ d₁ _
  refine (sat_self _ _).mono ?_ (fun _ _ _ => trivial)
  exact fun _ _ _ => (sat_throw _).2 trivial

/-- **Unlocking.** -/
theorem sat_getPinLoadKeys (hP : L.keys.Lawful) (suppressConfirmation : Bool) (u : UserInput)
    (d : ClientDev V) :
    Sat (getPinLoadKeys L suppressConfirmation u)
      (fun ok d' => (ok = true → Unlocked L u d d') ∧
        (ok = false → d'.ram.keychain.keychainData = none))
      (fun _ _ => True) d := by
  have hfails : ∀ d' : ClientDev V, d'.ram.keychain.keychainData = none →
      (false = true → Unlocked L u d d') ∧
        (false = false → d'.ram.keychain.keychainData = none) :=
    fun _ hnone => ⟨fun h => Bool.noConfusion h, fun _ => hnone⟩
  simp only [getPinLoadKeys, sat_bind, sat_getRam, sat_assert, implies_true, and_true]
  intro hnone
  rw [Option.isNone_iff_eq_none] at hnone
  refine (sat_getPinGetAeskey _ u d).mono ?_ (fun _ _ _ => trivial)
  intro r d₁ hasked
  have hnone₁ : d₁.ram.keychain.keychainData = none := by
    rw [keychain_of_kept hasked.kept, hnone]
  cases r with
  | none => exact (sat_pure _).2 (hfails d₁ hnone₁)
  | some entry =>
      obtain ⟨pin, aeskey⟩ := entry
      obtain ⟨hpin, hobtained⟩ := hasked.obtained
      have hstore := walletStore_of_kept hasked.kept
      simp only [sat_bind, sat_onWallet]
      refine ((sat_keychainLoad_unlocks aeskey (walletDev d₁)).and
        (sat_keychainLoad_none L.keys.toPrims aeskey hnone₁)).mono ?_ (fun _ _ _ => trivial)
      rintro loaded w ⟨hloads, hempty⟩
      cases loaded with
      | false =>
          simp only [Bool.not_false, if_true, sat_bind]
          refine (sat_checkWalletErasePin pin (putWallet w d₁)).mono ?_ (fun _ _ _ => trivial)
          intro _ d₂ hd₂
          subst d₂
          refine (sat_replyBool (L := L) false _).mono ?_ (fun _ _ _ => trivial)
          intro _ d₃ hsaid
          refine (sat_pure _).2 (hfails d₃ ?_)
          rw [keychain_of_kept (W := L.wally) hsaid.kept]
          exact hempty.1 rfl
      | true =>
          obtain ⟨hkey, hready, p, hp, hholds⟩ := hloads rfl
          simp only [Bool.not_true, Bool.false_eq_true, if_false, sat_bind]
          refine (sat_completeDerivation u hp (d := putWallet w d₁) hholds).mono ?_
            (fun _ _ _ => trivial)
          rintro derived d₂ ⟨hlater₂, hyields, hunderived⟩
          cases derived with
          | false =>
              simp only [Bool.not_false, if_true, sat_bind]
              refine (sat_rejectCurrent _ _ d₂).mono ?_ (fun _ _ _ => trivial)
              intro _ d₃ hsaid
              refine (sat_pure _).2 (hfails d₃ ?_)
              rw [keychain_of_kept (W := L.wally) hsaid.kept]
              exact hunderived rfl
          | true =>
              obtain ⟨k, hk, hyields⟩ := hyields rfl
              have hunlocked : Unlocked L u d d₂ := by
                refine ⟨pin, aeskey, p, k, hpin,
                  hobtained.later ((later_putWallet w d₁).trans hlater₂), hkey, ?_, ?_, hk, hyields⟩
                · rw [← hstore]
                  exact ⟨hready.pos, hready.le⟩
                · rw [← hstore]
                  exact hp
              simp only [Bool.not_true, Bool.false_eq_true, if_false, sat_bind]
              refine (sat_resetKeychain (L := L) false d₂).mono ?_ (fun _ _ _ => trivial)
              rintro _ d₃ ⟨hlater₃, -, hdata₃⟩
              refine (sat_changePinIfRequested hP aeskey suppressConfirmation u d₃).mono ?_
                (fun _ _ _ => trivial)
              rintro _ d₄ ⟨hlater₄, hdata₄⟩
              refine (sat_clearRequest (L := L) d₄).mono ?_ (fun _ _ _ => trivial)
              rintro _ d₅ ⟨hlater₅, -, hdata₅⟩
              refine (sat_replyBool (L := L) true d₅).mono ?_ (fun _ _ _ => trivial)
              intro _ d₆ hsaid
              refine (sat_pure _).2 ⟨fun _ => ?_, fun h => Bool.noConfusion h⟩
              refine ((((hunlocked.later hlater₃ hdata₃).later hlater₄ hdata₄).later hlater₅
                hdata₅).later hsaid.later ?_)
              rw [keychain_of_kept (W := L.wally) hsaid.kept]

/-- **Storing.** -/
theorem sat_setPinSaveKeys (hP : L.keys.Lawful) (u : UserInput) (d : ClientDev V)
    (hvalid : d.ram.keychain.mnemonicEntropy = [] → ∀ k, d.ram.keychain.keychainData = some k →
      L.keys.ValidKey k.xpriv) :
    Sat (setPinSaveKeys L u)
      (fun ok d' => ok = true → ∃ p, d.ram.keychain.payload = some p ∧ Stored L u p d')
      (fun _ _ => True) d := by
  simp only [setPinSaveKeys, sat_bind, sat_getRam, sat_assert, implies_true, and_true]
  intro _ _
  have htemporary : Sat (onWallet keychainHasTemporary : ClientM V Bool) (fun _ d' => d' = d)
      (fun _ _ => True) d := by
    rw [sat_onWallet]
    refine (keeps_keychainHasTemporary (I := fun w => w = walletDev d) _ rfl).mono ?_
      (fun _ _ _ => trivial)
    intro _ w hw
    rw [hw]
    exact putWallet_walletDev d
  refine htemporary.mono ?_ (fun _ _ _ => trivial)
  intro _ d₀ hd₀ _
  subst d₀
  refine (sat_setPinGetAeskey u d).mono ?_ (fun _ _ _ => trivial)
  intro r d₁ hasked
  cases r with
  | none => exact (sat_pure _).2 fun h => Bool.noConfusion h
  | some entry =>
      obtain ⟨pin, aeskey⟩ := entry
      obtain ⟨hpin, hobtained⟩ := hasked.obtained
      have hkeychain := keychain_of_kept hasked.kept
      simp only [drawIv, sat_bind, sat_pure]
      refine (sat_getRandom AES_BLOCK_LEN).mono ?_ (fun _ _ h => h.elim)
      rintro bytes d₂ ⟨hstill, -⟩
      have hkeychain₂ : d₂.ram.keychain = d.ram.keychain := by
        rw [keychain_of_kept (W := L.wally) hstill.kept, hkeychain]
      simp only [sat_onWallet]
      have hvalid₂ : (walletDev d₂).ram.mnemonicEntropy = [] → ∀ k,
          (walletDev d₂).ram.keychainData = some k → L.keys.ValidKey k.xpriv := by
        rw [walletDev, hkeychain₂]
        exact hvalid
      refine (sat_keychainStore_loads hP aeskey _ hvalid₂).mono ?_ (fun _ _ _ => trivial)
      intro stored w hstored
      cases stored with
      | false =>
          simp only [Bool.not_false, if_true]
          refine (sat_rejectCurrent_end _ _ false _).mono ?_ (fun _ _ _ => trivial)
          rintro ok _ ⟨hfalse, -⟩ hok
          rw [hfalse] at hok
          cases hok
      | true =>
          obtain ⟨-, p, hstorable, hpayload, hsaved⟩ := hstored rfl
          rw [walletDev, hkeychain₂] at hpayload
          have hdone : Stored L u p (putWallet w d₂) :=
            ⟨pin, aeskey, hpin, hobtained.later (hstill.later.trans (later_putWallet w d₂)),
              hstorable, hsaved⟩
          simp only [Bool.not_true, Bool.false_eq_true, if_false, sat_bind]
          refine (sat_resetKeychain (L := L) false _).mono ?_ (fun _ _ _ => trivial)
          rintro _ d₃ ⟨hlater₃, hstore₃, -⟩
          refine (sat_clearRequest (L := L) d₃).mono ?_ (fun _ _ _ => trivial)
          rintro _ d₄ ⟨hlater₄, hstore₄, -⟩
          refine (sat_replyBool (L := L) true d₄).mono ?_ (fun _ _ _ => trivial)
          intro _ d₅ hsaid
          refine (sat_pure _).2 fun _ => ⟨p, hpayload, ?_⟩
          refine hdone.later ((hlater₃.trans hlater₄).trans hsaid.later) ?_
          intro aeskey' cleartext hsave
          rw [walletStore_of_kept (W := L.wally) hsaid.kept, hstore₄, hstore₃]
          exact hsave

/-! ### One login -/

/-- The wallet in memory is unlocked for the port of the message at hand. -/
def UnlockedFor (d : ClientDev V) : Prop :=
  d.ram.keychain.keychainData.isSome ∧
    d.ram.keychain.keychainUserdata = (d.ram.talk.current.map (·.source)).getD 0

theorem sat_unlockedByMessageSource (d : ClientDev V) :
    Sat (unlockedByMessageSource : ClientM V Bool)
      (fun ok d' => d' = d ∧ (ok = true ↔ UnlockedFor d)) (fun _ _ => False) d := by
  simp only [unlockedByMessageSource, messageSource, currentMessage, sat_bind, sat_getRam,
    sat_onTalk, sat_get, sat_pure, UnlockedFor, Bool.and_eq_true, decide_eq_true_eq]
  exact ⟨rfl, trivial⟩

/-- The wallet in memory, if it is unsaved, can be stored and read back. -/
def ValidWallet (L : AuthLib V) (d : ClientDev V) : Prop :=
  d.ram.keychain.mnemonicEntropy = [] → ∀ k, d.ram.keychain.keychainData = some k →
    L.keys.ValidKey k.xpriv

/-- **What a login that succeeds has done**, unless the wallet was unlocked for the sender. -/
structure LoggedIn (L : AuthLib V) (u : UserInput) (d d' : ClientDev V) : Prop where
  unlocked : d.ram.keychain.hasEncryptedBlob = true → ¬ UnlockedFor d → Unlocked L u d d'
  stored : d.ram.keychain.hasEncryptedBlob = false → ∃ p, Fresh L u d p ∧ Stored L u p d'

/-- **What comes of a login.** One that does not succeed leaves a locked device locked. -/
structure LoginOutcome (L : AuthLib V) (u : UserInput) (d d' : ClientDev V) (ok : Bool) : Prop where
  success : ok = true → LoggedIn L u d d'
  failure : ok = false → d.ram.keychain.hasEncryptedBlob = true →
    d.ram.keychain.keychainData = none → d'.ram.keychain.keychainData = none

/-- Nothing has happened to the wallet. -/
theorem loginOutcome_of_keychain (h : d'.ram.keychain = d.ram.keychain) :
    LoginOutcome L u d d' false where
  success := fun h => Bool.noConfusion h
  failure := by
    intro _ _ hnone
    rw [h, hnone]

/-- A wallet is made of the mnemonic, or there is still none. -/
theorem sat_initialise (u : UserInput) {d : ClientDev V}
    (hnone : d.ram.keychain.keychainData = none) :
    Sat (onWallet (initialiseWithMnemonic L.keys false u.mnemonic u.advancedMode u.passphrase) :
        ClientM V Unit)
      (fun _ d' => ∀ k, d'.ram.keychain.keychainData = some k →
        d'.ram.keychain.mnemonicEntropy ≠ [] ∧
          Fresh L u d (.entropy d'.ram.keychain.mnemonicEntropy))
      (fun _ _ => True) d := by
  rw [sat_onWallet]
  cases hmnemonic : u.mnemonic with
  | none =>
      simp only [initialiseWithMnemonic, keychainHasPin, sat_bind, sat_getRam, sat_assert, sat_pure,
        implies_true, and_true]
      intro _ _ k hk
      have hnone' : (walletDev d).ram.keychainData = none := hnone
      rw [putWallet_keychain, hnone'] at hk
      cases hk
  | some mnemonic =>
      refine (sat_initialiseWithMnemonic L.keys mnemonic u.advancedMode u.passphrase _).mono ?_
        (fun _ _ _ => trivial)
      intro _ w h k hk
      obtain ⟨hne, hbytes, -⟩ := h k hk
      refine ⟨hne, ?_⟩
      rw [Fresh, hnone]
      simp only [Option.isSome_none, Bool.false_eq_true, if_false]
      exact ⟨mnemonic, _, hmnemonic, hbytes, rfl⟩

/-- The five cases. -/
theorem sat_authUserLogin (hP : L.keys.Lawful) (suppressConfirmation : Bool) (u : UserInput)
    {d : ClientDev V} (htemporary : d.ram.keychain.keychainTemporary = false)
    (hvalid : ValidWallet L d) :
    Sat (authUserLogin L suppressConfirmation u)
      (fun ok d' => LoginOutcome L u d d' ok) (fun _ _ => True) d := by
  have hlook : Sat (onWallet keychainHasTemporary : ClientM V Bool)
      (fun b d' => d' = d ∧ b = false) (fun _ _ => True) d := by
    simp only [sat_onWallet, keychainHasTemporary, sat_bind, sat_getRam, sat_assert, sat_pure,
      implies_true, and_true]
    exact fun _ => ⟨putWallet_walletDev d, htemporary⟩
  rw [authUserLogin, sat_bind]
  refine hlook.mono ?_ (fun _ _ _ => trivial)
  rintro b d₀ ⟨hd₀, rfl⟩
  subst d₀
  simp only [Bool.false_eq_true, if_false, sat_bind, sat_getRam, sat_ite]
  refine ⟨fun hflag => ?_, fun hflag => ?_⟩
  · -- the wallet is in flash
    refine (sat_unlockedByMessageSource d).mono ?_ (fun _ _ h => h.elim)
    rintro ok d₀ ⟨hd₀, hok⟩
    subst d₀
    refine ⟨fun htrue => ?_, fun hfalse => ?_⟩
    · refine (sat_replyBool (L := L) true d).mono ?_ (fun _ _ _ => trivial)
      intro _ d' _
      refine (sat_pure _).2 ⟨fun _ => ⟨fun _ hnot => absurd (hok.1 htrue) hnot, fun h => ?_⟩,
        fun h => Bool.noConfusion h⟩
      rw [hflag] at h
      cases h
    · have hload : ∀ d₁ : ClientDev V, walletStore d₁.store = walletStore d.store →
          Sat (getPinLoadKeys L suppressConfirmation u)
            (fun ok d' => LoginOutcome L u d d' ok) (fun _ _ => True) d₁ := by
        intro d₁ hstore
        refine (sat_getPinLoadKeys hP suppressConfirmation u d₁).mono ?_ (fun _ _ h => h)
        intro ok d' hunlocked
        refine ⟨fun htrue => ⟨fun _ _ => (hunlocked.1 htrue).before hstore, fun h => ?_⟩,
          fun hfalse _ _ => hunlocked.2 hfalse⟩
        rw [hflag] at h
        cases h
      refine ⟨fun _ => ?_, fun _ => hload d rfl⟩
      simp only [sat_onWallet, keychainClear, sat_bind, sat_storageGetKeyFlags, sat_modifyRam]
      exact hload _ rfl
  · -- there is none in flash
    have hsave : ∀ d₁ : ClientDev V, ValidWallet L d₁ →
        (d₁.ram.keychain.keychainData.isSome →
          ∀ p, d₁.ram.keychain.payload = some p → Fresh L u d p) →
        Sat (do
            if (← getRam).keychain.keychainData.isNone then
              replyBool L false
              return false
            else setPinSaveKeys L u : ClientM V Bool)
          (fun ok d' => LoginOutcome L u d d' ok) (fun _ _ => True) d₁ := by
      intro d₁ hvalid₁ hfresh
      have hfailure : ∀ d' : ClientDev V, d.ram.keychain.hasEncryptedBlob = true →
          d.ram.keychain.keychainData = none → d'.ram.keychain.keychainData = none :=
        fun _ h => absurd h hflag
      simp only [sat_bind, sat_getRam, sat_ite]
      refine ⟨fun _ => ?_, fun hsome => ?_⟩
      · refine (sat_replyBool false d₁).mono ?_ (fun _ _ _ => trivial)
        exact fun _ d' _ => (sat_pure _).2 ⟨fun h => Bool.noConfusion h, fun _ => hfailure d'⟩
      · refine (sat_setPinSaveKeys hP u d₁ hvalid₁).mono ?_ (fun _ _ h => h)
        intro ok d' hstored
        refine ⟨fun htrue => ?_, fun _ => hfailure d'⟩
        obtain ⟨p, hpayload, hp⟩ := hstored htrue
        refine ⟨fun h => absurd h hflag, fun _ => ⟨p, hfresh ?_ p hpayload, hp⟩⟩
        rw [Option.isSome_iff_ne_none]
        exact fun h => hsome (Option.isNone_iff_eq_none.2 h)
    refine ⟨fun hnone => ?_, fun hsome => ?_⟩
    · rw [Option.isNone_iff_eq_none] at hnone
      refine (sat_initialise u hnone).mono ?_ (fun _ _ _ => trivial)
      intro _ d₁ hmade
      have hsaved := hsave d₁ (fun hentropy k hk => absurd hentropy (hmade k hk).1)
      simp only [sat_bind, sat_getRam, sat_ite] at hsaved
      refine hsaved ?_
      intro hsome p hpayload
      obtain ⟨k, hk⟩ := Option.isSome_iff_exists.1 hsome
      obtain ⟨hne, hfresh⟩ := hmade k hk
      rw [Ram.payload, if_pos hne] at hpayload
      rw [← Option.some.inj hpayload]
      exact hfresh
    · have hsaved := hsave d hvalid
      simp only [sat_bind, sat_getRam, sat_ite] at hsaved
      refine hsaved fun hdata p hpayload => ?_
      rw [Fresh, if_pos hdata]
      exact hpayload

/-- A network that passes the check. -/
theorem sat_checkNetwork (params : V) (d : ClientDev V) :
    Sat (checkNetwork L params) (fun r d' => (r.isSome → d' = d) ∧ d'.ram.keychain = d.ram.keychain)
      (fun _ _ => True) d := by
  have hreject : ∀ (code : ℤ) (errmsg : String),
      Sat (do rejectCurrent L code errmsg; return none : ClientM V (Option Network))
        (fun r d' => (r.isSome → d' = d) ∧ d'.ram.keychain = d.ram.keychain)
        (fun _ _ => True) d := by
    intro code errmsg
    refine (sat_rejectCurrent_end code errmsg none d).mono ?_ (fun _ _ h => h)
    rintro r d' ⟨rfl, hsaid⟩
    exact ⟨fun h => Bool.noConfusion h, keychain_of_kept (W := L.wally) hsaid.kept⟩
  have hself : ({ d with ram := d.ram.putTalk d.ram.talk } : ClientDev V) = d := rfl
  simp only [checkNetwork, sat_bind, sat_onTalk, sat_orFault]
  refine ⟨fun name _ => ?_, fun _ _ => trivial⟩
  rw [hself]
  cases (if name.isEmpty then networkFromName none else networkFromText name) with
  | none => exact hreject _ _
  | some networkId =>
      simp only [sat_bind, sat_onWallet, keychainIsNetworkIdConsistent,
        keychainIsNetworkTypeConsistent, sat_getRam, sat_pure, sat_ite]
      rw [putWallet_walletDev]
      refine ⟨fun _ => ⟨fun _ => rfl, rfl⟩, fun _ => ?_⟩
      have hrejected := hreject CBOR_RPC_NETWORK_MISMATCH
        "Network type inconsistent with prior usage"
      simpa only [sat_bind, sat_pure] using hrejected

/-- **One login.** -/
theorem sat_authUserProcess (hP : L.keys.Lawful) (u : UserInput) {d : ClientDev V}
    (htemporary : d.ram.keychain.keychainTemporary = false) (hvalid : ValidWallet L d) :
    Sat (authUserProcess L u) (fun ok d' => LoginOutcome L u d d' ok) (fun _ _ => True) d := by
  have hreject : ∀ (code : ℤ) (errmsg : String),
      Sat (do rejectCurrent L code errmsg; return false : ClientM V Bool)
        (fun ok d' => LoginOutcome L u d d' ok) (fun _ _ => True) d := by
    intro code errmsg
    refine (sat_rejectCurrent_end code errmsg false d).mono ?_ (fun _ _ h => h)
    rintro ok d' ⟨rfl, hsaid⟩
    exact loginOutcome_of_keychain (keychain_of_kept (W := L.wally) hsaid.kept)
  have hself : ({ d with ram := d.ram.putTalk d.ram.talk } : ClientDev V) = d := rfl
  rw [authUserProcess, sat_bind, sat_onTalk]
  refine (sat_isCurrent "auth_user" d.ram.talk).mono ?_ (fun _ _ _ => trivial)
  intro current talk htalk
  subst talk
  rw [hself]
  simp only [sat_bind, sat_assert, implies_true, and_true]
  intro _
  simp only [currentMessage, sat_onTalk, sat_bind, sat_get, sat_pure]
  rw [hself]
  cases (d.ram.talk.current.bind fun m => getMsgParams L.cbor.toTinyCborStrings m.value) with
  | none => exact hreject _ _
  | some params =>
      simp only [sat_bind]
      refine (sat_checkNetwork params d).mono ?_ (fun _ _ _ => trivial)
      rintro r d₁ ⟨hd₁, hkeychain⟩
      cases r with
      | none => exact (sat_pure _).2 (loginOutcome_of_keychain hkeychain)
      | some networkId =>
          have hd : d₁ = d := hd₁ rfl
          subst d₁
          cases epochError L params with
          | some error =>
              obtain ⟨code, errmsg⟩ := error
              exact hreject _ _
          | none =>
              simp only [sat_bind]
              refine (sat_authUserLogin hP _ u htemporary hvalid).mono ?_ (fun _ _ _ => trivial)
              intro rslt d₂ hlogin
              rw [sat_ite]
              refine ⟨fun htrue => ?_, fun _ => (sat_pure _).2 hlogin⟩
              have hloggedIn := hlogin.success htrue
              -- the restriction is the last thing that is set
              have hframe := Frame.of_store (J := fun st => ∀ aeskey cleartext,
                Saved L.keys aeskey cleartext (walletStore d₂.store) →
                  Saved L.keys aeskey cleartext st) fun _ v h aeskey cleartext hsaved =>
                saved_update_networktype (h aeskey cleartext hsaved) v
              have hsaved := hframe.keychainSetNetworkTypeRestriction (networkToType networkId)
                (walletDev d₂) (fun _ _ h => h)
              rw [sat_bind, sat_onWallet]
              refine ((sat_keychainSetNetworkTypeRestriction (isRestricted_networkToType networkId)
                (walletDev d₂)).and hsaved).mono ?_ (fun _ _ _ => trivial)
              rintro _ w ⟨⟨-, ⟨copy, hram, -⟩, -⟩, hsaved⟩
              refine (sat_pure _).2 ⟨fun _ => ⟨fun hflag hnot => ?_, fun hflag => ?_⟩,
                fun hfalse => absurd (htrue.symm.trans hfalse) Bool.noConfusion⟩
              · refine (hloggedIn.unlocked hflag hnot).later (later_putWallet w d₂) ?_
                rw [putWallet_keychain, hram]
                rfl
              · obtain ⟨p, hfresh, hstored⟩ := hloggedIn.stored hflag
                exact ⟨p, hfresh, hstored.later (later_putWallet w d₂) hsaved⟩

/-! ### Two logins -/

/-- Nobody but the oracle makes messages that open in the session of a request. -/
def OnlyOracleAnswers (L : AuthLib V) (O : OracleWally) (oracleKey : Bytes)
    (serverKey : Bytes → Bytes → Bytes) (d : ClientDev V) : Prop :=
  ∀ before out m after r ask j keys key,
    d.ram.talk.events = before ++ [.sent out, .took m] ++ after →
    out.body = .data (.httpRequest r) → Question L.wally d.store ask j keys r →
    pinVerdict L.wally L.cbor.toTinyCborStrings keys (some m) = .ok (.success key) →
    HonestAnswer L.wally O L.cbor.toTinyCborStrings oracleKey serverKey r m.value

/-- The key of a PIN is the one that the oracle's mapping gives. -/
theorem Obtained.finalAes (hW : L.wally.Lawful) {O : OracleWally} (hO : O.Lawful L.wally)
    {oracleKey unit : Bytes} (serverKey : Bytes → Bytes → Bytes → Bytes) {pin : Pin}
    {aeskey : Bytes} (h : Obtained L document d pin aeskey)
    (horacle : L.wally.ecPublicKeyFromPrivateKey oracleKey = some (oraclePubkey L.wally d.store))
    (hunit : unitKeyOf L.wally d.store = some unit)
    (honly : OnlyOracleAnswers L O oracleKey (serverKey (oraclePubkey L.wally d.store)) d) :
    aeskey = Jade.finalAes (pinOracle L.wally serverKey) (oraclePubkey L.wally d.store) unit
      pin.toList := by
  obtain ⟨before, out, m, after, r, j, keys, key, hevents, hbody, hq, hverdict, rfl⟩ := h.heard
  have hm := honly before out m after r _ j keys key hevents hbody hq hverdict
  obtain ⟨q, unit', -, hhas, hpub, hsecret, hopened⟩ :=
    pinVerdict_of_honestAnswer hW hO horacle hq hm
  obtain rfl : unit = unit' := Option.some.inj (hunit.symm.trans hhas)
  have hkey : key = serverKey (oraclePubkey L.wally d.store) q.unit q.pinSecret :=
    PinResult.success.inj (Except.ok.inj (hverdict.symm.trans hopened))
  rw [hkey, hsecret]
  simp only [Jade.finalAes, pinOracle, hpub, Option.getD_some]
  rfl

/-- Under one oracle and for one unit, two PINs have the same key. -/
def SamePinKey (L : AuthLib V) (d₁ d₂ : ClientDev V) (pin₁ pin₂ : Pin) : Prop :=
  ∀ (O : OracleWally) (oracleKey pubkey unit : Bytes) (serverKey : Bytes → Bytes → Bytes → Bytes),
    O.Lawful L.wally → L.wally.ecPublicKeyFromPrivateKey oracleKey = some pubkey →
    oraclePubkey L.wally d₁.store = pubkey → oraclePubkey L.wally d₂.store = pubkey →
    unitKeyOf L.wally d₁.store = some unit → unitKeyOf L.wally d₂.store = some unit →
    OnlyOracleAnswers L O oracleKey (serverKey pubkey) d₁ →
    OnlyOracleAnswers L O oracleKey (serverKey pubkey) d₂ →
    finalAes (pinOracle L.wally serverKey) pubkey unit pin₁.toList =
      finalAes (pinOracle L.wally serverKey) pubkey unit pin₂.toList

/-- A key that comes for both PINs is the key of both. -/
theorem Obtained.samePinKey (hW : L.wally.Lawful) {document₁ document₂ : Document}
    {d₁ d₂ : ClientDev V} {pin₁ pin₂ : Pin} {aeskey : Bytes}
    (h₁ : Obtained L document₁ d₁ pin₁ aeskey) (h₂ : Obtained L document₂ d₂ pin₂ aeskey) :
    SamePinKey L d₁ d₂ pin₁ pin₂ := by
  intro O oracleKey pubkey unit serverKey hO horacle hpubkey₁ hpubkey₂ hunit₁ hunit₂ honly₁ honly₂
  have hkey₁ := h₁.finalAes hW hO serverKey (by rw [hpubkey₁]; exact horacle) hunit₁
    (by rw [hpubkey₁]; exact honly₁)
  have hkey₂ := h₂.finalAes hW hO serverKey (by rw [hpubkey₂]; exact horacle) hunit₂
    (by rw [hpubkey₂]; exact honly₂)
  rw [hpubkey₁] at hkey₁
  rw [hpubkey₂] at hkey₂
  exact hkey₁.symm.trans hkey₂

/-- **The wallet has come back**: with the PIN that was entered, and with the key that the wallet
was stored under. -/
structure Returned (L : AuthLib V) (u₁ u₂ : UserInput) (d₁ d₁' d₂' : ClientDev V) : Prop where
  wallet : ∃ pin₁ pin₂ aeskey p k, confirmedPin u₁.newPin = some pin₁ ∧ u₂.pin = some pin₂ ∧
    Obtained L .setPin d₁' pin₁ aeskey ∧ Obtained L .getPin d₂' pin₂ aeskey ∧
    SamePinKey L d₁' d₂' pin₁ pin₂ ∧ Fresh L u₁ d₁ p ∧
    d₂'.ram.keychain.keychainData = some k ∧ Yields L.keys p k

/-- **The wallet that was stored is the one that comes back**, and it comes back with the key that
it was stored under only: whatever is done between the two logins, as long as the record of the
wallet is there. A login that does not succeed leaves no wallet in memory. -/
theorem stored_wallet_returns (hP : L.keys.Lawful) (hW : L.wally.Lawful) {u₁ u₂ : UserInput}
    {d₁ d₁' d₂ d₂' : ClientDev V} {ok : Bool}
    (hnew : d₁.ram.keychain.hasEncryptedBlob = false)
    (htemporary₁ : d₁.ram.keychain.keychainTemporary = false) (hvalid₁ : ValidWallet L d₁)
    (hlogin₁ : (authUserProcess L u₁).run d₁ = .ok true d₁')
    (hblob : walletStore d₂.store .blob = walletStore d₁'.store .blob)
    (hpin : d₂.ram.keychain.hasEncryptedBlob = true)
    (htemporary₂ : d₂.ram.keychain.keychainTemporary = false)
    (hlocked : d₂.ram.keychain.keychainData = none)
    (hlogin₂ : (authUserProcess L u₂).run d₂ = .ok ok d₂') :
    (ok = true → Returned L u₁ u₂ d₁ d₁' d₂') ∧
      (ok = false → d₂'.ram.keychain.keychainData = none) := by
  have hvalid₂ : ValidWallet L d₂ := by
    intro _ k hk
    rw [hlocked] at hk
    cases hk
  have hunlockedFor : ¬ UnlockedFor d₂ := by
    rintro ⟨hsome, -⟩
    rw [hlocked] at hsome
    cases hsome
  obtain ⟨p, hfresh, hstored⟩ :=
    (((sat_authUserProcess hP u₁ htemporary₁ hvalid₁).ok hlogin₁).success rfl).stored hnew
  obtain ⟨pin₁, aeskey₁, hpin₁, hobtained₁, hstorable, hsaved⟩ := hstored.saved
  have houtcome := (sat_authUserProcess hP u₂ htemporary₂ hvalid₂).ok hlogin₂
  refine ⟨fun htrue => ?_, fun hfalse => houtcome.failure hfalse hpin hlocked⟩
  obtain ⟨pin₂, aeskey₂, p₂, k, hpin₂, hobtained₂, hkey₂, -, hp₂, hk, hyields⟩ :=
    ((houtcome.success htrue).unlocked hpin hunlockedFor).opened
  -- the record is the one that was stored
  have hsame : loads L.keys.toPrims aeskey₂ (walletStore d₂.store) =
      loads L.keys.toPrims aeskey₂ (walletStore d₁'.store) := by
    simp only [loads, storedPayload, fitting, hblob]
  rw [hsame] at hp₂
  have haeskey : aeskey₂ = aeskey₁ := by
    by_contra hne
    rw [loads, hsaved.other aeskey₂ hkey₂ hne] at hp₂
    cases hp₂
  subst haeskey
  rw [loads_of_saved hP hstorable hsaved] at hp₂
  obtain rfl := Option.some.inj hp₂
  exact ⟨pin₁, pin₂, aeskey₂, p, k, hpin₁, hpin₂, hobtained₁, hobtained₂,
    hobtained₁.samePinKey hW hobtained₂, hfresh, hk, hyields⟩

end Logins

/-! ### A wallet that comes back -/

/-- What is left of a run. -/
def stateOf {σ : Type} : EStateM.Result Stop σ Bool → σ
  | .ok _ s => s
  | .error _ s => s

/-- A run ends, and with success. -/
def succeeded {σ : Type} : EStateM.Result Stop σ Bool → Bool
  | .ok ok _ => ok
  | .error _ _ => false

theorem eq_ok_of_succeeded {σ : Type} {r : EStateM.Result Stop σ Bool} (h : succeeded r = true) :
    r = .ok true (stateOf r) := by
  cases r with
  | error e s => cases h
  | ok ok s => rw [show ok = true from h, stateOf]

def toyAuthLib : AuthLib Bytes where
  keys := toyKeyPrims
  wally := toyPinWally
  cbor := tinyCborArrays
  setTimeOfDay _ := true

def toyPin : Pin := Vector.replicate PIN_SIZE 3

/-- A user who sets up a wallet and enters the PIN. -/
def toyUser : UserInput where
  pin := some toyPin
  unlockRetries := [false]
  passphrase := []
  changePin := false
  newPin := [.backOut toyPin, .confirm toyPin toyPin false]
  setRetries := [false]
  mnemonic := some (List.replicate BIP39_ENTROPY_LEN_128 7)
  advancedMode := false

/-- A login for a network. -/
def toyLogin : Incoming Bytes where
  source := 2
  value := toyRequestHead "auth_user" ++ [0xa1] ++ shortText "network" ++ shortText "mainnet"

/-- A device that is asked to log in. -/
def toyAsked (st : Store ClientKey) (keychain : Ram) (inbox : List (Incoming Bytes)) :
    ClientDev Bytes where
  store := st
  ram := {
    keychain := keychain
    talk := { inbox := inbox, current := some toyLogin }
    random := fun i => UInt8.ofNat (i * 7 + 1) }
  fates := []
  log := []

/-- The same with the answer of the oracle: the question does not depend on what comes after it. -/
def toyAnswered (st : Store ClientKey) (keychain : Ram) : ClientDev Bytes :=
  toyAsked st keychain ((requests (stateOf ((authUserProcess toyAuthLib toyUser).run
    (toyAsked st keychain []))).ram.talk.events).map toyAnswer)

@[simp] theorem toyAnswered_store (st : Store ClientKey) (keychain : Ram) :
    (toyAnswered st keychain).store = st := rfl

@[simp] theorem toyAnswered_keychain (st : Store ClientKey) (keychain : Ram) :
    (toyAnswered st keychain).ram.keychain = keychain := rfl

/-- A wallet is set up. -/
def toyFirst : ClientDev Bytes := toyAnswered (fun _ => none) .init

def toyFirstDone : ClientDev Bytes := stateOf ((authUserProcess toyAuthLib toyUser).run toyFirst)

/-- After a restart. -/
def toySecond : ClientDev Bytes :=
  toyAnswered toyFirstDone.store { Ram.init with hasEncryptedBlob := true }

def toySecondDone : ClientDev Bytes := stateOf ((authUserProcess toyAuthLib toyUser).run toySecond)

theorem toyFirst_login :
    (authUserProcess toyAuthLib toyUser).run toyFirst = .ok true toyFirstDone := by
  rw [toyFirstDone]
  exact eq_ok_of_succeeded (by decide +kernel)

theorem toySecond_login :
    (authUserProcess toyAuthLib toyUser).run toySecond = .ok true toySecondDone := by
  rw [toySecondDone]
  exact eq_ok_of_succeeded (by decide +kernel)

theorem toyFirst_keychain : toyFirst.ram.keychain = .init := toyAnswered_keychain _ _

theorem toySecond_store : toySecond.store = toyFirstDone.store := toyAnswered_store _ _

theorem toySecond_keychain : toySecond.ram.keychain = { Ram.init with hasEncryptedBlob := true } :=
  toyAnswered_keychain _ _

/-- Whether a message has the answer of the oracle to a request. -/
def answersRequest (r : HttpRequest) (m : Incoming Bytes) : Bool :=
  match openQuestion toyPinWally toyOracleWally toyOracleKey r with
  | none => false
  | some q =>
      match answerText toyPinWally q (List.replicate 16 0) (toyServerKey [] q.unit q.pinSecret),
          getMsgParams tinyCborStrings m.value with
      | some text, some params =>
          decide (rpcGetStringPtr tinyCborStrings.toTinyCbor "data" params = .ok (some text) ∧
            isCurrentMessage tinyCborStrings m.value (ascii "cancel") = .ok false ∧
            isCurrentMessage tinyCborStrings m.value (ascii "pin") = .ok true)
      | _, _ => false

theorem honestAnswer_of_answersRequest {r : HttpRequest} {m : Incoming Bytes} (pubkey : Bytes)
    (h : answersRequest r m = true) :
    HonestAnswer toyPinWally toyOracleWally tinyCborStrings toyOracleKey (toyServerKey pubkey) r
      m.value := by
  rw [answersRequest] at h
  split at h
  · cases h
  · next q hopen =>
      split at h
      · next text params htext hparams =>
          obtain ⟨hdata, hcancel, hpin⟩ := of_decide_eq_true h
          exact ⟨hcancel, hpin, fun _ _ => length_toyDigest _,
            q, _, text, params, hopen, htext, hparams, hdata⟩
      · cases h

/-- Whether every message right behind a request has the answer of the oracle to it. -/
def requestsAnswered : List (Dialogue.Event (Incoming Bytes) PinScreen (Outgoing PinReply)) → Bool
  | .sent out :: events =>
      (match events.head? with
        | some (.took m) => (requestOf out).all (answersRequest · m)
        | _ => true) && requestsAnswered events
  | _ :: events => requestsAnswered events
  | [] => true

theorem requestsAnswered_tail {e : Dialogue.Event (Incoming Bytes) PinScreen (Outgoing PinReply)}
    {events : List (Dialogue.Event (Incoming Bytes) PinScreen (Outgoing PinReply))}
    (h : requestsAnswered (e :: events) = true) : requestsAnswered events = true := by
  cases e with
  | sent out => exact (Bool.and_eq_true_iff.1 h).2
  | took m => exact h
  | lost => exact h
  | shown screen => exact h

theorem answersRequest_of_requestsAnswered {out : Outgoing PinReply} {m : Incoming Bytes}
    {r : HttpRequest} (hout : requestOf out = some r)
    (before after : List (Dialogue.Event (Incoming Bytes) PinScreen (Outgoing PinReply)))
    (h : requestsAnswered (before ++ [.sent out, .took m] ++ after) = true) :
    answersRequest r m = true := by
  induction before with
  | nil =>
      have hall : (requestOf out).all (answersRequest · m) = true := (Bool.and_eq_true_iff.1 h).1
      rwa [hout] at hall
  | cons e before ih => exact ih (requestsAnswered_tail h)

theorem onlyOracleAnswers_of_requestsAnswered (pubkey : Bytes) {d : ClientDev Bytes}
    (h : requestsAnswered d.ram.talk.events = true) :
    OnlyOracleAnswers toyAuthLib toyOracleWally toyOracleKey (toyServerKey pubkey) d := by
  intro before out m after r ask j keys key hevents hbody _ _
  rw [hevents] at h
  have hout : requestOf out = some r := by rw [requestOf, hbody]
  exact honestAnswer_of_answersRequest pubkey (answersRequest_of_requestsAnswered hout _ _ h)

/-- After both logins there is one key of the unit, the oracle is the default one, and it alone has
answered. -/
theorem toyDone_keys :
    (unitKeyOf toyPinWally toyFirstDone.store).isSome = true ∧
      unitKeyOf toyPinWally toySecondDone.store = unitKeyOf toyPinWally toyFirstDone.store ∧
      oraclePubkey toyPinWally toyFirstDone.store = toyPinWally.serverPublicKey ∧
      oraclePubkey toyPinWally toySecondDone.store = toyPinWally.serverPublicKey ∧
      requestsAnswered toyFirstDone.ram.talk.events = true ∧
      requestsAnswered toySecondDone.ram.talk.events = true := by
  decide +kernel

/-- The wallet of the mnemonic comes back, and since only the oracle answered, its mapping gives both
PINs one key. -/
theorem stored_wallet_returns_toy :
    Returned toyAuthLib toyUser toyUser toyFirst toyFirstDone toySecondDone ∧
      ∃ pin₁ pin₂ unit, confirmedPin toyUser.newPin = some pin₁ ∧ toyUser.pin = some pin₂ ∧
        unitKeyOf toyPinWally toySecondDone.store = some unit ∧
        finalAes (pinOracle toyPinWally toyServerKey) toyPinWally.serverPublicKey unit
            (Vector.toList pin₁) =
          finalAes (pinOracle toyPinWally toyServerKey) toyPinWally.serverPublicKey unit
            (Vector.toList pin₂) := by
  have hvalid : ValidWallet toyAuthLib toyFirst := by
    intro _ k hk
    rw [toyFirst_keychain] at hk
    cases hk
  have hreturned : Returned toyAuthLib toyUser toyUser toyFirst toyFirstDone toySecondDone := by
    refine (stored_wallet_returns toyKeyPrims_lawful toyPinWally_lawful ?_ ?_ hvalid toyFirst_login
      ?_ ?_ ?_ ?_ toySecond_login).1 rfl
    · rw [toyFirst_keychain]
      rfl
    · rw [toyFirst_keychain]
      rfl
    · rw [toySecond_store]
    · rw [toySecond_keychain]
    · rw [toySecond_keychain]
      rfl
    · rw [toySecond_keychain]
      rfl
  refine ⟨hreturned, ?_⟩
  obtain ⟨pin₁, pin₂, aeskey, p, k, hpin₁, hpin₂, -, -, hsame, -⟩ := hreturned.wallet
  obtain ⟨hunit, hunits, hpubkey₁, hpubkey₂, hanswered₁, hanswered₂⟩ := toyDone_keys
  obtain ⟨unit, hunit⟩ := Option.isSome_iff_exists.1 hunit
  rw [hunit] at hunits
  exact ⟨pin₁, pin₂, unit, hpin₁, hpin₂, hunits, hsame toyOracleWally toyOracleKey
    toyPinWally.serverPublicKey unit toyServerKey toyOracleWally_lawful (by decide) hpubkey₁
    hpubkey₂ hunit hunits (onlyOracleAnswers_of_requestsAnswered _ hanswered₁)
    (onlyOracleAnswers_of_requestsAnswered _ hanswered₂)⟩

end Jade.Pinclient
