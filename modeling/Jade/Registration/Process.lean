/-
**The registration of a multisig wallet (`process/register_multisig.c`, `ui/multisig.c`).**

A multisig wallet is registered by a message, or by a file in a message. The user is led through the
policy and through every signer, back and forth, and only the last screen accepts. The record is
written last, in one commit, so that whatever goes wrong before leaves the old one as it was.

Two things are not seen to. The dialog does not show the kind of script, so that two policies that
differ in nothing else look the same. And the keys of the signers are decoded but not derived: a key
that is too deep for the path behind it is registered, and stops the device when it is loaded.

Main definitions:

* `Jade.MultisigDialog`, `Jade.showMultisigActivity` — the dialog;
* `Jade.RegistrationRun`, `Jade.registerMultisigRun` — a registration, with the user, the flash and
  the power;
* `Jade.registerMultisigProcess` — the message.

Main results:

* `Jade.shown_of_confirmed` — whoever accepts has been shown every screen;
* `Jade.registerMultisigArgs_eq_ok` — what a message registers meets the assertions of the code;
* `Jade.registration_exact` — **a registered multisig is confirmed, well formed, contains the key of
  the wallet and is loaded as it was registered**.
-/

import Jade.Registration.FileAccepted
import Jade.Registration.Load

set_option relaxedAutoImplicit false
set_option autoImplicit false

namespace Jade

open Exec

/-! ### The dialog -/

/-- What `show_multisig_activity` is given for a registration. -/
structure MultisigDialog where
  name : Bytes
  sorted : Bool
  threshold : ℕ
  signers : List Signer
  masterBlindingKey : Option (Sized MULTISIG_MASTER_BLINDING_KEY_SIZE)
  walletFingerprint : Bytes
  overwriting : Bool

/-- A screen of the dialog. -/
inductive MultisigScreen
  | summary (name : Bytes) (threshold numSigners : ℕ) (sorted : Bool)
      (masterBlindingKey : Option (Sized MULTISIG_MASTER_BLINDING_KEY_SIZE))
  | signer (signer : Signer) (number numSigners : ℕ) (isThisSigner : Bool)
  | finalSummary (name : Bytes) (threshold numSigners : ℕ) (overwriting : Bool)
  deriving DecidableEq

/-- The screens by their number: the summary, the signers, and the final summary. -/
def MultisigDialog.screen (d : MultisigDialog) : ℕ → MultisigScreen
  | 0 => .summary d.name d.threshold d.signers.length d.sorted d.masterBlindingKey
  | i + 1 =>
      match d.signers[i]? with
      | some s => .signer s (i + 1) d.signers.length (s.fingerprint.1 == d.walletFingerprint)
      | none => .finalSummary d.name d.threshold d.signers.length d.overwriting

/-- `show_multisig_activity`, for a user who presses "next" and "back"; there is no answer yet when
the presses have run out.  With the answer come the screens that have been shown. -/
def showMultisigActivity (d : MultisigDialog) :
    List Bool → ℕ → List MultisigScreen → Option (Bool × List MultisigScreen)
  | [], _, _ => none
  | next :: presses, screen, shown =>
      if screen = 0 then
        if next then showMultisigActivity d presses 1 (shown ++ [d.screen 0])
        else some (false, shown ++ [d.screen 0])
      else if d.signers.length < screen then
        if next then some (true, shown ++ [d.screen screen])
        else showMultisigActivity d presses (screen - 1) (shown ++ [d.screen screen])
      else if next then showMultisigActivity d presses (screen + 1) (shown ++ [d.screen screen])
      else showMultisigActivity d presses (screen - 1) (shown ++ [d.screen screen])

/-- Every screen of the dialog is among those that have been shown. -/
def MultisigDialog.ShownIn (d : MultisigDialog) (shown : List MultisigScreen) : Prop :=
  ∀ i ≤ d.signers.length + 1, d.screen i ∈ shown

/-- Whoever accepts has been shown every screen. -/
theorem shown_of_confirmed {d : MultisigDialog} {presses : List Bool}
    {shown : List MultisigScreen} (h : showMultisigActivity d presses 0 [] = some (true, shown)) :
    d.ShownIn shown := by
  -- all screens before the current one have been shown
  have key : ∀ presses screen before, (∀ i < screen, d.screen i ∈ before) →
      showMultisigActivity d presses screen before = some (true, shown) → d.ShownIn shown := by
    intro presses
    induction presses with
    | nil =>
        intro screen before _ hrun
        cases hrun
    | cons next presses ih =>
        intro screen before hbefore hrun
        have hthis : ∀ i ≤ screen, d.screen i ∈ before ++ [d.screen screen] := by
          intro i hi
          rcases Nat.lt_or_eq_of_le hi with hlt | rfl
          · exact List.mem_append_left _ (hbefore i hlt)
          · exact List.mem_append_right _ List.mem_cons_self
        rw [showMultisigActivity] at hrun
        by_cases hzero : screen = 0
        · rw [if_pos hzero] at hrun
          subst hzero
          cases next with
          | false => cases hrun
          | true => exact ih 1 _ (fun i hi => hthis i (by omega)) hrun
        · rw [if_neg hzero] at hrun
          by_cases hlast : d.signers.length < screen
          · rw [if_pos hlast] at hrun
            cases next with
            | false => exact ih (screen - 1) _ (fun i hi => hthis i (by omega)) hrun
            | true =>
                obtain ⟨-, rfl⟩ := Prod.mk.inj (Option.some.inj hrun)
                exact fun i hi => hthis i (by omega)
          · rw [if_neg hlast] at hrun
            cases next with
            | false => exact ih (screen - 1) _ (fun i hi => hthis i (by omega)) hrun
            | true => exact ih (screen + 1) _ (fun i hi => hthis i (by omega)) hrun
  exact key presses 0 [] (fun i hi => absurd hi (Nat.not_lt_zero i)) h

/-! ### A registration -/

/-- What a registration leaves: the records, the dialog when there was one, and the result, when it
came to one: the user may not have answered yet, and the power may be lost. -/
structure RegistrationRun where
  store : MultisigStore
  dialog : Option (Bool × List MultisigScreen)
  result : Option (Except RegisterStop Unit)

/-- A registration that ends before the user is asked. -/
def RegistrationRun.stopped (store : MultisigStore) (e : RegisterStop) : RegistrationRun :=
  ⟨store, none, some (.error e)⟩

section Model

variable {K : Type} (L : FileLib K)

/-- The checks of `register_multisig`, and the record. -/
def registrationBytes (args : MultisigArgs) : Except RegisterStop Bytes := do
  verified (jadeVerify (isMultisig args.variant))
  verified (jadeVerify (args.threshold ≠ 0))
  verified (jadeVerify (args.signers.length ≠ 0))
  registerCheck (storageKeyNameValid args.name.chars) "Invalid multisig name"
  registerCheck (args.signers.length ≤ MAX_ALLOWED_SIGNERS) "Invalid multisig co-signers"
  registerCheck (args.threshold ≤ args.signers.length) "Invalid multisig threshold"
  match validateSigners L.toSignerLib false args.signers with
  | none => .error (.rejected CBOR_RPC_BAD_PARAMETERS "Failed to validate co-signers")
  | some total => do
      let key := blindingKeyBytes args.masterBlindingKey
      match ← verified (multisigDataToBytes L.toMultisigLib args.variant args.sorted
          (UInt8.ofNat args.threshold) key args.signers total
          (multisigBytesLen key.length args.signers.length total)) with
      | none => .error (.rejected CBOR_RPC_INTERNAL_ERROR "Failed to serialise multisig")
      | some registration => .ok registration

/-- The dialog of a registration. -/
def registrationDialog (args : MultisigArgs) (overwriting : Bool) : MultisigDialog where
  name := args.name.chars
  sorted := args.sorted
  threshold := args.threshold
  signers := args.signers
  masterBlindingKey := args.masterBlindingKey
  walletFingerprint := walletGetFingerprint L.wallet
  overwriting := overwriting

/-- `register_multisig`, after the checks: compare, ask the user, and write in one commit. -/
def persistMultisigRun (presses : List Bool) (fate : Flash.Fate) (args : MultisigArgs)
    (store : MultisigStore) (registration : Bytes) : RegistrationRun :=
  let name := args.name.chars
  if store.record name = some registration then ⟨store, none, some (.ok ())⟩
  else if (store.record name).isNone && decide (MAX_MULTISIG_REGISTRATIONS ≤ store.count) then
    .stopped store
      (.rejected CBOR_RPC_BAD_PARAMETERS "Already have maximum number of multisig wallets")
  else
    match showMultisigActivity (registrationDialog L args (store.record name).isSome) presses 0 []
      with
    | none => ⟨store, none, none⟩
    | some (false, shown) => ⟨store, some (false, shown), some (.error
        (.rejected CBOR_RPC_USER_CANCELLED "User declined to register multisig"))⟩
    | some (true, shown) =>
        match fate with
        | .done => ⟨store.set name registration, some (true, shown), some (.ok ())⟩
        | .refused => ⟨store, some (true, shown), some (.error
            (.rejected CBOR_RPC_INTERNAL_ERROR "Failed to persist multisig data"))⟩
        | .cutBefore => ⟨store, some (true, shown), none⟩
        | .cutAfter => ⟨store.set name registration, some (true, shown), none⟩

/-- `register_multisig`, with the user, the flash and the power. -/
def registerMultisigRun (presses : List Bool) (fate : Flash.Fate) (args : MultisigArgs)
    (store : MultisigStore) : RegistrationRun :=
  match registrationBytes L args with
  | .error e => .stopped store e
  | .ok registration => persistMultisigRun L presses fate args store registration

/-! ### The message -/

/-- A signer as it is read from the message: an empty map, a map with the fields that could be read,
or something else. -/
inductive SignerItem
  | empty
  | fields (fingerprint : Option (Sized BIP32_KEY_FINGERPRINT_LEN)) (derivation : Option PathArray)
      (xpub : CString 120) (path : Option PathArray)
  | other

/-- A signer that nothing has been read of. -/
def Signer.zero : Signer where
  fingerprint := ⟨[0, 0, 0, 0], rfl⟩
  derivation := ⟨[], Nat.zero_le _⟩
  xpub := ⟨[], by decide⟩
  path := .elements ⟨[], Nat.zero_le _⟩

/-- One turn of the loop of `get_signers_allocate`. -/
def SignerItem.signer : SignerItem → Option Signer
  | .empty => some .zero
  | .fields fingerprint derivation xpub path =>
      match fingerprint, derivation, path with
      | some fingerprint, some derivation, some path =>
          if xpub.chars.isEmpty then none else some ⟨fingerprint, derivation, xpub, .elements path⟩
      | _, _, _ => none
  | .other => none

/-- `get_signers_allocate`; there are no signers when it fails. -/
def getSignersAllocate (items : List SignerItem) : List Signer :=
  (items.mapM SignerItem.signer).getD []

/-- The fields of the map `descriptor`: what is there, and what is read of it. -/
structure MultisigDescriptorParams where
  variant : Bytes
  /-- nothing is there, or it is no boolean, or the flag -/
  sorted : Option (Option Bool)
  /-- nothing is there, or the bytes, of which there are none when it is no byte string -/
  masterBlindingKey : Option Bytes
  /-- zero when it is missing -/
  threshold : ℕ
  signers : List SignerItem

/-- The parameters of the message. -/
structure RegisterMultisigParams where
  /-- nothing is there, or the text, which is empty when it is no text -/
  multisigFile : Option Bytes
  /-- what the check of the network says -/
  network : Except RegisterStop Network
  /-- empty when it is missing or too long -/
  multisigName : CString MAX_MULTISIG_NAME_SIZE
  descriptor : Option MultisigDescriptorParams

/-- Reject the message with `CBOR_RPC_BAD_PARAMETERS`. -/
def rejectMultisig {α : Type} (message : String) : Except RegisterStop α :=
  .error (.rejected CBOR_RPC_BAD_PARAMETERS message)

/-- The blinding key of the message. -/
def descriptorBlindingKey (key : Option Bytes) :
    Except RegisterStop (Option (Sized MULTISIG_MASTER_BLINDING_KEY_SIZE)) :=
  match key with
  | none => .ok none
  | some key =>
      if h : key.length = MULTISIG_MASTER_BLINDING_KEY_SIZE then .ok (some ⟨key, h⟩)
      else rejectMultisig "Invalid blinding key value"

/-- What is registered by the fields of the message. -/
def multisigParamsArgs (params : RegisterMultisigParams) : Except RegisterStop MultisigArgs := do
  let _ ← params.network
  if !storageKeyNameValid params.multisigName.chars then
    rejectMultisig "Missing or invalid multisig name parameter"
  else
    match params.descriptor with
    | none => rejectMultisig "Cannot extract multisig descriptor data"
    | some descriptor =>
        match (getScriptVariant descriptor.variant).filter isMultisig, descriptor.sorted with
        | none, _ => rejectMultisig "Invalid script variant parameter"
        | some _, some none => rejectMultisig "Invalid sorted flag value"
        | some variant, sorted => do
            let masterBlindingKey ← descriptorBlindingKey descriptor.masterBlindingKey
            if descriptor.threshold = 0 ∨ MAX_ALLOWED_SIGNERS < descriptor.threshold then
              rejectMultisig "Invalid multisig threshold value"
            else if (getSignersAllocate descriptor.signers).isEmpty then
              rejectMultisig "Failed to extract valid co-signers from parameters"
            else
              .ok {
                name := params.multisigName
                variant
                sorted := (sorted.bind id).getD false
                threshold := descriptor.threshold
                signers := getSignersAllocate descriptor.signers
                masterBlindingKey }

/-- What `register_multisig_file` reads of a file. -/
def scanMultisigFile (testnet keepTruncated : Bool) (file : Bytes) :
    Except RegisterStop MultisigArgs := do
  verified (jadeVerify (file.length ≠ 0))
  let st ← scanFrom L testnet file 0 FileState.init
  finishFile keepTruncated st

/-- What a message registers: a file, or its other fields. -/
def registerMultisigArgs (testnet keepTruncated : Bool) (params : RegisterMultisigParams) :
    Except RegisterStop MultisigArgs :=
  match params.multisigFile with
  | some file =>
      if file.isEmpty then rejectMultisig "Invalid multisig file data"
      else scanMultisigFile L testnet keepTruncated file
  | none => multisigParamsArgs params

/-- `register_multisig_process` -/
def registerMultisigProcess (presses : List Bool) (fate : Flash.Fate) (testnet keepTruncated : Bool)
    (params : RegisterMultisigParams) (store : MultisigStore) : RegistrationRun :=
  match registerMultisigArgs L testnet keepTruncated params with
  | .error e => .stopped store e
  | .ok args => registerMultisigRun L presses fate args store

/-! ### The checks -/

theorem registerMultisig_eq_bind (R : Registrar) (args : MultisigArgs) (store : MultisigStore) :
    registerMultisig L.toSignerLib R args store = registrationBytes L args >>= fun registration =>
      persistMultisig R args.name.chars registration store := by
  simp only [registerMultisig, registrationBytes, bind_assoc]
  refine bind_congr fun _ => bind_congr fun _ => bind_congr fun _ => bind_congr fun _ =>
    bind_congr fun _ => bind_congr fun _ => ?_
  cases validateSigners L.toSignerLib false args.signers with
  | none => rfl
  | some total =>
      dsimp only
      rw [bind_assoc]
      refine bind_congr fun registration => ?_
      cases registration <;> rfl

/-- What passes the checks is written as its record; what does not is told why, and an assertion
only fails when the caller has left out a check. -/
theorem registrationBytes_spec (args : MultisigArgs) :
    (Registrable L.toSignerLib args ∧ ∃ registration,
        args.definition.toBytes L.toMultisigLib = .ok (some registration) ∧
        registrationBytes L args = .ok registration) ∨
      ∃ e, registrationBytes L args = .error e ∧
        (isMultisig args.variant = true → args.threshold ≠ 0 → args.signers.length ≠ 0 →
          NoStopFault e) := by
  -- with an empty flash and a user who agrees, a registration ends where its checks do
  let R : Registrar := ⟨true, true⟩
  let store : MultisigStore := ⟨fun _ => none, 0⟩
  have haccepts : ∀ registration, ∃ store', persistMultisig R args.name.chars registration store =
      .ok store' := fun registration =>
    persistMultisig_of_accepts (.inr ⟨rfl, rfl, .inr (by decide)⟩)
  have hbind := registerMultisig_eq_bind L R args store
  rcases registerMultisig_spec L.toSignerLib R args store with
    ⟨hregistrable, registration, hto, heq⟩ | ⟨e, heq, hfault⟩
  · left
    obtain ⟨store', hok⟩ := haccepts registration
    rw [heq, hok] at hbind
    obtain ⟨registration', hbytes, hpersist⟩ := bind_eq_ok.1 hbind.symm
    have hrecord := persistMultisig_record hpersist
    rw [persistMultisig_record hok] at hrecord
    obtain rfl := Option.some.inj hrecord
    exact ⟨hregistrable, registration, hto, hbytes⟩
  · right
    cases hbytes : registrationBytes L args with
    | error e' =>
        rw [heq, hbytes] at hbind
        obtain rfl := Except.error.inj hbind
        exact ⟨e, rfl, hfault⟩
    | ok registration =>
        obtain ⟨store', hok⟩ := haccepts registration
        rw [heq, hbytes, ok_bind, hok] at hbind
        cases hbind

/-! ### What is checked -/

/-- A policy that is well formed, with the key of this wallet among its signers. -/
structure WellFormedMultisig (args : MultisigArgs) : Prop where
  threshold_pos : 1 ≤ args.threshold
  threshold_le : args.threshold ≤ args.signers.length
  signers_le : args.signers.length ≤ MAX_ALLOWED_SIGNERS
  /-- no additional path has a hardened element -/
  paths : ∀ signer ∈ args.signers, ∃ path, signer.path = .elements path ∧
    ∀ n ∈ path.1, isHardened n = false
  /-- every xpub parses -/
  xpubs : ∀ signer ∈ args.signers, ∃ key,
    walletDeriveFromXpub L.toSignerLib signer.xpub.chars = some key
  /-- a signer with this wallet's fingerprint has the key the wallet derives for it -/
  ours : ∃ signer ∈ args.signers, ∃ provided calculated,
    signer.fingerprint.1 = walletGetFingerprint L.wallet ∧
      walletDeriveFromXpub L.toSignerLib signer.xpub.chars = some provided ∧
      walletGetHdkey L.toSignerLib signer.derivation.1 = some calculated ∧
      L.wallet.pubKey provided = L.wallet.pubKey calculated ∧
      L.chainCode provided = L.chainCode calculated

theorem validateSigner_eq_some {signer : Signer} {found : Bool}
    (h : validateSigner L.toSignerLib false signer = some found) :
    (∃ path, signer.path = .elements path ∧ ∀ n ∈ path.1, isHardened n = false) ∧
      ∃ provided, walletDeriveFromXpub L.toSignerLib signer.xpub.chars = some provided ∧
        (found = true → ∃ calculated, signer.fingerprint.1 = walletGetFingerprint L.wallet ∧
          walletGetHdkey L.toSignerLib signer.derivation.1 = some calculated ∧
          L.wallet.pubKey provided = L.wallet.pubKey calculated ∧
          L.chainCode provided = L.chainCode calculated) := by
  rw [validateSigner] at h
  split at h
  · cases h
  · next hallowed =>
      have hpath : ∃ path, signer.path = .elements path ∧ ∀ n ∈ path.1, isHardened n = false := by
        cases hsigner : signer.path with
        | string text => simp [additionalPathAllowed, hsigner] at hallowed
        | elements path =>
            refine ⟨path, rfl, ?_⟩
            simpa [additionalPathAllowed, hsigner] using hallowed
      cases hkey : walletDeriveFromXpub L.toSignerLib signer.xpub.chars with
      | none =>
          rw [hkey] at h
          cases h
      | some provided =>
          rw [hkey] at h
          refine ⟨hpath, provided, rfl, fun hfound => ?_⟩
          subst hfound
          dsimp only at h
          split at h
          · next hfingerprint =>
              cases hcalculated : walletGetHdkey L.toSignerLib signer.derivation.1 with
              | none =>
                  rw [hcalculated] at h
                  cases h
              | some calculated =>
                  rw [hcalculated] at h
                  have hsame := Option.some.inj h
                  rw [Bool.and_eq_true, beq_iff_eq, beq_iff_eq] at hsame
                  exact ⟨calculated, hfingerprint.symm, rfl, hsame.1, hsame.2⟩
          · cases h

/-- What passes the checks is well formed. -/
theorem Registrable.wellFormed {args : MultisigArgs} (h : Registrable L.toSignerLib args) :
    WellFormedMultisig L args := by
  obtain ⟨total, hvalidate⟩ := h.validated
  rw [validateSigners] at hvalidate
  split at hvalidate
  · cases hvalidate
  · cases hfound : args.signers.mapM (validateSigner L.toSignerLib false) with
    | none =>
        rw [hfound] at hvalidate
        cases hvalidate
    | some found =>
        rw [hfound] at hvalidate
        dsimp only at hvalidate
        split at hvalidate
        · next hany =>
            obtain ⟨heach, hresult⟩ := mem_of_mapM_eq_some hfound
            refine ⟨Nat.pos_of_ne_zero h.threshold_pos, h.threshold_le, h.signers_le, ?_, ?_, ?_⟩
            · intro signer hsigner
              obtain ⟨b, -, hb⟩ := heach signer hsigner
              exact (validateSigner_eq_some L hb).1
            · intro signer hsigner
              obtain ⟨b, -, hb⟩ := heach signer hsigner
              obtain ⟨-, provided, hprovided, -⟩ := validateSigner_eq_some L hb
              exact ⟨provided, hprovided⟩
            · obtain ⟨b, hb, htrue⟩ := List.any_eq_true.1 hany
              obtain rfl : b = true := htrue
              obtain ⟨signer, hsigner, hvalid⟩ := hresult true hb
              obtain ⟨-, provided, hprovided, hours⟩ := validateSigner_eq_some L hvalid
              obtain ⟨calculated, hfingerprint, hcalculated, hpub, hchain⟩ := hours rfl
              exact ⟨signer, hsigner, provided, calculated, hfingerprint, hprovided, hcalculated,
                hpub, hchain⟩
        · cases hvalidate

/-! ### What a registration does -/

/-- The record is written: the policy has passed the checks, another record is there or there is
room for one more, and the user has accepted the dialog about it. -/
structure Writes (presses : List Bool) (args : MultisigArgs) (store : MultisigStore)
    (run : RegistrationRun) (registration : Bytes) : Prop where
  new : store.record args.name.chars ≠ some registration
  room : (store.record args.name.chars).isSome = true ∨ store.count < MAX_MULTISIG_REGISTRATIONS
  confirmed : ∃ shown, run.dialog = some (true, shown) ∧ showMultisigActivity
    (registrationDialog L args (store.record args.name.chars).isSome) presses 0 [] =
      some (true, shown)
  store : run.store = store.set args.name.chars registration
  result : run.result = none ∨ run.result = some (.ok ())

/-- A registration leaves the records as they are, or it writes the record of what has passed the
checks; and when it succeeds, that record is there. -/
theorem registerMultisigRun_spec (presses : List Bool) (fate : Flash.Fate) (args : MultisigArgs)
    (store : MultisigStore) {run : RegistrationRun}
    (hrun : registerMultisigRun L presses fate args store = run) :
    (run.store = store ∧ ∃ e, run.result = some (.error e)) ∨
      ∃ registration, Registrable L.toSignerLib args ∧
        args.definition.toBytes L.toMultisigLib = .ok (some registration) ∧
        (Writes L presses args store run registration ∨
          run.store = store ∧
            (store.record args.name.chars = some registration ∨ run.result ≠ some (.ok ()))) := by
  rw [registerMultisigRun] at hrun
  rcases registrationBytes_spec L args with ⟨hregistrable, registration, hto, hbytes⟩ |
    ⟨e, hbytes, -⟩
  · right
    refine ⟨registration, hregistrable, hto, ?_⟩
    rw [hbytes] at hrun
    simp only [persistMultisigRun] at hrun
    split at hrun
    · next hsame =>
        subst hrun
        exact .inr ⟨rfl, .inl hsame⟩
    · next hnew =>
      split at hrun
      · subst hrun
        exact .inr ⟨rfl, .inr (fun h => (by cases h))⟩
      · next hroom =>
          have hroom' : (store.record args.name.chars).isSome = true ∨
              store.count < MAX_MULTISIG_REGISTRATIONS := by
            cases hrecord : store.record args.name.chars with
            | some existing => exact .inl rfl
            | none =>
                rw [hrecord] at hroom
                simpa using hroom
          split at hrun
          · subst hrun
            exact .inr ⟨rfl, .inr (fun h => (by cases h))⟩
          · subst hrun
            exact .inr ⟨rfl, .inr (fun h => (by cases h))⟩
          · next shown hdialog =>
              cases fate with
              | done =>
                  subst hrun
                  exact .inl ⟨hnew, hroom', ⟨shown, rfl, hdialog⟩, rfl, .inr rfl⟩
              | refused =>
                  subst hrun
                  exact .inr ⟨rfl, .inr (fun h => (by cases h))⟩
              | cutBefore =>
                  subst hrun
                  exact .inr ⟨rfl, .inr (fun h => (by cases h))⟩
              | cutAfter =>
                  subst hrun
                  exact .inl ⟨hnew, hroom', ⟨shown, rfl, hdialog⟩, rfl, .inl rfl⟩
  · rw [hbytes] at hrun
    subst hrun
    exact .inl ⟨rfl, e, rfl⟩

/-- The number of records is what is counted. -/
def MultisigStore.Counted (store : MultisigStore) : Prop :=
  ∃ names : List Bytes, names.Nodup ∧ (∀ name, name ∈ names ↔ store.record name ≠ none) ∧
    names.length = store.count

theorem MultisigStore.Counted.set {store : MultisigStore} (h : store.Counted)
    (name registration : Bytes) : (store.set name registration).Counted := by
  obtain ⟨names, hnodup, hmem, hlen⟩ := h
  by_cases hname : name ∈ names
  · have hsome : (store.record name).isSome = true :=
      Option.isSome_iff_ne_none.2 ((hmem name).1 hname)
    refine ⟨names, hnodup, fun other => ?_, ?_⟩
    · by_cases hother : other = name
      · subst hother
        simp [MultisigStore.set, hname]
      · rw [hmem other]
        simp [MultisigStore.set, Function.update_of_ne hother]
    · rw [MultisigStore.set, hlen]
      simp [hsome]
  · have hnone : (store.record name).isSome = false := by
      rw [Option.isSome_eq_false_iff, Option.isNone_iff_eq_none]
      exact not_not.1 fun hne => hname ((hmem name).2 hne)
    refine ⟨name :: names, List.nodup_cons.2 ⟨hname, hnodup⟩, fun other => ?_, ?_⟩
    · by_cases hother : other = name
      · subst hother
        simp [MultisigStore.set]
      · rw [List.mem_cons, hmem other]
        simp [MultisigStore.set, hother]
    · rw [List.length_cons, hlen, MultisigStore.set]
      simp [hnone]

theorem isMultisigByte_of_isMultisig {variant : ScriptVariant} (h : isMultisig variant = true) :
    isMultisigByte (scriptVariantByte variant) = true := by
  cases variant <;> first | rfl | cases h

/-- A registered record is loaded as the policy that was registered, when every key can be derived
along the path behind it. -/
theorem load_of_registrable {args : MultisigArgs} (h : Registrable L.toSignerLib args)
    {registration : Bytes} (hto : args.definition.toBytes L.toMultisigLib = .ok (some registration))
    {stored : Registrations} (hstored : stored args.name.chars = some registration) (n : ℕ)
    (hderives : ∀ signer ∈ args.signers, ∃ output, Derives L.toMultisigLib signer output) :
    ∃ outputs, List.Forall₂ (Derives L.toMultisigLib) args.signers outputs.1 ∧
      multisigLoadFromStorage L.toMultisigLib stored args.name.chars n = .ok ⟨true,
        some (args.definition.header.record outputs, args.signers.take n, args.signers.length),
        none⟩ := by
  obtain ⟨bytes, hbytes, hlen, hload⟩ := multisigDataFromBytes_of_derives L.toMultisigLib h.valid
  rw [hto] at hbytes
  obtain rfl := Option.some.inj (Except.ok.inj hbytes)
  obtain ⟨outputs, houtputs⟩ := exists_forall₂_derives L.toMultisigLib hderives
  have hle : outputs.length ≤ MAX_ALLOWED_SIGNERS := by
    rw [← houtputs.length_eq]
    exact h.signers_le
  refine ⟨⟨outputs, hle⟩, houtputs, ?_⟩
  have hfits : registration.length ≤ MAX_MULTISIG_BYTES_LEN := by
    have hkey : (blindingKeyBytes args.definition.masterBlindingKey).length ≤ 32 := by
      cases args.definition.masterBlindingKey with
      | none => exact Nat.zero_le _
      | some key => exact Nat.le_of_eq key.2
    have hsigners : args.definition.signers.length ≤ 15 := h.signers_le
    have htotal := totalNumPathElements_le L.toMultisigLib h.valid.persists
    rw [MAX_PATH_LEN] at htotal
    rw [hlen, MultisigDefinition.bytesLen]
    simp only [multisigBytesLen, MAX_MULTISIG_BYTES_LEN, MULTISIG_MASTER_BLINDING_KEY_SIZE,
      HMAC_SHA512_LEN, MAX_ALLOWED_SIGNERS, MAX_PATH_LEN, BIP32_SERIALIZED_LEN, HMAC_SHA256_LEN]
    omega
  have hread : stored.readBlob args.name.chars MAX_MULTISIG_BYTES_LEN = some registration := by
    rw [Registrations.readBlob, hstored]
    exact if_pos hfits
  have hvalid : (args.definition.header.record ⟨outputs, hle⟩).Valid := by
    refine ⟨isMultisigByte_of_isMultisig h.multi, h.valid.threshold_pos, ?_⟩
    have hcount : outputs.length = args.signers.length := houtputs.length_eq.symm
    have hthreshold := h.valid.threshold_le
    rw [MultisigHeader.record, hcount]
    exact hthreshold
  rw [multisigLoadFromStorage, hread, loadRecord]
  simp only [hload n ⟨outputs, hle⟩ houtputs]
  rw [multisigDataInvalid_eq_false_iff.2 hvalid]
  rfl

/-! ### The message -/

/-- What the fields of a message register meets the assertions of `register_multisig`. -/
theorem multisigParamsArgs_eq_ok {params : RegisterMultisigParams} {args : MultisigArgs}
    (h : multisigParamsArgs params = .ok args) :
    isMultisig args.variant = true ∧ args.threshold ≠ 0 ∧ args.signers.length ≠ 0 := by
  rw [multisigParamsArgs] at h
  obtain ⟨_, -, h⟩ := bind_eq_ok.1 h
  split at h
  · cases h
  · split at h
    · cases h
    · next descriptor hdescriptor =>
        split at h
        · cases h
        · cases h
        · next variant hvariant _ =>
            obtain ⟨key, -, h⟩ := bind_eq_ok.1 h
            split at h
            · cases h
            · next hthreshold =>
                split at h
                · cases h
                · next hsigners =>
                    obtain rfl := Except.ok.inj h
                    refine ⟨?_, fun hzero => hthreshold (.inl hzero), fun hnil => hsigners ?_⟩
                    · exact (Option.filter_eq_some_iff.1 hvariant).2
                    · rw [List.isEmpty_iff]
                      exact List.length_eq_zero_iff.1 hnil

/-- What a file or the fields of a message register meets the assertions of `register_multisig`. -/
theorem registerMultisigArgs_eq_ok {testnet keepTruncated : Bool} {params : RegisterMultisigParams}
    {args : MultisigArgs} (h : registerMultisigArgs L testnet keepTruncated params = .ok args) :
    isMultisig args.variant = true ∧ args.threshold ≠ 0 ∧ args.signers.length ≠ 0 := by
  rw [registerMultisigArgs] at h
  split at h
  · split at h
    · cases h
    · obtain ⟨_, -, h⟩ := bind_eq_ok.1 h
      obtain ⟨st, hlines, hfinish⟩ := bind_eq_ok.1 h
      rw [scanFrom_eq L (Nat.zero_le _), processLines] at hlines
      split at hlines
      · obtain ⟨_, -, hfault⟩ := bind_eq_ok.1 hlines
        cases hfault
      · obtain ⟨lines, -, hread⟩ := fileRead_processLine hlines
        have hdeclares := fileDeclares_of_finishFile hread hfinish
        obtain ⟨_, _, hformat⟩ := hdeclares.format
        have hpos := hdeclares.threshold_pos
        have hle := hdeclares.threshold_le
        exact ⟨isMultisig_of_parseFormat hformat, by omega, by omega⟩
  · exact multisigParamsArgs_eq_ok h

/-! ### The result -/

/-- What can be relied on after a registration. -/
structure SoundRegistration (args : MultisigArgs) (store : MultisigStore) (run : RegistrationRun) :
    Prop where
  /-- a record that has changed is one whose dialog was accepted, with every screen shown -/
  confirmed : run.store.record args.name.chars ≠ store.record args.name.chars →
    ∃ shown, run.dialog = some (true, shown) ∧
      (registrationDialog L args (store.record args.name.chars).isSome).ShownIn shown
  /-- no other record changes -/
  frame : ∀ name, name ≠ args.name.chars → run.store.record name = store.record name
  /-- what is registered is well formed, with the key of this wallet -/
  wellFormed : run.store.record args.name.chars ≠ store.record args.name.chars ∨
    run.result = some (.ok ()) → WellFormedMultisig L args
  /-- and it is loaded as the policy that was registered -/
  loads : run.store.record args.name.chars ≠ store.record args.name.chars ∨
    run.result = some (.ok ()) →
    (∀ signer ∈ args.signers, ∃ output, Derives L.toMultisigLib signer output) →
    ∀ n, ∃ outputs, List.Forall₂ (Derives L.toMultisigLib) args.signers outputs.1 ∧
      multisigLoadFromStorage L.toMultisigLib run.store.record args.name.chars n = .ok ⟨true,
        some (args.definition.header.record outputs, args.signers.take n, args.signers.length),
        none⟩
  /-- there are never too many records -/
  count : store.Counted → store.count ≤ MAX_MULTISIG_REGISTRATIONS →
    run.store.Counted ∧ run.store.count ≤ MAX_MULTISIG_REGISTRATIONS
  /-- what is registered already changes nothing -/
  identical : ∀ registration, args.definition.toBytes L.toMultisigLib = .ok (some registration) →
    store.record args.name.chars = some registration → run.store = store
  /-- after an error or a refusal every record is still there -/
  unchanged : ∀ e, run.result = some (.error e) → run.store = store

/-- **A registered multisig is confirmed, well formed, contains the key of this wallet and, when the
keys of its signers can be derived, is loaded as it was registered; and a message is rejected with
every record unchanged, or it is such a registration.** -/
theorem registration_exact (presses : List Bool) (fate : Flash.Fate) (store : MultisigStore) :
    (∀ args, SoundRegistration L args store (registerMultisigRun L presses fate args store)) ∧
      ∀ testnet keepTruncated params,
        (∃ e, registerMultisigProcess L presses fate testnet keepTruncated params store =
          .stopped store e) ∨
        ∃ args, registerMultisigProcess L presses fate testnet keepTruncated params store =
          registerMultisigRun L presses fate args store := by
  constructor
  · intro args
    generalize hrun : registerMultisigRun L presses fate args store = run
    rcases registerMultisigRun_spec L presses fate args store hrun with
      ⟨hstore, e, he⟩ | ⟨registration, hregistrable, hto, hwrites | ⟨hstore, hsame⟩⟩
    · -- the checks fail
      have hchanged : ¬(run.store.record args.name.chars ≠ store.record args.name.chars ∨
          run.result = some (.ok ())) := by
        rw [hstore, he]
        rintro (hne | hok)
        · exact hne rfl
        · cases hok
      exact ⟨fun h => absurd (.inl h) hchanged, fun _ _ => by rw [hstore],
        fun h => absurd h hchanged, fun h => absurd h hchanged, fun hcounted hle => by
          rw [hstore]
          exact ⟨hcounted, hle⟩, fun _ _ _ => hstore, fun _ _ => hstore⟩
    · -- the record is written
      obtain ⟨hnew, hroom, ⟨shown, hdialog, hshow⟩, hstore, hresult⟩ := hwrites
      have hrecord : run.store.record args.name.chars = some registration := by
        rw [hstore]
        exact Function.update_self _ _ _
      refine ⟨fun _ => ⟨shown, hdialog, shown_of_confirmed hshow⟩, fun name hname => ?_,
        fun _ => hregistrable.wellFormed, fun _ hderives n =>
          load_of_registrable L hregistrable hto hrecord n hderives, ?_, ?_, ?_⟩
      · rw [hstore]
        exact Function.update_of_ne hname _ _
      · intro hcounted hle
        rw [hstore]
        refine ⟨hcounted.set _ _, ?_⟩
        rw [MultisigStore.set]
        cases hsome : (store.record args.name.chars).isSome with
        | true => exact hle
        | false =>
            rw [hsome] at hroom
            exact hroom.resolve_left Bool.false_ne_true
      · intro registration' hto' hsame
        rw [hto] at hto'
        obtain rfl := Option.some.inj (Except.ok.inj hto')
        exact absurd hsame hnew
      · intro e he
        rcases hresult with hnone | hok
        · rw [hnone] at he
          cases he
        · rw [hok] at he
          cases he
    · -- the record is there already, or it is not written
      have hthere : run.store.record args.name.chars ≠ store.record args.name.chars ∨
          run.result = some (.ok ()) → run.store.record args.name.chars = some registration := by
        rw [hstore]
        rintro (hne | hok)
        · exact absurd rfl hne
        · exact hsame.resolve_right fun hnot => hnot hok
      exact ⟨fun h => absurd (by rw [hstore]) h, fun _ _ => by rw [hstore],
        fun _ => hregistrable.wellFormed, fun h hderives n =>
          load_of_registrable L hregistrable hto (hthere h) n hderives, fun hcounted hle => by
          rw [hstore]
          exact ⟨hcounted, hle⟩, fun _ _ _ => hstore, fun _ _ => hstore⟩
  · intro testnet keepTruncated params
    rw [registerMultisigProcess]
    cases registerMultisigArgs L testnet keepTruncated params with
    | error e => exact .inl ⟨e, rfl⟩
    | ok args => exact .inr ⟨args, rfl⟩

end Model

/-! ### What is not seen to -/

/-- The key of the wallet of `singleXpub`, with the largest depth in its bytes, and its text. -/
def deepXpub : Xpub := ⟨[
  4, 136, 178, 30, 255, 0, 0, 0, 0, 0, 0, 0, 0, 135, 61, 255, 129, 192, 47, 82, 86, 35, 253,
  31, 229, 22, 126, 172, 58, 85, 160, 73, 222, 61, 49, 75, 180, 46, 226, 39, 255, 237, 55,
  213, 8, 3, 57, 163, 96, 19, 48, 21, 151, 218, 239, 65, 251, 229, 147, 160, 44, 197, 19,
  208, 181, 85, 39, 236, 45, 241, 5, 14, 46, 143, 244, 156, 133, 194], rfl⟩

def deepXpubText : CString 120 := ⟨ascii "xpubEMpurUvVw83z56rYBiYN2J8t42v3PuYfYByQh5uhdE2tNfvndq" ++
  ascii "heEYkU8JnXDSuHnZmsyqrDrMAjS8JS3wx273Y88Rcwo3tcfE1YVbwFNu2", by decide⟩

/-- The libraries on that key. -/
def deepFileLib : FileLib Bytes where
  toSignerLib := { seedFileLib.toSignerLib with
    base58ToBytes := fun text =>
      if text = deepXpubText.chars then some deepXpub.1 else seedFileLib.base58ToBytes text
    base58FromBytes := fun bytes =>
      if bytes = deepXpub.1 then some deepXpubText.chars else seedFileLib.base58FromBytes bytes
    base58FromBytes_toBytes := by
      intro text bytes h
      split_ifs at h with hdeep
      · cases h
        rw [if_pos rfl, hdeep]
      · have hne : bytes ≠ deepXpub.1 := by
          rintro rfl
          change (if text = singleXpubText.chars then _ else _) = _ at h
          split_ifs at h with h1 h2
          · exact absurd (Option.some.inj h) (by decide)
          · exact absurd (Option.some.inj h) (by decide)
        rw [if_neg hne]
        exact seedFileLib.base58FromBytes_toBytes h }
  hexFromBytes := hexFromBytes
  hexToBytes := hexToBytes
  bip32PathFromStr := seedFileLib.bip32PathFromStr

/-- A policy of one signer. -/
def singleArgs (variant : ScriptVariant) (signer : Signer) : MultisigArgs where
  name := singleName
  variant := variant
  sorted := false
  threshold := 1
  signers := [signer]
  masterBlindingKey := none

/-- A signer whose key is to be derived further, though it cannot. -/
def deepSigner : Signer where
  fingerprint := singleSigner.fingerprint
  derivation := ⟨[], Nat.zero_le _⟩
  xpub := deepXpubText
  path := .elements ⟨[0], by decide⟩

/-- An empty flash. -/
def noRegistrations : MultisigStore := ⟨fun _ => none, 0⟩

/-- What is registered for a policy of one signer whose user accepts every screen. -/
def acceptedRun (L : FileLib Bytes) (args : MultisigArgs) (store : MultisigStore) :
    RegistrationRun :=
  registerMultisigRun L [true, true, true] .done args store

/-- Two policies that differ in the kind of script have the same dialog, so that the record of one
is replaced by the record of the other without a screen that shows it; and a key of the largest
depth with a path behind it is registered, and stops the device when it is loaded. -/
theorem registration_unseen :
    (∀ overwriting,
      registrationDialog seedFileLib (singleArgs .multiP2sh singleSigner) overwriting =
        registrationDialog seedFileLib (singleArgs .multiP2wsh singleSigner) overwriting) ∧
      (∃ record record', record ≠ record' ∧
        (acceptedRun seedFileLib (singleArgs .multiP2wsh singleSigner)
          noRegistrations).store.record singleName.chars = some record ∧
        (acceptedRun seedFileLib (singleArgs .multiP2sh singleSigner)
          (acceptedRun seedFileLib (singleArgs .multiP2wsh singleSigner) noRegistrations).store
            ).store.record singleName.chars = some record') ∧
      (acceptedRun deepFileLib (singleArgs .multiP2wsh deepSigner) noRegistrations).result =
          some (.ok ()) ∧
        multisigLoadFromStorage deepFileLib.toMultisigLib
          (acceptedRun deepFileLib (singleArgs .multiP2wsh deepSigner) noRegistrations).store.record
          singleName.chars 1 = .error .assert := by
  refine ⟨fun _ => rfl, ⟨_, _, ?_, rfl, rfl⟩, rfl, ?_⟩
  · decide +kernel
  · decide +kernel

end Jade
