/-
**Registering a multisig wallet (`signer.c`, `process/register_multisig.c`).**

The signers of a wallet are checked before it is registered: the keys must decode, nothing behind a
key may be hardened, and one of the signers must be this wallet.  The record is then compared with
the one that has its name already; when they are the same, nothing is asked and nothing is written.

Main definitions:

* `Jade.SignerLib` — the libraries below;
* `Jade.validateSigners` — the checks;
* `Jade.MultisigStore` — the registered records;
* `Jade.MultisigArgs`, `Jade.registerMultisig` — what is registered, and how.

Main results:

* `Jade.registerMultisig_eq` — a registration that passes its checks writes the record;
* `Jade.registerMultisig_record` — what a registration leaves under the name is the record of what
  was registered.
-/

import Jade.Keychain.Storage
import Jade.Registration.Multisig
import Jade.Utils.CborRpc

set_option relaxedAutoImplicit false
set_option autoImplicit false

namespace Jade

open Exec

/-! ### Checking the signers -/

/-- The libraries below. -/
structure SignerLib (K : Type) extends MultisigLib K where
  /-- the member `chain_code` of a key -/
  chainCode : K → Bytes
  /-- `bip32_path_str_get_features`: has the path a hardened element? -/
  bip32PathStrIsHardened : Bytes → Option Bool

section Model

variable {K : Type} (L : SignerLib K)

/-- `wallet_derive_from_xpub` without a path. -/
def walletDeriveFromXpub (xpub : Bytes) : Option K :=
  match L.base58ToBytes xpub with
  | none => none
  | some written =>
      if written.length ≠ BIP32_SERIALIZED_LEN then none else L.wallet.bip32KeyUnserialize written

/-- `wallet_get_hdkey` for a public key. -/
def walletGetHdkey (path : List UInt32) : Option K :=
  if path.isEmpty then some L.wallet.xpriv
  else L.wallet.bip32PublicKeyFromParentPath L.wallet.xpriv path

/-- Check that the additional path, after the key, contains no hardened elements. -/
def additionalPathAllowed (acceptStringPath : Bool) : SignerPath → Bool
  | .string text => acceptStringPath && L.bip32PathStrIsHardened text.chars == some false
  | .elements path => path.1.all (!isHardened ·)

/-- One turn of the loop of `validate_signers`: is the signer this wallet? -/
def validateSigner (acceptStringPath : Bool) (signer : Signer) : Option Bool :=
  if !additionalPathAllowed L acceptStringPath signer.path then none
  else
    match walletDeriveFromXpub L signer.xpub.chars with
    | none => none
    | some provided =>
        if walletGetFingerprint L.wallet = signer.fingerprint.1 then
          match walletGetHdkey L signer.derivation.1 with
          | none => none
          | some calculated =>
              some (L.wallet.pubKey provided == L.wallet.pubKey calculated &&
                L.chainCode provided == L.chainCode calculated)
        else some false

/-- `validate_signers`, with `total_num_path_elements` -/
def validateSigners (acceptStringPath : Bool) (signers : List Signer) : Option ℕ :=
  if signers.isEmpty || MAX_ALLOWED_SIGNERS < signers.length then none
  else
    match signers.mapM (validateSigner L acceptStringPath) with
    | none => none
    | some found => if found.any id then some (totalNumPathElements signers) else none

theorem validateSigners_eq_some {acceptStringPath : Bool} {signers : List Signer} {total : ℕ}
    (h : validateSigners L acceptStringPath signers = some total) :
    total = totalNumPathElements signers := by
  unfold validateSigners at h
  split at h
  · cases h
  · split at h
    · cases h
    · split at h
      · exact (Option.some.inj h).symm
      · cases h

/-- The key of a validated signer decodes, and the path behind it is an array. -/
theorem persists_of_validateSigner {signer : Signer} {found : Bool}
    (h : validateSigner L false signer = some found) :
    ∃ xpub path, Persists L.toMultisigLib signer xpub path := by
  unfold validateSigner at h
  split at h
  · cases h
  next hallowed =>
  cases hpath : signer.path with
  | string text => simp [additionalPathAllowed, hpath] at hallowed
  | elements path =>
      cases hkey : walletDeriveFromXpub L signer.xpub.chars with
      | none => simp [hkey] at h
      | some provided =>
          unfold walletDeriveFromXpub at hkey
          cases hbytes : L.base58ToBytes signer.xpub.chars with
          | none => simp [hbytes] at hkey
          | some written =>
              rw [hbytes] at hkey
              dsimp only at hkey
              split_ifs at hkey with hlen
              exact ⟨⟨written, not_not.1 hlen⟩, path, hbytes, hpath⟩

/-- Every signer of a validated wallet is validated. -/
theorem persists_of_validateSigners {signers : List Signer} {total : ℕ}
    (h : validateSigners L false signers = some total) :
    ∀ signer ∈ signers, ∃ xpub path, Persists L.toMultisigLib signer xpub path := by
  unfold validateSigners at h
  split at h
  · cases h
  next hnonempty =>
  clear hnonempty
  cases hfound : signers.mapM (validateSigner L false) with
  | none => simp [hfound] at h
  | some found =>
      clear h
      induction signers generalizing found with
      | nil =>
          intro signer hsigner
          cases hsigner
      | cons signer signers ih =>
          simp only [List.mapM_cons, Option.bind_eq_bind, Option.bind_eq_some_iff] at hfound
          obtain ⟨b, hb, rest, hrest, -⟩ := hfound
          intro s hs
          rcases List.mem_cons.1 hs with rfl | hs
          · exact persists_of_validateSigner L hb
          · exact ih rest hrest s hs

/-! ### Registering -/

def MAX_MULTISIG_NAME_SIZE : ℕ := 16
def MAX_MULTISIG_REGISTRATIONS : ℕ := 16

/-- The registered records. -/
structure MultisigStore where
  record : Bytes → Option Bytes
  count : ℕ

/-- `storage_set_multisig_registration` -/
def MultisigStore.set (store : MultisigStore) (name registration : Bytes) : MultisigStore where
  record := Function.update store.record name (some registration)
  count := if (store.record name).isSome then store.count else store.count + 1

/-- Why a registration fails: it is rejected, or an assertion fails. -/
inductive RegisterStop
  | rejected (code : ℤ) (message : String)
  | fault (f : Fault)
  deriving DecidableEq, Repr

/-- What the user answers, and whether the flash can be written. -/
structure Registrar where
  confirmed : Bool
  persisted : Bool

/-- The arguments of `register_multisig`. -/
structure MultisigArgs where
  name : CString MAX_MULTISIG_NAME_SIZE
  variant : ScriptVariant
  sorted : Bool
  threshold : ℕ
  signers : List Signer
  masterBlindingKey : Option (Sized MULTISIG_MASTER_BLINDING_KEY_SIZE)

/-- What is registered. -/
def MultisigArgs.definition (args : MultisigArgs) : MultisigDefinition where
  variant := args.variant
  sorted := args.sorted
  threshold := UInt8.ofNat args.threshold
  masterBlindingKey := args.masterBlindingKey
  signers := args.signers

/-- A failed assertion ends the registration. -/
def verified {α : Type} (x : Except Fault α) : Except RegisterStop α := x.mapError .fault

theorem verified_eq_ok {α : Type} {x : Except Fault α} {a : α} : verified x = .ok a ↔ x = .ok a := by
  cases x <;> simp [verified, Except.mapError]

/-- `register_multisig`, after the checks: compare with the record of the name, ask the user, and
write. -/
def persistMultisig (R : Registrar) (name registration : Bytes) (store : MultisigStore) :
    Except RegisterStop MultisigStore :=
  -- an identical registration exists
  if store.record name = some registration then .ok store
  else if (store.record name).isNone && decide (MAX_MULTISIG_REGISTRATIONS ≤ store.count) then
    .error (.rejected CBOR_RPC_BAD_PARAMETERS "Already have maximum number of multisig wallets")
  else if !R.confirmed then
    .error (.rejected CBOR_RPC_USER_CANCELLED "User declined to register multisig")
  else if !R.persisted then
    .error (.rejected CBOR_RPC_INTERNAL_ERROR "Failed to persist multisig data")
  else .ok (store.set name registration)

/-- Reject the registration unless the condition holds. -/
def registerCheck (c : Bool) (message : String) : Except RegisterStop Unit :=
  if c then .ok () else .error (.rejected CBOR_RPC_BAD_PARAMETERS message)

/-- `register_multisig` -/
def registerMultisig (R : Registrar) (args : MultisigArgs) (store : MultisigStore) :
    Except RegisterStop MultisigStore := do
  verified (jadeVerify (isMultisig args.variant))
  verified (jadeVerify (args.threshold ≠ 0))
  verified (jadeVerify (args.signers.length ≠ 0))
  registerCheck (storageKeyNameValid args.name.chars) "Invalid multisig name"
  registerCheck (args.signers.length ≤ MAX_ALLOWED_SIGNERS) "Invalid multisig co-signers"
  registerCheck (args.threshold ≤ args.signers.length) "Invalid multisig threshold"
  match validateSigners L false args.signers with
  | none => .error (.rejected CBOR_RPC_BAD_PARAMETERS "Failed to validate co-signers")
  | some total => do
      let key := blindingKeyBytes args.masterBlindingKey
      match ← verified (multisigDataToBytes L.toMultisigLib args.variant args.sorted
          (UInt8.ofNat args.threshold) key args.signers total
          (multisigBytesLen key.length args.signers.length total)) with
      | none => .error (.rejected CBOR_RPC_INTERNAL_ERROR "Failed to serialise multisig")
      | some registration => persistMultisig R args.name.chars registration store

end Model

/-! ### What a registration leaves -/

section Registered

variable {K : Type} (L : SignerLib K)

/-- The record is there already, or there is room for it, the user agrees and the flash can be
written. -/
def Registrar.Accepts (R : Registrar) (store : MultisigStore) (name registration : Bytes) : Prop :=
  store.record name = some registration ∨
    R.confirmed = true ∧ R.persisted = true ∧
      ((store.record name).isSome = true ∨ store.count < MAX_MULTISIG_REGISTRATIONS)

theorem persistMultisig_record {R : Registrar} {name registration : Bytes}
    {store store' : MultisigStore} (h : persistMultisig R name registration store = .ok store') :
    store'.record name = some registration := by
  unfold persistMultisig at h
  split_ifs at h with hsame
  · cases h
    exact hsame
  · cases h
    exact Function.update_self name _ _

theorem persistMultisig_of_accepts {R : Registrar} {name registration : Bytes}
    {store : MultisigStore} (h : R.Accepts store name registration) :
    ∃ store', persistMultisig R name registration store = .ok store' := by
  unfold persistMultisig
  by_cases hsame : store.record name = some registration
  · exact ⟨store, if_pos hsame⟩
  · obtain ⟨hc, hp, hroom⟩ := h.resolve_left hsame
    have hfree : ((store.record name).isNone && decide (MAX_MULTISIG_REGISTRATIONS ≤ store.count)) =
        false := by
      cases hrec : store.record name with
      | none => simpa [hrec] using hroom
      | some existing => rfl
    exact ⟨store.set name registration, by simp [hsame, hfree, hc, hp]⟩

/-- What `register_multisig` checks before it writes. -/
structure Registrable (args : MultisigArgs) : Prop where
  multi : isMultisig args.variant = true
  threshold_pos : args.threshold ≠ 0
  threshold_le : args.threshold ≤ args.signers.length
  signers_le : args.signers.length ≤ MAX_ALLOWED_SIGNERS
  name : storageKeyNameValid args.name.chars = true
  validated : ∃ total, validateSigners L false args.signers = some total

/-- A registration that passes its checks writes the record of what is registered. -/
theorem registerMultisig_eq {args : MultisigArgs} (h : Registrable L args) (R : Registrar)
    (store : MultisigStore) {registration : Bytes}
    (hbytes : args.definition.toBytes L.toMultisigLib = .ok (some registration)) :
    registerMultisig L R args store = persistMultisig R args.name.chars registration store := by
  obtain ⟨total, htotal⟩ := h.validated
  have hlen : args.signers.length ≠ 0 := by
    have := h.threshold_pos
    have := h.threshold_le
    omega
  have heq := validateSigners_eq_some L htotal
  subst heq
  have hbytes' : multisigDataToBytes L.toMultisigLib args.variant args.sorted
      (UInt8.ofNat args.threshold) (blindingKeyBytes args.masterBlindingKey) args.signers
      (totalNumPathElements args.signers)
      (multisigBytesLen (blindingKeyBytes args.masterBlindingKey).length args.signers.length
        (totalNumPathElements args.signers)) = .ok (some registration) := hbytes
  simp [registerMultisig, registerCheck, verified, jadeVerify, h.multi, h.threshold_pos, hlen, h.name,
    h.signers_le, h.threshold_le, htotal, hbytes', Except.mapError, bind, Except.bind]

theorem toNat_threshold {args : MultisigArgs} (h : Registrable L args) :
    (UInt8.ofNat args.threshold).toNat = args.threshold := by
  have hle := h.threshold_le
  have hmax := h.signers_le
  rw [MAX_ALLOWED_SIGNERS] at hmax
  exact UInt8.toNat_ofNat_of_lt' (by rw [UInt8.size]; omega)

/-- What passes the checks can be written as a record. -/
theorem Registrable.valid {args : MultisigArgs} (h : Registrable L args) :
    args.definition.Valid L.toMultisigLib where
  threshold_pos := UInt8.lt_iff_toNat_lt.2 (by
    rw [MultisigArgs.definition, toNat_threshold L h]
    exact Nat.pos_of_ne_zero h.threshold_pos)
  threshold_le := by
    rw [MultisigArgs.definition, toNat_threshold L h]
    exact h.threshold_le
  signers_le := h.signers_le
  persists := by
    obtain ⟨total, htotal⟩ := h.validated
    exact persists_of_validateSigners L htotal

/-- What a registration that does not pass its checks is told. -/
def registerReason (args : MultisigArgs) : String :=
  if storageKeyNameValid args.name.chars = false then "Invalid multisig name"
  else if MAX_ALLOWED_SIGNERS < args.signers.length then "Invalid multisig co-signers"
  else if args.signers.length < args.threshold then "Invalid multisig threshold"
  else "Failed to validate co-signers"

/-- It is not an assertion that fails. -/
def NoStopFault (e : RegisterStop) : Prop := ∀ f, e ≠ .fault f

theorem noStopFault_rejected (code : ℤ) (message : String) :
    NoStopFault (.rejected code message) := by
  intro f hf
  cases hf

/-- A registration passes its checks and goes on to the record, or it ends; and it only ends with
an assertion when its caller has left out a check. -/
theorem registerMultisig_spec (R : Registrar) (args : MultisigArgs) (store : MultisigStore) :
    (Registrable L args ∧ ∃ registration, args.definition.toBytes L.toMultisigLib =
        .ok (some registration) ∧
      registerMultisig L R args store = persistMultisig R args.name.chars registration store) ∨
      ∃ e, registerMultisig L R args store = .error e ∧
        (isMultisig args.variant = true → args.threshold ≠ 0 → args.signers.length ≠ 0 →
          NoStopFault e) := by
  by_cases h : Registrable L args
  · obtain ⟨registration, -, -, -, hbytes, -⟩ :=
      MultisigDefinition.toBytes_eq_ok L.toMultisigLib h.valid
    exact .inl ⟨h, registration, hbytes, registerMultisig_eq L h R store hbytes⟩
  · right
    rw [registerMultisig]
    cases hmulti : isMultisig args.variant with
    | false => exact ⟨_, rfl, fun h' => (by cases h')⟩
    | true =>
    by_cases hthreshold : args.threshold ≠ 0
    · by_cases hsigners : args.signers.length ≠ 0
      · rw [decide_eq_true hthreshold, decide_eq_true hsigners]
        refine ⟨.rejected CBOR_RPC_BAD_PARAMETERS (registerReason args), ?_,
          fun _ _ _ => noStopFault_rejected _ _⟩
        rw [registerReason]
        cases hname : storageKeyNameValid args.name.chars with
        | false => rfl
        | true =>
        by_cases hmax : args.signers.length ≤ MAX_ALLOWED_SIGNERS
        · by_cases hle : args.threshold ≤ args.signers.length
          · cases hvalidate : validateSigners L false args.signers with
            | some total =>
                exact absurd ⟨hmulti, hthreshold, hle, hmax, hname, total, hvalidate⟩ h
            | none =>
                rw [if_neg (by simp), if_neg (Nat.not_lt.2 hmax), if_neg (Nat.not_lt.2 hle),
                  decide_eq_true hmax, decide_eq_true hle]
                rfl
          · rw [if_neg (by simp), if_neg (Nat.not_lt.2 hmax), if_pos (Nat.not_le.1 hle),
              decide_eq_true hmax, decide_eq_false hle]
            rfl
        · rw [if_neg (by simp), if_pos (Nat.not_le.1 hmax), decide_eq_false hmax]
          rfl
      · exact ⟨_, by rw [decide_eq_false hsigners, decide_eq_true hthreshold]; rfl,
          fun _ _ h' => absurd h' hsigners⟩
    · exact ⟨_, by rw [decide_eq_false hthreshold]; rfl, fun _ h' => absurd h' hthreshold⟩

/-- What a registration leaves under the name is the record of what was registered. -/
theorem registerMultisig_record {args : MultisigArgs} {R : Registrar} {store store' : MultisigStore}
    (h : registerMultisig L R args store = .ok store') :
    ∃ registration, args.definition.toBytes L.toMultisigLib = .ok (some registration) ∧
      store'.record args.name.chars = some registration := by
  obtain ⟨_, -, h⟩ := bind_eq_ok.1 h
  obtain ⟨_, -, h⟩ := bind_eq_ok.1 h
  obtain ⟨_, -, h⟩ := bind_eq_ok.1 h
  obtain ⟨_, -, h⟩ := bind_eq_ok.1 h
  obtain ⟨_, -, h⟩ := bind_eq_ok.1 h
  obtain ⟨_, -, h⟩ := bind_eq_ok.1 h
  cases hvalidate : validateSigners L false args.signers with
  | none =>
      rw [hvalidate] at h
      cases h
  | some total =>
      rw [hvalidate] at h
      obtain ⟨registration, hbytes, h⟩ := bind_eq_ok.1 h
      have heq := validateSigners_eq_some L hvalidate
      subst heq
      cases registration with
      | none => cases h
      | some registration =>
          exact ⟨registration, verified_eq_ok.1 hbytes, persistMultisig_record h⟩

end Registered

end Jade
