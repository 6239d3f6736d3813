/-
**The network restriction of the stored wallet.**

A stored wallet is meant for main networks or for test networks, depending on where it was first
used.  The restriction is a record in flash; requests are checked against a copy in memory, which the
boot code reads and which the operations on either wallet change.  A temporary wallet uses the same
copy, and clears it, without touching the record.

The invariant is that the copy agrees with the record while the wallet is unlocked by its PIN.
Nothing restores the copy when a temporary wallet is forgotten, so that unlocking the wallet after
that may find the copy empty, or holding the type the temporary wallet was used on: the wallet is
then unlocked for networks of the wrong type, and an empty copy makes the new type the record.
Everything else keeps the invariant, and leaves the record alone until the wallet is erased.

Main definitions:

* `Jade.IsRestricted`, `Jade.PinUnlocked` — a record that restricts, and an unlocked wallet;
* `Jade.RestrictionInv` — the copy agrees with the record;
* `Jade.NetworkSafe` — the requests that do not unlock the wallet for a network of another type.

Main results:

* `Jade.sat_getPinLoadKeys_record`, `Jade.sat_setPinSaveKeys_record` — what unlocking and storing do
  to the record and the copy;
* `Jade.loginStep_restriction` — **one safe step keeps the invariant, and the record until the wallet
  is erased**;
* `Jade.restriction_run` — **the restriction is permanent along every safe run**;
* `Jade.restriction_fails_after_temporary` — a detour through a temporary wallet changes it.
-/

import Jade.Keychain.Login
import Jade.Keychain.StoreLoad

set_option relaxedAutoImplicit false
set_option autoImplicit false

namespace Jade

open Exec Flash Run

/-! ### The record and its copy -/

def IsRestricted (t : NetworkType) : Prop := t = .main ∨ t = .test

instance (t : NetworkType) : Decidable (IsRestricted t) := inferInstanceAs (Decidable (_ ∨ _))

theorem IsRestricted.ne_none {t : NetworkType} (h : IsRestricted t) : t ≠ .none := by
  rintro rfl
  exact absurd h (by decide)

/-- The wallet in memory is the stored one, unlocked by its PIN. -/
structure PinUnlocked (d : Dev NvsKey Ram PinTest) : Prop where
  pin : d.ram.hasEncryptedBlob = true
  loaded : d.ram.keychainData.isSome = true
  stored : d.ram.keychainTemporary = false

/-- **While the wallet is unlocked, the copy in memory agrees with the record.** -/
def RestrictionInv (d : Dev NvsKey Ram PinTest) : Prop :=
  PinUnlocked d → IsRestricted (restrictionOf d.store) →
    d.ram.networkTypeRestriction = restrictionOf d.store

theorem restrictionInv_of_none {d : Dev NvsKey Ram PinTest} (h : d.ram.keychainData = none) :
    RestrictionInv d := by
  intro hunlocked
  have hloaded := hunlocked.loaded
  rw [h] at hloaded
  exact absurd hloaded (by decide)

theorem restrictionInv_of_temporary {d : Dev NvsKey Ram PinTest}
    (h : d.ram.keychainTemporary = true) : RestrictionInv d :=
  fun hunlocked => absurd (h.symm.trans hunlocked.stored) (by decide)

theorem restrictionInv_of_no_pin {d : Dev NvsKey Ram PinTest} (h : d.ram.hasEncryptedBlob = false) :
    RestrictionInv d := fun hunlocked => absurd (h.symm.trans hunlocked.pin) (by decide)

/-- Neither the schedule nor the log matters, nor who holds the wallet. -/
theorem RestrictionInv.congr {d d' : Dev NvsKey Ram PinTest} (h : RestrictionInv d)
    (hstore : restrictionOf d'.store = restrictionOf d.store)
    (hcopy : d'.ram.networkTypeRestriction = d.ram.networkTypeRestriction)
    (hunlocked : PinUnlocked d' → PinUnlocked d) : RestrictionInv d' := by
  intro hpin hrestricted
  rw [hcopy, hstore]
  rw [hstore] at hrestricted
  exact h (hunlocked hpin) hrestricted

theorem PinUnlocked.congr {d d' : Dev NvsKey Ram PinTest} (h : PinUnlocked d)
    (hram : d'.ram = d.ram) : PinUnlocked d' :=
  ⟨by rw [hram]; exact h.pin, by rw [hram]; exact h.loaded, by rw [hram]; exact h.stored⟩

theorem restrictionOf_congr {st st' : Store NvsKey} (h : st' .networktype = st .networktype) :
    restrictionOf st' = restrictionOf st := by rw [restrictionOf, restrictionOf, h]

theorem restrictionOf_update_of_ne (st : Store NvsKey) {k : NvsKey} (hk : k ≠ .networktype)
    (v : Option Bytes) : restrictionOf (Function.update st k v) = restrictionOf st :=
  restrictionOf_congr (Function.update_of_ne hk.symm _ _)

theorem restrictionOf_update_none (st : Store NvsKey) :
    restrictionOf (Function.update st .networktype (some NetworkType.none.toBytes)) = .none := by
  simp [restrictionOf, NetworkType.toBytes, NetworkType.ofBytes, Option.filter]

theorem restrictionOf_update_restricted (st : Store NvsKey) {t : NetworkType} (ht : IsRestricted t) :
    restrictionOf (Function.update st .networktype (some t.toBytes)) = t := by
  rcases ht with rfl | rfl <;>
    simp [restrictionOf, NetworkType.toBytes, NetworkType.ofBytes, Option.filter]

/-- Every network is of one of the two types. -/
theorem isRestricted_networkToType (networkId : Network) : IsRestricted (networkToType networkId) := by
  cases networkId with
  | bitcoin | liquid | litecoin => exact .inl rfl
  | bitcoinTestnet | liquidTestnet | litecoinTestnet => exact .inr rfl
  | bitcoinRegtest | liquidRegtest | litecoinRegtest => exact .inr rfl

/-! ### The functions that change the restriction -/

/-- Clearing touches the record of a wallet that is not a temporary one, unless the flash refuses. -/
theorem sat_keychainClearNetworkTypeRestriction (d : Dev NvsKey Ram PinTest) :
    Sat keychainClearNetworkTypeRestriction
      (fun _ d' => d'.ram = { d.ram with networkTypeRestriction := .none } ∧
        (d.ram.keychainTemporary = true → d'.store = d.store) ∧
        (d.ram.keychainTemporary = false → d'.fates = d.fates.tail ∧
          (restrictionOf d'.store = .none ∨ d.fate = .refused ∧ d'.store = d.store)))
      (fun _ d' => d.ram.keychainTemporary = true → d'.store = d.store) d := by
  obtain ⟨st, ⟨keydata, copy, flag, userdata, temp, entropy, flags⟩, fates, log⟩ := d
  simp only [keychainClearNetworkTypeRestriction, keychainHasTemporary,
    storageSetNetworkTypeRestriction, storeBlob, write, sat_bind, sat_getRam, sat_assert, sat_pure,
    sat_ite, sat_modifyRam, sat_commit]
  cases temp with
  | true => simp
  | false =>
      simp only [Bool.not_false, Bool.true_or, true_implies, Bool.true_eq_false, false_implies,
        not_true_eq_false, and_true, Bool.false_eq_true, true_and, implies_true]
      refine fun _ => ⟨fun _ => ⟨rfl, rfl, .inl ?_⟩, fun hrefused => .inr hrefused⟩
      exact restrictionOf_update_none st

/-- Setting fills an empty copy, and writes the record of the stored wallet then. -/
theorem sat_keychainSetNetworkTypeRestriction {t : NetworkType} (ht : IsRestricted t)
    (d : Dev NvsKey Ram PinTest) :
    Sat (keychainSetNetworkTypeRestriction t)
      (fun _ d' => (d.ram.networkTypeRestriction = .none ∨ d.ram.networkTypeRestriction = t) ∧
        (∃ copy, d'.ram = { d.ram with networkTypeRestriction := copy } ∧
          (d.ram.keychainData.isSome = true → copy = t)) ∧
        (d'.store = d.store ∧ (d.ram.networkTypeRestriction = .none →
            d.ram.hasEncryptedBlob = true → d.ram.keychainTemporary = false → d.fate = .refused) ∨
          restrictionOf d'.store = t ∧ d.ram.networkTypeRestriction = .none ∧
            d.ram.hasEncryptedBlob = true ∧ d.ram.keychainTemporary = false))
      (fun _ d' => d'.store = d.store ∨
        restrictionOf d'.store = t ∧ d.ram.networkTypeRestriction = .none ∧
          d.ram.hasEncryptedBlob = true ∧ d.ram.keychainTemporary = false) d := by
  obtain ⟨st, ⟨keydata, copy, flag, userdata, temp, entropy, flags⟩, fates, log⟩ := d
  have hput : restrictionOf (Function.update st .networktype (some t.toBytes)) = t :=
    restrictionOf_update_restricted st ht
  have hlen : decide (0 < t.toBytes.length) = true := by
    rcases ht with rfl | rfl <;> rfl
  simp only [keychainSetNetworkTypeRestriction, keychainIsNetworkTypeConsistent, keychainHasPin,
    keychainHasTemporary, storageSetNetworkTypeRestriction, storeBlob, write, sat_bind, sat_getRam,
    sat_assert, sat_pure, sat_ite, sat_modifyRam, sat_commit, hlen, true_implies,
    Bool.true_eq_false, false_implies, and_true, Bool.or_eq_true, decide_eq_true_eq,
    Bool.and_eq_true, Bool.not_eq_true']
  refine ⟨fun hcons => ⟨?_, fun hsome => ?_⟩, fun _ => .inl trivial⟩
  · rintro rfl
    -- the copy is filled when there is a wallet, whatever has become of the record
    have hfill : ∀ {R : Prop}, R → (keydata.isSome = true →
          (NetworkType.none = .none ∨ NetworkType.none = t) ∧ (∃ copy : NetworkType,
            (⟨keydata, t, flag, userdata, temp, entropy, flags⟩ : Ram) =
              ⟨keydata, copy, flag, userdata, temp, entropy, flags⟩ ∧
              (keydata.isSome = true → copy = t)) ∧ R) ∧
        (¬ keydata.isSome = true →
          (NetworkType.none = .none ∨ NetworkType.none = t) ∧ (∃ copy : NetworkType,
            (⟨keydata, .none, flag, userdata, temp, entropy, flags⟩ : Ram) =
              ⟨keydata, copy, flag, userdata, temp, entropy, flags⟩ ∧
              (keydata.isSome = true → copy = t)) ∧ R) := fun hR =>
      ⟨fun _ => ⟨.inl rfl, ⟨t, rfl, fun _ => rfl⟩, hR⟩,
        fun hdata => ⟨.inl rfl, ⟨.none, rfl, fun h => absurd h hdata⟩, hR⟩⟩
    refine ⟨fun _ => ⟨fun hstored => ?_, fun hnot => ?_⟩, fun _ => .inl trivial⟩
    · obtain ⟨rfl, rfl⟩ := hstored
      exact ⟨fun _ => hfill (.inr ⟨hput, rfl, rfl, rfl⟩),
        fun hrefused => hfill (.inl ⟨trivial, fun _ _ _ => hrefused⟩), fun _ => .inl trivial,
        fun _ => .inr ⟨hput, rfl, rfl, rfl⟩⟩
    · exact hfill (.inl ⟨trivial, fun _ hflag htemp => absurd ⟨hflag, htemp⟩ hnot⟩)
  · rcases hcons with hnone | rfl
    · exact absurd hnone hsome
    · exact ⟨.inr rfl, ⟨t, rfl, fun _ => rfl⟩, .inl ⟨trivial, fun h => absurd h hsome⟩⟩

/-! ### One attempt -/

/-- The record and the copy are what they were. -/
def Kept (d d' : Dev NvsKey Ram PinTest) : Prop :=
  restrictionOf d'.store = restrictionOf d.store ∧
    d'.ram.networkTypeRestriction = d.ram.networkTypeRestriction

/-- The record is what it was, or the flash allows no attempts any more. -/
def RecordOrErased (d d' : Dev NvsKey Ram PinTest) : Prop :=
  restrictionOf d'.store = restrictionOf d.store ∨ counterOf d'.store = 0

/-- The record and the copy are what they were, unless the wallet has been erased. -/
def KeptOrErased (d d' : Dev NvsKey Ram PinTest) : Prop :=
  Kept d d' ∨ d'.ram.hasEncryptedBlob = false ∧ RecordOrErased d d'

theorem Kept.refl (d : Dev NvsKey Ram PinTest) : Kept d d := ⟨rfl, rfl⟩

theorem Kept.trans {d d₁ d₂ : Dev NvsKey Ram PinTest} (h : Kept d d₁) (h' : Kept d₁ d₂) :
    Kept d d₂ := ⟨h'.1.trans h.1, h'.2.trans h.2⟩

theorem KeptOrErased.record {d d' : Dev NvsKey Ram PinTest} (h : KeptOrErased d d') :
    RecordOrErased d d' := h.elim (fun hkept => .inl hkept.1) (fun herased => herased.2)

theorem Kept.recordOrErased {d d₁ d₂ : Dev NvsKey Ram PinTest} (h : Kept d d₁)
    (h' : RecordOrErased d₁ d₂) : RecordOrErased d d₂ := h'.imp_left fun hrecord => hrecord.trans h.1

theorem Kept.keptOrErased {d d₁ d₂ : Dev NvsKey Ram PinTest} (h : Kept d d₁)
    (h' : KeptOrErased d₁ d₂) : KeptOrErased d d₂ :=
  h'.imp (fun hkept => h.trans hkept)
    (fun herased => ⟨herased.1, h.recordOrErased herased.2⟩)

/-- A commit of another record. -/
theorem keeps_record_commit (t : NetworkType) (r : Ram) {k : NvsKey} (hk : k ≠ .networktype)
    (v : Option Bytes) :
    Keeps (fun d : Dev NvsKey Ram PinTest => restrictionOf d.store = t ∧ d.ram = r)
      (commit k v) := fun d h => by
  have hput : restrictionOf (Function.update d.store k v) = t :=
    (restrictionOf_update_of_ne _ hk v).trans h.1
  exact (sat_commit k v).2 ⟨fun _ => ⟨hput, h.2⟩, fun _ => h, fun _ => h, fun _ => ⟨hput, h.2⟩⟩

theorem keeps_record_storageEraseEncryptedBlob (t : NetworkType) (r : Ram) :
    Keeps (fun d : Dev NvsKey Ram PinTest => restrictionOf d.store = t ∧ d.ram = r)
      storageEraseEncryptedBlob :=
  Keeps.bind (keeps_record_commit t r (by decide) _) fun _ => keeps_record_commit t r (by decide) _

/-- An attempt that is paid for was there, and the flash took the payment. -/
theorem sat_storageDecrementCounter_record (d : Dev NvsKey Ram PinTest) :
    Sat storageDecrementCounter
      (fun ok d' => restrictionOf d'.store = restrictionOf d.store ∧ d'.ram = d.ram ∧
        (ok = true → 1 ≤ counterOf d.store ∧ counterOf d.store ≤ 3 ∧ d.fate = .done))
      (fun _ d' => restrictionOf d'.store = restrictionOf d.store) d := by
  have herase : ∀ d' : Dev NvsKey Ram PinTest, restrictionOf d'.store = restrictionOf d.store →
      d'.ram = d.ram → Sat (do
          let _ ← storageEraseEncryptedBlob
          return false : KeychainM Bool)
        (fun ok d'' => restrictionOf d''.store = restrictionOf d.store ∧ d''.ram = d.ram ∧
          (ok = true → 1 ≤ counterOf d.store ∧ counterOf d.store ≤ 3 ∧ d.fate = .done))
        (fun _ d'' => restrictionOf d''.store = restrictionOf d.store) d' := by
    intro d' hrecord hram
    rw [sat_bind]
    refine (keeps_record_storageEraseEncryptedBlob _ _ d' ⟨hrecord, hram⟩).mono ?_
      (fun _ _ h => h.1)
    exact fun _ _ h => (sat_pure _).2 ⟨h.1, h.2, fun h => absurd h (by decide)⟩
  have hput : restrictionOf (Function.update d.store .counter (some [counterOf d.store - 1])) =
      restrictionOf d.store := restrictionOf_update_of_ne _ (by decide) _
  rw [storageDecrementCounter, sat_bind, sat_storageGetCounter, sat_ite]
  refine ⟨fun _ => herase d rfl rfl, fun hbound => ?_⟩
  rw [sat_bind, sat_storeBlob, write, sat_commit]
  refine ⟨fun hdone => ?_, fun _ => herase _ rfl rfl, fun _ => rfl, fun _ => hput⟩
  simp only [not_or, UInt8.not_lt] at hbound
  exact (sat_pure _).2 ⟨hput, rfl, fun _ => ⟨one_le_of_ne_zero hbound.1, hbound.2, hdone⟩⟩

/-- After the last attempt the counter stays at zero, and the flag ends up cleared. -/
theorem sat_keychainEraseEncrypted_zero {d : Dev NvsKey Ram PinTest} (hc : counterOf d.store = 0) :
    Sat keychainEraseEncrypted
      (fun _ d' => d'.ram.hasEncryptedBlob = false ∧ counterOf d'.store = 0)
      (fun _ d' => counterOf d'.store = 0) d := by
  have hframe : Frame fun d : Dev NvsKey Ram PinTest => counterOf d.store = 0 :=
    Frame.of_store fun st v hc => (counterOf_update_of_ne st (by decide) v).trans hc
  have herase : Keeps (fun d : Dev NvsKey Ram PinTest => counterOf d.store = 0)
      storageEraseEncryptedBlob := by
    refine Keeps.bind (fun d hc => ?_) fun _ d hc => ?_
    · exact (sat_commit _ _).2 ⟨fun _ => counterOf_erase_counter _, fun _ => hc, fun _ => hc,
        fun _ => counterOf_erase_counter _⟩
    · have hput : counterOf (Function.update d.store .blob none) = 0 :=
        (counterOf_update_of_ne _ (by decide) _).trans hc
      exact (sat_commit _ _).2 ⟨fun _ => hput, fun _ => hc, fun _ => hc, fun _ => hput⟩
  rw [keychainEraseEncrypted, sat_bind]
  refine (herase d hc).mono (fun _ d₁ hc₁ => ?_) (fun _ _ h => h)
  rw [sat_bind]
  refine (hframe.keychainClearNetworkTypeRestriction d₁ hc₁).mono ?_ (fun _ _ h => h)
  exact fun _ _ hc₂ => (sat_modifyRam _).2 ⟨rfl, hc₂⟩

/-- **One attempt leaves the record and the copy alone until the wallet is erased**, and one that
succeeds was possible. -/
theorem sat_keychainLoadAndDecryptBlob_record (P : Prims) (aeskey : Bytes)
    (d : Dev NvsKey Ram PinTest) :
    Sat (keychainLoadAndDecryptBlob P aeskey (aesPaddedLen SERIALIZED_KEY_LEN))
      (fun r d' => KeptOrErased d d' ∧
        (r.isSome = true → restrictionOf d'.store = restrictionOf d.store ∧ d'.ram = d.ram ∧ Ready d))
      (fun _ d' => RecordOrErased d d') d := by
  rw [keychainLoadAndDecryptBlob, sat_ite]
  refine ⟨fun _ => (sat_pure _).2 ⟨.inl (.refl d), fun h => absurd h (by decide)⟩, fun _ => ?_⟩
  simp only [keychainHasPin, sat_bind, sat_getRam, sat_pure, sat_ite]
  refine ⟨fun hflag => ⟨.inl (.refl d), fun h => absurd h (by decide)⟩, fun hflag => ?_⟩
  refine (sat_storageDecrementCounter_record d).mono ?_ (fun _ _ h => .inl h)
  rintro ok d₁ ⟨hrecord₁, hram₁, hpaid⟩
  cases ok with
  | false =>
      simp only [Bool.not_false, true_implies, not_true_eq_false, false_implies, and_true]
      exact ⟨.inl ⟨hrecord₁, by rw [hram₁]⟩, fun h => absurd h (by decide)⟩
  | true =>
      have hready : Ready d :=
        ⟨by simpa using hflag, (hpaid rfl).1, (hpaid rfl).2.1, (hpaid rfl).2.2⟩
      simp only [Bool.not_true, Bool.false_eq_true, false_implies, not_false_eq_true, true_implies,
        true_and]
      rw [sat_storageGetEncryptedBlob (by decide)]
      cases fitting d₁.store .blob (encryptedDataLen SERIALIZED_KEY_LEN) with
      | none =>
          refine (sat_bind _ _).2 ?_
          refine (keeps_record_storageEraseEncryptedBlob _ _ d₁ ⟨hrecord₁, hram₁⟩).mono ?_
            (fun _ _ h => .inl h.1)
          intro _ d₂ h₂
          simp only [sat_bind, sat_modifyRam, sat_pure]
          exact ⟨.inr ⟨rfl, .inl h₂.1⟩, fun h => absurd h (by decide)⟩
      | some encrypted =>
          refine (sat_bind _ _).2 ?_
          refine (sat_getDecryptedPayload_opens P aeskey encrypted _ d₁).mono ?_
            (fun _ _ h => .inl (by rw [h, hrecord₁]))
          rintro r d₂ ⟨hstore₂, hram₂, -, -⟩
          have hrecord₂ : restrictionOf d₂.store = restrictionOf d.store := by rw [hstore₂, hrecord₁]
          have hram : d₂.ram = d.ram := hram₂.trans hram₁
          cases r with
          | none =>
              simp only [keychainPinAttemptsRemaining, sat_bind, sat_storageGetCounter, sat_ite,
                sat_pure]
              refine ⟨fun hzero => ?_, fun _ => ⟨.inl ⟨hrecord₂, by rw [hram]⟩,
                fun h => absurd h (by decide)⟩⟩
              refine (sat_keychainEraseEncrypted_zero hzero).mono ?_ (fun _ _ h => .inr h)
              exact fun _ _ h => ⟨.inr ⟨h.1, .inr h.2⟩, fun h => absurd h (by decide)⟩
          | some payload =>
              have hrestore := keeps_record_commit (restrictionOf d.store) d.ram
                (show NvsKey.counter ≠ .networktype by decide) (some [3]) d₂ ⟨hrecord₂, hram⟩
              simp only [storageRestoreCounter, sat_bind, sat_storeBlob, write, sat_pure]
              refine hrestore.mono ?_ (fun _ _ h => .inl h.1)
              exact fun _ _ h => ⟨.inl ⟨h.1, by rw [h.2]⟩, fun _ => ⟨h.1, h.2, hready⟩⟩

/-! ### Loading and changing the key -/

/-- The predicate depends on the flash, the copy and the flag for the PIN alone. -/
def OfRecord (I : Dev NvsKey Ram PinTest → Prop) : Prop :=
  ∀ (d : Dev NvsKey Ram PinTest) (r : Ram),
    r.networkTypeRestriction = d.ram.networkTypeRestriction →
    r.hasEncryptedBlob = d.ram.hasEncryptedBlob → I d → I { d with ram := r }

theorem ofRecord_kept (d : Dev NvsKey Ram PinTest) : OfRecord (Kept d) :=
  fun _ _ hcopy _ h => ⟨h.1, hcopy.trans h.2⟩

section OfRecord

variable {I : Dev NvsKey Ram PinTest → Prop}

theorem OfRecord.keychainSet (hI : OfRecord I) (src : Keychain) (userdata : UInt8)
    (temporary : Bool) : Keeps I (keychainSet src userdata temporary) :=
  Keeps.bind keeps_storageGetKeyFlags fun _ d hd => (sat_modifyRam _).2 (hI d _ rfl rfl hd)

theorem OfRecord.keychainClear (hI : OfRecord I) : Keeps I keychainClear :=
  Keeps.bind keeps_storageGetKeyFlags fun _ d hd => (sat_modifyRam _).2 (hI d _ rfl rfl hd)

theorem keeps_getPassphrase (entered : Bytes) : Keeps I (getPassphrase entered) := by
  refine Keeps.bind (Keeps.bind keeps_getRam fun r => Keeps.pure _) fun freq => ?_
  cases freq with
  | never => exact Keeps.pure _
  | once => exact Keeps.bind (keeps_assert _) fun _ => Keeps.pure _
  | always => exact Keeps.bind (keeps_assert _) fun _ => Keeps.pure _

theorem OfRecord.keychainCompleteDerivationWithPassphrase (hI : OfRecord I) (P : KeyPrims)
    (passphrase : Bytes) : Keeps I (keychainCompleteDerivationWithPassphrase P passphrase) := by
  refine Keeps.bind (Keeps.bind keeps_getRam fun _ => Keeps.pure _) fun _ =>
    Keeps.ite (Keeps.pure _) (Keeps.bind keeps_getRam fun r => ?_)
  cases P.bip39MnemonicFromBytes r.mnemonicEntropy with
  | none => exact Keeps.pure _
  | some mnemonic =>
      refine Keeps.bind ((silent_keychainDeriveFromMnemonic P mnemonic _).keeps I) fun keydata => ?_
      cases keydata with
      | none => exact Keeps.pure _
      | some keydata => exact Keeps.bind (hI.keychainSet keydata 0 false) fun _ => Keeps.pure _

end OfRecord

/-- The wallet goes to another sender, or stops being the stored one. -/
theorem sat_keychainReset (source : Source) (temporary : Bool) (d : Dev NvsKey Ram PinTest) :
    Sat (keychainReset source temporary)
      (fun _ d' => Kept d d' ∧ d'.fates = d.fates ∧
        d'.ram.hasEncryptedBlob = d.ram.hasEncryptedBlob ∧ d'.ram.keychainTemporary = temporary)
      (fun _ d' => d' = d) d := by
  simp only [keychainReset, sat_bind, sat_getRam]
  cases d.ram.keychainData with
  | none => exact (sat_throw _).2 rfl
  | some keydata =>
      simp only [keychainSet, sat_bind, sat_storageGetKeyFlags, sat_modifyRam]
      exact ⟨.refl d, trivial, trivial, trivial⟩

/-- Loading leaves the record and the copy alone until the wallet is erased. -/
theorem sat_keychainLoad_record (P : Prims) (aeskey : Bytes) (d : Dev NvsKey Ram PinTest) :
    Sat (keychainLoad P aeskey)
      (fun ok d' => KeptOrErased d d' ∧ (ok = true →
        Kept d d' ∧ aeskey.length = AES_KEY_LEN_256 ∧ d.ram.Holds none ∧ Ready d))
      (fun _ d' => RecordOrErased d d') d := by
  simp only [keychainLoad, keychainHasPin, sat_ite, sat_pure, sat_bind, sat_getRam,
    Bool.false_eq_true, false_implies, and_true]
  refine ⟨fun _ => .inl (.refl d), fun hkey => ⟨fun _ => .inl (.refl d), fun hempty =>
    ⟨fun _ => .inl (.refl d), fun _ => ?_⟩⟩⟩
  refine (sat_keychainLoadAndDecryptBlob_record P aeskey d).mono ?_ (fun _ _ h => h)
  rintro r d₁ ⟨hkept, hsome⟩
  cases r with
  | none => exact (sat_pure _).2 ⟨hkept, fun h => absurd h (by decide)⟩
  | some serialized =>
      obtain ⟨hrecord, hram, hready⟩ := hsome rfl
      have hnone : d.ram.Holds none := by
        simpa [Ram.Holds, Option.isSome_iff_ne_none] using hempty
      have hkept₁ : Kept d d₁ := ⟨hrecord, by rw [hram]⟩
      have hset : ∀ d' : Dev NvsKey Ram PinTest, Kept d d' → KeptOrErased d d' ∧ (True →
          Kept d d' ∧ aeskey.length = AES_KEY_LEN_256 ∧ d.ram.Holds none ∧ Ready d) :=
        fun _ h => ⟨.inl h, fun _ => ⟨h, not_not.1 hkey, hnone, hready⟩⟩
      simp only [sat_ite, sat_bind, sat_modifyRam, sat_pure]
      refine ⟨fun _ => hset _ ⟨hkept₁.1, hkept₁.2⟩, fun _ => ⟨fun hlen => ?_, fun _ =>
        ⟨hkept, fun h => absurd h (by decide)⟩⟩⟩
      rw [sat_unserialize hlen]
      cases P.bip32KeyUnserialize (serialized.take BIP32_SERIALIZED_LEN) with
      | none => exact .inl hrecord
      | some xpriv =>
          refine ((ofRecord_kept d).keychainSet _ 0 false d₁ hkept₁).mono ?_ (fun _ _ h => .inl h.1)
          exact fun _ d₂ h₂ => hset d₂ h₂

/-- Without success there is no wallet in memory. -/
theorem sat_keychainLoad_none (P : Prims) (aeskey : Bytes) {d : Dev NvsKey Ram PinTest}
    (hnone : d.ram.keychainData = none) :
    Sat (keychainLoad P aeskey)
      (fun ok d' => (ok = false → d'.ram.keychainData = none) ∧
        (ok = true → (loads P aeskey d.store).isSome = true)) (fun _ _ => True) d := by
  by_cases hentropy : d.ram.mnemonicEntropy = []
  · refine (sat_keychainLoad_loads P aeskey ⟨hnone, hentropy⟩).mono ?_ (fun _ _ _ => trivial)
    rintro ok d' ⟨⟨rfl, h⟩ | ⟨rfl, hsome, -⟩, -⟩
    · exact ⟨fun _ => h.1, fun h => absurd h (by decide)⟩
    · exact ⟨fun h => absurd h (by decide), fun _ => hsome⟩
  · -- entropy that is waiting for its passphrase makes loading fail at once
    simp only [keychainLoad, sat_ite, sat_pure, sat_bind, sat_getRam]
    exact ⟨fun _ => ⟨fun _ => hnone, fun h => absurd h (by decide)⟩, fun _ =>
      ⟨fun _ => ⟨fun _ => hnone, fun h => absurd h (by decide)⟩, fun h => absurd (by simp [hentropy]) h⟩⟩

theorem silent_getEncryptedBlob (P : Prims) (aeskey : Bytes) (iv : Iv) (cleartext : Bytes) :
    Silent (getEncryptedBlob P aeskey iv cleartext) := by
  refine Silent.bind (Silent.bind (silent_assert _) fun _ => Silent.bind (silent_assert _) fun _ =>
    Silent.bind (silent_assert _) fun _ => Silent.pure _) fun _ => Silent.pure _

theorem sat_storageSetEncryptedBlob_record (encrypted : Bytes) (d : Dev NvsKey Ram PinTest) :
    Sat (storageSetEncryptedBlob encrypted)
      (fun ok d' => restrictionOf d'.store = restrictionOf d.store ∧ d'.ram = d.ram ∧
        (ok = true → d.fate = .done ∧ d.fates.tail.headD .done = .done ∧
          d'.fates = d.fates.tail.tail))
      (fun _ d' => restrictionOf d'.store = restrictionOf d.store) d := by
  have hcounter : restrictionOf (Function.update d.store .counter (some [3])) =
      restrictionOf d.store := restrictionOf_update_of_ne _ (by decide) _
  have hblob : restrictionOf (Function.update (Function.update d.store .counter (some [3])) .blob
      (some encrypted)) = restrictionOf d.store :=
    (restrictionOf_update_of_ne _ (by decide) _).trans hcounter
  rw [storageSetEncryptedBlob, sat_bind, storageRestoreCounter, sat_storeBlob, write, sat_commit]
  refine ⟨fun hdone => ?_, fun _ => ?_, fun _ => rfl, fun _ => hcounter⟩
  · rw [if_pos rfl, storeBlob, sat_bind, sat_assert, write]
    refine ⟨fun _ => (sat_commit _ _).2 ⟨fun hdone' => ?_, fun _ => ?_, fun _ => hcounter,
      fun _ => hblob⟩, fun _ => hcounter⟩
    · exact ⟨hblob, rfl, fun _ => ⟨hdone, hdone', rfl⟩⟩
    · exact ⟨hcounter, rfl, fun h => absurd h (by decide)⟩
  · exact (sat_pure _).2 ⟨rfl, rfl, fun h => absurd h (by decide)⟩

/-- A new blob leaves the record and the memory alone. -/
theorem sat_keychainEncryptAndSaveBlob_record (P : Prims) (aeskey : Bytes) (iv : Iv)
    (cleartext : Bytes) (d : Dev NvsKey Ram PinTest) :
    Sat (keychainEncryptAndSaveBlob P aeskey iv cleartext)
      (fun ok d' => restrictionOf d'.store = restrictionOf d.store ∧ d'.ram = d.ram ∧
        (ok = true → aeskey.length = AES_KEY_LEN_256 ∧ d.fate = .done ∧
          d.fates.tail.headD .done = .done ∧ d'.fates = d.fates.tail.tail))
      (fun _ d' => restrictionOf d'.store = restrictionOf d.store) d := by
  rw [keychainEncryptAndSaveBlob, sat_ite, sat_ite]
  refine ⟨fun _ => (sat_pure _).2 ⟨rfl, rfl, fun h => absurd h (by decide)⟩, fun hkey =>
    ⟨fun _ => (sat_pure _).2 ⟨rfl, rfl, fun h => absurd h (by decide)⟩, fun _ => ?_⟩⟩
  rw [sat_bind]
  refine ((silent_getEncryptedBlob P aeskey iv cleartext).sat_self d).mono ?_
    (fun _ _ h => congrArg (restrictionOf ·.store) h)
  rintro encrypted _ ⟨rfl, -⟩
  refine (sat_storageSetEncryptedBlob_record encrypted _).mono ?_ (fun _ _ h => h)
  exact fun _ _ h => ⟨h.1, h.2.1, fun hok => ⟨not_not.1 hkey, h.2.2 hok⟩⟩

/-- Changing the key leaves the record and the copy alone until the wallet is erased. -/
theorem sat_keychainReencrypt_record (P : Prims) (currAeskey newAeskey : Bytes) (iv : Iv)
    (d : Dev NvsKey Ram PinTest) :
    Sat (keychainReencrypt P currAeskey newAeskey iv) (fun _ d' => KeptOrErased d d')
      (fun _ d' => RecordOrErased d d') d := by
  simp only [keychainReencrypt, keychainHasPin, sat_ite, sat_pure, sat_bind, sat_getRam]
  refine ⟨fun _ => .inl (.refl d), fun _ => ⟨fun _ => .inl (.refl d), fun _ => ?_⟩⟩
  refine (sat_keychainLoadAndDecryptBlob_record P currAeskey d).mono ?_ (fun _ _ h => h)
  rintro r d₁ ⟨hkept, hsome⟩
  cases r with
  | none => exact (sat_pure _).2 hkept
  | some serialized =>
      obtain ⟨hrecord, hram, -⟩ := hsome rfl
      refine (sat_keychainEncryptAndSaveBlob_record P newAeskey iv serialized d₁).mono ?_
        (fun _ _ h => .inl (h.trans hrecord))
      exact fun _ d₂ h => .inl ⟨h.1.trans hrecord, by rw [h.2.1, hram]⟩

/-! ### The PIN dialogue -/

/-- The PIN that was entered is the one that erases the wallet. -/
def AuthUser.erases (msg : AuthUser) : Bool :=
  match msg.getPin with
  | .ok entry => entry.isErasePin
  | .error _ => false

/-- The key that the PIN server returns is the one of the stored wallet, and the flash pays for the
attempt. -/
def unlocks (P : KeyPrims) (msg : AuthUser) (d : Dev NvsKey Ram PinTest) : Bool :=
  match msg.getPin with
  | .ok entry =>
      d.ram.hasEncryptedBlob && 1 ≤ counterOf d.store && counterOf d.store ≤ 3 && d.fate = .done &&
        entry.aeskey.length = AES_KEY_LEN_256 && (loads P.toPrims entry.aeskey d.store).isSome
  | .error _ => false

theorem sat_checkWalletErasePin (entry : PinEntry) (d : Dev NvsKey Ram PinTest) :
    Sat (checkWalletErasePin entry) (fun _ d' => d' = d)
      (fun _ _ => entry.isErasePin = true) d := by
  rw [checkWalletErasePin]
  cases entry.isErasePin with
  | false => exact (sat_pure _).2 rfl
  | true =>
      simp only [if_true, sat_bind]
      refine sat_of_forall (fun _ _ => sat_of_forall (fun _ _ => sat_of_forall (fun _ _ => ?_) ?_) ?_) ?_
      · exact (sat_throw _).2 trivial
      all_goals exact fun _ _ => trivial

/-- Completing the derivation fails only where there is no wallet yet. -/
theorem sat_keychainCompleteDerivation_none (P : KeyPrims) (passphrase : Bytes)
    {d : Dev NvsKey Ram PinTest} (hnone : d.ram.keychainData = none) :
    Sat (keychainCompleteDerivationWithPassphrase P passphrase)
      (fun ok d' => ok = false → d'.ram.keychainData = none) (fun _ _ => True) d := by
  simp only [keychainCompleteDerivationWithPassphrase, keychainRequiresPassphrase, sat_bind,
    sat_getRam, sat_pure, sat_ite]
  refine ⟨fun _ _ => hnone, fun _ => ?_⟩
  cases P.bip39MnemonicFromBytes d.ram.mnemonicEntropy with
  | none => exact (sat_pure _).2 fun _ => hnone
  | some mnemonic =>
      refine (sat_bind _ _).2 (((silent_keychainDeriveFromMnemonic P mnemonic _).sat_self d).mono ?_
        (fun _ _ _ => trivial))
      rintro keydata _ ⟨rfl, -⟩
      cases keydata with
      | none => exact (sat_pure _).2 fun _ => hnone
      | some keydata =>
          simp only [keychainSet, sat_bind, sat_storageGetKeyFlags, sat_modifyRam, sat_pure]
          exact fun h => absurd h (by decide)

theorem keeps_getPinGetAeskey {I : Dev NvsKey Ram PinTest → Prop} : Keeps I getPinGetAeskey := by
  refine Keeps.bind (Keeps.bind keeps_getRam fun _ => Keeps.pure _) fun _ =>
    Keeps.bind (keeps_assert _) fun _ => Keeps.bind (fun d hd => ?_) fun _ =>
      Keeps.bind (keeps_assert _) fun _ => Keeps.pure _
  exact sat_storageGetCounter.2 hd

/-- The wallet goes to the sender, and its key may be changed. -/
theorem sat_getPinLoadKeys_finish (P : KeyPrims) (msg : AuthUser) (aeskey : Bytes)
    {d d₁ : Dev NvsKey Ram PinTest} (hkept : Kept d d₁) :
    Sat (do
        keychainReset msg.source false
        match msg.changePin with
        | some (newAeskey, iv) =>
          let _ ← keychainReencrypt P.toPrims aeskey newAeskey iv
        | none => pure ()
        return (true, .ok) : KeychainM (Bool × Reply))
      (fun r d' => KeptOrErased d d' ∧ r.1 = true) (fun _ d' => RecordOrErased d d') d₁ := by
  rw [sat_bind]
  refine (sat_keychainReset msg.source false d₁).mono ?_ (fun _ _ h => .inl (by rw [h]; exact hkept.1))
  rintro _ d₂ ⟨hreset, -⟩
  have hkept₂ : Kept d d₂ := hkept.trans hreset
  cases msg.changePin with
  | none => exact (sat_pure _).2 ⟨.inl hkept₂, rfl⟩
  | some change =>
      refine (sat_bind _ _).2 ((sat_keychainReencrypt_record P.toPrims aeskey _ _ d₂).mono ?_
        (fun _ _ h => hkept₂.recordOrErased h))
      exact fun _ d₃ h => (sat_pure _).2 ⟨hkept₂.keptOrErased h, rfl⟩

/-- **The PIN dialogue leaves the record and the copy alone until the wallet is erased**; it unlocks
the wallet for the right key only. -/
theorem sat_getPinLoadKeys_record (P : KeyPrims) (msg : AuthUser) (d : Dev NvsKey Ram PinTest) :
    Sat (getPinLoadKeys P msg)
      (fun r d' => KeptOrErased d d' ∧ (r.1 = false → d'.ram.keychainData = none) ∧
        (r.1 = true → unlocks P msg d = true))
      (fun _ d' => RecordOrErased d d' ∨ msg.erases = true) d := by
  simp only [getPinLoadKeys, sat_bind, sat_getRam, sat_assert, Option.isNone_iff_eq_none]
  refine ⟨fun hnone => ?_, fun _ => .inl (.inl rfl)⟩
  refine (keeps_getPinGetAeskey d rfl).mono ?_ (fun _ _ h => .inl (.inl (by rw [h])))
  rintro _ d rfl
  cases hpin : msg.getPin with
  | error reply =>
      exact (sat_pure _).2 ⟨.inl (.refl _), fun _ => hnone, fun h => absurd h Bool.false_ne_true⟩
  | ok entry =>
      refine (sat_bind _ _).2 (((sat_keychainLoad_record P.toPrims entry.aeskey _).and
        (sat_keychainLoad_none P.toPrims entry.aeskey hnone)).mono ?_ (fun _ _ h => .inl h.1))
      rintro ok d₁ ⟨⟨hkept, hok⟩, hnone₁, hloads⟩
      cases ok with
      | false =>
          refine sat_ite.2 ⟨fun _ => ?_, fun h => absurd rfl h⟩
          rw [sat_bind]
          refine (sat_checkWalletErasePin entry d₁).mono ?_ (fun _ _ h => .inr ?_)
          · rintro _ _ rfl
            exact (sat_pure _).2 ⟨hkept, hnone₁, fun h => absurd h (by decide)⟩
          · rw [AuthUser.erases, hpin]
            exact h
      | true =>
          obtain ⟨hkept₁, hkey, -, hready⟩ := hok rfl
          have hunlocks : unlocks P msg d = true := by
            simp only [unlocks, hpin, hready.flag, hready.pos, hready.le, hready.fate, hkey, hloads rfl,
              decide_true, Bool.and_self]
          have hfinish : ∀ {d₂ : Dev NvsKey Ram PinTest}, Kept d d₂ → Sat _
              (fun (r : Bool × Reply) d' => KeptOrErased d d' ∧
                (r.1 = false → d'.ram.keychainData = none) ∧ (r.1 = true → unlocks P msg d = true))
              (fun _ d' => RecordOrErased d d' ∨ msg.erases = true) d₂ := fun hkept₂ =>
            (sat_getPinLoadKeys_finish P msg entry.aeskey hkept₂).mono
              (fun _ _ h => ⟨h.1, fun hfalse => absurd (h.2.symm.trans hfalse) (by decide),
                fun _ => hunlocks⟩) (fun _ _ h => .inl h)
          refine sat_ite.2 ⟨fun h => absurd h (by decide), fun _ => ?_⟩
          simp only [keychainRequiresPassphrase, sat_bind, sat_getRam, sat_pure, sat_ite]
            at hfinish ⊢
          refine ⟨fun hrequires => ?_, fun _ => hfinish hkept₁⟩
          have hdata : d₁.ram.keychainData = none := by
            simp only [Bool.and_eq_true, Option.isNone_iff_eq_none] at hrequires
            exact hrequires.1
          -- entering the passphrase changes nothing, and completing the derivation the wallet only
          refine (keeps_getPassphrase msg.passphrase d₁ rfl).mono ?_
            (fun _ _ h => .inl (.inl (by rw [← h]; exact hkept₁.1)))
          rintro passphrase d₁ rfl
          refine (((ofRecord_kept d).keychainCompleteDerivationWithPassphrase P passphrase d₁
            hkept₁).and (sat_keychainCompleteDerivation_none P passphrase hdata)).mono ?_
            (fun _ _ h => .inl (.inl h.1.1))
          rintro ok d₂ ⟨hkept₂, hnone₂⟩
          cases ok with
          | false =>
              refine ⟨fun _ => ?_, fun h => absurd rfl h⟩
              exact ⟨.inl hkept₂, fun _ => hnone₂ rfl, fun h => absurd h (by decide)⟩
          | true => exact ⟨fun h => absurd h (by decide), fun _ => hfinish hkept₂⟩

/-! ### Setting up and storing -/

/-- What becomes of the record when a wallet is set up: a temporary one does not touch it, and any
other clears it unless the flash refuses. -/
def RecordCleared (temporary : Bool) (d d' : Dev NvsKey Ram PinTest) : Prop :=
  (temporary = true → d'.store = d.store) ∧
  (temporary = false → d'.fates = d.fates.tail ∧
    (restrictionOf d'.store = .none ∨ d.fate = .refused ∧ d'.store = d.store))

theorem sat_deriveKeychain_record (P : KeyPrims) (temporaryRestore : Bool)
    (mnemonic entered : Bytes) (d : Dev NvsKey Ram PinTest) :
    Sat (deriveKeychain P temporaryRestore mnemonic entered)
      (fun ok d' => (ok = false ∧ d' = d) ∨ (ok = true ∧
        d'.ram.keychainTemporary = temporaryRestore ∧
        d'.ram.hasEncryptedBlob = d.ram.hasEncryptedBlob ∧ RecordCleared temporaryRestore d d'))
      (fun _ d' => temporaryRestore = true → d'.store = d.store) d := by
  rw [deriveKeychain, sat_bind]
  refine (keeps_getPassphrase entered d rfl).mono ?_ (fun _ _ h _ => by rw [← h])
  rintro passphrase d rfl
  simp only [sat_bind, sat_assert]
  refine ⟨fun _ => ?_, fun _ _ => trivial⟩
  refine ((silent_keychainDeriveFromMnemonic P mnemonic _).sat_self d).mono ?_
    (fun _ _ h _ => by rw [h])
  rintro keydata d ⟨rfl, -⟩
  cases keydata with
  | none => exact (sat_pure _).2 (.inl ⟨rfl, rfl⟩)
  | some keydata =>
      simp only [keychainSet, sat_bind, sat_storageGetKeyFlags, sat_modifyRam]
      refine (sat_keychainClearNetworkTypeRestriction _).mono ?_ (fun _ _ h => h)
      rintro _ d' ⟨hram, htemp, hstored⟩
      exact (sat_pure _).2 (.inr ⟨rfl, by rw [hram], by rw [hram], htemp, hstored⟩)

theorem sat_initialiseWithMnemonic_record (P : KeyPrims) (temporaryRestore : Bool)
    (mnemonic : Option Bytes) (advancedMode : Bool) (entered : Bytes) (d : Dev NvsKey Ram PinTest) :
    Sat (initialiseWithMnemonic P temporaryRestore mnemonic advancedMode entered)
      (fun _ d' => d'.ram.hasEncryptedBlob = d.ram.hasEncryptedBlob ∧
        ((d'.ram.keychainData = none ∧ d'.store = d.store) ∨
          mnemonic.any P.bip39MnemonicValidate = true ∧
          d'.ram.keychainTemporary = temporaryRestore ∧
          (temporaryRestore = false → d.ram.hasEncryptedBlob = false) ∧
          RecordCleared temporaryRestore d d'))
      (fun _ d' => d.ram.hasEncryptedBlob = true → d'.store = d.store) d := by
  simp only [initialiseWithMnemonic, keychainHasPin, sat_bind, sat_getRam, sat_assert, sat_pure,
    Option.isNone_iff_eq_none]
  refine ⟨fun hnone => ⟨fun hpin => ?_, fun _ _ => trivial⟩, fun _ _ => trivial⟩
  have hnew : temporaryRestore = false → d.ram.hasEncryptedBlob = false := by
    rintro rfl
    simpa using hpin
  have hstored : d.ram.hasEncryptedBlob = true → temporaryRestore = true := by
    intro hflag
    by_contra hfalse
    exact absurd (hflag.symm.trans (hnew (by simpa using hfalse))) (by decide)
  cases mnemonic with
  | none => exact (sat_pure _).2 ⟨rfl, .inl ⟨hnone, rfl⟩⟩
  | some mnemonic =>
      simp only [sat_ite, sat_pure, sat_bind, keychainSetConfirmExportBlindingKey, sat_modifyRam]
      refine ⟨fun _ => ⟨trivial, .inl ⟨hnone, trivial⟩⟩, fun hvalid => ?_⟩
      refine (sat_deriveKeychain_record P temporaryRestore mnemonic entered _).mono ?_
        (fun _ _ h hflag => h (hstored hflag))
      rintro ok d₁ (⟨rfl, rfl⟩ | ⟨rfl, htemp, hflag, hcleared⟩)
      · exact ⟨fun _ => ⟨rfl, .inl ⟨hnone, rfl⟩⟩, fun h => absurd rfl h⟩
      · have hvalid' : P.bip39MnemonicValidate mnemonic = true := by simpa using hvalid
        refine ⟨fun h => absurd h (by decide), fun _ => ⟨fun hfalse => ?_, fun _ =>
          ⟨hflag, .inr ⟨hvalid', htemp, hnew, hcleared⟩⟩⟩⟩
        -- keeping the entropy changes nothing else
        have hentropy : Keeps (fun d₂ : Dev NvsKey Ram PinTest => d₂.store = d₁.store ∧
            d₂.fates = d₁.fates ∧ d₂.ram.hasEncryptedBlob = d₁.ram.hasEncryptedBlob ∧
            d₂.ram.keychainTemporary = d₁.ram.keychainTemporary)
            (keychainCacheMnemonicEntropy P.toPrims mnemonic) := by
          refine Keeps.bind keeps_getRam fun _ => Keeps.bind (keeps_assert _) fun _ =>
            Keeps.bind (keeps_assert _) fun _ => ?_
          cases P.bip39MnemonicToBytes mnemonic with
          | none => exact keeps_assert _
          | some entropy =>
              exact Keeps.bind (keeps_assert _) fun _ _ h => (sat_modifyRam _).2 h
        refine (hentropy d₁ ⟨rfl, rfl, rfl, rfl⟩).mono ?_ ?_
        · rintro _ d₂ ⟨hstore₂, hfates₂, hflag₂, htemp₂⟩
          refine ⟨hflag₂.trans hflag, .inr ⟨hvalid', htemp₂.trans htemp, hnew, ?_⟩⟩
          rw [RecordCleared, hstore₂, hfates₂]
          exact hcleared
        · rintro _ d₂ ⟨hstore₂, -⟩ hpin
          exact hstore₂.trans (hcleared.1 (hstored hpin))

/-- Commits beyond the schedule take effect, so that a refusal says how the schedule begins. -/
theorem isPrefixOf_of_refused {fs : List Fate} (hcounter : fs.headD .done = .done)
    (hblob : fs.tail.headD .done = .done) (hclear : fs.tail.tail.headD .done = .refused)
    (hset : fs.tail.tail.tail.headD .done = .refused) :
    [.done, .done, .refused, .refused].isPrefixOf fs = true := by
  rcases fs with _ | ⟨a, _ | ⟨b, _ | ⟨c, _ | ⟨e, fs⟩⟩⟩⟩ <;> simp_all [List.isPrefixOf]

/-- A new wallet has an empty copy, and an empty record unless the flash refuses. -/
theorem sat_keychainStore_record (P : Prims) (aeskey : Bytes) (iv : Iv) {d : Dev NvsKey Ram PinTest}
    (htemp : d.ram.keychainTemporary = false) :
    Sat (keychainStore P aeskey iv)
      (fun ok d' => (ok = false ∧ d'.ram = d.ram) ∨
        (ok = true ∧ d'.ram.networkTypeRestriction = .none ∧
          (restrictionOf d'.store = .none ∨ restrictionOf d'.store = restrictionOf d.store ∧
            aeskey.length = AES_KEY_LEN_256 ∧ (d'.fate = .refused →
              [.done, .done, .refused, .refused].isPrefixOf d.fates = true))))
      (fun _ _ => True) d := by
  have hsave : ∀ cleartext : Bytes, Sat (do
      if ← keychainEncryptAndSaveBlob P aeskey iv cleartext then
        keychainClearNetworkTypeRestriction
        modifyRam fun r => { r with hasEncryptedBlob := true }
        return true
      else
        return false)
      (fun ok d' => (ok = false ∧ d'.ram = d.ram) ∨
        (ok = true ∧ d'.ram.networkTypeRestriction = .none ∧
          (restrictionOf d'.store = .none ∨ restrictionOf d'.store = restrictionOf d.store ∧
            aeskey.length = AES_KEY_LEN_256 ∧ (d'.fate = .refused →
              [.done, .done, .refused, .refused].isPrefixOf d.fates = true))))
      (fun _ _ => True) d := by
    intro cleartext
    rw [sat_bind]
    refine (sat_keychainEncryptAndSaveBlob_record P aeskey iv cleartext d).mono ?_
      (fun _ _ _ => trivial)
    rintro ok d₁ ⟨hrecord, hram, hok⟩
    cases ok with
    | false => exact (sat_pure _).2 (.inl ⟨rfl, hram⟩)
    | true =>
        obtain ⟨hkey, hdone, hdone', hfates⟩ := hok rfl
        rw [if_pos rfl, sat_bind]
        refine (sat_keychainClearNetworkTypeRestriction d₁).mono ?_ (fun _ _ _ => trivial)
        rintro _ d₂ ⟨hram₂, -, hcleared⟩
        obtain ⟨hfates₂, hrecord₂⟩ := hcleared (by rw [hram]; exact htemp)
        refine (sat_bind _ _).2 ((sat_modifyRam _).2 ((sat_pure _).2 (.inr ⟨rfl, by simp [hram₂], ?_⟩)))
        rcases hrecord₂ with hnone | ⟨hrefused, hstore⟩
        · exact .inl hnone
        · refine .inr ⟨by rw [← hrecord]; exact congrArg restrictionOf hstore, hkey, fun hfate => ?_⟩
          refine isPrefixOf_of_refused hdone hdone' (by rw [← hfates]; exact hrefused) ?_
          rw [← hfates, ← hfates₂]
          exact hfate
  simp only [keychainStore, sat_ite, sat_pure, sat_bind, sat_getRam, sat_assert] at hsave ⊢
  refine ⟨fun _ => .inl ⟨trivial, trivial⟩, fun _ => ⟨fun _ => .inl ⟨trivial, trivial⟩, fun _ =>
    ⟨fun _ => ⟨fun _ => hsave _, fun _ => trivial⟩, fun _ => ?_⟩⟩⟩
  cases d.ram.keychainData with
  | none => exact (sat_throw _).2 trivial
  | some keydata =>
      rw [sat_bind, sat_serialize]
      refine ⟨fun _ => ?_, fun _ => trivial⟩
      simpa only [sat_bind, sat_ite, sat_pure] using hsave _

/-- A first wallet is stored, and the flash refuses every commit that is about its restriction: the
ones that clear the record, and the one that sets it. -/
def storesRefused (P : KeyPrims) (msg : AuthUser) (d : Dev NvsKey Ram PinTest) : Bool :=
  match msg.setPin with
  | .ok (aeskey, _) =>
      !d.ram.hasEncryptedBlob && aeskey.length = AES_KEY_LEN_256 &&
        if d.ram.keychainData.isSome then
          [.done, .done, .refused, .refused].isPrefixOf d.fates
        else
          msg.mnemonic.any P.bip39MnemonicValidate &&
            [.refused, .done, .done, .refused, .refused].isPrefixOf d.fates
  | .error _ => false

/-- The copy of a wallet that was just stored is empty, and so is the record unless the flash
refused. -/
def Fresh (P : KeyPrims) (msg : AuthUser) (d d' : Dev NvsKey Ram PinTest) : Prop :=
  d'.ram.networkTypeRestriction = .none ∧
    (restrictionOf d'.store = .none ∨ restrictionOf d'.store = restrictionOf d.store ∧
      (d'.fate = .refused → storesRefused P msg d = true))

theorem sat_setPinSaveKeys_record (P : KeyPrims) (msg : AuthUser) (d : Dev NvsKey Ram PinTest) :
    Sat (setPinSaveKeys P msg)
      (fun r d' => (r.1 = false → d'.ram.hasEncryptedBlob = false) ∧ (r.1 = true →
        d'.ram.networkTypeRestriction = .none ∧
        (restrictionOf d'.store = .none ∨ restrictionOf d'.store = restrictionOf d.store ∧
          ∃ aeskey iv, msg.setPin = .ok (aeskey, iv) ∧ aeskey.length = AES_KEY_LEN_256 ∧
            (d'.fate = .refused → [.done, .done, .refused, .refused].isPrefixOf d.fates = true))))
      (fun _ _ => True) d := by
  simp only [setPinSaveKeys, keychainHasPin, keychainHasTemporary, sat_bind, sat_getRam, sat_assert,
    sat_pure, implies_true, and_true, Bool.not_eq_true']
  intro _ hflag _ htemp
  cases hpin : msg.setPin with
  | error reply =>
      exact (sat_pure _).2 ⟨fun _ => hflag, fun h => absurd h Bool.false_ne_true⟩
  | ok key =>
      refine (sat_bind _ _).2 ((sat_keychainStore_record P.toPrims key.1 key.2 htemp).mono ?_
        (fun _ _ _ => trivial))
      rintro ok d₁ (⟨rfl, hram⟩ | ⟨rfl, hcopy, hrecord⟩)
      · refine sat_ite.2 ⟨fun _ => (sat_pure _).2 ⟨fun _ => by rw [hram]; exact hflag, fun h => ?_⟩,
          fun h => absurd rfl h⟩
        exact absurd h Bool.false_ne_true
      · refine sat_ite.2 ⟨fun h => absurd h (by decide), fun _ => ?_⟩
        refine (sat_bind _ _).2 ((sat_keychainReset msg.source false d₁).mono ?_
          (fun _ _ _ => trivial))
        rintro _ d₂ ⟨hkept, hfates₂, -⟩
        refine (sat_pure _).2 ⟨fun h => absurd h (by decide), fun _ => ⟨hkept.2.trans hcopy, ?_⟩⟩
        rw [hkept.1, Dev.fate, hfates₂]
        exact hrecord.imp_right fun h => ⟨h.1, key.1, key.2, rfl, h.2⟩

/-! ### Logging in -/

/-- With a stored wallet, logging in leaves the record and the copy alone until the wallet is
erased.  It succeeds with a temporary wallet, or when the stored one was unlocked already, or when
the PIN dialogue unlocks it. -/
theorem sat_authUserLogin_pin (P : KeyPrims) (msg : AuthUser) {d : Dev NvsKey Ram PinTest}
    (hflag : d.ram.hasEncryptedBlob = true) :
    Sat (authUserLogin P msg)
      (fun r d' => KeptOrErased d d' ∧
        (r.1 = false → d'.ram.keychainData = none ∨ d'.ram.keychainTemporary = true) ∧
        (r.1 = true → d'.ram.keychainTemporary = true ∨ d.ram.keychainTemporary = false ∧
          (PinUnlocked d ∨ unlocks P msg d = true)))
      (fun _ d' => RecordOrErased d d' ∨ msg.erases = true) d := by
  simp only [authUserLogin, keychainHasTemporary, keychainHasPin, keychainUnlockedByMessageSource,
    sat_bind, sat_getRam, sat_assert, sat_pure, sat_ite]
  refine ⟨fun _ => ⟨fun htemp => ⟨fun _ => ?_, fun _ => ⟨fun _ => ?_, fun _ => ?_⟩⟩, fun htemp =>
    ⟨fun _ => ⟨fun hunlocked => ?_, fun _ => ⟨fun _ => ?_, fun _ => ?_⟩⟩, fun h => absurd hflag h⟩⟩,
    fun _ => .inl (.inl rfl)⟩
  · exact ⟨.inl (.refl d), fun h => absurd h (by decide), fun _ => .inl htemp⟩
  · refine (sat_keychainReset msg.source true d).mono ?_ (fun _ _ h => .inl (.inl (by rw [h])))
    exact fun _ _ h => ⟨.inl h.1, fun h => absurd h (by decide), fun _ => .inl h.2.2.2⟩
  · exact ⟨.inl (.refl d), fun _ => .inr htemp, fun h => absurd h (by decide)⟩
  · simp only [Bool.not_eq_true] at htemp
    have hloaded : d.ram.keychainData.isSome = true := by
      simp only [Bool.and_eq_true] at hunlocked
      exact hunlocked.1
    exact ⟨.inl (.refl d), fun h => absurd h (by decide),
      fun _ => .inr ⟨htemp, .inl ⟨hflag, hloaded, htemp⟩⟩⟩
  · simp only [Bool.not_eq_true] at htemp
    -- logging out first makes no difference to the PIN dialogue
    simp only [keychainClear, sat_bind, sat_storageGetKeyFlags, sat_modifyRam]
    refine (sat_getPinLoadKeys_record P msg _).mono ?_ (fun _ _ h => h)
    exact fun _ _ h => ⟨h.1, fun hfalse => .inl (h.2.1 hfalse),
      fun htrue => .inr ⟨htemp, .inr (h.2.2 htrue)⟩⟩
  · simp only [Bool.not_eq_true] at htemp
    refine (sat_getPinLoadKeys_record P msg d).mono ?_ (fun _ _ h => h)
    exact fun _ _ h => ⟨h.1, fun hfalse => .inl (h.2.1 hfalse),
      fun htrue => .inr ⟨htemp, .inr (h.2.2 htrue)⟩⟩

/-- Without a stored wallet, logging in sets one up and stores it, unless there is a temporary one. -/
theorem sat_authUserLogin_new (P : KeyPrims) (msg : AuthUser) {d : Dev NvsKey Ram PinTest}
    (hflag : d.ram.hasEncryptedBlob = false) :
    Sat (authUserLogin P msg)
      (fun r d' => (r.1 = false → d'.ram.hasEncryptedBlob = false) ∧ (r.1 = true →
        d'.ram.keychainTemporary = true ∨ d.ram.keychainTemporary = false ∧ Fresh P msg d d'))
      (fun _ _ => True) d := by
  -- what it takes for every commit to have been refused, once there is a wallet to store
  have hset : ∀ d₁ : Dev NvsKey Ram PinTest, d.ram.keychainTemporary = false →
      (restrictionOf d₁.store = .none ∨ restrictionOf d₁.store = restrictionOf d.store ∧
        ([.done, .done, .refused, .refused].isPrefixOf d₁.fates = true →
          ∀ aeskey iv, msg.setPin = .ok (aeskey, iv) → aeskey.length = AES_KEY_LEN_256 →
            storesRefused P msg d = true)) →
      Sat (setPinSaveKeys P msg)
        (fun r d' => (r.1 = false → d'.ram.hasEncryptedBlob = false) ∧ (r.1 = true →
          d'.ram.keychainTemporary = true ∨ d.ram.keychainTemporary = false ∧ Fresh P msg d d'))
        (fun _ _ => True) d₁ := by
    intro d₁ htemp hrecord
    refine (sat_setPinSaveKeys_record P msg d₁).mono ?_ (fun _ _ h => h)
    rintro r d₂ ⟨hfalse, htrue⟩
    refine ⟨hfalse, fun hr => .inr ⟨htemp, (htrue hr).1, ?_⟩⟩
    rcases (htrue hr).2 with hnone | ⟨hsame, aeskey, iv, hpin, hkey, hfate⟩
    · exact .inl hnone
    · rcases hrecord with hnone | ⟨hsame₁, hrefused⟩
      · exact .inl (hsame.trans hnone)
      · exact .inr ⟨hsame.trans hsame₁, fun h => hrefused (hfate h) aeskey iv hpin hkey⟩
  simp only [authUserLogin, keychainHasTemporary, keychainHasPin, keychainUnlockedByMessageSource,
    sat_bind, sat_getRam, sat_assert, sat_pure, sat_ite, hflag, Bool.false_eq_true, false_implies,
    not_false_eq_true, true_implies, true_and, implies_true, and_true] at hset ⊢
  refine fun _ => ⟨fun htemp => ⟨fun _ => .inl htemp, fun _ _ => ?_⟩, fun htemp => ⟨fun hnone => ?_,
    fun hsome _ => ?_⟩⟩
  · refine (sat_keychainReset msg.source true d).mono ?_ (fun _ _ _ => trivial)
    exact fun _ _ h => ⟨fun h => absurd h (by decide), .inl h.2.2.2⟩
  · simp only [Bool.not_eq_true] at htemp
    refine (sat_initialiseWithMnemonic_record P false msg.mnemonic msg.advancedMode msg.passphrase
      d).mono ?_ (fun _ _ _ => trivial)
    rintro _ d₁ ⟨hflag₁, hcases⟩
    refine ⟨fun _ => hflag₁.trans hflag, fun hloaded => hset d₁ htemp ?_⟩
    rcases hcases with ⟨hnone₁, -⟩ | ⟨hvalid, -, -, -, hcleared⟩
    · exact absurd (by rw [hnone₁]; rfl) hloaded
    · obtain ⟨hfates, hrecord⟩ := hcleared rfl
      refine hrecord.imp_right fun hcommit => ?_
      obtain ⟨hrefused, hstore⟩ := hcommit
      refine ⟨by rw [hstore], fun hfront aeskey iv hpin hkey => ?_⟩
      have hlocked : d.ram.keychainData.isSome = false := by
        rw [Option.isNone_iff_eq_none.1 hnone]
        rfl
      have hall : [.refused, .done, .done, .refused, .refused].isPrefixOf d.fates = true := by
        rw [hfates] at hfront
        rw [Dev.fate] at hrefused
        cases hd : d.fates with
        | nil => simp [hd] at hrefused
        | cons f fs =>
            obtain rfl : f = .refused := by simpa [hd] using hrefused
            rw [hd] at hfront
            exact hfront
      simp only [storesRefused, hpin, hflag, hkey, hlocked, hvalid, hall]
      rfl
  · simp only [Bool.not_eq_true] at htemp
    have hloaded : d.ram.keychainData.isSome = true := by
      simpa [Option.isSome_iff_ne_none] using hsome
    refine hset d htemp (.inr ⟨rfl, fun hfront aeskey iv hpin hkey => ?_⟩)
    simp only [storesRefused, hpin, hflag, hkey, hloaded, if_true, hfront]
    rfl

/-- Setting the restriction after a login that left record and copy alone. -/
theorem sat_set_of_kept {t : NetworkType} (ht : IsRestricted t) {d d₁ : Dev NvsKey Ram PinTest}
    (hkept : KeptOrErased d d₁)
    (hsafe : IsRestricted (restrictionOf d.store) → d₁.ram.keychainTemporary = true ∨
      t = restrictionOf d.store) :
    Sat (keychainSetNetworkTypeRestriction t)
      (fun _ d' => RestrictionInv d' ∧ (IsRestricted (restrictionOf d.store) →
        restrictionOf d'.store = restrictionOf d.store ∨ d'.ram.hasEncryptedBlob = false))
      (fun _ d' => IsRestricted (restrictionOf d.store) → RecordOrErased d d') d₁ := by
  refine (sat_keychainSetNetworkTypeRestriction ht d₁).mono ?_ ?_
  · rintro _ d₂ ⟨hcopy₁, ⟨copy, hram, hcopy⟩, hrecord⟩
    have hcopy₂ : d₂.ram.networkTypeRestriction = copy := by rw [hram]
    have hdata₂ : d₂.ram.keychainData = d₁.ram.keychainData := by rw [hram]
    have hflag₂ : d₂.ram.hasEncryptedBlob = d₁.ram.hasEncryptedBlob := by rw [hram]
    have htemp₂ : d₂.ram.keychainTemporary = d₁.ram.keychainTemporary := by rw [hram]
    rcases hkept with ⟨hsame, -⟩ | ⟨hflag, -⟩
    · refine ⟨fun hunlocked hrestricted => ?_, fun hrestricted => .inl ?_⟩
      · have hfill : copy = t := hcopy (by rw [← hdata₂]; exact hunlocked.loaded)
        rw [hcopy₂, hfill]
        rcases hrecord with ⟨hstore, -⟩ | ⟨hset, -⟩
        · rw [hstore, hsame] at hrestricted ⊢
          rcases hsafe hrestricted with htemp | ht
          · exact absurd (htemp₂.trans htemp) (by rw [hunlocked.stored]; decide)
          · exact ht
        · exact hset.symm
      · rcases hrecord with ⟨hstore, -⟩ | ⟨hset, -, -, htemp⟩
        · rw [hstore, hsame]
        · rcases hsafe hrestricted with htemp' | ht
          · exact absurd (htemp'.symm.trans htemp) (by decide)
          · rw [hset, ht]
    · have hpin := hflag₂.trans hflag
      exact ⟨restrictionInv_of_no_pin hpin, fun _ => .inr hpin⟩
  · rintro _ d₂ hrecord hrestricted
    rcases hrecord with hstore | ⟨hset, -, hpin, htemp⟩
    · rw [RecordOrErased, hstore]
      exact hkept.record
    · rcases hsafe hrestricted with htemp' | ht
      · exact absurd (htemp'.symm.trans htemp) (by decide)
      · exact .inl (hset.trans ht)

/-- Setting the restriction of a wallet that was just stored. -/
theorem sat_set_of_fresh {P : KeyPrims} {msg : AuthUser} {t : NetworkType} (ht : IsRestricted t)
    {d d₁ : Dev NvsKey Ram PinTest} (hfresh : Fresh P msg d d₁)
    (hsafe : IsRestricted (restrictionOf d.store) → storesRefused P msg d = true →
      t = restrictionOf d.store) :
    Sat (keychainSetNetworkTypeRestriction t) (fun _ d' => RestrictionInv d') (fun _ _ => True)
      d₁ := by
  refine (sat_keychainSetNetworkTypeRestriction ht d₁).mono ?_ (fun _ _ _ => trivial)
  rintro _ d₂ ⟨-, ⟨copy, hram, hcopy⟩, hrecord⟩ hunlocked hrestricted
  have hfill : copy = t := hcopy (by simpa [hram] using hunlocked.loaded)
  have hcopy₂ : d₂.ram.networkTypeRestriction = t := by rw [hram, hfill]
  rw [hcopy₂]
  rcases hrecord with ⟨hstore, hrefused⟩ | ⟨hset, -⟩
  · have hfate : d₁.fate = .refused := hrefused hfresh.1 (by simpa [hram] using hunlocked.pin)
      (by simpa [hram] using hunlocked.stored)
    rw [hstore] at hrestricted ⊢
    rcases hfresh.2 with hnone | ⟨hsame, hall⟩
    · exact absurd hnone hrestricted.ne_none
    · rw [hsame] at hrestricted ⊢
      exact hsafe hrestricted (hall hfate)
  · exact hset.symm

/-! ### One step -/

/-- The network is the one the message names, and its type is the one in the copy unless that is
empty. -/
theorem sat_checkNetwork (network : Option String) (d : Dev NvsKey Ram PinTest) :
    Sat (checkNetwork network)
      (fun r d' => d' = d ∧ r ≠ .error .ok ∧ ∀ networkId, r = .ok networkId →
        networkFromName network = some networkId ∧
        (d.ram.networkTypeRestriction = .none ∨
          networkToType networkId = d.ram.networkTypeRestriction))
      (fun _ _ => False) d := by
  rw [checkNetwork]
  cases networkFromName network with
  | none => exact (sat_pure _).2 ⟨rfl, by simp, fun _ h => by simp at h⟩
  | some networkId =>
      simp only [keychainIsNetworkIdConsistent, keychainIsNetworkTypeConsistent, sat_ite, sat_pure,
        sat_bind, sat_getRam]
      refine ⟨fun _ => ⟨trivial, by simp, fun _ h => by simp at h⟩, fun hcons =>
        ⟨trivial, by simp, ?_⟩⟩
      rintro networkId h
      obtain rfl := Except.ok.inj h
      exact ⟨rfl, or_iff_not_imp_left.2 (by simpa using hcons)⟩

/-- The operation is the PIN dialogue with the PIN that erases the wallet. -/
def LoginOp.erases : LoginOp → Bool
  | .authUser msg => msg.erases
  | _ => false

/-- **The requests that do not unlock a wallet for a network of the wrong type.**  The copy in memory
lets the network pass, the wallet in flash is then unlocked, or stored without its restriction, and
the record is of another type. -/
def NetworkSafe (P : KeyPrims) (d : Dev NvsKey Ram PinTest) (r : LoginRequest) : Prop :=
  match r.op with
  | .authUser msg =>
      msg.epochError = none → d.ram.keychainTemporary = false → IsRestricted (restrictionOf d.store) →
        (unlocks P msg { d with fates := r.fates } = true ∨
          storesRefused P msg { d with fates := r.fates } = true) →
        ∀ networkId ∈ networkFromName msg.network,
          (d.ram.networkTypeRestriction = .none ∨
            networkToType networkId = d.ram.networkTypeRestriction) →
          networkToType networkId = restrictionOf d.store
  | _ => True

instance (P : KeyPrims) (d : Dev NvsKey Ram PinTest) : ∀ r, Decidable (NetworkSafe P d r)
  | ⟨.authUser _, _⟩ => inferInstanceAs (Decidable (_ → _ → _ → _ → _))
  | ⟨.reboot, _⟩ | ⟨.request .., _⟩ | ⟨.logout, _⟩ | ⟨.disconnect, _⟩ | ⟨.initialise .., _⟩
  | ⟨.scanMnemonic .., _⟩ | ⟨.setTemporary, _⟩ | ⟨.qrMode, _⟩ | ⟨.relogin _, _⟩ => isTrue trivial

/-- The wallet is gone from the flash, or was to be erased with the device locked afterwards. -/
def ErasedBy (r : LoginRequest) (d : Dev NvsKey Ram PinTest) : Prop :=
  d.ram.hasEncryptedBlob = false ∨ r.op.erases = true ∧ d.ram.keychainData = none

/-- **What a step owes**: the invariant, and the record of the stored wallet. -/
def StepKeeps (r : LoginRequest) (d d' : Dev NvsKey Ram PinTest) : Prop :=
  RestrictionInv d' ∧ (d.ram.hasEncryptedBlob = true → IsRestricted (restrictionOf d.store) →
    restrictionOf d'.store = restrictionOf d.store ∨ ErasedBy r d')

/-- What a stopped step owes. -/
def StopKeeps (r : LoginRequest) (d d' : Dev NvsKey Ram PinTest) : Prop :=
  d.ram.hasEncryptedBlob = true → IsRestricted (restrictionOf d.store) →
    RecordOrErased d d' ∨ r.op.erases = true

/-- The `auth_user` message. -/
theorem sat_authUserProcess_restriction (P : KeyPrims) (msg : AuthUser) (fates : List Fate)
    {d : Dev NvsKey Ram PinTest} (hd : RestrictionInv d)
    (hr : NetworkSafe P d ⟨.authUser msg, fates⟩) :
    Sat (authUserProcess P msg) (fun _ d' => StepKeeps ⟨.authUser msg, fates⟩ d d')
      (fun _ d' => StopKeeps ⟨.authUser msg, fates⟩ d d') { d with fates := fates } := by
  have hd' : RestrictionInv { d with fates := fates } := hd.congr rfl rfl fun h => h.congr rfl
  have hsame : StepKeeps ⟨.authUser msg, fates⟩ d { d with fates := fates } :=
    ⟨hd', fun _ _ => .inl rfl⟩
  rw [authUserProcess, sat_bind]
  refine (sat_checkNetwork msg.network _).mono ?_ (fun _ _ h => h.elim)
  rintro r _ ⟨rfl, -, hnetwork⟩
  cases r with
  | error reply => exact (sat_pure _).2 hsame
  | ok networkId =>
      obtain ⟨hname, hcons⟩ := hnetwork networkId rfl
      have ht := isRestricted_networkToType networkId
      dsimp only
      cases hepoch : msg.epochError with
      | some reply => exact (sat_pure _).2 hsame
      | none =>
          have hsafe : d.ram.keychainTemporary = false → IsRestricted (restrictionOf d.store) → _ →
              networkToType networkId = restrictionOf d.store :=
            fun htemp hrestricted hkey => hr hepoch htemp hrestricted hkey networkId hname hcons
          refine (sat_bind _ _).2 ?_
          cases hflag : d.ram.hasEncryptedBlob with
          | true =>
              refine (sat_authUserLogin_pin (d := { d with fates := fates }) P msg hflag).mono ?_
                (fun _ _ h _ _ => h)
              rintro ⟨rslt, reply⟩ d₁ ⟨hkept, hfalse, htrue⟩
              cases rslt with
              | false =>
                  refine (sat_pure _).2 ⟨?_, fun _ _ => ?_⟩
                  · rcases hfalse rfl with hnone | htemp
                    · exact restrictionInv_of_none hnone
                    · exact restrictionInv_of_temporary htemp
                  · exact hkept.imp (fun h => h.1) (fun h => .inl h.1)
              | true =>
                  refine (sat_bind _ _).2 ((sat_set_of_kept ht hkept fun hrestricted => ?_).mono ?_ ?_)
                  · refine (htrue rfl).imp_right fun ⟨htemp, hlogin⟩ => ?_
                    rcases hlogin with hunlocked | hkey
                    · -- the wallet was unlocked, so that the copy is not empty
                      have hcopy := hd' hunlocked hrestricted
                      rcases hcons with hnone | hcons
                      · exact absurd (hcopy.symm.trans hnone) hrestricted.ne_none
                      · exact hcons.trans hcopy
                    · exact hsafe htemp hrestricted (.inl hkey)
                  · exact fun _ _ h => (sat_pure _).2 ⟨h.1, fun _ hrestricted =>
                      (h.2 hrestricted).imp_right .inl⟩
                  · exact fun _ _ h _ hrestricted => .inl (h hrestricted)
          | false =>
              have hpin : ∀ {α : Prop}, d.ram.hasEncryptedBlob = true → α :=
                fun h => absurd (hflag.symm.trans h) (by decide)
              refine (sat_authUserLogin_new (d := { d with fates := fates }) P msg hflag).mono ?_
                (fun _ _ _ h => hpin h)
              rintro ⟨rslt, reply⟩ d₁ ⟨hfalse, htrue⟩
              cases rslt with
              | false =>
                  exact (sat_pure _).2 ⟨restrictionInv_of_no_pin (hfalse rfl), fun h => hpin h⟩
              | true =>
                  refine (sat_bind _ _).2 ?_
                  rcases htrue rfl with htemp | ⟨htemp, hfresh⟩
                  · refine (sat_set_of_kept ht (.inl (.refl d₁)) fun _ => .inl htemp).mono ?_ ?_
                    · exact fun _ _ h => (sat_pure _).2 ⟨h.1, fun h => hpin h⟩
                    · exact fun _ _ _ h => hpin h
                  · refine (sat_set_of_fresh ht hfresh fun hrestricted hall =>
                      hsafe htemp hrestricted (.inr hall)).mono ?_ (fun _ _ _ h => hpin h)
                    exact fun _ _ h => (sat_pure _).2 ⟨h, fun h => hpin h⟩

/-- An operation that leaves the flash alone, and the copy where it matters. -/
theorem stepKeeps_of_store {r : LoginRequest} {d d' : Dev NvsKey Ram PinTest}
    (hinv : RestrictionInv d') (hstore : d'.store = d.store) : StepKeeps r d d' :=
  ⟨hinv, fun _ _ => .inl (by rw [hstore])⟩

theorem stopKeeps_of_store {r : LoginRequest} {d d' : Dev NvsKey Ram PinTest}
    (hstore : d'.store = d.store) : StopKeeps r d d' := fun _ _ => .inl (.inl (by rw [hstore]))

/-- A login that is no `auth_user` message: it logs out, or changes who holds the wallet, or makes it
a temporary one. -/
theorem sat_exec_restriction (P : KeyPrims) (r : LoginRequest) {d : Dev NvsKey Ram PinTest}
    (hd : RestrictionInv d) (hr : NetworkSafe P d r) :
    Sat (r.op.exec P) (fun _ d' => StepKeeps r d d') (fun _ d' => StopKeeps r d d')
      { d with fates := r.fates } := by
  obtain ⟨op, fates⟩ := r
  have hd' : RestrictionInv { d with fates := fates } := hd.congr rfl rfl fun h => h.congr rfl
  have hsame : StepKeeps ⟨op, fates⟩ d { d with fates := fates } := stepKeeps_of_store hd' rfl
  have hstop : StopKeeps ⟨op, fates⟩ d { d with fates := fates } := stopKeeps_of_store rfl
  have hclear : Sat keychainClear (fun _ d' => StepKeeps ⟨op, fates⟩ d d')
      (fun _ d' => StopKeeps ⟨op, fates⟩ d d') { d with fates := fates } := by
    simp only [keychainClear, sat_bind, sat_storageGetKeyFlags, sat_modifyRam]
    exact stepKeeps_of_store (restrictionInv_of_none rfl) rfl
  cases op with
  | reboot => exact (sat_throw _).2 hstop
  | authUser msg =>
      exact (sat_map _ _).2 (sat_authUserProcess_restriction P msg fates hd hr)
  | request source network =>
      refine (sat_map _ _).2 ?_
      simp only [networkRequest, keychainUnlockedByMessageSource, sat_bind, sat_getRam, sat_pure,
        sat_ite]
      refine ⟨fun _ => hsame, fun _ => ?_⟩
      refine (sat_checkNetwork network _).mono ?_ (fun _ _ h => h.elim)
      rintro reply _ ⟨rfl, -⟩
      cases reply <;> exact (sat_pure _).2 hsame
  | logout => exact hclear
  | disconnect =>
      simp only [LoginOp.exec, sat_bind, sat_getRam, sat_ite, sat_pure]
      exact ⟨fun _ => hclear, fun _ => hsame⟩
  | initialise temporary mnemonic advancedMode passphrase =>
      refine (sat_initialiseWithMnemonic_record P temporary mnemonic advancedMode passphrase _).mono
        ?_ (fun _ _ h hflag _ => .inl (.inl (by rw [h hflag])))
      rintro _ d₁ ⟨hflag₁, ⟨hnone, hstore⟩ | ⟨-, htemp, hnew, hcleared⟩⟩
      · exact stepKeeps_of_store (restrictionInv_of_none hnone) hstore
      · cases temporary with
        | true => exact stepKeeps_of_store (restrictionInv_of_temporary htemp) (hcleared.1 rfl)
        | false =>
            have hflag : d.ram.hasEncryptedBlob = false := hnew rfl
            exact ⟨restrictionInv_of_no_pin (hflag₁.trans hflag),
              fun h => absurd (hflag.symm.trans h) (by decide)⟩
  | scanMnemonic mnemonic passphrase =>
      refine (sat_map _ _).2 ((sat_deriveKeychain_record P true mnemonic passphrase _).mono ?_
        (fun _ _ h => stopKeeps_of_store (h rfl)))
      rintro ok d₁ (⟨-, rfl⟩ | ⟨-, htemp, -, hcleared⟩)
      · exact hsame
      · exact stepKeeps_of_store (restrictionInv_of_temporary htemp) (hcleared.1 rfl)
  | setTemporary =>
      simp only [LoginOp.exec, keychainSetTemporary, keychainHasPin, sat_bind, sat_getRam, sat_assert,
        sat_pure, sat_modifyRam]
      refine ⟨fun _ => ⟨fun _ => ⟨fun _ => ⟨fun _ => ?_, fun _ => hstop⟩, fun _ => hstop⟩,
        fun _ => hstop⟩, fun _ => hstop⟩
      exact stepKeeps_of_store (restrictionInv_of_temporary rfl) rfl
  | qrMode =>
      simp only [LoginOp.exec, keychainHasTemporary, sat_bind, sat_getRam, sat_assert, sat_pure,
        sat_ite]
      refine ⟨fun _ => ⟨fun _ => ?_, fun _ => hsame⟩, fun _ => hstop⟩
      refine (sat_keychainReset .internal true _).mono ?_ (fun _ _ h => by rw [h]; exact hstop)
      exact fun _ _ h => ⟨restrictionInv_of_temporary h.2.2.2, fun _ _ => .inl h.1.1⟩
  | relogin source =>
      simp only [LoginOp.exec, sat_bind, sat_getRam, sat_pure, sat_ite]
      refine ⟨fun hcond => ?_, fun _ => hsame⟩
      refine (sat_keychainReset source false _).mono ?_ (fun _ _ h => by rw [h]; exact hstop)
      rintro _ d₁ ⟨hkept, -⟩
      -- the wallet was the stored one, unlocked, and stays so
      simp only [Bool.and_eq_true, Bool.not_eq_true'] at hcond
      exact ⟨hd'.congr hkept.1 hkept.2 fun _ => ⟨hcond.1.1.2, hcond.1.2, hcond.1.1.1⟩,
        fun _ _ => .inl hkept.1⟩

/-- **One safe step keeps the invariant, and the record until the wallet is erased.** -/
theorem loginStep_restriction (P : KeyPrims) {d : Dev NvsKey Ram PinTest} (r : LoginRequest)
    (hd : RestrictionInv d) (hr : NetworkSafe P d r) : StepKeeps r d (loginStep P d r) := by
  refine runOp_of_sat (Q := fun d' => StepKeeps r d d') (J := fun d' => StopKeeps r d d')
    (sat_exec_restriction P r hd hr) fun d' hd' => sat_keychainInitCache.2 ?_
  refine ⟨restrictionInv_of_none rfl, fun hflag hrestricted => ?_⟩
  rcases hd' hflag hrestricted with hrecord | herases
  · rcases hrecord with hsame | hzero
    · exact .inl hsame
    · exact .inr (.inl (by simp [hzero]))
  · exact .inr (.inr ⟨herases, rfl⟩)

theorem powerOn_restrictionInv (st : Store NvsKey) :
    RestrictionInv (powerOn st : Dev NvsKey Ram PinTest) :=
  restart_of_sat (Q := RestrictionInv) (sat_keychainInitCache.2 (restrictionInv_of_none rfl))

/-- **The restriction is permanent along every safe run.**  While the wallet is unlocked by its PIN,
the requests that get through are for networks of the type in flash, and no safe step changes that
type unless the wallet is erased. -/
theorem restriction_run (P : KeyPrims) (st : Store NvsKey) (rs : List LoginRequest)
    (h : AllSteps (loginStep P) (NetworkSafe P) (powerOn st) rs) :
    let d := run (loginStep P) (powerOn st) rs
    (PinUnlocked d → IsRestricted (restrictionOf d.store) →
      (∀ source network d', (networkRequest source network).run d = .ok .ok d' →
        (networkFromName network).map networkToType = some (restrictionOf d.store)) ∧
      ∀ msg d', (authUserProcess P msg).run d = .ok .ok d' →
        (networkFromName msg.network).map networkToType = some (restrictionOf d.store)) ∧
    ∀ r, NetworkSafe P d r → d.ram.hasEncryptedBlob = true → IsRestricted (restrictionOf d.store) →
      restrictionOf (loginStep P d r).store = restrictionOf d.store ∨ ErasedBy r (loginStep P d r) := by
  intro d
  have hinv : RestrictionInv d :=
    run_induction (I := RestrictionInv) (fun _ r hd hr => (loginStep_restriction P r hd hr).1)
      (powerOn_restrictionInv st) h
  refine ⟨fun hunlocked hrestricted => ?_, fun r hr => (loginStep_restriction P r hinv hr).2⟩
  have hcopy := hinv hunlocked hrestricted
  -- a reply other than a rejection comes after the check only
  have hcheck : ∀ network (answer : Except Reply Network → KeychainM Reply),
      (∀ reply, answer (.error reply) = pure reply) → Sat (checkNetwork network >>= answer)
        (fun reply _ => reply = .ok →
          (networkFromName network).map networkToType = some (restrictionOf d.store))
        (fun _ _ => True) d := by
    intro network answer hanswer
    rw [sat_bind]
    refine (sat_checkNetwork network d).mono ?_ (fun _ _ h => h.elim)
    rintro r _ ⟨rfl, herror, hok⟩
    cases r with
    | error reply =>
        rw [hanswer]
        exact (sat_pure _).2 fun h => absurd (congrArg Except.error h) herror
    | ok networkId =>
        obtain ⟨hname, hnone | hsame⟩ := hok networkId rfl
        · exact absurd (hcopy.symm.trans hnone) hrestricted.ne_none
        · refine sat_of_forall (fun _ _ _ => ?_) fun _ _ => trivial
          rw [hname, Option.map_some, hsame, hcopy]
  refine ⟨fun source network d' hrun => ?_, fun msg d' hrun =>
    (hcheck msg.network _ fun _ => rfl).ok hrun rfl⟩
  have hrequest : Sat (networkRequest source network)
      (fun reply _ => reply = .ok → (networkFromName network).map networkToType = some (restrictionOf d.store))
      (fun _ _ => True) d := by
    simp only [networkRequest, keychainUnlockedByMessageSource, sat_bind, sat_getRam, sat_pure,
      sat_ite] at hcheck ⊢
    exact ⟨fun _ h => by simp at h, fun _ => hcheck network _ fun _ => rfl⟩
  exact hrequest.ok hrun rfl

/-- An `auth_user` message for the network: the wallet that is set up has a fixed mnemonic, and every
key is the same one. -/
def toyAuthUser (network : String) : AuthUser where
  source := .serial
  network := some network
  epochError := none
  getPin := .ok { aeskey := toyKey 1, isErasePin := false }
  passphrase := []
  changePin := none
  mnemonic := some (List.replicate BIP39_ENTROPY_LEN_128 7)
  advancedMode := false
  setPin := .ok (toyKey 1, toyIv)

/-- A wallet is set up on the main network and unlocked again, before and after a temporary one. -/
def toyLogins : List LoginRequest :=
  [⟨.authUser (toyAuthUser "mainnet"), []⟩, ⟨.reboot, []⟩, ⟨.authUser (toyAuthUser "liquid"), []⟩,
    ⟨.logout, []⟩, ⟨.initialise true (some []) false [], []⟩,
    ⟨.authUser (toyAuthUser "testnet"), []⟩, ⟨.reboot, []⟩,
    ⟨.authUser (toyAuthUser "mainnet"), []⟩]

theorem restriction_toyLogins :
    let d := run (loginStep toyKeyPrims) (powerOn fun _ => none) toyLogins
    (PinUnlocked d ∧ restrictionOf d.store = .main) ∧
    ∀ source network d', (networkRequest source network).run d = .ok .ok d' →
      (networkFromName network).map networkToType = some (restrictionOf d.store) := by
  have hunlocked : PinUnlocked (run (loginStep toyKeyPrims) (powerOn fun _ => none) toyLogins) :=
    ⟨by decide +kernel, by decide +kernel, by decide +kernel⟩
  have hrecord : restrictionOf (run (loginStep toyKeyPrims) (powerOn fun _ => none) toyLogins).store =
      .main := by decide +kernel
  have hrun := restriction_run toyKeyPrims (fun _ => none) toyLogins (by decide +kernel)
  exact ⟨⟨hunlocked, hrecord⟩, (hrun.1 hunlocked (by rw [hrecord]; exact .inl rfl)).1⟩

/-- A wallet is set up on the main network, and after a restart a temporary wallet is used and
forgotten. -/
def detour : List LoginRequest :=
  [⟨.authUser (toyAuthUser "mainnet"), []⟩, ⟨.reboot, []⟩,
    ⟨.initialise true (some []) false [], []⟩, ⟨.logout, []⟩]

/-- **A detour through a temporary wallet lifts the restriction**: the wallet is then unlocked for a
test network, and the record changes with it. -/
theorem restriction_fails_after_temporary :
    let d := run (loginStep toyKeyPrims) (powerOn fun _ => none) detour
    let r : LoginRequest := ⟨.authUser (toyAuthUser "testnet"), []⟩
    let d' := loginStep toyKeyPrims d r
    d.ram.hasEncryptedBlob = true ∧ restrictionOf d.store = .main ∧
      restrictionOf d'.store = .test ∧ ¬ ErasedBy r d' ∧ PinUnlocked d' ∧
      (match (networkRequest .serial (some "testnet")).run d' with
        | .ok reply _ => decide (reply = .ok)
        | .error _ _ => false) = true := by
  refine ⟨by decide +kernel, by decide +kernel, by decide +kernel, ?_,
    ⟨by decide +kernel, by decide +kernel, by decide +kernel⟩, by decide +kernel⟩
  rintro (hflag | ⟨herases, -⟩)
  · exact absurd hflag (by decide +kernel)
  · exact absurd herases (by decide)

end Jade
