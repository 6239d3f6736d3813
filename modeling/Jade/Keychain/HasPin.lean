/-
**The PIN flag and the flash.**

Whether there is a PIN-protected wallet is kept twice: in flash, as an encrypted blob with a counter
of attempts beside it, and in memory, as a flag that `keychain_has_pin` returns.  The flag is read
off the counter at boot and then maintained by hand, while the storage erases the wallet on its own
when an attempt cannot be paid for.  The code that asks for a PIN relies on the two agreeing: it
asserts that attempts remain whenever the flag is set.

The invariant is `Jade.FlagInv`.  It has a half that survives losing the memory, `Jade.FlashSound`,
since a restart puts the flag back to what the counter says.  Every operation keeps it as long as
the flash does what it is told where the result is not looked at: it must not refuse to pay for an
attempt, to erase the counter, or to restore it after the last attempt, and it must not leave a
first wallet with a counter and no blob.

Main definitions:

* `Jade.FlashSound`, `Jade.FlagInv` — the invariant;
* `Jade.opens` — the blob is authentic and decrypts under a key;
* `Jade.AttemptSound`, `Jade.FlagSafe` — the steps that keep the flag in order;
* `Jade.getPinGetAeskey` — the assertions of the PIN entry.

Main results:

* `Jade.step_flagInv` — **one safe step keeps the invariant**;
* `Jade.hasPin_run` — **the flag agrees with the flash along every safe run**;
* `Jade.hasPin_fails_on_refused_decrement` — a refused decrement leaves the flag set over an empty
  flash.
-/

import Jade.Keychain.PinBound

set_option relaxedAutoImplicit false
set_option autoImplicit false

namespace Jade

open Exec Flash Run

/-! ### The invariant -/

/-- A counter that is not zero is within its bounds and has a blob beside it. -/
def FlashSound (st : Store NvsKey) : Prop :=
  counterOf st ≠ 0 → counterOf st ≤ 3 ∧ (st .blob).isSome

/-- The half of the invariant that does not need the memory. -/
def Sound (d : Dev NvsKey Ram PinTest) : Prop := FlashSound d.store

/-- **The flag says whether attempts remain**, and the flash is sound. -/
def FlagInv (d : Dev NvsKey Ram PinTest) : Prop :=
  FlashSound d.store ∧ (d.ram.hasEncryptedBlob = true ↔ counterOf d.store ≠ 0)

theorem FlagInv.sound {d : Dev NvsKey Ram PinTest} (h : FlagInv d) : Sound d := h.1

theorem flashSound_of_zero {st : Store NvsKey} (h : counterOf st = 0) : FlashSound st :=
  fun hne => absurd h hne

theorem FlashSound.put_counter {st : Store NvsKey} (hblob : (st .blob).isSome) {c : UInt8}
    (hc : c ≤ 3) : FlashSound (Function.update st .counter (some [c])) := by
  intro _
  rw [counterOf_update_counter, Function.update_of_ne (by decide)]
  exact ⟨hc, hblob⟩

theorem flashSound_erase_counter (st : Store NvsKey) :
    FlashSound (Function.update st .counter none) := flashSound_of_zero (by simp)

theorem FlashSound.put_blob {st : Store NvsKey} (hc : counterOf st ≤ 3) (v : Bytes) :
    FlashSound (Function.update st .blob (some v)) := by
  intro _
  rw [counterOf_update_of_ne st (by decide), Function.update_self]
  exact ⟨hc, rfl⟩

theorem one_le_of_ne_zero {c : UInt8} (h : c ≠ 0) : 1 ≤ c := by
  rw [UInt8.le_iff_toNat_le]
  exact Nat.pos_of_ne_zero fun hzero => h (UInt8.toNat_inj.1 hzero)

/-- What the flag says, in terms of the two records. -/
theorem FlagInv.iff {d : Dev NvsKey Ram PinTest} (h : FlagInv d) :
    d.ram.hasEncryptedBlob = true ↔
      (d.store .blob).isSome ∧ 1 ≤ counterOf d.store ∧ counterOf d.store ≤ 3 := by
  rw [h.2]
  constructor
  · intro hne
    obtain ⟨hle, hblob⟩ := h.1 hne
    exact ⟨hblob, one_le_of_ne_zero hne, hle⟩
  · rintro ⟨-, hpos, -⟩ hzero
    rw [hzero] at hpos
    exact absurd hpos (by decide)

/-! ### Programs that do not touch the flag, the counter or the blob -/

theorem keeps_flag_modifyRam {f : Ram → Ram}
    (hf : ∀ r, (f r).hasEncryptedBlob = r.hasEncryptedBlob) :
    Keeps FlagInv (modifyRam f : KeychainM PUnit) := by
  intro d hd
  rw [sat_modifyRam]
  exact ⟨hd.1, by rw [hf]; exact hd.2⟩

theorem frame_flagInv : Frame FlagInv where
  modifyRam _ hf := keeps_flag_modifyRam hf
  commit v d hd := by
    have hput : FlagInv ({ d with fates := d.fates.tail }.put .networktype v) := by
      simp only [FlagInv, FlashSound, Dev.put]
      rw [counterOf_update_of_ne _ (by decide), Function.update_of_ne (by decide)]
      exact hd
    exact (sat_commit _ _).2 ⟨fun _ => hput, fun _ => hd, fun _ => hd, fun _ => hput⟩

/-- A program that keeps the invariant in particular stops in a sound state. -/
theorem sat_of_keeps_flag {α : Type} {x : KeychainM α} (hx : Keeps FlagInv x)
    {d : Dev NvsKey Ram PinTest} (hd : FlagInv d) :
    Sat x (fun _ => FlagInv) (fun _ => Sound) d :=
  (hx d hd).mono (fun _ _ h => h) (fun _ _ h => h.sound)

/-- The boot code puts the flag in order, and does not stop. -/
theorem sat_keychainInitCache_flag {d : Dev NvsKey Ram PinTest} (hd : Sound d) :
    Sat keychainInitCache (fun _ => FlagInv) (fun _ _ => False) d :=
  sat_keychainInitCache.2 ⟨hd, decide_eq_true_iff.trans UInt8.pos_iff_ne_zero⟩

/-! ### One attempt -/

/-- The blob is authentic and decrypts under the key, to at most `outputLen` bytes. -/
def opens (P : Prims) (aeskey bytes : Bytes) (outputLen : ℕ) : Bool :=
  let body := bytes.take (bytes.length - HMAC_SHA256_LEN)
  HMAC_SHA256_LEN < bytes.length &&
    P.hmacSha256 aeskey body = bytes.drop (bytes.length - HMAC_SHA256_LEN) &&
    AES_BLOCK_LEN < body.length && (body.length - AES_BLOCK_LEN) % AES_BLOCK_LEN = 0 &&
    (P.aesCbcDecrypt aeskey (body.take AES_BLOCK_LEN) (body.drop AES_BLOCK_LEN)).any
      (·.length ≤ outputLen)

/-- Testing a blob touches neither the flash nor the memory, and succeeds on a blob that opens
only. -/
theorem sat_getDecryptedPayload_opens (P : Prims) (aeskey bytes : Bytes) (outputLen : ℕ)
    (d : Dev NvsKey Ram PinTest) :
    Sat (getDecryptedPayload P aeskey bytes outputLen)
      (fun r d' => d'.store = d.store ∧ d'.ram = d.ram ∧ d'.fates = d.fates ∧
        (r.isSome → opens P aeskey bytes outputLen))
      (fun _ d' => d'.store = d.store) d := by
  simp only [getDecryptedPayload, aesDecryptBytes, sat_bind, sat_assert, sat_ite, sat_note,
    sat_pure, Option.isSome_none, Bool.false_eq_true, false_implies, implies_true, and_true,
    true_and]
  intro hlen hmac _ hbody _ hmod _
  cases hdec : P.aesCbcDecrypt aeskey
      ((bytes.take (bytes.length - HMAC_SHA256_LEN)).take AES_BLOCK_LEN)
      ((bytes.take (bytes.length - HMAC_SHA256_LEN)).drop AES_BLOCK_LEN) with
  | none => simp
  | some output =>
      rw [sat_pure]
      by_cases hout : output.length ≤ outputLen
      · simp only [if_pos hout, sat_bind, sat_note, sat_pure, true_and]
        intro _
        simp only [opens, Bool.and_eq_true, hdec, Option.any_some, decide_eq_true_eq]
        simp only [decide_eq_true_eq] at hlen hbody hmod
        exact ⟨⟨⟨⟨hlen, not_not.1 hmac⟩, hbody⟩, hmod⟩, hout⟩
      · simp [if_neg hout]

/-- The counter would be in order without the commit that follows the one that pays for an attempt:
erasing the counter of a blob that cannot be read, or restoring it after the last attempt. -/
def settled (P : Prims) (aeskey : Bytes) (counter : UInt8) : Option Bytes → Bool
  | none => counter = 1
  | some encrypted =>
      counter ≠ 1 || !opens P aeskey encrypted (aesPaddedLen SERIALIZED_KEY_LEN)

/-- The flash pays for the attempt, and does not refuse the commit after that one where its result
is not looked at and matters. -/
def AttemptSound (P : Prims) (aeskey : Bytes) (d : Dev NvsKey Ram PinTest) (fates : List Fate) :
    Prop :=
  fates.headD .done ≠ .refused ∧
    (fates.headD .done = .done → fates.tail.headD .done = .refused →
      settled P aeskey (counterOf d.store)
        (fitting d.store .blob (encryptedDataLen SERIALIZED_KEY_LEN)) = true)

instance (P : Prims) (aeskey : Bytes) (d : Dev NvsKey Ram PinTest) (fates : List Fate) :
    Decidable (AttemptSound P aeskey d fates) := inferInstanceAs (Decidable (_ ∧ _))

/-- The flag is set, the blob is there, and the counter is within its bounds. -/
structure HasWallet (d : Dev NvsKey Ram PinTest) : Prop where
  flag : d.ram.hasEncryptedBlob = true
  blob : (d.store .blob).isSome
  bound : counterOf d.store ≤ 3

theorem FlagInv.hasWallet {d : Dev NvsKey Ram PinTest} (h : FlagInv d)
    (hflag : d.ram.hasEncryptedBlob = true) : HasWallet d :=
  have hsound := h.1 (h.2.1 hflag)
  ⟨hflag, hsound.2, hsound.1⟩

theorem HasWallet.sound {d : Dev NvsKey Ram PinTest} (h : HasWallet d) : Sound d :=
  fun _ => ⟨h.bound, h.blob⟩

theorem HasWallet.flagInv {d : Dev NvsKey Ram PinTest} (h : HasWallet d)
    (hc : counterOf d.store ≠ 0) : FlagInv d :=
  ⟨h.sound, iff_of_true h.flag hc⟩

/-- Paying for an attempt when the flash does not refuse: the wallet is still there, and the counter
is one less. -/
theorem sat_storageDecrementCounter_paid {d : Dev NvsKey Ram PinTest} (h : HasWallet d)
    (hc : counterOf d.store ≠ 0) (hfate : d.fate ≠ .refused) :
    Sat storageDecrementCounter
      (fun ok d' => ok = true ∧ d.fate = .done ∧ HasWallet d' ∧ d'.fates = d.fates.tail ∧
        d'.store .blob = d.store .blob ∧ counterOf d'.store + 1 = counterOf d.store)
      (fun _ => Sound) d := by
  have hle := UInt8.le_iff_toNat_le.1 h.bound
  have hpred : counterOf d.store - 1 ≤ 3 := by
    rw [UInt8.le_iff_toNat_le, UInt8.toNat_sub_of_le _ _ (one_le_of_ne_zero hc)]
    omega
  have hput : Sound ({ d with fates := d.fates.tail }.put .counter
      (some [counterOf d.store - 1])) := FlashSound.put_counter h.blob hpred
  simp only [storageDecrementCounter, sat_bind, sat_storageGetCounter, sat_ite, sat_storeBlob,
    write, sat_commit]
  refine ⟨fun hbad => ?_, fun _ => ⟨fun hdone => ?_, fun hrefused => absurd hrefused hfate,
    fun _ => h.sound, fun _ => hput⟩⟩
  · rcases hbad with hzero | hlarge
    · exact absurd hzero hc
    · exact absurd h.bound (UInt8.not_le.2 hlarge)
  · simp only [true_implies, not_true_eq_false, false_implies, and_true, sat_pure]
    refine ⟨trivial, hdone, ⟨h.flag, ?_, ?_⟩, rfl, ?_, ?_⟩
    · simpa [Dev.put] using h.blob
    · simpa [Dev.put] using hpred
    · simp [Dev.put]
    · simp [Dev.put]

/-- Erasing the wallet and clearing the flag, when the counter is zero by the end. -/
theorem sat_eraseUnreadable {d : Dev NvsKey Ram PinTest} (hd : Sound d)
    (hzero : d.fate = .refused → counterOf d.store = 0) :
    Sat (do
        let _ ← storageEraseEncryptedBlob
        modifyRam fun r => { r with hasEncryptedBlob := false }
        return none : KeychainM (Option Bytes))
      (fun r d' => FlagInv d' ∧ r = none) (fun _ => Sound) d := by
  -- once the counter is zero, it does not matter what becomes of the blob
  have hblob : ∀ d : Dev NvsKey Ram PinTest, counterOf d.store = 0 →
      Sat (do
          let _ ← erase NvsKey.blob
          modifyRam fun r => { r with hasEncryptedBlob := false }
          return none : KeychainM (Option Bytes))
        (fun r d' => FlagInv d' ∧ r = none) (fun _ => Sound) d := by
    intro d hc
    have hput : counterOf (Function.update d.store .blob none) = 0 := by
      rw [counterOf_update_of_ne _ (by decide), hc]
    simp only [erase, sat_bind, sat_commit, sat_modifyRam, sat_pure, and_true]
    exact ⟨fun _ => ⟨flashSound_of_zero hput, by simp [Dev.put, hput]⟩,
      fun _ => ⟨flashSound_of_zero hc, by simp [hc]⟩,
      fun _ => flashSound_of_zero hc, fun _ => flashSound_of_zero hput⟩
  simp only [storageEraseEncryptedBlob, sat_bind] at hblob ⊢
  have herased := flashSound_erase_counter d.store
  refine (sat_commit _ _).2 ⟨fun _ => hblob _ (by simp [Dev.put]), fun h => ?_, fun _ => hd,
    fun _ => herased⟩
  exact hblob _ (hzero h)

theorem sat_keychainEraseEncrypted_flag {d : Dev NvsKey Ram PinTest} (hd : Sound d)
    (hzero : d.fate = .refused → counterOf d.store = 0) :
    Sat keychainEraseEncrypted (fun _ => FlagInv) (fun _ => Sound) d := by
  -- the flag is wrong until the last line, but the counter is zero from the first one on
  have hzero' : Keeps (fun d : Dev NvsKey Ram PinTest => counterOf d.store = 0) (do
      let _ ← erase .blob
      keychainClearNetworkTypeRestriction : KeychainM PUnit) := by
    have hframe : Frame fun d : Dev NvsKey Ram PinTest => counterOf d.store = 0 :=
      Frame.of_store fun st v hc => (counterOf_update_of_ne st (by decide) v).trans hc
    refine Keeps.bind (fun d hc => ?_) fun _ => hframe.keychainClearNetworkTypeRestriction
    have hput : counterOf (Function.update d.store .blob none) = 0 :=
      (counterOf_update_of_ne _ (by decide) _).trans hc
    exact (sat_commit _ _).2 ⟨fun _ => hput, fun _ => hc, fun _ => hc, fun _ => hput⟩
  have hrest : ∀ d : Dev NvsKey Ram PinTest, counterOf d.store = 0 →
      Sat (do
          let _ ← erase NvsKey.blob
          keychainClearNetworkTypeRestriction
          modifyRam fun r => { r with hasEncryptedBlob := false } : KeychainM PUnit)
        (fun _ => FlagInv) (fun _ => Sound) d := by
    intro d hc
    have h := hzero' d hc
    simp only [sat_bind] at h ⊢
    refine h.mono (fun _ d₁ h₁ => h₁.mono (fun _ d₂ hc₂ => ?_) fun _ _ hc₂ =>
      flashSound_of_zero hc₂) fun _ _ hc₁ => flashSound_of_zero hc₁
    rw [sat_modifyRam]
    exact ⟨flashSound_of_zero hc₂, by simp [hc₂]⟩
  simp only [keychainEraseEncrypted, storageEraseEncryptedBlob, sat_bind] at hrest ⊢
  have herased := flashSound_erase_counter d.store
  refine (sat_commit _ _).2 ⟨fun _ => hrest _ (by simp [Dev.put]), fun h => ?_, fun _ => hd,
    fun _ => herased⟩
  exact hrest _ (hzero h)

/-- **One attempt keeps the flag in order**, and a successful one leaves it set. -/
theorem sat_keychainLoadAndDecryptBlob_flag (P : Prims) (aeskey : Bytes)
    {d : Dev NvsKey Ram PinTest} (hd : FlagInv d)
    (hsafe : aeskey.length = AES_KEY_LEN_256 → d.ram.hasEncryptedBlob = true →
      AttemptSound P aeskey d d.fates) :
    Sat (keychainLoadAndDecryptBlob P aeskey (aesPaddedLen SERIALIZED_KEY_LEN))
      (fun r d' => FlagInv d' ∧ (r.isSome → HasWallet d')) (fun _ => Sound) d := by
  simp only [keychainLoadAndDecryptBlob, keychainHasPin, sat_ite, sat_bind, sat_getRam, sat_pure]
  refine ⟨fun _ => ⟨hd, by simp⟩, fun hkey => ⟨fun _ => ⟨hd, by simp⟩, fun hflag => ?_⟩⟩
  have hflag' : d.ram.hasEncryptedBlob = true := by simpa using hflag
  obtain ⟨hpays, hafter⟩ := hsafe (not_not.1 fun hlen => hkey (.inl hlen)) hflag'
  have hwallet := hd.hasWallet hflag'
  have hc := hd.2.1 hflag'
  refine (sat_storageDecrementCounter_paid hwallet hc hpays).mono ?_ (fun _ _ h => h)
  rintro ok d₁ ⟨rfl, hdone, hwallet₁, hfates, hblob₁, hcount⟩
  simp only [Bool.not_true, Bool.false_eq_true, false_implies, true_and, not_false_eq_true,
    true_implies]
  rw [sat_storageGetEncryptedBlob (by decide), fitting, hblob₁, ← fitting]
  -- what the next commit may do depends on what is read
  have hfate₁ : d₁.fate = d.fates.tail.headD .done := by rw [Dev.fate, hfates]
  have hlast : counterOf d.store = 1 ↔ counterOf d₁.store = 0 := by
    rw [← hcount]
    constructor
    · intro h
      simpa using h
    · intro h
      rw [h]
      rfl
  cases hread : fitting d.store .blob (encryptedDataLen SERIALIZED_KEY_LEN) with
  | none =>
      have hzero : d₁.fate = .refused → counterOf d₁.store = 0 := by
        intro hrefused
        have h := hafter hdone (hfate₁ ▸ hrefused)
        rw [hread] at h
        exact hlast.1 (by simpa [settled] using h)
      refine (sat_eraseUnreadable hwallet₁.sound hzero).mono ?_ (fun _ _ h => h)
      rintro r d₂ ⟨hd₂, rfl⟩
      exact ⟨hd₂, by simp⟩
  | some encrypted =>
      refine (sat_bind _ _).2 ?_
      refine (sat_getDecryptedPayload_opens P aeskey encrypted _ d₁).mono ?_ ?_
      · rintro r d₂ ⟨hstore, hram, hfates₂, hopens⟩
        have hwallet₂ : HasWallet d₂ :=
          ⟨by rw [hram]; exact hwallet₁.flag, by rw [hstore]; exact hwallet₁.blob,
            by rw [hstore]; exact hwallet₁.bound⟩
        cases r with
        | none =>
            simp only [keychainPinAttemptsRemaining, sat_bind, sat_storageGetCounter, sat_ite,
              sat_pure]
            refine ⟨fun hzero => ?_, fun hne => ⟨hwallet₂.flagInv hne, by simp⟩⟩
            exact (sat_keychainEraseEncrypted_flag hwallet₂.sound fun _ => hzero).mono
              (fun _ _ h => ⟨h, by simp⟩) (fun _ _ h => h)
        | some payload =>
            have hput : Sound ({ d₂ with fates := d₂.fates.tail }.put .counter (some [3])) :=
              FlashSound.put_counter hwallet₂.blob (by decide)
            have hrestored : HasWallet ({ d₂ with fates := d₂.fates.tail }.put .counter
                (some [3])) :=
              ⟨hwallet₂.flag, by simpa [Dev.put] using hwallet₂.blob, by simp [Dev.put]⟩
            simp only [storageRestoreCounter, sat_bind, sat_storeBlob, write, sat_commit, sat_pure]
            refine ⟨fun _ => ⟨hrestored.flagInv (by simp [Dev.put]), fun _ => hrestored⟩,
              fun hrefused => ?_, fun _ => hwallet₂.sound, fun _ => hput⟩
            -- the restore is refused: this was not the last attempt
            have hne : counterOf d₂.store ≠ 0 := by
              intro hzero
              have h := hafter hdone (by rw [← hfate₁, ← hrefused, Dev.fate, Dev.fate, hfates₂])
              have hone := hlast.2 (by rw [← hstore]; exact hzero)
              simp [hread, settled, hone, hopens rfl] at h
            exact ⟨⟨hwallet₂.sound, iff_of_true hwallet₂.flag hne⟩, fun _ =>
              ⟨hwallet₂.flag, hwallet₂.blob, hwallet₂.bound⟩⟩
      · intro _ d₂ hstore
        have hsound := hwallet₁.sound
        rw [Sound] at hsound ⊢
        rw [hstore]
        exact hsound

/-! ### Replacing the blob -/

/-- Replacing the blob of a wallet that is there keeps it there, whatever the flash does. -/
theorem sat_storageSetEncryptedBlob_wallet {encrypted : Bytes} (hne : encrypted ≠ [])
    {d : Dev NvsKey Ram PinTest} (hd : FlagInv d) (h : HasWallet d) :
    Sat (storageSetEncryptedBlob encrypted)
      (fun ok d' => FlagInv d' ∧ (ok = true → counterOf d'.store = 3 ∧ (d'.store .blob).isSome))
      (fun _ => Sound) d := by
  have hlen : (decide (0 < encrypted.length)) = true := by simpa [List.length_pos_iff] using hne
  have hput : Sound ({ d with fates := d.fates.tail }.put .counter (some [3])) :=
    FlashSound.put_counter h.blob (by decide)
  have hthree : counterOf (Function.update d.store .counter (some [3])) = 3 := by simp
  have hblob : FlashSound (Function.update (Function.update d.store .counter (some [3])) .blob
      (some encrypted)) := FlashSound.put_blob (by rw [hthree]; decide) encrypted
  have hfour : counterOf (Function.update (Function.update d.store .counter (some [3])) .blob
      (some encrypted)) = 3 := by rw [counterOf_update_of_ne _ (by decide), hthree]
  simp only [storageSetEncryptedBlob, storageRestoreCounter, sat_bind, sat_storeBlob, write,
    sat_commit]
  refine ⟨fun _ => ?_, fun _ => (sat_pure _).2 ⟨hd, by simp⟩, fun _ => h.sound, fun _ => hput⟩
  simp only [if_true, storeBlob, write, sat_bind, sat_assert, hlen, true_implies,
    Bool.true_eq_false, Bool.false_eq_true, false_implies, and_true, sat_commit]
  refine ⟨fun _ => ⟨⟨hblob, iff_of_true h.flag ?_⟩, hfour, by simp [Dev.put]⟩,
    fun _ => ⟨hput, iff_of_true h.flag ?_⟩, fun _ => hput, fun _ => hblob⟩
  · simp only [Dev.put]
    rw [hfour]
    decide
  · simp only [Dev.put]
    rw [hthree]
    decide

/-- Storing a first blob, when the two commits are not torn apart. -/
theorem sat_storageSetEncryptedBlob_first {encrypted : Bytes} (hne : encrypted ≠ [])
    {d : Dev NvsKey Ram PinTest} (hd : FlagInv d) (htorn : TornStore d.fates = false) :
    Sat (storageSetEncryptedBlob encrypted)
      (fun ok d' => (ok = true → counterOf d'.store = 3 ∧ (d'.store .blob).isSome) ∧
        (ok = false → FlagInv d'))
      (fun _ => Sound) d := by
  have hlen : (decide (0 < encrypted.length)) = true := by simpa [List.length_pos_iff] using hne
  have hthree : counterOf (Function.update d.store .counter (some [3])) = 3 := by simp
  have hblob : FlashSound (Function.update (Function.update d.store .counter (some [3])) .blob
      (some encrypted)) := FlashSound.put_blob (by rw [hthree]; decide) encrypted
  have hfour : counterOf (Function.update (Function.update d.store .counter (some [3])) .blob
      (some encrypted)) = 3 := by rw [counterOf_update_of_ne _ (by decide), hthree]
  simp only [storageSetEncryptedBlob, storageRestoreCounter, sat_bind, sat_storeBlob, write,
    sat_commit]
  refine ⟨fun h₁ => ?_, fun _ => (sat_pure _).2 ⟨by simp, fun _ => hd⟩, fun _ => hd.sound,
    fun h₁ => ?_⟩
  · simp only [if_true, storeBlob, write, sat_bind, sat_assert, hlen, true_implies,
      Bool.true_eq_false, Bool.false_eq_true, false_implies, and_true, true_and, sat_commit]
    have h₁' : d.fates.headD .done = .done := h₁
    refine ⟨fun _ => ⟨hfour, by simp [Dev.put]⟩, fun h₂ => ?_, fun h₂ => ?_, fun _ => hblob⟩
    all_goals
      simp only [Dev.fate, Dev.put] at h₂
      simp only [TornStore, h₁', h₂] at htorn
      exact absurd htorn (by decide)
  · have h₁' : d.fates.headD .done = .cutAfter := h₁
    simp only [TornStore, h₁', decide_true, Bool.true_or, Bool.true_eq_false] at htorn

theorem sat_keychainEncryptAndSaveBlob_wallet (P : Prims) (aeskey : Bytes) (iv : Iv)
    (cleartext : Bytes) {d : Dev NvsKey Ram PinTest} (hd : FlagInv d) (h : HasWallet d) :
    Sat (keychainEncryptAndSaveBlob P aeskey iv cleartext)
      (fun ok d' => FlagInv d' ∧ (ok = true → counterOf d'.store = 3 ∧ (d'.store .blob).isSome))
      (fun _ => Sound) d := by
  simp only [keychainEncryptAndSaveBlob, sat_ite, sat_pure, sat_bind]
  refine ⟨fun _ => ⟨hd, by simp⟩, fun _ => ⟨fun _ => ⟨hd, by simp⟩, fun _ => ?_⟩⟩
  refine (sat_getEncryptedBlob P aeskey iv cleartext d).mono ?_ (fun _ _ h => h ▸ hd.sound)
  rintro encrypted _ ⟨hne, rfl⟩
  exact sat_storageSetEncryptedBlob_wallet hne hd h

/-- Saving a blob: afterwards either the flash holds it with three attempts, or nothing that
matters has changed. -/
theorem sat_keychainEncryptAndSaveBlob_flag (P : Prims) (aeskey : Bytes) (iv : Iv)
    (cleartext : Bytes) {d : Dev NvsKey Ram PinTest} (hd : FlagInv d)
    (hsafe : TornStore d.fates = true → d.ram.hasEncryptedBlob = true) :
    Sat (keychainEncryptAndSaveBlob P aeskey iv cleartext)
      (fun ok d' => (ok = true → counterOf d'.store = 3 ∧ (d'.store .blob).isSome) ∧
        (ok = false → FlagInv d')) (fun _ => Sound) d := by
  by_cases hflag : d.ram.hasEncryptedBlob = true
  · exact (sat_keychainEncryptAndSaveBlob_wallet P aeskey iv cleartext hd (hd.hasWallet hflag)).mono
      (fun _ _ h => ⟨h.2, fun _ => h.1⟩) (fun _ _ h => h)
  · have htorn : TornStore d.fates = false := Bool.eq_false_iff.2 fun h => hflag (hsafe h)
    simp only [keychainEncryptAndSaveBlob, sat_ite, sat_pure, sat_bind]
    refine ⟨fun _ => ⟨by simp, fun _ => hd⟩, fun _ => ⟨fun _ => ⟨by simp, fun _ => hd⟩, fun _ => ?_⟩⟩
    refine (sat_getEncryptedBlob P aeskey iv cleartext d).mono ?_ (fun _ _ h => h ▸ hd.sound)
    rintro encrypted _ ⟨hne, rfl⟩
    exact sat_storageSetEncryptedBlob_first hne hd htorn

/-! ### The operations -/

theorem sat_keychainStore_flag (P : Prims) (aeskey : Bytes) (iv : Iv) {d : Dev NvsKey Ram PinTest}
    (hd : FlagInv d) (hsafe : TornStore d.fates = true → d.ram.hasEncryptedBlob = true) :
    Sat (keychainStore P aeskey iv) (fun _ => FlagInv) (fun _ => Sound) d := by
  -- while the restriction is cleared the flag may lag behind, but the flash has the wallet
  have hstored : Keeps (fun d : Dev NvsKey Ram PinTest =>
      counterOf d.store = 3 ∧ (d.store .blob).isSome) keychainClearNetworkTypeRestriction := by
    refine (Frame.of_store (J := fun st => counterOf st = 3 ∧ (st .blob).isSome)
      fun st v h => ?_).keychainClearNetworkTypeRestriction
    rw [counterOf_update_of_ne _ (by decide), Function.update_of_ne (by decide)]
    exact h
  have hsound : ∀ {d : Dev NvsKey Ram PinTest},
      counterOf d.store = 3 ∧ (d.store .blob).isSome → Sound d := by
    intro d h _
    exact ⟨by rw [h.1]; decide, h.2⟩
  have hsave : ∀ cleartext, Sat (do
      if ← keychainEncryptAndSaveBlob P aeskey iv cleartext then
        keychainClearNetworkTypeRestriction
        modifyRam fun r => { r with hasEncryptedBlob := true }
        return true
      else
        return false) (fun _ => FlagInv) (fun _ => Sound) d := by
    intro cleartext
    rw [sat_bind]
    refine (sat_keychainEncryptAndSaveBlob_flag P aeskey iv cleartext hd hsafe).mono ?_
      (fun _ _ h => h)
    rintro saved d₁ ⟨hok, hfail⟩
    cases saved with
    | false => simpa using hfail rfl
    | true =>
        simp only [if_true, sat_bind, sat_modifyRam, sat_pure]
        refine (hstored d₁ (hok rfl)).mono ?_ (fun _ _ h => hsound h)
        rintro _ d₂ h₂
        exact ⟨hsound h₂, iff_of_true rfl (by rw [h₂.1]; decide)⟩
  simp only [keychainStore, sat_ite, sat_pure, sat_bind, sat_getRam, sat_assert] at hsave ⊢
  refine ⟨fun _ => hd, fun _ => ⟨fun _ => hd, fun _ => ⟨fun _ => ⟨fun _ => hsave _,
    fun _ => hd.sound⟩, fun _ => ?_⟩⟩⟩
  cases d.ram.keychainData with
  | none =>
      simp only [sat_bind, sat_throw]
      exact hd.sound
  | some keydata =>
      refine (sat_bind _ _).2 ?_
      refine (keeps_serialize P keydata d rfl : Sat _ (fun _ d' => d' = d)
        (fun _ d' => d' = d) d).mono ?_ (fun _ _ h => h ▸ hd.sound)
      rintro cleartext _ rfl
      simpa only [sat_bind, sat_ite, sat_pure] using hsave cleartext

theorem sat_keychainLoad_flag (P : Prims) (aeskey : Bytes) {d : Dev NvsKey Ram PinTest}
    (hd : FlagInv d)
    (hsafe : aeskey.length = AES_KEY_LEN_256 → d.ram.keychainData = none →
      d.ram.mnemonicEntropy = [] → d.ram.hasEncryptedBlob = true →
      AttemptSound P aeskey d d.fates) :
    Sat (keychainLoad P aeskey) (fun _ => FlagInv) (fun _ => Sound) d := by
  simp only [keychainLoad, keychainHasPin, sat_ite, sat_pure, sat_bind, sat_getRam]
  refine ⟨fun _ => hd, fun hkey => ⟨fun _ => hd, fun hloaded => ⟨fun _ => hd, fun _ => ?_⟩⟩⟩
  simp only [Bool.or_eq_true, decide_eq_true_eq, not_or, Option.not_isSome_iff_eq_none,
    not_not] at hloaded
  refine (sat_keychainLoadAndDecryptBlob_flag P aeskey hd
    fun hlen hflag => hsafe hlen hloaded.1 hloaded.2 hflag).mono ?_ (fun _ _ h => h)
  rintro r d₁ ⟨hd₁, -⟩
  cases r with
  | none => exact (sat_pure _).2 hd₁
  | some serialized =>
      refine sat_of_keeps_flag ?_ hd₁
      exact Keeps.ite (Keeps.bind (keeps_flag_modifyRam fun _ => rfl) fun _ => Keeps.pure _)
        (Keeps.ite (Keeps.bind (keeps_unserialize P _) fun _ =>
          Keeps.bind (frame_flagInv.keychainSet _ _ _) fun _ => Keeps.pure _) (Keeps.pure _))

theorem sat_keychainReencrypt_flag (P : Prims) (currAeskey newAeskey : Bytes) (iv : Iv)
    {d : Dev NvsKey Ram PinTest} (hd : FlagInv d)
    (hsafe : currAeskey.length = AES_KEY_LEN_256 → newAeskey.length = AES_KEY_LEN_256 →
      d.ram.hasEncryptedBlob = true → AttemptSound P currAeskey d d.fates) :
    Sat (keychainReencrypt P currAeskey newAeskey iv) (fun _ => FlagInv) (fun _ => Sound) d := by
  simp only [keychainReencrypt, keychainHasPin, sat_ite, sat_pure, sat_bind, sat_getRam]
  refine ⟨fun _ => hd, fun hkeys => ⟨fun _ => hd, fun _ => ?_⟩⟩
  simp only [not_or, not_not] at hkeys
  refine (sat_keychainLoadAndDecryptBlob_flag P currAeskey hd
    fun _ hflag => hsafe hkeys.1 hkeys.2 hflag).mono ?_ (fun _ _ h => h)
  rintro r d₁ ⟨hd₁, hwallet⟩
  cases r with
  | none => exact (sat_pure _).2 hd₁
  | some serialized =>
      exact (sat_keychainEncryptAndSaveBlob_wallet P newAeskey iv serialized hd₁
        (hwallet rfl)).mono (fun _ _ h => h.1) (fun _ _ h => h)

/-! ### Runs of the device -/

/-- The assertions of `get_pin_get_aeskey`, which runs when the flag is set; it returns the attempts
the user is told about. -/
def getPinGetAeskey : KeychainM UInt8 := do
  assert (← keychainHasPin)
  let pinAttemptsRemaining ← keychainPinAttemptsRemaining
  assert (pinAttemptsRemaining > 0)
  return pinAttemptsRemaining

theorem FlagInv.getPinGetAeskey {d : Dev NvsKey Ram PinTest} (h : FlagInv d)
    (hflag : d.ram.hasEncryptedBlob = true) :
    Sat getPinGetAeskey (fun n _ => n = counterOf d.store) (fun _ _ => False) d := by
  have hpos : counterOf d.store > 0 := UInt8.pos_iff_ne_zero.2 (h.2.1 hflag)
  simp only [Jade.getPinGetAeskey, keychainHasPin, keychainPinAttemptsRemaining, sat_bind,
    sat_getRam, sat_pure, sat_assert, sat_storageGetCounter, hflag, hpos, decide_true]
  simp

/-- **The requests that keep the flag in order.**  A first wallet is not left with a counter and no
blob, an attempt is sound, and the flash does not refuse to erase a counter. -/
def FlagSafe (P : Prims) (d : Dev NvsKey Ram PinTest) (r : Request) : Prop :=
  match r.op with
  | .store aeskey _ =>
      aeskey.length = AES_KEY_LEN_256 →
        (d.ram.keychainData.isSome ∨ d.ram.mnemonicEntropy ≠ []) →
        TornStore r.fates = true → d.ram.hasEncryptedBlob = true
  | .load aeskey =>
      aeskey.length = AES_KEY_LEN_256 → d.ram.keychainData = none → d.ram.mnemonicEntropy = [] →
        d.ram.hasEncryptedBlob = true → AttemptSound P aeskey d r.fates
  | .reencrypt currAeskey newAeskey _ =>
      currAeskey.length = AES_KEY_LEN_256 → newAeskey.length = AES_KEY_LEN_256 →
        d.ram.hasEncryptedBlob = true → AttemptSound P currAeskey d r.fates
  | .eraseEncrypted => r.fates.headD .done = .refused → counterOf d.store = 0
  | _ => True

instance (P : Prims) (d : Dev NvsKey Ram PinTest) : ∀ r, Decidable (FlagSafe P d r)
  | ⟨.store .., _⟩ => inferInstanceAs (Decidable (_ → _ → _ → _))
  | ⟨.load _, _⟩ => inferInstanceAs (Decidable (_ → _ → _ → _ → _))
  | ⟨.reencrypt .., _⟩ => inferInstanceAs (Decidable (_ → _ → _ → _))
  | ⟨.eraseEncrypted, _⟩ => inferInstanceAs (Decidable (_ → _))
  | ⟨.reboot, _⟩ | ⟨.set .., _⟩ | ⟨.clear, _⟩ | ⟨.setTemporary, _⟩ | ⟨.cacheMnemonicEntropy _, _⟩
  | ⟨.setNetworkTypeRestriction _, _⟩ => isTrue trivial

/-- **One safe step keeps the invariant.** -/
theorem step_flagInv (P : Prims) (d : Dev NvsKey Ram PinTest) (r : Request) (hd : FlagInv d)
    (hr : FlagSafe P d r) : FlagInv (step P d r) := by
  refine runOp_of_sat (J := Sound) ?_ fun d' hd' =>
    (sat_keychainInitCache_flag (d := { d' with ram := Ram.init, fates := [] }) hd').mono
      (fun _ _ h => h) (fun _ _ h => h.elim)
  have hd' : FlagInv { d with fates := r.fates } := hd
  have hunit : ∀ {α : Type} {x : KeychainM α},
      Sat x (fun _ => FlagInv) (fun _ => Sound) { d with fates := r.fates } →
      Sat (discard x) (fun _ => FlagInv) (fun _ => Sound) { d with fates := r.fates } :=
    fun h => (sat_map _ _).2 h
  obtain ⟨op, fates⟩ := r
  cases op with
  | store aeskey iv =>
      refine hunit ?_
      by_cases hkey : aeskey.length = AES_KEY_LEN_256
      · by_cases hram : d.ram.keychainData.isSome ∨ d.ram.mnemonicEntropy ≠ []
        · exact sat_keychainStore_flag P aeskey iv hd' (hr hkey hram)
        · -- nothing to store: the flash is not touched
          obtain ⟨hdata, hentropy⟩ := not_or.1 hram
          rw [Option.not_isSome_iff_eq_none] at hdata
          simpa [keychainStore, sat_ite, hkey, hdata, not_not.1 hentropy] using hd'
      · simpa [keychainStore, hkey] using hd'
  | load aeskey => exact hunit (sat_keychainLoad_flag P aeskey hd' hr)
  | reencrypt currAeskey newAeskey iv =>
      exact hunit (sat_keychainReencrypt_flag P currAeskey newAeskey iv hd' hr)
  | eraseEncrypted => exact sat_keychainEraseEncrypted_flag hd'.sound hr
  | reboot => exact (sat_throw _).2 hd'.sound
  | set src userdata temporary =>
      exact sat_of_keeps_flag (frame_flagInv.keychainSet src userdata temporary) hd'
  | clear => exact sat_of_keeps_flag frame_flagInv.keychainClear hd'
  | setTemporary => exact sat_of_keeps_flag frame_flagInv.keychainSetTemporary hd'
  | cacheMnemonicEntropy mnemonic =>
      exact sat_of_keeps_flag (frame_flagInv.keychainCacheMnemonicEntropy P mnemonic) hd'
  | setNetworkTypeRestriction networkType =>
      exact sat_of_keeps_flag (frame_flagInv.keychainSetNetworkTypeRestriction networkType) hd'

theorem powerOn_flagInv {st : Store NvsKey} (hst : FlashSound st) : FlagInv (powerOn st) :=
  restart_of_sat ((sat_keychainInitCache_flag
    (d := { store := st, ram := Ram.init, fates := [], log := [] }) hst).mono
    (fun _ _ h => h) (fun _ _ h => h.elim))

/-- **The flag agrees with the flash along every safe run**: it is set exactly when there is an
encrypted blob with one to three attempts left, and asking for the PIN when it is set never runs
into an assertion. -/
theorem hasPin_run (P : Prims) {st : Store NvsKey} (hst : FlashSound st) (rs : List Request)
    (h : AllSteps (step P) (FlagSafe P) (powerOn st) rs) :
    ((run (step P) (powerOn st) rs).ram.hasEncryptedBlob = true ↔
      ((run (step P) (powerOn st) rs).store .blob).isSome ∧
        1 ≤ counterOf (run (step P) (powerOn st) rs).store ∧
        counterOf (run (step P) (powerOn st) rs).store ≤ 3) ∧
    ((run (step P) (powerOn st) rs).ram.hasEncryptedBlob = true →
      ∀ e d', getPinGetAeskey.run (run (step P) (powerOn st) rs) ≠ .error e d') := by
  have hinv : FlagInv (run (step P) (powerOn st) rs) :=
    run_induction (I := FlagInv) (fun d r => step_flagInv P d r) (powerOn_flagInv hst) h
  exact ⟨hinv.iff, fun hflag e d' hrun => (hinv.getPinGetAeskey hflag).error hrun⟩

theorem flashSound_empty : FlashSound fun _ => none := flashSound_of_zero rfl

/-- A wallet is set up and tested with a wrong key, and the third wrong test meets a flash that
refuses to erase anything. -/
def stubbornErase : List Request :=
  [⟨.cacheMnemonicEntropy [1], []⟩, ⟨.store (toyKey 1) toyIv, []⟩, ⟨.reboot, []⟩,
    ⟨.load (toyKey 9), []⟩, ⟨.load (toyKey 9), [.done, .cutAfter]⟩,
    ⟨.load (toyKey 9), [.done, .refused, .refused]⟩, ⟨.reboot, []⟩]

theorem hasPin_stubbornErase :
    let d := run (step toyPrims) (powerOn fun _ => none) stubbornErase
    d.ram.hasEncryptedBlob = true ↔
      (d.store .blob).isSome ∧ 1 ≤ counterOf d.store ∧ counterOf d.store ≤ 3 := by
  exact (hasPin_run toyPrims flashSound_empty stubbornErase (by decide +kernel)).1

/-- A wallet is set up, and the flash refuses to pay for the first attempt. -/
def refusedDecrement : List Request :=
  [⟨.cacheMnemonicEntropy [1], []⟩, ⟨.store (toyKey 1) toyIv, []⟩, ⟨.reboot, []⟩,
    ⟨.load (toyKey 1), [.refused]⟩]

/-- **A refused decrement leaves the flag set over an empty flash**, and the next request for a PIN
runs into the assertion. -/
theorem hasPin_fails_on_refused_decrement :
    let d := run (step toyPrims) (powerOn fun _ => none) refusedDecrement
    d.ram.hasEncryptedBlob = true ∧ d.store .blob = none ∧ counterOf d.store = 0 ∧
      ∃ d', getPinGetAeskey.run d = .error .assert d' := by
  refine ⟨by decide +kernel, by decide +kernel, by decide +kernel, ?_⟩
  have hstop : (match getPinGetAeskey.run (run (step toyPrims) (powerOn fun _ => none)
      refusedDecrement) with
      | .error .assert _ => true
      | _ => false) = true := by decide +kernel
  cases hrun : getPinGetAeskey.run (run (step toyPrims) (powerOn fun _ => none)
      refusedDecrement) with
  | ok n d' => simp [hrun] at hstop
  | error e d' =>
      cases e with
      | power => simp [hrun] at hstop
      | assert => exact ⟨d', rfl⟩

end Jade
