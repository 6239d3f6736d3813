/-
**How often an encrypted wallet can be tested against a wrong PIN.**

Guessing the PIN is guessing the key of the encrypted wallet, and the device allows three wrong
guesses.  The counter that enforces this and the wallet it protects are separate records of the
flash, and the power may be lost between any two commits, so the bound is a property of runs: it is
an invariant relating the counter in flash to the wrong guesses made so far.

The invariant is `Jade.PinInv`: whenever the flash holds a blob, the wrong tests of that blob since
its last success and the attempts the counter still allows add up to at most three.  Every
operation keeps it, but for one: `keychain_store` restores the counter in a commit of its own, and
when it is stopped between that commit and the one that replaces the blob, the *old* blob is left
with three fresh attempts.

Main definitions:

* `Jade.wrongSince` — wrong tests of a blob since it was stored or successfully decrypted;
* `Jade.PinBound` — every test of a blob finds fewer than three wrong tests behind it;
* `Jade.Op`, `Jade.Request`, `Jade.step` — the operations, an operation with its schedule, and
  the device as a machine;
* `Jade.TornStore`, `Jade.Admissible` — the schedules that stop a store between its two commits,
  and the requests that do not put a guessed blob back to three attempts.

Main results:

* `Jade.sat_keychainLoadAndDecryptBlob` — one attempt is paid for before it is made;
* `Jade.step_pinInv` — **one admissible step keeps the invariant**;
* `Jade.pinBound_run` — **the bound holds along every admissible run**;
* `Jade.pinBound_fails_on_torn_store` — a torn store breaks it.
-/

import Jade.Keychain.Keychain
import Jade.Lib.Run

set_option relaxedAutoImplicit false
set_option autoImplicit false

namespace Jade

open Exec Flash Run

/-! ### Counting wrong tests -/

abbrev PinLog : Type := List (Entry NvsKey PinTest)

/-- Storing a blob and decrypting it start a new count; a wrong test adds one. -/
def wrongStep (b : Bytes) (n : ℕ) : Entry NvsKey PinTest → ℕ
  | .wrote .blob (some b') => if b' = b then 0 else n
  | .event ⟨b', ok⟩ => if b' = b then (if ok then 0 else n + 1) else n
  | _ => n

/-- The wrong tests of the blob `b` since it was last stored or successfully decrypted. -/
def wrongSince (b : Bytes) (log : PinLog) : ℕ := log.foldl (wrongStep b) 0

@[simp] theorem wrongSince_append (b : Bytes) (log : PinLog) (e : Entry NvsKey PinTest) :
    wrongSince b (log ++ [e]) = wrongStep b (wrongSince b log) e := by simp [wrongSince]

/-- A blob that is tested, with whatever outcome, has fewer than three wrong tests behind it.  So
at most three wrong keys are tried between two successes, and after three none at all. -/
def PinBound (log : PinLog) : Prop :=
  ∀ pre b ok post, log = pre ++ .event ⟨b, ok⟩ :: post → wrongSince b pre < 3

theorem pinBound_nil : PinBound [] := by
  intro pre b ok post h
  simp at h

theorem pinBound_append_wrote {log : PinLog} (h : PinBound log) (k : NvsKey) (v : Option Bytes) :
    PinBound (log ++ [.wrote k v]) := by
  intro pre b ok post heq
  rcases append_singleton_eq heq with ⟨_, he, _⟩ | ⟨post', _, hlog⟩
  · cases he
  · exact h pre b ok post' hlog

theorem pinBound_append_event {log : PinLog} (h : PinBound log) {b : Bytes}
    (hb : wrongSince b log < 3) (ok : Bool) : PinBound (log ++ [.event ⟨b, ok⟩]) := by
  intro pre b' ok' post heq
  rcases append_singleton_eq heq with ⟨rfl, he, _⟩ | ⟨post', _, hlog⟩
  · cases he
    exact hb
  · exact h pre b' ok' post' hlog

/-! ### The invariant -/

/-- The attempts the flash still allows: `storage_decrement_counter` refuses a counter above
three. -/
def attemptsLeft (st : Store NvsKey) : ℕ :=
  if counterOf st ≤ 3 then (counterOf st).toNat else 0

theorem attemptsLeft_le (st : Store NvsKey) : attemptsLeft st ≤ 3 := by
  unfold attemptsLeft
  split
  · next h => simpa using UInt8.le_iff_toNat_le.1 h
  · omega

/-- The bound holds so far, and the attempts left keep it. -/
def PinInv (st : Store NvsKey) (log : PinLog) : Prop :=
  PinBound log ∧ ∀ b, st .blob = some b → wrongSince b log + attemptsLeft st ≤ 3

/-- An attempt is paid for: one more wrong test keeps the invariant. -/
def PinPaid (st : Store NvsKey) (log : PinLog) : Prop :=
  PinBound log ∧ ∀ b, st .blob = some b → wrongSince b log + attemptsLeft st < 3

/-- No wrong test of the blob in flash is outstanding. -/
def PinClear (st : Store NvsKey) (log : PinLog) : Prop :=
  PinBound log ∧ ∀ b, st .blob = some b → wrongSince b log = 0

theorem PinPaid.inv {st : Store NvsKey} {log : PinLog} (h : PinPaid st log) : PinInv st log :=
  ⟨h.1, fun b hb => (h.2 b hb).le⟩

theorem PinClear.inv {st : Store NvsKey} {log : PinLog} (h : PinClear st log) : PinInv st log :=
  ⟨h.1, fun b hb => by rw [h.2 b hb]; simpa using attemptsLeft_le st⟩

/-- A commit to any other record leaves the invariant alone. -/
theorem PinInv.update_of_ne {st : Store NvsKey} {log : PinLog} (h : PinInv st log) {k : NvsKey}
    (hc : k ≠ .counter) (hb : k ≠ .blob) (v : Option Bytes) :
    PinInv (Function.update st k v) (log ++ [.wrote k v]) := by
  refine ⟨pinBound_append_wrote h.1 k v, ?_⟩
  intro b hblob
  rw [Function.update_of_ne hb.symm] at hblob
  have hw : wrongStep b (wrongSince b log) (.wrote k v) = wrongSince b log := by
    cases k <;> first | rfl | exact absurd rfl hb
  rw [wrongSince_append, hw, attemptsLeft, counterOf_update_of_ne st hc]
  exact h.2 b hblob

/-- Lowering the counter, or removing it, keeps the invariant. -/
theorem PinInv.update_counter {st : Store NvsKey} {log : PinLog} (h : PinInv st log)
    {v : Option Bytes}
    (hv : attemptsLeft (Function.update st .counter v) ≤ attemptsLeft st) :
    PinInv (Function.update st .counter v) (log ++ [.wrote .counter v]) := by
  refine ⟨pinBound_append_wrote h.1 _ v, ?_⟩
  intro b hblob
  rw [Function.update_of_ne (by decide)] at hblob
  have := h.2 b hblob
  simp only [wrongSince_append, wrongStep]
  omega

/-- Whatever the counter becomes, a blob without outstanding wrong tests stays without. -/
theorem PinClear.update_counter {st : Store NvsKey} {log : PinLog} (h : PinClear st log)
    (v : Option Bytes) : PinClear (Function.update st .counter v) (log ++ [.wrote .counter v]) := by
  refine ⟨pinBound_append_wrote h.1 _ v, ?_⟩
  intro b hblob
  rw [Function.update_of_ne (by decide)] at hblob
  simpa [wrongStep] using h.2 b hblob

/-- A blob that has just been stored has no wrong test behind it. -/
theorem PinBound.update_blob {log : PinLog} (h : PinBound log) (st : Store NvsKey)
    (v : Option Bytes) : PinClear (Function.update st .blob v) (log ++ [.wrote .blob v]) := by
  refine ⟨pinBound_append_wrote h _ v, ?_⟩
  intro b hblob
  rw [Function.update_self] at hblob
  subst hblob
  simp [wrongStep]

/-! ### The functions of the storage -/

/-- `PinInv`, read as a predicate of the device. -/
abbrev Inv : Dev NvsKey Ram PinTest → Prop := Stable PinInv

theorem keeps_storageEraseEncryptedBlob : Keeps Inv storageEraseEncryptedBlob := by
  refine Keeps.bind (keeps_commit ?_) fun _ => keeps_commit ?_
  · intro st log h
    exact h.update_counter (by simp [attemptsLeft])
  · intro st log h
    exact (h.1.update_blob st none).inv

/-- **An attempt is paid for before it is made.** -/
theorem sat_storageDecrementCounter {d : Dev NvsKey Ram PinTest} (hd : Inv d) :
    Sat storageDecrementCounter (fun ok => if ok then Stable PinPaid else Inv) (fun _ => Inv) d := by
  have herase : ∀ d : Dev NvsKey Ram PinTest, Inv d →
      Sat (storageEraseEncryptedBlob >>= fun _ => pure false)
        (fun ok => if ok then Stable PinPaid else Inv) (fun _ => Inv) d := by
    intro d hd
    rw [sat_bind]
    exact (keeps_storageEraseEncryptedBlob d hd).mono (fun _ _ h => by simpa using h)
      (fun _ _ h => h)
  simp only [storageDecrementCounter, sat_bind, sat_storageGetCounter, sat_ite, sat_storeBlob, write]
  refine ⟨fun _ => (sat_bind _ _).1 (herase d hd), ?_⟩
  intro hc
  obtain ⟨hpos, hle⟩ : 0 < (counterOf d.store).toNat ∧ (counterOf d.store).toNat ≤ 3 := by
    simp only [not_or, gt_iff_lt, UInt8.lt_iff_toNat_lt, ← UInt8.toNat_inj] at hc
    simp only [UInt8.reduceToNat] at hc
    omega
  -- the new counter is one less, and the old one was within bounds
  have hsub : (counterOf d.store - 1).toNat = (counterOf d.store).toNat - 1 :=
    UInt8.toNat_sub_of_le _ _ (UInt8.le_iff_toNat_le.2 hpos)
  have hleft : attemptsLeft (Function.update d.store .counter (some [counterOf d.store - 1])) + 1 =
      attemptsLeft d.store := by
    simp only [attemptsLeft, counterOf_update_counter, UInt8.le_iff_toNat_le, hsub,
      UInt8.reduceToNat]
    rw [if_pos (by omega), if_pos hle]
    omega
  have hpaid : PinPaid (Function.update d.store .counter (some [counterOf d.store - 1]))
      (d.log ++ [.wrote .counter (some [counterOf d.store - 1])]) := by
    refine ⟨pinBound_append_wrote hd.1 _ _, ?_⟩
    intro b hblob
    rw [Function.update_of_ne (by decide)] at hblob
    have := hd.2 b hblob
    simp only [wrongSince_append, wrongStep]
    omega
  rw [sat_commit]
  refine ⟨fun _ => by simpa [Stable, Dev.put] using hpaid, fun _ => ?_, fun _ => hd, fun _ => hpaid.inv⟩
  simpa [sat_ite] using herase { d with fates := d.fates.tail } hd

/-! ### The functions of the keychain -/

theorem frame_inv : Frame Inv where
  commit _ := keeps_commit fun _ _ h => h.update_of_ne (by decide) (by decide) _
  modifyRam _ _ := keeps_modifyRam _

theorem keeps_keychainEraseEncrypted : Keeps Inv keychainEraseEncrypted :=
  Keeps.bind keeps_storageEraseEncryptedBlob fun _ =>
    Keeps.bind frame_inv.keychainClearNetworkTypeRestriction fun _ => keeps_modifyRam _

/-- Decrypting a byte string touches nothing. -/
theorem keeps_aesDecryptBytes {I : Dev NvsKey Ram PinTest → Prop} (P : Prims)
    (aeskey bytes : Bytes) (outputLen : ℕ) : Keeps I (aesDecryptBytes P aeskey bytes outputLen) := by
  refine Keeps.bind (keeps_assert _) fun _ => Keeps.bind (keeps_assert _) fun _ => ?_
  refine Keeps.bind (keeps_assert _) fun _ => Keeps.bind (keeps_assert _) fun _ => ?_
  refine Keeps.bind (keeps_assert _) fun _ => ?_
  cases P.aesCbcDecrypt aeskey (bytes.take AES_BLOCK_LEN) (bytes.drop AES_BLOCK_LEN) <;>
    exact Keeps.pure _

/-- A paid attempt keeps the bound, and a successful one clears the blob of wrong tests. -/
theorem sat_getDecryptedPayload (P : Prims) (aeskey : Bytes) {bytes : Bytes} (outputLen : ℕ)
    {d : Dev NvsKey Ram PinTest} (hd : Stable PinPaid d) (hb : d.store .blob = some bytes) :
    Sat (getDecryptedPayload P aeskey bytes outputLen)
      (fun r => if r.isSome then Stable PinClear else Inv) (fun _ => Inv) d := by
  have hlt : wrongSince bytes d.log < 3 := by
    have := hd.2 bytes hb
    omega
  have hwrong : PinInv d.store (d.log ++ [.event ⟨bytes, false⟩]) := by
    refine ⟨pinBound_append_event hd.1 hlt false, ?_⟩
    intro b hb'
    obtain rfl : bytes = b := Option.some.inj (hb.symm.trans hb')
    have := hd.2 bytes hb
    simp only [wrongSince_append, wrongStep]
    simp only [if_true, Bool.false_eq_true, if_false]
    omega
  have hright : PinClear d.store (d.log ++ [.event ⟨bytes, true⟩]) := by
    refine ⟨pinBound_append_event hd.1 hlt true, ?_⟩
    intro b hb'
    obtain rfl : bytes = b := Option.some.inj (hb.symm.trans hb')
    simp [wrongStep]
  simp only [getDecryptedPayload, sat_bind, sat_assert, sat_ite, sat_note, sat_pure]
  refine ⟨fun _ => ⟨fun _ => by simpa [Stable] using hwrong, fun _ => ?_⟩, fun _ => hd.inv⟩
  refine (keeps_aesDecryptBytes P aeskey _ outputLen d rfl : Sat _ (fun _ d' => d' = d)
    (fun _ d' => d' = d) d).mono ?_ (fun _ _ h => h ▸ hd.inv)
  rintro r _ rfl
  cases r with
  | none => simpa [Stable] using hwrong
  | some output => simpa [Stable] using hright

/-- One attempt at the PIN: the bound survives it, and a success leaves no wrong test behind. -/
theorem sat_keychainLoadAndDecryptBlob (P : Prims) (aeskey : Bytes) (blobLen : ℕ)
    {d : Dev NvsKey Ram PinTest} (hd : Inv d) :
    Sat (keychainLoadAndDecryptBlob P aeskey blobLen)
      (fun r => if r.isSome then Stable PinClear else Inv) (fun _ => Inv) d := by
  simp only [keychainLoadAndDecryptBlob, keychainHasPin, sat_ite, sat_bind, sat_getRam, sat_pure]
  refine ⟨fun _ => by simpa using hd, fun _ => ⟨fun _ => by simpa using hd, fun _ => ?_⟩⟩
  refine (sat_storageDecrementCounter hd).mono ?_ (fun _ _ h => h)
  intro ok d₁ hd₁
  cases ok with
  | false => simpa using hd₁
  | true =>
      simp only [if_true] at hd₁
      simp only [Bool.not_true, Bool.false_eq_true, false_implies, true_and, not_false_eq_true,
        true_implies]
      rw [sat_storageGetEncryptedBlob (by decide)]
      -- the blob that was read is the one in flash, whose attempt is paid for
      cases hread : fitting d₁.store .blob (encryptedDataLen SERIALIZED_KEY_LEN) with
      | none =>
          refine (sat_bind _ _).2 ?_
          refine (keeps_storageEraseEncryptedBlob d₁ hd₁.inv).mono ?_ (fun _ _ h => h)
          intro _ d₂ hd₂
          simpa [Stable] using hd₂
      | some encrypted =>
          have hblob : d₁.store .blob = some encrypted := (Option.filter_eq_some_iff.1 hread).1
          refine (sat_bind _ _).2 ?_
          refine (sat_getDecryptedPayload P aeskey blobLen hd₁ hblob).mono ?_ (fun _ _ h => h)
          intro r d₂ hd₂
          cases r with
          | none =>
              simp only [keychainPinAttemptsRemaining, sat_bind, sat_storageGetCounter, sat_ite,
                sat_pure]
              refine ⟨fun _ => ?_, fun _ => by simpa using hd₂⟩
              exact (keeps_keychainEraseEncrypted d₂ (by simpa using hd₂)).mono
                (fun _ _ h => by simpa using h) (fun _ _ h => h)
          | some payload =>
              simp only [Option.isSome_some, if_true] at hd₂
              simp only [storageRestoreCounter, sat_bind, sat_storeBlob, write, sat_commit, sat_pure]
              have hd₃ := PinClear.update_counter hd₂ (some [3])
              exact ⟨fun _ => hd₃, fun _ => hd₂, fun _ => hd₂.inv, fun _ => hd₃.inv⟩

/-! ### Replacing the blob -/

/-- The schedules that stop a store after the counter was restored and before the blob was
replaced. -/
def TornStore (fates : List Fate) : Bool :=
  let restored := fates.headD .done
  let replaced := fates.tail.headD .done
  restored = .cutAfter || restored = .done && (replaced = .refused || replaced = .cutBefore)

/-- A blob that is encrypted is not empty, and encrypting it touches nothing. -/
theorem sat_getEncryptedBlob (P : Prims) (aeskey : Bytes) (iv : Iv) (bytes : Bytes)
    (d : Dev NvsKey Ram PinTest) :
    Sat (getEncryptedBlob P aeskey iv bytes) (fun r d' => r ≠ [] ∧ d' = d) (fun _ d' => d' = d)
      d := by
  simp only [getEncryptedBlob, aesEncryptBytes, sat_bind, sat_assert, sat_pure, and_true,
    implies_true]
  intro _ _ hlen hnil
  simp only [List.append_eq_nil_iff] at hnil
  rw [hnil.1.2] at hlen
  simp [aesPaddedLen, AES_BLOCK_LEN] at hlen

/-- Replacing the blob keeps the invariant, unless it is stopped between its two commits while the
old blob has wrong tests outstanding. -/
theorem sat_storageSetEncryptedBlob {encrypted : Bytes} (hne : encrypted ≠ [])
    {d : Dev NvsKey Ram PinTest} (hd : Inv d) (htorn : TornStore d.fates → Stable PinClear d) :
    Sat (storageSetEncryptedBlob encrypted) (fun _ => Inv) (fun _ => Inv) d := by
  have hlen : (decide (0 < encrypted.length)) = true := by simpa [List.length_pos_iff] using hne
  have hclear : Stable PinClear d →
      Inv ({ d with fates := d.fates.tail }.put NvsKey.counter (some [3])) :=
    fun h => (PinClear.update_counter h (some [3])).inv
  have hnew := ((pinBound_append_wrote hd.1 .counter (some [3])).update_blob
    (Function.update d.store .counter (some [3])) (some encrypted)).inv
  simp only [storageSetEncryptedBlob, storageRestoreCounter, sat_bind, sat_storeBlob, write]
  rw [sat_commit]
  refine ⟨fun h₁ => ?_, fun _ => (sat_pure _).2 hd, fun _ => hd, fun h₁ => hclear (htorn ?_)⟩
  · -- the counter is restored; what is left is the fate of the blob
    simp only [if_true, storeBlob, write, sat_bind, sat_assert, hlen, true_implies,
      Bool.true_eq_false, false_implies, and_true]
    rw [sat_commit]
    have h₁' : d.fates.headD .done = .done := h₁
    refine ⟨fun _ => hnew, fun h₂ => hclear (htorn ?_), fun h₂ => hclear (htorn ?_), fun _ => hnew⟩
    all_goals
      simp only [Dev.fate, Dev.put] at h₂
      simp only [TornStore, h₁', h₂]
      rfl
  · have h₁' : d.fates.headD .done = .cutAfter := h₁
    simp only [TornStore, h₁']
    rfl

theorem sat_keychainEncryptAndSaveBlob (P : Prims) (aeskey : Bytes) (iv : Iv) (cleartext : Bytes)
    {d : Dev NvsKey Ram PinTest} (hd : Inv d) (htorn : TornStore d.fates → Stable PinClear d) :
    Sat (keychainEncryptAndSaveBlob P aeskey iv cleartext) (fun _ => Inv) (fun _ => Inv) d := by
  simp only [keychainEncryptAndSaveBlob, sat_ite, sat_pure, sat_bind]
  refine ⟨fun _ => hd, fun _ => ⟨fun _ => hd, fun _ => ?_⟩⟩
  refine (sat_getEncryptedBlob P aeskey iv cleartext d).mono ?_ (fun _ _ h => h ▸ hd)
  rintro encrypted _ ⟨hne, rfl⟩
  exact sat_storageSetEncryptedBlob hne hd htorn

theorem keeps_serialize {I : Dev NvsKey Ram PinTest → Prop} (P : Prims) (keydata : Keychain) :
    Keeps I (serialize P keydata) :=
  Keeps.bind (Keeps.bind (keeps_assert _) fun _ => Keeps.pure _) fun _ => Keeps.pure _

theorem keeps_unserialize {I : Dev NvsKey Ram PinTest → Prop} (P : Prims) (bytes : Bytes) :
    Keeps I (unserialize P bytes) := by
  refine Keeps.bind (keeps_assert _) fun _ => ?_
  cases P.bip32KeyUnserialize (bytes.take BIP32_SERIALIZED_LEN) with
  | none => exact Keeps.throw _
  | some xpriv => exact Keeps.pure _

/-! ### The operations -/

theorem sat_keychainStore (P : Prims) (aeskey : Bytes) (iv : Iv) {d : Dev NvsKey Ram PinTest}
    (hd : Inv d) (htorn : TornStore d.fates → Stable PinClear d) :
    Sat (keychainStore P aeskey iv) (fun _ => Inv) (fun _ => Inv) d := by
  -- whatever the cleartext is, encrypting and saving it keeps the invariant
  have hsave : ∀ cleartext, Sat (do
      if ← keychainEncryptAndSaveBlob P aeskey iv cleartext then
        keychainClearNetworkTypeRestriction
        modifyRam fun r => { r with hasEncryptedBlob := true }
        return true
      else
        return false) (fun _ => Inv) (fun _ => Inv) d := by
    intro cleartext
    rw [sat_bind]
    refine (sat_keychainEncryptAndSaveBlob P aeskey iv cleartext hd htorn).mono ?_ (fun _ _ h => h)
    intro saved d₁ hd₁
    refine (Keeps.ite (Keeps.bind frame_inv.keychainClearNetworkTypeRestriction fun _ => ?_)
      (Keeps.pure _) : Keeps Inv _) d₁ hd₁
    exact Keeps.bind (keeps_modifyRam _) fun _ => Keeps.pure _
  simp only [keychainStore, sat_ite, sat_pure, sat_bind, sat_getRam, sat_assert] at hsave ⊢
  refine ⟨fun _ => hd, fun _ => ⟨fun _ => hd, fun _ => ⟨fun _ => ⟨fun _ => hsave _, fun _ => hd⟩,
    fun _ => ?_⟩⟩⟩
  cases d.ram.keychainData with
  | none =>
      simp only [sat_bind, sat_throw]
      exact hd
  | some keydata =>
      refine (sat_bind _ _).2 ?_
      refine (keeps_serialize P keydata d rfl : Sat _ (fun _ d' => d' = d)
        (fun _ d' => d' = d) d).mono ?_ (fun _ _ h => h ▸ hd)
      rintro cleartext _ rfl
      simpa only [sat_bind, sat_ite, sat_pure] using hsave cleartext

theorem keeps_keychainLoad (P : Prims) (aeskey : Bytes) : Keeps Inv (keychainLoad P aeskey) := by
  intro d hd
  simp only [keychainLoad, keychainHasPin, sat_ite, sat_pure, sat_bind, sat_getRam]
  refine ⟨fun _ => hd, fun _ => ⟨fun _ => hd, fun _ => ⟨fun _ => hd, fun _ => ?_⟩⟩⟩
  refine (sat_keychainLoadAndDecryptBlob P aeskey _ hd).mono ?_ (fun _ _ h => h)
  intro r d₁ hd₁
  cases r with
  | none => exact (sat_pure _).2 hd₁
  | some serialized =>
      refine (Keeps.ite (Keeps.bind (keeps_modifyRam _) fun _ => Keeps.pure _)
        (Keeps.ite (Keeps.bind (keeps_unserialize P _) fun _ =>
          Keeps.bind (frame_inv.keychainSet _ _ _) fun _ => Keeps.pure _) (Keeps.pure _)) :
        Keeps Inv _) d₁ ?_
      exact PinClear.inv hd₁

/-- Changing the PIN is safe wherever it is stopped: the blob has just been decrypted. -/
theorem keeps_keychainReencrypt (P : Prims) (currAeskey newAeskey : Bytes) (iv : Iv) :
    Keeps Inv (keychainReencrypt P currAeskey newAeskey iv) := by
  intro d hd
  simp only [keychainReencrypt, keychainHasPin, sat_ite, sat_pure, sat_bind, sat_getRam]
  refine ⟨fun _ => hd, fun _ => ⟨fun _ => hd, fun _ => ?_⟩⟩
  refine (sat_keychainLoadAndDecryptBlob P currAeskey _ hd).mono ?_ (fun _ _ h => h)
  intro r d₁ hd₁
  cases r with
  | none => exact (sat_pure _).2 hd₁
  | some serialized =>
      exact sat_keychainEncryptAndSaveBlob P newAeskey iv serialized (PinClear.inv hd₁) fun _ => hd₁

theorem keeps_keychainInitCache : Keeps Inv keychainInitCache :=
  fun _ hd => sat_keychainInitCache.2 hd

/-! ### Runs of the device -/

/-- The operations of the keychain, with the arguments their callers choose.  A reboot is an
operation that does nothing before the restart. -/
inductive Op
  | store (aeskey : Bytes) (iv : Iv)
  | load (aeskey : Bytes)
  | reencrypt (currAeskey newAeskey : Bytes) (iv : Iv)
  | eraseEncrypted
  | reboot
  | set (src : Keychain) (userdata : UInt8) (temporary : Bool)
  | clear
  | setTemporary
  | cacheMnemonicEntropy (mnemonic : Bytes)
  | setNetworkTypeRestriction (networkType : NetworkType)

/-- The program of an operation; what it returns does not matter to the device. -/
def Op.exec (P : Prims) : Op → KeychainM PUnit
  | .store aeskey iv => discard (keychainStore P aeskey iv)
  | .load aeskey => discard (keychainLoad P aeskey)
  | .reencrypt currAeskey newAeskey iv => discard (keychainReencrypt P currAeskey newAeskey iv)
  | .eraseEncrypted => keychainEraseEncrypted
  | .reboot => throw .power
  | .set src userdata temporary => keychainSet src userdata temporary
  | .clear => keychainClear
  | .setTemporary => keychainSetTemporary
  | .cacheMnemonicEntropy mnemonic => keychainCacheMnemonicEntropy P mnemonic
  | .setNetworkTypeRestriction networkType => keychainSetNetworkTypeRestriction networkType

/-- An operation and the fates of the commits it is going to make. -/
structure Request where
  op : Op
  fates : List Fate

/-- The device carries out one request; it restarts when the request is stopped. -/
def step (P : Prims) (d : Dev NvsKey Ram PinTest) (r : Request) : Dev NvsKey Ram PinTest :=
  runOp Ram.init keychainInitCache (r.op.exec P) r.fates d

/-- The device after power-on with the given flash. -/
def powerOn (st : Store NvsKey) : Dev NvsKey Ram PinTest :=
  restart Ram.init keychainInitCache { store := st, ram := Ram.init, fates := [], log := [] }

/-- A `keychain_store` that has a key of the right size and a wallet to store is not stopped
between its two commits while the flash holds a blob with wrong tests outstanding. -/
def Admissible (d : Dev NvsKey Ram PinTest) (r : Request) : Prop :=
  ∀ aeskey iv, r.op = .store aeskey iv → aeskey.length = AES_KEY_LEN_256 →
    (d.ram.keychainData.isSome ∨ d.ram.mnemonicEntropy ≠ []) → TornStore r.fates →
    ∀ b, d.store .blob = some b → wrongSince b d.log = 0

/-- **One admissible step keeps the invariant.** -/
theorem step_pinInv (P : Prims) (d : Dev NvsKey Ram PinTest) (r : Request) (hd : Inv d)
    (hr : Admissible d r) : Inv (step P d r) := by
  refine runOp_stable keeps_keychainInitCache ?_
  have hd' : Inv { d with fates := r.fates } := hd
  have hunit : ∀ {α : Type} {x : KeychainM α},
      Sat x (fun _ => Inv) (fun _ => Inv) { d with fates := r.fates } →
      Sat (discard x) (fun _ => Inv) (fun _ => Inv) { d with fates := r.fates } :=
    fun h => (sat_map _ _).2 h
  rcases hop : r.op with ⟨aeskey, iv⟩ | ⟨aeskey⟩ | ⟨currAeskey, newAeskey, iv⟩ | _ | _ |
    ⟨src, userdata, temporary⟩ | _ | _ | ⟨mnemonic⟩ | ⟨networkType⟩
  · refine hunit ?_
    by_cases hkey : aeskey.length = AES_KEY_LEN_256
    · by_cases hram : d.ram.keychainData.isSome ∨ d.ram.mnemonicEntropy ≠ []
      · exact sat_keychainStore P aeskey iv hd' fun ht => ⟨hd.1, hr aeskey iv hop hkey hram ht⟩
      · -- nothing to store: the flash is not touched
        obtain ⟨hdata, hentropy⟩ := not_or.1 hram
        rw [Option.not_isSome_iff_eq_none] at hdata
        simpa [keychainStore, sat_ite, hkey, hdata, not_not.1 hentropy] using hd'
    · simpa [keychainStore, hkey] using hd'
  · exact hunit (keeps_keychainLoad P aeskey _ hd')
  · exact hunit (keeps_keychainReencrypt P currAeskey newAeskey iv _ hd')
  · exact keeps_keychainEraseEncrypted _ hd'
  · exact (sat_throw _).2 hd'
  · exact frame_inv.keychainSet src userdata temporary _ hd'
  · exact frame_inv.keychainClear _ hd'
  · exact frame_inv.keychainSetTemporary _ hd'
  · exact frame_inv.keychainCacheMnemonicEntropy P mnemonic _ hd'
  · exact frame_inv.keychainSetNetworkTypeRestriction networkType _ hd'

theorem powerOn_pinInv (st : Store NvsKey) : Inv (powerOn st) := by
  refine restart_stable keeps_keychainInitCache ⟨pinBound_nil, ?_⟩
  intro b _
  simpa [wrongSince] using attemptsLeft_le st

/-- **The bound holds along every admissible run**, whatever the flash held at the start. -/
theorem pinBound_run (P : Prims) (st : Store NvsKey) (rs : List Request)
    (h : AllSteps (step P) Admissible (powerOn st) rs) :
    PinBound (run (step P) (powerOn st) rs).log :=
  (run_induction (I := Inv) (fun d r => step_pinInv P d r) (powerOn_pinInv st) h).1

/-! ### A torn store -/

/-- Primitives for evaluating runs: the authentication code is the key, and encrypting is
padding. -/
def toyPrims : Prims where
  hmacSha256 key _ := key
  aesCbcEncrypt _ _ bytes := bytes ++ List.replicate (aesPaddedLen bytes.length - bytes.length) 0
  aesCbcDecrypt _ _ bytes := some (bytes.take (bytes.length - AES_BLOCK_LEN))
  bip32KeySerialize _ := List.replicate BIP32_SERIALIZED_LEN 0
  bip32KeyUnserialize _ := none
  bip39MnemonicToBytes mnemonic := some (List.replicate BIP39_ENTROPY_LEN_128 (mnemonic.headD 0))

def toyKey (n : UInt8) : Bytes := List.replicate AES_KEY_LEN_256 n

def toyIv : Iv := Vector.replicate AES_BLOCK_LEN 0

/-- A wallet is stored and tested with two wrong keys. -/
def twoWrongTests : List Request :=
  [⟨.cacheMnemonicEntropy [1], []⟩, ⟨.store (toyKey 1) toyIv, []⟩, ⟨.reboot, []⟩,
    ⟨.load (toyKey 9), []⟩, ⟨.load (toyKey 9), []⟩]

theorem pinBound_twoWrongTests :
    PinBound (run (step toyPrims) (powerOn fun _ => none) twoWrongTests).log := by
  refine pinBound_run toyPrims _ _ ?_
  simp [twoWrongTests, Admissible, TornStore]

/-- A test with three wrong ones behind it breaks the bound. -/
theorem not_pinBound_of_getElem? {log : PinLog} (n : ℕ) (b : Bytes) (ok : Bool)
    (hn : log[n]? = some (.event ⟨b, ok⟩)) (hwrong : 3 ≤ wrongSince b (log.take n)) :
    ¬ PinBound log := by
  intro h
  obtain ⟨hlt, hget⟩ := List.getElem?_eq_some_iff.1 hn
  have := h (log.take n) b ok (log.drop (n + 1)) (by
    rw [← hget, List.getElem_cons_drop, List.take_append_drop])
  omega

/-- The power is lost while the third wrong test is erasing the wallet, so that the counter is
zero and the blob is still there; then a new wallet is set up, and the power is lost after the
counter was restored and before the blob was replaced. -/
def tornRequests : List Request :=
  twoWrongTests ++
    [⟨.load (toyKey 9), [.done, .cutBefore]⟩, ⟨.cacheMnemonicEntropy [2], []⟩,
      ⟨.store (toyKey 2) toyIv, [.done, .cutBefore]⟩, ⟨.load (toyKey 9), []⟩]

/-- **A torn store breaks the bound**: the old wallet is tested against a fourth wrong key. -/
theorem pinBound_fails_on_torn_store :
    ¬ PinBound (run (step toyPrims) (powerOn fun _ => none) tornRequests).log := by
  let blob : Bytes := toyIv.toList ++ List.replicate 16 1 ++ List.replicate 16 0 ++ toyKey 1
  exact not_pinBound_of_getElem? 11 blob false (by decide +kernel) (by decide +kernel)

end Jade
