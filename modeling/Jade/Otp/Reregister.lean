/-
**Registering a record anew (`register_otp.c`, `storage.c`).**

The URI of a record and its counter are written one after the other, and when the second write fails
the record is erased.  So an attempt to register a counter-based URI under a name that is taken may
leave the new URI with the old counter, when the power goes in between, or nothing at all, when the
counter cannot be written.

Main definitions:

* `Jade.OldOrNew` — URI and counter are both the old ones, or both the new ones;
* `Jade.WritesCounter` — the attempt gets as far as writing a counter;
* `Jade.CounterFollows` — the write of the counter takes effect whenever that of the URI does.

Main results:

* `Jade.sat_handleNewOtpUri_oldOrNew` — what an attempt leaves behind;
* `Jade.reregister_iff` — **the record survives every failing write and every loss of power exactly
  when no counter is to be written**.
-/

import Jade.Otp.Counter

set_option relaxedAutoImplicit false
set_option autoImplicit false

namespace Jade

open Exec Flash

section Reregister

variable (D : OtpDevice)

/-- What is stored under the name is what was, or it is the new URI with the new counter, if it has
one. -/
def OldOrNew (name uri iv : Bytes) (d d' : Dev OtpKey OtpRam OtpEvent) : Prop :=
  (d'.store (.otp name) = d.store (.otp name) ∧
      d'.store (.hotpCounter name) = d.store (.hotpCounter name)) ∨
    ∃ ctx encrypted, otpUriToCtx D.toOtpPrims name uri = .ok (some ctx) ∧
      D.aesEncryptBytes (D.otpKeyFromSeed d.ram.seed) iv uri = some encrypted ∧
      d'.store (.otp name) = some encrypted ∧
      d'.store (.hotpCounter name) =
        if ctx.otpType = .hotp then some (Bytes.ofNatLE 8 ctx.counter.toNat)
        else d.store (.hotpCounter name)

/-- The attempt gets as far as writing a counter: a counter-based record that is valid and
confirmed, on a device that can encrypt it. -/
def WritesCounter (st : Store OtpKey) (seed name uri iv : Bytes) (confirms : Bool) : Prop :=
  otpNameError D st name = none ∧ confirms = true ∧ seed ≠ [] ∧
    (∃ ctx, otpUriToCtx D.toOtpPrims name uri = .ok (some ctx) ∧
      (otpGetAuthCode D.toOtpPrims ctx).isSome ∧ ctx.otpType = .hotp) ∧
    ∃ encrypted, D.aesEncryptBytes (D.otpKeyFromSeed seed) iv uri = some encrypted ∧ encrypted ≠ []

/-- The write of the URI does not take effect, or it is done and that of the counter takes effect.
-/
def CounterFollows (fates : List Fate) : Prop :=
  fates.headD .done = .refused ∨ fates.headD .done = .cutBefore ∨
    fates.headD .done = .done ∧
      (fates.tail.headD .done = .done ∨ fates.tail.headD .done = .cutAfter)

theorem oldOrNew_self (name uri iv : Bytes) (d : Dev OtpKey OtpRam OtpEvent) :
    OldOrNew D name uri iv d d := .inl ⟨rfl, rfl⟩

/-- Once the user has confirmed: the counter is written, or the fates of the two writes agree. -/
theorem sat_persistOtp_oldOrNew {ctx : OtpauthCtx} {name uri iv : Bytes}
    (hctx : otpUriToCtx D.toOtpPrims name uri = .ok (some ctx)) (d : Dev OtpKey OtpRam OtpEvent)
    (h : d.ram.seed ≠ [] → ctx.otpType = .hotp →
      (∃ encrypted, D.aesEncryptBytes (D.otpKeyFromSeed d.ram.seed) iv uri = some encrypted ∧
        encrypted ≠ []) → CounterFollows d.fates) :
    Sat (persistOtp D ctx name uri iv) (fun _ d' => OldOrNew D name uri iv d d')
      (fun _ d' => OldOrNew D name uri iv d d') d := by
  have hsame := oldOrNew_self D name uri iv d
  simp only [persistOtp, otpSaveUri, sat_bind, sat_getRam, sat_ite, sat_pure]
  refine ⟨fun _ => ⟨fun _ => hsame, fun h => absurd rfl h⟩, fun hseed => ?_⟩
  cases hencrypt : D.aesEncryptBytes (D.otpKeyFromSeed d.ram.seed) iv uri with
  | none => exact (sat_pure _).2 ⟨fun _ => hsame, fun h => absurd rfl h⟩
  | some encrypted =>
      have hkeys : OtpKey.otp name ≠ .hotpCounter name := by simp
      have hkeys' : OtpKey.hotpCounter name ≠ .otp name := by simp
      simp only [storageSetOtpData, write, sat_bind, sat_assert, sat_commit]
      refine ⟨fun hne => ⟨fun hdone => ?_, fun _ => ⟨fun _ => hsame, fun h => absurd rfl h⟩,
        fun _ => hsame, fun hcut => ?_⟩, fun _ => hsame⟩
      · refine ⟨fun h => absurd h (by decide), fun _ => ⟨fun hhotp => ?_, fun htotp => ?_⟩⟩
        · -- the URI is written, and the counter is next
          have hfollows := h (by simpa using hseed) hhotp ⟨encrypted, hencrypt, by simpa using hne⟩
          have hnew : ∀ d' : Dev OtpKey OtpRam OtpEvent,
              d'.store = Function.update (Function.update d.store (.otp name) (some encrypted))
                (.hotpCounter name) (some (Bytes.ofNatLE 8 ctx.counter.toNat)) →
                OldOrNew D name uri iv d d' := by
            intro d' hd'
            refine .inr ⟨ctx, encrypted, hctx, hencrypt, ?_, ?_⟩
            · rw [hd', Function.update_of_ne hkeys, Function.update_self]
            · rw [hd', Function.update_self, if_pos hhotp]
          have hfate : d.fates.tail.headD .done = .done ∨ d.fates.tail.headD .done = .cutAfter := by
            rcases hfollows with h | h | ⟨-, h⟩
            · exact absurd (hdone.symm.trans h) (by decide)
            · exact absurd (hdone.symm.trans h) (by decide)
            · exact h
          simp only [sat_storageSetOtpHotpCounter, sat_commit]
          refine ⟨fun _ => ⟨fun _ => hnew _ rfl, fun h => absurd trivial h⟩, fun hrefused => ?_,
            fun hcut => ?_, fun _ => hnew _ rfl⟩
          · rcases hfate with h | h <;> exact absurd (h.symm.trans hrefused) (by decide)
          · rcases hfate with h | h <;> exact absurd (h.symm.trans hcut) (by decide)
        · refine .inr ⟨ctx, encrypted, hctx, hencrypt, Function.update_self .., ?_⟩
          rw [if_neg htotp]
          exact Function.update_of_ne hkeys' (some encrypted) d.store
      · -- the power goes just after the URI was written
        refine .inr ⟨ctx, encrypted, hctx, hencrypt, Function.update_self .., ?_⟩
        by_cases hhotp : ctx.otpType = .hotp
        · have hfollows := h (by simpa using hseed) hhotp ⟨encrypted, hencrypt, by simpa using hne⟩
          rcases hfollows with h | h | ⟨h, -⟩ <;> exact absurd (hcut.symm.trans h) (by decide)
        · rw [if_neg hhotp]
          exact Function.update_of_ne hkeys' (some encrypted) d.store

/-- **What an attempt leaves behind**, when it writes no counter or the counter follows the URI. -/
theorem sat_handleNewOtpUri_oldOrNew {name uri iv : Bytes} {confirms : Bool}
    (d : Dev OtpKey OtpRam OtpEvent)
    (h : WritesCounter D d.store d.ram.seed name uri iv confirms → CounterFollows d.fates) :
    Sat (handleNewOtpUri D name uri iv confirms) (fun _ d' => OldOrNew D name uri iv d d')
      (fun _ d' => OldOrNew D name uri iv d d') d := by
  have hsame := oldOrNew_self D name uri iv d
  simp only [handleNewOtpUri, validateOtpName, sat_bind, sat_get, sat_pure]
  cases hname : otpNameError D d.store name with
  | some errmsg => exact (sat_pure _).2 hsame
  | none =>
      simp only [sat_bind, sat_orRestart]
      refine ⟨fun parsed hparsed => ?_, fun _ _ => hsame⟩
      cases parsed with
      | none => exact (sat_pure _).2 hsame
      | some ctx =>
          refine sat_ite.2 ⟨fun _ => (sat_pure _).2 hsame, fun hcode => sat_ite.2
            ⟨fun _ => (sat_pure _).2 hsame, fun hconfirms => ?_⟩⟩
          refine sat_persistOtp_oldOrNew D hparsed d ?_
          intro hseed hhotp hencrypt
          refine h ⟨hname, by simpa using hconfirms, hseed, ⟨ctx, hparsed, ?_, hhotp⟩, hencrypt⟩
          simpa [Option.isSome_iff_ne_none] using hcode

/-- The counter cannot be written, and the record is erased. -/
theorem lost_of_refused {name uri iv : Bytes} {confirms : Bool} {d : Dev OtpKey OtpRam OtpEvent}
    (h : WritesCounter D d.store d.ram.seed name uri iv confirms)
    (hfates : d.fates = [.done, .refused]) :
    Sat (handleNewOtpUri D name uri iv confirms) (fun _ d' => d'.store (.otp name) = none)
      (fun _ _ => False) d := by
  obtain ⟨hname, hconfirms, hseed, ⟨ctx, hctx, hcode, hhotp⟩, encrypted, hencrypt, hne⟩ := h
  have hcode' : ¬(otpGetAuthCode D.toOtpPrims ctx).isNone = true := by
    simpa [Option.isSome_iff_ne_none] using hcode
  simp only [handleNewOtpUri, validateOtpName, sat_bind, sat_get, sat_pure, hname, hctx, orRestart,
    if_neg hcode', hconfirms, Bool.not_true, Bool.false_eq_true, if_false, persistOtp, otpSaveUri,
    sat_getRam]
  rw [if_neg (by simpa using hseed)]
  simp only [hencrypt, storageSetOtpData, write, sat_bind, sat_assert, sat_commit, Dev.fate, hfates,
    List.headD_cons, List.tail_cons, hhotp, if_true, Bool.not_true, Bool.false_eq_true, if_false,
    sat_storageSetOtpHotpCounter, storageEraseOtp, erase, sat_pure, Dev.put]
  simp [hne]

/-! ### The result -/

/-- The attempt as a step of the machine: when it is cut, the device restarts. -/
theorem otpStep_oldOrNew {name uri iv : Bytes} {confirms : Bool} {fates : List Fate}
    (d : Dev OtpKey OtpRam OtpEvent)
    (h : WritesCounter D d.store d.ram.seed name uri iv confirms → CounterFollows fates) :
    OldOrNew D name uri iv d (otpStep D d (.register name uri iv confirms, fates)) := by
  have hprog : Sat (handleNewOtpUri D name uri iv confirms) _ _ { d with fates := fates } :=
    sat_handleNewOtpUri_oldOrNew D _ h
  refine runOp_of_sat (Q := OldOrNew D name uri iv d) (J := OldOrNew D name uri iv d) ?_ ?_
  · refine (sat_bind _ _).2 (hprog.mono ?_ (fun _ _ h => h))
    exact fun _ _ h => (sat_pure _).2 h
  · exact fun d' hd' => (sat_pure _).2 hd'

/-- **A record survives every attempt to register its name anew exactly when the new one writes no
counter.** When it does, there is a failing write after which nothing is left; and it survives every
attempt in which the write of the counter takes effect whenever that of the URI does. -/
theorem reregister_iff (name uri iv : Bytes) (confirms : Bool) (d : Dev OtpKey OtpRam OtpEvent)
    (hold : (d.store (.otp name)).isSome = true) :
    ((∀ fates, OldOrNew D name uri iv d (otpStep D d (.register name uri iv confirms, fates))) ↔
        ¬WritesCounter D d.store d.ram.seed name uri iv confirms) ∧
      ∀ fates, CounterFollows fates →
        OldOrNew D name uri iv d (otpStep D d (.register name uri iv confirms, fates)) := by
  refine ⟨⟨fun hall hwrites => ?_, fun h fates => ?_⟩, fun fates h => ?_⟩
  · -- the flash takes the URI and refuses the counter
    have hlost : (otpStep D d (.register name uri iv confirms, [.done, .refused])).store
        (.otp name) = none := by
      have hprog := lost_of_refused D (d := { d with fates := [.done, .refused] }) hwrites rfl
      refine runOp_of_sat (Q := fun d' : Dev OtpKey OtpRam OtpEvent => d'.store (.otp name) = none)
        (J := fun _ => False) ?_ ?_
      · refine (sat_bind _ _).2 (hprog.mono ?_ (fun _ _ h => h))
        exact fun _ _ h => (sat_pure _).2 h
      · exact fun _ h => h.elim
    rcases hall [.done, .refused] with ⟨hkept, -⟩ | ⟨ctx, encrypted, -, -, hnew, -⟩
    · rw [hlost] at hkept
      rw [← hkept] at hold
      exact absurd hold Bool.false_ne_true
    · rw [hlost] at hnew
      cases hnew
  · exact otpStep_oldOrNew D d fun hwrites => absurd hwrites h
  · exact otpStep_oldOrNew D d fun _ => h

end Reregister

/-- The record of `countingDevice`, registered anew after two codes have been made. -/
def usedDevice : Dev OtpKey OtpRam OtpEvent :=
  { countingDevice with
    store := Function.update countingDevice.store (.hotpCounter (ascii "label"))
      (some (Bytes.ofNatLE 8 9)) }

/-- An attempt to register it anew. -/
def usedAttempt (fates : List Fate) : Dev OtpKey OtpRam OtpEvent :=
  otpStep countingOtpDevice usedDevice
    (.register (ascii "label") countingOtpUri (List.replicate 16 5) true, fates)

/-- The user declines; or the name is registered anew, with the counter of the new URI, also when the
power goes behind the second write; or the flash takes nothing. -/
theorem reregister_toy :
    OldOrNew countingOtpDevice (ascii "label") countingOtpUri [] countingDevice
        (otpStep countingOtpDevice countingDevice
          (.register (ascii "label") countingOtpUri [] false, [.cutAfter])) ∧
      (∀ fates ∈ [[], [.done, .cutAfter]],
        OldOrNew countingOtpDevice (ascii "label") countingOtpUri (List.replicate 16 5) usedDevice
            (usedAttempt fates) ∧
          (usedAttempt fates).store (.otp (ascii "label")) =
            some (List.replicate 16 5 ++ countingOtpUri) ∧
          (usedAttempt fates).store (.hotpCounter (ascii "label")) = some (Bytes.ofNatLE 8 7)) ∧
      OldOrNew countingOtpDevice (ascii "label") countingOtpUri (List.replicate 16 5) usedDevice
          (usedAttempt [.refused]) ∧
        (usedAttempt [.refused]).store (.hotpCounter (ascii "label")) =
          some (Bytes.ofNatLE 8 9) := by
  have hcarried : ∀ fates, CounterFollows fates → OldOrNew countingOtpDevice (ascii "label")
      countingOtpUri (List.replicate 16 5) usedDevice (usedAttempt fates) :=
    (reregister_iff countingOtpDevice (ascii "label") countingOtpUri (List.replicate 16 5) true
      usedDevice (by decide)).2
  refine ⟨?_, ?_, hcarried _ (.inl rfl), by decide +kernel⟩
  · refine (reregister_iff countingOtpDevice (ascii "label") countingOtpUri [] false countingDevice
      (by decide)).1.2 ?_ [.cutAfter]
    intro h
    exact absurd h.2.1 Bool.false_ne_true
  · intro fates hfates
    rcases List.mem_cons.1 hfates with rfl | hfates
    · exact ⟨hcarried _ (.inr (.inr ⟨rfl, .inl rfl⟩)), by decide +kernel, by decide +kernel⟩
    · obtain rfl := List.mem_singleton.1 hfates
      exact ⟨hcarried _ (.inr (.inr ⟨rfl, .inr rfl⟩)), by decide +kernel, by decide +kernel⟩

/-- **The new URI is left with the old counter** when the power goes between the two writes, **and
nothing is left** when the second one is refused. -/
theorem reregister_mixes :
    ¬OldOrNew countingOtpDevice (ascii "label") countingOtpUri (List.replicate 16 5) usedDevice
        (usedAttempt [.cutAfter]) ∧
      ¬OldOrNew countingOtpDevice (ascii "label") countingOtpUri (List.replicate 16 5) usedDevice
        (usedAttempt [.done, .refused]) ∧
      (usedAttempt [.done, .refused]).store (.otp (ascii "label")) = none := by
  have hctx : otpUriToCtx countingOtpDevice.toOtpPrims (ascii "label") countingOtpUri =
      .ok (some {
        name := ascii "label"
        mdType := .sha1
        otpType := .hotp
        type := some (ascii "hotp")
        label := some (ascii "label")
        secret := some (ascii "VMR466AB62ZBOKHE")
        digits := 6
        counter := 7 }) := by decide +kernel
  have hold : usedDevice.store (.otp (ascii "label")) =
      some (List.replicate 16 0 ++ countingOtpUri) := by decide +kernel
  have huri : (usedAttempt [.cutAfter]).store (.otp (ascii "label")) =
      some (List.replicate 16 5 ++ countingOtpUri) := by decide +kernel
  have hcounter : (usedAttempt [.cutAfter]).store (.hotpCounter (ascii "label")) =
      some (Bytes.ofNatLE 8 9) := by decide +kernel
  have hlost : (usedAttempt [.done, .refused]).store (.otp (ascii "label")) = none := by
    decide +kernel
  refine ⟨?_, ?_, hlost⟩
  · intro h
    rcases h with ⟨hkept, -⟩ | ⟨ctx, encrypted, hparse, -, -, hnew⟩
    · rw [huri, hold] at hkept
      exact absurd hkept (by decide +kernel)
    · rw [hctx] at hparse
      obtain rfl := Option.some.inj (Except.ok.inj hparse)
      rw [hcounter] at hnew
      exact absurd hnew (by decide)
  · intro h
    rcases h with ⟨hkept, -⟩ | ⟨ctx, encrypted, -, -, hnew, -⟩
    · rw [hlost, hold] at hkept
      cases hkept
    · rw [hlost] at hnew
      cases hnew

end Jade
