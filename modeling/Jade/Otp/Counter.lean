/-
**A counter value is used for one code only (`otp_set_default_value`).**

The code of a counter-based record is made from the counter in the flash, and the flash moves on to the
next value before the code is computed.  So whatever becomes of the commit, of the code and of the
device, the values of the codes that have been put before a user lie below the one in the flash, and
each new one is the value that was in the flash.

A run is any sequence of codes asked for, records read, other records registered or erased, and wallets
unlocked; each step has a schedule of its own for its commits, and ends in a restart if it is stopped.
The record in question is not registered anew or erased meanwhile, and its counter does not reach the
end of its range.

Main definitions:

* `Jade.OtpOp`, `Jade.otpStep` — the operations, and one step of a run;
* `Jade.StepsAside` — what a step may be;
* `Jade.storedCodes` — the counter values of the codes that were made from the flash;
* `Jade.CodesBelow` — the invariant.

Main results:

* `Jade.sat_otpSetDefaultValue` — what the counter becomes, however it ends;
* `Jade.storedCodes_increasing` — **the values increase along every run**.
-/

import Jade.Lib.Run
import Jade.Otp.Register

set_option relaxedAutoImplicit false
set_option autoImplicit false

namespace Jade

open Exec Flash

/-! ### The codes in the log -/

/-- The counter value of a code of the record `name` that was made from the flash. -/
def storedCode (name : Bytes) : Entry OtpKey OtpEvent → Option UInt64
  | .event (.code n .stored counter) => if n = name then some counter else none
  | _ => none

/-- The counter values of the codes of the record `name` that were made from the flash, oldest first. -/
def storedCodes (name : Bytes) (log : List (Entry OtpKey OtpEvent)) : List UInt64 :=
  log.filterMap (storedCode name)

@[simp] theorem storedCodes_append (name : Bytes) (log log' : List (Entry OtpKey OtpEvent)) :
    storedCodes name (log ++ log') = storedCodes name log ++ storedCodes name log' :=
  List.filterMap_append

@[simp] theorem storedCodes_wrote (name : Bytes) (k : OtpKey) (v : Option Bytes) :
    storedCodes name [.wrote k v] = [] := rfl

@[simp] theorem storedCodes_reply (name : Bytes) (ok : Bool) :
    storedCodes name [.event (.reply ok)] = [] := rfl

theorem storedCodes_code (name n : Bytes) (source : CodeSource) (counter : UInt64) :
    storedCodes name [.event (.code n source counter)] =
      if source = .stored ∧ n = name then [counter] else [] := by
  cases source <;> by_cases hn : n = name <;> simp [storedCodes, storedCode, hn]

/-- **The invariant**: the values used since the log was `log₀` increase, and the one in the flash is
above all of them. -/
def CodesBelow (name : Bytes) (log₀ : List (Entry OtpKey OtpEvent)) (st : Store OtpKey)
    (log : List (Entry OtpKey OtpEvent)) : Prop :=
  ∃ post, log = log₀ ++ post ∧ (storedCodes name post).Pairwise (· < ·) ∧
    ∀ c ∈ storedCodes name post, c < hotpCounterOf st name

section Entries

variable {name : Bytes} {log₀ log : List (Entry OtpKey OtpEvent)} {st : Store OtpKey}

/-- An entry that is no code of the record, with the counter no lower than it was, does no harm. -/
theorem CodesBelow.append (h : CodesBelow name log₀ st log) {e : Entry OtpKey OtpEvent}
    {st' : Store OtpKey} (he : storedCodes name [e] = [])
    (hle : hotpCounterOf st name ≤ hotpCounterOf st' name) :
    CodesBelow name log₀ st' (log ++ [e]) := by
  obtain ⟨post, rfl, hpair, hbelow⟩ := h
  refine ⟨post ++ [e], List.append_assoc .., ?_, ?_⟩
  · rwa [storedCodes_append, he, List.append_nil]
  · intro c hc
    rw [storedCodes_append, he, List.append_nil] at hc
    exact UInt64.lt_of_lt_of_le (hbelow c hc) hle

/-- A code of the value that has just been passed extends the list. -/
theorem CodesBelow.code {c : UInt64} {st' : Store OtpKey} (h : CodesBelow name log₀ st log)
    (hc : c = hotpCounterOf st name) (hlt : c < hotpCounterOf st' name)
    (k : OtpKey) (v : Option Bytes) :
    CodesBelow name log₀ st' (log ++ [.wrote k v] ++ [.event (.code name .stored c)]) := by
  obtain ⟨post, rfl, hpair, hbelow⟩ := h
  refine ⟨post ++ [.wrote k v] ++ [.event (.code name .stored c)],
    by simp only [List.append_assoc], ?_, ?_⟩
  · simp only [storedCodes_append, storedCodes_wrote, List.append_nil, storedCodes_code, and_self,
      if_true, List.pairwise_append, List.pairwise_cons, List.mem_singleton, forall_eq]
    exact ⟨hpair, by simp, fun x hx => by rw [hc]; exact hbelow x hx⟩
  · intro x hx
    simp only [storedCodes_append, storedCodes_wrote, List.append_nil, storedCodes_code, and_self,
      if_true, List.mem_append, List.mem_singleton] at hx
    rcases hx with hx | rfl
    · have hx' := hbelow x hx
      rw [← hc] at hx'
      exact UInt64.lt_trans hx' hlt
    · exact hlt

end Entries

/-! ### A run -/

/-- What can be asked of the device. -/
inductive OtpOp
  | getCode (name : Bytes) (override : Option UInt64) (time : UInt64) (accepts : Bool)
  | showCode (name : Bytes) (time : UInt64)
  | load (name : Bytes)
  | register (name uri iv : Bytes) (confirms : Bool)
  | erase (name : Bytes)
  | unlock (seed : Bytes)

/-- What an operation does. -/
def otpProg (D : OtpDevice) : OtpOp → OtpM PUnit
  | .getCode name override time accepts => getOtpCode D.toOtpPrims name override time accepts
  | .showCode name time => showOtpCode D.toOtpPrims name time
  | .load name => do let _ ← otpLoadCtx D.toOtpPrims name
  | .register name uri iv confirms => do let _ ← handleNewOtpUri D name uri iv confirms
  | .erase name => do let _ ← storageEraseOtp name
  | .unlock seed => modifyRam fun r => { r with seed }

/-- One step of a run: an operation under a schedule for its commits.  A restart locks the wallet. -/
def otpStep (D : OtpDevice) (d : Dev OtpKey OtpRam OtpEvent) (o : OtpOp × List Fate) :
    Dev OtpKey OtpRam OtpEvent :=
  runOp ⟨[]⟩ (pure ()) (otpProg D o.1) o.2 d

/-- The step does not register the record anew or erase it, and the counter that a code is made from is
not at the end of its range. -/
def StepsAside (name : Bytes) (d : Dev OtpKey OtpRam OtpEvent) (o : OtpOp × List Fate) : Prop :=
  match o.1 with
  | .getCode n _ _ _ => n = name → hotpCounterOf d.store name < 0xffffffffffffffff
  | .showCode n _ => n = name → hotpCounterOf d.store name < 0xffffffffffffffff
  | .load _ => True
  | .register n _ _ _ => n ≠ name
  | .erase n => n ≠ name
  | .unlock _ => True

instance (name : Bytes) (d : Dev OtpKey OtpRam OtpEvent) (o : OtpOp × List Fate) :
    Decidable (StepsAside name d o) :=
  match o with
  | (.getCode n _ _ _, _) =>
      inferInstanceAs (Decidable (n = name → hotpCounterOf d.store name < 0xffffffffffffffff))
  | (.showCode n _, _) =>
      inferInstanceAs (Decidable (n = name → hotpCounterOf d.store name < 0xffffffffffffffff))
  | (.load _, _) => isTrue trivial
  | (.register n _ _ _, _) => inferInstanceAs (Decidable (n ≠ name))
  | (.erase n, _) => inferInstanceAs (Decidable (n ≠ name))
  | (.unlock _, _) => isTrue trivial

/-! ### The operations keep the invariant -/

section Operations

variable {name : Bytes} {log₀ : List (Entry OtpKey OtpEvent)}

/-- A commit to another record. -/
theorem keeps_commit_of_ne {k : OtpKey} (hk : k ≠ .hotpCounter name) (v : Option Bytes) :
    Keeps (Stable (CodesBelow name log₀)) (commit k v : OtpM Bool) := by
  refine keeps_commit fun st log h => h.append rfl ?_
  rw [hotpCounterOf_update_of_ne st hk]
  exact UInt64.le_refl _

theorem keeps_note_reply (ok : Bool) :
    Keeps (Stable (CodesBelow name log₀)) (note (.reply ok) : OtpM PUnit) :=
  fun _ hd => (sat_note _).2 (CodesBelow.append hd rfl (UInt64.le_refl _))

theorem keeps_orRestart {α : Type} (I : Dev OtpKey OtpRam OtpEvent → Prop) (x : Except Fault α) :
    Keeps I (orRestart x) := fun _ hd => (sat_orRestart x).2 ⟨fun _ _ => hd, fun _ _ => hd⟩

/-- Reading a URI changes nothing. -/
theorem keeps_otpLoadUri (I : Dev OtpKey OtpRam OtpEvent → Prop) (P : OtpPrims) (n : Bytes) :
    Keeps I (otpLoadUri P n) := by
  refine Keeps.bind (Keeps.bind (keeps_read _) fun _ => Keeps.pure _) fun data => ?_
  cases data with
  | none => exact Keeps.pure _
  | some encrypted => exact keeps_getRam.bind fun r => Keeps.ite (Keeps.pure _) (Keeps.pure _)

/-- The record that is read has the name asked for. -/
theorem name_of_otpUriToCtx {P : OtpPrims} {n uri : Bytes} {ctx : OtpauthCtx}
    (h : otpUriToCtx P n uri = .ok (some ctx)) : ctx.name = n := by
  rw [otpUriToCtx] at h
  cases hslices : otpUriToSlices P.httpParserParseUrl uri with
  | error f => simp [hslices, Except.map] at h
  | ok r =>
      rw [hslices] at h
      obtain ⟨slices, -, rfl⟩ := Option.map_eq_some_iff.1 (Except.ok.inj h)
      rfl

/-- Reading a record changes nothing, and the record that is read has the name asked for. -/
theorem sat_otpLoadCtx (P : OtpPrims) (n : Bytes) (d : Dev OtpKey OtpRam OtpEvent) :
    Sat (otpLoadCtx P n) (fun r d' => d' = d ∧ ∀ ctx, r = some ctx → ctx.name = n)
      (fun _ d' => d' = d) d := by
  unfold otpLoadCtx
  rw [sat_bind]
  refine (keeps_otpLoadUri (· = d) P n d rfl).mono ?_ (fun _ _ h => h)
  rintro uri _ rfl
  cases uri with
  | none => exact (sat_pure _).2 ⟨rfl, by simp⟩
  | some uri =>
      refine sat_ite.2 ⟨fun _ => (sat_pure _).2 ⟨rfl, by simp⟩, fun _ => (sat_orRestart _).2 ?_⟩
      refine ⟨fun r hr => ⟨rfl, ?_⟩, fun _ _ => rfl⟩
      rintro ctx rfl
      exact name_of_otpUriToCtx hr

/-- Erasing another record. -/
theorem keeps_storageEraseOtp {n : Bytes} (hn : n ≠ name) :
    Keeps (Stable (CodesBelow name log₀)) (storageEraseOtp n) :=
  (keeps_commit_of_ne (by simpa using hn) _).bind fun _ => keeps_commit_of_ne (by simp) _

/-- Registering another record. -/
theorem keeps_handleNewOtpUri (D : OtpDevice) {n : Bytes} (hn : n ≠ name) (uri iv : Bytes)
    (confirms : Bool) :
    Keeps (Stable (CodesBelow name log₀)) (handleNewOtpUri D n uri iv confirms) := by
  have hsave : Keeps (Stable (CodesBelow name log₀)) (otpSaveUri D.toOtpPrims n uri iv) := by
    refine keeps_getRam.bind fun r => Keeps.ite (Keeps.pure _) ?_
    cases D.aesEncryptBytes (D.otpKeyFromSeed r.seed) iv uri with
    | none => exact Keeps.pure _
    | some encrypted => exact (keeps_assert _).bind fun _ => keeps_commit_of_ne (by simp) _
  have hpersist : ∀ ctx, Keeps (Stable (CodesBelow name log₀)) (persistOtp D ctx n uri iv) := by
    intro ctx
    refine hsave.bind fun saved => Keeps.ite (Keeps.pure _) (Keeps.ite ?_ (Keeps.pure _))
    refine Keeps.bind (keeps_commit_of_ne (by simpa using hn) _) fun counted => ?_
    exact Keeps.ite (Keeps.pure _) ((keeps_storageEraseOtp hn).bind fun _ => Keeps.pure _)
  refine (keeps_validateOtpName D _ n).bind fun errmsg => ?_
  cases errmsg with
  | some errmsg => exact Keeps.pure _
  | none =>
      refine (keeps_orRestart _ _).bind fun ctx => ?_
      cases ctx with
      | none => exact Keeps.pure _
      | some ctx =>
          exact Keeps.ite (Keeps.pure _) (Keeps.ite (Keeps.pure _) (hpersist ctx))

/-! ### A code -/

theorem lt_add_one_of_lt_max {c : UInt64} (h : c < 0xffffffffffffffff) : c < c + 1 := by
  have h' : c.toNat < 18446744073709551615 := h
  have hadd : (c + 1).toNat = c.toNat + 1 := by
    rw [UInt64.toNat_add]
    exact Nat.mod_eq_of_lt (by simp; omega)
  rw [UInt64.lt_iff_toNat_lt, hadd]
  exact Nat.lt_succ_self _

/-- The device after a code has been put before the user. -/
def codeShown (ctx : OtpauthCtx) (source : CodeSource) (d : Dev OtpKey OtpRam OtpEvent) :
    Dev OtpKey OtpRam OtpEvent :=
  { d with log := d.log ++ [.event (.code ctx.name source ctx.counter)] }

/-- **The counter moves on before the code is made**: whatever becomes of the commit, the invariant
holds, and it goes on to hold if the code is shown. -/
theorem sat_otpSetDefaultValue (ctx : OtpauthCtx) (time : UInt64)
    {d : Dev OtpKey OtpRam OtpEvent} (hd : Stable (CodesBelow name log₀) d)
    (hmax : ctx.name = name → hotpCounterOf d.store name < 0xffffffffffffffff) :
    Sat (otpSetDefaultValue ctx time)
      (fun r d' => Stable (CodesBelow name log₀) d' ∧
        ∀ ctx' source, r = some (ctx', source) →
          Stable (CodesBelow name log₀) (codeShown ctx' source d'))
      (fun _ => Stable (CodesBelow name log₀)) d := by
  unfold otpSetDefaultValue
  refine sat_ite.2 ⟨fun _ => sat_ite.2 ⟨fun _ => ?_, fun _ => ?_⟩, fun htype => ?_⟩
  · exact (sat_pure _).2 ⟨hd, by simp⟩
  · refine (sat_pure _).2 ⟨hd, ?_⟩
    intro ctx' source h
    simp only [Option.some.injEq, Prod.mk.injEq] at h
    obtain ⟨rfl, rfl⟩ := h
    exact CodesBelow.append hd (by simp [storedCodes_code]) (UInt64.le_refl _)
  · let value := hotpCounterOf d.store ctx.name
    let k := OtpKey.hotpCounter ctx.name
    let v := some (Bytes.ofNatLE 8 (value + 1).toNat)
    -- once the commit has taken effect, the flash holds the next value
    have hdone : CodesBelow name log₀ (Function.update d.store k v) (d.log ++ [.wrote k v]) := by
      refine CodesBelow.append hd rfl ?_
      by_cases hn : ctx.name = name
      · have hlt := lt_add_one_of_lt_max (hmax hn)
        rw [← hn] at hlt ⊢
        rw [hotpCounterOf_update]
        exact UInt64.le_of_lt hlt
      · rw [hotpCounterOf_update_of_ne _ (by simpa [k] using hn)]
        exact UInt64.le_refl _
    simp only [sat_bind, sat_storageGetOtpHotpCounter, sat_storageSetOtpHotpCounter]
    refine (sat_commit k v).2 ⟨fun _ => ?_, fun _ => ?_, fun _ => hd, fun _ => hdone⟩
    · refine sat_ite.2 ⟨fun _ => (sat_pure _).2 ⟨hdone, ?_⟩, fun h => absurd rfl h⟩
      intro ctx' source h
      simp only [Option.some.injEq, Prod.mk.injEq] at h
      obtain ⟨rfl, rfl⟩ := h
      have hctx : otpSetExplicitValue ctx value = { ctx with counter := value } := if_neg htype
      rw [show hotpCounterOf d.store ctx.name = value from rfl, hctx]
      by_cases hn : ctx.name = name
      · have hlt := lt_add_one_of_lt_max (hmax hn)
        have hlater : value < hotpCounterOf (Function.update d.store k v) name := by
          rw [← hn] at hlt ⊢
          rw [hotpCounterOf_update]
          exact hlt
        have hshown := hd.code (show value = hotpCounterOf d.store name by rw [← hn]) hlater k v
        rw [← hn] at hshown ⊢
        exact hshown
      · exact CodesBelow.append hdone (by simp [storedCodes_code, hn]) (UInt64.le_refl _)
    · exact sat_ite.2 ⟨fun h => by simp at h, fun _ => (sat_pure _).2 ⟨hd, by simp⟩⟩

/-- Showing a code that may be shown. -/
theorem sat_displayOtp (P : OtpPrims) {ctx : OtpauthCtx} {source : CodeSource}
    {d : Dev OtpKey OtpRam OtpEvent} (hd : Stable (CodesBelow name log₀) d)
    (hshown : Stable (CodesBelow name log₀) (codeShown ctx source d)) :
    Sat (displayOtp P ctx source) (fun _ => Stable (CodesBelow name log₀))
      (fun _ => Stable (CodesBelow name log₀)) d := by
  unfold displayOtp
  cases otpGetAuthCode P ctx with
  | none => exact (sat_pure _).2 hd
  | some code => simpa [codeShown] using hshown

/-- A code for the host keeps the invariant. -/
theorem sat_getOtpCode (P : OtpPrims) (n : Bytes) (override : Option UInt64) (time : UInt64)
    (accepts : Bool) {d : Dev OtpKey OtpRam OtpEvent} (hd : Stable (CodesBelow name log₀) d)
    (hmax : n = name → hotpCounterOf d.store name < 0xffffffffffffffff) :
    Sat (getOtpCode P n override time accepts) (fun _ => Stable (CodesBelow name log₀))
      (fun _ => Stable (CodesBelow name log₀)) d := by
  unfold getOtpCode
  rw [sat_bind]
  refine (sat_otpLoadCtx P n d).mono ?_ (fun _ _ h => h ▸ hd)
  rintro loaded d₁ ⟨rfl, hname⟩
  cases loaded with
  | none => exact keeps_note_reply false _ hd
  | some ctx =>
      rw [sat_bind]
      refine (sat_otpSetDefaultValue ctx time hd ?_).mono ?_ (fun _ _ h => h)
      · intro hn
        exact hmax ((hname ctx rfl).symm.trans hn)
      · rintro set d₂ ⟨hd₂, hshown⟩
        cases set with
        | none => exact keeps_note_reply false _ hd₂
        | some set =>
            obtain ⟨ctx', source⟩ := set
            cases override with
            | none =>
                exact (sat_bind _ _).2 ((sat_displayOtp P hd₂ (hshown ctx' source rfl)).mono
                  (fun _ _ h => keeps_note_reply _ _ h) (fun _ _ h => h))
            | some value =>
                have hhost : Stable (CodesBelow name log₀)
                    (codeShown (otpSetExplicitValue ctx' value) .host d₂) :=
                  CodesBelow.append hd₂ (by simp [storedCodes_code]) (UInt64.le_refl _)
                exact (sat_bind _ _).2 ((sat_displayOtp P hd₂ hhost).mono
                  (fun _ _ h => keeps_note_reply _ _ h) (fun _ _ h => h))

/-- A code on the screen keeps the invariant. -/
theorem sat_showOtpCode (P : OtpPrims) (n : Bytes) (time : UInt64)
    {d : Dev OtpKey OtpRam OtpEvent} (hd : Stable (CodesBelow name log₀) d)
    (hmax : n = name → hotpCounterOf d.store name < 0xffffffffffffffff) :
    Sat (showOtpCode P n time) (fun _ => Stable (CodesBelow name log₀))
      (fun _ => Stable (CodesBelow name log₀)) d := by
  unfold showOtpCode
  rw [sat_bind]
  refine (sat_otpLoadCtx P n d).mono ?_ (fun _ _ h => h ▸ hd)
  rintro loaded d₁ ⟨rfl, hname⟩
  cases loaded with
  | none => exact (sat_pure _).2 hd
  | some ctx =>
      rw [sat_bind]
      refine (sat_otpSetDefaultValue ctx time hd ?_).mono ?_ (fun _ _ h => h)
      · intro hn
        exact hmax ((hname ctx rfl).symm.trans hn)
      · rintro set d₂ ⟨hd₂, hshown⟩
        cases set with
        | none => exact (sat_pure _).2 hd₂
        | some set =>
            obtain ⟨ctx', source⟩ := set
            rw [sat_bind]
            exact (sat_displayOtp P hd₂ (hshown ctx' source rfl)).mono
              (fun _ _ h => (sat_pure _).2 h) (fun _ _ h => h)

/-- **Every step keeps the invariant.** -/
theorem otpStep_codesBelow (D : OtpDevice) (d : Dev OtpKey OtpRam OtpEvent)
    (o : OtpOp × List Fate) (hd : Stable (CodesBelow name log₀) d) (ho : StepsAside name d o) :
    Stable (CodesBelow name log₀) (otpStep D d o) := by
  obtain ⟨op, fates⟩ := o
  have hd' : Stable (CodesBelow name log₀) { d with fates := fates } := hd
  refine runOp_stable (Keeps.pure _) ?_
  cases op with
  | getCode n override time accepts => exact sat_getOtpCode D.toOtpPrims n override time accepts hd' ho
  | showCode n time => exact sat_showOtpCode D.toOtpPrims n time hd' ho
  | load n =>
      refine (sat_bind _ _).2 ((sat_otpLoadCtx D.toOtpPrims n _).mono ?_ (fun _ _ h => h ▸ hd'))
      rintro _ _ ⟨rfl, -⟩
      exact (sat_pure _).2 hd'
  | register n uri iv confirms =>
      exact (keeps_handleNewOtpUri D ho uri iv confirms).bind (fun _ => Keeps.pure _) _ hd'
  | erase n => exact (keeps_storageEraseOtp ho).bind (fun _ => Keeps.pure _) _ hd'
  | unlock seed => exact keeps_modifyRam (fun r : OtpRam => { r with seed := seed }) _ hd'

end Operations

/-- **No counter value is used twice**: along every run, the values of the codes that were made from the
flash increase. -/
theorem storedCodes_increasing (D : OtpDevice) (name : Bytes) (d : Dev OtpKey OtpRam OtpEvent)
    (ops : List (OtpOp × List Fate))
    (hops : Run.AllSteps (otpStep D) (StepsAside name) d ops) :
    (storedCodes name (since d (Run.run (otpStep D) d ops))).Pairwise (· < ·) := by
  have hstart : Stable (CodesBelow name d.log) d :=
    ⟨[], (List.append_nil _).symm, List.Pairwise.nil, by simp [storedCodes]⟩
  have hend : Stable (CodesBelow name d.log) (Run.run (otpStep D) d ops) :=
    Run.run_induction (fun d o => otpStep_codesBelow D d o) hstart hops
  obtain ⟨post, hlog, hpair, -⟩ := hend
  rwa [since, hlog, List.drop_left]

/-! ### A run with a power loss -/

/-- A record whose first code is for the counter value 7. -/
def countingOtpUri : Bytes := ascii "otpauth://hotp/label?secret=VMR466AB62ZBOKHE&counter=7"

/-- A device that knows this URI only, and the keyed hash of the counter values 7 and 9. -/
def countingOtpDevice : OtpDevice :=
  { sampleOtpDevice with
    httpParserParseUrl := fun uri =>
      if uri = countingOtpUri then
        some {
          schema := some ⟨0, 7⟩
          host := some ⟨10, 4⟩
          path := some ⟨14, 6⟩
          query := some ⟨21, 33⟩ }
      else none
    mdHmac := fun _ _ counter =>
      if counter = Bytes.ofNatBE 8 7 then
        some [1, 133, 132, 116, 233, 136, 54, 14, 156, 189, 88, 224, 176, 208, 200,
          58, 101, 22, 226, 224]
      else if counter = Bytes.ofNatBE 8 9 then
        some [150, 233, 139, 155, 233, 251, 62, 98, 218, 82, 232, 14, 236, 163, 157,
          141, 212, 46, 5, 171]
      else none }

/-- A device that holds the record. -/
def countingDevice : Dev OtpKey OtpRam OtpEvent :=
  { freshOtpDevice [1] with
    store := fun k => match k with
      | .otp n => if n = ascii "label" then some (List.replicate 16 0 ++ countingOtpUri) else none
      | .hotpCounter n => if n = ascii "label" then some (Bytes.ofNatLE 8 7) else none }

/-- A code for the host, one that the flash refuses, one whose commit is cut by a power loss after it
took effect, and one on the screen after the restart. -/
def countingRun : List (OtpOp × List Fate) :=
  [(.getCode (ascii "label") none 0 true, [.done]),
    (.getCode (ascii "label") none 0 true, [.refused]),
    (.getCode (ascii "label") none 0 true, [.cutAfter]),
    (.unlock [1], []),
    (.showCode (ascii "label") 0, [])]

/-- The value of the code that was cut off is skipped. -/
theorem storedCodes_increasing_countingRun :
    storedCodes (ascii "label")
        (since countingDevice (Run.run (otpStep countingOtpDevice) countingDevice countingRun)) =
      [7, 9] ∧
    (storedCodes (ascii "label")
      (since countingDevice
        (Run.run (otpStep countingOtpDevice) countingDevice countingRun))).Pairwise (· < ·) :=
  ⟨by decide +kernel, storedCodes_increasing countingOtpDevice (ascii "label") countingDevice
    countingRun (by decide +kernel)⟩

end Jade
