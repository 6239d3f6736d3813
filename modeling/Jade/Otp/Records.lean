/-
**The records of one-time passwords, and the codes made from them.**

A record is kept in two places of the flash: the encrypted URI, and for a counter-based one the
counter value that the next code is for.  A code is made by reading the record, taking the counter out
of the flash and writing the next one in its place, and only then computing the code.

A code that is put before the user leaves an event in the log, and so does a reply to the host.

Main definitions:

* `Jade.OtpKey`, `Jade.OtpEvent`, `Jade.OtpM` — the flash, the log, and the programs;
* `Jade.storageSetOtpData`, `Jade.storageGetOtpHotpCounter`, … — the functions of `storage.c`;
* `Jade.otpSaveUri`, `Jade.otpLoadUri`, `Jade.otpSetDefaultValue` — those of `otpauth.c`;
* `Jade.getOtpCode`, `Jade.showOtpCode` — the two ways to ask for a code;
* `Jade.hotpCounterOf` — the counter in the flash.

Main results:

* `Jade.sat_storageGetOtpHotpCounter` — reading the counter has no effect.
-/

import Jade.Lib.Flash
import Jade.Otp.Otpauth

set_option relaxedAutoImplicit false
set_option autoImplicit false

namespace Jade

open Exec Flash

/-! ### The flash -/

/-- The records of one name, in `OTP_NAMESPACE` and in `HOTP_COUNTERS_NAMESPACE`. -/
inductive OtpKey
  | otp (name : Bytes)
  | hotpCounter (name : Bytes)
  deriving DecidableEq

/-- Where the counter of a code comes from: the flash, the clock, or the host. -/
inductive CodeSource
  | stored
  | clock
  | host
  deriving DecidableEq, Repr

/-- What the log notes: a code shown to the user, and a reply to the host. -/
inductive OtpEvent
  | code (name : Bytes) (source : CodeSource) (counter : UInt64)
  | reply (ok : Bool)
  deriving DecidableEq

/-- What is kept in volatile memory: the seed of the wallet, empty when there is none. -/
structure OtpRam where
  seed : Bytes
  deriving DecidableEq

abbrev OtpM (α : Type) : Type := Prog OtpKey OtpRam OtpEvent α

/-- `storage_set_otp_data` -/
def storageSetOtpData (name data : Bytes) : OtpM Bool := do
  assert (!data.isEmpty)
  write (.otp name) data

/-- `storage_get_otp_data`, into a buffer of `len` bytes. -/
def storageGetOtpData (name : Bytes) (len : ℕ) : OtpM (Option Bytes) := do
  return (← read (.otp name)).filter (·.length ≤ len)

/-- `storage_set_otp_hotp_counter` -/
def storageSetOtpHotpCounter (name : Bytes) (counter : UInt64) : OtpM Bool :=
  write (.hotpCounter name) (Bytes.ofNatLE 8 counter.toNat)

/-- The counter that a flash holds for a name; one that is missing or malformed reads as zero. -/
def hotpCounterOf (st : Store OtpKey) (name : Bytes) : UInt64 :=
  match (st (.hotpCounter name)).filter (·.length = 8) with
  | some v => UInt64.ofNat (Bytes.toNatLE v)
  | none => 0

/-- `storage_get_otp_hotp_counter` -/
def storageGetOtpHotpCounter (name : Bytes) : OtpM UInt64 := do
  let counter ← read (.hotpCounter name)
  return match counter.filter (·.length = 8) with
    | some v => UInt64.ofNat (Bytes.toNatLE v)
    | none => 0

/-- `storage_erase_otp`: the counter goes first, and only the second result counts. -/
def storageEraseOtp (name : Bytes) : OtpM Bool := do
  let _ ← erase (.hotpCounter name)
  erase (.otp name)

/-! ### The URI -/

/-- A computation that may be cut short, as a step of the device. -/
def orRestart {α : Type} : Except Fault α → OtpM α
  | .ok a => pure a
  | .error _ => throw .assert

/-- `otp_save_uri`; the initialisation vector is an argument. -/
def otpSaveUri (P : OtpPrims) (name uri iv : Bytes) : OtpM Bool := do
  let r ← getRam
  if r.seed.isEmpty then return false
  else
    match P.aesEncryptBytes (P.otpKeyFromSeed r.seed) iv uri with
    | none => return false
    | some encrypted => storageSetOtpData name encrypted

/-- The longest encrypted URI: the vector and the padded text. -/
def OTP_MAX_ENCRYPTED_LEN : ℕ := 16 + (OTP_MAX_URI_LEN / 16 + 1) * 16

/-- `otp_load_uri` -/
def otpLoadUri (P : OtpPrims) (name : Bytes) : OtpM (Option Bytes) := do
  match ← storageGetOtpData name OTP_MAX_ENCRYPTED_LEN with
  | none => return none
  | some encrypted => do
      let r ← getRam
      if encrypted.isEmpty || r.seed.isEmpty then return none
      else return P.aesDecryptBytes (P.otpKeyFromSeed r.seed) encrypted OTP_MAX_URI_LEN

/-- The record of a name, read and parsed; `none` when there is none that is valid. -/
def otpLoadCtx (P : OtpPrims) (name : Bytes) : OtpM (Option OtpauthCtx) := do
  match ← otpLoadUri P name with
  | none => return none
  | some uri => if uri.isEmpty then return none else orRestart (otpUriToCtx P name uri)

/-! ### The code -/

/-- Check current timestamp is after Jan 01 2020. -/
def MIN_ALLOWED_CURRENT_TIMESTAMP : UInt64 := 1577836800

/-- `otp_set_default_value` at the time `time`: the context, with the source of its counter. -/
def otpSetDefaultValue (ctx : OtpauthCtx) (time : UInt64) : OtpM (Option (OtpauthCtx × CodeSource)) :=
  if ctx.otpType = .totp then
    if time < MIN_ALLOWED_CURRENT_TIMESTAMP then return none
    else return some (otpSetExplicitValue ctx time, .clock)
  else do
    let value ← storageGetOtpHotpCounter ctx.name
    if ← storageSetOtpHotpCounter ctx.name (value + 1) then
      return some (otpSetExplicitValue ctx value, .stored)
    else return none

/-- The code of a context, put before the user. -/
def displayOtp (P : OtpPrims) (ctx : OtpauthCtx) (source : CodeSource) : OtpM Bool :=
  match otpGetAuthCode P ctx with
  | none => return false
  | some _ => do
      note (.code ctx.name source ctx.counter)
      return true

/-- `get_otp_code_process`, once its name is known: `override` is the counter or the time that a debug
build takes from the host. -/
def getOtpCode (P : OtpPrims) (name : Bytes) (override : Option UInt64) (time : UInt64)
    (accepts : Bool) : OtpM PUnit := do
  match ← otpLoadCtx P name with
  | none => note (.reply false)
  | some ctx => do
      match ← otpSetDefaultValue ctx time with
      | none => note (.reply false)
      | some (ctx, source) => do
          let shown ← match override with
            | some value => displayOtp P (otpSetExplicitValue ctx value) .host
            | none => displayOtp P ctx source
          note (.reply (shown && accepts))

/-- `handle_view_otps` for the record selected, up to the screen of the code. -/
def showOtpCode (P : OtpPrims) (name : Bytes) (time : UInt64) : OtpM PUnit := do
  match ← otpLoadCtx P name with
  | none => return
  | some ctx => do
      match ← otpSetDefaultValue ctx time with
      | none => return
      | some (ctx, source) => do
          let _ ← displayOtp P ctx source

/-! ### What reading returns -/

section Rules

variable {E : Stop → Dev OtpKey OtpRam OtpEvent → Prop} {d : Dev OtpKey OtpRam OtpEvent}

@[simp] theorem sat_storageGetOtpHotpCounter {Q : UInt64 → Dev OtpKey OtpRam OtpEvent → Prop}
    (name : Bytes) :
    Sat (storageGetOtpHotpCounter name) Q E d ↔ Q (hotpCounterOf d.store name) d := by
  simp [storageGetOtpHotpCounter, hotpCounterOf]

@[simp] theorem sat_storageSetOtpHotpCounter {Q : Bool → Dev OtpKey OtpRam OtpEvent → Prop}
    (name : Bytes) (counter : UInt64) :
    Sat (storageSetOtpHotpCounter name counter) Q E d ↔
      Sat (commit (.hotpCounter name) (some (Bytes.ofNatLE 8 counter.toNat))) Q E d := Iff.rfl

@[simp] theorem sat_orRestart {α : Type} {Q : α → Dev OtpKey OtpRam OtpEvent → Prop}
    (x : Except Fault α) :
    Sat (orRestart x) Q E d ↔ (∀ a, x = .ok a → Q a d) ∧ ∀ f, x = .error f → E .assert d := by
  cases x <;> simp [orRestart]

end Rules

/-! ### What a commit does to the counter -/

@[simp] theorem hotpCounterOf_update (st : Store OtpKey) (name : Bytes) (counter : UInt64) :
    hotpCounterOf (Function.update st (.hotpCounter name)
      (some (Bytes.ofNatLE 8 counter.toNat))) name = counter := by
  have hlt : counter.toNat < 256 ^ 8 := counter.toNat_lt
  simp [hotpCounterOf, Option.filter, Bytes.toNatLE_ofNatLE_of_lt hlt]

theorem hotpCounterOf_update_of_ne (st : Store OtpKey) {k : OtpKey} {name : Bytes}
    (hk : k ≠ .hotpCounter name) (v : Option Bytes) :
    hotpCounterOf (Function.update st k v) name = hotpCounterOf st name := by
  simp [hotpCounterOf, Function.update_of_ne hk.symm]

end Jade
