/-
**Registering a one-time password (`register_otp.c`).**

A record comes in over the wire, from the keyboard, from a scanned code, or in a scan that could have
been anything.  Each way ends in the same helper, which checks the record, lets the user confirm it and
writes it to the flash, and each turns the helper's error code into an answer of its own kind.  Three of
the four turn it wrong: a user who declines makes two of them report success, the scan that could have
been anything reports success when it gives up before the helper, and a request to a device without a
seed is rejected and then carried out, and answered twice.  A request whose URI is a text with a length
of eight bytes restarts the device.

Main definitions:

* `Jade.OtpDevice`, `Jade.OtpUser` — what is called, and what the user does;
* `Jade.handleNewOtpUri` — the helper;
* `Jade.registerOtpProcess`, `Jade.registerOtpKbEntry`, `Jade.registerOtpQr`,
  `Jade.handleQrBytes` — the four ways;
* `Jade.Persisted` — a complete record was written in this run;
* `Jade.Requested` — the record that a request asks for.

Main results:

* `Jade.sat_handleNewOtpUri` — what the helper does;
* `Jade.registerOtp_truthful_iff` — **exactly when each of them reports the truth**.
-/

import Jade.Keychain.Storage
import Jade.Otp.Records
import Jade.Utils.CborSlices
import Jade.Utils.Handler

set_option relaxedAutoImplicit false
set_option autoImplicit false

namespace Jade

open Exec Flash

/-! ### The helper -/

/-- The libraries, and the number of entries that `nvs_entry_find` counts in `OTP_NAMESPACE`. -/
structure OtpDevice extends OtpPrims where
  otpCount : Store OtpKey → ℕ

/-- What is typed in one turn of the keyboard, and the answer to the question after it. -/
structure Typed where
  text : Bytes
  answer : Bool
  deriving DecidableEq

/-- The user: what is typed for the name and for the URI, the URI scanned, and the answer to the screen
that shows the record. -/
structure OtpUser where
  names : List Typed
  uris : List Typed
  scanned : Option Bytes
  confirms : Bool

section Model

variable (D : OtpDevice)

/-- What `validate_otp_name` objects to, given the flash. -/
def otpNameError (st : Store OtpKey) (name : Bytes) : Option String :=
  if !storageKeyNameValid name then some "OTP name invalid"
  else if (st (.otp name)).isNone && decide (OTP_MAX_RECORDS ≤ D.otpCount st) then
    some "Already have maximum number of otp records"
  else none

/-- `validate_otp_name`: an error message, or none. -/
def validateOtpName (name : Bytes) : OtpM (Option String) := do
  return otpNameError D (← get).store name

/-- The parts of `handle_new_otp_uri` after the user has confirmed. -/
def persistOtp (ctx : OtpauthCtx) (name uri iv : Bytes) : OtpM (Option (ℤ × String)) := do
  if !(← otpSaveUri D.toOtpPrims name uri iv) then
    return some (CBOR_RPC_INTERNAL_ERROR, "Failed to persist otp details")
  else if ctx.otpType = .hotp then
    if ← storageSetOtpHotpCounter name ctx.counter then return none
    else do
      let _ ← storageEraseOtp name
      return some (CBOR_RPC_INTERNAL_ERROR, "Failed to persist otp counter")
  else return none

/-- `handle_new_otp_uri`: an error code with its message, or none. -/
def handleNewOtpUri (name uri iv : Bytes) (confirms : Bool) : OtpM (Option (ℤ × String)) := do
  match ← validateOtpName D name with
  | some errmsg => return some (CBOR_RPC_BAD_PARAMETERS, errmsg)
  | none => do
      match ← orRestart (otpUriToCtx D.toOtpPrims name uri) with
      | none => return some (CBOR_RPC_BAD_PARAMETERS, "Failed to parse otp record")
      | some ctx =>
          if (otpGetAuthCode D.toOtpPrims ctx).isNone then
            return some (CBOR_RPC_BAD_PARAMETERS, "Failed to calculate otp token")
          else if !confirms then
            return some (CBOR_RPC_USER_CANCELLED, "User declined OTP record")
          else persistOtp D ctx name uri iv

/-! ### The four ways -/

/-- The check for a seed in `register_otp_process`: it rejects, and does not return. -/
def rejectWithoutSeed : OtpM PUnit := do
  let r ← getRam
  if r.seed.isEmpty then note (.reply false) else pure ⟨⟩

/-- `register_otp_process` for its message, on a device that is unlocked; a name or a URI that is not
there is empty. -/
def registerOtpProcess {V : Type} (C : TinyCborBytes V) (value : V) (iv : Bytes) (confirms : Bool) :
    OtpM PUnit := do
  orRestart (getter (assertCurrentMessage C.toTinyCborStrings value (ascii "register_otp")))
  match getMsgParams C.toTinyCborStrings value with
  | none => note (.reply false)
  | some params => do
      let name ← orRestart (getter (rpcGetString C.toTinyCborValues "name" OTP_MAX_NAME_LEN params))
      if name.isEmpty || !storageKeyNameValid (Bytes.cstr name) then note (.reply false)
      else do
        -- the text of a URI whose length takes eight bytes restarts the device
        let uri ← orRestart (getter (rpcGetStringPtr C.toTinyCbor "uri" params))
        if (uri.getD []).isEmpty then note (.reply false)
        else do
          rejectWithoutSeed
          let err ← handleNewOtpUri D (Bytes.cstr name) (uri.getD []) iv confirms
          note (.reply err.isNone)

/-- The name loop of `get_otp_data_from_kb`; a user who does not come to an end turns the device off. -/
def enterOtpName : List Typed → OtpM (Option Bytes)
  | [] => throw .power
  | t :: ts => do
      assert (decide (t.text.length < OTP_MAX_NAME_LEN))
      if t.text.isEmpty then
        if t.answer then return none else enterOtpName ts
      else do
        let errmsg ← validateOtpName D t.text
        if errmsg.isSome then enterOtpName ts
        else if t.answer then return some t.text
        else enterOtpName ts

/-- The URI loop of `get_otp_data_from_kb`. -/
def enterOtpUri (name : Bytes) : List Typed → OtpM (Option Bytes)
  | [] => throw .power
  | t :: ts => do
      assert (decide (t.text.length < OTP_MAX_URI_LEN))
      if t.text.isEmpty then return none
      else do
        let ctx ← orRestart (otpUriToCtx D.toOtpPrims name t.text)
        if ctx.isSome then return some t.text
        else if t.answer then enterOtpUri name ts
        else return none

/-- `get_otp_data_from_kb` for name and URI. -/
def getOtpDataFromKb (user : OtpUser) : OtpM (Option (Bytes × Bytes)) := do
  match ← enterOtpName D user.names with
  | none => return none
  | some name => do
      match ← enterOtpUri D name user.uris with
      | none => return none
      | some uri => return some (name, uri)

/-- How `register_otp_kb_entry` and `register_otp_qr` read the helper's answer. -/
def unlessFailed (err : Option (ℤ × String)) : Bool :=
  match err with
  | none => true
  | some (code, _) => code == CBOR_RPC_USER_CANCELLED

/-- `register_otp_kb_entry` -/
def registerOtpKbEntry (user : OtpUser) (iv : Bytes) : OtpM Bool := do
  -- a device without a seed shows an error here, and goes on
  match ← getOtpDataFromKb D user with
  | none => return false
  | some (name, uri) => do
      let err ← handleNewOtpUri D name uri iv user.confirms
      return unlessFailed err

/-- `register_otp_qr`; the scan only ends with a URI that `validate_scanned_otp_uri` lets through. -/
def registerOtpQr (user : OtpUser) (iv : Bytes) : OtpM Bool := do
  let r ← getRam
  if r.seed.isEmpty then return false
  else
    match user.scanned with
    | none => return false
    | some uri =>
        if uri.isEmpty then return false
        else do
          match ← enterOtpName D user.names with
          | none => return false
          | some name => do
              let err ← handleNewOtpUri D name uri iv user.confirms
              return unlessFailed err

/-- `register_otp_string`: the error code of the helper becomes a `bool`. -/
def registerOtpString (uri : Bytes) (user : OtpUser) (iv : Bytes) : OtpM Bool := do
  match ← orRestart (otpUriToCtx D.toOtpPrims (ascii "otp_string") uri) with
  | none => return false
  | some _ => do
      let r ← getRam
      if r.seed.isEmpty then return false
      else do
        match ← enterOtpName D user.names with
        | none => return false
        | some name => do
            let err ← handleNewOtpUri D name uri iv user.confirms
            return err.isSome

/-- The bytes start like the text, whatever the case of the letters. -/
def startsWithNoCase (bs text : Bytes) : Bool :=
  (bs.take text.length).map toLower == text.map toLower

/-- The test for a message to sign. -/
def looksLikeSignMessage (bytes : Bytes) : Bool :=
  decide (12 < bytes.length) && startsWithNoCase bytes (ascii "signmessage")

/-- The test for the URI of a one-time password. -/
def looksLikeOtp (bytes : Bytes) : Bool :=
  decide (11 < bytes.length) && startsWithNoCase bytes OTP_SCHEMA_FULL

/-- `handle_qr_bytes`: the result of `register_otp_string` is taken for an error code.  What is done
with other scans is a parameter. -/
def handleQrBytes (other : OtpM Bool) (bytes : Bytes) (user : OtpUser) (iv : Bytes) : OtpM Bool :=
  if looksLikeSignMessage bytes then other
  else if looksLikeOtp bytes then do
    let errcode ← registerOtpString D bytes user iv
    return !errcode
  else other

/-! ### What is persisted -/

/-- What has been logged since `d`. -/
def since (d d' : Dev OtpKey OtpRam OtpEvent) : List (Entry OtpKey OtpEvent) :=
  d'.log.drop d.log.length

/-- **A complete record was written in this run** and is in the flash at its end: the encrypted URI, and
the counter if there is one. -/
def Persisted (name uri iv : Bytes) (d d' : Dev OtpKey OtpRam OtpEvent) : Prop :=
  ∃ ctx encrypted, otpUriToCtx D.toOtpPrims name uri = .ok (some ctx) ∧
    D.aesEncryptBytes (D.otpKeyFromSeed d.ram.seed) iv uri = some encrypted ∧
    .wrote (.otp name) (some encrypted) ∈ since d d' ∧
    d'.store (.otp name) = some encrypted ∧
    (ctx.otpType = .hotp →
      .wrote (.hotpCounter name) (some (Bytes.ofNatLE 8 ctx.counter.toNat)) ∈ since d d' ∧
      d'.store (.hotpCounter name) = some (Bytes.ofNatLE 8 ctx.counter.toNat))

/-- The program has only written, and has told the host nothing. -/
structure OnlyWrites (d d' : Dev OtpKey OtpRam OtpEvent) : Prop where
  ram : d'.ram = d.ram
  log : d'.log = d.log ++ since d d'
  writes : ∀ e ∈ since d d', ∃ k v, e = .wrote k v

theorem onlyWrites_of_log {d d' : Dev OtpKey OtpRam OtpEvent}
    {log : List (Entry OtpKey OtpEvent)} (hram : d'.ram = d.ram) (hlog : d'.log = d.log ++ log)
    (hwrites : ∀ e ∈ log, ∃ k v, e = .wrote k v) : OnlyWrites d d' ∧ since d d' = log := by
  have hsince : since d d' = log := by rw [since, hlog, List.drop_left]
  exact ⟨⟨hram, by rw [hsince, hlog], by rw [hsince]; exact hwrites⟩, hsince⟩

/-- The record gets as far as the screen on which the user confirms it. -/
def Confirming (st : Store OtpKey) (name uri : Bytes) : Prop :=
  otpNameError D st name = none ∧
    ∃ ctx, otpUriToCtx D.toOtpPrims name uri = .ok (some ctx) ∧
      (otpGetAuthCode D.toOtpPrims ctx).isSome

/-- The record gets there, and the user declines it. -/
def Declined (st : Store OtpKey) (name uri : Bytes) (confirms : Bool) : Prop :=
  Confirming D st name uri ∧ confirms = false

/-- The helper comes to a halt at the record: its counter is one digit too long for the buffer it is
copied to. -/
def Halting (st : Store OtpKey) (name uri : Bytes) : Prop :=
  otpNameError D st name = none ∧ ∃ f, otpUriToCtx D.toOtpPrims name uri = .error f

/-- Nothing is persisted without a valid record. -/
theorem not_persisted_of_log {name uri iv : Bytes} {d d' : Dev OtpKey OtpRam OtpEvent}
    (hlog : d'.log = d.log) : ¬ Persisted D name uri iv d d' := by
  rintro ⟨_, _, -, -, hmem, -⟩
  simp [since, hlog] at hmem

section Helper

variable (haes : ∀ key iv text encrypted,
  D.aesEncryptBytes key iv text = some encrypted → encrypted ≠ [])

include haes

/-- Saving the URI writes it, or does nothing. -/
theorem sat_otpSaveUri (name uri iv : Bytes) (d : Dev OtpKey OtpRam OtpEvent) :
    Sat (otpSaveUri D.toOtpPrims name uri iv)
      (fun ok d' => d'.ram = d.ram ∧
        (ok = false → d'.store = d.store ∧ d'.log = d.log) ∧
        (ok = true → d.ram.seed ≠ [] ∧ ∃ encrypted,
          D.aesEncryptBytes (D.otpKeyFromSeed d.ram.seed) iv uri = some encrypted ∧
          d'.store = Function.update d.store (.otp name) (some encrypted) ∧
          d'.log = d.log ++ [.wrote (.otp name) (some encrypted)]))
      (fun stop _ => stop = .power ∧ d.ram.seed ≠ []) d := by
  simp only [otpSaveUri, sat_bind, sat_getRam, sat_ite]
  refine ⟨fun _ => (sat_pure _).2 ⟨rfl, fun _ => ⟨rfl, rfl⟩, fun h => by simp at h⟩, fun hseed => ?_⟩
  cases hencrypt : D.aesEncryptBytes (D.otpKeyFromSeed d.ram.seed) iv uri with
  | none => exact (sat_pure _).2 ⟨rfl, fun _ => ⟨rfl, rfl⟩, fun h => by simp at h⟩
  | some encrypted =>
      simp only [storageSetOtpData, sat_bind, sat_assert]
      refine ⟨fun _ => ?_, fun hempty => absurd hempty ?_⟩
      swap
      · simpa using haes _ _ _ _ hencrypt
      refine (sat_commit_result _ _).mono ?_ (fun _ _ h => ⟨h, by simpa using hseed⟩)
      rintro ok d' ⟨hram, hdone, hrefused⟩
      exact ⟨hram, hrefused, fun hok => ⟨by simpa using hseed, encrypted, rfl, hdone hok⟩⟩

omit haes in
/-- Erasing a record writes nothing else. -/
theorem sat_storageEraseOtp (name : Bytes) (d : Dev OtpKey OtpRam OtpEvent) :
    Sat (storageEraseOtp name)
      (fun _ d' => d'.ram = d.ram ∧ ∃ log, d'.log = d.log ++ log ∧
        ∀ e ∈ log, ∃ k, e = .wrote k none)
      (fun stop _ => stop = .power) d := by
  -- each of the two commits takes effect or does not
  have hcommit : ∀ k (d : Dev OtpKey OtpRam OtpEvent), Sat (erase k)
      (fun _ d' => d'.ram = d.ram ∧ ∃ log, d'.log = d.log ++ log ∧
        ∀ e ∈ log, ∃ k, e = .wrote k none) (fun stop _ => stop = .power) d := by
    intro k d
    refine (sat_commit_result k none).mono ?_ (fun _ _ h => h)
    rintro ok d' ⟨hram, hdone, hrefused⟩
    cases ok with
    | true => exact ⟨hram, [.wrote k none], (hdone rfl).2, by simp⟩
    | false => exact ⟨hram, [], by rw [(hrefused rfl).2, List.append_nil], by simp⟩
  simp only [storageEraseOtp, sat_bind]
  refine (hcommit _ d).mono ?_ (fun _ _ h => h)
  rintro _ d₁ ⟨hram₁, log₁, hlog₁, hnone₁⟩
  refine (hcommit _ d₁).mono ?_ (fun _ _ h => h)
  rintro _ d₂ ⟨hram₂, log₂, hlog₂, hnone₂⟩
  refine ⟨hram₂.trans hram₁, log₁ ++ log₂, by rw [hlog₂, hlog₁, List.append_assoc], ?_⟩
  intro e he
  rcases List.mem_append.1 he with he | he
  · exact hnone₁ e he
  · exact hnone₂ e he

/-- **Once the user has confirmed**, the helper returns no error exactly when the record is complete. -/
theorem sat_persistOtp {ctx : OtpauthCtx} {name uri : Bytes} (iv : Bytes)
    (hctx : otpUriToCtx D.toOtpPrims name uri = .ok (some ctx)) (d : Dev OtpKey OtpRam OtpEvent) :
    Sat (persistOtp D ctx name uri iv)
      (fun r d' => OnlyWrites d d' ∧ (r = none ↔ Persisted D name uri iv d d') ∧
        ∀ code errmsg, r = some (code, errmsg) → code = CBOR_RPC_INTERNAL_ERROR)
      (fun stop _ => stop = .power ∧ d.ram.seed ≠ []) d := by
  have hctx' : ∀ ctx', otpUriToCtx D.toOtpPrims name uri = .ok (some ctx') → ctx' = ctx := by
    intro ctx' h
    rw [hctx] at h
    simpa using h.symm
  simp only [persistOtp, sat_bind]
  refine (sat_otpSaveUri D haes name uri iv d).mono ?_ (fun _ _ h => h)
  rintro saved d₁ ⟨hram₁, hfailed, hsaved⟩
  cases saved with
  | false =>
      obtain ⟨hwrites, hsince⟩ := onlyWrites_of_log hram₁
        (show d₁.log = d.log ++ [] by rw [(hfailed rfl).2, List.append_nil]) (by simp)
      refine (sat_ite.2 ⟨fun _ => (sat_pure _).2 ⟨hwrites, ?_, ?_⟩, fun h => by simp at h⟩)
      · constructor
        · intro h
          simp at h
        · rintro ⟨_, _, -, -, hmem, -⟩
          simp [hsince] at hmem
      · intro code errmsg h
        simp only [Option.some.injEq, Prod.mk.injEq] at h
        exact h.1.symm
  | true =>
      obtain ⟨hseed, encrypted, hencrypt, hstore₁, hlog₁⟩ := hsaved rfl
      refine sat_ite.2 ⟨fun h => by simp at h, fun _ => sat_ite.2 ⟨fun hhotp => ?_, fun htotp => ?_⟩⟩
      · simp only [sat_bind, sat_storageSetOtpHotpCounter]
        refine (sat_commit_result _ _).mono ?_ (fun _ _ h => ⟨h, hseed⟩)
        rintro counted d₂ ⟨hram₂, hdone, hrefused⟩
        cases counted with
        | true =>
            obtain ⟨hstore₂, hlog₂⟩ := hdone rfl
            obtain ⟨hwrites, hsince⟩ := onlyWrites_of_log (hram₂.trans hram₁)
              (show d₂.log = d.log ++ [.wrote (.otp name) (some encrypted),
                .wrote (.hotpCounter name) (some (Bytes.ofNatLE 8 ctx.counter.toNat))] by
                rw [hlog₂, hlog₁, List.append_assoc]; rfl) (by simp)
            refine (sat_ite.2 ⟨fun _ => (sat_pure _).2 ⟨hwrites, ?_, by simp⟩,
              fun h => absurd rfl h⟩)
            refine ⟨fun _ => ⟨ctx, encrypted, hctx, hencrypt, by simp [hsince], ?_, fun _ => ?_⟩,
              fun _ => rfl⟩
            · rw [hstore₂, Function.update_of_ne (by simp), hstore₁, Function.update_self]
            · exact ⟨by simp [hsince], by rw [hstore₂, Function.update_self]⟩
        | false =>
            refine sat_ite.2 ⟨fun h => by simp at h, fun _ => ?_⟩
            simp only [sat_bind]
            refine (sat_storageEraseOtp name d₂).mono ?_ (fun _ _ h => ⟨h, hseed⟩)
            rintro _ d₃ ⟨hram₃, log, hlog₃, hnone⟩
            obtain ⟨hwrites, hsince⟩ := onlyWrites_of_log
              (hram₃.trans (hram₂.trans hram₁))
              (show d₃.log = d.log ++ .wrote (.otp name) (some encrypted) :: log by
                rw [hlog₃, (hrefused rfl).2, hlog₁, List.append_assoc]; rfl)
              (by
                intro e he
                rcases List.mem_cons.1 he with rfl | he
                · exact ⟨_, _, rfl⟩
                · obtain ⟨k, rfl⟩ := hnone e he
                  exact ⟨k, none, rfl⟩)
            refine (sat_pure _).2 ⟨hwrites, ?_, ?_⟩
            · constructor
              · intro h
                simp at h
              · rintro ⟨ctx', _, hparse, -, -, -, hcounter⟩
                obtain rfl := hctx' ctx' hparse
                have hmem := (hcounter hhotp).1
                rw [hsince] at hmem
                rcases List.mem_cons.1 hmem with h | h
                · simp at h
                · obtain ⟨k, hk⟩ := hnone _ h
                  simp at hk
            · intro code errmsg h
              simp only [Option.some.injEq, Prod.mk.injEq] at h
              exact h.1.symm
      · obtain ⟨hwrites, hsince⟩ := onlyWrites_of_log hram₁ hlog₁ (by simp)
        refine (sat_pure _).2 ⟨hwrites, ?_, by simp⟩
        refine ⟨fun _ => ⟨ctx, encrypted, hctx, hencrypt, by simp [hsince], ?_, fun h => ?_⟩,
          fun _ => rfl⟩
        · rw [hstore₁, Function.update_self]
        · exact absurd h htotp

/-- **The helper**: it returns no error exactly when the record is complete, the code of a user who
declines exactly when the user does, and it returns unless the record halts it. -/
theorem sat_handleNewOtpUri (name uri iv : Bytes) (confirms : Bool)
    (d : Dev OtpKey OtpRam OtpEvent) :
    Sat (handleNewOtpUri D name uri iv confirms)
      (fun r d' => OnlyWrites d d' ∧ ¬ Halting D d.store name uri ∧
        (r = none ↔ Persisted D name uri iv d d') ∧
        ((∃ errmsg, r = some (CBOR_RPC_USER_CANCELLED, errmsg)) ↔
          Declined D d.store name uri confirms))
      (fun stop d' => ¬ Declined D d.store name uri confirms ∧
        (stop = .power ∧ d.ram.seed ≠ [] ∧ ¬ Halting D d.store name uri ∨
          stop = .assert ∧ d' = d ∧ Halting D d.store name uri)) d := by
  have hsame : OnlyWrites d d := (onlyWrites_of_log rfl (List.append_nil _).symm (by simp)).1
  have hnot : ¬ Persisted D name uri iv d d := not_persisted_of_log D rfl
  simp only [handleNewOtpUri, validateOtpName, sat_bind, sat_get, sat_pure]
  cases hname : otpNameError D d.store name with
  | some errmsg =>
      have hhalt : ¬ Halting D d.store name uri := by
        rintro ⟨h, -⟩
        simp [hname] at h
      have hdecl : ¬ Declined D d.store name uri confirms := by
        rintro ⟨⟨h, -⟩, -⟩
        simp [hname] at h
      refine (sat_pure _).2 ⟨hsame, hhalt, ?_, ?_⟩
      · simpa using hnot
      · simpa [CBOR_RPC_BAD_PARAMETERS, CBOR_RPC_USER_CANCELLED] using hdecl
  | none =>
      simp only [sat_bind, sat_orRestart]
      refine ⟨fun parsed hparsed => ?_, fun f hf => ⟨?_, .inr ⟨trivial, trivial, hname, f, hf⟩⟩⟩
      swap
      · rintro ⟨⟨-, ctx, hctx, -⟩, -⟩
        simp [hf] at hctx
      have hhalt : ¬ Halting D d.store name uri := by
        rintro ⟨-, f, hf⟩
        simp [hparsed] at hf
      cases parsed with
      | none =>
          have hdecl : ¬ Declined D d.store name uri confirms := by
            rintro ⟨⟨-, ctx, hctx, -⟩, -⟩
            simp [hparsed] at hctx
          refine (sat_pure _).2 ⟨hsame, hhalt, ?_, ?_⟩
          · simpa using hnot
          · simpa [CBOR_RPC_BAD_PARAMETERS, CBOR_RPC_USER_CANCELLED] using hdecl
      | some ctx =>
          refine sat_ite.2 ⟨fun hnone => ?_, fun hsome => ?_⟩
          · have hdecl : ¬ Declined D d.store name uri confirms := by
              rintro ⟨⟨-, ctx', hctx', hcode⟩, -⟩
              obtain rfl : ctx = ctx' := by simpa [hparsed] using hctx'
              simp [Option.isNone_iff_eq_none.1 hnone] at hcode
            refine (sat_pure _).2 ⟨hsame, hhalt, ?_, ?_⟩
            · simpa using hnot
            · simpa [CBOR_RPC_BAD_PARAMETERS, CBOR_RPC_USER_CANCELLED] using hdecl
          · have hconf : Confirming D d.store name uri :=
              ⟨hname, ctx, hparsed, by simpa [Option.isSome_iff_ne_none] using hsome⟩
            refine sat_ite.2 ⟨fun hno => (sat_pure _).2 ⟨hsame, hhalt, ?_, ?_⟩, fun hyes => ?_⟩
            · simpa using hnot
            · exact ⟨fun _ => ⟨hconf, by simpa using hno⟩, fun _ => ⟨_, rfl⟩⟩
            · have hdecl : ¬ Declined D d.store name uri confirms := by
                rintro ⟨-, h⟩
                simp [h] at hyes
              refine (sat_persistOtp D haes iv hparsed d).mono ?_
                (fun _ _ h => ⟨hdecl, .inl ⟨h.1, h.2, hhalt⟩⟩)
              rintro r d' ⟨hwrites, hpersisted, hcode⟩
              refine ⟨hwrites, hhalt, hpersisted, ?_⟩
              constructor
              · rintro ⟨errmsg, h⟩
                exact absurd (hcode _ errmsg h) (by decide)
              · intro h
                exact absurd h hdecl

/-- Reading the helper's answer as the keyboard and the scan do is right unless the user declined. -/
theorem sat_unlessFailed_iff (name uri iv : Bytes) (confirms : Bool)
    (d : Dev OtpKey OtpRam OtpEvent) :
    Sat (handleNewOtpUri D name uri iv confirms)
      (fun err d' => unlessFailed err = true ↔ Persisted D name uri iv d d') (fun _ _ => True) d ↔
      ¬ Declined D d.store name uri confirms := by
  have hhelper := sat_handleNewOtpUri D haes name uri iv confirms d
  rw [sat_iff] at hhelper ⊢
  cases hrun : (handleNewOtpUri D name uri iv confirms).run d with
  | error stop d' =>
      rw [hrun] at hhelper
      exact ⟨fun _ => hhelper.1, fun _ => trivial⟩
  | ok r d' =>
      rw [hrun] at hhelper
      obtain ⟨-, -, hnone, hcancelled⟩ := hhelper
      change (unlessFailed r = true ↔ Persisted D name uri iv d d') ↔ _
      rw [← hnone, ← hcancelled]
      cases r with
      | none => simp [unlessFailed]
      | some err => simp [unlessFailed, Prod.ext_iff]

/-! ### What the user enters -/

omit haes in
theorem keeps_validateOtpName (I : Dev OtpKey OtpRam OtpEvent → Prop) (name : Bytes) :
    Keeps I (validateOtpName D name) := Keeps.get.bind fun _ => Keeps.pure _

omit haes in
/-- Entering a name changes nothing. -/
theorem keeps_enterOtpName (I : Dev OtpKey OtpRam OtpEvent → Prop) (ts : List Typed) :
    Keeps I (enterOtpName D ts) := by
  induction ts with
  | nil => exact Keeps.throw _
  | cons t ts ih =>
      refine (keeps_assert _).bind fun _ => Keeps.ite (Keeps.ite (Keeps.pure _) ih) ?_
      refine (keeps_validateOtpName D I t.text).bind fun errmsg => ?_
      exact Keeps.ite ih (Keeps.ite (Keeps.pure _) ih)

omit haes in
/-- Entering a URI changes nothing. -/
theorem keeps_enterOtpUri (I : Dev OtpKey OtpRam OtpEvent → Prop) (name : Bytes)
    (ts : List Typed) : Keeps I (enterOtpUri D name ts) := by
  induction ts with
  | nil => exact Keeps.throw _
  | cons t ts ih =>
      refine (keeps_assert _).bind fun _ => Keeps.ite (Keeps.pure _) ?_
      refine Keeps.bind ?_ fun ctx => Keeps.ite (Keeps.pure _) (Keeps.ite ih (Keeps.pure _))
      intro d hd
      exact (sat_orRestart _).2 ⟨fun _ _ => hd, fun _ _ => hd⟩

omit haes in
theorem keeps_getOtpDataFromKb (I : Dev OtpKey OtpRam OtpEvent → Prop) (user : OtpUser) :
    Keeps I (getOtpDataFromKb D user) := by
  refine (keeps_enterOtpName D I user.names).bind fun name => ?_
  cases name with
  | none => exact Keeps.pure _
  | some name =>
      refine (keeps_enterOtpUri D I name user.uris).bind fun uri => ?_
      cases uri with
      | none => exact Keeps.pure _
      | some uri => exact Keeps.pure _

/-- The user has entered a name. -/
def NameEntered (user : OtpUser) (d : Dev OtpKey OtpRam OtpEvent) (name : Bytes) : Prop :=
  (enterOtpName D user.names).run d = .ok (some name) d

/-- The user has entered a name and a URI. -/
def RecordEntered (user : OtpUser) (d : Dev OtpKey OtpRam OtpEvent) (name uri : Bytes) : Prop :=
  (getOtpDataFromKb D user).run d = .ok (some (name, uri)) d

/-- The user has given up entering a name. -/
def NameAbandoned (user : OtpUser) (d : Dev OtpKey OtpRam OtpEvent) : Prop :=
  (enterOtpName D user.names).run d = .ok none d

/-! ### From the screen -/

/-- A record typed in is reported truthfully unless the user declined it. -/
theorem sat_registerOtpKbEntry_iff (user : OtpUser) (iv : Bytes)
    (d : Dev OtpKey OtpRam OtpEvent) :
    Sat (registerOtpKbEntry D user iv)
      (fun r d' => r = true ↔
        ∃ name uri, RecordEntered D user d name uri ∧ Persisted D name uri iv d d')
      (fun _ _ => True) d ↔
      ¬ ∃ name uri, RecordEntered D user d name uri ∧
        Declined D d.store name uri user.confirms := by
  unfold registerOtpKbEntry RecordEntered
  cases hrun : (getOtpDataFromKb D user).run d with
  | error e d' => simp [sat_bind_of_error hrun]
  | ok entered d' =>
      obtain rfl : d' = d := Keeps.eq_of_run (fun I => keeps_getOtpDataFromKb D I user) hrun
      rw [sat_bind_of_ok hrun]
      cases entered with
      | none => simp
      | some record =>
          obtain ⟨name, uri⟩ := record
          simp only [sat_bind, sat_pure, EStateM.Result.ok.injEq, Option.some.injEq, Prod.mk.injEq,
            and_true, and_assoc, exists_and_left, exists_eq_left']
          exact sat_unlessFailed_iff D haes name uri iv user.confirms d'

/-- A record scanned is reported truthfully unless the user declined it. -/
theorem sat_registerOtpQr_iff (user : OtpUser) (iv : Bytes) (d : Dev OtpKey OtpRam OtpEvent) :
    Sat (registerOtpQr D user iv)
      (fun r d' => r = true ↔ ∃ name uri, user.scanned = some uri ∧ NameEntered D user d name ∧
        Persisted D name uri iv d d')
      (fun _ _ => True) d ↔
      ¬ ∃ name uri, d.ram.seed ≠ [] ∧ user.scanned = some uri ∧ uri ≠ [] ∧
        NameEntered D user d name ∧ Declined D d.store name uri user.confirms := by
  unfold registerOtpQr NameEntered
  simp only [sat_bind, sat_getRam]
  by_cases hseed : d.ram.seed = []
  · -- nothing is written without a seed
    simp only [hseed, List.isEmpty_nil, if_true, sat_pure]
    have hnot : ∀ name uri, ¬ Persisted D name uri iv d d :=
      fun name uri => not_persisted_of_log D rfl
    simp [hnot]
  · rw [if_neg (by simpa using hseed)]
    cases hscan : user.scanned with
    | none => simp
    | some uri =>
        by_cases huri : uri = []
        · have hnot : ∀ name, ¬ Persisted D name uri iv d d := fun name => not_persisted_of_log D rfl
          subst huri
          simp [hnot]
        · simp only [List.isEmpty_iff, huri, if_false]
          cases hrun : (enterOtpName D user.names).run d with
          | error e d' => simp [sat_bind_of_error hrun]
          | ok entered d' =>
              obtain rfl : d' = d := Keeps.eq_of_run (fun I => keeps_enterOtpName D I _) hrun
              rw [sat_bind_of_ok hrun]
              cases entered with
              | none => simp
              | some name =>
                  simp only [sat_bind, sat_pure, EStateM.Result.ok.injEq, Option.some.injEq,
                    and_true, exists_eq_left', ne_eq, hseed, huri, not_false_eq_true, true_and]
                  exact sat_unlessFailed_iff D haes name uri iv user.confirms d'

/-- A scan that could have been anything is reported truthfully unless it is given up before the
helper. -/
theorem sat_registerOtpString_iff (uri iv : Bytes) (user : OtpUser)
    (d : Dev OtpKey OtpRam OtpEvent) :
    Sat (registerOtpString D uri user iv)
      (fun errcode d' => (!errcode) = true ↔
        ∃ name, NameEntered D user d name ∧ Persisted D name uri iv d d')
      (fun _ _ => True) d ↔
      ¬ (otpUriToCtx D.toOtpPrims (ascii "otp_string") uri = .ok none ∨
        (∃ ctx, otpUriToCtx D.toOtpPrims (ascii "otp_string") uri = .ok (some ctx)) ∧
          (d.ram.seed = [] ∨ NameAbandoned D user d)) := by
  unfold registerOtpString NameEntered NameAbandoned
  have hnot : ∀ name, ¬ Persisted D name uri iv d d := fun name => not_persisted_of_log D rfl
  simp only [sat_bind, sat_orRestart]
  cases hparse : otpUriToCtx D.toOtpPrims (ascii "otp_string") uri with
  | error f => simp
  | ok parsed =>
      cases parsed with
      | none => simp [hnot]
      | some ctx =>
          by_cases hseed : d.ram.seed = []
          · simp [hseed, hnot]
          · simp only [Except.ok.injEq, forall_eq', sat_bind, sat_getRam, List.isEmpty_iff, hseed,
              if_false]
            cases hrun : (enterOtpName D user.names).run d with
            | error e d' => simp [← sat_bind, sat_bind_of_error hrun]
            | ok entered d' =>
                obtain rfl : d' = d := Keeps.eq_of_run (fun I => keeps_enterOtpName D I _) hrun
                rw [← sat_bind, sat_bind_of_ok hrun]
                cases entered with
                | none => simp
                | some name =>
                    -- the helper was reached, and whatever it says is turned the right way round
                    simp only [sat_bind, sat_pure, EStateM.Result.ok.injEq, Option.some.injEq,
                      and_true, exists_eq_left', reduceCtorEq, implies_true, false_or, and_false,
                      not_false_eq_true, iff_true]
                    refine (sat_handleNewOtpUri D haes name uri iv user.confirms d').mono ?_
                      (fun _ _ _ => trivial)
                    rintro err d₁ ⟨-, -, hnone, -⟩
                    rw [← hnone]
                    cases err with
                    | none => simp
                    | some err => simp

/-! ### Over the wire -/

/-- The replies sent since `d`. -/
def replies (d d' : Dev OtpKey OtpRam OtpEvent) : List Bool :=
  (since d d').filterMap fun e => match e with
    | .event (.reply ok) => some ok
    | _ => none

/-- The request has had one reply, which says whether its record is persisted. -/
def AnsweredOnce (record : Bytes → Bytes → Prop) (iv : Bytes)
    (d d' : Dev OtpKey OtpRam OtpEvent) : Prop :=
  ∃ ok, replies d d' = [ok] ∧
    (ok = true ↔ ∃ name uri, record name uri ∧ Persisted D name uri iv d d')

omit haes in
/-- The replies of a program that sends one when it has written. -/
theorem replies_note {d d' : Dev OtpKey OtpRam OtpEvent} (h : OnlyWrites d d') (ok : Bool) :
    replies d { d' with log := d'.log ++ [.event (.reply ok)] } = [ok] := by
  have hnone : (since d d').filterMap (fun e => match e with
      | .event (.reply ok) => some ok
      | _ => none) = [] := by
    rw [List.filterMap_eq_nil_iff]
    intro e he
    obtain ⟨k, v, rfl⟩ := h.writes e he
    rfl
  have hsince : since d { d' with log := d'.log ++ [.event (.reply ok)] } =
      since d d' ++ [.event (.reply ok)] := by
    simp only [since]
    rw [h.log, List.append_assoc, List.drop_left, List.drop_left]
  rw [replies, hsince, List.filterMap_append, hnone]
  rfl

omit haes in
/-- A reply does not persist anything. -/
theorem persisted_note_iff {d d' : Dev OtpKey OtpRam OtpEvent} (h : OnlyWrites d d')
    (name uri iv : Bytes) (ok : Bool) :
    Persisted D name uri iv d { d' with log := d'.log ++ [.event (.reply ok)] } ↔
      Persisted D name uri iv d d' := by
  have hsince : since d { d' with log := d'.log ++ [.event (.reply ok)] } =
      since d d' ++ [.event (.reply ok)] := by
    simp only [since]
    rw [h.log, List.append_assoc, List.drop_left, List.drop_left]
  simp [Persisted, hsince]

omit haes in
/-- A rejected request is answered once, when it has no parameters to persist or they are wrong. -/
theorem answeredOnce_reject (record : Bytes → Bytes → Prop) (iv : Bytes)
    (d : Dev OtpKey OtpRam OtpEvent) :
    AnsweredOnce D record iv d { d with log := d.log ++ [.event (.reply false)] } := by
  have hsame : OnlyWrites d d := (onlyWrites_of_log rfl (List.append_nil _).symm (by simp)).1
  refine ⟨false, replies_note hsame false, ?_⟩
  simp only [persisted_note_iff D hsame]
  have hnot : ∀ name uri, ¬ Persisted D name uri iv d d :=
    fun name uri => not_persisted_of_log D rfl
  simp [hnot]

/-- A device without a seed that goes on after its rejection halts or replies again. -/
theorem not_answeredOnce_of_rejected (record : Bytes → Bytes → Prop) (name uri iv : Bytes)
    (confirms : Bool) {d : Dev OtpKey OtpRam OtpEvent} (hseed : d.ram.seed = []) :
    ¬ Sat (handleNewOtpUri D name uri iv confirms)
      (fun err d' => AnsweredOnce D record iv d
        { d' with log := d'.log ++ [.event (.reply err.isNone)] })
      (fun stop _ => stop = .power) { d with log := d.log ++ [.event (.reply false)] } := by
  have hhelper := sat_handleNewOtpUri D haes name uri iv confirms
    { d with log := d.log ++ [.event (.reply false)] }
  rw [sat_iff] at hhelper ⊢
  cases hrun : (handleNewOtpUri D name uri iv confirms).run
      { d with log := d.log ++ [.event (.reply false)] } with
  | error stop d' =>
      rw [hrun] at hhelper
      rcases hhelper.2 with ⟨-, hsome, -⟩ | ⟨hstop, -⟩
      · exact absurd hseed hsome
      · simp [hstop]
  | ok err d' =>
      rw [hrun] at hhelper
      rintro ⟨ok, hreplies, -⟩
      have hlog := hhelper.1.log
      simp only [replies, since] at hreplies
      rw [hlog] at hreplies
      simp only [List.append_assoc, List.drop_left, List.cons_append, List.nil_append,
        List.filterMap_cons, List.filterMap_append, List.filterMap_nil, List.cons.injEq] at hreplies
      simp at hreplies

/-- A device with a seed replies once and truthfully, unless the record halts it. -/
theorem sat_reply_iff {record : Bytes → Bytes → Prop} {name uri : Bytes}
    (hrecord : ∀ n u, record n u ↔ n = name ∧ u = uri) (iv : Bytes) (confirms : Bool)
    (d : Dev OtpKey OtpRam OtpEvent) :
    Sat (handleNewOtpUri D name uri iv confirms)
      (fun err d' => AnsweredOnce D record iv d
        { d' with log := d'.log ++ [.event (.reply err.isNone)] })
      (fun stop _ => stop = .power) d ↔ ¬ Halting D d.store name uri := by
  have hhelper := sat_handleNewOtpUri D haes name uri iv confirms d
  rw [sat_iff] at hhelper ⊢
  cases hrun : (handleNewOtpUri D name uri iv confirms).run d with
  | error stop d' =>
      rw [hrun] at hhelper
      rcases hhelper.2 with ⟨hstop, -, hhalt⟩ | ⟨hstop, -, hhalt⟩
      · exact ⟨fun _ => hhalt, fun _ => hstop⟩
      · simp [hstop, hhalt]
  | ok err d' =>
      rw [hrun] at hhelper
      obtain ⟨hwrites, hhalt, hnone, -⟩ := hhelper
      refine ⟨fun _ => hhalt, fun _ => ⟨err.isNone, replies_note hwrites _, ?_⟩⟩
      simp only [Option.isNone_iff_eq_none, hnone, hrecord, and_assoc, exists_and_left,
        exists_eq_left, persisted_note_iff D hwrites]

/-- Once the record is read, there has to be a seed, and the record must not halt the device. -/
theorem sat_rejectAndReply_iff {record : Bytes → Bytes → Prop} {name uri : Bytes}
    (hrecord : ∀ n u, record n u ↔ n = name ∧ u = uri) (iv : Bytes) (confirms : Bool)
    (d : Dev OtpKey OtpRam OtpEvent) :
    Sat (do
        rejectWithoutSeed
        let err ← handleNewOtpUri D name uri iv confirms
        note (.reply err.isNone))
      (fun _ d' => AnsweredOnce D record iv d d') (fun stop _ => stop = .power) d ↔
      ¬ (d.ram.seed = [] ∨ Halting D d.store name uri) := by
  simp only [rejectWithoutSeed, sat_bind, sat_getRam, List.isEmpty_iff, sat_note]
  by_cases hseed : d.ram.seed = []
  · have hnot := not_answeredOnce_of_rejected D haes record name uri iv confirms hseed
    simp [hseed, hnot]
  · simp only [hseed, if_false, sat_pure, false_or]
    exact sat_reply_iff D haes hrecord iv confirms d

section Request

variable {V : Type} {C : TinyCborBytes V} {bs : Bytes} {value params : V}

/-- The name in the parameters: a text that fits its buffer, up to its first NUL byte, and valid. -/
def NamedIn (C : TinyCborBytes V) (params : V) (name : Bytes) : Prop :=
  ∃ w content, C.findValue params "name" = some w ∧ C.isValid w = true ∧ C.isTextString w = true ∧
    C.copyTextString w = some content ∧ content.length < OTP_MAX_NAME_LEN ∧
      name = Bytes.cstr content ∧ storageKeyNameValid name = true

/-- The URI in the parameters: a text that is not empty, and does not come in chunks. -/
def UriIn (C : TinyCborBytes V) (params w : V) (uri : Bytes) : Prop :=
  C.findValue params "uri" = some w ∧ C.isValid w = true ∧ C.isTextString w = true ∧
    C.isLengthKnown w = true ∧ C.copyTextString w = some uri ∧ uri ≠ []

/-- The request asks for this record; `w` is the text of its URI. -/
def Requested (C : TinyCborBytes V) (value w : V) (name uri : Bytes) : Prop :=
  ∃ params, getMsgParams C.toTinyCborStrings value = some params ∧ NamedIn C params name ∧
    UriIn C params w uri

omit haes in
theorem getMsgParams_eq_some {C : TinyCborStrings V}
    (h : getMsgParams C value = some params) :
    C.findValue value "params" = some params ∧ C.isValid params = true ∧ C.isMap params = true := by
  unfold getMsgParams at h
  split at h
  · cases h
  · next found hfind =>
      rw [Option.ite_none_left_eq_some] at h
      obtain ⟨hboth, hsame⟩ := h
      obtain rfl := Option.some.inj hsame
      simpa [hfind] using hboth

omit haes in
/-- The getter copies the name, if there is one. -/
theorem rpcGetString_name (hC : C.Lawful) (hin : Inside C.toTinyCbor bs params)
    (hvalid : C.isValid params = true) (hmap : C.isMap params = true) :
    ∃ content, rpcGetString C.toTinyCborValues "name" OTP_MAX_NAME_LEN params = .ok content ∧
      ∀ name, NamedIn C params name ↔
        content ≠ [] ∧ name = Bytes.cstr content ∧ storageKeyNameValid name = true := by
  have hempty : storageKeyNameValid (Bytes.cstr []) = false := by decide
  unfold NamedIn
  cases hfind : C.findValue params "name" with
  | none => exact ⟨[], by simp [rpcGetString, rpcGetData, hvalid, hmap, hfind], by simp⟩
  | some w =>
      cases hw : C.isValid w with
      | false => exact ⟨[], by simp [rpcGetString, rpcGetData, hvalid, hmap, hfind, hw], by simp [hw]⟩
      | true =>
          have hdata := rpcGetData_of_find hvalid hmap hfind hw
          have hreads := hC.text (.field hin hfind) hw
          cases htext : C.isTextString w with
          | false => exact ⟨[], by simp [rpcGetString, hdata, htext], by simp [htext]⟩
          | true =>
              obtain ⟨content, hcopy, hlen⟩ := hreads.content htext
              by_cases hfits : content.length < OTP_MAX_NAME_LEN
              · refine ⟨content, ?_, fun name => ?_⟩
                · simp only [rpcGetString, hdata, htext, Bool.not_true, Bool.false_eq_true, if_false,
                    hlen, if_neg (Nat.not_le.2 hfits), hcopy, jadeAssert, decide_eq_true hfits]
                  rfl
                · constructor
                  · rintro ⟨_, _, hsame, -, -, hcopy', -, rfl, hname⟩
                    obtain rfl := Option.some.inj hsame
                    obtain rfl := Option.some.inj (hcopy.symm.trans hcopy')
                    refine ⟨?_, rfl, hname⟩
                    rintro rfl
                    rw [hempty] at hname
                    cases hname
                  · rintro ⟨-, rfl, hname⟩
                    exact ⟨w, content, rfl, hw, htext, hcopy, hfits, rfl, hname⟩
              · refine ⟨[], ?_, fun name => ?_⟩
                · simp [rpcGetString, hdata, htext, hlen, Nat.not_lt.1 hfits]
                · constructor
                  · rintro ⟨_, _, hsame, -, -, hcopy', hfits', -⟩
                    obtain rfl := Option.some.inj hsame
                    obtain rfl := Option.some.inj (hcopy.symm.trans hcopy')
                    exact absurd hfits' hfits
                  · rintro ⟨hne, -⟩
                    exact absurd rfl hne

omit haes in
/-- The getter finds the URI, if there is one, and stops at a length of eight bytes. -/
theorem rpcGetStringPtr_uri (hC : C.Lawful) (hin : Inside C.toTinyCbor bs params) :
    (rpcGetStringPtr C.toTinyCbor "uri" params = .ok none ∧ ∀ w uri, ¬UriIn C params w uri) ∨
      ∃ w uri, UriIn C params w uri ∧ rpcGetStringPtr C.toTinyCbor "uri" params =
        if C.nextByte w &&& CBOR_LEN_MASK < 27 then .ok (some uri) else .error .assert := by
  unfold UriIn
  cases hfind : C.findValue params "uri" with
  | none => exact .inl ⟨by simp [rpcGetStringPtr, hfind], by simp⟩
  | some w =>
      cases hw : C.isValid w with
      | false => exact .inl ⟨by simp [rpcGetStringPtr, hfind, hw], by rintro _ _ ⟨h, h', -⟩; simp_all⟩
      | true =>
          have hreads := hC.text (.field hin hfind) hw
          have hptr : rpcGetStringPtr C.toTinyCbor "uri" params =
              rpcGetRawTypePtr C.toTinyCbor CBOR_TEXT_MASK w := by
            simp [rpcGetStringPtr, hfind, hw, rpcGetRawStringPtr]
          rw [hptr]
          cases htext : C.isTextString w with
          | false =>
              refine .inl ⟨rpcGetRawTypePtr_other hreads htext, ?_⟩
              rintro _ _ ⟨hsame, -, htext', -⟩
              obtain rfl := Option.some.inj hsame
              rw [htext] at htext'
              cases htext'
          | true =>
              obtain ⟨content, hcopy, -⟩ := hreads.content htext
              rw [rpcGetRawTypePtr_eq hreads htext hcopy]
              by_cases hpiece : C.isLengthKnown w = false ∨ content = []
              · refine .inl ⟨if_pos hpiece, ?_⟩
                rintro _ _ ⟨hsame, -, -, hknown, hcopy', hne⟩
                obtain rfl := Option.some.inj hsame
                obtain rfl := Option.some.inj (hcopy.symm.trans hcopy')
                rcases hpiece with hpiece | hpiece
                · rw [hknown] at hpiece
                  cases hpiece
                · exact hne hpiece
              · rw [not_or, Bool.not_eq_false] at hpiece
                exact .inr ⟨w, content, ⟨rfl, hw, htext, hpiece.1, hcopy, hpiece.2⟩,
                  if_neg (by simp [hpiece.1, hpiece.2])⟩

/-- A request is answered once and truthfully unless the length of its URI takes eight bytes, there is
no seed, or the record halts the device. -/
theorem sat_registerOtpProcess_iff (hC : C.Lawful) (hin : Inside C.toTinyCbor bs value)
    (hcurrent : assertCurrentMessage C.toTinyCborStrings value (ascii "register_otp") = .ok ())
    (iv : Bytes) (confirms : Bool) (d : Dev OtpKey OtpRam OtpEvent) :
    Sat (registerOtpProcess D C value iv confirms)
      (fun _ d' => AnsweredOnce D (fun name uri => ∃ w, Requested C value w name uri) iv d d')
      (fun stop _ => stop = .power) d ↔
      ¬ ∃ w name uri, Requested C value w name uri ∧
        (¬ C.nextByte w &&& CBOR_LEN_MASK < 27 ∨ d.ram.seed = [] ∨ Halting D d.store name uri) := by
  have hreject := answeredOnce_reject D (fun name uri => ∃ w, Requested C value w name uri) iv d
  unfold registerOtpProcess
  rw [hcurrent]
  simp only [getter, orRestart, pure_bind]
  cases hparams : getMsgParams C.toTinyCborStrings value with
  | none => simpa [Requested, hparams] using hreject
  | some params =>
      obtain ⟨hfind, hvalid, hmap⟩ := getMsgParams_eq_some hparams
      obtain ⟨content, hcontent, hnamed⟩ := rpcGetString_name hC (.field hin hfind) hvalid hmap
      have hrequested : ∀ w name uri, Requested C value w name uri ↔
          NamedIn C params name ∧ UriIn C params w uri := by
        intro w name uri
        simp [Requested, hparams]
      simp only [hrequested, hnamed] at hreject ⊢
      simp only [hcontent, pure_bind]
      by_cases hname : content = [] ∨ storageKeyNameValid (Bytes.cstr content) = false
      · rw [if_pos (by simpa using hname), sat_note]
        refine iff_of_true hreject ?_
        rintro ⟨w, name, uri, ⟨⟨hne, rfl, hname'⟩, -⟩, -⟩
        rcases hname with hname | hname
        · exact hne hname
        · rw [hname'] at hname
          cases hname
      · rw [if_neg (by simpa using hname)]
        rw [not_or, Bool.not_eq_false] at hname
        rcases rpcGetStringPtr_uri hC (.field hin hfind) with ⟨hptr, hnone⟩ | ⟨w, uri, huri, hptr⟩
        · simpa [hptr, hnone] using hreject
        · have hunique : ∀ w' uri', UriIn C params w' uri' ↔ w' = w ∧ uri' = uri := by
            intro w' uri'
            refine ⟨fun h => ?_, by rintro ⟨rfl, rfl⟩; exact huri⟩
            obtain rfl := Option.some.inj (h.1.symm.trans huri.1)
            exact ⟨rfl, Option.some.inj (h.2.2.2.2.1.symm.trans huri.2.2.2.2.1)⟩
          by_cases hlt : C.nextByte w &&& CBOR_LEN_MASK < 27
          swap
          · rw [hptr, if_neg hlt]
            simp only [sat_bind, sat_throw, reduceCtorEq, false_iff, not_not]
            exact ⟨w, _, uri, ⟨⟨hname.1, rfl, hname.2⟩, huri⟩, .inl hlt⟩
          · rw [hptr, if_pos hlt]
            have hne : uri ≠ [] := huri.2.2.2.2.2
            have hrecord : ∀ n u, (∃ w', (content ≠ [] ∧ n = Bytes.cstr content ∧
                storageKeyNameValid n = true) ∧ UriIn C params w' u) ↔
                  n = Bytes.cstr content ∧ u = uri := by
              intro n u
              simp only [hunique]
              constructor
              · rintro ⟨_, ⟨-, rfl, -⟩, -, rfl⟩
                exact ⟨rfl, rfl⟩
              · rintro ⟨rfl, rfl⟩
                exact ⟨w, ⟨hname.1, rfl, hname.2⟩, rfl, rfl⟩
            have hcondition : (∃ w' name' uri', ((content ≠ [] ∧ name' = Bytes.cstr content ∧
                storageKeyNameValid name' = true) ∧ UriIn C params w' uri') ∧
                  (¬ C.nextByte w' &&& CBOR_LEN_MASK < 27 ∨ d.ram.seed = [] ∨
                    Halting D d.store name' uri')) ↔
                d.ram.seed = [] ∨ Halting D d.store (Bytes.cstr content) uri := by
              constructor
              · rintro ⟨w', name', uri', ⟨⟨-, rfl, -⟩, h⟩, hbad⟩
                obtain ⟨rfl, rfl⟩ := (hunique _ _).1 h
                exact hbad.resolve_left (not_not.2 hlt)
              · intro h
                exact ⟨w, _, uri, ⟨⟨hname.1, rfl, hname.2⟩, huri⟩, .inr h⟩
            rw [hcondition]
            simp only [pure_bind, Option.getD_some, List.isEmpty_iff, hne, if_false]
            exact sat_rejectAndReply_iff D haes hrecord iv confirms d

end Request

/-- The same for the scan itself. -/
theorem sat_handleQrBytes_iff (other : OtpM Bool) {bytes : Bytes}
    (hscan : looksLikeOtp bytes = true ∧ looksLikeSignMessage bytes = false) (user : OtpUser)
    (iv : Bytes) (d : Dev OtpKey OtpRam OtpEvent) :
    Sat (handleQrBytes D other bytes user iv)
      (fun r d' => r = true ↔
        ∃ name, NameEntered D user d name ∧ Persisted D name bytes iv d d')
      (fun _ _ => True) d ↔
      ¬ (otpUriToCtx D.toOtpPrims (ascii "otp_string") bytes = .ok none ∨
        (∃ ctx, otpUriToCtx D.toOtpPrims (ascii "otp_string") bytes = .ok (some ctx)) ∧
          (d.ram.seed = [] ∨ NameAbandoned D user d)) := by
  rw [← sat_registerOtpString_iff D haes bytes iv user d]
  simp only [handleQrBytes, hscan.1, hscan.2, Bool.false_eq_true, if_false, if_true, sat_bind,
    sat_pure]

end Helper

end Model

/-! ### A user who declines -/

/-- A record of codes that move with the time. -/
def sampleOtpUri : Bytes := ascii "otpauth://totp/label?secret=VMR466AB62ZBOKHE"

/-- A device that knows this URI only, and the keyed hash of its first counter. -/
def sampleOtpDevice : OtpDevice where
  httpParserParseUrl uri :=
    if uri = sampleOtpUri then
      some { schema := some ⟨0, 7⟩, host := some ⟨10, 4⟩, path := some ⟨14, 6⟩, query := some ⟨21, 23⟩ }
    else none
  mdHmac _ _ _ := some [186, 219, 154, 30, 10, 248, 131, 236, 140, 154, 135, 169, 35, 121, 154, 94,
    114, 35, 164, 255]
  otpKeyFromSeed seed := seed
  aesEncryptBytes _ iv text := if iv.length = 16 then some (iv ++ text) else none
  aesDecryptBytes _ encrypted _ := some (encrypted.drop 16)
  otpCount _ := 0

/-- A user who enters the record, by hand or by a scan, and declines it on the last screen. -/
def decliningUser : OtpUser where
  names := [⟨ascii "label", true⟩]
  uris := [⟨sampleOtpUri, true⟩]
  scanned := some sampleOtpUri
  confirms := false

/-- A device with an empty flash. -/
def freshOtpDevice (seed : Bytes) : Dev OtpKey OtpRam OtpEvent where
  store _ := none
  ram := ⟨seed⟩
  fates := []
  log := []

theorem recordEntered_decliningUser (seed : Bytes) :
    RecordEntered sampleOtpDevice decliningUser (freshOtpDevice seed) (ascii "label") sampleOtpUri := by
  rfl

theorem confirming_sample (seed : Bytes) :
    Confirming sampleOtpDevice (freshOtpDevice seed).store (ascii "label") sampleOtpUri := by
  refine ⟨rfl, {
    name := ascii "label"
    mdType := .sha1
    otpType := .totp
    type := some (ascii "totp")
    label := some (ascii "label")
    secret := some (ascii "VMR466AB62ZBOKHE")
    digits := 6
    period := 30 }, rfl, rfl⟩

theorem sampleOtpDevice_aesEncryptBytes_ne_nil (key iv text encrypted : Bytes)
    (h : sampleOtpDevice.aesEncryptBytes key iv text = some encrypted) : encrypted ≠ [] := by
  simp only [sampleOtpDevice, Option.ite_none_right_eq_some, Option.some.injEq] at h
  obtain ⟨hiv, rfl⟩ := h
  intro hnil
  simp [(List.append_eq_nil_iff.1 hnil).1] at hiv

/-- A request for the record; `head` is that of the text of its URI. -/
def otpRequest (head : Bytes) : Bytes :=
  0xa3 :: shortText "id" ++ shortText "1" ++ shortText "method" ++ shortText "register_otp" ++
    shortText "params" ++ (0xa2 :: shortText "name" ++ shortText "label" ++ shortText "uri" ++
      (head ++ sampleOtpUri))

/-- The length of the URI in one byte, and in eight. -/
def shortHead : Bytes := [0x78, 44]

def longHead : Bytes := 0x7b :: Bytes.ofNatBE 8 44

theorem inside_otpRequest :
    Inside tinyCborBytes.toTinyCbor (otpRequest shortHead) (otpRequest shortHead) ∧
      Inside tinyCborBytes.toTinyCbor (otpRequest longHead) (otpRequest longHead) :=
  ⟨.item (n := (otpRequest shortHead).length) (by decide +kernel),
    .item (n := (otpRequest longHead).length) (by decide +kernel)⟩

theorem requested_otpRequest (head : Bytes) (h : head = shortHead ∨ head = longHead) :
    Requested tinyCborBytes (otpRequest head) (head ++ sampleOtpUri) (ascii "label") sampleOtpUri := by
  rcases h with rfl | rfl
  all_goals
    refine ⟨_, rfl, ⟨shortText "label", ascii "label", ?_, ?_, ?_, ?_, ?_, ?_, ?_⟩, ?_, ?_, ?_, ?_, ?_, ?_⟩
    all_goals decide +kernel

end Jade
