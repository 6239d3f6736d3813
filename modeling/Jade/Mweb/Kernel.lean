/-
**Signing the kernel (`mweb_kernel.c`).**

The kernel carries the value that enters and leaves the extension block, the fee, and a signature
under the key that makes the commitments balance.  The signer checks the host's feature bits
against the fields, checks the balance of the plain values, signs, and computes two offsets that
tie the kernel to the blinding factors and to the stealth keys of one session.

Main definitions:

* `Jade.Mweb.Pegout`, `Jade.Mweb.parsePegoutValue` — the entries of the pegout map;
* `Jade.Mweb.mwebKernelSigHash` — the message of the kernel signature;
* `Jade.Mweb.mwebSignKernelWithEk`, `Jade.Mweb.mwebSignKernel`;
* `Jade.Mweb.KernelKeys` — the points and scalars behind a signed kernel.

Main results:

* `Jade.Mweb.sat_mwebSignKernel` — the offsets are the sums they are meant to be.
-/

import Jade.Lib.Checked
import Jade.Mweb.Input
import Jade.Mweb.PrimeOrder
import Jade.Psbt.Psbt

set_option relaxedAutoImplicit false
set_option autoImplicit false

namespace Jade.Mweb

open Exec

def MWEB_KERNEL_FEE_BIT : UInt8 := 0x01
def MWEB_KERNEL_PEGIN_BIT : UInt8 := 0x02
def MWEB_KERNEL_PEGOUT_BIT : UInt8 := 0x04
def MWEB_KERNEL_HEIGHT_LOCK_BIT : UInt8 := 0x08
def MWEB_KERNEL_STEALTH_EXCESS_BIT : UInt8 := 0x10
def MWEB_KERNEL_EXTRA_DATA_BIT : UInt8 := 0x20

/-- `(features & bit) != 0` -/
def hasBit (features bit : UInt8) : Bool := features &&& bit != 0

/-! ### The wire formats -/

/-- The loop of `write_mweb_varint`: seven bits to a byte, every byte but the one written last
continued.  `digits` bounds the number of bytes. -/
def mwebVarintDigits : ℕ → UInt64 → List UInt8
  | 0, _ => []
  | digits + 1, n =>
      let low := UInt8.ofNat (n &&& 0x7f).toNat
      if n < 0x80 then [low] else low :: mwebVarintDigits digits ((n >>> 7) - 1)

/-- `write_mweb_varint`: the bytes are found from the low end and written from the high end; all
but the first one found carry the continuation bit. -/
def writeMwebVarint (n : UInt64) : Bytes :=
  match mwebVarintDigits 10 n with
  | [] => []
  | low :: high => (high.map (· ||| 0x80)).reverse ++ [low]

/-- A pegout as its map entry spells it: an amount and a script.  `scriptLen` is the length the
entry declares. -/
structure Pegout where
  amount : UInt64
  script : Bytes
  scriptLen : UInt64
  deriving DecidableEq

/-- The length prefix of the script: the size of the prefix and the length it declares. -/
def readCompactSize : Bytes → Option (ℕ × UInt64)
  | [] => none
  | b :: bs =>
      if b < 0xfd then some (1, UInt64.ofNat b.toNat)
      else if b = 0xfd ∧ bs.length ≥ 2 then some (3, UInt64.ofNat (Bytes.toNatLE (bs.take 2)))
      else if b = 0xfe ∧ bs.length ≥ 4 then some (5, UInt64.ofNat (Bytes.toNatLE (bs.take 4)))
      else if b = 0xff ∧ bs.length ≥ 8 then some (9, UInt64.ofNat (Bytes.toNatLE (bs.take 8)))
      else none

/-- `le64(amount) || compact_size(script_len) || script`; the comparison with what remains is made
in 64 bits. -/
def parsePegout (val : Bytes) : Option Pegout :=
  if val.length < 9 then none
  else
    let p := val.drop 8
    match readCompactSize p with
    | none => none
    | some (hdr, slen) =>
        if UInt64.ofNat hdr + slen > UInt64.ofNat p.length then none
        else some {
          amount := UInt64.ofNat (Bytes.toNatLE (val.take 8))
          script := (p.drop hdr).take slen.toNat
          scriptLen := slen }

/-- `parse_pegout_value` of `mweb_kernel.c` -/
def parsePegoutValue : Bytes → Option Pegout := parsePegout

/-- `atomic_parse_pegout` of `mweb_atomic_sign.c` -/
def atomicParsePegout : Bytes → Option Pegout := parsePegout

/-- The bytes a pegout puts into the message. -/
def pegoutMessage (pegout : Pegout) : Bytes :=
  writeMwebVarint pegout.amount ++ mwebWriteCompactSize pegout.scriptLen ++ pegout.script

/-- The message whose hash `mweb_kernel_sig_hash` computes; `none` when a pegout does not parse. -/
def kernelMessage (features : UInt8) (excessCommitment : Bytes) (fee peginAmount : Option UInt64)
    (pegouts : WallyMap) (lockHeight : Option UInt32) (stealthExcess : Option Bytes)
    (extraData : Bytes) : Option Bytes := do
  let pegoutSection ←
    if hasBit features MWEB_KERNEL_PEGOUT_BIT then do
      let entries ← pegouts.items.mapM fun item => parsePegoutValue item.2
      pure (mwebWriteCompactSize (UInt64.ofNat pegouts.items.length) ++
        entries.flatMap pegoutMessage)
    else pure []
  pure ((features :: excessCommitment) ++ (fee.map writeMwebVarint).getD [] ++
    (peginAmount.map writeMwebVarint).getD [] ++ pegoutSection ++
    (lockHeight.map fun h => writeMwebVarint (UInt64.ofNat h.toNat)).getD [] ++
    stealthExcess.getD [] ++
    (if hasBit features MWEB_KERNEL_EXTRA_DATA_BIT then
      mwebWriteCompactSize (UInt64.ofNat extraData.length) ++ extraData
    else []))

theorem mapM_eq_some {α β : Type} {f : α → Option β} {xs : List α} {ys : List β} :
    xs.mapM f = some ys ↔ xs.map f = ys.map some := by
  induction xs generalizing ys with
  | nil => cases ys <;> simp
  | cons x xs ih =>
      rw [List.mapM_cons]
      cases ys with
      | nil => simp [Option.bind_eq_some_iff]
      | cons y ys => simp [Option.bind_eq_some_iff, ← ih]

/-! ### Signing -/

/-- `mweb_input_ctx_t` -/
structure MwebInputCtx where
  value : UInt64
  blind : Bytes
  stealthTweak : Bytes

/-- `mweb_output_ctx_t` -/
structure MwebOutputCtx where
  value : UInt64
  blind : Bytes

/-- `struct mweb_kernel_sign_params`.  A value with its presence flag is an `Option`; a null pegout
map is the empty one. -/
structure MwebKernelSignParams where
  inputs : List MwebInputCtx
  outputs : List MwebOutputCtx
  features : UInt8
  fee : Option UInt64
  peginAmount : Option UInt64
  lockHeight : Option UInt32
  pegouts : WallyMap
  extraData : Bytes
  stealthKeyOrNull : Option Bytes
  receivedTxOffset : Bytes
  receivedStealthOffset : Bytes

/-- `struct mweb_kernel_sign_outputs` -/
structure MwebKernelSignOutputs where
  excessKG : Bytes
  stealthExcessG : Bytes
  txOffsetFinal : Bytes
  stealthOffsetFinal : Bytes
  signature : Bytes

/-- `u64_add_checked`: the sum wrapped exactly when it is below an operand. -/
def u64AddChecked (a b : UInt64) : Option UInt64 := if a + b ≥ a then some (a + b) else none

theorem isAdd_u64AddChecked : Checked.IsAdd u64AddChecked := by
  intro a b r h
  rw [u64AddChecked, Option.ite_none_right_eq_some] at h
  obtain ⟨hge, hr⟩ := h
  obtain rfl : a + b = r := Option.some.inj hr
  have hle := UInt64.le_iff_toNat_le.1 hge
  rw [UInt64.toNat_add] at hle ⊢
  have ha := a.toNat_lt
  have hb := b.toNat_lt
  omega

/-- `derive_pegout_total` -/
def derivePegoutTotal (pegouts : WallyMap) : Option UInt64 := do
  let entries ← pegouts.items.mapM fun item => parsePegoutValue item.2
  Checked.sum u64AddChecked 0 (entries.map Pegout.amount)

/-- Step 2 of `mweb_sign_kernel_with_ek`: the total of the pegouts. -/
def kernelPegoutTotal (p : MwebKernelSignParams) : Option UInt64 :=
  if hasBit p.features MWEB_KERNEL_PEGOUT_BIT then derivePegoutTotal p.pegouts else some 0

/-- `Sum(v_in)` -/
def kernelInputTotal (p : MwebKernelSignParams) : Option UInt64 :=
  Checked.sum u64AddChecked 0 (p.inputs.map MwebInputCtx.value)

/-- `Sum(v_in) + pegin_amount` -/
def kernelInputSum (p : MwebKernelSignParams) : Option UInt64 := do
  let inputSum ← kernelInputTotal p
  match p.peginAmount with
  | some pegin => u64AddChecked inputSum pegin
  | none => pure inputSum

/-- `Sum(v_out)` -/
def kernelOutputTotal (p : MwebKernelSignParams) : Option UInt64 :=
  Checked.sum u64AddChecked 0 (p.outputs.map MwebOutputCtx.value)

/-- `Sum(v_out) + fee + pegout_total` -/
def kernelOutputSum (p : MwebKernelSignParams) (pegoutTotal : UInt64) : Option UInt64 := do
  let outputSum ← kernelOutputTotal p
  let outputSum ←
    match p.fee with
    | some fee => u64AddChecked outputSum fee
    | none => pure outputSum
  u64AddChecked outputSum pegoutTotal

section Model

variable {P : Type} (S : Secp P)

/-- `mweb_kernel_sig_hash` -/
def mwebKernelSigHash (features : UInt8) (excessCommitment : Bytes)
    (fee peginAmount : Option UInt64) (pegouts : WallyMap) (lockHeight : Option UInt32)
    (stealthExcess : Option Bytes) (extraData : Bytes) : Option Bytes :=
  (kernelMessage features excessCommitment fee peginAmount pegouts lockHeight stealthExcess
    extraData).map S.blake3

/-- Steps 1a to 1d of `mweb_sign_kernel_with_ek`: the scalars and the feature bits. -/
def kernelValidate (eK : Bytes) (p : MwebKernelSignParams) : M Unit := do
  check (mwebValidateScalar eK) .invalidScalar
  check (p.fee.isSome == hasBit p.features MWEB_KERNEL_FEE_BIT) .kernelFeatureMismatch
  check (p.peginAmount.isSome == hasBit p.features MWEB_KERNEL_PEGIN_BIT) .kernelFeatureMismatch
  check (!p.pegouts.items.isEmpty == hasBit p.features MWEB_KERNEL_PEGOUT_BIT)
    .kernelFeatureMismatch
  check (p.lockHeight.isSome == hasBit p.features MWEB_KERNEL_HEIGHT_LOCK_BIT)
    .kernelFeatureMismatch
  check (!p.extraData.isEmpty == hasBit p.features MWEB_KERNEL_EXTRA_DATA_BIT)
    .kernelFeatureMismatch
  check (!(hasBit p.features MWEB_KERNEL_STEALTH_EXCESS_BIT && p.stealthKeyOrNull.isNone))
    .missingStealthScalar
  check (!(!hasBit p.features MWEB_KERNEL_STEALTH_EXCESS_BIT && p.stealthKeyOrNull.isSome))
    .kernelFeatureMismatch
  check (p.stealthKeyOrNull.all mwebValidateScalar) .invalidScalar

/-- What these steps ask of the features and the fields. -/
structure FieldsAgree (p : MwebKernelSignParams) : Prop where
  fee : p.fee.isSome = hasBit p.features MWEB_KERNEL_FEE_BIT
  pegin : p.peginAmount.isSome = hasBit p.features MWEB_KERNEL_PEGIN_BIT
  pegouts : (!p.pegouts.items.isEmpty) = hasBit p.features MWEB_KERNEL_PEGOUT_BIT
  lockHeight : p.lockHeight.isSome = hasBit p.features MWEB_KERNEL_HEIGHT_LOCK_BIT
  extraData : (!p.extraData.isEmpty) = hasBit p.features MWEB_KERNEL_EXTRA_DATA_BIT
  stealthKey : p.stealthKeyOrNull.isSome = hasBit p.features MWEB_KERNEL_STEALTH_EXCESS_BIT

/-- The tests of the feature bits let pass only what agrees with them. -/
theorem sat_kernelValidate (eK : Bytes) (p : MwebKernelSignParams) (t : Tape) :
    Sat (kernelValidate eK p) (fun _ _ => FieldsAgree p) (fun _ _ => True) t := by
  simp only [kernelValidate, sat_bind, sat_check, implies_true, and_true]
  intro _ hfee hpegin hpegouts hheight hextra hmissing hsurplus _
  refine ⟨beq_iff_eq.1 hfee, beq_iff_eq.1 hpegin, ?_, beq_iff_eq.1 hheight, ?_, ?_⟩
  · revert hpegouts
    cases p.pegouts.items.isEmpty <;> cases hasBit p.features MWEB_KERNEL_PEGOUT_BIT <;> simp
  · revert hextra
    cases p.extraData.isEmpty <;> cases hasBit p.features MWEB_KERNEL_EXTRA_DATA_BIT <;> simp
  · revert hmissing hsurplus
    cases hasBit p.features MWEB_KERNEL_STEALTH_EXCESS_BIT <;> cases p.stealthKeyOrNull <;> simp

/-- Steps 2 and 3: the balance of the plain values. -/
def kernelBalance (p : MwebKernelSignParams) : M Unit := do
  let pegoutTotal ← orFail (kernelPegoutTotal p) .balanceFail
  let inputSum ← orFail (kernelInputSum p) .balanceFail
  let outputSum ← orFail (kernelOutputSum p pegoutTotal) .balanceFail
  check (inputSum == outputSum) .balanceFail

/-- Step 7: the key the kernel is signed with. -/
def kernelSigKey (eK ekPubkey : Bytes) : Option (Bytes × Bytes) → Option Bytes
  | none => some eK
  | some (stealthKey, stealthExcess) => do
      let tweaked ← S.ecSeckeyTweakMul eK (S.blake3 (ekPubkey ++ stealthExcess))
      S.ecSeckeyTweakAdd tweaked stealthKey

/-- Step 9: `O_k_final = received_tx_offset - Sum(r_in_i) - e_k`. -/
def kernelTxOffset (eK : Bytes) (p : MwebKernelSignParams) : M Bytes := do
  let sumBlind ← orFail (← sumModN zero32 (p.inputs.map MwebInputCtx.blind)) .internal
  let tmp ← orFail (← mwebScalarSubModN p.receivedTxOffset sumBlind) .internal
  orFail (← mwebScalarSubModN tmp eK) .internal

/-- Step 10: `O_s_final = received_stealth_offset + Sum(stealth_tweak_i) - stealthKey`. -/
def kernelStealthOffset (p : MwebKernelSignParams) (stealthKey : Option Bytes) : M Bytes := do
  let sumTweak ← orFail (← sumModN zero32 (p.inputs.map MwebInputCtx.stealthTweak)) .internal
  let tmp ← orFail (← mwebScalarAddModN p.receivedStealthOffset sumTweak) .internal
  match stealthKey with
  | some key => orFail (← mwebScalarSubModN tmp key) .internal
  | none => pure tmp

/-- `mweb_sign_kernel_with_ek` -/
def mwebSignKernelWithEk (eK : Bytes) (p : MwebKernelSignParams) : M MwebKernelSignOutputs := do
  kernelValidate eK p
  kernelBalance p
  let excessKG ← orFail (mwebPedersenCommit S eK 0) .internal
  let ekPk ← orFail (S.ecPubkeyCreate eK) .internal
  let ekPubkey := S.ecPubkeySerialize ekPk
  let stealthKey :=
    if hasBit p.features MWEB_KERNEL_STEALTH_EXCESS_BIT then p.stealthKeyOrNull else none
  let stealth ←
    match stealthKey with
    | some key => do
        let spk ← orFail (S.ecPubkeyCreate key) .internal
        pure (some (key, S.ecPubkeySerialize spk))
    | none => pure none
  let kernelHash ← orFail (mwebKernelSigHash S p.features excessKG p.fee p.peginAmount p.pegouts
    p.lockHeight (stealth.map Prod.snd) p.extraData) .internal
  let sigKey ← orFail (kernelSigKey S eK ekPubkey stealth) .internal
  let signature ← orFail (← mwebSchnorrSign S sigKey kernelHash) .internal
  let txOffsetFinal ← kernelTxOffset eK p
  let stealthOffsetFinal ← kernelStealthOffset p stealthKey
  pure {
    excessKG, stealthExcessG := (stealth.map Prod.snd).getD (List.replicate 33 0),
    txOffsetFinal, stealthOffsetFinal, signature }

/-- `mweb_sign_kernel` -/
def mwebSignKernel (p : MwebKernelSignParams) : M MwebKernelSignOutputs := do
  let eK ← orFail (← drawScalar 8) .internal
  mwebSignKernelWithEk S eK p

end Model

/-! ### What a signed kernel stands for -/

section Keys

variable {P : Type} [AddCommGroup P] [Module (ZMod order) P] {S : Secp P} (C : Curve S)

/-- The scalars behind a signed kernel: the excess is the public point of the key `eK`, and the two
offsets make up for it and for the stealth key. -/
structure KernelKeys (p : MwebKernelSignParams) (out : MwebKernelSignOutputs) (eK : Bytes) :
    Prop where
  excess : C.commitPoint out.excessKG = some (scalar eK • C.G)
  txOffset : scalar out.txOffsetFinal = scalar p.receivedTxOffset -
    (p.inputs.map fun i => scalar i.blind).sum - scalar eK
  stealth : ∀ key, p.stealthKeyOrNull = some key →
    hasBit p.features MWEB_KERNEL_STEALTH_EXCESS_BIT = true →
    S.ecPubkeyParse out.stealthExcessG = some (scalar key • C.G)
  stealthOffset : scalar out.stealthOffsetFinal = scalar p.receivedStealthOffset +
    (p.inputs.map fun i => scalar i.stealthTweak).sum -
    ((if hasBit p.features MWEB_KERNEL_STEALTH_EXCESS_BIT then p.stealthKeyOrNull else none).map
      scalar).getD 0

theorem sat_kernelTxOffset (eK : Bytes) (p : MwebKernelSignParams) (t : Tape) :
    Sat (kernelTxOffset eK p)
      (fun r _ => scalar r = scalar p.receivedTxOffset -
        (p.inputs.map fun i => scalar i.blind).sum - scalar eK)
      (fun _ _ => True) t := by
  simp only [kernelTxOffset, sat_bind, sat_orFail, implies_true, and_true]
  refine (sat_sumModN zero32 _).mono ?_ (fun _ _ h => h)
  rintro _ t₁ hsum sumBlind rfl
  refine (sat_mwebScalarSubModN _ sumBlind).mono ?_ (fun _ _ h => h)
  rintro _ t₂ hsub tmp rfl
  refine (sat_mwebScalarSubModN tmp eK).mono ?_ (fun _ _ h => h)
  rintro _ t₃ hsub' r rfl
  rw [hsub' r rfl, hsub tmp rfl, hsum sumBlind rfl, scalar_zero32, zero_add, List.map_map]
  rfl

theorem sat_kernelStealthOffset (p : MwebKernelSignParams) (stealthKey : Option Bytes) (t : Tape) :
    Sat (kernelStealthOffset p stealthKey)
      (fun r _ => scalar r = scalar p.receivedStealthOffset +
        (p.inputs.map fun i => scalar i.stealthTweak).sum - (stealthKey.map scalar).getD 0)
      (fun _ _ => True) t := by
  simp only [kernelStealthOffset, sat_bind, sat_orFail, implies_true, and_true]
  refine (sat_sumModN zero32 _).mono ?_ (fun _ _ h => h)
  rintro _ t₁ hsum sumTweak rfl
  refine (sat_mwebScalarAddModN _ sumTweak).mono ?_ (fun _ _ h => h)
  rintro _ t₂ hadd tmp rfl
  have htmp : scalar tmp = scalar p.receivedStealthOffset +
      (p.inputs.map fun i => scalar i.stealthTweak).sum := by
    rw [hadd tmp rfl, hsum sumTweak rfl, scalar_zero32, zero_add, List.map_map]
    rfl
  cases stealthKey with
  | none => simpa using htmp
  | some key =>
      simp only [sat_bind, sat_orFail, implies_true, and_true]
      refine (sat_mwebScalarSubModN tmp key).mono ?_ (fun _ _ h => h)
      rintro _ t₃ hsub r rfl
      rw [hsub r rfl, htmp, Option.map_some, Option.getD_some]

/-- **The offsets of a signed kernel are the sums they are meant to be.** -/
theorem sat_mwebSignKernel (p : MwebKernelSignParams) (t : Tape) :
    Sat (mwebSignKernel S p) (fun out _ => ∃ eK, KernelKeys C p out eK) (fun _ _ => True) t := by
  simp only [mwebSignKernel, sat_bind, sat_orFail, implies_true, and_true]
  refine sat_drawScalar 8 (fun r t₁ eK _ => ?_) t
  simp only [mwebSignKernelWithEk, sat_bind, sat_orFail, implies_true, and_true]
  refine sat_of_forall (fun _ t₂ => sat_of_forall (fun _ t₃ => ?_) fun _ _ => trivial)
    fun _ _ => trivial
  intro excessKG hexcess ekPk _
  have hE : C.commitPoint excessKG = some (scalar eK • C.G) := by
    have h := C.commit hexcess
    simpa using h
  cases hkey : (if hasBit p.features MWEB_KERNEL_STEALTH_EXCESS_BIT then p.stealthKeyOrNull
      else none) with
  | none =>
      simp only [pure_bind, sat_bind, sat_orFail, implies_true, and_true]
      intro kernelHash _ sigKey _
      refine sat_of_forall (fun _ t₄ signature _ => ?_) fun _ _ => trivial
      refine (sat_kernelTxOffset eK p t₄).mono ?_ (fun _ _ h => h)
      intro txOffset t₅ htx
      refine (sat_kernelStealthOffset p none t₅).mono ?_ (fun _ _ h => h)
      intro stealthOffset t₆ hst
      exact (sat_pure _).2 ⟨eK, {
        excess := hE
        txOffset := htx
        stealth := fun key hsome hbit => by simp [hbit, hsome] at hkey
        stealthOffset := by rw [hkey]; exact hst }⟩
  | some key =>
      simp only [sat_bind, sat_orFail, sat_pure, implies_true, and_true]
      intro spk hspk kernelHash _ sigKey _
      refine sat_of_forall (fun _ t₄ signature _ => ?_) fun _ _ => trivial
      refine (sat_kernelTxOffset eK p t₄).mono ?_ (fun _ _ h => h)
      intro txOffset t₅ htx
      refine (sat_kernelStealthOffset p (some key) t₅).mono ?_ (fun _ _ h => h)
      intro stealthOffset t₆ hst
      obtain ⟨hpoint, hne⟩ := C.create hspk
      exact ⟨eK, {
        excess := hE
        txOffset := htx
        stealth := fun key' hsome hbit => by
          obtain rfl : key' = key := by simpa [hbit, hsome] using hkey
          simp only [Option.map_some, Option.getD_some]
          rw [C.parse_serialize hne, hpoint]
        stealthOffset := by rw [hkey]; exact hst }⟩

end Keys

end Jade.Mweb
