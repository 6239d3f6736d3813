/-
**The kernel signer's checks, after those of the session.**

The kernel is validated twice.  The session compares the feature bits with the fields of the PSBT
kernel, keeps running totals of the inputs, outputs and pegouts, and compares the two sides before
it calls the signer.  The signer compares the bits with its own parameters, parses the pegouts once
more, and adds everything up again with another overflow test and in another order.  Whatever has
passed the first round passes the second: the totals of the session are sums of natural numbers, so
every partial sum of the signer is below a word that the session has already computed.

Main definitions:

* `Jade.Mweb.AmountsCapped` — every amount and every total of a session is in the money range;
* `Jade.Mweb.Counted` — the invariant of the build;
* `Jade.Mweb.SignerBalanced` — the two sides of the signer are one word;
* `Jade.Mweb.SignerAgrees` — the signer finds the totals of the session, and neither a mismatch nor
  an imbalance;
* `Jade.Mweb.sessionEntries` — the call that opens a session, up to the kernel signature.

Main results:

* `Jade.Mweb.sat_mwebSignKernelWithEk_checked` — the signer signs only what balances by its own sums;
* `Jade.Mweb.buildSession_eq` — all that the build does besides is to call the signer;
* `Jade.Mweb.sat_sessionEntries` — what has passed the checks of the session passes the signer's.
-/

import Jade.Mweb.Contents

set_option relaxedAutoImplicit false
set_option autoImplicit false

namespace Jade.Mweb

open Exec

/-! ### The amounts of a session -/

/-- Every amount and every total of the session is at most the cap. -/
structure AmountsCapped (s : MwebSession) : Prop where
  inputs : ∀ si ∈ s.inputs, si.state.value ≤ MWEB_LTC_MAX_LITOSHI
  outputs : ∀ so ∈ s.outputs, so.value ≤ MWEB_LTC_MAX_LITOSHI
  pegouts : ∀ sp ∈ s.pegouts, sp.amount ≤ MWEB_LTC_MAX_LITOSHI
  totalInput : s.totalInputValue ≤ MWEB_LTC_MAX_LITOSHI
  totalOutput : s.totalOutputValue ≤ MWEB_LTC_MAX_LITOSHI
  totalPegout : s.totalPegout ≤ MWEB_LTC_MAX_LITOSHI
  fee : s.totalFee ≤ MWEB_LTC_MAX_LITOSHI
  pegin : s.totalPegin ≤ MWEB_LTC_MAX_LITOSHI

theorem atomicInMoneyRange_iff {amount : UInt64} :
    atomicInMoneyRange amount = true ↔ amount ≤ MWEB_LTC_MAX_LITOSHI := by
  simp [atomicInMoneyRange]

/-- A total that was added to is in the range. -/
theorem le_of_addToTotal {total amount r : UInt64} (h : addToTotal total amount = some r) :
    r ≤ MWEB_LTC_MAX_LITOSHI := by
  rw [addToTotal, Option.bind_eq_bind, Option.bind_eq_some_iff] at h
  obtain ⟨r', -, h⟩ := h
  rw [Option.pure_def, Option.ite_none_right_eq_some] at h
  obtain rfl : r' = r := Option.some.inj h.2
  exact atomicInMoneyRange_iff.1 h.1

/-- The amounts of the entries and the totals, when the inputs `ins` have been handled. -/
structure Counted (ins : List PsbtInput) (s : MwebSession) : Prop where
  values : s.inputs.map (fun si => si.state.value) =
    (ins.filter isMwebInput).map PsbtInput.mwebInputAmount
  inputs : ∀ si ∈ s.inputs, si.state.value ≤ MWEB_LTC_MAX_LITOSHI
  outputs : ∀ so ∈ s.outputs, so.value ≤ MWEB_LTC_MAX_LITOSHI
  pegouts : ∀ sp ∈ s.pegouts, sp.amount ≤ MWEB_LTC_MAX_LITOSHI
  totalInput : s.totalInputValue ≤ MWEB_LTC_MAX_LITOSHI
  totalOutput : s.totalOutputValue ≤ MWEB_LTC_MAX_LITOSHI
  totalPegout : s.totalPegout ≤ MWEB_LTC_MAX_LITOSHI

theorem counted_create (p : Psbt) (k : PsbtKernel) : Counted [] (MwebSession.create p k) where
  values := rfl
  inputs := by simp [MwebSession.create]
  outputs := by simp [MwebSession.create]
  pegouts := by simp [MwebSession.create]
  totalInput := by simp [MwebSession.create]
  totalOutput := by simp [MwebSession.create]
  totalPegout := by simp [MwebSession.create]

theorem Counted.frame {ins : List PsbtInput} {s s' : MwebSession} (h : Counted ins s)
    (hsame : SameContents s s') : Counted ins s' where
  values := by rw [hsame.inputs]; exact h.values
  inputs := by rw [hsame.inputs]; exact h.inputs
  outputs := by rw [hsame.outputs]; exact h.outputs
  pegouts := by rw [hsame.pegouts]; exact h.pegouts
  totalInput := by rw [hsame.totalInput]; exact h.totalInput
  totalOutput := by rw [hsame.totalOutput]; exact h.totalOutput
  totalPegout := by rw [hsame.totalPegout]; exact h.totalPegout

/-- A derived input has the amount of the field. -/
theorem sat_mwebDeriveInputState_value {P : Type} (S : Secp P) (scanKey spendKey : Bytes)
    (addressIndex : UInt32) (features : UInt8) (spentOutputId spentOutputPk : Bytes)
    (amount : UInt64) (keyExchangePubkey : Bytes) (t : Tape) :
    Sat (mwebDeriveInputState S scanKey spendKey addressIndex features spentOutputId spentOutputPk
        amount keyExchangePubkey)
      (fun state _ => state.value = amount) (fun _ _ => True) t := by
  simp only [mwebDeriveInputState, sat_bind, sat_check, sat_orFail, sat_pure, implies_true,
    and_true]
  intros
  refine sat_mwebBlindSwitch S _ _ fun _ _ _ _ => sat_drawScalar 8 (fun _ _ => ?_) _
  intros
  exact sat_of_forall (fun _ _ => trivial) fun _ _ => trivial

section Model

variable {P : Type} {env : Env P}

theorem sat_deriveOwnedInput_value (inp : PsbtInput) (i : ℕ) (t : Tape) :
    Sat (deriveOwnedInput env inp i) (fun si _ => si.state.value = inp.mwebInputAmount)
      (fun _ _ => True) t := by
  simp only [deriveOwnedInput, sat_bind, sat_check, sat_orFail, sat_pure, implies_true, and_true]
  intros
  refine (sat_mwebDeriveInputState_value _ _ _ _ _ _ _ _ _ t).mono ?_ (fun _ _ h => h)
  intro state t' hvalue _ _
  exact hvalue

theorem Counted.buildInput {pre : List PsbtInput} (inp : PsbtInput) {b : Build}
    (h : Counted pre b.session) :
    Sat (buildInput env inp pre.length) (fun _ b' => Counted (pre ++ [inp]) b'.session)
      (fun _ _ => True) b := by
  rw [Mweb.buildInput, sat_ite]
  constructor
  · intro hq
    simp only [sat_bind, sat_call]
    refine (sat_deriveOwnedInput_value inp pre.length b.tape).mono ?_ (fun _ _ h => h)
    intro si t hvalue
    simp only [sat_bind, sat_check, current, sat_get, sat_pure, sat_orFail, update, sat_modify,
      implies_true, and_true]
    intro hrange total htotal
    have hle := atomicInMoneyRange_iff.1 hrange
    exact { h with
      values := by
        rw [List.filter_append, List.filter_cons_of_pos (by exact hq), List.map_append,
          List.map_append, h.values, List.map_singleton, hvalue]
        rfl
      inputs := List.forall_mem_append.2 ⟨h.inputs, List.forall_mem_singleton.2 (hvalue ▸ hle)⟩
      totalInput := le_of_addToTotal htotal }
  · intro hq
    refine (sat_pure _).2 { h with values := ?_ }
    rw [List.filter_append, List.filter_cons_of_neg (by exact hq), List.filter_nil, List.append_nil]
    exact h.values

theorem Counted.buildOutput {ins : List PsbtInput} (po : PsbtOutput) (i : ℕ) {b : Build}
    (h : Counted ins b.session) :
    Sat (buildOutput env po i) (fun _ b' => Counted ins b'.session) (fun _ _ => True) b := by
  rw [Mweb.buildOutput, sat_ite]
  constructor
  · intro _
    simp only [sat_bind, sat_call, sat_check, current, sat_get, sat_pure, sat_orFail, update,
      sat_modify, implies_true, and_true]
    refine sat_of_forall (fun so t hrange total htotal => ?_) fun _ _ => trivial
    exact { h with
      outputs := List.forall_mem_append.2
        ⟨h.outputs, List.forall_mem_singleton.2 (atomicInMoneyRange_iff.1 hrange)⟩
      totalOutput := le_of_addToTotal htotal }
  · intro _
    exact (sat_pure _).2 h

theorem Counted.buildPegout {ins : List PsbtInput} (value : Bytes) {b : Build}
    (h : Counted ins b.session) :
    Sat (buildPegout env value) (fun _ b' => Counted ins b'.session) (fun _ _ => True) b := by
  simp only [Mweb.buildPegout, sat_bind, sat_call, sat_orFail, sat_check, current, sat_get,
    sat_pure, update, sat_modify, implies_true, and_true]
  intro pegout _ hrange _ total htotal
  exact { h with
    pegouts := List.forall_mem_append.2
      ⟨h.pegouts, List.forall_mem_singleton.2 (atomicInMoneyRange_iff.1 hrange)⟩
    totalPegout := le_of_addToTotal htotal }

theorem AmountsCapped.of_counted {ins : List PsbtInput} {kernel : PsbtKernel} {features : UInt8}
    {stealthKey : Option Bytes} {s : MwebSession} (h : Counted ins s)
    (hkernel : KernelChecked kernel features stealthKey s) : AmountsCapped s where
  inputs := h.inputs
  outputs := h.outputs
  pegouts := h.pegouts
  totalInput := h.totalInput
  totalOutput := h.totalOutput
  totalPegout := h.totalPegout
  fee := by rw [hkernel.totals.fee]; exact atomicInMoneyRange_iff.1 hkernel.inRange.1
  pegin := by rw [hkernel.totals.pegin]; exact atomicInMoneyRange_iff.1 hkernel.inRange.2

/-! ### The sums of the signer -/

theorem isExact_u64AddChecked : Checked.IsExact u64AddChecked := by
  intro a b r
  refine ⟨fun h => isAdd_u64AddChecked h, fun h => ?_⟩
  have hlt := r.toNat_lt
  have hsum : a + b = r := by
    rw [← UInt64.toNat_inj, UInt64.toNat_add, h]
    omega
  rw [u64AddChecked, hsum, if_pos]
  rw [ge_iff_le, UInt64.le_iff_toNat_le]
  omega

/-- The side of the inputs is their total and the amount that is pegged in. -/
theorem kernelInputSum_eq {p : MwebKernelSignParams} {inputs r : UInt64}
    (hinputs : kernelInputTotal p = some inputs)
    (hr : r.toNat = inputs.toNat + (p.peginAmount.getD 0).toNat) : kernelInputSum p = some r := by
  rw [kernelInputSum, hinputs, Option.bind_eq_bind, Option.bind_some]
  cases hpegin : p.peginAmount with
  | none =>
      rw [hpegin] at hr
      exact congrArg some (UInt64.toNat_inj.1 (by simpa using hr.symm))
  | some pegin =>
      rw [hpegin] at hr
      exact isExact_u64AddChecked.2 hr

/-- The side of the outputs is their total, the fee and the pegouts. -/
theorem kernelOutputSum_eq {p : MwebKernelSignParams} {outputs pegouts r : UInt64}
    (houtputs : kernelOutputTotal p = some outputs)
    (hr : r.toNat = outputs.toNat + (p.fee.getD 0).toNat + pegouts.toNat) :
    kernelOutputSum p pegouts = some r := by
  rw [kernelOutputSum, houtputs, Option.bind_eq_bind, Option.bind_some]
  cases hfee : p.fee with
  | none =>
      rw [hfee] at hr
      exact isExact_u64AddChecked.2 (by simpa using hr)
  | some fee =>
      rw [hfee, Option.getD_some] at hr
      have hlt := r.toNat_lt
      -- the outputs and the fee alone are below the sum that includes the pegouts
      have hsum : (outputs + fee).toNat = outputs.toNat + fee.toNat := by
        rw [UInt64.toNat_add]
        omega
      have hadd := isExact_u64AddChecked.2 hsum
      simp only [hadd, Option.bind_some]
      exact isExact_u64AddChecked.2 (by rw [hsum]; exact hr)

/-- The parameters balance by the sums of the signer: both sides come out, and as one word. -/
def SignerBalanced (p : MwebKernelSignParams) : Prop :=
  ∃ pegouts side, kernelPegoutTotal p = some pegouts ∧ kernelInputSum p = some side ∧
    kernelOutputSum p pegouts = some side

/-- The recomputation lets pass only what balances. -/
theorem sat_kernelBalance (p : MwebKernelSignParams) (t : Tape) :
    Sat (kernelBalance p) (fun _ _ => SignerBalanced p) (fun e _ => e = .balanceFail) t := by
  simp only [kernelBalance, sat_bind, sat_orFail, sat_check, implies_true, and_true]
  intro pegouts hpegouts inputs hinputs outputs houtputs hsame
  obtain rfl := beq_iff_eq.1 hsame
  exact ⟨pegouts, inputs, hpegouts, hinputs, houtputs⟩

/-- What balances passes. -/
theorem SignerBalanced.kernelBalance_eq {p : MwebKernelSignParams} (h : SignerBalanced p) :
    kernelBalance p = pure () := by
  obtain ⟨pegouts, side, hpegouts, hinputs, houtputs⟩ := h
  simp only [kernelBalance, hpegouts, hinputs, houtputs, orFail, pure_bind, beq_self_eq_true]
  rfl

/-! ### The checks of the signer -/

/-- A program that reports neither an imbalance nor a mismatch of the features. -/
abbrev MismatchFree {α : Type} (x : M α) : Prop :=
  Throws (fun _ => True) (fun e => e ≠ .balanceFail ∧ e ≠ .kernelFeatureMismatch) x

theorem mismatchFree_orFail {α : Type} (x : Option α) {e : MwebErr}
    (he : e ≠ .balanceFail ∧ e ≠ .kernelFeatureMismatch) : MismatchFree (orFail x e) := by
  cases x with
  | none => exact Throws.throw he
  | some a => exact Throws.pure a

/-- A program that throws nothing. -/
theorem mismatchFree_of_sat {α : Type} {x : M α} {Q : Tape → α → Tape → Prop}
    (h : ∀ t, Sat x (Q t) (fun _ _ => False) t) : MismatchFree x := by
  intro t _
  exact (h t).mono (fun _ _ _ => trivial) (fun _ _ h => h.elim)

theorem mismatchFree_kernelTxOffset (eK : Bytes) (p : MwebKernelSignParams) :
    MismatchFree (kernelTxOffset eK p) := by
  refine (mismatchFree_of_sat fun _ => sat_sumModN _ _).bind fun _ =>
    (mismatchFree_orFail _ (by decide)).bind fun _ => ?_
  refine (mismatchFree_of_sat fun _ => sat_mwebScalarSubModN _ _).bind fun _ =>
    (mismatchFree_orFail _ (by decide)).bind fun _ => ?_
  exact (mismatchFree_of_sat fun _ => sat_mwebScalarSubModN _ _).bind fun _ =>
    mismatchFree_orFail _ (by decide)

theorem mismatchFree_kernelStealthOffset (p : MwebKernelSignParams) (stealthKey : Option Bytes) :
    MismatchFree (kernelStealthOffset p stealthKey) := by
  refine (mismatchFree_of_sat fun _ => sat_sumModN _ _).bind fun _ =>
    (mismatchFree_orFail _ (by decide)).bind fun _ => ?_
  refine (mismatchFree_of_sat fun _ => sat_mwebScalarAddModN _ _).bind fun _ =>
    (mismatchFree_orFail _ (by decide)).bind fun _ => ?_
  cases stealthKey with
  | none => exact Throws.pure _
  | some key =>
      exact (mismatchFree_of_sat fun _ => sat_mwebScalarSubModN _ _).bind fun _ =>
        mismatchFree_orFail _ (by decide)

theorem mismatchFree_feIsQuad (y : Bytes) : MismatchFree (feIsQuad y) :=
  (mismatchFree_of_sat (Q := fun _ _ _ => True) fun _ => sat_alloc fun _ _ => trivial).bind
    fun _ => (Throws.pure _).ite (Throws.pure _)

theorem mismatchFree_mwebSchnorrSign (S : Secp P) (secretKey msg : Bytes) :
    MismatchFree (mwebSchnorrSign S secretKey msg) := by
  rw [mwebSchnorrSign]
  cases S.ecPubkeyCreate (S.sha256 (secretKey ++ msg)) with
  | none => exact Throws.pure _
  | some R =>
      refine (mismatchFree_feIsQuad _).bind fun isQuad => ?_
      cases isQuad with
      | none => exact Throws.pure _
      | some isQuad =>
          dsimp only
          split <;> exact Throws.pure _

/-- A check that is known to succeed. -/
theorem mismatchFree_check {c : Bool} (h : c = true) (e : MwebErr) :
    MismatchFree (check c e : M Unit) := by
  rw [h]
  exact Throws.pure _

theorem not_beq_of_not_eq {a b : Bool} (h : (!a) = b) : (!(a == b)) = true := by
  rw [← h]
  cases a <;> rfl

theorem mismatchFree_kernelValidate (eK : Bytes) {p : MwebKernelSignParams} (h : FieldsAgree p) :
    MismatchFree (kernelValidate eK p) := by
  have hstealth : (!(!hasBit p.features MWEB_KERNEL_STEALTH_EXCESS_BIT &&
      p.stealthKeyOrNull.isSome)) = true := by
    rw [h.stealthKey]
    cases hasBit p.features MWEB_KERNEL_STEALTH_EXCESS_BIT <;> rfl
  refine (Throws.check _ (by decide)).bind fun _ =>
    (mismatchFree_check (beq_iff_eq.2 h.fee) _).bind fun _ =>
    (mismatchFree_check (beq_iff_eq.2 h.pegin) _).bind fun _ =>
    (mismatchFree_check (not_beq_of_not_eq h.pegouts) _).bind fun _ =>
    (mismatchFree_check (beq_iff_eq.2 h.lockHeight) _).bind fun _ =>
    (mismatchFree_check (not_beq_of_not_eq h.extraData) _).bind fun _ => ?_
  exact (Throws.check _ (by decide)).bind fun _ =>
    (mismatchFree_check hstealth _).bind fun _ => Throws.check _ (by decide)

/-- **The signer signs only what balances by its own sums**, whoever calls it. -/
theorem sat_mwebSignKernelWithEk_checked (S : Secp P) (eK : Bytes) (p : MwebKernelSignParams)
    (t : Tape) :
    Sat (mwebSignKernelWithEk S eK p) (fun _ _ => FieldsAgree p ∧ SignerBalanced p)
      (fun _ _ => True) t := by
  rw [mwebSignKernelWithEk, sat_bind]
  refine (sat_kernelValidate eK p t).mono ?_ (fun _ _ _ => trivial)
  intro _ t₁ hfields
  rw [sat_bind]
  refine (sat_kernelBalance p t₁).mono ?_ (fun _ _ _ => trivial)
  intro _ t₂ hbalanced
  exact sat_of_forall (fun _ _ => ⟨hfields, hbalanced⟩) fun _ _ => trivial

theorem mismatchFree_mwebSignKernelWithEk (S : Secp P) (eK : Bytes) {p : MwebKernelSignParams}
    (hfields : FieldsAgree p) (hbalance : kernelBalance p = pure ()) :
    MismatchFree (mwebSignKernelWithEk S eK p) := by
  rw [mwebSignKernelWithEk, hbalance]
  refine (mismatchFree_kernelValidate eK hfields).bind fun _ => (Throws.pure ()).bind fun _ =>
    (mismatchFree_orFail _ (by decide)).bind fun _ =>
    (mismatchFree_orFail _ (by decide)).bind fun _ => ?_
  dsimp only
  generalize (if hasBit p.features MWEB_KERNEL_STEALTH_EXCESS_BIT then p.stealthKeyOrNull
    else none) = stealthKey
  cases stealthKey
  case' some key => refine (mismatchFree_orFail _ (by decide)).bind fun _ => ?_
  all_goals
    refine (mismatchFree_orFail _ (by decide)).bind fun _ =>
      (mismatchFree_orFail _ (by decide)).bind fun _ =>
      (mismatchFree_mwebSchnorrSign S _ _).bind fun _ =>
      (mismatchFree_orFail _ (by decide)).bind fun _ => ?_
    exact (mismatchFree_kernelTxOffset _ _).bind fun _ =>
      (mismatchFree_kernelStealthOffset _ _).bind fun _ => Throws.pure _

/-! ### Agreement -/

/-- **The signer agrees with the session**: the totals it recomputes are those of the session, which
are the sums of the numbers, its two sides are one word, and whatever key it is given it reports
neither an imbalance nor a mismatch of the features. -/
structure SignerAgrees (S : Secp P) (s : MwebSession) (p : MwebKernelSignParams) : Prop where
  inputTotal : kernelInputTotal p = some s.totalInputValue
  outputTotal : kernelOutputTotal p = some s.totalOutputValue
  pegoutTotal : kernelPegoutTotal p = some s.totalPegout
  fee : p.fee.getD 0 = s.totalFee
  pegin : p.peginAmount.getD 0 = s.totalPegin
  inputSum : s.totalInputValue.toNat = (p.inputs.map fun i => i.value.toNat).sum
  outputSum : s.totalOutputValue.toNat = (p.outputs.map fun o => o.value.toNat).sum
  pegoutSum : ∃ entries, p.pegouts.items.mapM (fun item => parsePegoutValue item.2) = some entries ∧
    s.totalPegout.toNat = (entries.map fun entry => entry.amount.toNat).sum
  sides : ∃ side, kernelInputSum p = some side ∧ kernelOutputSum p s.totalPegout = some side ∧
    side.toNat = s.totalInputValue.toNat + s.totalPegin.toNat ∧
    side.toNat = s.totalOutputValue.toNat + s.totalFee.toNat + s.totalPegout.toNat
  balances : kernelBalance p = pure ()
  signs : ∀ eK, MismatchFree (mwebSignKernelWithEk S eK p)

theorem fieldsAgree_kernelParams {s : MwebSession} {kernel : PsbtKernel} {features : UInt8}
    {stealthKey : Option Bytes} (h : KernelChecked kernel features stealthKey s)
    (receivedTxOffset receivedStealthOffset : Bytes) :
    FieldsAgree
      (kernelParams s kernel features stealthKey receivedTxOffset receivedStealthOffset) := by
  have hmatch := h.fieldsMatch
  simp only [featuresMatch, Bool.and_eq_true, beq_iff_eq] at hmatch
  obtain ⟨⟨⟨⟨hfee, hpegin⟩, hpegouts⟩, hheight⟩, hextra⟩ := hmatch
  exact {
    fee := by simp [kernelParams, hfee]
    pegin := by simp [kernelParams, hpegin]
    pegouts := hpegouts.symm
    lockHeight := by simp [kernelParams, hheight]
    extraData := hextra.symm
    stealthKey := h.stealthKey }

/-- The parser of the session and that of the signer are the same, so the lists of amounts are. -/
theorem mapM_parsePegoutValue {ins : List PsbtInput} {outs : List PsbtOutput}
    {pegs : List (MapKey × Bytes)} {s : MwebSession} (h : Contents env ins outs pegs s) :
    pegs.mapM (fun item => parsePegoutValue item.2) =
      some (s.pegouts.map SessionPegout.pegout) := by
  refine mapM_eq_some.2 ?_
  rw [List.map_map]
  exact h.pegouts

theorem signerAgrees_kernelParams {p : Psbt} {kernel : PsbtKernel} {features : UInt8}
    {stealthKey : Option Bytes} {s : MwebSession}
    (hcontents : Contents env p.inputs p.outputs kernel.pegouts.items s)
    (hcounted : Counted p.inputs s) (hkernel : KernelChecked kernel features stealthKey s)
    (receivedTxOffset receivedStealthOffset : Bytes) :
    SignerAgrees env.toSecp s
      (kernelParams s kernel features stealthKey receivedTxOffset receivedStealthOffset) := by
  have hcapped := AmountsCapped.of_counted hcounted hkernel
  have hbalance := toNat_of_sessionBalanced hkernel.balanced
  have hmapM := mapM_parsePegoutValue hcontents
  -- the sums of natural numbers
  have hinputSum : s.totalInputValue.toNat = (s.inputs.map fun si => si.state.value.toNat).sum := by
    have hvalues := congrArg (List.map UInt64.toNat) hcounted.values
    rw [List.map_map, List.map_map] at hvalues
    rw [hcontents.totalInput]
    exact congrArg List.sum hvalues.symm
  have hinputTotal : kernelInputTotal
      (kernelParams s kernel features stealthKey receivedTxOffset receivedStealthOffset) =
        some s.totalInputValue := by
    rw [kernelInputTotal, Checked.sum_eq_some_iff isExact_u64AddChecked, hinputSum]
    simp [kernelParams, Function.comp_def]
  have houtputTotal : kernelOutputTotal
      (kernelParams s kernel features stealthKey receivedTxOffset receivedStealthOffset) =
        some s.totalOutputValue := by
    rw [kernelOutputTotal, Checked.sum_eq_some_iff isExact_u64AddChecked, hcontents.totalOutput]
    simp [kernelParams, Function.comp_def]
  have hpegoutTotal : derivePegoutTotal kernel.pegouts = some s.totalPegout := by
    rw [derivePegoutTotal, hmapM, Option.bind_eq_bind, Option.bind_some,
      Checked.sum_eq_some_iff isExact_u64AddChecked, List.map_map, List.map_map,
      hcontents.totalPegout]
    simp [Function.comp_def, SessionPegout.pegout]
  have hfields := fieldsAgree_kernelParams hkernel receivedTxOffset receivedStealthOffset
  have hpegouts : kernelPegoutTotal
      (kernelParams s kernel features stealthKey receivedTxOffset receivedStealthOffset) =
        some s.totalPegout := by
    rw [kernelPegoutTotal, ← hfields.pegouts]
    cases hempty : kernel.pegouts.items with
    | nil =>
        -- without pegouts the total of the session is the one of the empty list
        rw [derivePegoutTotal, hempty] at hpegoutTotal
        simpa [kernelParams, hempty, Checked.sum] using hpegoutTotal
    | cons item items => simpa [kernelParams, hempty] using hpegoutTotal
  have hfee : (kernel.fee.map fun _ => s.totalFee).getD 0 = s.totalFee := by
    rw [hkernel.totals.fee]
    cases kernel.fee <;> rfl
  have hpegin : (kernel.peginAmount.map fun _ => s.totalPegin).getD 0 = s.totalPegin := by
    rw [hkernel.totals.pegin]
    cases kernel.peginAmount <;> rfl
  -- the two sides are one word
  obtain ⟨side, hside⟩ : ∃ side : UInt64,
      side.toNat = s.totalInputValue.toNat + s.totalPegin.toNat := by
    have hinput := UInt64.le_iff_toNat_le.1 hcapped.totalInput
    have hpegin := UInt64.le_iff_toNat_le.1 hcapped.pegin
    have hcap : MWEB_LTC_MAX_LITOSHI.toNat = 8400000000000000 := by decide
    exact ⟨_, UInt64.toNat_ofNat_of_lt' (show _ < 2 ^ 64 by omega)⟩
  have hsides : kernelInputSum
      (kernelParams s kernel features stealthKey receivedTxOffset receivedStealthOffset) = some side ∧
    kernelOutputSum
      (kernelParams s kernel features stealthKey receivedTxOffset receivedStealthOffset)
        s.totalPegout = some side := by
    constructor
    · refine kernelInputSum_eq hinputTotal ?_
      rw [hside]
      exact congrArg (fun n => s.totalInputValue.toNat + n.toNat) hpegin.symm
    · refine kernelOutputSum_eq houtputTotal ?_
      rw [hside, hbalance]
      exact congrArg (fun n => s.totalOutputValue.toNat + n.toNat + s.totalPegout.toNat) hfee.symm
  have hsigner : SignerBalanced
      (kernelParams s kernel features stealthKey receivedTxOffset receivedStealthOffset) :=
    ⟨_, side, hpegouts, hsides⟩
  exact {
    inputTotal := hinputTotal
    outputTotal := houtputTotal
    pegoutTotal := hpegouts
    fee := hfee
    pegin := hpegin
    inputSum := by simpa [kernelParams, Function.comp_def] using hinputSum
    outputSum := by simpa [kernelParams, Function.comp_def] using hcontents.totalOutput
    pegoutSum := by
      refine ⟨_, hmapM, ?_⟩
      rw [hcontents.totalPegout, List.map_map]
      rfl
    sides := ⟨side, hsides.1, hsides.2, hside, hside.trans hbalance⟩
    balances := hsigner.kernelBalance_eq
    signs := fun eK =>
      mismatchFree_mwebSignKernelWithEk env.toSecp eK hfields hsigner.kernelBalance_eq }

/-! ### The checks of the session -/

/-- `mweb_session_begin` up to the kernel signature: the snapshots, and every check of its own. -/
def sessionEntries (env : Env P) (psbt : Psbt) (kernel : PsbtKernel) : B (UInt8 × Option Bytes) := do
  snapshotInputs psbt
  snapshotOutputs psbt
  buildEntries env psbt kernel

/-- What is left of the build is to sign the kernel. -/
theorem buildSession_eq (env : Env P) (psbt : Psbt) (kernel : PsbtKernel) :
    buildSession env psbt kernel =
      sessionEntries env psbt kernel >>= fun fk => buildKernel env kernel fk.1 fk.2 := by
  simp only [buildSession, sessionEntries, buildBody_eq, bind_assoc]

/-- **What has passed the checks of the session passes those of the signer**, whatever the offsets.
-/
theorem sat_sessionEntries (psbt : Psbt) (kernel : PsbtKernel) (t : Tape) :
    Sat (sessionEntries env psbt kernel)
      (fun fk b => AmountsCapped b.session ∧ ∀ receivedTxOffset receivedStealthOffset,
        SignerAgrees env.toSecp b.session
          (kernelParams b.session kernel fk.1 fk.2 receivedTxOffset receivedStealthOffset))
      (fun _ _ => True) { session := MwebSession.create psbt kernel, tape := t } := by
  have hframe : ∀ ins outs pegs s s', SameContents s s' →
      (Contents env ins outs pegs s ∧ Counted ins s) →
        Contents env ins outs pegs s' ∧ Counted ins s' :=
    fun _ _ _ _ _ hsame h => ⟨h.1.frame hsame, h.2.frame hsame⟩
  rw [sessionEntries, sat_bind]
  refine (keeps_snapshotInputs psbt (J := fun s => Contents env [] [] [] s ∧ Counted [] s)
    (fun s _ h => hframe _ _ _ s _ ⟨rfl, rfl, rfl, rfl, rfl, rfl, rfl⟩ h) _
    ⟨contents_create psbt kernel, counted_create psbt kernel⟩).mono ?_ (fun _ _ _ => trivial)
  intro _ b₁ h₁
  rw [sat_bind]
  refine (keeps_snapshotOutputs psbt (J := fun s => Contents env [] [] [] s ∧ Counted [] s)
    (fun s _ h => hframe _ _ _ s _ ⟨rfl, rfl, rfl, rfl, rfl, rfl, rfl⟩ h) b₁ h₁).mono ?_
    (fun _ _ _ => trivial)
  intro _ b₂ h₂
  refine (sat_buildEntries_of (I := fun ins outs pegs s => Contents env ins outs pegs s ∧
    Counted ins s) hframe ?_ ?_ ?_ h₂).mono ?_ (fun _ _ h => h)
  · intro pre inp b _ h
    exact ((h.1.buildInput inp).and (h.2.buildInput inp)).mono (fun _ _ h => h)
      (fun _ _ _ => trivial)
  · intro pre po b h
    exact ((h.1.buildOutput po).and (h.2.buildOutput po pre.length)).mono (fun _ _ h => h)
      (fun _ _ _ => trivial)
  · intro pre item b h
    exact ((h.1.buildPegout item).and (h.2.buildPegout item.2)).mono (fun _ _ h => h)
      (fun _ _ _ => trivial)
  · intro fk b ⟨⟨hcontents, hcounted⟩, hkernel⟩
    exact ⟨AmountsCapped.of_counted hcounted hkernel,
      fun _ _ => signerAgrees_kernelParams hcontents hcounted hkernel _ _⟩

/-- **The amounts of a session that is open are in the money range.** -/
theorem sat_mwebSessionBegin_capped (networkId : Network) (w : World) :
    Sat (mwebSessionBegin env networkId)
      (fun _ w' => ∃ s, w'.session = some s ∧ AmountsCapped s) (fun _ _ => True) w := by
  refine (sat_mwebSessionBegin_of (J := Counted []) (R := fun _ _ s => AmountsCapped s)
    counted_create (fun s s' hsame h => h.frame hsame) ?_ networkId w).mono ?_ (fun _ _ h => h)
  · intro p kernel b _ h
    rw [buildBody_eq, sat_bind]
    refine (sat_buildEntries_of (I := fun ins _ _ s => Counted ins s)
      (fun _ _ _ _ _ hsame h => h.frame hsame) (fun _ inp _ _ h => h.buildInput inp)
      (fun pre po _ h => h.buildOutput po pre.length) (fun _ item _ h => h.buildPegout item.2)
      h).mono ?_ (fun _ _ h => h)
    rintro fk b' ⟨hcounted, hkernel⟩
    exact (keeps_buildKernel_of env kernel fk.1 fk.2 (fun _ _ _ _ _ _ h => { h with }) b'
      (AmountsCapped.of_counted hcounted hkernel)).mono (fun _ _ h => h) (fun _ _ _ => trivial)
  · rintro _ w' ⟨-, -, kernel, s, -, hs, hcapped⟩
    exact ⟨s, hs, hcapped⟩

end Model

end Jade.Mweb
