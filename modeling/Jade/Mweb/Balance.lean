/-
**The two balances of a committed session.**

A committed session has written, for each of its outputs, a commitment and a sender key, for each
of its inputs a public key, and for the kernel an excess, two offsets and perhaps a stealth excess.
A verifier adds the points up.  That the sums come out right is settled while the session is built:
each scalar is drawn or derived once, kept in the session, and folded into an offset with the sign
that cancels it against the points.  The invariant of the build is therefore a correspondence — the
session has one entry for each MWEB input and output of the PSBT, in order, each opening the points
of its entry — together with the running totals; the commit carries the correspondence over to what
it writes.

Main definitions:

* `Jade.Mweb.sumPoints` — the sum of decoded points;
* `Jade.Mweb.InputEntry`, `Jade.Mweb.OutputEntry` — a session entry and the PSBT entry it is for;
* `Jade.Mweb.Progress` — the invariant of the build;
* `Jade.Mweb.Ready` — what a finished session knows;
* `Jade.Mweb.Committed` — what a commit leaves in the PSBT.

Main results:

* `Jade.Mweb.sat_mwebSessionBegin_ready` — a session that is opened is ready;
* `Jade.Mweb.committed_of_run` — a session that is committed has written what it knew;
* `Jade.Mweb.kernel_balance` — **the commitments, the kernel's value and its excess balance**;
* `Jade.Mweb.stealth_balance` — **the sender keys, input keys and spent keys balance**.
-/

import Jade.Mweb.Contents
import Mathlib.Algebra.Module.BigOperators
import Mathlib.Tactic.LinearCombination
import Mathlib.Tactic.Module

set_option relaxedAutoImplicit false
set_option autoImplicit false

namespace Jade.Mweb

open Exec

variable {P : Type} [AddCommGroup P] [Module (ZMod order) P]

/-! ### Sums of points -/

/-- The sum of the points the byte strings decode to; `none` if one of them is not a point. -/
def sumPoints (decode : Bytes → Option P) : List Bytes → Option P
  | [] => some 0
  | bs :: bss => do
      let Q ← decode bs
      let R ← sumPoints decode bss
      pure (Q + R)

omit [Module (ZMod order) P] in
theorem sumPoints_of_map {β : Type} (decode : Bytes → Option P) (h : β → P) {ws : List β} :
    ∀ bss : List Bytes, bss.map decode = ws.map (fun w => some (h w)) →
      sumPoints decode bss = some (ws.map h).sum := by
  induction ws with
  | nil =>
      intro bss heq
      obtain rfl : bss = [] := by simpa using heq
      rfl
  | cons w ws ih =>
      intro bss heq
      cases bss with
      | nil => simp at heq
      | cons bs bss =>
          rw [List.map_cons, List.map_cons, List.cons.injEq] at heq
          rw [sumPoints, heq.1, ih bss heq.2]
          simp

theorem sum_map_open {β : Type} (r v : β → ZMod order) (G H : P) (ws : List β) :
    (ws.map fun w => r w • G + v w • H).sum = (ws.map r).sum • G + (ws.map v).sum • H := by
  rw [List.sum_map_add, List.sum_smul, List.sum_smul, List.map_map, List.map_map]
  rfl

theorem sum_map_smul {β : Type} (r : β → ZMod order) (G : P) (ws : List β) :
    (ws.map fun w => r w • G).sum = (ws.map r).sum • G := by
  rw [List.sum_smul, List.map_map]
  rfl

theorem cast_sum_map {β : Type} (f : β → ℕ) (ws : List β) :
    (((ws.map f).sum : ℕ) : ZMod order) = (ws.map fun w => (f w : ZMod order)).sum := by
  rw [Nat.cast_list_sum, List.map_map]
  rfl

/-! ### Entries -/

variable {env : Env P} (C : Curve env.toSecp)

/-- A session input and the PSBT input it is for. -/
structure InputEntry (inp : PsbtInput) (si : SessionInput) : Prop where
  keys : InputKeys C si.state
  value : si.state.value = inp.mwebInputAmount
  commit : inp.mwebSpentOutputCommit = si.state.outputCommit
  spent : inp.mwebSpentOutputPubkey = si.state.spentOutputPk

/-- A session output and the PSBT output it is for. -/
structure OutputEntry (po : PsbtOutput) (so : SessionOutput) : Prop where
  keys : OutputKeys C so.value so.senderKey so.blind so.commit so.senderPubkey
  value : po.amount = some so.value

theorem sat_deriveOwnedInput (inp : PsbtInput) (i : ℕ) (t : Tape) :
    Sat (deriveOwnedInput env inp i) (fun si _ => si.psbtIndex = i ∧ InputEntry C inp si)
      (fun _ _ => True) t := by
  simp only [deriveOwnedInput, sat_bind, sat_check, sat_orFail, sat_pure, implies_true, and_true]
  intros
  refine (sat_mwebDeriveInputState C _ _ _ _ _ _ _ _ t).mono ?_ (fun _ _ h => h)
  rintro state t' ⟨hkeys, hvalue, hpk⟩ _ hcommit
  exact ⟨trivial, hkeys, hvalue, by simpa using hcommit, hpk.symm⟩

theorem sat_buildMwebOutput (po : PsbtOutput) (i : ℕ) (t : Tape) :
    Sat (buildMwebOutput env po i) (fun so _ => so.psbtIndex = i ∧ OutputEntry C po so)
      (fun _ _ => True) t := by
  simp only [buildMwebOutput, sat_bind, sat_check, sat_orFail, sat_tryCatch, sat_throw, sat_pure,
    implies_true, and_true]
  intro value hvalue _ extraData _
  refine sat_drawScalar 8 (fun r t₁ senderKey _ => ?_) t
  refine (sat_mwebBuildOutput C senderKey _ _ value _ extraData t₁).mono ?_ (fun _ _ h => h)
  intro built t₂ hkeys
  exact ⟨trivial, hkeys, hvalue⟩

/-! ### The invariant of the build -/

/-- The amount of a pegout entry. -/
def pegoutAmount (item : MapKey × Bytes) : ℕ :=
  ((atomicParsePegout item.2).map fun pegout => pegout.amount.toNat).getD 0

/-- The kernel's pegout total. -/
def pegoutTotal (items : List (MapKey × Bytes)) : ℕ := (items.map pegoutAmount).sum

/-- **The invariant of the build**: the inputs `ins`, the outputs `outs` and the pegouts `pegs` have
been handled. -/
structure Progress (ins : List PsbtInput) (outs : List PsbtOutput) (pegs : List (MapKey × Bytes))
    (s : MwebSession) : Prop where
  inputs : Slots SessionInput.psbtIndex isMwebInput (InputEntry C) 0 ins s.inputs
  outputs : Slots SessionOutput.psbtIndex isMwebOutput (OutputEntry C) 0 outs s.outputs
  totalInput : s.totalInputValue.toNat = (s.inputs.map fun si => si.state.value.toNat).sum
  totalOutput : s.totalOutputValue.toNat = (s.outputs.map fun so => so.value.toNat).sum
  totalPegout : s.totalPegout.toNat = pegoutTotal pegs
  kernelIndex : s.kernelIndex = 0

theorem progress_create (p : Psbt) (k : PsbtKernel) :
    Progress C [] [] [] (MwebSession.create p k) where
  inputs := Slots.nil
  outputs := Slots.nil
  totalInput := rfl
  totalOutput := rfl
  totalPegout := rfl
  kernelIndex := rfl

theorem Progress.frame {ins : List PsbtInput} {outs : List PsbtOutput}
    {pegs : List (MapKey × Bytes)} {s s' : MwebSession} (h : Progress C ins outs pegs s)
    (hsame : SameContents s s') : Progress C ins outs pegs s' where
  inputs := by rw [hsame.inputs]; exact h.inputs
  outputs := by rw [hsame.outputs]; exact h.outputs
  totalInput := by rw [hsame.totalInput, hsame.inputs]; exact h.totalInput
  totalOutput := by rw [hsame.totalOutput, hsame.outputs]; exact h.totalOutput
  totalPegout := by rw [hsame.totalPegout]; exact h.totalPegout
  kernelIndex := by rw [hsame.kernelIndex]; exact h.kernelIndex

theorem sat_buildInput {pre : List PsbtInput} (inp : PsbtInput) {b : Build}
    (h : Progress C pre [] [] b.session) :
    Sat (buildInput env inp pre.length)
      (fun _ b' => Progress C (pre ++ [inp]) [] [] b'.session)
      (fun _ _ => True) b := by
  rw [buildInput, sat_ite]
  constructor
  · intro hq
    simp only [sat_bind, sat_call]
    refine (sat_deriveOwnedInput C inp pre.length b.tape).mono ?_ (fun _ _ h => h)
    rintro si t ⟨hidx, hentry⟩
    simp only [sat_bind, sat_check, current, sat_get, sat_pure, sat_orFail, update,
      sat_modify, implies_true, and_true]
    intro _ total htotal
    have hsum := isAdd_addToTotal htotal
    exact { h with
      inputs := h.inputs.append_take hq (by rw [hidx, Nat.zero_add]) hentry
      totalInput := by
        rw [List.map_append, List.sum_append, ← h.totalInput, hsum, ← hentry.value]
        simp }
  · intro hq
    exact (sat_pure _).2 { h with inputs := h.inputs.append_skip (Bool.eq_false_iff.2 hq) }

theorem sat_buildOutput {ins : List PsbtInput} {pre : List PsbtOutput} (po : PsbtOutput)
    {b : Build} (h : Progress C ins pre [] b.session) :
    Sat (buildOutput env po pre.length)
      (fun _ b' => Progress C ins (pre ++ [po]) [] b'.session)
      (fun _ _ => True) b := by
  rw [buildOutput, sat_ite]
  constructor
  · intro hq
    simp only [sat_bind, sat_call]
    refine (sat_buildMwebOutput C po pre.length b.tape).mono ?_ (fun _ _ h => h)
    rintro so t ⟨hidx, hentry⟩
    simp only [sat_bind, sat_check, current, sat_get, sat_pure, sat_orFail, update,
      sat_modify, implies_true, and_true]
    intro _ total htotal
    have hsum := isAdd_addToTotal htotal
    exact { h with
      outputs := h.outputs.append_take hq (by rw [hidx, Nat.zero_add]) hentry
      totalOutput := by
        rw [List.map_append, List.sum_append, ← h.totalOutput, hsum]
        simp }
  · intro hq
    exact (sat_pure _).2 { h with outputs := h.outputs.append_skip (Bool.eq_false_iff.2 hq) }

theorem sat_buildPegout {ins : List PsbtInput} {outs : List PsbtOutput}
    {pre : List (MapKey × Bytes)} (item : MapKey × Bytes) {b : Build}
    (h : Progress C ins outs pre b.session) :
    Sat (buildPegout env item.2)
      (fun _ b' => Progress C ins outs (pre ++ [item]) b'.session) (fun _ _ => True) b := by
  simp only [buildPegout, sat_bind, sat_call, sat_orFail, sat_check, current, sat_get, sat_pure,
    update, sat_modify, implies_true, and_true]
  intro pegout hparse _ _ total htotal
  have hsum := isAdd_addToTotal htotal
  exact { h with
    totalPegout := by
      rw [pegoutTotal, List.map_append, List.sum_append, ← pegoutTotal, ← h.totalPegout, hsum,
        List.map_singleton, List.sum_singleton, pegoutAmount, hparse]
      rfl }

/-- What the signed kernel of a session stands for: `eK` is the excess key, and `stealthKey` the
key of the stealth excess, zero when there is none. -/
structure KernelReady (s : MwebSession) (eK stealthKey : ZMod order) : Prop where
  excess : C.commitPoint s.kernel.excessCommitment = some (eK • C.G)
  txOffset : scalar s.kernel.txOffsetFinal = (s.outputs.map fun so => scalar so.blind).sum -
    (s.inputs.map fun si => scalar si.state.blind).sum - eK
  stealthOffset : scalar s.kernel.stealthOffsetFinal =
    (s.outputs.map fun so => scalar so.senderKey).sum +
    (s.inputs.map fun si => scalar si.state.stealthTweak).sum - stealthKey
  stealth : s.kernel.hasStealthExcess = true →
    env.ecPubkeyParse s.kernel.stealthExcess = some (stealthKey • C.G)
  noStealth : s.kernel.hasStealthExcess = false → stealthKey = 0

/-- **What a finished session knows.** -/
structure Ready (p : Psbt) (kernel : PsbtKernel) (s : MwebSession) : Prop where
  inputs : Slots SessionInput.psbtIndex isMwebInput (InputEntry C) 0 p.inputs s.inputs
  outputs : Slots SessionOutput.psbtIndex isMwebOutput (OutputEntry C) 0 p.outputs s.outputs
  balance : (s.inputs.map fun si => si.state.value.toNat).sum +
      (kernel.peginAmount.getD 0).toNat =
    (s.outputs.map fun so => so.value.toNat).sum + (kernel.fee.getD 0).toNat +
      pegoutTotal kernel.pegouts.items
  keys : ∃ eK stealthKey, KernelReady C s eK stealthKey
  kernelIndex : s.kernelIndex = 0

/-- Signing the kernel from a session whose stealth key was drawn to match the feature bit. -/
theorem sat_buildKernel (kernel : PsbtKernel) (features : UInt8) {stealthKey : Option Bytes}
    (hkey : stealthKey.isSome = hasBit features MWEB_KERNEL_STEALTH_EXCESS_BIT) {b : Build}
    (hse : b.session.kernel.hasStealthExcess = hasBit features MWEB_KERNEL_STEALTH_EXCESS_BIT)
    {I : MwebSession → Prop} (hI : I b.session)
    (hframe : ∀ s k, I s → I { s with kernel := k }) :
    Sat (buildKernel env kernel features stealthKey)
      (fun _ b' => I b'.session ∧ ∃ eK key, KernelReady C b'.session eK key)
      (fun _ _ => True) b := by
  simp only [buildKernel, current, sat_bind, sat_get, sat_pure]
  -- the allocations do not matter, and leave the session alone
  refine (keeps_callocArray (I := fun s => s = b.session) _ b rfl).mono ?_ (fun _ _ _ => trivial)
  intro _ b₁ h₁
  refine (keeps_callocArray (I := fun s => s = b.session) _ b₁ h₁).mono ?_ (fun _ _ _ => trivial)
  intro _ b₂ h₂
  simp only [sat_call, sat_bind, sat_orFail, update, sat_modify, implies_true, and_true]
  refine (sat_sumModN zero32 _).mono ?_ (fun _ _ h => h)
  rintro _ t₃ htx received rfl
  refine (sat_sumModN zero32 _).mono ?_ (fun _ _ h => h)
  rintro _ t₄ hst receivedStealth rfl
  refine (sat_mwebSignKernel C _ t₄).mono ?_ (fun _ _ h => h)
  rintro ko t₅ ⟨eK, hko⟩
  rw [h₂]
  refine ⟨hframe _ _ hI, scalar eK, (stealthKey.map scalar).getD 0, ?_⟩
  have hif : (if hasBit features MWEB_KERNEL_STEALTH_EXCESS_BIT then stealthKey else none) =
      stealthKey := by
    rw [← hkey]
    cases stealthKey <;> rfl
  have htx' := htx received rfl
  have hst' := hst receivedStealth rfl
  rw [scalar_zero32, zero_add, List.map_map] at htx' hst'
  have hoff := hko.txOffset
  have hsoff : scalar ko.stealthOffsetFinal = scalar receivedStealth +
      (((kernelParams b.session kernel features stealthKey received receivedStealth).inputs.map
        fun i => scalar i.stealthTweak).sum) -
      ((if hasBit features MWEB_KERNEL_STEALTH_EXCESS_BIT then stealthKey else none).map
        scalar).getD 0 := hko.stealthOffset
  simp only [kernelParams, List.map_map, hif, htx', hst'] at hoff hsoff
  exact {
    excess := hko.excess
    txOffset := hoff
    stealthOffset := hsoff
    stealth := by
      intro hbit
      rw [hse, ← hkey] at hbit
      obtain ⟨key, rfl⟩ := Option.isSome_iff_exists.1 hbit
      exact hko.stealth key rfl hkey.symm
    noStealth := by
      intro hbit
      rw [hse, ← hkey] at hbit
      obtain rfl : stealthKey = none := by simpa using hbit
      rfl }

/-- The body of the build, from a session that has handled nothing yet. -/
theorem sat_buildBody (p : Psbt) (kernel : PsbtKernel) {b : Build}
    (h : Progress C [] [] [] b.session) :
    Sat (buildBody env p kernel) (fun _ b' => Ready C p kernel b'.session) (fun _ _ => True) b := by
  refine sat_buildBody_of (I := Progress C) (Q := Ready C p kernel)
    (fun _ _ _ _ _ hsame h => h.frame C hsame) (fun _ inp _ _ h => sat_buildInput C inp h)
    (fun _ po _ h => sat_buildOutput C po h) (fun _ item _ h => sat_buildPegout C item h) ?_ h
  intro features stealthKey b _ _ hkey h₇ ht₇ hbal
  have hnat := toNat_of_sessionBalanced hbal
  rw [h₇.totalInput, h₇.totalOutput, h₇.totalPegout, ht₇.fee, ht₇.pegin] at hnat
  refine (sat_buildKernel C kernel features hkey ht₇.stealth
    (I := fun s => Progress C p.inputs p.outputs kernel.pegouts.items s ∧
      s.inputs = b.session.inputs ∧ s.outputs = b.session.outputs)
    ⟨h₇, rfl, rfl⟩ (fun s k h => ⟨{ h.1 with }, h.2⟩)).mono ?_ (fun _ _ h => h)
  rintro _ b₈ ⟨⟨h₈, hins, houts⟩, hkeys⟩
  exact {
    inputs := h₈.inputs
    outputs := h₈.outputs
    balance := by rw [hins, houts]; exact hnat
    keys := hkeys
    kernelIndex := h₈.kernelIndex }

/-- **A session that is opened is ready.** -/
theorem sat_mwebSessionBegin_ready (networkId : Network) (w : World) :
    Sat (mwebSessionBegin env networkId)
      (fun _ w' => ∃ kernel s, w'.psbt.mwebKernels = [kernel] ∧ w'.session = some s ∧
        Ready C w'.psbt kernel s) (fun _ _ => True) w := by
  refine (sat_mwebSessionBegin_of (progress_create C) (fun _ _ hsame h => h.frame C hsame)
    (fun p kernel _ _ h => sat_buildBody C p kernel h) networkId w).mono ?_ (fun _ _ h => h)
  rintro _ w' ⟨-, hpsbt, kernel, s, hk, hs, hready⟩
  exact ⟨kernel, s, by rw [hpsbt, hk], hs, by rw [hpsbt]; exact hready⟩

/-! ### From the opening to the commit -/

/-- The session is open and ready for the PSBT, whose kernel is `kernel`. -/
def Pending (kernel : PsbtKernel) (w : World) : Prop :=
  w.psbt.mwebKernels = [kernel] ∧ ∃ s, w.session = some s ∧ Ready C w.psbt kernel s

/-- A signature is not an MWEB field, and a confirmation is not a scalar. -/
theorem Pending.step {kernel : PsbtKernel} {w : World} (h : Pending C kernel w)
    (st : SessionStep) : Pending C kernel (st.run w) := by
  obtain ⟨hk, s, hs, hready⟩ := h
  cases st with
  | signInput index a b c flags =>
      refine ⟨hk, s, by simp [SessionStep.run, SessionStep.onSession, hs], ?_⟩
      have hinputs := hready.inputs.modify (f := signedInput a b c) (fun _ => rfl)
        (fun inp si hentry => ⟨hentry.keys, hentry.value, hentry.commit, hentry.spent⟩) index
      exact ⟨hinputs, hready.outputs, hready.balance, hready.keys, hready.kernelIndex⟩
  | confirmPegout idx =>
      refine ⟨hk, mwebSessionMarkPegoutConfirmed idx s,
        by simp [SessionStep.run, SessionStep.onSession, hs], ?_⟩
      obtain ⟨eK, key, hkeys⟩ := hready.keys
      exact ⟨hready.inputs, hready.outputs, hready.balance, ⟨eK, key, { hkeys with }⟩,
        hready.kernelIndex⟩

theorem Pending.run {kernel : PsbtKernel} {w : World} (h : Pending C kernel w)
    (steps : List SessionStep) : Pending C kernel (steps.foldl SessionStep.run w) := by
  induction steps generalizing w with
  | nil => exact h
  | cons st steps ih => exact ih (h.step C st)

/-! ### What a commit leaves -/

/-- An output the session has written. -/
structure OutputDone (po : PsbtOutput) (so : SessionOutput) : Prop extends OutputEntry C po so where
  commit : po.mwebCommit = so.commit
  sender : po.mwebSenderPubkey = so.senderPubkey

/-- An input the session has written. -/
structure InputDone (inp : PsbtInput) (si : SessionInput) : Prop extends InputEntry C inp si where
  input : inp.mwebInputPubkey = si.state.inputPubkey

variable {C} in
theorem OutputEntry.written {po : PsbtOutput} {so : SessionOutput} (h : OutputEntry C po so) :
    OutputDone C (writeOutput so po) so where
  keys := h.keys
  value := h.value
  commit := rfl
  sender := rfl

theorem isMwebOutput_writeOutput {po : PsbtOutput} (so : SessionOutput)
    (h : isMwebOutput po = true) : isMwebOutput (writeOutput so po) = true :=
  mwebOutIsMweb_or _ h

variable {C} in
theorem InputEntry.written {inp : PsbtInput} {si : SessionInput} (h : InputEntry C inp si)
    (signature : Bytes) : InputDone C (writeInput si signature inp) si where
  keys := h.keys
  value := h.value
  commit := h.commit
  spent := h.spent
  input := rfl

theorem isMwebInput_writeInput {inp : PsbtInput} (si : SessionInput) (signature : Bytes)
    (h : isMwebInput inp = true) : isMwebInput (writeInput si signature inp) = true :=
  mwebInHasOutputId_or _ (mwebInHasOutputId_or _ h)

/-- **What a commit leaves in the PSBT.** -/
structure Committed (kernel : PsbtKernel) (s : MwebSession) (p : Psbt) : Prop where
  inputs : Slots SessionInput.psbtIndex isMwebInput (InputDone C) 0 p.inputs s.inputs
  outputs : Slots SessionOutput.psbtIndex isMwebOutput (OutputDone C) 0 p.outputs s.outputs
  kernels : p.mwebKernels = [writeKernel s.kernel kernel]
  txOffset : p.mwebTxOffset = s.kernel.txOffsetFinal
  stealthOffset : p.mwebStealthOffset = s.kernel.stealthOffsetFinal

/-- A commit that succeeds has written what the session knew. -/
theorem sat_mwebSessionCommit_committed {kernel : PsbtKernel} {w : World}
    (h : Pending C kernel w) :
    Sat (mwebSessionCommit env)
      (fun _ w' => ∃ s, Ready C w.psbt kernel s ∧ Committed C kernel s w'.psbt)
      (fun _ _ => True) w := by
  obtain ⟨hk, s, hs, hready⟩ := h
  simp only [mwebSessionCommit, sat_bind, sat_get, hs, sat_tryCatch, sat_modify, sat_throw,
    commitBody, sat_check, implies_true, and_true]
  intro _
  refine (sat_commitOutputs s.outputs w).mono ?_ (fun _ _ _ => trivial)
  intro _ w₁ hw₁
  refine (sat_commitInputs s.inputs w₁).mono ?_ (fun _ _ _ => trivial)
  rintro _ w₂ ⟨signed, hsigned, hw₂⟩
  simp only [commitKernel, sat_bind, sat_get, sat_check, writePsbt, sat_modify, implies_true,
    and_true]
  intro _
  rw [hw₂, hw₁]
  obtain ⟨outputs, houtputs, hslots⟩ := hready.outputs.write
    (fun _ so hq hentry => ⟨isMwebOutput_writeOutput so hq, hentry.written⟩) [] rfl
  have hinputs : Slots (fun si : SessionInput × Bytes => si.1.psbtIndex) isMwebInput
      (fun inp si => InputEntry C inp si.1) 0 w.psbt.inputs signed :=
    Slots.of_map (by rw [hsigned]; exact hready.inputs)
  obtain ⟨inputs, hinputs', hslots'⟩ := Slots.write
    (S := fun inp si => InputDone C inp si.1) hinputs
    (fun _ si hq hentry => ⟨isMwebInput_writeInput si.1 si.2 hq, hentry.written si.2⟩) [] rfl
  refine ⟨s, hready, ?_⟩
  simp only [List.nil_append] at houtputs hinputs'
  exact {
    inputs := by
      simp only [writeOffsets, hinputs', ← hsigned]
      exact hslots'.map
    outputs := by
      simp only [writeOffsets, houtputs]
      exact hslots
    kernels := by
      simp only [writeOffsets, hk, hready.kernelIndex]
      rfl
    txOffset := rfl
    stealthOffset := rfl }

/-- **A session that is committed has written what it knew.** -/
theorem committed_of_run {networkId : Network} {w w₁ w₂ : World}
    (hbegin : (mwebSessionBegin env networkId).run w = .ok () w₁) {steps : List SessionStep}
    (hcommit : (mwebSessionCommit env).run (steps.foldl SessionStep.run w₁) = .ok () w₂) :
    ∃ kernel s p, Ready C p kernel s ∧ Committed C kernel s w₂.psbt := by
  obtain ⟨kernel, s, hk, hs, hready⟩ := (sat_mwebSessionBegin_ready C networkId w).ok hbegin
  have hpending : Pending C kernel (steps.foldl SessionStep.run w₁) :=
    Pending.run C ⟨hk, s, hs, hready⟩ steps
  obtain ⟨s', hready', hcommitted⟩ := (sat_mwebSessionCommit_committed C hpending).ok hcommit
  exact ⟨kernel, s', _, hready', hcommitted⟩

/-! ### A transfer -/

/-- A key below the wallet of `pairEnv`. -/
def transferOrigin (depth : ℕ) : List Keypath :=
  [{ pubkey := [], fingerprint := [4, 3, 2, 1], path := List.replicate depth 0 }]

/-- The base point. -/
def transferKey : Bytes := List.replicate 31 0 ++ [1, 0]

/-- 10 come in, 7 go out and 3 are the fee; the kernel has a stealth excess. -/
def transferPsbt : Psbt where
  inputs := [{
    mwebKeyset := mwebInBit MWEB_IN_SPENT_OUTPUT_ID_KEY |||
      mwebInBit MWEB_IN_SPENT_OUTPUT_COMMIT_KEY ||| mwebInBit MWEB_IN_KEY_EXCHANGE_PUBKEY_KEY
    mwebInputFeatures := MWEB_INPUT_STEALTH_KEY_BIT
    mwebInputAmount := 10
    mwebSpentOutputCommit := pairSerialize (7031351757, 10)
    mwebSpentOutputPubkey := pairSerialize (464877569149172073, 0)
    mwebKeyExchangePubkey := transferKey
    mwebScanKeyOrigin := transferOrigin 1
    mwebSpendKeyOrigin := transferOrigin 2 }]
  outputs := [{
    amount := some 7
    mwebOutputKeyset := mwebOutBit MWEB_OUT_STEALTH_ADDRESS_KEY
    mwebStealthAddress := transferKey ++ transferKey }]
  mwebKernels := [{
    features := some (MWEB_KERNEL_FEE_BIT ||| MWEB_KERNEL_STEALTH_EXCESS_BIT)
    fee := some 3 }]

def transferWorld : World where
  psbt := transferPsbt
  session := none
  tape := { allocs := fun _ => true, trng := fun _ => 5 }

theorem run_transfer : ∃ w₁ w₂,
    (mwebSessionBegin pairEnv .litecoin).run transferWorld = .ok () w₁ ∧
      (mwebSessionCommit pairEnv).run w₁ = .ok () w₂ := by
  have hok : (match (mwebSessionBegin pairEnv .litecoin).run transferWorld with
      | .ok _ w₁ => match (mwebSessionCommit pairEnv).run w₁ with
        | .ok _ _ => true
        | .error _ _ => false
      | .error _ _ => false) = true := by decide +kernel
  cases hbegin : (mwebSessionBegin pairEnv .litecoin).run transferWorld with
  | error e w₁ => simp [hbegin] at hok
  | ok _ w₁ =>
      cases hcommit : (mwebSessionCommit pairEnv).run w₁ with
      | error e w₂ => simp [hbegin, hcommit] at hok
      | ok _ w₂ => exact ⟨w₁, w₂, rfl, hcommit⟩

/-! ### The balances -/

/-- The output commitments, plus the kernel's value, less the spent commitments, are the excess and
the offset. -/
def KernelBalance (p : Psbt) : Prop :=
  ∃ kernel out spent excess, p.mwebKernels = [kernel] ∧
    sumPoints C.commitPoint ((p.outputs.filter isMwebOutput).map PsbtOutput.mwebCommit) =
      some out ∧
    sumPoints C.commitPoint
      ((p.inputs.filter isMwebInput).map PsbtInput.mwebSpentOutputCommit) = some spent ∧
    C.commitPoint kernel.excessCommitment = some excess ∧
    out + ((pegoutTotal kernel.pegouts.items : ZMod order) + (kernel.fee.getD 0).toNat -
        (kernel.peginAmount.getD 0).toNat) • C.H - spent =
      excess + scalar p.mwebTxOffset • C.G

/-- The sender keys, plus the input keys less the spent keys, are the stealth offset and, when the
kernel has one, the stealth excess. -/
def StealthBalance (p : Psbt) : Prop :=
  ∃ kernel senders inputs spent excess, p.mwebKernels = [kernel] ∧
    sumPoints env.ecPubkeyParse
      ((p.outputs.filter isMwebOutput).map PsbtOutput.mwebSenderPubkey) = some senders ∧
    sumPoints env.ecPubkeyParse
      ((p.inputs.filter isMwebInput).map PsbtInput.mwebInputPubkey) = some inputs ∧
    sumPoints env.ecPubkeyParse
      ((p.inputs.filter isMwebInput).map PsbtInput.mwebSpentOutputPubkey) = some spent ∧
    (if kernel.hasStealthExcess then env.ecPubkeyParse kernel.stealthExcess else some 0) =
      some excess ∧
    senders + (inputs - spent) = scalar p.mwebStealthOffset • C.G + excess

/-- **The kernel balance** holds of whatever a session commits. -/
theorem kernel_balance {networkId : Network} {w w₁ w₂ : World}
    (hbegin : (mwebSessionBegin env networkId).run w = .ok () w₁) (steps : List SessionStep)
    (hcommit : (mwebSessionCommit env).run (steps.foldl SessionStep.run w₁) = .ok () w₂) :
    KernelBalance C w₂.psbt := by
  obtain ⟨kernel, s, p, hready, hdone⟩ := committed_of_run C hbegin hcommit
  obtain ⟨eK, stealthKey, hkeys⟩ := hready.keys
  have hout := sumPoints_of_map C.commitPoint
    (fun so : SessionOutput => scalar so.blind • C.G + (so.value.toNat : ZMod order) • C.H)
    ((w₂.psbt.outputs.filter isMwebOutput).map PsbtOutput.mwebCommit)
    (by
      rw [List.map_map]
      exact hdone.outputs.map_filter fun po so h => by
        rw [Function.comp_apply, h.commit, h.keys.commit])
  have hspent := sumPoints_of_map C.commitPoint
    (fun si : SessionInput => scalar si.state.blind • C.G +
      (si.state.value.toNat : ZMod order) • C.H)
    ((w₂.psbt.inputs.filter isMwebInput).map PsbtInput.mwebSpentOutputCommit)
    (by
      rw [List.map_map]
      exact hdone.inputs.map_filter fun inp si h => by
        rw [Function.comp_apply, h.commit, h.keys.commit])
  refine ⟨writeKernel s.kernel kernel, _, _, _, hdone.kernels, hout, hspent, hkeys.excess, ?_⟩
  -- the values cancel by the plain balance, the blinding factors by the choice of the offset
  have hbalance := congrArg (Nat.cast : ℕ → ZMod order) hready.balance
  simp only [Nat.cast_add, cast_sum_map] at hbalance
  rw [sum_map_open, sum_map_open, hdone.txOffset, hkeys.txOffset]
  simp only [writeKernel]
  have hvalue : (s.outputs.map fun so => (so.value.toNat : ZMod order)).sum =
      (s.inputs.map fun si => (si.state.value.toNat : ZMod order)).sum +
        (kernel.peginAmount.getD 0).toNat - (kernel.fee.getD 0).toNat -
        pegoutTotal kernel.pegouts.items := by
    linear_combination -hbalance
  rw [hvalue]
  module

theorem kernel_balance_transfer : ∃ w₁ w₂,
    (mwebSessionBegin pairEnv .litecoin).run transferWorld = .ok () w₁ ∧
      (mwebSessionCommit pairEnv).run w₁ = .ok () w₂ ∧
      @KernelBalance _ _ _ pairEnv pairCurve w₂.psbt := by
  obtain ⟨w₁, w₂, hbegin, hcommit⟩ := run_transfer
  exact ⟨w₁, w₂, hbegin, hcommit, @kernel_balance _ _ _ pairEnv pairCurve _ _ _ _ hbegin [] hcommit⟩

/-- **The stealth balance** holds of whatever a session commits. -/
theorem stealth_balance {networkId : Network} {w w₁ w₂ : World}
    (hbegin : (mwebSessionBegin env networkId).run w = .ok () w₁) (steps : List SessionStep)
    (hcommit : (mwebSessionCommit env).run (steps.foldl SessionStep.run w₁) = .ok () w₂) :
    StealthBalance C w₂.psbt := by
  obtain ⟨kernel, s, p, hready, hdone⟩ := committed_of_run C hbegin hcommit
  obtain ⟨eK, stealthKey, hkeys⟩ := hready.keys
  have hsenders := sumPoints_of_map env.ecPubkeyParse
    (fun so : SessionOutput => scalar so.senderKey • C.G)
    ((w₂.psbt.outputs.filter isMwebOutput).map PsbtOutput.mwebSenderPubkey)
    (by
      rw [List.map_map]
      exact hdone.outputs.map_filter fun po so h => by
        rw [Function.comp_apply, h.sender, h.keys.sender])
  have hinputs := sumPoints_of_map env.ecPubkeyParse
    (fun si : SessionInput => scalar si.state.ephemeral • C.G)
    ((w₂.psbt.inputs.filter isMwebInput).map PsbtInput.mwebInputPubkey)
    (by
      rw [List.map_map]
      exact hdone.inputs.map_filter fun inp si h => by
        rw [Function.comp_apply, h.input, h.keys.input])
  have hspent := sumPoints_of_map env.ecPubkeyParse
    (fun si : SessionInput => scalar si.state.osk • C.G)
    ((w₂.psbt.inputs.filter isMwebInput).map PsbtInput.mwebSpentOutputPubkey)
    (by
      rw [List.map_map]
      exact hdone.inputs.map_filter fun inp si h => by
        rw [Function.comp_apply, h.spent, h.keys.spent])
  have hexcess : (if s.kernel.hasStealthExcess then env.ecPubkeyParse s.kernel.stealthExcess
      else some 0) = some (stealthKey • C.G) := by
    cases hbit : s.kernel.hasStealthExcess with
    | true => exact hkeys.stealth hbit
    | false => simp [hkeys.noStealth hbit]
  refine ⟨writeKernel s.kernel kernel, _, _, _, stealthKey • C.G, hdone.kernels, hsenders, hinputs,
    hspent, ?_, ?_⟩
  · rw [← hexcess]
    simp only [writeKernel]
    split <;> rfl
  · -- the tweak of an input is the difference of its two keys
    have htweak : (s.inputs.map fun si => scalar si.state.stealthTweak).sum =
        (s.inputs.map fun si => scalar si.state.ephemeral).sum -
          (s.inputs.map fun si => scalar si.state.osk).sum := by
      rw [eq_sub_iff_add_eq, ← List.sum_map_add]
      refine congrArg List.sum (List.map_congr_left fun si hsi => ?_)
      obtain ⟨inp, -, hentry⟩ := hready.inputs.exists_of_mem hsi
      rw [hentry.keys.tweak, sub_add_cancel]
    rw [sum_map_smul, sum_map_smul, sum_map_smul, hdone.stealthOffset, hkeys.stealthOffset, htweak]
    module

theorem stealth_balance_transfer : ∃ w₁ w₂,
    (mwebSessionBegin pairEnv .litecoin).run transferWorld = .ok () w₁ ∧
      (mwebSessionCommit pairEnv).run w₁ = .ok () w₂ ∧
      @StealthBalance _ _ _ pairEnv pairCurve w₂.psbt := by
  obtain ⟨w₁, w₂, hbegin, hcommit⟩ := run_transfer
  exact ⟨w₁, w₂, hbegin, hcommit, @stealth_balance _ _ _ pairEnv pairCurve _ _ _ _ hbegin [] hcommit⟩

end Jade.Mweb
