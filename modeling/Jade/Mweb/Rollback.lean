/-
**A failed session leaves the PSBT as it was — up to one flag.**

Between the opening of a session and its end the device signs the standard inputs, and the commit
then writes the extension block.  Either may stop half way.  What an abort puts back is a function
of the session and of the fields that were never saved, so it is enough to follow those: every
write of the signing loop and of the commit hits a field that the session has a valid copy of, with
one exception.  Signing an input of a version 2 PSBT may clear bits of the global
`tx_modifiable_flags`, and no copy of these is taken.

Main definitions:

* `Jade.Mweb.SessionStep` — what happens between opening a session and closing it;
* `Jade.Mweb.flagsAfter` — the modifiable flags those steps leave behind;
* `Jade.Mweb.Consistent` — every copy taken so far agrees with the PSBT;
* `Jade.Mweb.Guarded` — an abort would bring the PSBT back, up to the modifiable flags.

Main results:

* `Jade.Mweb.keeps_buildSession` — a build that fails has only taken true copies;
* `Jade.Mweb.Guarded.run` — no step and no write of a commit leaves the guarded part;
* `Jade.Mweb.session_rollback` — **exactly when a session that fails restores the PSBT**.
-/

import Jade.Mweb.Session

set_option relaxedAutoImplicit false
set_option autoImplicit false

namespace Jade.Mweb

open Exec

/-! ### Runs -/

/-- `WALLY_PSBT_VERSION_2` -/
def WALLY_PSBT_VERSION_2 : UInt32 := 2

/-- What happens while a session is open: `wally_psbt_sign_input_bip32` leaves an input with some
maps, and a version 2 PSBT with some modifiable flags, or the user confirms a pegout. -/
inductive SessionStep
  | signInput (index : ℕ) (signatures psbtFields taprootLeafSignatures : WallyMap)
      (txModifiableFlags : UInt32)
  | confirmPegout (idx : ℕ)

/-- The maps signing leaves an input with. -/
def signedInput (signatures psbtFields taprootLeafSignatures : WallyMap) (inp : PsbtInput) :
    PsbtInput :=
  { inp with signatures, psbtFields, taprootLeafSignatures }

/-- The effect of a step on the PSBT. -/
def SessionStep.onPsbt : SessionStep → Psbt → Psbt
  | .signInput index signatures psbtFields leafSignatures flags, psbt =>
      { psbt with
        inputs := psbt.inputs.modify index (signedInput signatures psbtFields leafSignatures)
        txModifiableFlags :=
          if psbt.version = WALLY_PSBT_VERSION_2 then flags else psbt.txModifiableFlags }
  | .confirmPegout _, psbt => psbt

/-- The effect of a step on the session. -/
def SessionStep.onSession : SessionStep → MwebSession → MwebSession
  | .signInput .., s => s
  | .confirmPegout idx, s => mwebSessionMarkPegoutConfirmed idx s

/-- One step. -/
def SessionStep.run (w : World) (step : SessionStep) : World :=
  { w with psbt := step.onPsbt w.psbt, session := w.session.map step.onSession }

/-- The modifiable flags after some steps. -/
def flagsAfter (psbt : Psbt) (steps : List SessionStep) : UInt32 :=
  (steps.foldl (fun p step => step.onPsbt p) psbt).txModifiableFlags

theorem psbt_foldl_run (steps : List SessionStep) (w : World) :
    (steps.foldl SessionStep.run w).psbt = steps.foldl (fun p step => step.onPsbt p) w.psbt := by
  induction steps generalizing w with
  | nil => rfl
  | cons step steps ih => exact ih (step.run w)

/-! ### Copies -/

theorem sat_snapshotWallyMap {E : MwebErr → Tape → Prop} (src : WallyMap) (t : Tape) :
    Sat (snapshotWallyMap src) (fun r _ => ∀ m, r = some m → m = src) E t := by
  rw [snapshotWallyMap, sat_bind]
  refine sat_alloc fun ok t₁ => ?_
  rw [sat_ite]
  refine ⟨fun _ => ?_, fun _ => by simp⟩
  rw [sat_bind]
  refine sat_alloc fun ok' t₂ => ?_
  rw [sat_ite, WallyMap.combine_empty]
  exact ⟨fun _ => (sat_pure _).2 fun m hm => (Option.some.inj hm).symm, fun _ => by simp⟩

/-- The snapshot of a standard input holds the three maps. -/
def StdCopy (snap : StdInputSnapshot) (inp : PsbtInput) : Prop :=
  snap = {
    signatures := some inp.signatures, psbtFields := some inp.psbtFields
    taprootLeafSignatures := some inp.taprootLeafSignatures }

theorem sat_snapshotStdInput {E : MwebErr → Tape → Prop} (inp : PsbtInput) (t : Tape) :
    Sat (snapshotStdInput inp) (fun r _ => ∀ snap, r = some snap → StdCopy snap inp) E t := by
  rw [snapshotStdInput, sat_bind]
  refine (sat_snapshotWallyMap inp.signatures t).mono ?_ (fun _ _ h => h)
  rintro (_ | m₁) t₁ h₁
  · simp
  obtain rfl := h₁ m₁ rfl
  refine (sat_bind _ _).2 ((sat_snapshotWallyMap inp.psbtFields t₁).mono ?_ (fun _ _ h => h))
  rintro (_ | m₂) t₂ h₂
  · simp
  obtain rfl := h₂ m₂ rfl
  refine (sat_bind _ _).2
    ((sat_snapshotWallyMap inp.taprootLeafSignatures t₂).mono ?_ (fun _ _ h => h))
  rintro (_ | m₃) t₃ h₃
  · simp
  obtain rfl := h₃ m₃ rfl
  exact (sat_pure _).2 fun snap hsnap => (Option.some.inj hsnap).symm

/-- The snapshot of an output holds what a commit may overwrite. -/
def OutputCopy (snap : MwebOutputSnapshot) (po : PsbtOutput) : Prop :=
  snap = {
    unknowns := some po.unknowns
    mwebOutputKeyset := po.mwebOutputKeyset
    mwebCommit := po.mwebCommit
    mwebFeatures := po.mwebFeatures
    mwebSenderPubkey := po.mwebSenderPubkey
    mwebOutputPubkey := po.mwebOutputPubkey
    mwebStandardFields := po.mwebStandardFields
    mwebSignature := po.mwebSignature
    mwebRangeProof := po.mwebRangeProof }

theorem sat_snapshotMwebOutput {E : MwebErr → Tape → Prop} (po : PsbtOutput) (t : Tape) :
    Sat (snapshotMwebOutput po) (fun r _ => ∀ snap, r = some snap → OutputCopy snap po) E t := by
  rw [snapshotMwebOutput, sat_bind]
  refine (sat_snapshotWallyMap po.unknowns t).mono ?_ (fun _ _ h => h)
  rintro (_ | m) t₁ h
  · simp
  obtain rfl := h m rfl
  refine (sat_bind _ _).2 ?_
  have hcopy : ∀ snap, OutputCopy snap po → ∀ (ok : Bool) (t₂ : Tape),
      Sat (if ok = true then pure (some snap) else pure none)
        (fun r _ => ∀ snap, r = some snap → OutputCopy snap po) E t₂ := by
    intro snap hsnap ok t₂
    rw [sat_ite]
    refine ⟨fun _ => (sat_pure _).2 fun snap' hsnap' => ?_, fun _ => by simp⟩
    obtain rfl : snap = snap' := Option.some.inj hsnap'
    exact hsnap
  unfold allocRangeProof
  rw [sat_ite]
  exact ⟨fun _ => (sat_pure _).2 (hcopy _ rfl true t₁), fun _ => sat_alloc (hcopy _ rfl)⟩

/-- **Every copy taken so far agrees with the PSBT.** -/
structure Consistent (p : Psbt) (s : MwebSession) : Prop where
  globals : restoreGlobals s p = p
  kernel : ∀ k, p.mwebKernels[s.kernelIndex]? = some k → restoreKernel s.kernel k = k
  inputs : ∀ si ∈ s.inputs, ∀ inp, p.inputs[si.psbtIndex]? = some inp → restoreInput si inp = inp
  std : ∃ n, Filled StdCopy {} p.inputs s.stdInputSnapshots n
  outputs : ∃ n, Filled OutputCopy {} p.outputs s.mwebOutputSnapshots n

theorem restoreStdInput_self {snap : StdInputSnapshot} {inp : PsbtInput} (h : StdCopy snap inp) :
    restoreStdInput snap inp = inp := by
  rw [StdCopy] at h
  subst h
  rfl

theorem restoreMwebOutput_self {snap : MwebOutputSnapshot} {po : PsbtOutput}
    (h : OutputCopy snap po) : restoreMwebOutput snap po = po := by
  rw [OutputCopy] at h
  subst h
  rfl

/-- Putting true copies back changes nothing. -/
theorem Consistent.restore_eq {p : Psbt} {s : MwebSession} (h : Consistent p s) :
    mwebSessionRestore s p = p := by
  obtain ⟨n, hstd⟩ := h.std
  obtain ⟨m, hout⟩ := h.outputs
  have hkernels : p.mwebKernels.modify s.kernelIndex (restoreKernel s.kernel) = p.mwebKernels :=
    modify_self h.kernel
  have hinputs : overlay restoreStdInput s.stdInputSnapshots
      (writeAll SessionInput.psbtIndex restoreInput s.inputs p.inputs) = p.inputs := by
    rw [writeAll_self h.inputs]
    exact hstd.overlay_eq (fun _ _ => restoreStdInput_self) fun _ => rfl
  have houtputs : overlay restoreMwebOutput s.mwebOutputSnapshots p.outputs = p.outputs :=
    hout.overlay_eq (fun _ _ => restoreMwebOutput_self) fun _ => rfl
  simp only [mwebSessionRestore, h.globals, hkernels, hinputs, houtputs]

theorem consistent_create {p : Psbt} {k : PsbtKernel} (hk : p.mwebKernels = [k]) :
    Consistent p (MwebSession.create p k) where
  globals := rfl
  kernel := by
    intro k' hk'
    obtain rfl : k = k' := by simpa [hk, MwebSession.create] using hk'
    rfl
  inputs := by simp [MwebSession.create]
  std := ⟨0, Filled.nil⟩
  outputs := ⟨0, Filled.nil⟩

/-- All copies have been taken. -/
structure Complete (p : Psbt) (s : MwebSession) : Prop extends Consistent p s where
  allStd : Filled StdCopy {} p.inputs s.stdInputSnapshots p.inputs.length
  allOutputs : Filled OutputCopy {} p.outputs s.mwebOutputSnapshots p.outputs.length

/-! ### Building a session takes true copies -/

section Build

variable {P : Type} (env : Env P)

theorem keeps_call {α : Type} {I : MwebSession → Prop} (x : M α) :
    Keeps (fun b => I b.session) (call x) := fun _ h =>
  (sat_call x).2 (sat_of_forall (fun _ _ => h) fun _ _ => h)

theorem keeps_update {I : MwebSession → Prop} {f : MwebSession → MwebSession}
    (h : ∀ s, I s → I (f s)) : Keeps (fun b => I b.session) (update f) :=
  Keeps.modify fun b hb => h b.session hb

theorem keeps_current {I : MwebSession → Prop} : Keeps (fun b => I b.session) current :=
  Keeps.get.bind fun _ => Keeps.pure _

theorem keeps_callocArray {I : MwebSession → Prop} (n : ℕ) :
    Keeps (fun b => I b.session) (callocArray n) :=
  Keeps.ite (Keeps.pure _) ((keeps_call _).bind fun _ => Keeps.check _ _)

/-! One turn of a loop adds an entry and sets its total, and the signature sets five fields of the
kernel: what these leave alone is kept. -/

theorem keeps_buildInput_of {I : MwebSession → Prop} (inp : PsbtInput) (i : ℕ)
    (h : ∀ s total si, I s → I { s with totalInputValue := total, inputs := s.inputs ++ [si] }) :
    Keeps (fun b => I b.session) (buildInput env inp i) :=
  Keeps.ite ((keeps_call _).bind fun _ => (Keeps.check _ _).bind fun _ => keeps_current.bind
    fun _ => (keeps_call _).bind fun _ => keeps_update fun s hs => h s _ _ hs) (Keeps.pure _)

theorem keeps_buildOutput_of {I : MwebSession → Prop} (po : PsbtOutput) (i : ℕ)
    (h : ∀ s total so, I s → I { s with totalOutputValue := total, outputs := s.outputs ++ [so] }) :
    Keeps (fun b => I b.session) (buildOutput env po i) :=
  Keeps.ite ((keeps_call _).bind fun _ => (Keeps.check _ _).bind fun _ => keeps_current.bind
    fun _ => (keeps_call _).bind fun _ => keeps_update fun s hs => h s _ _ hs) (Keeps.pure _)

theorem keeps_buildPegout_of {I : MwebSession → Prop} (value : Bytes)
    (h : ∀ s total pegout, I s → I { s with totalPegout := total, pegouts := s.pegouts ++ [pegout] }) :
    Keeps (fun b => I b.session) (buildPegout env value) :=
  (keeps_call _).bind fun _ => (Keeps.check _ _).bind fun _ => (Keeps.check _ _).bind fun _ =>
    keeps_current.bind fun _ => (keeps_call _).bind fun _ => keeps_update fun s hs => h s _ _ hs

theorem keeps_buildKernel_of {I : MwebSession → Prop} (kernel : PsbtKernel) (features : UInt8)
    (stealthKey : Option Bytes)
    (h : ∀ s excess stealthExcess signature txOffset stealthOffset, I s →
      I { s with kernel := { s.kernel with
        excessCommitment := excess
        stealthExcess := stealthExcess
        signature := signature
        txOffsetFinal := txOffset
        stealthOffsetFinal := stealthOffset } }) :
    Keeps (fun b => I b.session) (buildKernel env kernel features stealthKey) :=
  keeps_current.bind fun _ => (keeps_callocArray _).bind fun _ => (keeps_callocArray _).bind
    fun _ => (keeps_call _).bind fun _ => (keeps_call _).bind fun _ => (keeps_call _).bind
    fun _ => keeps_update fun s hs => h s _ _ _ _ _ hs

theorem sat_deriveOwnedInput_snapshot (inp : PsbtInput) (i : ℕ) (t : Tape) :
    Sat (deriveOwnedInput env inp i)
      (fun si _ => si.psbtIndex = i ∧ restoreInput si inp = inp) (fun _ _ => True) t := by
  simp only [deriveOwnedInput, sat_bind, sat_check, sat_orFail, sat_pure, implies_true, and_true]
  intros
  exact sat_of_forall (fun _ _ _ _ => ⟨trivial, rfl⟩) fun _ _ => trivial

theorem keeps_buildInput {p : Psbt} {inp : PsbtInput} {i : ℕ} (hi : p.inputs[i]? = some inp) :
    Keeps (fun b => Complete p b.session) (buildInput env inp i) := by
  refine Keeps.ite ?_ (Keeps.pure _)
  intro b hb
  rw [sat_bind, sat_call]
  refine (sat_deriveOwnedInput_snapshot env inp i b.tape).mono ?_ (fun _ _ _ => hb)
  rintro si t ⟨hidx, hsi⟩
  refine ((Keeps.check _ _).bind fun _ => keeps_current.bind fun _ => (keeps_call _).bind
    fun total => keeps_update fun s hs => ?_) { b with tape := t } hb
  exact { hs with
    inputs := by
      intro si' hmem inp' hinp'
      rcases List.mem_append.1 hmem with hmem | hmem
      · exact hs.inputs si' hmem inp' hinp'
      · obtain rfl : si' = si := List.mem_singleton.1 hmem
        rw [hidx, hi] at hinp'
        obtain rfl : inp = inp' := Option.some.inj hinp'
        exact hsi }

/-- Once the copies are taken, nothing the build does invalidates them. -/
theorem keeps_buildBody (p : Psbt) (kernel : PsbtKernel) :
    Keeps (fun b => Complete p b.session) (buildBody env p kernel) := by
  refine (keeps_call _).bind fun features => (Keeps.check _ _).bind fun _ =>
    (keeps_call _).bind fun stealthKey => (keeps_update fun _ hs => { hs with }).bind fun _ =>
    (keeps_callocArray _).bind fun _ => (keeps_callocArray _).bind fun _ => ?_
  have hinputs : Keeps (fun b => Complete p b.session)
      (p.inputs.zipIdx.forM fun entry => buildInput env entry.1 entry.2) := by
    intro b hb
    refine sat_forM_zipIdx (fun _ b => Complete p b.session) p.inputs ?_ b hb
    intro pre inp suf b hxs hb
    have hi : p.inputs[pre.length]? = some inp := by rw [hxs]; simp
    exact keeps_buildInput env hi b hb
  refine hinputs.bind fun _ => ?_
  refine (Keeps.forM _ fun entry _ => keeps_buildOutput_of env entry.1 entry.2
    fun _ _ _ hs => { hs with }).bind fun _ => ?_
  refine ((keeps_update fun _ hs => { hs with }).bind fun _ => Keeps.check _ _).bind fun _ => ?_
  refine (keeps_callocArray _).bind fun _ => ?_
  refine (Keeps.forM _ fun item _ => keeps_buildPegout_of env item.2
    fun _ _ _ hs => { hs with }).bind fun _ => ?_
  exact keeps_current.bind fun _ => (Keeps.check _ _).bind fun _ => keeps_buildKernel_of env _ _ _
    fun _ _ _ _ _ _ hs => { hs with }

theorem sat_snapshotInputs {p : Psbt} {b : Build} (h : Consistent p b.session) :
    Sat (snapshotInputs p)
      (fun _ b' => Consistent p b'.session ∧
        Filled StdCopy {} p.inputs b'.session.stdInputSnapshots p.inputs.length)
      (fun _ b' => Consistent p b'.session) b := by
  rw [snapshotInputs, sat_bind]
  refine (keeps_callocArray _ b h).mono (fun _ b₁ h₁ => ?_) (fun _ _ h => h)
  simp only [update, sat_bind, sat_modify]
  refine (sat_forM_zipIdx (fun pre b' => (Consistent p b'.session ∧
      Filled StdCopy {} p.inputs b'.session.stdInputSnapshots pre.length) ∧
      b'.session.stdInputSnapshots.length = p.inputs.length) p.inputs ?_ _ ?_).mono
      (fun _ _ h => h.1) (fun _ _ h => h)
  · rintro pre inp suf b' hxs ⟨⟨hc, hfill⟩, hlen⟩
    have hi : p.inputs[pre.length]? = some inp := by rw [hxs]; simp
    simp only [sat_call, sat_bind, sat_orFail, sat_modify]
    refine (sat_snapshotStdInput inp b'.tape).mono ?_ (fun _ _ h => h)
    intro r t hcopy
    refine ⟨?_, fun _ => hc⟩
    rintro snap rfl
    have hlt : pre.length < b'.session.stdInputSnapshots.length := by rw [hlen, hxs]; simp
    have hset := hfill.set hlt hi (hcopy snap rfl)
    rw [List.length_append, List.length_singleton]
    exact ⟨⟨{ hc with std := ⟨_, hset⟩ }, hset⟩, by rw [List.length_set, hlen]⟩
  · exact ⟨⟨{ h₁ with std := ⟨0, Filled.replicate _⟩ }, Filled.replicate _⟩,
      List.length_replicate⟩

theorem sat_snapshotOutputs {p : Psbt} {b : Build} (h : Consistent p b.session)
    (hstd : Filled StdCopy {} p.inputs b.session.stdInputSnapshots p.inputs.length) :
    Sat (snapshotOutputs p) (fun _ b' => Complete p b'.session)
      (fun _ b' => Consistent p b'.session) b := by
  rw [snapshotOutputs, sat_bind]
  refine (keeps_callocArray (I := fun s => Consistent p s ∧
    Filled StdCopy {} p.inputs s.stdInputSnapshots p.inputs.length) _ b ⟨h, hstd⟩).mono
    (fun _ b₁ h₁ => ?_) (fun _ _ h => h.1)
  obtain ⟨h₁, hstd₁⟩ := h₁
  simp only [update, sat_bind, sat_modify]
  refine (sat_forM_zipIdx (fun pre b' => ((Consistent p b'.session ∧
      Filled StdCopy {} p.inputs b'.session.stdInputSnapshots p.inputs.length) ∧
      Filled OutputCopy {} p.outputs b'.session.mwebOutputSnapshots pre.length) ∧
      b'.session.mwebOutputSnapshots.length = p.outputs.length) p.outputs ?_ _ ?_).mono
      (fun _ _ h => { h.1.1.1 with allStd := h.1.1.2, allOutputs := h.1.2 }) (fun _ _ h => h)
  · rintro pre po suf b' hxs ⟨⟨⟨hc, hs⟩, hfill⟩, hlen⟩
    have hi : p.outputs[pre.length]? = some po := by rw [hxs]; simp
    simp only [sat_call, sat_bind, sat_orFail, sat_modify]
    refine (sat_snapshotMwebOutput po b'.tape).mono ?_ (fun _ _ h => h)
    intro r t hcopy
    refine ⟨?_, fun _ => hc⟩
    rintro snap rfl
    have hlt : pre.length < b'.session.mwebOutputSnapshots.length := by rw [hlen, hxs]; simp
    have hset := hfill.set hlt hi (hcopy snap rfl)
    rw [List.length_append, List.length_singleton]
    exact ⟨⟨⟨{ hc with outputs := ⟨_, hset⟩ }, hs⟩, hset⟩, by rw [List.length_set, hlen]⟩
  · exact ⟨⟨⟨{ h₁ with outputs := ⟨0, Filled.replicate _⟩ }, hstd₁⟩, Filled.replicate _⟩,
      List.length_replicate⟩

/-- **A build that fails has only taken true copies, and one that succeeds has taken all.** -/
theorem sat_buildSession {p : Psbt} (kernel : PsbtKernel) {b : Build}
    (h : Consistent p b.session) :
    Sat (buildSession env p kernel) (fun _ b' => Complete p b'.session)
      (fun _ b' => Consistent p b'.session) b := by
  rw [buildSession, sat_bind]
  refine (sat_snapshotInputs h).mono ?_ (fun _ _ h => h)
  rintro _ b₁ ⟨h₁, hstd⟩
  rw [sat_bind]
  refine (sat_snapshotOutputs h₁ hstd).mono ?_ (fun _ _ h => h)
  intro _ b₂ h₂
  exact (keeps_buildBody env p kernel b₂ h₂).mono (fun _ _ h => h) (fun _ _ h => h.toConsistent)

end Build

/-! ### Every write is written over -/

/-- The three maps have been saved. -/
structure StdInputSnapshot.Valid (snap : StdInputSnapshot) : Prop where
  signatures : snap.signatures.isSome = true
  psbtFields : snap.psbtFields.isSome = true
  taprootLeafSignatures : snap.taprootLeafSignatures.isSome = true

theorem StdCopy.valid {snap : StdInputSnapshot} {inp : PsbtInput} (h : StdCopy snap inp) :
    snap.Valid := by
  rw [StdCopy] at h
  subst h
  exact ⟨rfl, rfl, rfl⟩

theorem OutputCopy.isSome {snap : MwebOutputSnapshot} {po : PsbtOutput} (h : OutputCopy snap po) :
    snap.unknowns.isSome = true := by
  rw [OutputCopy] at h
  subst h
  rfl

/-- **An abort would bring the PSBT back to `p₀`, up to the modifiable flags.**  The other two
fields say that the copies cover every input and output. -/
structure Guarded (s : MwebSession) (p₀ p : Psbt) : Prop where
  undo : mwebSessionRestore s p = { p₀ with txModifiableFlags := p.txModifiableFlags }
  std : ∀ i < p.inputs.length, ∃ snap, s.stdInputSnapshots[i]? = some snap ∧ snap.Valid
  outputs : ∀ i < p.outputs.length, ∃ snap,
    s.mwebOutputSnapshots[i]? = some snap ∧ snap.unknowns.isSome = true

theorem Complete.guarded {p : Psbt} {s : MwebSession} (h : Complete p s) : Guarded s p p where
  undo := h.toConsistent.restore_eq
  std := by
    intro i hi
    obtain ⟨snap, hsnap, hcopy⟩ := h.allStd.filled i hi p.inputs[i] (List.getElem?_eq_getElem hi)
    exact ⟨snap, hsnap, hcopy.valid⟩
  outputs := by
    intro i hi
    obtain ⟨snap, hsnap, hcopy⟩ :=
      h.allOutputs.filled i hi p.outputs[i] (List.getElem?_eq_getElem hi)
    exact ⟨snap, hsnap, hcopy.isSome⟩

/-- The flags are all that an abort may leave changed. -/
theorem Guarded.restored_iff {s : MwebSession} {p₀ p : Psbt} (h : Guarded s p₀ p) :
    mwebSessionRestore s p = p₀ ↔ p.txModifiableFlags = p₀.txModifiableFlags := by
  rw [h.undo]
  constructor
  · intro heq
    have hflags := congrArg Psbt.txModifiableFlags heq
    exact hflags
  · intro hflags
    rw [hflags]

theorem restoreStdInput_signedInput {snap : StdInputSnapshot} (h : snap.Valid)
    (a b c : WallyMap) (inp : PsbtInput) :
    restoreStdInput snap (signedInput a b c inp) = restoreStdInput snap inp := by
  obtain ⟨m₁, h₁⟩ := Option.isSome_iff_exists.1 h.signatures
  obtain ⟨m₂, h₂⟩ := Option.isSome_iff_exists.1 h.psbtFields
  obtain ⟨m₃, h₃⟩ := Option.isSome_iff_exists.1 h.taprootLeafSignatures
  simp [restoreStdInput, restoreWallyMap, signedInput, h₁, h₂, h₃]

theorem restoreMwebOutput_writeOutput {snap : MwebOutputSnapshot}
    (h : snap.unknowns.isSome = true) (so : SessionOutput) (po : PsbtOutput) :
    restoreMwebOutput snap (writeOutput so po) = restoreMwebOutput snap po := by
  obtain ⟨m, hm⟩ := Option.isSome_iff_exists.1 h
  simp [restoreMwebOutput, writeOutput, hm]

namespace Guarded

variable {s : MwebSession} {p₀ p : Psbt}

/-- Signing an input writes to its three maps and to the modifiable flags. -/
theorem signInput (h : Guarded s p₀ p) (i : ℕ) (a b c : WallyMap) (flags : UInt32) :
    Guarded s p₀ { p with
      inputs := p.inputs.modify i (signedInput a b c), txModifiableFlags := flags } where
  undo := by
    have hinputs : overlay restoreStdInput s.stdInputSnapshots
        (writeAll SessionInput.psbtIndex restoreInput s.inputs
          (p.inputs.modify i (signedInput a b c))) =
        overlay restoreStdInput s.stdInputSnapshots
          (writeAll SessionInput.psbtIndex restoreInput s.inputs p.inputs) := by
      have hcomm : ∀ si inp, restoreInput si (signedInput a b c inp) =
          signedInput a b c (restoreInput si inp) := fun _ _ => rfl
      rw [writeAll_modify_comm hcomm]
      refine overlay_modify i fun hi => ?_
      rw [length_writeAll] at hi
      obtain ⟨snap, hsnap, hvalid⟩ := h.std i hi
      exact ⟨snap, hsnap, restoreStdInput_signedInput hvalid a b c⟩
    have hundo := congrArg (fun q : Psbt => { q with txModifiableFlags := flags }) h.undo
    simp only [mwebSessionRestore, restoreGlobals] at hundo ⊢
    rw [hinputs, hundo]
  std := by simpa using h.std
  outputs := h.outputs

/-- A commit writes to an output that has been copied. -/
theorem writeOutput (h : Guarded s p₀ p) (so : SessionOutput) :
    Guarded s p₀ { p with outputs := p.outputs.modify so.psbtIndex (writeOutput so) } where
  undo := by
    have houtputs : overlay restoreMwebOutput s.mwebOutputSnapshots
        (p.outputs.modify so.psbtIndex (Mweb.writeOutput so)) =
        overlay restoreMwebOutput s.mwebOutputSnapshots p.outputs := by
      refine overlay_modify so.psbtIndex fun hi => ?_
      obtain ⟨snap, hsnap, hvalid⟩ := h.outputs so.psbtIndex hi
      exact ⟨snap, hsnap, restoreMwebOutput_writeOutput hvalid so⟩
    have hundo := h.undo
    simp only [mwebSessionRestore, restoreGlobals] at hundo ⊢
    rw [houtputs, hundo]
  std := h.std
  outputs := by simpa using h.outputs

/-- A commit writes to an input the session has an entry for. -/
theorem writeInput (h : Guarded s p₀ p) {si : SessionInput} (hsi : si ∈ s.inputs)
    (signature : Bytes) :
    Guarded s p₀ { p with inputs := p.inputs.modify si.psbtIndex (writeInput si signature) } where
  undo := by
    have hinputs : writeAll SessionInput.psbtIndex restoreInput s.inputs
        (p.inputs.modify si.psbtIndex (Mweb.writeInput si signature)) =
        writeAll SessionInput.psbtIndex restoreInput s.inputs p.inputs := by
      have hcover : ∀ si' inp, restoreInput si' (Mweb.writeInput si signature inp) =
          restoreInput si' inp := fun _ _ => rfl
      exact writeAll_modify_of_mem hcover hsi p.inputs
    have hundo := h.undo
    simp only [mwebSessionRestore, restoreGlobals] at hundo ⊢
    rw [hinputs, hundo]
  std := by simpa using h.std
  outputs := h.outputs

/-- A commit writes the kernel fields and the offsets, all of which have been copied. -/
theorem writeKernel (h : Guarded s p₀ p) :
    Guarded s p₀ (writeOffsets s.kernel
      { p with mwebKernels := p.mwebKernels.modify s.kernelIndex (writeKernel s.kernel) }) where
  undo := by
    have hkernels : (p.mwebKernels.modify s.kernelIndex (Mweb.writeKernel s.kernel)).modify
        s.kernelIndex (restoreKernel s.kernel) =
        p.mwebKernels.modify s.kernelIndex (restoreKernel s.kernel) := by
      rw [List.modify_modify_eq]
      rfl
    have hundo := h.undo
    simp only [mwebSessionRestore, restoreGlobals, writeOffsets] at hundo ⊢
    rw [hkernels, hundo]
  std := h.std
  outputs := h.outputs

/-- One step of a run. -/
theorem step (h : Guarded s p₀ p) (st : SessionStep) :
    Guarded (st.onSession s) p₀ (st.onPsbt p) := by
  cases st with
  | signInput index a b c flags => exact h.signInput index a b c _
  | confirmPegout idx => exact ⟨h.undo, h.std, h.outputs⟩

/-- **No step leaves the guarded part.** -/
theorem run {w : World} (h : Guarded s p₀ w.psbt) (hw : w.session = some s)
    (steps : List SessionStep) :
    ∃ s', (steps.foldl SessionStep.run w).session = some s' ∧
      Guarded s' p₀ (steps.foldl SessionStep.run w).psbt := by
  induction steps generalizing w s with
  | nil => exact ⟨s, hw, h⟩
  | cons st steps ih => exact ih (w := st.run w) (h.step st) (by simp [SessionStep.run, hw])

end Guarded

/-! ### Commit and abort -/

section Commit

variable {P : Type} (env : Env P) {s : MwebSession} {p₀ : Psbt} {flags : UInt32}

/-- The session is there, the PSBT is guarded, and the modifiable flags are `flags`. -/
def Open (s : MwebSession) (p₀ : Psbt) (flags : UInt32) (w : World) : Prop :=
  w.session = some s ∧ Guarded s p₀ w.psbt ∧ w.psbt.txModifiableFlags = flags

theorem keeps_callW {α : Type} (x : M α) : Keeps (Open s p₀ flags) (callW x) := fun _ h =>
  (sat_callW x).2 (sat_of_forall (fun _ _ => h) fun _ _ => h)

theorem keeps_writePsbt {f : Psbt → Psbt} (hf : ∀ p, Guarded s p₀ p → Guarded s p₀ (f p))
    (hflags : ∀ p, (f p).txModifiableFlags = p.txModifiableFlags) :
    Keeps (Open s p₀ flags) (writePsbt f) :=
  Keeps.modify fun w h => ⟨h.1, hf w.psbt h.2.1, by rw [hflags]; exact h.2.2⟩

/-- No write of a commit leaves the guarded part, wherever the commit stops. -/
theorem keeps_commitBody : Keeps (Open s p₀ flags) (commitBody env s) := by
  have houtputs : Keeps (Open s p₀ flags) (s.outputs.forM commitOutput) :=
    Keeps.forM _ fun so _ => Keeps.get.bind fun _ => (Keeps.check _ _).bind fun _ =>
      (keeps_callW _).bind fun _ => (Keeps.check _ _).bind fun _ =>
      keeps_writePsbt (fun _ h => h.writeOutput so) fun _ => rfl
  have hinputs : Keeps (Open s p₀ flags) (s.inputs.forM (commitInput env)) :=
    Keeps.forM _ fun si hsi => Keeps.get.bind fun _ => (keeps_callW _).bind fun _ =>
      (keeps_callW _).bind fun signature =>
      keeps_writePsbt (fun _ h => h.writeInput hsi signature) fun _ => rfl
  have hkernel : Keeps (Open s p₀ flags) (commitKernel s) :=
    Keeps.get.bind fun _ => (Keeps.check _ _).bind fun _ =>
      keeps_writePsbt (fun _ h => h.writeKernel) fun _ => rfl
  exact (Keeps.check _ _).bind fun _ => houtputs.bind fun _ => hinputs.bind fun _ => hkernel

/-- An abort frees the session and restores all but the flags. -/
theorem abort_of_guarded {w : World} (hw : w.session = some s) (h : Guarded s p₀ w.psbt) :
    (mwebSessionAbort w).session = none ∧
      ((mwebSessionAbort w).psbt = p₀ ↔ w.psbt.txModifiableFlags = p₀.txModifiableFlags) := by
  simp only [mwebSessionAbort, hw]
  exact ⟨trivial, h.restored_iff⟩

/-- A commit that fails does what an abort does. -/
theorem sat_mwebSessionCommit {w : World} (hw : w.session = some s) (h : Guarded s p₀ w.psbt) :
    Sat (mwebSessionCommit env) (fun _ w' => w'.session = none)
      (fun _ w' => w'.session = none ∧
        (w'.psbt = p₀ ↔ w.psbt.txModifiableFlags = p₀.txModifiableFlags)) w := by
  simp only [mwebSessionCommit, sat_bind, sat_get, hw, sat_tryCatch, sat_modify, sat_throw]
  refine (keeps_commitBody env w ⟨hw, h, rfl⟩).mono (fun _ _ _ => trivial) ?_
  rintro _ w' ⟨hw', h', hflags⟩
  rw [← hflags]
  exact abort_of_guarded hw' h'

/-- Opening a session does not change the PSBT; on success all copies have been taken. -/
theorem sat_mwebSessionBegin (networkId : Network) (w : World) :
    Sat (mwebSessionBegin env networkId)
      (fun _ w' => w'.psbt = w.psbt ∧ ∃ s, w'.session = some s ∧ Guarded s w.psbt w.psbt)
      (fun _ w' => w'.psbt = w.psbt ∧ w'.session = none) w := by
  simp only [mwebSessionBegin, sat_bind, sat_modify, sat_check, sat_get]
  refine ⟨fun _ => ?_, fun _ => ⟨trivial, trivial⟩⟩
  split
  · exact (sat_throw _).2 ⟨rfl, rfl⟩
  · exact (sat_throw _).2 ⟨rfl, rfl⟩
  · rename_i kernel hk
    simp only [sat_bind, sat_zoom, sat_check, sat_get]
    refine sat_alloc fun ok t => ⟨fun _ => ?_, fun _ => ⟨trivial, trivial⟩⟩
    have hbuild := sat_buildSession env kernel
      (b := { session := MwebSession.create w.psbt kernel, tape := t }) (consistent_create hk)
    split
    · rename_i b hrun
      rw [sat_set]
      exact ⟨rfl, b.session, rfl, (hbuild.ok hrun).guarded⟩
    · rename_i e b hrun
      simp only [sat_bind, sat_set, sat_throw]
      exact ⟨(hbuild.error hrun).restore_eq, rfl⟩

end Commit

/-- A session that was opened stays guarded through any steps. -/
theorem guarded_of_begin {P : Type} {env : Env P} {networkId : Network} {w w₁ : World}
    (hrun : (mwebSessionBegin env networkId).run w = .ok () w₁) (steps : List SessionStep) :
    (∃ s, (steps.foldl SessionStep.run w₁).session = some s ∧
      Guarded s w.psbt (steps.foldl SessionStep.run w₁).psbt) ∧
    (steps.foldl SessionStep.run w₁).psbt.txModifiableFlags = flagsAfter w.psbt steps := by
  obtain ⟨hpsbt, s, hs, hguard⟩ := (sat_mwebSessionBegin env networkId w).ok hrun
  rw [← hpsbt] at hguard
  refine ⟨?_, by rw [psbt_foldl_run, hpsbt, flagsAfter]⟩
  rw [← hpsbt]
  exact hguard.run hs steps

/-- An abort leaves the modifiable flags as it finds them. -/
theorem flags_mwebSessionAbort {P : Type} {env : Env P} {networkId : Network} {w w₁ : World}
    (hrun : (mwebSessionBegin env networkId).run w = .ok () w₁) {steps : List SessionStep} :
    (mwebSessionAbort (steps.foldl SessionStep.run w₁)).psbt.txModifiableFlags =
      flagsAfter w.psbt steps := by
  obtain ⟨⟨s, hs, hguard⟩, hflags⟩ := guarded_of_begin hrun steps
  rw [← hflags, mwebSessionAbort, hs]
  simp only [hguard.undo]

/-- **Exactly when a session that fails restores the PSBT.**  An opening that fails changes
nothing.  A session that was opened, went through any steps, and then failed to commit or was
aborted, is freed; and the PSBT is back to what it was at the opening if and only if the steps left
the modifiable flags as they were. -/
theorem session_rollback {P : Type} (env : Env P) (networkId : Network) (w : World) :
    (∀ e w', (mwebSessionBegin env networkId).run w = .error e w' →
      w'.psbt = w.psbt ∧ w'.session = none) ∧
    ∀ w₁, (mwebSessionBegin env networkId).run w = .ok () w₁ → ∀ steps : List SessionStep,
      (∀ e w₂, (mwebSessionCommit env).run (steps.foldl SessionStep.run w₁) = .error e w₂ →
        w₂.session = none ∧
          (w₂.psbt = w.psbt ↔ flagsAfter w.psbt steps = w.psbt.txModifiableFlags)) ∧
      (mwebSessionAbort (steps.foldl SessionStep.run w₁)).session = none ∧
        ((mwebSessionAbort (steps.foldl SessionStep.run w₁)).psbt = w.psbt ↔
          flagsAfter w.psbt steps = w.psbt.txModifiableFlags) := by
  refine ⟨fun e w' hrun => (sat_mwebSessionBegin env networkId w).error hrun,
    fun w₁ hrun steps => ?_⟩
  obtain ⟨⟨s, hs, hguard⟩, hflags⟩ := guarded_of_begin hrun steps
  rw [← hflags]
  exact ⟨fun e w₂ hrun₂ => (sat_mwebSessionCommit env hs hguard).error hrun₂,
    abort_of_guarded hs hguard⟩

/-! ### One signature -/

/-- A version 2 PSBT whose inputs and outputs may still be modified, with one standard input and a
kernel that moves nothing. -/
def oneInputPsbt : Psbt where
  txModifiableFlags := 3
  inputs := [{}]
  mwebKernels := [{ features := some 0 }]

/-- Every allocation succeeds and every draw is 5. -/
def oneInputWorld : World where
  psbt := oneInputPsbt
  session := none
  tape := { allocs := fun _ => true, trng := fun _ => 5 }

/-- The map with one signature. -/
def oneSignatureMap : WallyMap where
  items := [(.bytes [2], [0x30])]
  nodup := by decide

/-- Signing the input, which leaves the modifiable flags at `flags`. -/
def signFirstInput (flags : UInt32) : List SessionStep :=
  [.signInput 0 oneSignatureMap .empty .empty flags]

theorem mwebSessionBegin_oneInput :
    ∃ w₁, (mwebSessionBegin pairEnv .litecoin).run oneInputWorld = .ok () w₁ := by
  have hok : (match (mwebSessionBegin pairEnv .litecoin).run oneInputWorld with
      | .ok _ _ => true
      | .error _ _ => false) = true := by decide +kernel
  cases hrun : (mwebSessionBegin pairEnv .litecoin).run oneInputWorld with
  | ok _ w₁ => exact ⟨w₁, rfl⟩
  | error e w₁ => simp [hrun] at hok

/-- A signature that keeps the flags is taken back. -/
theorem session_rollback_oneInput : ∃ w₁,
    (mwebSessionBegin pairEnv .litecoin).run oneInputWorld = .ok () w₁ ∧
      (mwebSessionAbort ((signFirstInput 3).foldl SessionStep.run w₁)).session = none ∧
      (mwebSessionAbort ((signFirstInput 3).foldl SessionStep.run w₁)).psbt = oneInputPsbt := by
  obtain ⟨w₁, hrun⟩ := mwebSessionBegin_oneInput
  obtain ⟨-, hfree, hiff⟩ :=
    (session_rollback pairEnv .litecoin oneInputWorld).2 w₁ hrun (signFirstInput 3)
  exact ⟨w₁, hrun, hfree, hiff.2 (by decide)⟩

/-- **A signature that clears the flags is not**: the session is aborted, and the PSBT differs from
the one it was opened on. -/
theorem session_rollback_fails_on_modifiable_flags : ∃ w₁,
    (mwebSessionBegin pairEnv .litecoin).run oneInputWorld = .ok () w₁ ∧
      (mwebSessionAbort ((signFirstInput 0).foldl SessionStep.run w₁)).psbt ≠ oneInputPsbt := by
  obtain ⟨w₁, hrun⟩ := mwebSessionBegin_oneInput
  refine ⟨w₁, hrun, fun heq => ?_⟩
  have hflags := congrArg Psbt.txModifiableFlags heq
  rw [flags_mwebSessionAbort hrun] at hflags
  exact absurd hflags (by decide)

end Jade.Mweb
