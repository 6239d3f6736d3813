/-
**What an open session contains.**

The build of a session goes through the inputs, the outputs and the pegouts of the kernel in order,
and adds one entry and one amount for each. What the entries are, and what the totals are totals of,
does not depend on the curve: it is read off the loops. The rule `sat_buildBody_of` is the shape of
every argument about the build: an invariant indexed by what has been handled, which the fields that
the loops do not write cannot disturb.

Main definitions:

* `Jade.Mweb.buildEntries` — the build up to the kernel signature;
* `Jade.Mweb.SameContents` — two sessions that differ in nothing the loops write;
* `Jade.Mweb.BuiltFor` — a session output and the PSBT output it was built for;
* `Jade.Mweb.Contents`, `Jade.Mweb.Closed` — the entries and totals, and what the kernel adds;
* `Jade.Mweb.KernelSignature` — the message under the kernel's signature;
* `Jade.Mweb.Written` — what a commit leaves.

Main results:

* `Jade.Mweb.sat_buildEntries_of`, `Jade.Mweb.sat_buildBody_of`,
  `Jade.Mweb.sat_mwebSessionBegin_of` — the rule of the build;
* `Jade.Mweb.sat_mwebSessionBegin_contents` — a session that is open has its contents;
* `Jade.Mweb.sat_mwebSessionCommit_written` — a commit that succeeds writes them.
-/

import Jade.Mweb.Rollback

set_option relaxedAutoImplicit false
set_option autoImplicit false

namespace Jade.Mweb

open Exec

variable {P : Type} {env : Env P}

/-- The MWEB inputs and outputs of a PSBT. -/
def isMwebInput (inp : PsbtInput) : Bool := mwebInHasOutputId inp.mwebKeyset

def isMwebOutput (po : PsbtOutput) : Bool := mwebOutIsMweb po.mwebOutputKeyset

/-! ### The rule of the build -/

/-- The two sessions agree on what the loops of the build write. -/
structure SameContents (s s' : MwebSession) : Prop where
  inputs : s'.inputs = s.inputs
  outputs : s'.outputs = s.outputs
  pegouts : s'.pegouts = s.pegouts
  totalInput : s'.totalInputValue = s.totalInputValue
  totalOutput : s'.totalOutputValue = s.totalOutputValue
  totalPegout : s'.totalPegout = s.totalPegout
  kernelIndex : s'.kernelIndex = s.kernelIndex

/-- The totals the kernel itself declares, and the stealth flag of its feature byte. -/
structure KernelTotals (kernel : PsbtKernel) (se : Bool) (s : MwebSession) : Prop where
  fee : s.totalFee = kernel.fee.getD 0
  pegin : s.totalPegin = kernel.peginAmount.getD 0
  hasPegin : s.hasPegin = kernel.peginAmount.isSome
  stealth : s.kernel.hasStealthExcess = se

/-- The stealth flag of the kernel. -/
def StealthIs (se : Bool) (s : MwebSession) : Prop := s.kernel.hasStealthExcess = se

theorem sat_drawStealthKey (features : UInt8) (t : Tape) :
    Sat (drawStealthKey features)
      (fun key _ => key.isSome = hasBit features MWEB_KERNEL_STEALTH_EXCESS_BIT)
      (fun _ _ => True) t := by
  rw [drawStealthKey, sat_ite]
  constructor
  · intro hbit
    simp only [sat_bind, sat_orFail, sat_pure, implies_true, and_true]
    exact sat_drawScalar 8 (fun r t₁ key _ => by simp [hbit]) t
  · intro hbit
    simpa using hbit

/-- The build up to the kernel signature: the feature bits, the entries and the balance. What is
left over is the feature byte and the scalar of a stealth-excess kernel. -/
def buildEntries (env : Env P) (psbt : Psbt) (kernel : PsbtKernel) : B (UInt8 × Option Bytes) := do
  let features ← call (orFail kernel.features .kernelFeatureMismatch)
  check (featuresMatch features kernel) .kernelFeatureMismatch
  let stealthKey ← call (drawStealthKey features)
  update fun s =>
    { s with kernel := { s.kernel with
        hasStealthExcess := hasBit features MWEB_KERNEL_STEALTH_EXCESS_BIT } }
  callocArray (psbt.inputs.filter fun inp => mwebInHasOutputId inp.mwebKeyset).length
  callocArray (psbt.outputs.filter fun po => mwebOutIsMweb po.mwebOutputKeyset).length
  psbt.inputs.zipIdx.forM fun (inp, i) => buildInput env inp i
  psbt.outputs.zipIdx.forM fun (po, i) => buildOutput env po i
  buildKernelTotals kernel
  callocArray kernel.pegouts.items.length
  kernel.pegouts.items.forM fun item => buildPegout env item.2
  let s ← current
  check (sessionBalanced s) .balanceFail
  pure (features, stealthKey)

theorem buildBody_eq (env : Env P) (psbt : Psbt) (kernel : PsbtKernel) :
    buildBody env psbt kernel =
      buildEntries env psbt kernel >>= fun fk => buildKernel env kernel fk.1 fk.2 := by
  simp only [buildBody, buildEntries, bind_assoc, pure_bind]

/-- What the checks of the build say about the kernel. -/
structure KernelChecked (kernel : PsbtKernel) (features : UInt8) (stealthKey : Option Bytes)
    (s : MwebSession) : Prop where
  declared : kernel.features = some features
  fieldsMatch : featuresMatch features kernel = true
  stealthKey : stealthKey.isSome = hasBit features MWEB_KERNEL_STEALTH_EXCESS_BIT
  totals : KernelTotals kernel (hasBit features MWEB_KERNEL_STEALTH_EXCESS_BIT) s
  inRange : atomicInMoneyRange (kernel.fee.getD 0) = true ∧
    atomicInMoneyRange (kernel.peginAmount.getD 0) = true
  balanced : sessionBalanced s = true

/-- **The rule of the entries**: an invariant of the three loops. -/
theorem sat_buildEntries_of {p : Psbt} {kernel : PsbtKernel}
    {I : List PsbtInput → List PsbtOutput → List (MapKey × Bytes) → MwebSession → Prop}
    (frame : ∀ ins outs pegs s s', SameContents s s' → I ins outs pegs s → I ins outs pegs s')
    (input : ∀ pre inp b, p.inputs[pre.length]? = some inp → I pre [] [] b.session →
      Sat (buildInput env inp pre.length) (fun _ b' => I (pre ++ [inp]) [] [] b'.session)
        (fun _ _ => True) b)
    (output : ∀ pre po b, I p.inputs pre [] b.session →
      Sat (buildOutput env po pre.length) (fun _ b' => I p.inputs (pre ++ [po]) [] b'.session)
        (fun _ _ => True) b)
    (pegout : ∀ pre item b, I p.inputs p.outputs pre b.session →
      Sat (buildPegout env item.2) (fun _ b' => I p.inputs p.outputs (pre ++ [item]) b'.session)
        (fun _ _ => True) b)
    {b : Build} (h : I [] [] [] b.session) :
    Sat (buildEntries env p kernel)
      (fun fk b' => I p.inputs p.outputs kernel.pegouts.items b'.session ∧
        KernelChecked kernel fk.1 fk.2 b'.session) (fun _ _ => True) b := by
  simp only [buildEntries, sat_bind, sat_call, sat_orFail, sat_check, update, sat_modify,
    implies_true, and_true]
  intro features hfeatures hmatch
  refine (sat_drawStealthKey features b.tape).mono ?_ (fun _ _ h => h)
  intro stealthKey t₁ hkey
  have h₁ : I [] [] [] { b.session with kernel := { b.session.kernel with
      hasStealthExcess := hasBit features MWEB_KERNEL_STEALTH_EXCESS_BIT } } :=
    frame _ _ _ b.session _ ⟨rfl, rfl, rfl, rfl, rfl, rfl, rfl⟩ h
  -- the two allocations leave the session alone
  refine (keeps_callocArray (I := fun s => I [] [] [] s ∧
    StealthIs (hasBit features MWEB_KERNEL_STEALTH_EXCESS_BIT) s) _ _
    (by exact ⟨h₁, rfl⟩)).mono ?_ (fun _ _ _ => trivial)
  intro _ b₂ h₂
  refine (keeps_callocArray (I := fun s => I [] [] [] s ∧
    StealthIs (hasBit features MWEB_KERNEL_STEALTH_EXCESS_BIT) s) _ _ h₂).mono ?_
    (fun _ _ _ => trivial)
  intro _ b₃ h₃
  refine (sat_forM_zipIdx (fun pre b => I pre [] [] b.session ∧
    StealthIs (hasBit features MWEB_KERNEL_STEALTH_EXCESS_BIT) b.session) p.inputs ?_ b₃ h₃).mono
    ?_ (fun _ _ h => h)
  · intro pre inp suf b' hxs h'
    exact ((input pre inp b' (by rw [hxs]; simp) h'.1).and
      (keeps_buildInput_of env inp pre.length (fun _ _ _ h => h) b' h'.2)).mono (fun _ _ h => h)
      (fun _ _ _ => trivial)
  intro _ b₄ h₄
  refine (sat_forM_zipIdx (fun pre b => I p.inputs pre [] b.session ∧
    StealthIs (hasBit features MWEB_KERNEL_STEALTH_EXCESS_BIT) b.session) p.outputs ?_ b₄ h₄).mono
    ?_ (fun _ _ h => h)
  · intro pre po suf b' _ h'
    exact ((output pre po b' h'.1).and (keeps_buildOutput_of env po pre.length
      (fun _ _ _ h => h) b' h'.2)).mono
      (fun _ _ h => h) (fun _ _ _ => trivial)
  rintro _ b₅ ⟨h₅, hse⟩
  simp only [buildKernelTotals, update, sat_bind, sat_modify, sat_check, implies_true, and_true,
    Bool.and_eq_true]
  intro hrange
  refine (keeps_callocArray (I := fun s => I p.inputs p.outputs [] s ∧
    KernelTotals kernel (hasBit features MWEB_KERNEL_STEALTH_EXCESS_BIT) s) _
    { b₅ with session := { b₅.session with
        totalFee := kernel.fee.getD 0
        totalPegin := kernel.peginAmount.getD 0
        hasPegin := kernel.peginAmount.isSome } }
    ⟨frame _ _ _ b₅.session _ ⟨rfl, rfl, rfl, rfl, rfl, rfl, rfl⟩ h₅, rfl, rfl, rfl, hse⟩).mono ?_
    (fun _ _ _ => trivial)
  intro _ b₆ h₆
  refine (sat_forM (fun pre b => I p.inputs p.outputs pre b.session ∧
    KernelTotals kernel (hasBit features MWEB_KERNEL_STEALTH_EXCESS_BIT) b.session)
    kernel.pegouts.items ?_ b₆ h₆).mono ?_ (fun _ _ h => h)
  · intro pre item suf b' _ h'
    exact ((pegout pre item b' h'.1).and (keeps_buildPegout_of env item.2
      (fun _ _ _ h => { h with }) b' h'.2)).mono
      (fun _ _ h => h) (fun _ _ _ => trivial)
  rintro _ b₇ ⟨h₇, ht₇⟩
  simp only [current, sat_bind, sat_get, sat_pure]
  intro hbal
  exact ⟨h₇, hfeatures, hmatch, hkey, ht₇, hrange, hbal⟩

/-- **The rule of the build**: an invariant of the three loops, and what the kernel makes of it. -/
theorem sat_buildBody_of {p : Psbt} {kernel : PsbtKernel}
    {I : List PsbtInput → List PsbtOutput → List (MapKey × Bytes) → MwebSession → Prop}
    {Q : MwebSession → Prop}
    (frame : ∀ ins outs pegs s s', SameContents s s' → I ins outs pegs s → I ins outs pegs s')
    (input : ∀ pre inp b, p.inputs[pre.length]? = some inp → I pre [] [] b.session →
      Sat (buildInput env inp pre.length) (fun _ b' => I (pre ++ [inp]) [] [] b'.session)
        (fun _ _ => True) b)
    (output : ∀ pre po b, I p.inputs pre [] b.session →
      Sat (buildOutput env po pre.length) (fun _ b' => I p.inputs (pre ++ [po]) [] b'.session)
        (fun _ _ => True) b)
    (pegout : ∀ pre item b, I p.inputs p.outputs pre b.session →
      Sat (buildPegout env item.2) (fun _ b' => I p.inputs p.outputs (pre ++ [item]) b'.session)
        (fun _ _ => True) b)
    (finish : ∀ features stealthKey b, kernel.features = some features →
      featuresMatch features kernel = true →
      stealthKey.isSome = hasBit features MWEB_KERNEL_STEALTH_EXCESS_BIT →
      I p.inputs p.outputs kernel.pegouts.items b.session →
      KernelTotals kernel (hasBit features MWEB_KERNEL_STEALTH_EXCESS_BIT) b.session →
      sessionBalanced b.session = true →
      Sat (buildKernel env kernel features stealthKey) (fun _ b' => Q b'.session)
        (fun _ _ => True) b)
    {b : Build} (h : I [] [] [] b.session) :
    Sat (buildBody env p kernel) (fun _ b' => Q b'.session) (fun _ _ => True) b := by
  rw [buildBody_eq, sat_bind]
  refine (sat_buildEntries_of frame input output pegout h).mono ?_ (fun _ _ h => h)
  rintro ⟨features, stealthKey⟩ b' ⟨hI, hkernel⟩
  exact finish features stealthKey b' hkernel.declared hkernel.fieldsMatch hkernel.stealthKey hI
    hkernel.totals hkernel.balanced

/-- The snapshots are all that the snapshot loops write. -/
theorem keeps_snapshotInputs (p : Psbt) {J : MwebSession → Prop}
    (hJ : ∀ s snaps, J s → J { s with stdInputSnapshots := snaps }) :
    Keeps (fun b => J b.session) (snapshotInputs p) :=
  (keeps_callocArray _).bind fun _ => (keeps_update fun s h => hJ s _ h).bind fun _ =>
    Keeps.forM _ fun _ _ => (keeps_call _).bind fun _ => keeps_update fun s h => hJ s _ h

theorem keeps_snapshotOutputs (p : Psbt) {J : MwebSession → Prop}
    (hJ : ∀ s snaps, J s → J { s with mwebOutputSnapshots := snaps }) :
    Keeps (fun b => J b.session) (snapshotOutputs p) :=
  (keeps_callocArray _).bind fun _ => (keeps_update fun s h => hJ s _ h).bind fun _ =>
    Keeps.forM _ fun _ _ => (keeps_call _).bind fun _ => keeps_update fun s h => hJ s _ h

/-- The rule for the whole build, and from it for the call that opens a session: `I` holds of a
session in which nothing has been handled, whatever else it saved. -/
theorem sat_mwebSessionBegin_of {J : MwebSession → Prop} {R : Psbt → PsbtKernel → MwebSession → Prop}
    (start : ∀ p k, J (MwebSession.create p k))
    (frame : ∀ s s', SameContents s s' → J s → J s')
    (body : ∀ p kernel b, p.mwebKernels = [kernel] → J b.session →
      Sat (buildBody env p kernel) (fun _ b' => R p kernel b'.session) (fun _ _ => True) b)
    (networkId : Network) (w : World) :
    Sat (mwebSessionBegin env networkId)
      (fun _ w' => networkIsLitecoin networkId = true ∧ w'.psbt = w.psbt ∧ ∃ kernel s,
        w.psbt.mwebKernels = [kernel] ∧ w'.session = some s ∧ R w.psbt kernel s)
      (fun _ _ => True) w := by
  simp only [mwebSessionBegin, sat_bind, sat_modify, sat_check, sat_get, implies_true, and_true]
  intro hnetwork
  split
  · exact (sat_throw _).2 trivial
  · exact (sat_throw _).2 trivial
  · next kernel hk =>
      simp only [sat_bind, sat_zoom, sat_check, sat_get, implies_true, and_true]
      refine sat_alloc fun ok t _ => ?_
      have hbuild : Sat (buildSession env w.psbt kernel)
          (fun _ b' => R w.psbt kernel b'.session) (fun _ _ => True)
          { session := MwebSession.create w.psbt kernel, tape := t } := by
        rw [buildSession, sat_bind]
        refine (keeps_snapshotInputs w.psbt
          (fun s snaps h => frame s _ ⟨rfl, rfl, rfl, rfl, rfl, rfl, rfl⟩ h) _
          (start w.psbt kernel)).mono ?_ (fun _ _ _ => trivial)
        intro _ b₁ h₁
        rw [sat_bind]
        refine (keeps_snapshotOutputs w.psbt
          (fun s snaps h => frame s _ ⟨rfl, rfl, rfl, rfl, rfl, rfl, rfl⟩ h) b₁ h₁).mono ?_
          (fun _ _ _ => trivial)
        intro _ b₂ h₂
        exact body w.psbt kernel b₂ hk h₂
      split
      · next b hrun =>
          rw [sat_set]
          exact ⟨hnetwork, rfl, kernel, b.session, hk, rfl, hbuild.ok hrun⟩
      · simp only [sat_bind, sat_set, sat_throw]

/-! ### Entries -/

/-- A session output and the PSBT output it was built for: the builder was called with the two
halves of its stealth address and with its amount. -/
structure BuiltFor (env : Env P) (po : PsbtOutput) (so : SessionOutput) : Prop where
  value : po.amount = some so.value
  built : ∃ extraData t t' b,
    (mwebBuildOutput env.toSecp so.senderKey (po.mwebStealthAddress.take 33)
      (po.mwebStealthAddress.drop 33) so.value so.features extraData).run t = .ok b t' ∧
    so.commit = b.commit ∧ so.outputPubkey = b.outputPubkey ∧ so.senderPubkey = b.senderPubkey ∧
    so.standardFields = b.keyExchangePubkey ++ [b.viewTag] ++
      Bytes.ofNatLE 8 b.maskedValue.toNat ++ b.maskedNonce ∧
    so.rangeProof = b.rangeProof ∧ so.signature = b.signature

theorem sat_buildMwebOutput_builtFor (po : PsbtOutput) (i : ℕ) (t : Tape) :
    Sat (buildMwebOutput env po i) (fun so _ => so.psbtIndex = i ∧ BuiltFor env po so)
      (fun _ _ => True) t := by
  simp only [buildMwebOutput, sat_bind, sat_check, sat_orFail, sat_tryCatch, sat_throw, sat_pure,
    implies_true, and_true]
  intro value hvalue _ extraData _
  refine sat_drawScalar 8 (fun r t₁ senderKey _ => ?_) t
  refine (sat_self _ t₁).mono ?_ (fun _ _ _ => trivial)
  intro b t₂ hrun
  exact ⟨trivial, hvalue, extraData, t₁, t₂, b, hrun, rfl, rfl, rfl, rfl, rfl, rfl⟩

/-- A pegout of the session as its map entry spells it. -/
def SessionPegout.pegout (sp : SessionPegout) : Pegout where
  amount := sp.amount
  script := sp.script
  scriptLen := sp.scriptLen

/-- **The entries and totals of a session**: the inputs `ins`, the outputs `outs` and the pegouts
`pegs` have been handled. -/
structure Contents (env : Env P) (ins : List PsbtInput) (outs : List PsbtOutput)
    (pegs : List (MapKey × Bytes)) (s : MwebSession) : Prop where
  outputs : Slots SessionOutput.psbtIndex isMwebOutput (BuiltFor env) 0 outs s.outputs
  pegouts : pegs.map (fun item => atomicParsePegout item.2) =
    s.pegouts.map fun sp => some sp.pegout
  totalInput : s.totalInputValue.toNat =
    ((ins.filter isMwebInput).map fun inp => inp.mwebInputAmount.toNat).sum
  totalOutput : s.totalOutputValue.toNat = (s.outputs.map fun so => so.value.toNat).sum
  totalPegout : s.totalPegout.toNat = (s.pegouts.map fun sp => sp.amount.toNat).sum
  kernelIndex : s.kernelIndex = 0

theorem contents_create (p : Psbt) (k : PsbtKernel) :
    Contents env [] [] [] (MwebSession.create p k) where
  outputs := Slots.nil
  pegouts := rfl
  totalInput := rfl
  totalOutput := rfl
  totalPegout := rfl
  kernelIndex := rfl

theorem Contents.frame {ins : List PsbtInput} {outs : List PsbtOutput}
    {pegs : List (MapKey × Bytes)} {s s' : MwebSession} (h : Contents env ins outs pegs s)
    (hsame : SameContents s s') : Contents env ins outs pegs s' where
  outputs := by rw [hsame.outputs]; exact h.outputs
  pegouts := by rw [hsame.pegouts]; exact h.pegouts
  totalInput := by rw [hsame.totalInput]; exact h.totalInput
  totalOutput := by rw [hsame.totalOutput, hsame.outputs]; exact h.totalOutput
  totalPegout := by rw [hsame.totalPegout, hsame.pegouts]; exact h.totalPegout
  kernelIndex := by rw [hsame.kernelIndex]; exact h.kernelIndex

theorem Contents.buildInput {pre : List PsbtInput} (inp : PsbtInput) {b : Build}
    (h : Contents env pre [] [] b.session) :
    Sat (buildInput env inp pre.length)
      (fun _ b' => Contents env (pre ++ [inp]) [] [] b'.session)
      (fun _ _ => True) b := by
  rw [Mweb.buildInput, sat_ite]
  constructor
  · intro hq
    simp only [sat_bind, sat_call, sat_check, current, sat_get, sat_pure, sat_orFail, update,
      sat_modify, implies_true, and_true]
    refine sat_of_forall (fun si t _ total htotal => ?_) fun _ _ => trivial
    have hsum := isAdd_addToTotal htotal
    exact { h with
      totalInput := by
        rw [List.filter_append, List.filter_cons_of_pos (by exact hq), List.map_append,
          List.sum_append, ← h.totalInput, hsum]
        simp }
  · intro hq
    refine (sat_pure _).2 { h with totalInput := ?_ }
    rw [List.filter_append, List.filter_cons_of_neg (by exact hq), List.filter_nil, List.append_nil]
    exact h.totalInput

theorem Contents.buildOutput {ins : List PsbtInput} {pre : List PsbtOutput} (po : PsbtOutput)
    {b : Build} (h : Contents env ins pre [] b.session) :
    Sat (buildOutput env po pre.length)
      (fun _ b' => Contents env ins (pre ++ [po]) [] b'.session)
      (fun _ _ => True) b := by
  rw [Mweb.buildOutput, sat_ite]
  constructor
  · intro hq
    simp only [sat_bind, sat_call]
    refine (sat_buildMwebOutput_builtFor po pre.length b.tape).mono ?_ (fun _ _ h => h)
    rintro so t ⟨hidx, hbuilt⟩
    simp only [sat_bind, sat_check, current, sat_get, sat_pure, sat_orFail, update,
      sat_modify, implies_true, and_true]
    intro _ total htotal
    have hsum := isAdd_addToTotal htotal
    exact { h with
      outputs := h.outputs.append_take hq (by rw [hidx, Nat.zero_add]) hbuilt
      totalOutput := by
        rw [List.map_append, List.sum_append, ← h.totalOutput, hsum]
        simp }
  · intro hq
    exact (sat_pure _).2 { h with outputs := h.outputs.append_skip (Bool.eq_false_iff.2 hq) }

theorem Contents.buildPegout {ins : List PsbtInput} {outs : List PsbtOutput}
    {pre : List (MapKey × Bytes)} (item : MapKey × Bytes) {b : Build}
    (h : Contents env ins outs pre b.session) :
    Sat (buildPegout env item.2)
      (fun _ b' => Contents env ins outs (pre ++ [item]) b'.session) (fun _ _ => True) b := by
  simp only [Mweb.buildPegout, sat_bind, sat_call, sat_orFail, sat_check, current, sat_get,
    sat_pure, update, sat_modify, implies_true, and_true]
  intro pegout hparse _ _ total htotal
  have hsum := isAdd_addToTotal htotal
  exact { h with
    pegouts := by
      rw [List.map_append, List.map_append, h.pegouts, List.map_singleton, List.map_singleton,
        hparse]
      rfl
    totalPegout := by
      rw [List.map_append, List.sum_append, ← h.totalPegout, hsum]
      simp }

/-! ### The kernel -/

/-- The balance is one of natural numbers: no side of it has wrapped. -/
theorem toNat_of_sessionBalanced {s : MwebSession} (h : sessionBalanced s = true) :
    s.totalInputValue.toNat + s.totalPegin.toNat =
      s.totalOutputValue.toNat + s.totalFee.toNat + s.totalPegout.toNat := by
  rw [sessionBalanced, Option.getD_eq_iff] at h
  rcases h with h | ⟨-, h⟩
  · simp only [Option.bind_eq_bind, Option.bind_eq_some_iff, Option.pure_def,
      Option.some.injEq, beq_iff_eq] at h
    obtain ⟨i, hi, o, ho, o', ho', rfl⟩ := h
    rw [← isAdd_atomicU64Add hi, isAdd_atomicU64Add ho', isAdd_atomicU64Add ho]
  · simp at h

/-- The signature is one on the message of the kernel, for some excess; the feature byte of the
message says what it contains. -/
def KernelSignature (env : Env P) (kernel : PsbtKernel) (signature : Bytes) : Prop :=
  ∃ features excess stealthExcess msg sigKey t t', featuresMatch features kernel = true ∧
    kernelMessage features excess kernel.fee kernel.peginAmount kernel.pegouts kernel.lockHeight
      stealthExcess kernel.extraData = some msg ∧
    (mwebSchnorrSign env.toSecp sigKey (env.blake3 msg)).run t = .ok (some signature) t'

/-- What the kernel adds to the entries: its own amounts, the plain balance, and its signature. -/
structure Closed (env : Env P) (kernel : PsbtKernel) (s : MwebSession) : Prop where
  fee : s.totalFee = kernel.fee.getD 0
  pegin : s.totalPegin = kernel.peginAmount.getD 0
  hasPegin : s.hasPegin = kernel.peginAmount.isSome
  balanced : sessionBalanced s = true
  signature : KernelSignature env kernel s.kernel.signature

/-- The signer of the kernel signs its message. -/
theorem sat_mwebSignKernel_signature (S : Secp P) (k : MwebKernelSignParams) (t : Tape) :
    Sat (mwebSignKernel S k)
      (fun out _ => ∃ excess stealthExcess msg sigKey t₁ t₂,
        kernelMessage k.features excess k.fee k.peginAmount k.pegouts k.lockHeight stealthExcess
          k.extraData = some msg ∧
        (mwebSchnorrSign S sigKey (S.blake3 msg)).run t₁ = .ok (some out.signature) t₂)
      (fun _ _ => True) t := by
  simp only [mwebSignKernel, sat_bind, sat_orFail, implies_true, and_true]
  refine sat_drawScalar 8 (fun r t₁ eK _ => ?_) t
  simp only [mwebSignKernelWithEk, sat_bind, sat_orFail, implies_true, and_true]
  refine sat_of_forall (fun _ t₂ => sat_of_forall (fun _ t₃ => ?_) fun _ _ => trivial)
    fun _ _ => trivial
  intro excessKG _ ekPk _
  cases (if hasBit k.features MWEB_KERNEL_STEALTH_EXCESS_BIT then k.stealthKeyOrNull else none) with
  | none =>
      simp only [pure_bind, sat_bind, sat_orFail, implies_true, and_true]
      intro kernelHash hhash sigKey _
      obtain ⟨msg, hmsg, rfl⟩ := Option.map_eq_some_iff.1 hhash
      refine (sat_self _ t₃).mono ?_ (fun _ _ _ => trivial)
      rintro _ t₄ hsign signature rfl
      refine sat_of_forall (fun txOffset t₅ => ?_) fun _ _ => trivial
      refine sat_of_forall (fun stealthOffset t₆ => ?_) fun _ _ => trivial
      exact (sat_pure _).2 ⟨excessKG, none, msg, sigKey, t₃, t₄, hmsg, hsign⟩
  | some key =>
      simp only [sat_bind, sat_orFail, sat_pure, implies_true, and_true]
      intro spk _ kernelHash hhash sigKey _
      obtain ⟨msg, hmsg, rfl⟩ := Option.map_eq_some_iff.1 hhash
      refine (sat_self _ t₃).mono ?_ (fun _ _ _ => trivial)
      rintro _ t₄ hsign signature rfl
      refine sat_of_forall (fun txOffset t₅ => ?_) fun _ _ => trivial
      refine sat_of_forall (fun stealthOffset t₆ => ?_) fun _ _ => trivial
      exact ⟨excessKG, some (S.ecPubkeySerialize spk), msg, sigKey, t₃, t₄, hmsg, hsign⟩

theorem Contents.buildKernel {p : Psbt} {kernel : PsbtKernel} (features : UInt8)
    (stealthKey : Option Bytes) (hmatch : featuresMatch features kernel = true) {se : Bool}
    {b : Build} (h : Contents env p.inputs p.outputs kernel.pegouts.items b.session)
    (ht : KernelTotals kernel se b.session) (hbal : sessionBalanced b.session = true) :
    Sat (buildKernel env kernel features stealthKey)
      (fun _ b' => Contents env p.inputs p.outputs kernel.pegouts.items b'.session ∧
        Closed env kernel b'.session) (fun _ _ => True) b := by
  simp only [Mweb.buildKernel, current, sat_bind, sat_get, sat_pure]
  refine (keeps_callocArray (I := fun s => s = b.session) _ b rfl).mono ?_ (fun _ _ _ => trivial)
  intro _ b₁ h₁
  refine (keeps_callocArray (I := fun s => s = b.session) _ b₁ h₁).mono ?_ (fun _ _ _ => trivial)
  intro _ b₂ h₂
  simp only [sat_call, sat_bind, sat_orFail, update, sat_modify, implies_true, and_true]
  refine sat_of_forall (fun _ t₃ received _ => ?_) fun _ _ => trivial
  refine sat_of_forall (fun _ t₄ receivedStealth _ => ?_) fun _ _ => trivial
  refine (sat_mwebSignKernel_signature env.toSecp _ t₄).mono ?_ (fun _ _ h => h)
  rintro ko t₅ ⟨excess, stealthExcess, msg, sigKey, t₁, t₂, hmsg, hsign⟩
  rw [h₂]
  refine ⟨h.frame (s := b.session) ⟨rfl, rfl, rfl, rfl, rfl, rfl, rfl⟩, ?_⟩
  -- the amounts handed to the signer are the kernel's own
  have hfee : kernel.fee.map (fun _ => b.session.totalFee) = kernel.fee := by
    rw [ht.fee]
    cases kernel.fee <;> rfl
  have hpegin : kernel.peginAmount.map (fun _ => b.session.totalPegin) = kernel.peginAmount := by
    rw [ht.pegin]
    cases kernel.peginAmount <;> rfl
  simp only [kernelParams, hfee, hpegin] at hmsg
  exact {
    fee := ht.fee
    pegin := ht.pegin
    hasPegin := ht.hasPegin
    balanced := hbal
    signature :=
      ⟨features, excess, stealthExcess, msg, sigKey, t₁, t₂, hmatch, hmsg, hsign⟩ }

/-- **A session that is open has its contents.** -/
theorem sat_mwebSessionBegin_contents (networkId : Network) (w : World) :
    Sat (mwebSessionBegin env networkId)
      (fun _ w' => networkIsLitecoin networkId = true ∧ w'.psbt = w.psbt ∧ ∃ kernel s,
        w.psbt.mwebKernels = [kernel] ∧ w'.session = some s ∧
          Contents env w.psbt.inputs w.psbt.outputs kernel.pegouts.items s ∧ Closed env kernel s)
      (fun _ _ => True) w := by
  refine sat_mwebSessionBegin_of (J := Contents env [] [] [])
    (R := fun p kernel s => Contents env p.inputs p.outputs kernel.pegouts.items s ∧
      Closed env kernel s) contents_create (fun s s' hsame h => h.frame hsame) ?_ networkId w
  intro p kernel b _ h
  exact sat_buildBody_of (I := Contents env)
    (Q := fun s => Contents env p.inputs p.outputs kernel.pegouts.items s ∧ Closed env kernel s)
    (fun _ _ _ _ _ hsame h => h.frame hsame) (fun _ inp _ _ h => h.buildInput inp)
    (fun _ po _ h => h.buildOutput po) (fun _ item _ h => h.buildPegout item)
    (fun features stealthKey _ _ hmatch _ h ht hbal =>
      h.buildKernel features stealthKey hmatch ht hbal) h

/-! ### The commit -/

theorem sat_commitOutputs (outputs : List SessionOutput) (w : World) :
    Sat (outputs.forM commitOutput)
      (fun _ w' => w'.psbt = { w.psbt with
        outputs := writeAll SessionOutput.psbtIndex writeOutput outputs w.psbt.outputs })
      (fun _ _ => True) w := by
  refine sat_forM (fun pre w' => w'.psbt = { w.psbt with
    outputs := writeAll SessionOutput.psbtIndex writeOutput pre w.psbt.outputs }) outputs ?_ w rfl
  intro pre so _ w' _ hw'
  simp only [commitOutput, sat_bind, sat_get, sat_check, sat_callW, writePsbt, sat_modify,
    implies_true, and_true]
  refine fun _ => sat_alloc fun ok t _ => ?_
  rw [writeAll_concat, hw']

theorem sat_commitInputs (inputs : List SessionInput) (w : World) :
    Sat (inputs.forM (commitInput env))
      (fun _ w' => ∃ signed : List (SessionInput × Bytes), signed.map Prod.fst = inputs ∧
        w'.psbt = { w.psbt with
          inputs := writeAll (fun si => si.1.psbtIndex) (fun si => writeInput si.1 si.2) signed
            w.psbt.inputs })
      (fun _ _ => True) w := by
  refine sat_forM (fun pre w' => ∃ signed : List (SessionInput × Bytes),
    signed.map Prod.fst = pre ∧ w'.psbt = { w.psbt with
      inputs := writeAll (fun si => si.1.psbtIndex) (fun si => writeInput si.1 si.2) signed
        w.psbt.inputs }) inputs ?_ w ⟨[], rfl, rfl⟩
  rintro pre si _ w' _ ⟨signed, hpre, hw'⟩
  simp only [commitInput, sat_bind, sat_get, sat_callW, sat_orFail, writePsbt, sat_modify,
    implies_true, and_true]
  intro inp _
  refine sat_of_forall (fun signature t => ?_) fun _ _ => trivial
  refine ⟨signed ++ [(si, signature)], by rw [List.map_append, hpre]; rfl, ?_⟩
  rw [writeAll_concat, hw']

/-- What a commit has written, and what it insisted on. -/
structure Written (s : MwebSession) (psbt psbt' : Psbt) : Prop where
  confirmed : ∀ pegout ∈ s.pegouts, pegout.confirmed = true
  outputs : psbt'.outputs = writeAll SessionOutput.psbtIndex writeOutput s.outputs psbt.outputs
  kernels : psbt'.mwebKernels = psbt.mwebKernels.modify s.kernelIndex (writeKernel s.kernel)

theorem sat_mwebSessionCommit_written (w : World) :
    Sat (mwebSessionCommit env)
      (fun _ w' => ∃ s, w.session = some s ∧ Written s w.psbt w'.psbt) (fun _ _ => True) w := by
  simp only [mwebSessionCommit, sat_bind, sat_get]
  cases w.session with
  | none => exact (sat_throw _).2 trivial
  | some s =>
      simp only [sat_bind, sat_tryCatch, sat_modify, sat_throw, commitBody, sat_check,
        implies_true, and_true]
      intro hconfirmed
      refine (sat_commitOutputs s.outputs w).mono ?_ (fun _ _ _ => trivial)
      intro _ w₁ hw₁
      refine (sat_commitInputs s.inputs w₁).mono ?_ (fun _ _ _ => trivial)
      rintro _ w₂ ⟨signed, -, hw₂⟩
      simp only [commitKernel, sat_bind, sat_get, sat_check, writePsbt, sat_modify, implies_true,
        and_true]
      intro _
      rw [hw₂, hw₁]
      exact ⟨s, rfl, List.all_eq_true.1 hconfirmed, rfl, rfl⟩

end Jade.Mweb
