/-
**The fields of an MWEB output and the message that is signed for them.**

An output goes out with a features byte, the standard section that lets its receiver recognise and
open it, and perhaps some extra data.  The same three go, as one message, into the extra commitment
of its range proof and under the signature of its sender key.  The features byte says which sections
the message has; the keyset of the PSBT says which fields the output has.  A commit always writes the
standard section, so that the two tell the same story just when the features byte has the bit for it.

The host may give the byte itself, and only its bit for the extra data is compared with what is there.

Main definitions:

* `Jade.Mweb.outputFeatures` — the features byte an output is built with;
* `Jade.Mweb.fieldsMessage` — the encoding of the fields an output of a PSBT has;
* `Jade.Mweb.SelfConsistent` — the receiver finds what has been signed;
* `Jade.Mweb.hostKeepsStandard` — the host leaves the bit of the standard section alone;
* `Jade.Mweb.SignedFor` — what the build knows of an output it has signed.

Main results:

* `Jade.Mweb.sat_mwebSessionBegin_signed` — all outputs of an open session are signed;
* `Jade.Mweb.committed_selfConsistent_iff` — **exactly when a committed output is consistent**.
-/

import Jade.Mweb.Balance

set_option relaxedAutoImplicit false
set_option autoImplicit false

namespace Jade.Mweb

open Exec

/-! ### The fields of an output -/

/-- The features byte of `build_mweb_output`: the host's, or the standard one. -/
def outputFeatures (po : PsbtOutput) : UInt8 :=
  if mwebOutHas po.mwebOutputKeyset MWEB_OUT_FEATURES_KEY then po.mwebFeatures
  else MWEB_OUTPUT_STANDARD_FIELDS_BIT

/-- The host gave no features, or features with the bit of the standard section. -/
def hostKeepsStandard (po : PsbtOutput) : Bool :=
  !mwebOutHas po.mwebOutputKeyset MWEB_OUT_FEATURES_KEY ||
    hasBit po.mwebFeatures MWEB_OUTPUT_STANDARD_FIELDS_BIT

theorem hasBit_outputFeatures (po : PsbtOutput) :
    hasBit (outputFeatures po) MWEB_OUTPUT_STANDARD_FIELDS_BIT = hostKeepsStandard po := by
  rw [outputFeatures, hostKeepsStandard]
  cases mwebOutHas po.mwebOutputKeyset MWEB_OUT_FEATURES_KEY with
  | false =>
      have hstandard : hasBit MWEB_OUTPUT_STANDARD_FIELDS_BIT MWEB_OUTPUT_STANDARD_FIELDS_BIT =
          true := by decide
      exact hstandard
  | true => rfl

/-- The encoding of the fields an output of a PSBT has: the features byte, then each section that
its keyset says is there. -/
def fieldsMessage (po : PsbtOutput) : Bytes :=
  po.mwebFeatures ::
    (if mwebOutHas po.mwebOutputKeyset MWEB_OUT_STANDARD_FIELDS_KEY then po.mwebStandardFields
    else []) ++
    (if mwebOutHas po.mwebOutputKeyset MWEB_OUT_EXTRA_DATA_KEY then
      mwebWriteCompactSize (UInt64.ofNat po.mwebExtraData.length) ++ po.mwebExtraData
    else [])

variable {P : Type} {env : Env P}

/-- **An output its receiver can find and spend**: its features have the bit of the standard section,
its extra data is there just when the features say so, and what was hashed into the range proof of its
commitment and under its signature is the encoding of its fields. -/
structure SelfConsistent (env : Env P) (po : PsbtOutput) : Prop where
  standard : hasBit po.mwebFeatures MWEB_OUTPUT_STANDARD_FIELDS_BIT = true
  extraData : mwebOutHas po.mwebOutputKeyset MWEB_OUT_EXTRA_DATA_KEY =
    hasBit po.mwebFeatures MWEB_OUTPUT_EXTRA_DATA_BIT
  rangeProof : ∃ value blind t t', po.amount = some value ∧
    mwebPedersenCommit env.toSecp blind value = some po.mwebCommit ∧
    (mwebBuildRangeproof env.toSecp value blind (fieldsMessage po)).run t =
      .ok po.mwebRangeProof t'
  signature : ∃ senderKey t t',
    (env.ecPubkeyCreate senderKey).map env.ecPubkeySerialize = some po.mwebSenderPubkey ∧
    (mwebSignOutput env.toSecp senderKey po.mwebCommit po.mwebSenderPubkey po.mwebOutputPubkey
      (env.blake3 (fieldsMessage po)) (env.blake3 po.mwebRangeProof)).run t =
      .ok po.mwebSignature t'

/-! ### Building an output -/

/-- What the build knows of an output it has signed: the features it was built with, and that writing
it makes the PSBT output consistent if these have the standard bit. -/
structure SignedFor (env : Env P) (po : PsbtOutput) (so : SessionOutput) : Prop where
  features : so.features = outputFeatures po
  consistent : hostKeepsStandard po = true → SelfConsistent env (writeOutput so po)

theorem sat_deriveOutputBinding_opens (S : Secp P) (senderKey scanPubA spendPubB : Bytes)
    (value : UInt64) (t : Tape) :
    Sat (deriveOutputBinding S senderKey scanPubA spendPubB value)
      (fun d _ => mwebPedersenCommit S d.blind value = some d.commit ∧
        (S.ecPubkeyCreate senderKey).map S.ecPubkeySerialize = some d.senderPubkey)
      (fun _ _ => True) t := by
  simp only [deriveOutputBinding, sat_bind, sat_orFail, sat_pure, implies_true, and_true]
  intro _ _ _ _ _ _
  refine sat_of_forall (fun r t' blind _ commit hcommit Ks hKs => ?_) fun _ _ => trivial
  exact ⟨hcommit, by rw [hKs]; rfl⟩

/-- What `mweb_build_output` hashes is the message of its features, its standard section and the extra
data it was given. -/
theorem sat_mwebBuildOutput_message (S : Secp P) (senderKey scanPubA spendPubB : Bytes)
    (value : UInt64) (features : UInt8) (extraData : Bytes) (t : Tape) :
    Sat (mwebBuildOutput S senderKey scanPubA spendPubB value features extraData)
      (fun b _ => mwebPedersenCommit S b.blind value = some b.commit ∧
        (S.ecPubkeyCreate senderKey).map S.ecPubkeySerialize = some b.senderPubkey ∧
        (∃ t₁ t₂, (mwebBuildRangeproof S value b.blind
          (serializeOutputMessage features b.toMwebDerivedOutput extraData)).run t₁ =
            .ok b.rangeProof t₂) ∧
        ∃ t₁ t₂, (mwebSignOutput S senderKey b.commit b.senderPubkey b.outputPubkey
          (S.blake3 (serializeOutputMessage features b.toMwebDerivedOutput extraData))
          (S.blake3 b.rangeProof)).run t₁ = .ok b.signature t₂)
      (fun _ _ => True) t := by
  simp only [mwebBuildOutput, sat_bind, sat_check, implies_true, and_true]
  intro _ _ _
  refine (sat_deriveOutputBinding_opens S senderKey scanPubA spendPubB value t).mono ?_
    (fun _ _ h => h)
  rintro d t₁ ⟨hcommit, hsender⟩
  refine (sat_self _ t₁).mono ?_ (fun _ _ _ => trivial)
  intro rangeProof t₂ hproof
  refine (sat_self _ t₂).mono ?_ (fun _ _ _ => trivial)
  intro signature t₃ hsign
  exact (sat_pure _).2 ⟨hcommit, hsender, ⟨t₁, t₂, hproof⟩, t₂, t₃, hsign⟩

theorem serializeOutputMessage_eq (features : UInt8) (d : MwebDerivedOutput) (extraData : Bytes) :
    serializeOutputMessage features d extraData = features ::
      (if hasBit features MWEB_OUTPUT_STANDARD_FIELDS_BIT then
        d.keyExchangePubkey ++ [d.viewTag] ++ Bytes.ofNatLE 8 d.maskedValue.toNat ++ d.maskedNonce
      else []) ++
      (if hasBit features MWEB_OUTPUT_EXTRA_DATA_BIT then
        mwebWriteCompactSize (UInt64.ofNat extraData.length) ++ extraData
      else []) := rfl

/-- The extra data that is handed on is there just when the features say so. -/
theorem outputExtraData_eq_some {po : PsbtOutput} {features : UInt8} {extraData : Bytes}
    (h : outputExtraData po features = some extraData) :
    mwebOutHas po.mwebOutputKeyset MWEB_OUT_EXTRA_DATA_KEY =
        hasBit features MWEB_OUTPUT_EXTRA_DATA_BIT ∧
      (hasBit features MWEB_OUTPUT_EXTRA_DATA_BIT = true → extraData = po.mwebExtraData) := by
  rw [outputExtraData] at h
  cases hkey : mwebOutHas po.mwebOutputKeyset MWEB_OUT_EXTRA_DATA_KEY with
  | true =>
      rw [hkey, if_pos rfl, Option.ite_none_left_eq_some] at h
      obtain ⟨hbit, hdata⟩ := h
      simp only [Bool.or_eq_true, Bool.not_eq_true', not_or, Bool.not_eq_false] at hbit
      exact ⟨hbit.1.symm, fun _ => (Option.some.inj hdata).symm⟩
  | false =>
      rw [hkey, if_neg Bool.false_ne_true, Option.ite_none_left_eq_some] at h
      obtain ⟨hbit, -⟩ := h
      exact ⟨(Bool.eq_false_iff.2 hbit).symm, fun htrue => absurd htrue hbit⟩

/-- The keyset of a committed output: the standard section is there, and the extra data if it was. -/
theorem mwebOutHas_committed (keyset : UInt16) :
    mwebOutHas (keyset ||| committedOutputBits) MWEB_OUT_STANDARD_FIELDS_KEY = true ∧
      mwebOutHas (keyset ||| committedOutputBits) MWEB_OUT_EXTRA_DATA_KEY =
        mwebOutHas keyset MWEB_OUT_EXTRA_DATA_KEY :=
  ⟨mwebOutHas_or_of_mem (by decide), mwebOutHas_or_of_disjoint (by decide)⟩

/-- **Building an output signs its fields**, if its features have the bit of the standard section. -/
theorem sat_buildMwebOutput_signed (po : PsbtOutput) (i : ℕ) (t : Tape) :
    Sat (buildMwebOutput env po i) (fun so _ => so.psbtIndex = i ∧ SignedFor env po so)
      (fun _ _ => True) t := by
  simp only [buildMwebOutput, sat_bind, sat_check, sat_orFail, sat_tryCatch, sat_throw, sat_pure,
    implies_true, and_true]
  intro value hvalue _ extraData hextra
  obtain ⟨hkey, hdata⟩ := outputExtraData_eq_some hextra
  refine sat_drawScalar 8 (fun r t₁ senderKey _ => ?_) t
  refine (sat_mwebBuildOutput_message env.toSecp _ _ _ _ _ _ t₁).mono ?_ (fun _ _ _ => trivial)
  rintro b t₂ ⟨hcommit, hsender, ⟨t₃, t₄, hproof⟩, t₅, t₆, hsign⟩
  refine ⟨trivial, rfl, fun hstandard => ?_⟩
  rw [← hasBit_outputFeatures] at hstandard
  obtain ⟨hfields, hsame⟩ := mwebOutHas_committed po.mwebOutputKeyset
  -- the sections of the message are the fields that are written
  have hmessage : ∀ so : SessionOutput, so.features = outputFeatures po →
      so.standardFields = b.keyExchangePubkey ++ [b.viewTag] ++
        Bytes.ofNatLE 8 b.maskedValue.toNat ++ b.maskedNonce →
      fieldsMessage (writeOutput so po) =
        serializeOutputMessage (outputFeatures po) b.toMwebDerivedOutput extraData := by
    intro so hfeatures hstd
    simp only [fieldsMessage, writeOutput, hfields, hsame, hfeatures, hstd, if_true]
    rw [serializeOutputMessage_eq, if_pos hstandard]
    cases hbit : hasBit (outputFeatures po) MWEB_OUTPUT_EXTRA_DATA_BIT with
    | true =>
        rw [hkey.trans hbit, if_pos rfl, if_pos rfl, hdata hbit]
    | false =>
        rw [hkey.trans hbit, if_neg Bool.false_ne_true, if_neg Bool.false_ne_true]
  exact {
    standard := hstandard
    extraData := hsame.trans hkey
    rangeProof := ⟨value, b.blind, t₃, t₄, hvalue, hcommit, by rw [hmessage _ rfl rfl]; exact hproof⟩
    signature := ⟨senderKey, t₅, t₆, hsender, by rw [hmessage _ rfl rfl]; exact hsign⟩ }

/-! ### The session -/

/-- Every MWEB output of `outs` has its entry in the session, and is signed there. -/
def OutputsSigned (env : Env P) (outs : List PsbtOutput) (s : MwebSession) : Prop :=
  Slots SessionOutput.psbtIndex isMwebOutput (SignedFor env) 0 outs s.outputs

theorem OutputsSigned.buildOutput {pre : List PsbtOutput} (po : PsbtOutput) {b : Build}
    (h : OutputsSigned env pre b.session) :
    Sat (buildOutput env po pre.length) (fun _ b' => OutputsSigned env (pre ++ [po]) b'.session)
      (fun _ _ => True) b := by
  rw [Mweb.buildOutput, sat_ite]
  constructor
  · intro hq
    simp only [sat_bind, sat_call]
    refine (sat_buildMwebOutput_signed po pre.length b.tape).mono ?_ (fun _ _ h => h)
    rintro so t ⟨hidx, hsigned⟩
    simp only [sat_bind, sat_check, current, sat_get, sat_pure, sat_orFail, update, sat_modify,
      implies_true, and_true]
    intro _ total _
    exact Slots.append_take h hq (by rw [hidx, Nat.zero_add]) hsigned
  · intro hq
    exact (sat_pure _).2 (Slots.append_skip h (Bool.eq_false_iff.2 hq))

/-- **All outputs of an open session are signed.** -/
theorem sat_mwebSessionBegin_signed (networkId : Network) (w : World) :
    Sat (mwebSessionBegin env networkId)
      (fun _ w' => w'.psbt = w.psbt ∧
        ∃ s, w'.session = some s ∧ OutputsSigned env w.psbt.outputs s)
      (fun _ _ => True) w := by
  refine (sat_mwebSessionBegin_of (J := OutputsSigned env []) (R := fun p _ => OutputsSigned env p.outputs)
    (fun _ _ => Slots.nil) ?_ ?_ networkId w).mono ?_ (fun _ _ h => h)
  · intro s s' hsame h
    rw [OutputsSigned, hsame.outputs]
    exact h
  · intro p kernel b _ h
    refine sat_buildBody_of (I := fun _ outs _ => OutputsSigned env outs)
      (Q := OutputsSigned env p.outputs) ?_ ?_ ?_ ?_ ?_ h
    · intro _ _ _ s s' hsame hs
      rw [OutputsSigned, hsame.outputs]
      exact hs
    · intro pre inp b _ hb
      exact (keeps_buildInput_of env inp pre.length (fun _ _ _ h => h) b hb).mono (fun _ _ h => h)
        fun _ _ _ => trivial
    · intro pre po b hb
      exact hb.buildOutput po
    · intro pre item b hb
      exact (keeps_buildPegout_of env item.2 (fun _ _ _ h => h) b hb).mono (fun _ _ h => h)
        fun _ _ _ => trivial
    · intro features stealthKey b _ _ _ hb _ _
      exact (keeps_buildKernel_of env kernel features stealthKey (fun _ _ _ _ _ _ h => h) b hb).mono
        (fun _ _ h => h) fun _ _ _ => trivial
  · rintro _ w' ⟨-, hpsbt, -, s, -, hs, hsigned⟩
    exact ⟨hpsbt, s, hs, hsigned⟩

/-- The session is open and its outputs are signed; the PSBT has the outputs it had. -/
def AwaitsCommit (env : Env P) (outs : List PsbtOutput) (w : World) : Prop :=
  w.psbt.outputs = outs ∧ ∃ s, w.session = some s ∧ OutputsSigned env outs s

/-- Signing a standard input and confirming a pegout touch no output. -/
theorem AwaitsCommit.step {outs : List PsbtOutput} {w : World} (h : AwaitsCommit env outs w)
    (st : SessionStep) : AwaitsCommit env outs (st.run w) := by
  obtain ⟨houts, s, hs, hsigned⟩ := h
  cases st with
  | signInput index a b c flags =>
      exact ⟨houts, s, by simp [SessionStep.run, SessionStep.onSession, hs], hsigned⟩
  | confirmPegout idx =>
      exact ⟨houts, mwebSessionMarkPegoutConfirmed idx s,
        by simp [SessionStep.run, SessionStep.onSession, hs], hsigned⟩

theorem AwaitsCommit.run {outs : List PsbtOutput} {w : World} (h : AwaitsCommit env outs w)
    (steps : List SessionStep) : AwaitsCommit env outs (steps.foldl SessionStep.run w) := by
  induction steps generalizing w with
  | nil => exact h
  | cons st steps ih => exact ih (h.step st)

/-- A commit that succeeds has written every MWEB output as it was signed. -/
theorem sat_mwebSessionCommit_signed {outs : List PsbtOutput} {w : World}
    (h : AwaitsCommit env outs w) {i : ℕ} {po : PsbtOutput} (hi : outs[i]? = some po)
    (hmweb : isMwebOutput po = true) :
    Sat (mwebSessionCommit env)
      (fun _ w' => ∃ so, SignedFor env po so ∧ w'.psbt.outputs[i]? = some (writeOutput so po))
      (fun _ _ => True) w := by
  obtain ⟨houts, s, hs, hsigned⟩ := h
  refine (sat_mwebSessionCommit_written w).mono ?_ (fun _ _ h => h)
  rintro _ w' ⟨s', hs', hwritten⟩
  obtain rfl : s = s' := Option.some.inj (hs.symm.trans hs')
  obtain ⟨so, hfind, hso⟩ := Slots.exists_of_getElem? hsigned hi hmweb
  rw [Nat.zero_add] at hfind
  refine ⟨so, hso, ?_⟩
  rw [hwritten.outputs, houts]
  exact getElem?_writeAll_of_find hsigned.nodup_idx hfind hi

/-- **What is in the PSBT at the end**: whatever happens in between, an MWEB output is written as it was
signed when the session was opened. -/
theorem committed_signed {networkId : Network} {w w₁ w₂ : World}
    (hbegin : (mwebSessionBegin env networkId).run w = .ok () w₁) (steps : List SessionStep)
    (hcommit : (mwebSessionCommit env).run (steps.foldl SessionStep.run w₁) = .ok () w₂)
    {i : ℕ} {po : PsbtOutput} (hi : w.psbt.outputs[i]? = some po) (hmweb : isMwebOutput po = true) :
    ∃ so, SignedFor env po so ∧ w₂.psbt.outputs[i]? = some (writeOutput so po) := by
  obtain ⟨hpsbt, s, hs, hsigned⟩ := (sat_mwebSessionBegin_signed networkId w).ok hbegin
  have hawaits : AwaitsCommit env w.psbt.outputs (steps.foldl SessionStep.run w₁) :=
    AwaitsCommit.run ⟨by rw [hpsbt], s, hs, hsigned⟩ steps
  exact (sat_mwebSessionCommit_signed hawaits hi hmweb).ok hcommit

/-! ### A transfer with features of the host's -/

/-- The transfer, with the features byte `features` from the host. -/
def featuresWorld (features : UInt8) : World :=
  { transferWorld with
    psbt := { transferPsbt with
      outputs := transferPsbt.outputs.map fun po =>
        { po with
          mwebOutputKeyset := po.mwebOutputKeyset ||| mwebOutBit MWEB_OUT_FEATURES_KEY
          mwebFeatures := features } } }

theorem run_featuresWorld_zero : ∃ w₁ w₂,
    (mwebSessionBegin pairEnv .litecoin).run (featuresWorld 0) = .ok () w₁ ∧
      (mwebSessionCommit pairEnv).run w₁ = .ok () w₂ := by
  have hok : (match (mwebSessionBegin pairEnv .litecoin).run (featuresWorld 0) with
      | .ok _ w₁ => match (mwebSessionCommit pairEnv).run w₁ with
        | .ok _ _ => true
        | .error _ _ => false
      | .error _ _ => false) = true := by decide +kernel
  cases hbegin : (mwebSessionBegin pairEnv .litecoin).run (featuresWorld 0) with
  | error e w₁ => simp [hbegin] at hok
  | ok _ w₁ =>
      cases hcommit : (mwebSessionCommit pairEnv).run w₁ with
      | error e w₂ => simp [hbegin, hcommit] at hok
      | ok _ w₂ => exact ⟨w₁, w₂, rfl, hcommit⟩

/-! ### The result -/

/-- **Exactly when a committed output is consistent.**  Whatever happens between opening a session and
committing it, an MWEB output of the PSBT comes out with features that have the bit of the standard
section, with a range proof and a signature on the encoding of the fields it has, and with extra data
just when its features say so, if and only if the host left the features alone or gave some with that
bit. -/
theorem committed_selfConsistent_iff {networkId : Network} {w w₁ w₂ : World}
    (hbegin : (mwebSessionBegin env networkId).run w = .ok () w₁) (steps : List SessionStep)
    (hcommit : (mwebSessionCommit env).run (steps.foldl SessionStep.run w₁) = .ok () w₂)
    {i : ℕ} {po : PsbtOutput} (hi : w.psbt.outputs[i]? = some po) (hmweb : isMwebOutput po = true) :
    ∃ po', w₂.psbt.outputs[i]? = some po' ∧
      (SelfConsistent env po' ↔ hostKeepsStandard po = true) := by
  obtain ⟨so, hso, hwritten⟩ := committed_signed hbegin _ hcommit hi hmweb
  refine ⟨writeOutput so po, hwritten, ?_, hso.consistent⟩
  intro hconsistent
  rw [← hasBit_outputFeatures, ← hso.features]
  exact hconsistent.standard

theorem committed_selfConsistent_transfer : ∃ w₁ w₂ po',
    (mwebSessionBegin pairEnv .litecoin).run transferWorld = .ok () w₁ ∧
      (mwebSessionCommit pairEnv).run w₁ = .ok () w₂ ∧ w₂.psbt.outputs[0]? = some po' ∧
        SelfConsistent pairEnv po' := by
  obtain ⟨w₁, w₂, hbegin, hcommit⟩ := run_transfer
  obtain ⟨po', hpo', hiff⟩ := committed_selfConsistent_iff (i := 0) hbegin [] hcommit rfl (by decide)
  exact ⟨w₁, w₂, po', hbegin, hcommit, hpo', hiff.2 (by decide)⟩

/-- **A features byte of 0 goes through**: the output is committed, and its standard section is under
no signature. -/
theorem committed_without_standard_bit : ∃ w₁ w₂ po',
    (mwebSessionBegin pairEnv .litecoin).run (featuresWorld 0) = .ok () w₁ ∧
      (mwebSessionCommit pairEnv).run w₁ = .ok () w₂ ∧ w₂.psbt.outputs[0]? = some po' ∧
        ¬SelfConsistent pairEnv po' := by
  obtain ⟨w₁, w₂, hbegin, hcommit⟩ := run_featuresWorld_zero
  obtain ⟨so, hso, hwritten⟩ :=
    committed_signed hbegin [] hcommit (i := 0) rfl (by decide)
  refine ⟨w₁, w₂, _, hbegin, hcommit, hwritten, fun hconsistent => ?_⟩
  have hzero : so.features = 0 := hso.features
  have hbit : hasBit so.features MWEB_OUTPUT_STANDARD_FIELDS_BIT = true := hconsistent.standard
  rw [hzero] at hbit
  exact absurd hbit (by decide)

end Jade.Mweb
