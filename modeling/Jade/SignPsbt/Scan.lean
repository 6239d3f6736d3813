/-
**What the loop over the inputs finds out.**

Before anything is shown the device goes through the inputs once.  It adds up the amounts it is told,
in 64 bits, and notes for each input that has a key of the wallet how it is to be signed.  Both can be
read off the PSBT: the sums are sums modulo `2 ^ 64`, and an input is signed exactly when it is an
ordinary one and the search for a key of the wallet finds one.

Main definitions:

* `Jade.RecordTurn` — what a signed input does to the search for the record of all of them;
* `Jade.stdAmount`, `Jade.knownMwebAmount` — the amounts that are added up;
* `Jade.scannedSigType` — how an input is to be signed;
* `Jade.Scanned` — what is known after some inputs;
* `Jade.signsWith` — how an input is signed.

Main results:

* `Jade.scanned_scanInputs` — what is known after all of them;
* `Jade.mem_signatures_iff` — the signatures made are those of the inputs with keys of the wallet.
-/

import Jade.SignPsbt.Run

set_option relaxedAutoImplicit false
set_option autoImplicit false

namespace Jade

open Exec Mweb

variable {K P : Type} (D : Device K P)

/-! ### The record of the signed inputs -/

/-- Looking up a signed input: the multisig records are tried before the descriptors, which Liquid does
not have. -/
def lookUpRecord (network : Network) (forLiquid : Bool) (iter : KeyIter K) (path : List UInt32)
    (script : Bytes) : Except Fault (Option SuitableRecord) := do
  let found ← getSuitableMultisigRecord D.wallet D.records network iter path script
  if found.isNone && !forLiquid then
    getSuitableDescriptorRecord D.wallet D.records network iter path script
  else pure found

/-- What a signed input does to the search for the record. -/
inductive RecordTurn (network : Network) (forLiquid : Bool) (flags : SigningFlags)
    (record : Option SuitableRecord) (iter : KeyIter K) (script : Bytes) :
    SigningFlags → Option SuitableRecord → Prop
  | abandoned (habandoned : flags.multisigChangeAbandoned = true) :
      RecordTurn network forLiquid flags record iter script flags record
  | otherKind (hgoing : flags.multisigChangeAbandoned = false)
      (hkind : (flags.singlesig || flags.greenMultisig) = true) :
      RecordTurn network forLiquid flags record iter script
        { flags with multisigChangeAbandoned := true } record
  | noPath (hgoing : flags.multisigChangeAbandoned = false)
      (hkind : (flags.singlesig || flags.greenMultisig) = false)
      (hpath : iter.getPath MAX_PATH_LEN = none) :
      RecordTurn network forLiquid flags record iter script flags record
  | tested (path : List UInt32) (r : SuitableRecord) (answer : Bool)
      (hgoing : flags.multisigChangeAbandoned = false)
      (hkind : (flags.singlesig || flags.greenMultisig) = false)
      (hpath : iter.getPath MAX_PATH_LEN = some path)
      (hsingle : flags.singleMultisigRecord = true) (hrecord : record = some r)
      (hanswer : r.verifies D.wallet D.records network iter path script = .ok answer) :
      RecordTurn network forLiquid flags record iter script
        { flags with multisigChangeAbandoned := !answer } (some r)
  | lookedUp (path : List UInt32) (found : Option SuitableRecord)
      (hgoing : flags.multisigChangeAbandoned = false)
      (hkind : (flags.singlesig || flags.greenMultisig) = false)
      (hpath : iter.getPath MAX_PATH_LEN = some path)
      (hsingle : flags.singleMultisigRecord = false)
      (hfound : lookUpRecord D network forLiquid iter path script = .ok found) :
      RecordTurn network forLiquid flags record iter script
        { flags with
          singleMultisigRecord := found.isSome
          multisigChangeAbandoned := found.isNone } found

/-- A record was found before: it is tested. -/
theorem scanInputRecord_test {network : Network} {forLiquid : Bool} {flags : SigningFlags}
    {r : SuitableRecord} {iter : KeyIter K} {path : List UInt32} {script : Bytes}
    (hgoing : flags.multisigChangeAbandoned = false)
    (hkind : (flags.singlesig || flags.greenMultisig) = false)
    (hpath : iter.getPath MAX_PATH_LEN = some path) (hsingle : flags.singleMultisigRecord = true) :
    scanInputRecord D network forLiquid flags (some r) iter script =
      r.verifies D.wallet D.records network iter path script >>= fun answer =>
        pure ({ flags with multisigChangeAbandoned := !answer }, some r) := by
  rw [scanInputRecord, if_neg (by simp [hgoing]), if_neg (by simp [hkind]), hpath]
  dsimp only
  rw [if_pos hsingle]
  refine bind_congr fun answer => ?_
  cases answer with
  | true => simp [← hgoing]
  | false => rfl

/-- None was found before: one is looked for. -/
theorem scanInputRecord_lookUp {network : Network} {forLiquid : Bool} {flags : SigningFlags}
    {record : Option SuitableRecord} {iter : KeyIter K} {path : List UInt32} {script : Bytes}
    (hgoing : flags.multisigChangeAbandoned = false)
    (hkind : (flags.singlesig || flags.greenMultisig) = false)
    (hpath : iter.getPath MAX_PATH_LEN = some path) (hsingle : flags.singleMultisigRecord = false) :
    scanInputRecord D network forLiquid flags record iter script =
      lookUpRecord D network forLiquid iter path script >>= fun found =>
        pure ({ flags with
          singleMultisigRecord := found.isSome
          multisigChangeAbandoned := found.isNone }, found) := by
  rw [scanInputRecord, if_neg (by simp [hgoing]), if_neg (by simp [hkind]), hpath]
  dsimp only
  rw [if_neg (by simp [hsingle]), lookUpRecord, bind_assoc]
  have hend : ∀ found : Option SuitableRecord,
      (if found.isSome then pure ({ flags with singleMultisigRecord := true }, found)
        else pure ({ flags with multisigChangeAbandoned := true }, none) :
        Except Fault (SigningFlags × Option SuitableRecord)) =
      pure ({ flags with
        singleMultisigRecord := found.isSome
        multisigChangeAbandoned := found.isNone }, found) := by
    intro found
    cases found with
    | some r => simp [← hgoing]
    | none => simp [← hsingle]
  refine bind_congr fun found₀ => ?_
  split
  · exact bind_congr hend
  · exact bind_congr hend

theorem scanInputRecord_iff {network : Network} {forLiquid : Bool} {flags flags' : SigningFlags}
    {record record' : Option SuitableRecord} {iter : KeyIter K} {script : Bytes} :
    scanInputRecord D network forLiquid flags record iter script = .ok (flags', record') ↔
      RecordTurn D network forLiquid flags record iter script flags' record' := by
  constructor
  · intro h
    cases hgoing : flags.multisigChangeAbandoned with
    | true =>
        rw [scanInputRecord, if_pos hgoing] at h
        obtain ⟨rfl, rfl⟩ := Prod.mk.inj (Except.ok.inj h)
        exact .abandoned hgoing
    | false =>
        cases hkind : flags.singlesig || flags.greenMultisig with
        | true =>
            rw [scanInputRecord, if_neg (by simp [hgoing]), if_pos hkind] at h
            obtain ⟨rfl, rfl⟩ := Prod.mk.inj (Except.ok.inj h)
            exact .otherKind hgoing hkind
        | false =>
            cases hpath : iter.getPath MAX_PATH_LEN with
            | none =>
                rw [scanInputRecord, if_neg (by simp [hgoing]), if_neg (by simp [hkind]),
                  hpath] at h
                obtain ⟨rfl, rfl⟩ := Prod.mk.inj (Except.ok.inj h)
                exact .noPath hgoing hkind hpath
            | some path =>
                cases hsingle : flags.singleMultisigRecord with
                | true =>
                    cases record with
                    | none =>
                        rw [scanInputRecord, if_neg (by simp [hgoing]), if_neg (by simp [hkind]),
                          hpath] at h
                        dsimp only at h
                        rw [if_pos hsingle] at h
                        cases h
                    | some r =>
                        rw [scanInputRecord_test D hgoing hkind hpath hsingle] at h
                        obtain ⟨answer, hanswer, h⟩ := bind_eq_ok.1 h
                        obtain ⟨rfl, rfl⟩ := Prod.mk.inj (Except.ok.inj h)
                        exact .tested path r answer hgoing hkind hpath hsingle rfl hanswer
                | false =>
                    rw [scanInputRecord_lookUp D hgoing hkind hpath hsingle] at h
                    obtain ⟨found, hfound, h⟩ := bind_eq_ok.1 h
                    obtain ⟨rfl, rfl⟩ := Prod.mk.inj (Except.ok.inj h)
                    exact .lookedUp path found hgoing hkind hpath hsingle hfound
  · intro h
    cases h with
    | abandoned habandoned => rw [scanInputRecord, if_pos habandoned]
    | otherKind hgoing hkind =>
        rw [scanInputRecord, if_neg (by simp [hgoing]), if_pos hkind]
    | noPath hgoing hkind hpath =>
        rw [scanInputRecord, if_neg (by simp [hgoing]), if_neg (by simp [hkind]), hpath]
    | tested path r answer hgoing hkind hpath hsingle hrecord hanswer =>
        rw [hrecord, scanInputRecord_test D hgoing hkind hpath hsingle]
        exact bind_eq_ok.2 ⟨answer, hanswer, rfl⟩
    | lookedUp path found hgoing hkind hpath hsingle hfound =>
        rw [scanInputRecord_lookUp D hgoing hkind hpath hsingle]
        exact bind_eq_ok.2 ⟨record', hfound, rfl⟩

/-! ### The loop -/

/-- The amount of an input that spends an output of the transparent chain. -/
def stdAmount (input : PsbtInput) : ℕ :=
  ((input.bestUtxo.map TxOutput.satoshi).getD 0).toNat

/-- The amount of an MWEB input, as far as it is known. -/
def knownMwebAmount (input : PsbtInput) : ℕ :=
  if mwebInHas input.mwebKeyset MWEB_IN_INPUT_AMOUNT then input.mwebInputAmount.toNat else 0

/-- How an input is to be signed, if it has a key of the wallet. -/
def scannedSigType (psbt : Psbt) (input : PsbtInput) (i : ℕ) : Option SigType :=
  if isMwebInput input then none
  else
    match keyIterBeginPublic D.wallet (inputKeySource input) with
    | .ok (some _) => D.getInputSignatureType psbt i
    | _ => none

/-- The ordinary inputs. -/
def stdInputs (inputs : List PsbtInput) : List PsbtInput :=
  inputs.filter fun input => !isMwebInput input

/-- **What is known after the inputs `pre`.** -/
structure Scanned (psbt : Psbt) (pre : List PsbtInput) (scan : InputScan) : Prop where
  sigTypes : scan.sigTypes = pre.zipIdx.map fun (input, i) => scannedSigType D psbt input i
  utxos : ∀ input ∈ pre, isMwebInput input = false → input.bestUtxo.isSome = true
  inputAmount : scan.inputAmount.toNat = ((stdInputs pre).map stdAmount).sum % 2 ^ 64
  mwebInputAmount : scan.mwebInputAmount.toNat =
    ((pre.filter isMwebInput).map knownMwebAmount).sum % 2 ^ 64
  complete : scan.mwebAmountsIncomplete = false → ∀ input ∈ pre, isMwebInput input = true →
    mwebInHas input.mwebKeyset MWEB_IN_INPUT_AMOUNT = true

theorem scanned_nil (psbt : Psbt) (inSums : List AssetSummary) :
    Scanned D psbt [] { inSums } where
  sigTypes := rfl
  utxos := by simp
  inputAmount := rfl
  mwebInputAmount := rfl
  complete := by simp

theorem stdInputs_append_mweb {pre : List PsbtInput} {input : PsbtInput}
    (h : isMwebInput input = true) : stdInputs (pre ++ [input]) = stdInputs pre := by
  simp [stdInputs, List.filter_append, h]

theorem stdInputs_append_std {pre : List PsbtInput} {input : PsbtInput}
    (h : isMwebInput input = false) : stdInputs (pre ++ [input]) = stdInputs pre ++ [input] := by
  simp [stdInputs, List.filter_append, h]

/-- The part of the scan that an MWEB input leaves as it is. -/
theorem scanMwebInput_eq_ok {scan scan' : InputScan} {input : PsbtInput}
    (h : scanMwebInput D scan input = .ok scan') :
    scan'.sigTypes = scan.sigTypes ++ [none] ∧ scan'.inputAmount = scan.inputAmount ∧
      scan'.mwebInputAmount = (scan.addMwebAmount input).mwebInputAmount ∧
      scan'.mwebAmountsIncomplete = (scan.addMwebAmount input).mwebAmountsIncomplete := by
  have hadd : (scan.addMwebAmount input).inputAmount = scan.inputAmount := by
    rw [InputScan.addMwebAmount]
    split <;> rfl
  simp only [scanMwebInput] at h
  split_ifs at h with h₁ h₂
  · obtain rfl := Except.ok.inj h
    exact ⟨rfl, hadd, rfl, rfl⟩
  · obtain rfl := Except.ok.inj h
    exact ⟨rfl, hadd, rfl, rfl⟩
  · obtain ⟨_, -, h⟩ := bind_eq_ok.1 h
    obtain rfl := pure_eq_ok.1 h
    exact ⟨rfl, hadd, rfl, rfl⟩

/-- An input with a key of the wallet gets its signature type. -/
theorem scanOwnInput_eq_ok {network : Network} {txType : TxType} {isPartial : Bool} {psbt : Psbt}
    {scan scan' : InputScan} {input : PsbtInput} {i : ℕ} {script : Bytes} {iter : KeyIter K}
    (h : scanOwnInput D network txType isPartial psbt scan input i script iter = .ok scan') :
    scan'.sigTypes = scan.sigTypes ++ [D.getInputSignatureType psbt i] ∧
      scan'.inputAmount = scan.inputAmount ∧ scan'.mwebInputAmount = scan.mwebInputAmount ∧
      scan'.mwebAmountsIncomplete = scan.mwebAmountsIncomplete := by
  rw [scanOwnInput] at h
  obtain ⟨inSums, -, h⟩ := bind_eq_ok.1 h
  obtain ⟨sigType, hsig, h⟩ := bind_eq_ok.1 h
  obtain ⟨_, -, h⟩ := bind_eq_ok.1 h
  obtain ⟨_, -, h⟩ := bind_eq_ok.1 h
  obtain ⟨flavour, -, h⟩ := bind_eq_ok.1 h
  obtain ⟨⟨flags, record⟩, -, h⟩ := bind_eq_ok.1 h
  obtain rfl := pure_eq_ok.1 h
  have hsome : D.getInputSignatureType psbt i = some sigType := by
    cases hget : D.getInputSignatureType psbt i with
    | none => simp [hget, wallyVerify, liftFault] at hsig
    | some sigType' => simpa [hget, wallyVerify, liftFault] using hsig
  exact ⟨by rw [hsome], rfl, rfl, rfl⟩

/-- An input of the extension block. -/
theorem Scanned.concat_mweb {psbt : Psbt} {pre : List PsbtInput} {input : PsbtInput}
    {scan scan' : InputScan} (h : Scanned D psbt pre scan) (hmweb : isMwebInput input = true)
    (hstep : scanMwebInput D scan input = .ok scan') :
    Scanned D psbt (pre ++ [input]) scan' := by
  obtain ⟨hsig, hamount, hmwebAmount, hincomplete⟩ := scanMwebInput_eq_ok D hstep
  exact {
    sigTypes := by
      rw [hsig, h.sigTypes, List.zipIdx_append, List.map_append]
      simp [scannedSigType, hmweb]
    utxos := by
      intro input' hmem hstd
      rcases List.mem_append.1 hmem with hmem | hmem
      · exact h.utxos input' hmem hstd
      · obtain rfl := List.mem_singleton.1 hmem
        simp [hmweb] at hstd
    inputAmount := by rw [hamount, h.inputAmount, stdInputs_append_mweb hmweb]
    mwebInputAmount := by
      rw [hmwebAmount, List.filter_append, List.filter_cons_of_pos hmweb, List.filter_nil,
        List.map_append, List.sum_append, InputScan.addMwebAmount]
      have hprev := h.mwebInputAmount
      split
      · next hhas =>
          rw [UInt64.toNat_add, hprev]
          simp [knownMwebAmount, hhas]
      · next hhas =>
          rw [hprev]
          simp [knownMwebAmount, hhas]
    complete := by
      intro hcomplete input' hmem hmweb'
      rw [hincomplete, InputScan.addMwebAmount] at hcomplete
      split at hcomplete
      · next hhas =>
          rcases List.mem_append.1 hmem with hmem | hmem
          · exact h.complete hcomplete input' hmem hmweb'
          · obtain rfl := List.mem_singleton.1 hmem
            exact hhas
      · simp at hcomplete }

/-- Any other input. -/
theorem Scanned.concat_std {network : Network} (hliquid : networkIsLiquid network = false)
    {txType : TxType} {isPartial : Bool} {psbt : Psbt} {pre : List PsbtInput} {input : PsbtInput}
    {scan scan' : InputScan} (h : Scanned D psbt pre scan) (hstd : isMwebInput input = false)
    (hstep : scanStdInput D network txType isPartial psbt scan input pre.length = .ok scan') :
    Scanned D psbt (pre ++ [input]) scan' := by
  have hmweb : ¬isMwebInput input = true := Bool.eq_false_iff.1 hstd
  rw [scanStdInput] at hstep
  cases hutxo : input.bestUtxo with
  | none => simp [hutxo] at hstep
  | some utxo =>
      simp only [hutxo, hliquid, Bool.false_eq_true, if_false] at hstep
      obtain ⟨iter, hiter, hstep⟩ := bind_eq_ok.1 hstep
      have hbegin : keyIterBeginPublic D.wallet (inputKeySource input) = .ok iter := by
        cases hget : keyIterBeginPublic D.wallet (inputKeySource input) with
        | error f => simp [hget, liftFault] at hiter
        | ok iter' => simpa [hget, liftFault] using hiter
      have hscan : scan'.sigTypes = scan.sigTypes ++ [scannedSigType D psbt input pre.length] ∧
          scan'.inputAmount = scan.inputAmount + utxo.satoshi ∧
          scan'.mwebInputAmount = scan.mwebInputAmount ∧
          scan'.mwebAmountsIncomplete = scan.mwebAmountsIncomplete := by
        cases iter with
        | none =>
            obtain rfl := pure_eq_ok.1 hstep
            exact ⟨by simp [scannedSigType, hstd, hbegin], rfl, rfl, rfl⟩
        | some iter =>
            obtain ⟨hsig, hrest⟩ := scanOwnInput_eq_ok D hstep
            exact ⟨by rw [hsig]; simp [scannedSigType, hstd, hbegin], hrest⟩
      obtain ⟨hsig, hamount, hmwebAmount, hincomplete⟩ := hscan
      exact {
        sigTypes := by
          rw [hsig, h.sigTypes, List.zipIdx_append, List.map_append]
          simp
        utxos := by
          intro input' hmem hstd'
          rcases List.mem_append.1 hmem with hmem | hmem
          · exact h.utxos input' hmem hstd'
          · obtain rfl := List.mem_singleton.1 hmem
            simp [hutxo]
        inputAmount := by
          rw [hamount, UInt64.toNat_add, h.inputAmount, stdInputs_append_std hstd,
            List.map_append, List.sum_append]
          simp [stdAmount, hutxo]
        mwebInputAmount := by
          rw [hmwebAmount, h.mwebInputAmount, List.filter_append,
            List.filter_cons_of_neg hmweb, List.filter_nil, List.append_nil]
        complete := by
          intro hcomplete input' hmem hmweb'
          rw [hincomplete] at hcomplete
          rcases List.mem_append.1 hmem with hmem | hmem
          · exact h.complete hcomplete input' hmem hmweb'
          · obtain rfl := List.mem_singleton.1 hmem
            exact absurd hmweb' hmweb }

theorem Scanned.step {network : Network} (hliquid : networkIsLiquid network = false)
    {txType : TxType} {isPartial : Bool} {psbt : Psbt} {pre : List PsbtInput} {input : PsbtInput}
    {scan scan' : InputScan} (h : Scanned D psbt pre scan)
    (hstep : scanInput D network txType isPartial psbt scan input pre.length = .ok scan') :
    Scanned D psbt (pre ++ [input]) scan' := by
  rw [scanInput] at hstep
  by_cases hmweb : isMwebInput input = true
  · rw [if_pos (by exact hmweb)] at hstep
    exact h.concat_mweb D hmweb hstep
  · rw [if_neg (by exact hmweb)] at hstep
    exact h.concat_std D hliquid (Bool.eq_false_iff.2 hmweb) hstep

/-- **What is known after all inputs.** -/
theorem scanned_scanInputs {network : Network} (hliquid : networkIsLiquid network = false)
    {txType : TxType} {info : AdditionalInfo} {psbt : Psbt} {scan : InputScan}
    (h : scanInputs D network txType info psbt = .ok scan) : Scanned D psbt psbt.inputs scan :=
  foldlM_zipIdx_eq_ok (fun pre scan => Scanned D psbt pre scan) psbt.inputs
    (fun _ _ _ _ _ _ hpre hstep => hpre.step D hliquid hstep) (scanned_nil D psbt info.inSums) h

/-- **What is read off the PSBT before anything is shown.** -/
structure PreparedFrom (network : Network) (psbt : Psbt) (p : Prepared) : Prop where
  elements : D.psbtIsElements psbt = networkIsLiquid network
  tx : fetchTx D psbt = .ok p.tx
  inputs : p.tx.inputs.length = psbt.inputs.length
  outputs : p.tx.outputs.length = psbt.outputs.length
  scan : scanInputs D network p.txType p.info psbt = .ok p.scan
  infos : psbtUpdateOutputs D.wallet D.records network (D.getOutputScript psbt) psbt p.scan.flags
    p.scan.record = .ok p.infos

theorem preparedFrom_of_prepare {network : Network} {additional : Option AdditionalInfo}
    {psbt : Psbt} {p : Prepared} (h : prepare D network additional psbt = .ok p) :
    PreparedFrom D network psbt p := by
  rw [prepare] at h
  obtain ⟨_, helements, h⟩ := bind_eq_ok.1 h
  obtain ⟨tx, htx, h⟩ := bind_eq_ok.1 h
  obtain ⟨_, hlen, h⟩ := bind_eq_ok.1 h
  obtain ⟨fee, -, h⟩ := bind_eq_ok.1 h
  obtain ⟨⟨txType, info⟩, h⟩ : ∃ r : TxType × AdditionalInfo, (do
      let scan ← scanInputs D network r.1 r.2 psbt
      let infos ← liftFault (psbtUpdateOutputs D.wallet D.records network (D.getOutputScript psbt)
        psbt scan.flags scan.record)
      assertThat (fee == 0 || D.psbtIsElements psbt)
      pure { tx, explicitFee := fee, txType := r.1, info := r.2, scan, infos : Prepared }) = .ok p := by
    split_ifs at h
    · obtain ⟨r, -, h⟩ := bind_eq_ok.1 h
      exact ⟨r, h⟩
    · exact ⟨(.sendPayment, {}), h⟩
  obtain ⟨scan, hscan, h⟩ := bind_eq_ok.1 h
  obtain ⟨infos, hinfos, h⟩ := bind_eq_ok.1 h
  obtain ⟨_, -, h⟩ := bind_eq_ok.1 h
  obtain rfl := pure_eq_ok.1 h
  have hlens : tx.inputs.length = psbt.inputs.length ∧ tx.outputs.length = psbt.outputs.length := by
    by_contra hne
    simp [assertThat, hne] at hlen
  exact {
    elements := by
      by_contra hne
      simp [rejectUnless, hne] at helements
    tx := htx
    inputs := hlens.1
    outputs := hlens.2
    scan := hscan
    infos := by
      cases hupdate : psbtUpdateOutputs D.wallet D.records network (D.getOutputScript psbt) psbt
          scan.flags scan.record with
      | error f => simp [hupdate, liftFault] at hinfos
      | ok infos' => simpa [hupdate, liftFault] using hinfos }

/-! ### The signatures -/

/-- How an input is signed: it has a key of the wallet, and a private key is found for it. -/
def signsWith (psbt : Psbt) (i : ℕ) : Option SigType :=
  match psbt.inputs[i]? with
  | none => none
  | some input =>
      match keyIterKeys D.wallet (inputKeySource input) with
      | .ok (_ :: _) => scannedSigType D psbt input i
      | _ => none

theorem mem_signaturesOf_iff {psbt : Psbt} {input : PsbtInput} {i j : ℕ} {t : SigType}
    (hi : psbt.inputs[i]? = some input) :
    (j, t) ∈ signaturesOf D psbt (scannedSigType D psbt input i) i ↔
      j = i ∧ signsWith D psbt i = some t := by
  cases hkeys : keyIterKeys D.wallet (inputKeySource input) with
  | error f => cases hsig : scannedSigType D psbt input i <;> simp [signaturesOf, signsWith, hi, hkeys]
  | ok iters =>
      cases iters with
      | nil => cases hsig : scannedSigType D psbt input i <;>
          simp [signaturesOf, signsWith, hi, hkeys]
      | cons iter iters =>
          cases hsig : scannedSigType D psbt input i with
          | none => simp [signaturesOf, signsWith, hi, hkeys, hsig]
          | some t' =>
              simp [signaturesOf, signsWith, hi, hkeys, hsig, eq_comm]

/-- **The signatures made** are those of the inputs with keys of the wallet. -/
theorem mem_signatures_iff {psbt : Psbt} {scan : InputScan}
    (h : Scanned D psbt psbt.inputs scan) {j : ℕ} {t : SigType} :
    (j, t) ∈ (scan.sigTypes.zipIdx.flatMap fun (sigType, i) => signaturesOf D psbt sigType i) ↔
      signsWith D psbt j = some t := by
  rw [h.sigTypes, List.mem_flatMap]
  constructor
  · rintro ⟨⟨sigType, i⟩, hmem, hsig⟩
    rw [List.mk_mem_zipIdx_iff_getElem?, List.getElem?_map, List.getElem?_zipIdx] at hmem
    cases hi : psbt.inputs[i]? with
    | none => simp [hi] at hmem
    | some input =>
        simp only [hi, Option.map_some, Nat.zero_add, Option.some.injEq] at hmem
        rw [← hmem] at hsig
        obtain ⟨rfl, hsigns⟩ := (mem_signaturesOf_iff D hi).1 hsig
        exact hsigns
  · intro hsigns
    cases hj : psbt.inputs[j]? with
    | none => simp [signsWith, hj] at hsigns
    | some input =>
        refine ⟨(scannedSigType D psbt input j, j), ?_, (mem_signaturesOf_iff D hj).2 ⟨rfl, hsigns⟩⟩
        rw [List.mk_mem_zipIdx_iff_getElem?, List.getElem?_map, List.getElem?_zipIdx, hj]
        simp

end Jade
