/-
**Errors while signing (`sign_psbt.c`).**

The signing loop may fail: at the hash of an input, or at a signature.  It then leaves at once, and the
signatures made before stay where they were written, unless a session of the extension block is open,
which takes them back.

Main definitions:

* `Jade.SignErr.Coded` — an error whose code is not zero;
* `Jade.attemptsOf`, `Jade.signAttempts` — what the loop attempts, and whether it succeeds;
* `Jade.SigningLawful` — a signature changes nothing for the attempts after it;
* `Jade.SigningUniform` — a session is opened, or all attempts succeed when the first one does.

Main results:

* `Jade.throws_signEntries` — attempts that all succeed throw nothing but faults;
* `Jade.sat_signEntries` — when the first attempt fails, nothing is written;
* `Jade.sat_signAndCommit` — **after an error the inputs are, or are again, what they were**.
-/

import Jade.SignPsbt.Scan

set_option relaxedAutoImplicit false
set_option autoImplicit false

namespace Jade

open Exec Mweb

/-! ### Codes -/

/-- An error with a code that is not zero; a failed assertion does not return. -/
def SignErr.Coded : SignErr → Prop
  | .reject code _ => code ≠ 0
  | .fault _ => True

@[simp] theorem coded_badParameters (errmsg : String) :
    (SignErr.reject CBOR_RPC_BAD_PARAMETERS errmsg).Coded := by
  simp [SignErr.Coded, CBOR_RPC_BAD_PARAMETERS]

@[simp] theorem coded_internalError (errmsg : String) :
    (SignErr.reject CBOR_RPC_INTERNAL_ERROR errmsg).Coded := by
  simp [SignErr.Coded, CBOR_RPC_INTERNAL_ERROR]

@[simp] theorem coded_userCancelled (errmsg : String) :
    (SignErr.reject CBOR_RPC_USER_CANCELLED errmsg).Coded := by
  simp [SignErr.Coded, CBOR_RPC_USER_CANCELLED]

section Model

variable {K P : Type} (D : Device K P)

/-! ### What the loop attempts -/

/-- What a signature is written as. -/
def InputSignature.write (sig : InputSignature) (index : ℕ) (psbt : Psbt) : Psbt :=
  (SessionStep.signInput index sig.signatures sig.psbtFields sig.taprootLeafSignatures
    sig.txModifiableFlags).onPsbt psbt

/-- **A signature changes nothing for the attempts after it**: neither the hashes to be signed, nor
whether a key can sign, nor whether a taproot input has a merkle root. -/
structure SigningLawful : Prop where
  root : ∀ psbt i k txhash key forLiquid sig input,
    D.signInputBip32 psbt i k txhash key forLiquid = some sig → psbt.inputs[i]? = some input →
      sig.psbtFields.find (.int PSBT_IN_TAP_MERKLE_ROOT) =
        input.psbtFields.find (.int PSBT_IN_TAP_MERKLE_ROOT)
  hash : ∀ psbt i k txhash key forLiquid sig j tx,
    D.signInputBip32 psbt i k txhash key forLiquid = some sig →
      D.getInputSignatureHash (sig.write i psbt) j tx = D.getInputSignatureHash psbt j tx
  sign : ∀ psbt i k txhash key forLiquid sig j k' txhash' key',
    D.signInputBip32 psbt i k txhash key forLiquid = some sig →
      (D.signInputBip32 (sig.write i psbt) j k' txhash' key' forLiquid).isSome =
        (D.signInputBip32 psbt j k' txhash' key' forLiquid).isSome

/-- The attempts for one input: the hash fails, or each key is tried. -/
def attemptsOf (forLiquid : Bool) (tx : Tx) (psbt : Psbt) (sigType : Option SigType) (index : ℕ) :
    List Bool :=
  match sigType with
  | none => []
  | some _ =>
      match D.getInputSignatureHash psbt index tx, psbt.inputs[index]? with
      | some txhash, some input =>
          match keyIterKeys D.wallet (inputKeySource input) with
          | .ok iters => iters.map fun iter =>
              (D.signInputBip32 psbt index iter.keyIndex txhash iter.hdkey forLiquid).isSome
          | .error _ => []
      | _, _ => [false]

/-- The PSBT with the genesis block hash that Liquid needs for signing. -/
def withGenesis (network : Network) (psbt : Psbt) : Psbt :=
  if networkIsLiquid network && psbt.genesisBlockhash.isNone then
    { psbt with genesisBlockhash := networkToGenesisHash network }
  else psbt

/-- How each input is to be signed, if at all. -/
def flaggedInputs (psbt : Psbt) : List (Option SigType) :=
  psbt.inputs.zipIdx.map fun (input, i) => scannedSigType D psbt input i

/-- The attempts for all inputs. -/
def signAttempts (network : Network) (tx : Tx) (psbt : Psbt) : List Bool :=
  (flaggedInputs D psbt).zipIdx.flatMap fun (sigType, i) =>
    attemptsOf D (networkIsLiquid network) tx (withGenesis network psbt) sigType i

/-- **Either a session is opened, or all attempts succeed when the first one does.** -/
def SigningUniform (network : Network) (psbt : Psbt) : Prop :=
  (networkIsLiquid network = false ∧ signPsbtHasMwebComponent psbt = true) ∨
    ∀ tx, fetchTx D psbt = .ok tx → (signAttempts D network tx psbt).head? = some true →
      ∀ ok ∈ signAttempts D network tx psbt, ok = true

/-! ### The flagged inputs -/

theorem sigTypes_scanInput {network : Network} {txType : TxType} {isPartial : Bool} {psbt : Psbt}
    {scan scan' : InputScan} {input : PsbtInput} {i : ℕ}
    (h : scanInput D network txType isPartial psbt scan input i = .ok scan') :
    scan'.sigTypes = scan.sigTypes ++ [scannedSigType D psbt input i] := by
  rw [scanInput] at h
  by_cases hmweb : isMwebInput input = true
  · rw [if_pos (by exact hmweb)] at h
    rw [(scanMwebInput_eq_ok D h).1, scannedSigType, if_pos hmweb]
  · rw [if_neg (by exact hmweb), scanStdInput] at h
    rw [scannedSigType, if_neg hmweb]
    cases hutxo : input.bestUtxo with
    | none => simp [hutxo] at h
    | some utxo =>
        simp only [hutxo] at h
        obtain ⟨found, hfound, h⟩ := bind_eq_ok.1 h
        rw [liftFault_eq_ok] at hfound
        rw [hfound]
        have hamount : ∀ scan₀ : InputScan, scan₀ = (if networkIsLiquid network then scan
            else { scan with inputAmount := scan.inputAmount + utxo.satoshi }) →
            scan₀.sigTypes = scan.sigTypes := by
          rintro _ rfl
          split <;> rfl
        have hsig := hamount _ rfl
        cases found with
        | none =>
            obtain rfl := pure_eq_ok.1 h
            exact congrArg (· ++ [none]) hsig
        | some iter => rw [(scanOwnInput_eq_ok D h).1, hsig]

/-- The loop flags the inputs with a key of the wallet, on every network. -/
theorem sigTypes_of_scanInputs {network : Network} {txType : TxType} {info : AdditionalInfo}
    {psbt : Psbt} {scan : InputScan} (h : scanInputs D network txType info psbt = .ok scan) :
    scan.sigTypes = flaggedInputs D psbt := by
  refine foldlM_zipIdx_eq_ok (fun pre scan => scan.sigTypes =
    pre.zipIdx.map fun (input, i) => scannedSigType D psbt input i) psbt.inputs ?_ rfl h
  rintro pre input _ scan₀ scan₁ - hpre hstep
  rw [sigTypes_scanInput D hstep, hpre, List.zipIdx_append, List.map_append]
  simp

/-! ### The loop -/

/-- For the attempts still to come the PSBT is as good as `psbt₁`. -/
structure Alike (forLiquid : Bool) (tx : Tx) (psbt₁ psbt : Psbt) : Prop where
  hash : ∀ j, D.getInputSignatureHash psbt j tx = D.getInputSignatureHash psbt₁ j tx
  sign : ∀ j k txhash key, (D.signInputBip32 psbt j k txhash key forLiquid).isSome =
    (D.signInputBip32 psbt₁ j k txhash key forLiquid).isSome
  source : ∀ j : ℕ, (psbt.inputs[j]?).map inputKeySource = (psbt₁.inputs[j]?).map inputKeySource

variable {D}

theorem Alike.refl (forLiquid : Bool) (tx : Tx) (psbt : Psbt) : Alike D forLiquid tx psbt psbt :=
  ⟨fun _ => rfl, fun _ _ _ _ => rfl, fun _ => rfl⟩

theorem Alike.write (hD : SigningLawful D) {forLiquid : Bool} {tx : Tx} {psbt₁ psbt : Psbt}
    (h : Alike D forLiquid tx psbt₁ psbt) {i k : ℕ} {txhash : Bytes} {key : K}
    {sig : InputSignature} (hsig : D.signInputBip32 psbt i k txhash key forLiquid = some sig) :
    Alike D forLiquid tx psbt₁ (sig.write i psbt) where
  hash j := (hD.hash _ _ _ _ _ _ _ j tx hsig).trans (h.hash j)
  sign j k' txhash' key' := (hD.sign _ _ _ _ _ _ _ j k' txhash' key' hsig).trans (h.sign _ _ _ _)
  source j := by
    rw [← h.source j]
    simp only [InputSignature.write, SessionStep.onPsbt, List.getElem?_modify]
    cases hinput : psbt.inputs[j]? with
    | none => rfl
    | some input =>
        by_cases hij : i = j
        · subst hij
          simp [signedInput, inputKeySource, hD.root _ _ _ _ _ _ _ _ hsig hinput]
        · simp [hij]

/-- A signature is written where the loop stands. -/
theorem signWithKey_eq (forLiquid : Bool) (index : ℕ) (sigType : SigType) (txhash : Bytes)
    (iter : KeyIter K) {Q : Unit → SignState → Prop} {E : SignErr → SignState → Prop}
    {s : SignState} :
    Sat (signWithKey D forLiquid index sigType txhash iter) Q E s ↔
      (∀ sig, D.signInputBip32 s.psbt index iter.keyIndex txhash iter.hdkey forLiquid = some sig →
        Q () { s with
          toWorld := (SessionStep.signInput index sig.signatures sig.psbtFields
            sig.taprootLeafSignatures sig.txModifiableFlags).run s.toWorld
          signed := s.signed ++ [(index, sigType)] }) ∧
        (D.signInputBip32 s.psbt index iter.keyIndex txhash iter.hdkey forLiquid = none →
          E (.reject CBOR_RPC_INTERNAL_ERROR "Failed to generate signature") s) := by
  simp only [signWithKey, sat_bind, sat_get]
  cases D.signInputBip32 s.psbt index iter.keyIndex txhash iter.hdkey forLiquid with
  | none => simp
  | some sig => simp

/-- **Attempts that all succeed throw nothing but faults.** -/
theorem throws_signEntries (hD : SigningLawful D) {forLiquid : Bool} {tx : Tx} {psbt₁ : Psbt}
    {entries : List (Option SigType × ℕ)}
    (hall : ∀ entry ∈ entries, ∀ ok ∈ attemptsOf D forLiquid tx psbt₁ entry.1 entry.2, ok = true) :
    Throws (fun s : SignState => Alike D forLiquid tx psbt₁ s.psbt) (fun e => ∃ f, e = .fault f)
      (entries.forM fun entry => signInput D forLiquid tx entry.1 entry.2) := by
  refine Throws.forM entries fun entry hentry => ?_
  obtain ⟨sigType, index⟩ := entry
  have hok := hall _ hentry
  cases sigType with
  | none => exact Throws.pure _
  | some sigType =>
      intro s hs
      simp only [signInput, sat_bind, sat_get]
      simp only [attemptsOf] at hok
      split
      · next txhash input hhash hinput =>
          rw [hs.hash index] at hhash
          have hsource := hs.source index
          rw [hinput, Option.map_some] at hsource
          obtain ⟨input₁, hinput₁, hsame⟩ := Option.map_eq_some_iff.1 hsource.symm
          rw [hhash, hinput₁] at hok
          simp only [sat_bind, sat_orFault]
          refine ⟨fun iters hiters => ?_, fun f _ => ⟨hs, f, rfl⟩⟩
          simp only [hsame, hiters] at hok
          refine Throws.forM iters (fun iter hiter => ?_) s hs
          intro s' hs'
          rw [signWithKey_eq]
          refine ⟨fun sig hsig => hs'.write hD hsig, fun hnone => ?_⟩
          have hsome := hok _ (List.mem_map_of_mem hiter)
          rw [← hs'.sign, hnone] at hsome
          cases hsome
      · next hnot =>
          -- a hash that fails would have been an attempt
          exfalso
          cases hhash : D.getInputSignatureHash psbt₁ index tx with
          | none => simp [hhash] at hok
          | some txhash =>
              cases hinput : psbt₁.inputs[index]? with
              | none => simp [hhash, hinput] at hok
              | some input₁ =>
                  have hsource := hs.source index
                  rw [hinput, Option.map_some] at hsource
                  obtain ⟨input, hinput', -⟩ := Option.map_eq_some_iff.1 hsource
                  exact hnot txhash input ((hs.hash index).trans hhash) hinput'

/-- **When the first attempt fails, nothing is written.** -/
theorem sat_signEntries {forLiquid : Bool} {tx : Tx} {entries : List (Option SigType × ℕ)}
    {s : SignState}
    (hfirst : (entries.flatMap fun entry =>
      attemptsOf D forLiquid tx s.psbt entry.1 entry.2).head? ≠ some true) :
    Sat (entries.forM fun entry => signInput D forLiquid tx entry.1 entry.2)
      (fun _ s' => s' = s) (fun _ s' => s' = s) s := by
  induction entries with
  | nil => exact (sat_pure _).2 rfl
  | cons entry entries ih =>
      obtain ⟨sigType, index⟩ := entry
      rw [List.flatMap_cons] at hfirst
      rw [List.forM, sat_bind]
      -- an input without an attempt leaves everything to the others
      have hgo : ∀ s', s' = s → attemptsOf D forLiquid tx s.psbt sigType index = [] →
          Sat (entries.forM fun entry => signInput D forLiquid tx entry.1 entry.2)
            (fun _ s' => s' = s) (fun _ s' => s' = s) s' := by
        rintro _ rfl hnone
        rw [hnone] at hfirst
        exact ih hfirst
      cases sigType with
      | none => exact (sat_pure _).2 (hgo s rfl rfl)
      | some sigType =>
          simp only [signInput, sat_bind, sat_get]
          split
          · next txhash input hhash hinput =>
              simp only [sat_bind, sat_orFault, implies_true, and_true]
              intro iters hiters
              have hattempts : attemptsOf D forLiquid tx s.psbt (some sigType) index =
                  iters.map fun iter => (D.signInputBip32 s.psbt index iter.keyIndex txhash
                    iter.hdkey forLiquid).isSome := by
                simp only [attemptsOf, hhash, hinput, hiters]
              cases iters with
              | nil => exact (sat_pure _).2 (hgo s rfl hattempts)
              | cons iter iters =>
                  rw [List.forM, sat_bind, signWithKey_eq]
                  refine ⟨fun sig hsig => ?_, fun _ => rfl⟩
                  -- the first attempt cannot succeed
                  exfalso
                  apply hfirst
                  rw [hattempts, List.map_cons, hsig]
                  rfl
          · exact (sat_throw _).2 rfl

/-! ### From the loop to the end -/

/-- The inputs are what they were, or an abort makes them so. -/
def Restorable (psbt : Psbt) (s : SignState) : Prop :=
  (mwebSessionAbort s.toWorld).psbt.inputs = psbt.inputs

/-- The session is open, and all it guards can be taken back. -/
def GuardedBy (psbt : Psbt) (s : SignState) : Prop :=
  ∃ session, s.session = some session ∧ Guarded session psbt s.psbt

theorem restorable_of_none {psbt : Psbt} {s : SignState} (hsession : s.session = none)
    (h : s.psbt.inputs = psbt.inputs) : Restorable psbt s := by
  simpa only [Restorable, mwebSessionAbort, hsession] using h

theorem GuardedBy.restorable {psbt : Psbt} {s : SignState} (h : GuardedBy psbt s) :
    Restorable psbt s := by
  obtain ⟨session, hsession, hguard⟩ := h
  have hundo := congrArg Psbt.inputs hguard.undo
  simpa only [Restorable, mwebSessionAbort, hsession] using hundo

/-- Signing leaves what a session guards alone, and its errors carry a code. -/
theorem throws_signInput_guarded {psbt : Psbt} (forLiquid : Bool) (tx : Tx)
    (sigType : Option SigType) (index : ℕ) :
    Throws (GuardedBy psbt) SignErr.Coded (signInput D forLiquid tx sigType index) := by
  cases sigType with
  | none => exact Throws.pure _
  | some sigType =>
      intro s hs
      simp only [signInput, sat_bind, sat_get]
      split
      · simp only [sat_bind, sat_orFault]
        refine ⟨fun iters _ => ?_, fun _ _ => ⟨hs, trivial⟩⟩
        refine Throws.forM iters (fun iter _ => ?_) s hs
        rintro s ⟨session, hsession, hguard⟩
        rw [signWithKey_eq]
        refine ⟨fun sig _ => ⟨session, ?_, hguard.signInput _ _ _ _ _⟩,
          fun _ => ⟨⟨session, hsession, hguard⟩, by simp⟩⟩
        simp only [SessionStep.run, hsession, Option.map_some]
        rfl
      · exact (sat_throw _).2 ⟨hs, by simp⟩

/-- A commit that fails leaves the inputs as they were. -/
theorem sat_commitSession_guarded {psbt : Psbt} {s : SignState} (h : GuardedBy psbt s) :
    Sat (commitSession D) (fun _ _ => True)
      (fun e s' => e.Coded ∧ Restorable psbt s') s := by
  obtain ⟨session, hsession, hguard⟩ := h
  simp only [commitSession, sat_bind, sat_get, hsession]
  rw [sat_onWorld]
  simp only [mwebSessionCommit, sat_bind, sat_get, hsession, sat_tryCatch, sat_modify, sat_throw]
  refine (keeps_commitBody D.env s.toWorld ⟨hsession, hguard, rfl⟩).mono (fun _ _ _ => trivial) ?_
  rintro e w ⟨hw, hguard', -⟩
  refine ⟨by simp [commitError], restorable_of_none ?_ ?_⟩
  · simp only [mwebSessionAbort, hw]
  · have hundo := congrArg Psbt.inputs hguard'.undo
    simpa only [mwebSessionAbort, hw] using hundo

/-- Signing without a session: its errors carry a code. -/
theorem throws_signInput (forLiquid : Bool) (tx : Tx) (sigType : Option SigType) (index : ℕ) :
    Throws (fun s : SignState => s.session = none) SignErr.Coded
      (signInput D forLiquid tx sigType index) := by
  cases sigType with
  | none => exact Throws.pure _
  | some sigType =>
      intro s hs
      simp only [signInput, sat_bind, sat_get]
      split
      · simp only [sat_bind, sat_orFault]
        refine ⟨fun iters _ => ?_, fun _ _ => ⟨hs, trivial⟩⟩
        refine Throws.forM iters (fun iter _ => ?_) s hs
        intro s hs
        rw [signWithKey_eq]
        exact ⟨fun sig _ => by simp [SessionStep.run, hs], fun _ => ⟨hs, by simp⟩⟩
      · exact (sat_throw _).2 ⟨hs, by simp⟩

/-- Signing without a session: when all attempts succeed if the first one does, an error comes before
anything is written. -/
theorem sat_signEntries_uniform (hD : SigningLawful D) {forLiquid : Bool} {tx : Tx}
    {entries : List (Option SigType × ℕ)} {psbt : Psbt} {s : SignState} (hsession : s.session = none)
    (hinputs : s.psbt.inputs = psbt.inputs)
    (huniform : (entries.flatMap fun entry =>
        attemptsOf D forLiquid tx s.psbt entry.1 entry.2).head? = some true →
      ∀ ok ∈ entries.flatMap fun entry => attemptsOf D forLiquid tx s.psbt entry.1 entry.2,
        ok = true) :
    Sat (entries.forM fun entry => signInput D forLiquid tx entry.1 entry.2)
      (fun _ s' => s'.session = none)
      (fun e s' => (∃ code errmsg, e = .reject code errmsg) → e.Coded ∧ Restorable psbt s') s := by
  have hcoded : Throws (fun s : SignState => s.session = none) SignErr.Coded
      (entries.forM fun entry => signInput D forLiquid tx entry.1 entry.2) :=
    Throws.forM entries fun entry _ => throws_signInput forLiquid tx entry.1 entry.2
  by_cases hfirst : (entries.flatMap fun entry =>
      attemptsOf D forLiquid tx s.psbt entry.1 entry.2).head? = some true
  · have hall := huniform hfirst
    have hthrows : Throws (fun s' : SignState => Alike D forLiquid tx s.psbt s'.psbt)
        (fun e => ∃ f, e = .fault f)
        (entries.forM fun entry => signInput D forLiquid tx entry.1 entry.2) :=
      throws_signEntries hD fun entry hentry ok hok =>
        hall ok (List.mem_flatMap.2 ⟨entry, hentry, hok⟩)
    refine ((hcoded s hsession).and (hthrows s (.refl _ _ _))).mono (fun _ _ h => h.1) ?_
    rintro e s' ⟨-, -, f, rfl⟩ ⟨_, _, h⟩
    cases h
  · refine ((hcoded s hsession).and (sat_signEntries hfirst)).mono (fun _ _ h => h.1) ?_
    rintro e s' ⟨⟨hnone, hcode⟩, rfl⟩ -
    exact ⟨hcode, restorable_of_none hnone hinputs⟩

/-- **After an error while signing the inputs are what they were**, or the session that is open makes
them so. -/
theorem sat_signAndCommit (hD : SigningLawful D) {network : Network} {txType : TxType}
    {info : AdditionalInfo} {psbt : Psbt} {scan : InputScan} {tx : Tx} {s : SignState}
    (hscan : scanInputs D network txType info psbt = .ok scan) (htx : fetchTx D psbt = .ok tx)
    (hflagged : scan.flags.any = false → ∀ sigType ∈ scan.sigTypes, sigType = none)
    (huniform : SigningUniform D network psbt) (hpsbt : s.psbt = psbt)
    (hguard : ∀ session, s.session = some session → Guarded session psbt psbt)
    (hliquid : networkIsLiquid network = true → s.session = none)
    (hopen : networkIsLiquid network = false → signPsbtHasMwebComponent psbt = true →
      s.session ≠ none) :
    Sat (do signInputs D network tx scan; commitSession D) (fun _ _ => True)
      (fun e s' => (∃ code errmsg, e = .reject code errmsg) → e.Coded ∧ Restorable psbt s') s := by
  simp only [signInputs, provideGenesis, sat_bind, sat_get]
  cases hsession : s.session with
  | some session =>
      have hbtc : networkIsLiquid network = false := by
        by_contra h
        simp [hliquid (by simpa using h)] at hsession
      rw [if_neg (by simp [hbtc])]
      have hstart : GuardedBy psbt s := ⟨session, hsession, by rw [hpsbt]; exact hguard _ hsession⟩
      have hturn : ∀ entry ∈ scan.sigTypes.zipIdx,
          Throws (GuardedBy psbt) SignErr.Coded
            (signInput D (networkIsLiquid network) tx entry.1 entry.2) := fun entry _ =>
        throws_signInput_guarded (networkIsLiquid network) tx entry.1 entry.2
      have hloop := Throws.forM scan.sigTypes.zipIdx hturn
      refine (sat_pure _).2 ((hloop s hstart).mono (fun _ s' h => ?_) fun e s' h _ =>
        ⟨h.2, h.1.restorable⟩)
      exact (sat_commitSession_guarded h).mono (fun _ _ _ => trivial) fun _ _ h _ => h
  | none =>
      have hattempts := (huniform.resolve_left fun h => hopen h.1 h.2 hsession) tx htx
      rw [signAttempts, ← sigTypes_of_scanInputs D hscan] at hattempts
      have hcommit : ∀ s' : SignState, s'.session = none →
          Sat (commitSession D) (fun _ _ => True)
            (fun e s' => (∃ code errmsg, e = .reject code errmsg) → e.Coded ∧ Restorable psbt s')
            s' := by
        intro s' hs'
        simp only [commitSession, sat_bind, sat_get, hs']
        exact (sat_pure _).2 trivial
      -- the loop runs on the PSBT with the hash, unless there is nothing to sign
      have hloop : ∀ s₁ : SignState, s₁.session = none → s₁.psbt.inputs = psbt.inputs →
          (scan.flags.any = true → s₁.psbt = withGenesis network psbt) →
          Sat (scan.sigTypes.zipIdx.forM fun entry =>
              signInput D (networkIsLiquid network) tx entry.1 entry.2)
            (fun _ s' => Sat (commitSession D) (fun _ _ => True)
              (fun e s' => (∃ code errmsg, e = .reject code errmsg) →
                e.Coded ∧ Restorable psbt s') s')
            (fun e s' => (∃ code errmsg, e = .reject code errmsg) →
              e.Coded ∧ Restorable psbt s') s₁ := by
        intro s₁ hnone hinputs hsame
        refine (sat_signEntries_uniform hD hnone hinputs ?_).mono (fun _ s' h => hcommit s' h)
          fun _ _ h => h
        cases hany : scan.flags.any with
        | true => rw [hsame hany]; exact hattempts
        | false =>
            have hempty : (scan.sigTypes.zipIdx.flatMap fun entry => attemptsOf D
                (networkIsLiquid network) tx s₁.psbt entry.1 entry.2) = [] := by
              refine List.flatMap_eq_nil_iff.2 fun entry hentry => ?_
              rw [hflagged hany entry.1 (List.fst_mem_of_mem_zipIdx hentry)]
              rfl
            rw [hempty]
            intro h
            cases h
      refine sat_ite.2 ⟨fun hprovide => (sat_modify _).2 (hloop _ hsession (by simp [hpsbt]) ?_),
        fun hnot => (sat_pure _).2 (hloop s hsession (by rw [hpsbt]) ?_)⟩
      · intro _
        rw [hpsbt] at hprovide ⊢
        simp only [Bool.and_eq_true] at hprovide
        rw [withGenesis, if_pos (by simp [hprovide.1.2, hprovide.2])]
      · intro hany
        rw [hpsbt] at hnot ⊢
        rw [hany, Bool.true_and] at hnot
        rw [withGenesis, if_neg hnot]

end Model

end Jade
