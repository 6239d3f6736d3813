/-
**A check that fails ends the run (`sign_psbt.c`).**

The checks of `sign_psbt` are scattered over one long function, and each must do two things: put a
message in place, and leave with an error code.  Up to the last screen all but one do: an error carries
a code that is not zero, it is raised before the first signature, and what was prepared for the
extension block is taken back.  The one that does not is the check of the genesis block hash that a PSET
may carry: it puts the message in place and goes on.

Among the signatures an error carries a code too, but the signatures before it stay in the PSBT, unless
a session of the extension block is open.

A signature of a taproot input of Liquid commits to the genesis block hash that the PSET holds when it is
made, which is the one it came with, or that of the network when it came without one.

Main definitions:

* `Jade.genesisMessage`, `Jade.signPsbtResult` — the check, and what `sign_psbt` returns;
* `Jade.Undoable` — what holds as long as nothing is signed;
* `Jade.ChecksBind` — what a message that is in place must lead to;
* `Jade.GenesisAgrees` — no genesis block hash, or that of the network.

Main results:

* `Jade.raises_prepare`, `Jade.sat_confirm_undoable` — every other check before the signatures ends the
  run;
* `Jade.sat_signInputs_genesis` — what the signatures commit to;
* `Jade.failed_check_never_signs` — **no run signs after a failed check, but for two defects**.
-/

import Jade.SignPsbt.Attempts

set_option relaxedAutoImplicit false
set_option autoImplicit false

namespace Jade

open Exec Mweb

/-! ### What `sign_psbt` returns -/

/-- What `sign_psbt` returns: its result, and the message it has put in place. -/
structure SignResult where
  retval : ℤ
  errmsg : Option String
  deriving DecidableEq

section Model

variable {K P : Type} (D : Device K P)

/-- The check of the genesis block hash that a PSET may carry. -/
def genesisMessage (network : Network) (psbt : Psbt) : Option String :=
  if D.psbtIsElements psbt then
    match psbt.genesisBlockhash with
    | none => none
    | some genesis =>
        if some genesis ≠ networkToGenesisHash network then some "Network/pset genesis mismatch"
        else none
  else none

/-- `sign_psbt` with its result and its message.  A message that is already in place is overwritten by
that of an error. -/
def signPsbtResult (network : Network) (additional : Option AdditionalInfo) : S SignResult := do
  let s ← get
  let errmsg := genesisMessage D network s.psbt
  tryCatch
    (do
      signPsbt D network additional
      return ⟨0, errmsg⟩)
    fun e => match e with
      | .reject code errmsg => return ⟨code, some errmsg⟩
      | .fault f => throw (.fault f)

/-! ### The checks before the screens -/

theorem raises_rejectUnless (c : Bool) (errmsg : String) :
    Raises SignErr.Coded (rejectUnless c errmsg) := by
  unfold rejectUnless
  exact Raises.ite (Raises.ok _) (Raises.error (coded_badParameters _))

theorem raises_assertThat (c : Bool) : Raises SignErr.Coded (assertThat c) := by
  unfold assertThat
  exact Raises.ite (Raises.ok _) (Raises.error trivial)

theorem raises_liftFault {α : Type} (x : Except Fault α) : Raises SignErr.Coded (liftFault x) := by
  cases x with
  | ok a => exact Raises.ok a
  | error f => exact Raises.error trivial

theorem raises_scanOwnInput (network : Network) (txType : TxType) (isPartial : Bool) (psbt : Psbt)
    (scan : InputScan) (input : PsbtInput) (index : ℕ) (script : Bytes) (iter : KeyIter K) :
    Raises SignErr.Coded
      (scanOwnInput D network txType isPartial psbt scan input index script iter) := by
  have hasset : Raises SignErr.Coded (scanInputAsset (networkIsLiquid network) scan.inSums input) := by
    unfold scanInputAsset
    refine Raises.ite (Raises.ok _) ?_
    cases input.amount with
    | none => exact Raises.error (coded_badParameters _)
    | some amount => exact (raises_rejectUnless _ _).bind fun _ => Raises.pure _
  have hflavour : ∀ sigType, Raises SignErr.Coded (scanInputFlavour D scan.flavour sigType script) := by
    intro sigType
    unfold scanInputFlavour
    exact Raises.ite (Raises.ok _)
      ((raises_liftFault _).bind fun _ => (raises_assertThat _).bind fun _ => Raises.pure _)
  unfold scanOwnInput
  refine hasset.bind fun _ => (raises_liftFault _).bind fun sigType => ?_
  refine (raises_rejectUnless _ _).bind fun _ => (raises_rejectUnless _ _).bind fun _ => ?_
  exact (hflavour sigType).bind fun _ => (raises_liftFault _).bind fun _ => Raises.pure _

theorem raises_scanInput (network : Network) (txType : TxType) (isPartial : Bool) (psbt : Psbt)
    (scan : InputScan) (input : PsbtInput) (index : ℕ) :
    Raises SignErr.Coded (scanInput D network txType isPartial psbt scan input index) := by
  have hmweb : Raises SignErr.Coded (scanMwebInput D scan input) := by
    unfold scanMwebInput
    refine Raises.ite (Raises.ok _) (Raises.ite (Raises.ok _) ?_)
    exact (raises_rejectUnless _ _).bind fun _ => Raises.pure _
  have hstd : Raises SignErr.Coded (scanStdInput D network txType isPartial psbt scan input index) := by
    unfold scanStdInput
    cases input.bestUtxo with
    | none => exact Raises.error (coded_badParameters _)
    | some utxo =>
        refine (raises_liftFault _).bind fun iter => ?_
        cases iter with
        | none => exact Raises.pure _
        | some iter => exact raises_scanOwnInput D network txType isPartial psbt _ input index _ iter
  exact Raises.ite hmweb hstd

/-- **The checks before the screens end the run**: their errors carry a code. -/
theorem raises_prepare (network : Network) (additional : Option AdditionalInfo) (psbt : Psbt) :
    Raises SignErr.Coded (prepare D network additional psbt) := by
  have hfetch : Raises SignErr.Coded (fetchTx D psbt) := by
    unfold fetchTx
    refine Raises.ite (raises_liftFault _) ?_
    cases D.psbtExtract psbt with
    | none => exact Raises.error (coded_badParameters _)
    | some tx => exact Raises.ok tx
  have hparams : ∀ tx isElements,
      Raises SignErr.Coded (paramsTxnValidate network isElements (D.txIsElements tx) tx) := by
    intro tx isElements
    unfold paramsTxnValidate
    refine (raises_rejectUnless _ _).bind fun _ => Raises.ite (Raises.pure _) ?_
    cases networkToPolicyAsset network with
    | none => exact Raises.error trivial
    | some policyAsset =>
        refine Raises.foldlM (fun explicitFee txout => ?_) _ _
        unfold txnValidateOutput
        refine (raises_assertThat _).bind fun _ => (raises_assertThat _).bind fun _ => ?_
        refine (raises_rejectUnless _ _).bind fun _ => (raises_assertThat _).bind fun _ => ?_
        refine Raises.ite (Raises.pure _) ?_
        refine (raises_rejectUnless _ _).bind fun _ => (raises_rejectUnless _ _).bind fun _ => ?_
        exact (raises_rejectUnless _ _).bind fun _ => (raises_rejectUnless _ _).bind fun _ =>
          Raises.pure _
  have hinfo : ∀ tx, Raises SignErr.Coded (paramsAdditionalInfo tx additional) := by
    intro tx
    cases additional with
    | none => exact Raises.ok _
    | some info =>
        simp only [paramsAdditionalInfo]
        cases info.txType with
        | none => exact Raises.error (coded_badParameters _)
        | some txType =>
            refine Raises.bind ?_ fun _ => Raises.pure _
            unfold validateAdditionalInfo
            refine Raises.ite ((raises_rejectUnless _ _).bind fun _ => ?_) (Raises.ok _)
            exact Raises.ite (raises_rejectUnless _ _) (raises_rejectUnless _ _)
  unfold prepare
  refine (raises_rejectUnless _ _).bind fun _ => hfetch.bind fun tx => ?_
  refine (raises_assertThat _).bind fun _ => (hparams tx _).bind fun explicitFee => ?_
  have hrest : ∀ txType (info : AdditionalInfo), Raises SignErr.Coded (do
      let scan ← scanInputs D network txType info psbt
      let infos ← liftFault (psbtUpdateOutputs D.wallet D.records network (D.getOutputScript psbt)
        psbt scan.flags scan.record)
      assertThat (explicitFee == 0 || D.psbtIsElements psbt)
      pure (⟨tx, explicitFee, txType, info, scan, infos⟩ : Prepared)) := by
    intro txType info
    refine Raises.bind (Raises.foldlM (fun scan entry => ?_) _ _) fun scan => ?_
    · exact raises_scanInput D network txType info.isPartial psbt scan entry.1 entry.2
    · exact (raises_liftFault _).bind fun _ => (raises_assertThat _).bind fun _ => Raises.pure _
  exact Raises.ite ((hinfo tx).bind fun typed => hrest typed.1 typed.2) (hrest _ _)

/-! ### The display programs -/

/-- A display program that throws nothing but coded errors. -/
abbrev CodedUi {α : Type} (x : Ui α) : Prop := Throws (fun _ => True) SignErr.Coded x

theorem throws_orFault {σ α : Type} {I : σ → Prop} (x : Except Fault α) :
    Throws I SignErr.Coded (orFault x : EStateM SignErr σ α) := fun _ h =>
  (sat_orFault x).2 ⟨fun _ _ => h, fun _ _ => ⟨h, trivial⟩⟩

theorem throws_ask (user : User) (screen : Screen) : CodedUi (ask user screen) :=
  fun _ _ => (sat_ask user screen).2 trivial

theorem throws_askAll (user : User) (screens : List Screen) : CodedUi (askAll user screens) := by
  induction screens with
  | nil => exact Throws.pure true
  | cons screen screens ih =>
      exact (throws_ask user screen).bind fun _ => Throws.ite ih (Throws.pure false)

theorem throws_showOutputsLoop (user : User)
    (screens : ℕ → TxOutput → Option OutputInfo → Except Fault (List Screen))
    (display : TxOutput → Option OutputInfo → Bool) (total : ℕ)
    (outs : List (TxOutput × Option OutputInfo)) (shown : ℕ) :
    CodedUi (showOutputsLoop user screens display total outs shown) := by
  induction outs generalizing shown with
  | nil => exact (throws_orFault _).bind fun _ => Throws.pure _
  | cons entry outs ih =>
      obtain ⟨out, info⟩ := entry
      refine Throws.ite ((throws_orFault _).bind fun _ => (throws_orFault _).bind fun block => ?_)
        (ih shown)
      exact (throws_askAll user block).bind fun _ => Throws.ite (ih (shown + 1)) (Throws.pure _)

theorem throws_showSummariesLoop (user : User) (hasAssetInfo : Bytes → Bool)
    (title direction : String) (total : ℕ) (sums : List AssetSummary) (shown : ℕ) :
    CodedUi (showSummariesLoop user hasAssetInfo title direction total sums shown) := by
  induction sums generalizing shown with
  | nil => exact Throws.pure _
  | cons sum sums ih =>
      refine (throws_orFault _).bind fun _ => (throws_ask user _).bind fun _ => ?_
      exact Throws.ite (ih (shown + 1)) (Throws.pure _)

theorem throws_showElementsSwapActivity (user : User) (hasAssetInfo : Bytes → Bool)
    (initialProposal : Bool) (inSums outSums : List AssetSummary) :
    CodedUi (showElementsSwapActivity user hasAssetInfo initialProposal inSums outSums) := by
  have hsums : ∀ direction sums, CodedUi (showElementsAssetSummaryActivity user hasAssetInfo
      (swapTitle initialProposal) direction sums) := fun direction sums =>
    (throws_orFault _).bind fun _ => throws_showSummariesLoop user hasAssetInfo _ _ _ _ _
  exact (hsums "Receive" outSums).bind fun _ => Throws.ite (hsums "Send" inSums) (Throws.pure _)

theorem throws_showBtcFeeConfirmationActivity (user : User) (tx : Tx)
    (infos : Option (List OutputInfo)) (flavour : ScriptFlavour) (inputAmount outputAmount : UInt64) :
    CodedUi (showBtcFeeConfirmationActivity user tx infos flavour inputAmount outputAmount) := by
  refine (throws_orFault _).bind fun _ => (throws_orFault _).bind fun _ => ?_
  refine (throws_orFault _).bind fun _ => (throws_orFault _).bind fun _ => ?_
  exact throws_ask user _

/-! ### The screens -/

/-- **As long as nothing is signed**: the PSBT is the one that came in, and a session can be taken
back. -/
structure Undoable (psbt : Psbt) (s : SignState) : Prop where
  psbt_eq : s.psbt = psbt
  signed : s.signed = []
  session : ∀ session, s.session = some session → Guarded session psbt psbt

/-- The answers do not matter to a predicate. -/
def Unanswered (I : SignState → Prop) : Prop := ∀ s answers, I s → I { s with answers }

section Display

variable {I : SignState → Prop} (hI : Unanswered I)

include hI in
theorem throws_display {α : Type} {x : Ui α} (hx : CodedUi x) :
    Throws I SignErr.Coded (display x) := fun s h =>
  (sat_display x).2 ((hx s.answers trivial).mono (fun _ answers _ => hI s answers h)
    (fun _ answers he => ⟨hI s answers h, he.2⟩))

theorem throws_orReject {α : Type} {x : Except SignErr α} (hx : Raises SignErr.Coded x) :
    Throws I SignErr.Coded (orReject x) := fun _ h =>
  (sat_orReject x).2 ⟨fun _ _ => h, fun e he => ⟨h, hx e he⟩⟩

theorem throws_unlessDeclined (errmsg : String) (accepts : Bool) :
    Throws I SignErr.Coded (unlessDeclined errmsg accepts) :=
  Throws.check _ (coded_userCancelled errmsg)

include hI in
/-- The screens of Liquid change nothing but the answers. -/
theorem throws_confirmElements (tx : Tx) (txType : TxType) (info : AdditionalInfo)
    (scan : InputScan) (infos : List OutputInfo) (explicitFee : UInt64) :
    Throws I SignErr.Coded (confirmElements D tx txType info scan infos explicitFee) := by
  have hvalidate : Raises SignErr.Coded
      (validateElementsOutputs txType infos scan.inSums info.outSums) := by
    generalize scan.inSums = inSums
    generalize info.outSums = outSums
    induction infos generalizing inSums outSums with
    | nil => exact Raises.ok _
    | cons out infos ih =>
        unfold validateElementsOutputs
        -- the rest of the turn is the same whether or not the commitment data was asked for
        have hrest : ∀ inSums' outSums' inSums'' outSums'', Raises SignErr.Coded
            (if out.validated then do
              assertThat out.hasUnblinded
              if out.change then validateElementsOutputs txType infos inSums' outSums
              else validateElementsOutputs txType infos inSums outSums'
            else validateElementsOutputs txType infos inSums'' outSums'') := fun _ _ _ _ =>
          Raises.ite ((raises_assertThat _).bind fun _ => Raises.ite (ih _ _) (ih _ _)) (ih _ _)
        exact Raises.ite ((raises_rejectUnless _ _).bind fun _ => hrest _ _ _ _) (hrest _ _ _ _)
  have houtputs : ∀ inSums outSums, Throws I SignErr.Coded
      (confirmElementsOutputs D tx txType info infos inSums outSums) := fun inSums outSums =>
    Throws.ite
      ((throws_display hI (throws_showElementsSwapActivity _ _ _ _ _)).bind fun _ =>
        throws_unlessDeclined _ _)
      ((throws_display hI (throws_showOutputsLoop _ _ _ _ _ _)).bind fun _ =>
        throws_unlessDeclined _ _)
  have hfee : Throws I SignErr.Coded (confirmElementsFee D txType info scan explicitFee) :=
    Throws.ite (Throws.pure _)
      ((throws_display hI (throws_ask _ _)).bind fun _ => throws_unlessDeclined _ _)
  refine (throws_orReject hvalidate).bind fun sums => ?_
  exact (throws_orReject (raises_rejectUnless _ _)).bind fun _ => (houtputs _ _).bind fun _ => hfee

end Display

section Screens

variable {psbt : Psbt}

theorem Undoable.unanswered : Unanswered (Undoable psbt) :=
  fun _ _ h => ⟨h.psbt_eq, h.signed, h.session⟩

/-- Nothing is signed, and a session is open when the PSBT has parts in the extension block. -/
def OpenWhenMweb (psbt : Psbt) (s : SignState) : Prop :=
  Undoable psbt s ∧ (signPsbtHasMwebComponent psbt = true → s.session ≠ none)

/-- Opening a session leaves the PSBT as it was, and what it opens can be taken back. -/
theorem sat_openSession_undoable (network : Network) {s : SignState} (h : Undoable psbt s) :
    Sat (openSession D network) (fun _ => OpenWhenMweb psbt)
      (fun e s' => Undoable psbt s' ∧ e.Coded) s := by
  obtain ⟨hpsbt, hsigned, hsession⟩ := h
  simp only [openSession, sat_bind, sat_get, sat_ite, hpsbt]
  refine ⟨fun _ => ?_, fun hnone => (sat_pure _).2 ⟨⟨hpsbt, hsigned, hsession⟩,
    fun h => absurd h hnone⟩⟩
  rw [sat_onWorld]
  refine (sat_mwebSessionBegin D.env network s.toWorld).mono ?_ ?_
  · rintro _ w ⟨hw, session, hsession, hguard⟩
    refine ⟨⟨hw.trans hpsbt, hsigned, ?_⟩, fun _ => by simp [hsession]⟩
    intro session' hsession'
    obtain rfl : session = session' := by simpa [hsession] using hsession'
    rwa [hpsbt] at hguard
  · rintro e w ⟨hw, hnone⟩
    refine ⟨⟨hw.trans hpsbt, hsigned, ?_⟩, ?_⟩
    · intro session h
      simp [hnone] at h
    · unfold beginError
      split <;> simp

/-- The confirmation of a pegout does not matter to a predicate. -/
def Unmarked (I : SignState → Prop) : Prop :=
  ∀ (s : SignState) (p : ℕ),
    I s → I { s with session := s.session.map (mwebSessionMarkPegoutConfirmed p) }

section Extension

variable {I : SignState → Prop} (hI : Unanswered I)

include hI in
theorem throws_showMwebOutputs (network : Network) (total : ℕ) (outputs : List (PsbtOutput × ℕ))
    (shown : ℕ) :
    Throws I SignErr.Coded (showMwebOutputs D network total outputs shown) := by
  have hscreen : ∀ place output i session,
      Raises SignErr.Coded (mwebOutputScreen network place total output i session) := by
    intro place output i session
    unfold mwebOutputScreen
    split
    · exact Raises.error (coded_badParameters _)
    · split
      · exact Raises.error (coded_badParameters _)
      · split
        · exact Raises.error (coded_internalError _)
        · split
          · exact Raises.error (coded_internalError _)
          · exact Raises.ok _
  induction outputs generalizing shown with
  | nil => exact Throws.pure _
  | cons entry outputs ih =>
      obtain ⟨output, i⟩ := entry
      refine Throws.ite (Throws.get.bind fun s => ?_) (ih shown)
      refine (throws_orReject (hscreen _ _ _ _)).bind fun screen => ?_
      exact (throws_display hI (throws_ask _ _)).bind fun _ =>
        (throws_unlessDeclined _ _).bind fun _ => ih (shown + 1)

include hI in
theorem throws_confirmMweb (hmark : Unmarked I) (network : Network) :
    Throws I SignErr.Coded (confirmMweb D network) := by
  have hpegout : ∀ total pegout p, Throws I SignErr.Coded (showPegout D total pegout p) :=
    fun _ _ p => (throws_display hI (throws_ask _ _)).bind fun _ =>
      (throws_unlessDeclined _ _).bind fun _ => Throws.modify fun s h => hmark s p h
  have hpegin : ∀ session, Throws I SignErr.Coded (showPegin D session) := fun _ =>
    Throws.ite ((throws_display hI (throws_ask _ _)).bind fun _ => throws_unlessDeclined _ _)
      (Throws.pure _)
  refine Throws.get.bind fun s => (throws_showMwebOutputs D hI network _ _ _).bind fun _ => ?_
  refine Throws.get.bind fun s' => ?_
  cases s'.session with
  | none => exact Throws.pure _
  | some session => exact (Throws.forM _ fun entry _ => hpegout _ _ _).bind fun _ => hpegin session

end Extension

/-- A confirmation takes nothing from what an abort needs. -/
theorem Undoable.mark {s : SignState} (h : Undoable psbt s) (p : ℕ) :
    Undoable psbt { s with session := s.session.map (mwebSessionMarkPegoutConfirmed p) } := by
  refine ⟨h.psbt_eq, h.signed, ?_⟩
  intro session hsession
  obtain ⟨session', hsession', rfl⟩ := Option.map_eq_some_iff.1 hsession
  exact (h.session session' hsession').step (.confirmPegout p)

theorem OpenWhenMweb.unanswered : Unanswered (OpenWhenMweb psbt) :=
  fun s answers h => ⟨Undoable.unanswered s answers h.1, h.2⟩

theorem OpenWhenMweb.unmarked : Unmarked (OpenWhenMweb psbt) :=
  fun _ p h => ⟨h.1.mark p, fun hmweb hnone => h.2 hmweb (Option.map_eq_none_iff.1 hnone)⟩

/-- **The checks on the screens of Bitcoin and Litecoin end the run**, and a session is open behind
them when there is anything for it. -/
theorem sat_confirmBtc_undoable (network : Network) (tx : Tx) (scan : InputScan)
    (infos : List OutputInfo) {s : SignState} (h : Undoable psbt s) :
    Sat (confirmBtc D network tx scan infos) (fun _ => OpenWhenMweb psbt)
      (fun e s' => Undoable psbt s' ∧ e.Coded) s := by
  have hfee : ∀ totalInputAmount outputAmount, Throws (OpenWhenMweb psbt) SignErr.Coded
      (confirmFee D tx scan infos totalInputAmount outputAmount) := by
    intro totalInputAmount outputAmount
    refine Throws.get.bind fun s => Throws.bind ?_ fun _ => throws_unlessDeclined _ _
    cases s.session with
    | none =>
        exact throws_display OpenWhenMweb.unanswered (throws_showBtcFeeConfirmationActivity _ _ _ _ _ _)
    | some session => exact throws_display OpenWhenMweb.unanswered (throws_ask _ _)
  have hscreens : ∀ totalInputAmount outputAmount, Throws (OpenWhenMweb psbt) SignErr.Coded (do
      let accepts ← display (showBtcTransactionOutputsActivity D.user tx (some infos))
      unlessDeclined DECLINED_PSBT accepts
      confirmExtension D network
      confirmFee D tx scan infos totalInputAmount outputAmount) := fun _ _ =>
    (throws_display OpenWhenMweb.unanswered (throws_showOutputsLoop _ _ _ _ _ _)).bind fun _ =>
      (throws_unlessDeclined _ _).bind fun _ =>
        (Throws.ite (throws_confirmMweb D OpenWhenMweb.unanswered OpenWhenMweb.unmarked network)
          (Throws.pure _)).bind fun _ => hfee _ _
  rw [confirmBtc, sat_bind, sat_orFault]
  refine ⟨fun outputAmount _ => ?_, fun _ _ => ⟨h, trivial⟩⟩
  rw [sat_bind, sat_check]
  refine ⟨fun _ => ?_, fun _ => ⟨h, by simp⟩⟩
  rw [sat_bind]
  refine (sat_openSession_undoable D network h).mono (fun _ s₁ h₁ => ?_) fun _ _ he => he
  exact (hscreens (scan.inputAmount + scan.mwebInputAmount) outputAmount s₁ h₁).mono
    (fun _ _ h => h) fun _ _ h => ⟨h.1.1, h.2⟩

/-- **The checks on the screens end the run**: their errors carry a code, and until then nothing is
signed. -/
theorem sat_confirm_undoable (network : Network) (tx : Tx) (explicitFee : UInt64) (txType : TxType)
    (info : AdditionalInfo) (scan : InputScan) (infos : List OutputInfo) {s : SignState}
    (h : Undoable psbt s) (hsession : s.session = none) :
    Sat (confirm D network tx explicitFee txType info scan infos)
      (fun _ s' => Undoable psbt s' ∧ (networkIsLiquid network = true → s'.session = none) ∧
        (networkIsLiquid network = false → signPsbtHasMwebComponent psbt = true →
          s'.session ≠ none))
      (fun e s' => Undoable psbt s' ∧ e.Coded) s := by
  cases hliquid : networkIsLiquid network with
  | true =>
      have hI : Unanswered fun s : SignState => Undoable psbt s ∧ s.session = none :=
        fun s answers h => ⟨Undoable.unanswered s answers h.1, h.2⟩
      rw [confirm, if_pos hliquid]
      refine (throws_confirmElements D hI tx txType info scan infos explicitFee s
        ⟨h, hsession⟩).mono (fun _ s' h => ⟨h.1, fun _ => h.2, by simp⟩) fun _ _ h => ⟨h.1.1, h.2⟩
  | false =>
      rw [confirm, if_neg (by simp [hliquid])]
      exact (sat_confirmBtc_undoable D network tx scan infos h).mono
        (fun _ s' h => ⟨h.1, by simp, fun _ => h.2⟩) fun _ _ h => h

end Screens

/-! ### What signatures on Liquid commit to -/

theorem SigningFlags.any_of_kind {flags : SigningFlags}
    (h : flags.singlesig || flags.multisig || flags.greenMultisig) : flags.any = true := by
  rw [SigningFlags.any, bne_iff_ne]
  rintro rfl
  simp at h

/-- Looking for the record changes no flag that says what is signed. -/
theorem scanInputRecord_kind {network : Network} {forLiquid : Bool} {flags flags' : SigningFlags}
    {record record' : Option SuitableRecord} {iter : KeyIter K} {script : Bytes}
    (h : scanInputRecord D network forLiquid flags record iter script = .ok (flags', record')) :
    (flags'.singlesig || flags'.multisig || flags'.greenMultisig) =
      (flags.singlesig || flags.multisig || flags.greenMultisig) := by
  cases (scanInputRecord_iff D).1 h <;> rfl

/-- An input is only flagged for signing together with a kind of signing. -/
def Flagged (scan : InputScan) : Prop :=
  (∃ sigType, some sigType ∈ scan.sigTypes) → scan.flags.any = true

/-- An input with a key of the wallet is flagged together with a kind of signing. -/
theorem flagged_scanOwnInput {network : Network} {txType : TxType} {isPartial : Bool} {psbt : Psbt}
    {scan scan' : InputScan} {input : PsbtInput} {index : ℕ} {script : Bytes} {iter : KeyIter K}
    (h : scanOwnInput D network txType isPartial psbt scan input index script iter = .ok scan') :
    Flagged scan' := by
  have hkind : ∀ flags, ((scanInputFlags D network flags iter).singlesig ||
      (scanInputFlags D network flags iter).multisig ||
      (scanInputFlags D network flags iter).greenMultisig) = true := by
    intro flags
    unfold scanInputFlags
    split
    · split <;> simp
    · simp
  rw [scanOwnInput] at h
  obtain ⟨inSums, -, h⟩ := bind_eq_ok.1 h
  obtain ⟨sigType, -, h⟩ := bind_eq_ok.1 h
  obtain ⟨_, -, h⟩ := bind_eq_ok.1 h
  obtain ⟨_, -, h⟩ := bind_eq_ok.1 h
  obtain ⟨flavour, -, h⟩ := bind_eq_ok.1 h
  obtain ⟨⟨flags, record⟩, hrecord, h⟩ := bind_eq_ok.1 h
  obtain rfl := pure_eq_ok.1 h
  intro _
  refine SigningFlags.any_of_kind ?_
  cases hscan : scanInputRecord D network (networkIsLiquid network)
      (scanInputFlags D network scan.flags iter) scan.record iter script with
  | error f => simp [hscan, liftFault] at hrecord
  | ok r =>
      obtain rfl : r = (flags, record) := by simpa [hscan, liftFault] using hrecord
      rw [scanInputRecord_kind D hscan]
      exact hkind scan.flags

/-- One turn of the loop: an input is flagged only where a kind of signing is. -/
theorem flagged_scanInput {network : Network} {txType : TxType} {isPartial : Bool} {psbt : Psbt}
    {scan scan' : InputScan} {input : PsbtInput} {index : ℕ} (hscan : Flagged scan)
    (h : scanInput D network txType isPartial psbt scan input index = .ok scan') :
    Flagged scan' := by
  -- an input that is not signed leaves the flags alone
  have hskip : ∀ {scan₁ : InputScan}, scan₁.flags = scan.flags →
      scan₁.sigTypes = scan.sigTypes ++ [none] → Flagged scan₁ := by
    intro scan₁ hflags hsig
    rintro ⟨sigType, hmem⟩
    rw [hsig] at hmem
    rw [hflags]
    exact hscan ⟨sigType, by simpa using hmem⟩
  have hadd : (scan.addMwebAmount input).flags = scan.flags ∧
      (scan.addMwebAmount input).sigTypes = scan.sigTypes := by
    unfold InputScan.addMwebAmount
    split <;> exact ⟨rfl, rfl⟩
  rw [scanInput] at h
  split at h
  · simp only [scanMwebInput] at h
    split at h
    · obtain rfl := Except.ok.inj h
      exact hskip hadd.1 rfl
    · split at h
      · obtain rfl := Except.ok.inj h
        exact hskip hadd.1 rfl
      · obtain ⟨_, -, h⟩ := bind_eq_ok.1 h
        obtain rfl := pure_eq_ok.1 h
        exact hskip hadd.1 rfl
  · unfold scanStdInput at h
    cases hutxo : input.bestUtxo with
    | none =>
        rw [hutxo] at h
        cases h
    | some utxo =>
        simp only [hutxo] at h
        obtain ⟨iter, -, h⟩ := bind_eq_ok.1 h
        have hamount : ∀ scan₀ : InputScan, scan₀ = (if networkIsLiquid network then scan
            else { scan with inputAmount := scan.inputAmount + utxo.satoshi }) →
            scan₀.flags = scan.flags ∧ scan₀.sigTypes = scan.sigTypes := by
          rintro _ rfl
          split <;> exact ⟨rfl, rfl⟩
        obtain ⟨hflags, hsig⟩ := hamount _ rfl
        cases iter with
        | none =>
            obtain rfl := pure_eq_ok.1 h
            exact hskip hflags (congrArg (· ++ [none]) hsig)
        | some iter => exact flagged_scanOwnInput D h

theorem flagged_scanInputs {network : Network} {txType : TxType} {info : AdditionalInfo}
    {psbt : Psbt} {scan : InputScan} (h : scanInputs D network txType info psbt = .ok scan) :
    Flagged scan := by
  refine foldlM_zipIdx_eq_ok (fun _ scan => Flagged scan) psbt.inputs ?_ ?_ h
  · rintro pre input _ scan₀ scan₁ - hpre hstep
    exact flagged_scanInput D hpre hstep
  · rintro ⟨_, hmem⟩
    simp at hmem

/-- What a signature commits to, when there is one. -/
def CommitsTo (network : Network) (s : SignState) : Prop :=
  s.session = none ∧
    (s.signed ≠ [] → s.psbt.genesisBlockhash = networkToGenesisHash network)

/-- Signing an input leaves the genesis block hash alone. -/
theorem keeps_signInput_genesis {genesis : Option Bytes} (forLiquid : Bool) (tx : Tx)
    (sigType : Option SigType) (index : ℕ) :
    Keeps (fun s : SignState => s.session = none ∧ s.psbt.genesisBlockhash = genesis)
      (signInput D forLiquid tx sigType index) := by
  cases sigType with
  | none => exact Keeps.pure _
  | some sigType =>
      rintro s ⟨hsession, hgenesis⟩
      simp only [signInput, sat_bind, sat_get]
      split
      · simp only [sat_bind, sat_orFault]
        refine ⟨fun iters _ => ?_, fun _ _ => ⟨hsession, hgenesis⟩⟩
        refine Keeps.forM iters (fun iter _ => ?_) s ⟨hsession, hgenesis⟩
        rintro s ⟨hsession, hgenesis⟩
        simp only [signWithKey, sat_bind, sat_get]
        split
        · exact (sat_throw _).2 ⟨hsession, hgenesis⟩
        · exact (sat_set _).2 ⟨by simp [SessionStep.run, hsession], hgenesis⟩
      · exact (sat_throw _).2 ⟨hsession, hgenesis⟩

/-- **The signatures of Liquid** are made over a PSBT that holds the genesis block hash of the network,
when it came without one or with that one. -/
theorem sat_signInputs_genesis {network : Network} (hliquid : networkIsLiquid network = true)
    (tx : Tx) {scan : InputScan} (hscan : Flagged scan) {s : SignState} (hsession : s.session = none)
    (hsigned : s.signed = []) (hgenesis : s.psbt.genesisBlockhash = none ∨
      s.psbt.genesisBlockhash = networkToGenesisHash network) :
    Sat (signInputs D network tx scan) (fun _ => CommitsTo network) (fun _ => CommitsTo network) s := by
  simp only [signInputs, provideGenesis, sat_bind, sat_get]
  by_cases hany : scan.flags.any = true
  · -- the hash is in place before the loop, and stays
    have hloop : Keeps (fun s : SignState => s.session = none ∧
        s.psbt.genesisBlockhash = networkToGenesisHash network)
        (scan.sigTypes.zipIdx.forM fun entry =>
          signInput D (networkIsLiquid network) tx entry.1 entry.2) :=
      Keeps.forM _ fun entry _ => keeps_signInput_genesis D _ tx entry.1 entry.2
    have hstart : ∀ s₁ : SignState, s₁.session = none →
        s₁.psbt.genesisBlockhash = networkToGenesisHash network →
        Sat (scan.sigTypes.zipIdx.forM fun entry =>
          signInput D (networkIsLiquid network) tx entry.1 entry.2) (fun _ => CommitsTo network)
          (fun _ => CommitsTo network) s₁ := fun s₁ h₁ h₂ =>
      (hloop s₁ ⟨h₁, h₂⟩).mono (fun _ _ h => ⟨h.1, fun _ => h.2⟩) (fun _ _ h => ⟨h.1, fun _ => h.2⟩)
    refine sat_ite.2 ⟨fun _ => (sat_modify _).2 (hstart _ hsession rfl), fun hnone => ?_⟩
    refine (sat_pure _).2 (hstart _ hsession ?_)
    rcases hgenesis with h | h
    · simp [hany, hliquid, h] at hnone
    · exact h
  · -- there is nothing to sign
    have hnone : ∀ sigType ∈ scan.sigTypes, sigType = none := by
      intro sigType hmem
      by_contra hsome
      obtain ⟨t, rfl⟩ := Option.ne_none_iff_exists'.1 hsome
      exact hany (hscan ⟨t, hmem⟩)
    have hloop : Keeps (CommitsTo network) (scan.sigTypes.zipIdx.forM fun entry =>
        signInput D (networkIsLiquid network) tx entry.1 entry.2) := by
      refine Keeps.forM _ fun entry hmem => ?_
      obtain ⟨sigType, index⟩ := entry
      obtain rfl := hnone sigType (List.fst_mem_of_mem_zipIdx hmem)
      exact Keeps.pure _
    rw [if_neg (by simp [hany])]
    exact (sat_pure _).2 (hloop s ⟨hsession, fun h => absurd hsigned h⟩)

/-! ### The whole run -/

/-- A check before the screens or a screen ends the run from `s`. -/
def Rejected (network : Network) (additional : Option AdditionalInfo) (s : SignState) : Prop :=
  (∃ code errmsg, prepare D network additional s.psbt = .error (.reject code errmsg)) ∨
    ∃ p code errmsg s₁, prepare D network additional s.psbt = .ok p ∧
      (confirm D network p.tx p.explicitFee p.txType p.info p.scan p.infos).run s =
        .error (.reject code errmsg) s₁

/-- **What a message that is in place must lead to**: a code that is not zero, and inputs to which
no signature was added; before the first signature the whole PSBT is untouched.  Every signature of a
taproot input of Liquid commits to the genesis block hash of the network. -/
structure ChecksBind (network : Network) (additional : Option AdditionalInfo) (s : SignState)
    (r : SignResult) (s' : SignState) : Prop where
  failed : r.errmsg ≠ none → r.retval ≠ 0 ∧ s'.psbt.inputs = s.psbt.inputs
  rejected : Rejected D network additional s →
    r.errmsg ≠ none ∧ s'.psbt = s.psbt ∧ s'.signed = []
  genesis : networkIsLiquid network = true → ∀ index, (index, SigType.swV1) ∈ s'.signed →
    s'.psbt.genesisBlockhash = networkToGenesisHash network

/-- The PSET carries no genesis block hash, or that of the network. -/
def GenesisAgrees (network : Network) (psbt : Psbt) : Prop :=
  D.psbtIsElements psbt = true → ∀ genesis, psbt.genesisBlockhash = some genesis →
    networkToGenesisHash network = some genesis

theorem genesisMessage_eq_none_iff (network : Network) (psbt : Psbt) :
    genesisMessage D network psbt = none ↔ GenesisAgrees D network psbt := by
  unfold genesisMessage GenesisAgrees
  cases D.psbtIsElements psbt with
  | false => simp
  | true =>
      cases psbt.genesisBlockhash with
      | none => simp
      | some genesis => simp [eq_comm]

/-- What is jumped out of while nothing is signed can be taken back as a whole. -/
theorem Undoable.abort_eq {psbt : Psbt} {s : SignState} (h : Undoable psbt s) :
    (mwebSessionAbort s.toWorld).psbt = psbt := by
  cases hsession : s.session with
  | none =>
      simp only [mwebSessionAbort, hsession]
      exact h.psbt_eq
  | some session =>
      have hguard := h.session session hsession
      rw [← h.psbt_eq] at hguard
      rw [(abort_of_guarded (w := s.toWorld) hsession hguard).2.2 rfl, h.psbt_eq]

theorem Undoable.restorable {psbt : Psbt} {s : SignState} (h : Undoable psbt s) :
    Restorable psbt s := congrArg Psbt.inputs h.abort_eq

/-- The label `cleanup` aborts the session. -/
theorem sat_cleanup (code : ℤ) (errmsg : String) {Q : Unit → SignState → Prop} (s : SignState) :
    Sat (cleanup (.reject code errmsg)) Q
      (fun e s' => e = .reject code errmsg ∧ s' = { s with toWorld := mwebSessionAbort s.toWorld })
      s := by
  simp only [cleanup, sat_bind, sat_modify, sat_throw, true_and]

/-- The label `cleanup` changes nothing when no session is open. -/
theorem keeps_cleanup (network : Network) (e : SignErr) : Keeps (CommitsTo network) (cleanup e) := by
  cases e with
  | fault f => exact Keeps.throw _
  | reject code errmsg =>
      refine (Keeps.modify ?_).bind fun _ => Keeps.throw _
      rintro s ⟨hsession, hgenesis⟩
      simp only [mwebSessionAbort, hsession]
      exact ⟨hsession, hgenesis⟩

/-- From the screens to the end on Liquid. -/
theorem sat_confirmAndSign_liquid {network : Network} (hliquid : networkIsLiquid network = true)
    {p : Prepared} (hflagged : Flagged p.scan) {s : SignState} (hsession : s.session = none)
    (hsigned : s.signed = []) (hgenesis : s.psbt.genesisBlockhash = none ∨
      s.psbt.genesisBlockhash = networkToGenesisHash network) :
    Sat (confirmAndSign D network p.tx p.explicitFee p.txType p.info p.scan p.infos)
      (fun _ => CommitsTo network) (fun _ => CommitsTo network) s := by
  let I : SignState → Prop := fun s' => s'.session = none ∧ s'.signed = [] ∧ s'.psbt = s.psbt
  have hI : Unanswered I := fun _ _ h => h
  have hcommits : ∀ s', I s' → CommitsTo network s' := fun s' h => ⟨h.1, fun hne => absurd h.2.1 hne⟩
  have hconfirm : Throws I SignErr.Coded
      (confirm D network p.tx p.explicitFee p.txType p.info p.scan p.infos) := by
    rw [confirm, if_pos hliquid]
    exact throws_confirmElements D hI p.tx p.txType p.info p.scan p.infos p.explicitFee
  have hnote : Keeps I (noteNothingToSign p.scan) :=
    Keeps.ite (Keeps.modify fun s h => hI s _ h) (Keeps.pure _)
  have hcommit : Keeps (CommitsTo network) (commitSession D) := by
    rintro s ⟨hsession, hgenesis⟩
    simp only [commitSession, sat_bind, sat_get, hsession]
    exact (sat_pure _).2 ⟨hsession, hgenesis⟩
  simp only [confirmAndSign, sat_bind]
  refine (hconfirm s ⟨hsession, hsigned, rfl⟩).mono ?_ (fun _ s' h => hcommits s' h.1)
  intro _ s₁ h₁
  refine (hnote s₁ h₁).mono ?_ (fun _ s' h => hcommits s' h)
  rintro _ s₂ ⟨hsession₂, hsigned₂, hpsbt₂⟩
  refine (sat_signInputs_genesis D hliquid p.tx hflagged hsession₂ hsigned₂ ?_).mono ?_
    (fun _ _ h => h)
  · rw [hpsbt₂]
    exact hgenesis
  · exact fun _ s₃ h₃ => hcommit s₃ h₃

/-- From the screens to the end: an error carries a code, and what was done can be taken back. -/
theorem sat_confirmAndSign_checks (hD : SigningLawful D) {network : Network}
    {additional : Option AdditionalInfo} {p : Prepared} {s : SignState}
    (hp : prepare D network additional s.psbt = .ok p) (hsession : s.session = none)
    (hsigned : s.signed = []) (huniform : SigningUniform D network s.psbt) :
    Sat (confirmAndSign D network p.tx p.explicitFee p.txType p.info p.scan p.infos)
      (fun _ _ => ¬ Rejected D network additional s)
      (fun e s' => (∃ code errmsg, e = .reject code errmsg) →
        (¬ Rejected D network additional s ∨ Undoable s.psbt s') ∧ e.Coded ∧ Restorable s.psbt s')
      s := by
  have hstart : Undoable s.psbt s := ⟨rfl, hsigned, by simp [hsession]⟩
  have hprepared := preparedFrom_of_prepare D hp
  have hconfirm := sat_confirm_undoable D network p.tx p.explicitFee p.txType p.info p.scan p.infos
    hstart hsession
  rw [confirmAndSign, sat_bind]
  refine (hconfirm.and (sat_self _ _)).mono ?_ ?_
  · rintro _ s₁ ⟨⟨hundo, hliquid, hopen⟩, hrun⟩
    have hnot : ¬ Rejected D network additional s := by
      rintro (⟨code, errmsg, h⟩ | ⟨p', code, errmsg, s', hp', h⟩)
      · simp [hp] at h
      · obtain rfl : p = p' := by simpa [hp] using hp'
        rw [hrun] at h
        cases h
    have hflagged : p.scan.flags.any = false → ∀ sigType ∈ p.scan.sigTypes, sigType = none := by
      intro hany sigType hmem
      by_contra hsome
      obtain ⟨t, rfl⟩ := Option.ne_none_iff_exists'.1 hsome
      rw [flagged_scanInputs D hprepared.scan ⟨t, hmem⟩] at hany
      cases hany
    have hsign : ∀ s₂ : SignState, s₂.psbt = s₁.psbt → s₂.session = s₁.session →
        Sat (do signInputs D network p.tx p.scan; commitSession D)
          (fun _ _ => ¬ Rejected D network additional s)
          (fun e s' => (∃ code errmsg, e = .reject code errmsg) →
            (¬ Rejected D network additional s ∨ Undoable s.psbt s') ∧ e.Coded ∧
              Restorable s.psbt s') s₂ := by
      intro s₂ hpsbt₂ hsession₂
      refine (sat_signAndCommit hD hprepared.scan hprepared.tx hflagged huniform
        (hpsbt₂.trans hundo.psbt_eq) ?_ ?_ ?_).mono (fun _ _ _ => hnot)
          fun _ _ h hreject => ⟨.inl hnot, h hreject⟩
      · rw [hsession₂]
        exact hundo.session
      · rw [hsession₂]
        exact hliquid
      · rw [hsession₂]
        exact hopen
    rw [sat_bind, noteNothingToSign, sat_ite]
    exact ⟨fun _ => (sat_modify _).2 (hsign _ rfl rfl), fun _ => (sat_pure _).2 (hsign _ rfl rfl)⟩
  · rintro e s₁ ⟨⟨hundo, hcoded⟩, -⟩ -
    exact ⟨.inr hundo, hcoded, hundo.restorable⟩

/-- The signatures of a run commit to the right genesis block hash. -/
theorem sat_confirmAndSign_genesis {network : Network} {additional : Option AdditionalInfo}
    {p : Prepared} {s : SignState} (hp : prepare D network additional s.psbt = .ok p)
    (hsession : s.session = none) (hsigned : s.signed = [])
    (hagrees : GenesisAgrees D network s.psbt) (hliquid : networkIsLiquid network = true) :
    Sat (confirmAndSign D network p.tx p.explicitFee p.txType p.info p.scan p.infos)
      (fun _ => CommitsTo network) (fun _ => CommitsTo network) s := by
  have hprepared := preparedFrom_of_prepare D hp
  refine sat_confirmAndSign_liquid D hliquid (flagged_scanInputs D hprepared.scan) hsession hsigned
    ?_
  cases hhash : s.psbt.genesisBlockhash with
  | none => exact .inl rfl
  | some genesis =>
      exact .inr (hagrees (hprepared.elements.trans hliquid) genesis hhash).symm

/-- A run of `sign_psbt` that ends with an error returns a code and adds no signature; when a check
or a screen rejects, nothing is touched. -/
theorem sat_signPsbt_checks (hD : SigningLawful D) (network : Network)
    (additional : Option AdditionalInfo) {s : SignState} (hsession : s.session = none)
    (hsigned : s.signed = []) (huniform : SigningUniform D network s.psbt) :
    Sat (signPsbt D network additional) (fun _ _ => ¬ Rejected D network additional s)
      (fun e s' => (∃ code errmsg, e = .reject code errmsg) →
        (Rejected D network additional s → s'.psbt = s.psbt ∧ s'.signed = []) ∧
          e.Coded ∧ s'.psbt.inputs = s.psbt.inputs) s := by
  simp only [signPsbt, sat_bind, sat_get, sat_orReject]
  refine ⟨fun p hp => ?_, fun e he _ =>
    ⟨fun _ => ⟨trivial, hsigned⟩, raises_prepare D network additional s.psbt e he, trivial⟩⟩
  rw [sat_tryCatch]
  refine (sat_confirmAndSign_checks D hD hp hsession hsigned huniform).mono (fun _ _ h => h) ?_
  intro e s₁ h
  cases e with
  | fault f => exact (sat_throw _).2 (by rintro ⟨_, _, h⟩; cases h)
  | reject code errmsg =>
      obtain ⟨hundo, hcoded, hrestorable⟩ := h ⟨code, errmsg, rfl⟩
      refine (sat_cleanup code errmsg (Q := fun _ _ => False) s₁).mono (fun _ _ h => h.elim) ?_
      rintro _ _ ⟨rfl, rfl⟩ -
      refine ⟨fun hrejected => ?_, hcoded, hrestorable⟩
      have hundo' := hundo.resolve_left fun hnot => hnot hrejected
      exact ⟨hundo'.abort_eq, hundo'.signed⟩

theorem sat_signPsbt_genesis (network : Network) (additional : Option AdditionalInfo)
    {s : SignState} (hsession : s.session = none) (hsigned : s.signed = [])
    (hagrees : GenesisAgrees D network s.psbt) (hliquid : networkIsLiquid network = true) :
    Sat (signPsbt D network additional) (fun _ => CommitsTo network) (fun _ => CommitsTo network)
      s := by
  have hnothing : CommitsTo network s := ⟨hsession, fun h => absurd hsigned h⟩
  simp only [signPsbt, sat_bind, sat_get, sat_orReject]
  refine ⟨fun p hp => ?_, fun _ _ => hnothing⟩
  rw [sat_tryCatch]
  exact (sat_confirmAndSign_genesis D hp hsession hsigned hagrees hliquid).mono (fun _ _ h => h)
    fun e s₁ h => keeps_cleanup network e s₁ h

/-- The message of the genesis check stays, or is overwritten. -/
theorem sat_errmsg (network : Network) (additional : Option AdditionalInfo) (s : SignState) :
    Sat (signPsbtResult D network additional)
      (fun r _ => r.errmsg = none → genesisMessage D network s.psbt = none) (fun _ _ => True) s := by
  simp only [signPsbtResult, sat_bind, sat_get, sat_tryCatch, sat_pure]
  refine sat_of_forall (fun _ _ h => h) fun e s' => ?_
  cases e with
  | fault f => exact (sat_throw _).2 trivial
  | reject code errmsg => exact (sat_pure _).2 (by simp)

/-- **No run signs after a failed check, but for two defects**: what a message that is in place must
lead to holds of every run on a PSBT that carries no genesis block hash or the right one, and whose
signatures can all be made when the first one can, unless a session takes them back; and it fails in
every run that returns without an error on a PSET with another hash. -/
theorem failed_check_never_signs (hD : SigningLawful D) (network : Network)
    (additional : Option AdditionalInfo) (psbt : Psbt) (tape : Tape) (r : SignResult)
    (s' : SignState)
    (hrun : (signPsbtResult D network additional).run (.start psbt tape) = .ok r s') :
    (GenesisAgrees D network psbt → SigningUniform D network psbt →
      ChecksBind D network additional (.start psbt tape) r s') ∧
    (r.retval = 0 → ChecksBind D network additional (.start psbt tape) r s' →
      GenesisAgrees D network psbt) := by
  constructor
  · intro hagrees huniform
    have hmessage := (genesisMessage_eq_none_iff D network psbt).2 hagrees
    have hrun' : Sat (signPsbtResult D network additional)
        (fun r s' => (r.errmsg ≠ none → r.retval ≠ 0 ∧ s'.psbt.inputs = psbt.inputs) ∧
          (Rejected D network additional (.start psbt tape) →
            r.errmsg ≠ none ∧ s'.psbt = psbt ∧ s'.signed = [])) (fun _ _ => True)
        (.start psbt tape) := by
      simp only [signPsbtResult, sat_bind, sat_get, sat_tryCatch, sat_pure, SignState.start_psbt,
        hmessage]
      refine (sat_signPsbt_checks D hD network additional rfl rfl huniform).mono ?_ ?_
      · intro _ s₁ hnot
        exact ⟨fun h => absurd rfl h, fun h => absurd h hnot⟩
      · intro e s₁ h
        cases e with
        | fault f => exact (sat_throw _).2 trivial
        | reject code errmsg =>
            obtain ⟨hrejected, hcoded, hinputs⟩ := h ⟨code, errmsg, rfl⟩
            exact (sat_pure _).2 ⟨fun _ => ⟨hcoded, hinputs⟩, fun h => ⟨by simp, hrejected h⟩⟩
    obtain ⟨hfailed, hrejected⟩ := hrun'.ok hrun
    refine ⟨hfailed, hrejected, fun hliquid index hmem => ?_⟩
    have hgenesis : Sat (signPsbtResult D network additional) (fun _ => CommitsTo network)
        (fun _ _ => True) (.start psbt tape) := by
      simp only [signPsbtResult, sat_bind, sat_get, sat_tryCatch, sat_pure]
      refine (sat_signPsbt_genesis D network additional rfl rfl hagrees hliquid).mono
        (fun _ _ h => h) fun e s₁ h => ?_
      cases e with
      | fault f => exact (sat_throw _).2 trivial
      | reject code errmsg => exact (sat_pure _).2 h
    exact (hgenesis.ok hrun).2 (List.ne_nil_of_mem hmem)
  · intro hzero hbinds
    rw [← genesisMessage_eq_none_iff]
    have hmessage := (sat_errmsg D network additional (.start psbt tape)).ok hrun
    by_contra hset
    exact (hbinds.failed fun hnone => hset (hmessage hnone)).1 hzero

end Model

/-! ### A PSET of another network, and an input that has no hash -/

/-- A device for Liquid; it takes the fields of an output of the transaction from the PSET. -/
def liquidDevice : Device Unit Pair :=
  { pairDevice with
    psbtIsElements := fun _ => true
    txIsElements := fun _ => true
    psbtExtract := fun psbt => some {
      inputs := psbt.inputs.map fun input => { txhash := input.mwebSpentOutputId, index := 0 }
      outputs := psbt.outputs.map fun output => {
        satoshi := 0
        script := output.script
        asset := WALLY_TX_ASSET_CT_EXPLICIT_PREFIX :: output.asset
        value := WALLY_TX_ASSET_CT_EXPLICIT_PREFIX :: Bytes.ofNatBE 8 (output.amount.getD 0).toNat } } }

/-- A device for Bitcoin that can hash the first input only. -/
def firstHashDevice : Device Unit Pair :=
  { pairDevice with
    getInputSignatureHash := fun _ i _ => if i = 0 then some (List.replicate 32 0) else none }

/-- A device that signs as `pairDevice` does, and whose hashes depend on the index alone, is lawful. -/
theorem signingLawful_of_index {D : Device Unit Pair} (hash : ℕ → Option Bytes)
    (hhash : ∀ psbt i tx, D.getInputSignatureHash psbt i tx = hash i)
    (hsign : D.signInputBip32 = pairDevice.signInputBip32) : SigningLawful D where
  root psbt i k txhash key forLiquid sig input hsig hinput := by
    simp only [hsign, pairDevice, hinput, Option.bind_eq_bind, Option.bind_some, Option.pure_def,
      Option.some.injEq] at hsig
    rw [← hsig]
  hash psbt i k txhash key forLiquid sig j tx _ := by rw [hhash, hhash]
  sign psbt i k txhash key forLiquid sig j k' txhash' key' _ := by
    simp only [hsign, pairDevice, InputSignature.write, SessionStep.onPsbt, List.getElem?_modify]
    cases psbt.inputs[j]? <;> rfl

theorem signingLawful_liquidDevice : SigningLawful liquidDevice :=
  signingLawful_of_index (fun _ => some (List.replicate 32 0)) (fun _ _ _ => rfl) rfl

/-- A PSET that pays a fee of 5 from a taproot input of the wallet and carries a genesis block hash. -/
def feePset (genesis : Option Bytes) : Psbt where
  genesisBlockhash := genesis
  inputs := [
    { bestUtxo := some { satoshi := 5, script := 0x51 :: 32 :: List.replicate 32 7 }
      taprootLeafPaths := [⟨2 :: List.replicate 32 1, [1, 2, 3, 4], [0, 0]⟩] }]
  outputs := [
    { amount := some 5
      asset := ((networkToPolicyAsset .liquid).getD []).reverse }]

/-- A payment of 5 from two inputs of the wallet. -/
def twoInputPsbt : Psbt where
  version := 0
  tx := some {
    inputs := [{ txhash := [1], index := 0 }, { txhash := [2], index := 0 }]
    outputs := [{ satoshi := 5, script := segwitScript }] }
  inputs := List.replicate 2
    { bestUtxo := some { satoshi := 7, script := segwitScript }
      keypaths := [⟨2 :: List.replicate 32 1, [1, 2, 3, 4], [0, 0]⟩] }
  outputs := [{ amount := some 5, script := segwitScript }]

/-- What a run returns: its result, the signatures, and how many signatures each input holds. -/
def resultOf (D : Device Unit Pair) (network : Network) (psbt : Psbt) :
    Option (SignResult × List (ℕ × SigType) × List ℕ) :=
  match (signPsbtResult D network none).run (.start psbt plainTape) with
  | .ok r s' => some (r, s'.signed, s'.psbt.inputs.map fun input => input.signatures.items.length)
  | .error _ _ => none

theorem exists_run_of_resultOf {D : Device Unit Pair} {network : Network} {psbt : Psbt}
    {r : SignResult} {signed : List (ℕ × SigType)} {counts : List ℕ}
    (h : resultOf D network psbt = some (r, signed, counts)) :
    ∃ s', (signPsbtResult D network none).run (.start psbt plainTape) = .ok r s' ∧
      s'.signed = signed ∧
      (s'.psbt.inputs.map fun input => input.signatures.items.length) = counts := by
  unfold resultOf at h
  cases hrun : (signPsbtResult D network none).run (.start psbt plainTape) with
  | error e s' => simp [hrun] at h
  | ok r' s' =>
      simp only [hrun, Option.some.injEq, Prod.mk.injEq] at h
      exact ⟨s', by rw [h.1], h.2.1, h.2.2⟩

/-- A PSET without the hash is signed with that of the network. -/
theorem failed_check_never_signs_feePset : ∃ r s',
    (signPsbtResult liquidDevice .liquid none).run (.start (feePset none) plainTape) = .ok r s' ∧
      ChecksBind liquidDevice .liquid none (.start (feePset none) plainTape) r s' ∧
      (0, SigType.swV1) ∈ s'.signed := by
  have hresult : resultOf liquidDevice .liquid (feePset none) =
      some (⟨0, none⟩, [(0, .swV1)], [1]) := by decide +kernel
  obtain ⟨s', hrun, hsigned, -⟩ := exists_run_of_resultOf hresult
  refine ⟨_, s', hrun, ?_, by simp [hsigned]⟩
  refine (failed_check_never_signs liquidDevice signingLawful_liquidDevice .liquid none
    (feePset none) _ _ s' hrun).1 ?_ (.inr fun tx _ _ => ?_)
  · rintro - genesis h
    simp [feePset] at h
  · -- the attempts do not look at the transaction
    have hattempts : signAttempts liquidDevice .liquid tx (feePset none) = [true] := by
      have hsame : signAttempts liquidDevice .liquid tx (feePset none) =
          signAttempts liquidDevice .liquid {} (feePset none) := rfl
      rw [hsame]
      decide +kernel
    simp [hattempts]

/-- A PSET with the hash of another chain leaves a message, and is signed for that chain; and when the
second input cannot be hashed, the signature of the first one stays. -/
theorem failed_check_never_signs_fails :
    (∃ r s', (signPsbtResult liquidDevice .liquid none).run
        (.start (feePset (some (List.replicate 32 0))) plainTape) = .ok r s' ∧
      ¬ ChecksBind liquidDevice .liquid none
        (.start (feePset (some (List.replicate 32 0))) plainTape) r s') ∧
    ∃ r s', (signPsbtResult firstHashDevice .bitcoin none).run (.start twoInputPsbt plainTape) =
        .ok r s' ∧
      ¬ ChecksBind firstHashDevice .bitcoin none (.start twoInputPsbt plainTape) r s' := by
  constructor
  · have hresult : resultOf liquidDevice .liquid (feePset (some (List.replicate 32 0))) =
        some (⟨0, some "Network/pset genesis mismatch"⟩, [(0, .swV1)], [1]) := by decide +kernel
    obtain ⟨s', hrun, -⟩ := exists_run_of_resultOf hresult
    exact ⟨_, s', hrun, fun h => (h.failed (by simp)).1 rfl⟩
  · have hresult : resultOf firstHashDevice .bitcoin twoInputPsbt =
        some (⟨CBOR_RPC_INTERNAL_ERROR, some "Failed to generate tx input hash"⟩, [(0, .swV0)],
          [1, 0]) := by decide +kernel
    obtain ⟨s', hrun, -, hcounts⟩ := exists_run_of_resultOf hresult
    refine ⟨_, s', hrun, fun h => ?_⟩
    have hinputs := (h.failed (by simp)).2
    rw [hinputs] at hcounts
    revert hcounts
    decide

end Jade
