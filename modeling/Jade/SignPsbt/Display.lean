/-
**What the user is shown (`ui/sign_tx.c`, `sign_utils.c`).**

Before anything is signed the user walks through screens: one for each output, one for each asset of a
swap, one for the fee.  A screen is kept here with the data it renders; the user is any function that
answers a screen, given everything shown before it.  The device keeps no record of the answers, but
the model does: the state of a display program is the list of the screens answered so far.

Main definitions:

* `Jade.Screen`, `Jade.Ui`, `Jade.ask` — screens, display programs, one question;
* `Jade.displayOutput`, `Jade.displayableOutputs` — which outputs are shown;
* `Jade.showTransactionOutputs` — the loop over the outputs, with
  `Jade.showBtcTransactionOutputsActivity` and `Jade.showElementsTransactionOutputsActivity`;
* `Jade.showElementsSwapActivity`, `Jade.showBtcFeeConfirmationActivity` — summaries and fees.

Main results:

* `Jade.sat_askAll` — all of a list of screens are accepted, or the last one shown is refused;
* `Jade.sat_showTransactionOutputs` — the outputs accepted are the outputs displayed.
-/

import Jade.SignPsbt.Change
import Jade.Utils.Handler

set_option relaxedAutoImplicit false
set_option autoImplicit false

namespace Jade

open Exec

/-! ### Screens -/

/-- What a screen renders.  A place in a list is counted from 1. -/
inductive Screen
  | output (place total : ℕ) (isWalletOutput : Bool) (script : Bytes) (satoshi : UInt64)
      (warning : Option String)
  | elementsOutput (place total : ℕ) (isWalletOutput : Bool) (script : Bytes)
      (blindingKey : Option Bytes) (assetId : Bytes) (value : UInt64) (warning : Option String)
  | assetSummary (title direction : String) (place total : ℕ) (assetId : Bytes) (value : UInt64)
      (warning : Option String)
  | mwebOutput (place total : ℕ) (payload : Bytes) (address : List Char) (amount : UInt64)
  | pegout (place total : ℕ) (script : Bytes) (scriptLen amount : UInt64)
  | pegin (amount : UInt64)
  | fee (title : String) (fee : UInt64) (warning : Option String)
  | nothingToSign
  deriving DecidableEq

/-- The screens answered so far, oldest first. -/
abbrev Answers : Type := List (Screen × Bool)

/-- A user: the answer to a screen, given what came before it. -/
abbrev User : Type := Answers → Screen → Bool

/-- A display program. -/
abbrev Ui : Type → Type := EStateM SignErr Answers

section Model

variable (user : User)

/-- `show_input_output_activity` and the screens like it: show, and wait for the answer. -/
def ask (screen : Screen) : Ui Bool := do
  let answers ← get
  set (answers ++ [(screen, user answers screen)])
  pure (user answers screen)

/-- One screen after the other, until one is refused. -/
def askAll : List Screen → Ui Bool
  | [] => pure true
  | screen :: screens => do
      if ← ask user screen then askAll screens else pure false

@[simp] theorem sat_ask {Q : Bool → Answers → Prop} {E : SignErr → Answers → Prop} {log : Answers}
    (screen : Screen) :
    Sat (ask user screen) Q E log ↔
      Q (user log screen) (log ++ [(screen, user log screen)]) := by
  simp only [ask, sat_bind, sat_get, sat_set, sat_pure]

/-- The screens that were accepted. -/
def accepted (screens : List Screen) : Answers := screens.map fun screen => (screen, true)

@[simp] theorem accepted_nil : accepted [] = [] := rfl

@[simp] theorem accepted_cons (screen : Screen) (screens : List Screen) :
    accepted (screen :: screens) = (screen, true) :: accepted screens := rfl

@[simp] theorem accepted_append (screens screens' : List Screen) :
    accepted (screens ++ screens') = accepted screens ++ accepted screens' := List.map_append

theorem filter_accepted (q : Screen → Bool) (screens : List Screen) :
    (accepted screens).filter (fun answer => q answer.1) = accepted (screens.filter q) := by
  induction screens with
  | nil => rfl
  | cons screen screens ih =>
      rw [accepted_cons, List.filter_cons, List.filter_cons, ih]
      split <;> rfl

/-- Asking a list of screens returns `true` when all of them were accepted. -/
theorem sat_askAll {E : SignErr → Answers → Prop} (screens : List Screen) (log : Answers) :
    Sat (askAll user screens) (fun ok log' => ok = true → log' = log ++ accepted screens) E log := by
  induction screens generalizing log with
  | nil => simp [askAll]
  | cons screen screens ih =>
      rw [askAll, sat_bind, sat_ask, sat_ite]
      constructor
      · intro haccept
        refine (ih _).mono (fun ok log' h hok => ?_) (fun _ _ h => h)
        rw [h hok, haccept, accepted_cons, List.append_assoc]
        rfl
      · intro _
        simp

/-! ### Outputs -/

/-- `display_output` -/
def displayOutput (out : TxOutput) (info : Option OutputInfo) (showScriptless : Bool) : Bool :=
  if !showScriptless && out.script.isEmpty then false
  else
    match info with
    | none => true
    | some info =>
        if info.mweb then false
        else if info.message != "" then true
        else !(info.validated && info.change)

/-- The outputs of a transaction with what is known about them. -/
def outputsWithInfo (tx : Tx) (infos : Option (List OutputInfo)) :
    List (TxOutput × Option OutputInfo) :=
  tx.outputs.zipIdx.map fun (out, i) => (out, infos.bind fun infos => infos[i]?)

/-- `displayable_outputs`: if all would be hidden none is, unless one is of the extension block. -/
def displayableOutputs (outs : List (TxOutput × Option OutputInfo)) (showScriptless : Bool) : ℕ :=
  let displayable := (outs.filter fun (out, info) => displayOutput out info showScriptless).length
  if displayable > 0 then displayable
  else if outs.any fun (_, info) => (info.map OutputInfo.mweb).getD false then 0
  else outs.length

/-- `snprintf` of a title with a place in a list fits its buffer. -/
def titleFits (text : String) (place total size : ℕ) : Bool :=
  decide ((text ++ toString place ++ "/" ++ toString total).length < size)

/-- The loop over the outputs left, of which `shown` have been displayed. -/
def showOutputsLoop (screens : ℕ → TxOutput → Option OutputInfo → Except Fault (List Screen))
    (display : TxOutput → Option OutputInfo → Bool) (total : ℕ) :
    List (TxOutput × Option OutputInfo) → ℕ → Ui Bool
  | [], shown => do
      orFault (jadeVerify (shown == total))
      pure true
  | (out, info) :: outs, shown =>
      if display out info then do
        orFault (jadeVerify (titleFits "Output " (shown + 1) total 16))
        let outputScreens ← orFault (screens (shown + 1) out info)
        if ← askAll user outputScreens then
          showOutputsLoop screens display total outs (shown + 1)
        else pure false
      else showOutputsLoop screens display total outs shown

/-- The outputs that are displayed: all of them when none would be hidden. -/
def isDisplayed (outs : List (TxOutput × Option OutputInfo)) (showScriptless : Bool)
    (out : TxOutput) (info : Option OutputInfo) : Bool :=
  !decide (displayableOutputs outs showScriptless < outs.length) ||
    displayOutput out info showScriptless

/-- The common part of `show_btc_transaction_outputs_activity` and
`show_elements_transaction_outputs_activity`. -/
def showTransactionOutputs (showScriptless : Bool)
    (screens : ℕ → ℕ → TxOutput → Option OutputInfo → Except Fault (List Screen))
    (outs : List (TxOutput × Option OutputInfo)) : Ui Bool :=
  let total := displayableOutputs outs showScriptless
  showOutputsLoop user (screens total) (isDisplayed outs showScriptless) total outs 0

/-- The screens of the outputs that are displayed, a block for each, of which `shown` have been
displayed before. -/
def displayedScreens (screens : ℕ → TxOutput → Option OutputInfo → Except Fault (List Screen))
    (display : TxOutput → Option OutputInfo → Bool) :
    List (TxOutput × Option OutputInfo) → ℕ → Except Fault (List (List Screen))
  | [], _ => .ok []
  | (out, info) :: outs, shown =>
      if display out info then do
        let block ← screens (shown + 1) out info
        let blocks ← displayedScreens screens display outs (shown + 1)
        pure (block :: blocks)
      else displayedScreens screens display outs shown

/-- The loop over the outputs asks the screens of those displayed, in order. -/
theorem sat_showOutputsLoop
    (screens : ℕ → TxOutput → Option OutputInfo → Except Fault (List Screen))
    (display : TxOutput → Option OutputInfo → Bool) (total : ℕ)
    (outs : List (TxOutput × Option OutputInfo)) (shown : ℕ) (log : Answers) :
    Sat (showOutputsLoop user screens display total outs shown)
      (fun ok log' => ok = true → ∃ blocks, displayedScreens screens display outs shown = .ok blocks ∧
        log' = log ++ accepted blocks.flatten)
      (fun _ _ => True) log := by
  induction outs generalizing shown log with
  | nil =>
      simp only [showOutputsLoop, sat_bind, sat_orFault, sat_pure, implies_true, and_true]
      intro _ _ _
      exact ⟨[], rfl, by simp⟩
  | cons entry outs ih =>
      obtain ⟨out, info⟩ := entry
      rw [showOutputsLoop, displayedScreens]
      by_cases hdisplay : display out info = true
      · rw [if_pos hdisplay, if_pos hdisplay]
        simp only [sat_bind, sat_orFault, implies_true, and_true]
        intro _ _ block hblock
        refine (sat_askAll user (E := fun _ _ => True) block log).mono ?_ (fun _ _ _ => trivial)
        intro ok log₁ hlog₁
        cases ok with
        | false => simp
        | true =>
            obtain rfl := hlog₁ rfl
            refine (ih (shown + 1) _).mono ?_ (fun _ _ h => h)
            intro ok' log₂ h hok'
            obtain ⟨blocks, hblocks, hlog₂⟩ := h hok'
            refine ⟨block :: blocks, ?_, ?_⟩
            · rw [hblock, hblocks]
              rfl
            · rw [hlog₂, List.flatten_cons, accepted_append, List.append_assoc]
      · rw [if_neg hdisplay, if_neg hdisplay]
        exact ih shown log

/-- **The outputs accepted are the outputs displayed.** -/
theorem sat_showTransactionOutputs (showScriptless : Bool)
    (screens : ℕ → ℕ → TxOutput → Option OutputInfo → Except Fault (List Screen))
    (outs : List (TxOutput × Option OutputInfo)) (log : Answers) :
    Sat (showTransactionOutputs user showScriptless screens outs)
      (fun ok log' => ok = true → ∃ blocks,
        displayedScreens (screens (displayableOutputs outs showScriptless))
          (isDisplayed outs showScriptless) outs 0 = .ok blocks ∧
        log' = log ++ accepted blocks.flatten)
      (fun _ _ => True) log :=
  sat_showOutputsLoop user _ _ _ outs 0 log

/-- A warning that is not empty. -/
def outputMessage (info : Option OutputInfo) : Option String :=
  match info with
  | none => none
  | some info => if info.message = "" then none else some info.message

/-- The screen of an output of Bitcoin or Litecoin. -/
def btcOutputScreens (total place : ℕ) (out : TxOutput) (info : Option OutputInfo) :
    Except Fault (List Screen) :=
  .ok [.output place total ((info.map OutputInfo.validated).getD false) out.script out.satoshi
    (outputMessage info)]

/-- `show_btc_transaction_outputs_activity` -/
def showBtcTransactionOutputsActivity (tx : Tx) (infos : Option (List OutputInfo)) : Ui Bool :=
  showTransactionOutputs user true btcOutputScreens (outputsWithInfo tx infos)

def MISSING_ASSET_DATA : String :=
  "Amounts may be shown in the wrong units.      Continue at your own   risk."

/-- The screens of an output of Liquid: one more when the asset is not registered. -/
def elementsOutputScreens (hasAssetInfo : Bytes → Bool) (total place : ℕ) (out : TxOutput)
    (info : Option OutputInfo) : Except Fault (List Screen) :=
  match info with
  | none => .error .assert
  | some info => do
      jadeVerify info.hasUnblinded
      let screen := Screen.elementsOutput place total info.validated out.script
        (if info.hasBlindingKey then some info.blindingKey else none) info.assetId info.value
      let message := outputMessage (some info)
      let known := hasAssetInfo info.assetId
      pure ((if known then [] else [screen (some MISSING_ASSET_DATA)]) ++
        (if known || message.isSome then [screen message] else []))

/-- `show_elements_transaction_outputs_activity`; outputs without a script are fees. -/
def showElementsTransactionOutputsActivity (hasAssetInfo : Bytes → Bool) (tx : Tx)
    (infos : List OutputInfo) : Ui Bool :=
  showTransactionOutputs user false (elementsOutputScreens hasAssetInfo)
    (outputsWithInfo tx (some infos))

/-! ### Swaps -/

/-- `asset_summary_t` -/
structure AssetSummary where
  assetId : Bytes
  value : UInt64
  validatedValue : UInt64 := 0
  deriving DecidableEq

/-- The loop over the summaries left, of which `shown` have been displayed; the label of a screen must
fit its buffer. -/
def showSummariesLoop (hasAssetInfo : Bytes → Bool) (title direction : String) (total : ℕ) :
    List AssetSummary → ℕ → Ui Bool
  | [], _ => pure true
  | sum :: sums, shown => do
      orFault (jadeVerify (total == 1 || titleFits (direction ++ "  ()") (shown + 1) total 16))
      let warning := if hasAssetInfo sum.assetId then none else some MISSING_ASSET_DATA
      if ← ask user (.assetSummary title direction (shown + 1) total sum.assetId sum.value warning)
      then showSummariesLoop hasAssetInfo title direction total sums (shown + 1)
      else pure false

/-- `show_elements_asset_summary_activity` -/
def showElementsAssetSummaryActivity (hasAssetInfo : Bytes → Bool) (title direction : String)
    (sums : List AssetSummary) : Ui Bool := do
  orFault (jadeVerify (!sums.isEmpty))
  showSummariesLoop user hasAssetInfo title direction sums.length sums 0

/-- The title of the screens of a swap. -/
def swapTitle (initialProposal : Bool) : String :=
  if initialProposal then "Swap Proposal" else "Complete Swap"

/-- `show_elements_swap_activity` -/
def showElementsSwapActivity (hasAssetInfo : Bytes → Bool) (initialProposal : Bool)
    (inSums outSums : List AssetSummary) : Ui Bool := do
  let title := swapTitle initialProposal
  if ← showElementsAssetSummaryActivity user hasAssetInfo title "Receive" outSums then
    showElementsAssetSummaryActivity user hasAssetInfo title "Send" inSums
  else pure false

/-! ### Fees -/

/-- `show_btc_final_confirmation_activity` -/
def showBtcFinalConfirmationActivity (fee : UInt64) (warning : Option String) : Ui Bool :=
  ask user (.fee "Send Transaction" fee warning)

/-- `script_flavour_t` -/
inductive ScriptFlavour
  | none
  | singlesig
  | multisig
  | other
  | mixed
  deriving Repr, DecidableEq

/-- `get_script_flavour`, and whether the script is a taproot one. -/
def getScriptFlavour : ScriptType → ScriptFlavour × Bool
  | .p2pkh | .p2wpkh => (.singlesig, false)
  | .p2tr => (.singlesig, true)
  | .multisig => (.multisig, false)
  | _ => (.other, false)

/-- `update_aggregate_scripts_flavour` -/
def updateAggregateScriptsFlavour (new aggregate : ScriptFlavour) : ScriptFlavour :=
  if aggregate = .none then new else if aggregate = new then aggregate else .mixed

def WARN_MSG_HIGH_FEES : String := "Fee amount higher than spend amount!"
def WARN_MSG_MIXED_INPUTS : String := "Your transaction inputs are of varying types."

/-- The warning of the fee screen. -/
def feeWarning (warnFees warnScripts : Bool) : Option String :=
  match warnFees, warnScripts with
  | true, true => some (WARN_MSG_HIGH_FEES ++ " " ++ WARN_MSG_MIXED_INPUTS)
  | false, true => some WARN_MSG_MIXED_INPUTS
  | true, false => some WARN_MSG_HIGH_FEES
  | false, false => none

/-- The amount spent: the outputs less those flagged as change. -/
def spendAmount : List (TxOutput × Option OutputInfo) → UInt64 → Except Fault UInt64
  | [], spend => .ok spend
  | (out, info) :: outs, spend =>
      if (info.map OutputInfo.change).getD false then do
        jadeVerify (decide (out.satoshi ≤ spend))
        spendAmount outs (spend - out.satoshi)
      else spendAmount outs spend

/-- `show_btc_fee_confirmation_activity` -/
def showBtcFeeConfirmationActivity (tx : Tx) (infos : Option (List OutputInfo))
    (flavour : ScriptFlavour) (inputAmount outputAmount : UInt64) : Ui Bool := do
  orFault (jadeVerify (inputAmount != 0))
  orFault (jadeVerify (outputAmount != 0))
  orFault (jadeVerify (decide (outputAmount ≤ inputAmount)))
  let fees := inputAmount - outputAmount
  let spend ← orFault (spendAmount (outputsWithInfo tx infos) outputAmount)
  let warnFees := fees != 0 && decide (spend ≤ fees)
  showBtcFinalConfirmationActivity user fees (feeWarning warnFees (flavour == .mixed))

/-- `show_elements_fee_confirmation_activity` -/
def showElementsFeeConfirmationActivity (flavour : ScriptFlavour) (fees : UInt64) (isSwap : Bool)
    (isPartial : Bool) : Ui Bool :=
  ask user (.fee (if isSwap then swapTitle isPartial else "Send Transaction") fees
    (if flavour = .mixed then some WARN_MSG_MIXED_INPUTS else none))

end Model

end Jade
