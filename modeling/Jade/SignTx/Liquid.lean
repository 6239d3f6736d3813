/-
**What the signatures of a Liquid transaction rest on (`process/sign_tx.c`).**

Before a signature of `sign_liquid_tx` is sent the user has accepted what the transaction does. For
a payment these are its outputs, with the asset and the value that their commitments open to, and
the fee. For a swap these are the summaries of what the wallet gets and puts in, which have to agree
with the outputs of the wallet and the inputs that could be verified. The hash of an input is made as
the message about it says, and with the commitment of its value unless the input is of the old kind.

Main definitions:

* `Jade.LiquidJustified` — what a signature rests on.

Main results:

* `Jade.signLiquidTx_justified` — every signature that is sent rests on it.
-/

import Jade.SignTx.LiquidInputs
import Jade.SignTx.Phases
import Jade.SignTx.Turns

set_option relaxedAutoImplicit false
set_option autoImplicit false

namespace Jade

open Exec Dialogue

section Statement

variable {K V : Type} (L : SignTxLib K V) (W : Binding L.blinding)

/-! ### The statement -/

/-- An output with its asset and its value was shown, or it is change without a warning. -/
inductive ElementsOutputConfirmed (network : Network) (out : TxOutput) (screens : List Screen) :
    Prop
  | shown {place total : ℕ} {isWallet : Bool} {blindingKey : Option Bytes} {assetId : Bytes}
      {value : UInt64} {warning : Option String} :
      .elementsOutput place total isWallet out.script blindingKey assetId value warning ∈ screens →
      IsUnblinded W out assetId value → ElementsOutputConfirmed network out screens
  | change {e : WalletOutput} {assetId : Bytes} {value : UInt64} : e.isChange.getD true = true →
      entryScript L.scripts network true e = .ok (out.script, "") →
      IsUnblinded W out assetId value → ElementsOutputConfirmed network out screens

/-- The screens of a summary. -/
def summaryScreens (hasAssetInfo : Bytes → Bool) (title direction : String) (total : ℕ) :
    List AssetSummary → ℕ → List Screen
  | [], _ => []
  | sum :: sums, shown =>
      .assetSummary title direction (shown + 1) total sum.assetId sum.value
          (if hasAssetInfo sum.assetId then none else some MISSING_ASSET_DATA) ::
        summaryScreens hasAssetInfo title direction total sums (shown + 1)

/-- The screens of a swap: what the wallet gets, and what it puts in. -/
def swapScreens (hasAssetInfo : Bytes → Bool) (initialProposal : Bool)
    (inSums outSums : List AssetSummary) : List Screen :=
  summaryScreens hasAssetInfo (swapTitle initialProposal) "Receive" outSums.length outSums 0 ++
    summaryScreens hasAssetInfo (swapTitle initialProposal) "Send" inSums.length inSums 0

/-- What was accepted of the outputs. -/
def OutputsAccepted (network : Network) (request : SignTxRequest) (shown : List Screen) : Prop :=
  if request.txType = .swap then
    shown = swapScreens (L.hasAssetInfo network request.assets) request.isPartial request.inSums
      request.outSums
  else ∀ out ∈ request.tx.outputs, out.script ≠ [] → ElementsOutputConfirmed L W network out shown

/-- The screen of the fee, which a proposal without a fee does not have. -/
def feeScreens (request : SignTxRequest) (warning : Option String) : List Screen :=
  if request.isPartial && request.explicitFee == 0 then []
  else [.fee (if request.txType == .swap then swapTitle request.isPartial else "Send Transaction")
    request.explicitFee warning]

/-- **What is known of the outputs of the wallet**: their scripts were rebuilt, and their assets and
values are those that the outputs have. -/
def OutputsGenuine (network : Network) (tx : Tx) (infos : List OutputInfo) : Prop :=
  ∀ (i : ℕ) out (info : OutputInfo), tx.outputs[i]? = some out → infos[i]? = some info →
    info.validated = true → IsUnblinded W out info.assetId info.value ∧
      ∃ e message, entryScript L.scripts network info.change e = .ok (out.script, message)

/-- **The summaries agree** with the outputs of the wallet and with the inputs that were counted. -/
structure SummariesAgree (request : SignTxRequest) (infos : List OutputInfo)
    (told : List (Told V)) : Prop where
  gets : ∀ assetId ∈ request.outSums.map AssetSummary.assetId,
    Tally.total assetId (request.outSums.map AssetSummary.stated) =
      Tally.total assetId (walletOutputs false infos)
  puts : ∀ assetId ∈ request.inSums.map AssetSummary.assetId,
    Tally.total assetId (request.inSums.map AssetSummary.stated) +
        Tally.total assetId (walletOutputs true infos) =
      Tally.total assetId (countedInputs told)

/-- **What the user has accepted.** -/
def LiquidConfirmed (network : Network) (request : SignTxRequest) (told : List (Told V))
    (log : Answers) : Prop :=
  (∃ shown warning rest, log = accepted (shown ++ feeScreens request warning ++ rest) ∧
    OutputsAccepted L W network request shown) ∧
  (∃ policyAsset, networkToPolicyAsset network = some policyAsset ∧
    FeeFound policyAsset request.tx.outputs request.explicitFee) ∧
  (∃ infos, request.outputInfo = some infos ∧ OutputsGenuine L W network request.tx infos ∧
    SummariesAgree request infos told) ∧
  ProposalShape request.txType request.tx request.isPartial request.inSums request.outSums

/-- The hash of the input at a position, which its message has told of: that of a taproot input is made
with the block that the network starts with, and the others with their own script. -/
def LiquidHashed (network : Network) (tx : Tx) (i : ℕ) (params : V) (data : InputData)
    (script : Bytes) : Prop :=
  ∃ maps, HasValue L params i data maps ∧
    L.inputSignatureHash tx i maps (if data.isTaproot then none else some script)
      (if data.isTaproot then networkToGenesisHash network else none) data.sighash data.sigType =
        some data.signatureHash

/-- A signature for the input at a position, which its message has told of. -/
structure SignsLiquidAs (network : Network) (request : SignTxRequest) (i : ℕ) (t : Told V)
    (data : InputData) (script signature : Bytes) : Prop where
  own : SignedAs L t.params data script
  covered : t.Covered L request
  parts : CommitsToParts request data
  hashed : LiquidHashed L network request.tx i t.params data script
  signed : ∃ entropy, walletSignTxInputHash L network data entropy = .ok (some signature)

/-- **The signature of an input**, as the message about it says. -/
def SignsLiquidInput (network : Network) (request : SignTxRequest) (told : List (Told V))
    (signature : Bytes) : Prop :=
  ∃ (i : ℕ) (t : Told V) (data : InputData) (script : Bytes), told[i]? = some t ∧
    SignsLiquidAs L network request i t data script signature

/-- The first messages after the request are those about the inputs. -/
def ToldBy (before : List (Event (Incoming V) (Screen × Bool) (Outgoing TxData)))
    (told : List (Told V)) : Prop :=
  ∃ msgs, msgs <+: messages before ∧ List.Forall₂
    (fun m t => getMsgParams L.cbor.toTinyCborStrings m.value = some t.params) msgs told

/-- **When an answer may be sent**: a signature that is not empty comes after the confirmations. -/
def LiquidJustified (m₀ : Incoming V)
    (before : List (Event (Incoming V) (Screen × Bool) (Outgoing TxData))) (out : Outgoing TxData) :
    Prop :=
  ∀ signature, out.body = .data (.signature signature) → signature ≠ [] →
    ∃ network request told, openRequest L true m₀ = .ok (network, request) ∧
      told.length = request.tx.inputs.length ∧ ToldBy L before told ∧
      (∀ t ∈ told, t.Genuine L W) ∧
      LiquidConfirmed L W network request told (screens before) ∧
      SignsLiquidInput L network request told signature

end Statement

section Request

variable {K V : Type} {L : SignTxLib K V} {W : Binding L.blinding} {network : Network}
  {request : SignTxRequest}

/-! ### The request -/

variable (L W network) in
/-- What is known of an output before it is shown. -/
structure KnownOutput (out : TxOutput) (info : OutputInfo) : Prop where
  mweb : info.mweb = false
  unblinded : info.hasUnblinded = true → IsUnblinded W out info.assetId info.value
  validated : info.validated = true → info.hasUnblinded = true ∧
    ∃ e : WalletOutput, e.isChange.getD true = info.change ∧
      entryScript L.scripts network info.change e = .ok (out.script, info.message)

variable (L W network) in
/-- A request that was accepted. -/
structure LiquidRequest (request : SignTxRequest) (infos : List OutputInfo) : Prop where
  outputInfo : request.outputInfo = some infos
  known : ∀ (i : ℕ) out (info : OutputInfo), request.tx.outputs[i]? = some out →
    infos[i]? = some info → KnownOutput L W network out info
  fee : ∃ policyAsset, networkToPolicyAsset network = some policyAsset ∧
    FeeFound policyAsset request.tx.outputs request.explicitFee
  shape : ProposalShape request.txType request.tx request.isPartial request.inSums request.outSums
  puts : Booked (opposite (walletOutputs true infos)) request.inSums
  gets : Booked (walletOutputs false infos) request.outSums

/-- The flags of an output do not change when its asset and value become known. -/
theorem updateElementsOutput_flags {txout : TxOutput} {c : Commitment} {info info' : OutputInfo}
    (h : updateElementsOutput txout c info = .ok info') :
    info'.validated = info.validated ∧ info'.change = info.change ∧
      info'.message = info.message ∧ info'.mweb = info.mweb := by
  obtain ⟨_, -, h⟩ := bind_eq_ok.1 h
  split at h
  · obtain rfl := pure_eq_ok.1 h
    exact ⟨rfl, rfl, rfl, rfl⟩
  · split at h
    · obtain ⟨_, -, h⟩ := bind_eq_ok.1 h
      obtain rfl := pure_eq_ok.1 h
      exact ⟨rfl, rfl, rfl, rfl⟩
    · obtain ⟨_, -, h⟩ := bind_eq_ok.1 h
      obtain rfl := pure_eq_ok.1 h
      exact ⟨rfl, rfl, rfl, rfl⟩

/-- Every output that has a record is known. -/
theorem knownOutput_of_update {params : V} {tx : Tx} {commitments : List Commitment}
    {change : Option (Option (List (Except Fault (Option WalletOutput))))} {txType : TxType}
    {known : Option (List OutputInfo)} {infos : List OutputInfo}
    (htrusted : paramsTrustedCommitments L.cbor L.blinding params tx = .ok commitments)
    (hknown : paramsSigningOutputs L.scripts network true tx change = .ok known)
    (hupdate : updateElementsOutputs tx commitments (known.getD []) = .ok infos)
    (hchecked : ∀ info ∈ infos, OutputChecked txType info) {i : ℕ} {out : TxOutput}
    {info : OutputInfo} (hout : tx.outputs[i]? = some out) (hinfo : infos[i]? = some info) :
    KnownOutput L W network out info := by
  have hunblinded := updateElementsOutputs_spec htrusted hupdate W hout hinfo
  have hshown := (hchecked info (List.mem_of_getElem? hinfo)).validated
  obtain ⟨⟨out', c, old⟩, hzip, hone⟩ := getElem?_of_mapM_eq_ok hupdate hinfo
  obtain ⟨-, hrest⟩ := List.getElem?_zip_eq_some.1 hzip
  obtain ⟨-, hold⟩ := List.getElem?_zip_eq_some.1 hrest
  obtain ⟨hvalidated, hchange, hmessage, hmweb⟩ := updateElementsOutput_flags hone
  cases known with
  | none => cases hold
  | some known =>
      rcases paramsSigningOutputs_eq_ok hknown hout hold with rfl | ⟨e, message, hscript, rfl⟩
      · refine ⟨hmweb, hunblinded, fun htrue => ?_⟩
        rw [hvalidated] at htrue
        cases htrue
      · refine ⟨hmweb, hunblinded, fun htrue => ⟨hshown htrue, e, hchange.symm, ?_⟩⟩
        rw [hchange, hmessage]
        exact hscript

theorem paramsTxn_fee {params : V} {tx : Tx} {fee : UInt64}
    (h : paramsTxn L network true params = .ok (tx, fee)) :
    ∃ policyAsset, networkToPolicyAsset network = some policyAsset ∧
      FeeFound policyAsset tx.outputs fee := by
  obtain ⟨_, -, h⟩ := bind_eq_ok.1 h
  obtain ⟨txbytes, -, h⟩ := bind_eq_ok.1 h
  obtain ⟨_, -, h⟩ := bind_eq_ok.1 h
  split at h
  · cases h
  · rw [paramsTxnParsed] at h
    split at h
    · cases h
    · cases h
    · obtain ⟨_, -, h⟩ := bind_eq_ok.1 h
      obtain ⟨fee', hfee, h⟩ := bind_eq_ok.1 h
      obtain ⟨rfl, rfl⟩ := Prod.mk.inj (pure_eq_ok.1 h)
      exact paramsTxnValidate_fee hfee

theorem length_of_stated {sums sums' : List AssetSummary}
    (h : sums'.map AssetSummary.stated = sums.map AssetSummary.stated) :
    sums'.length = sums.length := by
  simpa using congrArg List.length h

/-- **What a request that was accepted says.** -/
theorem readSignTx_liquid (W : Binding L.blinding) {params : V}
    (h : readSignTx L network true params = .ok request) :
    ∃ infos, LiquidRequest L W network request infos := by
  obtain ⟨⟨tx, fee⟩, htx, h⟩ := bind_eq_ok.1 h
  obtain ⟨commitments, htrusted, h⟩ := bind_eq_ok.1 h
  obtain ⟨known, hknown, h⟩ := bind_eq_ok.1 h
  obtain ⟨assets, -, h⟩ := bind_eq_ok.1 h
  cases assets with
  | none => cases h
  | some assets =>
      obtain ⟨additional, hadditional, h⟩ := bind_eq_ok.1 h
      obtain ⟨⟨txType, info⟩, hinfo, h⟩ := bind_eq_ok.1 h
      obtain ⟨infos, hinfos, h⟩ := bind_eq_ok.1 h
      obtain ⟨⟨inSums, outSums⟩, hsums, h⟩ := bind_eq_ok.1 h
      obtain rfl := pure_eq_ok.1 h
      obtain ⟨hsection, hshape⟩ := paramsAdditionalInfo_eq_ok hinfo
      have hblank : Booked [] info.inSums ∧ Booked [] info.outSums := by
        rcases hsection with rfl | rfl
        · exact AdditionalInfo.read_blank (liftFault_eq_ok.1 hadditional)
        · exact ⟨rfl, rfl⟩
      obtain ⟨hchecked, hbooked⟩ :=
        @validateElementsOutputs_booked _ _ _ _ (info.inSums, info.outSums) _ hblank.1 hblank.2
          hsums
      refine ⟨infos, rfl, fun i out info => knownOutput_of_update htrusted hknown hinfos hchecked,
        paramsTxn_fee htx, ?_, hbooked.inBooked, hbooked.outBooked⟩
      intro hswap hpartial
      rw [length_of_stated hbooked.inStated, length_of_stated hbooked.outStated]
      exact hshape hswap hpartial

end Request

section Run

variable {K V : Type} {L : SignTxLib K V} {W : Binding L.blinding} {network : Network}
  {request : SignTxRequest} {infos : List OutputInfo} {m₀ m : Incoming V}
  {P : List (Event (Incoming V) (Screen × Bool) (Outgoing TxData)) → Outgoing TxData → Prop}
  {log : Answers} {msgs : List (Incoming V)}
  {s : Dialogue.State (Incoming V) (Screen × Bool) (Outgoing TxData)}

/-! ### The outputs -/

/-- The screens of an output show its asset and its value. -/
theorem mem_elementsOutputScreens {hasAssetInfo : Bytes → Bool} {total place : ℕ} {out : TxOutput}
    {known : Option OutputInfo} {block : List Screen}
    (h : elementsOutputScreens hasAssetInfo total place out known = .ok block) :
    ∃ info blindingKey warning, known = some info ∧ info.hasUnblinded = true ∧
      .elementsOutput place total info.validated out.script blindingKey info.assetId info.value
        warning ∈ block := by
  cases known with
  | none => cases h
  | some info =>
      obtain ⟨_, hunblinded, h⟩ := bind_eq_ok.1 h
      obtain rfl := pure_eq_ok.1 h
      have hshown : info.hasUnblinded = true := jadeVerify_eq_ok.1 hunblinded
      cases hasAssetInfo info.assetId with
      | true => exact ⟨info, _, _, rfl, hshown, List.mem_singleton.2 rfl⟩
      | false =>
          exact ⟨info, _, _, rfl, hshown, List.mem_append_left _ (List.mem_singleton.2 rfl)⟩

/-- An output with a script that is not displayed is change without a warning. -/
theorem change_of_hidden {out : TxOutput} {info : OutputInfo}
    (hknown : KnownOutput L W network out info)
    (hscript : out.script ≠ []) (hhidden : displayOutput out (some info) false = false)
    (screens : List Screen) : ElementsOutputConfirmed L W network out screens := by
  have hempty : out.script.isEmpty = false := by
    rw [← Bool.not_eq_true, List.isEmpty_iff]
    exact hscript
  rw [displayOutput, hempty, Bool.and_false, if_neg Bool.false_ne_true] at hhidden
  simp only [hknown.mweb, Bool.false_eq_true, if_false] at hhidden
  split at hhidden
  · cases hhidden
  · next hmessage =>
      rw [Bool.not_eq_false', Bool.and_eq_true] at hhidden
      obtain ⟨hunblinded, e, hchange, hentry⟩ := hknown.validated hhidden.1
      have hnone : info.message = "" := by simpa using hmessage
      rw [hhidden.2] at hchange hentry
      rw [hnone] at hentry
      exact .change hchange hentry (hknown.unblinded hunblinded)

/-- Every output with a script is displayed, or it is change. -/
theorem elementsOutputConfirmed_of_displayed (hreq : LiquidRequest L W network request infos)
    {hasAssetInfo : Bytes → Bool} {total : ℕ} {blocks : List (List Screen)}
    (hblocks : displayedScreens (elementsOutputScreens hasAssetInfo total)
      (isDisplayed (outputsWithInfo request.tx (some infos)) false)
      (outputsWithInfo request.tx (some infos)) 0 = .ok blocks) {out : TxOutput}
    (hout : out ∈ request.tx.outputs) (hscript : out.script ≠ []) :
    ElementsOutputConfirmed L W network out blocks.flatten := by
  obtain ⟨i, hi⟩ := List.mem_iff_getElem?.1 hout
  have hmem := mem_outputsWithInfo_option (some infos) hi
  cases hdisplay : isDisplayed (outputsWithInfo request.tx (some infos)) false out
      ((some infos).bind fun infos => infos[i]?) with
  | true =>
      obtain ⟨place, block, hblock, hin⟩ := mem_displayedScreens hblocks hmem hdisplay
      obtain ⟨info, blindingKey, warning, hinfo, hunblinded, hscreen⟩ :=
        mem_elementsOutputScreens hblock
      exact .shown (List.mem_flatten.2 ⟨block, hin, hscreen⟩)
        ((hreq.known i out info hi hinfo).unblinded hunblinded)
  | false =>
      rw [isDisplayed, Bool.or_eq_false_iff] at hdisplay
      rw [Option.bind_some] at hdisplay
      cases hinfo : infos[i]? with
      | none =>
          have hempty : out.script.isEmpty = false := by
            rw [← Bool.not_eq_true, List.isEmpty_iff]
            exact hscript
          rw [hinfo, displayOutput, hempty] at hdisplay
          cases hdisplay.2
      | some info =>
          rw [hinfo] at hdisplay
          exact change_of_hidden (hreq.known i out info hi hinfo) hscript hdisplay.2 _

/-! ### The summaries -/

theorem sat_showSummariesLoop (user : User) (hasAssetInfo : Bytes → Bool) (title direction : String)
    (total : ℕ) (sums : List AssetSummary) (shown : ℕ) (log : Answers) :
    Sat (showSummariesLoop user hasAssetInfo title direction total sums shown)
      (fun ok after => ok = true → after = log ++
        accepted (summaryScreens hasAssetInfo title direction total sums shown))
      (fun _ _ => True) log := by
  induction sums generalizing shown log with
  | nil => exact (sat_pure _).2 fun _ => (List.append_nil log).symm
  | cons sum sums ih =>
      simp only [showSummariesLoop, sat_bind, sat_orFault, sat_ask, implies_true, and_true]
      intro _ _
      rw [sat_ite]
      constructor
      · intro haccept
        refine (ih (shown + 1) _).mono ?_ (fun _ _ h => h)
        intro ok after hafter hok
        rw [hafter hok, haccept, summaryScreens, accepted_cons, List.append_assoc]
        rfl
      · intro _
        refine (sat_pure _).2 ?_
        intro hfalse
        cases hfalse

theorem sat_showElementsSwap (user : User) (hasAssetInfo : Bytes → Bool) (initialProposal : Bool)
    (inSums outSums : List AssetSummary) (log : Answers) :
    Sat (showElementsSwapActivity user hasAssetInfo initialProposal inSums outSums)
      (fun ok after => ok = true → after = log ++
        accepted (swapScreens hasAssetInfo initialProposal inSums outSums))
      (fun _ _ => True) log := by
  simp only [showElementsSwapActivity, showElementsAssetSummaryActivity, sat_bind, sat_orFault,
    implies_true, and_true]
  intro _ _
  refine (sat_showSummariesLoop user hasAssetInfo _ "Receive" _ outSums 0 log).mono ?_
    (fun _ _ h => h)
  intro ok after hafter
  rw [sat_ite]
  constructor
  · intro hok
    simp only [sat_bind, sat_orFault, implies_true, and_true]
    intro _ _
    refine (sat_showSummariesLoop user hasAssetInfo _ "Send" _ inSums 0 after).mono ?_
      (fun _ _ h => h)
    intro ok' after' hafter' hok'
    rw [hafter' hok', hafter hok, swapScreens, accepted_append, List.append_assoc]
  · intro _
    refine (sat_pure _).2 ?_
    intro hfalse
    cases hfalse

/-- **The outputs or the summaries are confirmed.** -/
theorem sat_confirmOutputs_liquid (h : Quiet P log msgs s)
    (hreq : LiquidRequest L W network request infos) :
    Sat (confirmOutputs L network true request)
      (fun _ s' => ∃ shown, OutputsAccepted L W network request shown ∧
        Quiet P (log ++ accepted shown) msgs s')
      (Allowed P) s := by
  rw [confirmOutputs, if_pos rfl, sat_ite]
  constructor
  · intro hswap
    have hscreens : Sat (showElementsSwapActivity L.user (L.hasAssetInfo network request.assets)
        request.isPartial request.inSums request.outSums)
        (fun ok after => ok = true → ∃ shown, after = log ++ shown ∧
          ∃ parts, shown = accepted parts ∧ OutputsAccepted L W network request parts)
        (fun _ _ => True) log := by
      refine (sat_showElementsSwap _ _ _ _ _ log).mono ?_ (fun _ _ h => h)
      intro ok after hafter hok
      refine ⟨_, hafter hok, _, rfl, ?_⟩
      rw [OutputsAccepted, if_pos hswap]
    rw [sat_bind]
    refine (sat_onScreens_quiet h hscreens).mono ?_ (fun _ _ h' => h')
    intro accepts s' hs'
    refine (sat_check _ _).2 ⟨fun hok => ?_, fun _ => hs'.1⟩
    obtain ⟨_, ⟨parts, rfl, hparts⟩, hquiet⟩ := hs'.2 hok
    exact ⟨parts, hparts, hquiet⟩
  · intro hpayment
    have hscreens : Sat (showElementsTransactionOutputsActivity L.user
        (L.hasAssetInfo network request.assets) request.tx (request.outputInfo.getD []))
        (fun ok after => ok = true → ∃ shown, after = log ++ shown ∧
          ∃ parts, shown = accepted parts ∧ OutputsAccepted L W network request parts)
        (fun _ _ => True) log := by
      refine (sat_showTransactionOutputs L.user false _ _ log).mono ?_ (fun _ _ h => h)
      intro ok after hshown hok
      obtain ⟨blocks, hblocks, rfl⟩ := hshown hok
      refine ⟨_, rfl, _, rfl, ?_⟩
      rw [OutputsAccepted, if_neg hpayment]
      rw [hreq.outputInfo, Option.getD_some] at hblocks
      exact fun out hout hscript => elementsOutputConfirmed_of_displayed hreq hblocks hout hscript
    rw [sat_bind]
    refine (sat_onScreens_quiet h hscreens).mono ?_ (fun _ _ h' => h')
    intro accepts s' hs'
    refine (sat_check _ _).2 ⟨fun hok => ?_, fun _ => hs'.1⟩
    obtain ⟨_, ⟨parts, rfl, hparts⟩, hquiet⟩ := hs'.2 hok
    exact ⟨parts, hparts, hquiet⟩

/-! ### The fee -/

/-- **The summaries agree and the fee is confirmed.** -/
theorem sat_confirmLiquidTxFee (h : Quiet P log msgs s) (st : SigningState) :
    Sat (confirmLiquidTxFee L request st)
      (fun _ s' => assetSummaryValidate st.inSums = true ∧
        assetSummaryValidate request.outSums = true ∧
        ∃ warning, Quiet P (log ++ accepted (feeScreens request warning)) msgs s')
      (Allowed P) s := by
  rw [confirmLiquidTxFee, sat_ite]
  constructor
  · intro _
    exact (sat_rejectLate_quiet h.allowed _ _).mono (fun _ _ hfalse => hfalse.elim)
      (fun _ _ h' => h')
  · intro hvalid
    rw [Bool.not_eq_true', Bool.not_eq_false, Bool.and_eq_true] at hvalid
    rw [sat_ite]
    constructor
    · intro hnone
      refine (sat_pure _).2 ⟨hvalid.1, hvalid.2, none, ?_⟩
      rw [feeScreens, if_pos hnone, accepted_nil, List.append_nil]
      exact h
    · intro hfee
      have hscreen : Sat (showElementsFeeConfirmationActivity L.user st.flavour request.explicitFee
          (request.txType == .swap) request.isPartial)
          (fun ok after => ok = true → ∃ shown, after = log ++ shown ∧
            ∃ warning, shown = accepted (feeScreens request warning))
          (fun _ _ => True) log := by
        rw [showElementsFeeConfirmationActivity, sat_ask]
        intro hok
        refine ⟨_, rfl, if st.flavour = .mixed then some WARN_MSG_MIXED_INPUTS else none, ?_⟩
        rw [feeScreens, if_neg hfee, hok]
        rfl
      rw [sat_bind]
      refine (sat_onScreens_quiet h hscreen).mono ?_ (fun _ _ h' => h')
      intro accepts s' hs'
      rw [unlessFeeRefused, sat_ite]
      constructor
      · intro hok
        obtain ⟨_, ⟨warning, rfl⟩, hquiet⟩ := hs'.2 hok
        exact (sat_pure _).2 ⟨hvalid.1, hvalid.2, warning, hquiet⟩
      · intro _
        exact (sat_rejectLate_quiet hs'.1 _ _).mono (fun _ _ hfalse => hfalse.elim)
          (fun _ _ h' => h')

/-! ### The signatures -/

/-- **The summaries agree** when they were validated. -/
theorem summariesAgree_of_validate (hreq : LiquidRequest L W network request infos)
    {told : List (Told V)} {st : SigningState}
    (hst : LiquidRead L W request (opposite (walletOutputs true infos)) told st)
    (hin : assetSummaryValidate st.inSums = true)
    (hout : assetSummaryValidate request.outSums = true) : SummariesAgree request infos told := by
  refine ⟨fun assetId hmem => hreq.gets.balance hout hmem, fun assetId hmem => ?_⟩
  have hids : st.inSums.map AssetSummary.assetId = request.inSums.map AssetSummary.assetId := by
    have hfst := congrArg (List.map Prod.fst) hst.stated
    rw [List.map_map, List.map_map] at hfst
    exact hfst
  have hbalance := hst.booked.balance hin (hids ▸ hmem)
  rw [hst.stated, Tally.total_append, opposite, Tally.total_map_neg] at hbalance
  rw [hbalance, add_right_comm, neg_add_cancel, zero_add]

/-- A signature is that of an input, made as its message says. -/
theorem signsLiquidInput_of_signatureOf {booked : List (Bytes × UInt64)} {told : List (Told V)}
    {st : SigningState} {inputs : List InputData}
    (hst : LiquidRead L W request booked told st)
    (hhash : List.Forall₂ (TaprootHashed L request.tx st.maps (genesisBlockhash network true st))
      st.inputs.zipIdx inputs)
    {data : InputData} (hmem : data ∈ inputs) {signature : Bytes} (hne : signature ≠ [])
    (hsig : SignatureOf L network data signature) :
    SignsLiquidInput L network request told signature := by
  rcases hsig with hnil | ⟨hpath, entropy, hsigned⟩
  · exact absurd hnil hne
  · obtain ⟨i, old, hold, hentry⟩ := getElem?_of_taprootHashed hhash hmem
    have hlt : i < told.length := hst.length_inputs ▸ lt_of_getElem? hold
    have ht : told[i]? = some told[i] := List.getElem?_eq_getElem hlt
    have hinput := hst.inputs i old told[i] hold ht
    rw [TaprootHashed] at hentry
    cases htaproot : old.isTaproot with
    | true =>
        rw [htaproot, if_pos rfl] at hentry
        obtain ⟨hash, hhash, rfl⟩ := hentry
        have hnum : st.numP2trToSign ≠ 0 := by
          intro hzero
          rw [hst.numP2tr] at hzero
          have hfalse := numTaproot_eq_zero hzero old (List.mem_of_getElem? hold)
          exact Bool.false_ne_true (hfalse.symm.trans htaproot)
        have hgenesis : genesisBlockhash network true st = networkToGenesisHash network := by
          rw [genesisBlockhash, Bool.true_and, if_pos (decide_eq_true hnum)]
        rw [hgenesis] at hhash
        obtain ⟨script, hown, -⟩ := hinput.own hpath
        have htaproot' : ({ old with signatureHash := hash } : InputData).isTaproot = true :=
          htaproot
        have hown' : SignedAs L told[i].params { old with signatureHash := hash } script :=
          ⟨hown.path, hown.field, hown.nonempty, hown.sigType⟩
        have hmade : LiquidHashed L network request.tx i told[i].params
            { old with signatureHash := hash } script := by
          refine ⟨st.maps, hinput.value hpath, ?_⟩
          rw [htaproot', if_pos rfl, if_pos rfl]
          exact hhash
        exact ⟨i, told[i], _, script, ht, hown', hinput.covered hpath, hinput.parts hpath, hmade,
          entropy, hsigned⟩
    | false =>
        rw [htaproot, if_neg Bool.false_ne_true] at hentry
        subst hentry
        obtain ⟨script, hown, hhashed⟩ := hinput.own hpath
        obtain ⟨maps, hvalue, hmade⟩ := hhashed htaproot
        refine ⟨i, told[i], data, script, ht, hown, hinput.covered hpath, hinput.parts hpath,
          ⟨maps, hvalue, ?_⟩, entropy, hsigned⟩
        rw [htaproot, if_neg Bool.false_ne_true, if_neg Bool.false_ne_true]
        exact hmade

/-! ### The run -/

theorem allowsOthers_liquidJustified (L : SignTxLib K V) (W : Binding L.blinding)
    (m₀ : Incoming V) : AllowsOthers (LiquidJustified L W m₀) := by
  intro events source id body hbody signature hsig
  exact absurd hsig (hbody signature)

/-- A request of Liquid. -/
theorem sat_signRequest_liquid (h : Quiet (LiquidJustified L W m₀) [] [] s)
    (hopen : openRequest L true m₀ = .ok (network, request)) :
    Sat (signRequest L network true m request)
      (fun _ s' => EverySent (LiquidJustified L W m₀) s'.events)
      (Allowed (LiquidJustified L W m₀)) s := by
  have hothers := allowsOthers_liquidJustified L W m₀
  obtain ⟨params, -, -, hrequest⟩ := openRequest_eq_ok hopen
  obtain ⟨infos, hreq⟩ := readSignTx_liquid W hrequest
  rw [signRequest, sat_bind]
  refine (sat_confirmOutputs_liquid h hreq).mono ?_ (fun _ _ h' => h')
  intro _ s₁ hs₁
  obtain ⟨shown, hshown, hquiet₁⟩ := hs₁
  rw [sat_bind]
  refine (sat_replyTo_quiet hquiet₁ (fun _ => hothers _ _ _ _ (by intro _ hsig; cases hsig)) _).mono
    ?_ (fun _ _ h' => h')
  intro _ s₂ hquiet₂
  rw [sat_bind]
  refine (sat_readInputs_quiet hothers hquiet₂ (I := fun done msgs st => ∃ told : List (Told V),
    told.length = done.length ∧ List.Forall₂ (fun m t =>
      getMsgParams L.cbor.toTinyCborStrings m.value = some t.params) msgs told ∧
    LiquidRead L W request (opposite (walletOutputs true infos)) told st)
    ⟨[], rfl, .nil, liquidRead_nil hreq.puts⟩ ?_).mono ?_ (fun _ _ h' => h')
  · intro done msgs input st m params id c st' hst hparams hstep
    obtain ⟨told, hlen, hsaid, hst⟩ := hst
    obtain ⟨t, ht, hst'⟩ := hst.step (hlen ▸ hstep)
    refine ⟨told ++ [t], ?_, ?_, hst'⟩
    · rw [List.length_append, List.length_append, hlen]
      rfl
    · exact List.rel_append hsaid (.cons (ht ▸ hparams) .nil)
  intro st s₃ hs₃
  obtain ⟨msgs, hquiet₃, told, htold, hsaid, hst⟩ := hs₃
  rw [sat_bind]
  refine (sat_hashTaprootInputs_quiet hquiet₃ hst.numP2tr).mono ?_ (fun _ _ h' => h')
  intro st' s₄ hs₄
  obtain ⟨hquiet₄, inputs, rfl, hhash⟩ := hs₄
  rw [sat_bind, confirmTxFee, if_pos rfl]
  refine (sat_confirmLiquidTxFee hquiet₄ _).mono ?_ (fun _ _ h' => h')
  intro _ s₅ hs₅
  obtain ⟨hin, hout, warning, hquiet₅⟩ := hs₅
  refine sat_sendSignatures_quiet hothers hquiet₅ _ fun rest => ?_
  intro events hevents hmsgs data hmem signature hsig source id signature' hbody hne
  obtain rfl : signature = signature' := by
    cases hbody
    rfl
  refine ⟨network, request, told, hopen, htold, ⟨msgs, hmsgs, hsaid⟩, ?_,
    ⟨⟨shown, warning, rest, ?_, hshown⟩, hreq.fee,
      ⟨infos, hreq.outputInfo, ?_, summariesAgree_of_validate hreq hst hin hout⟩, hreq.shape⟩,
    signsLiquidInput_of_signatureOf hst hhash hmem hne hsig⟩
  · intro t hmem
    obtain ⟨i, hi⟩ := List.mem_iff_getElem?.1 hmem
    have hlt : i < st.inputs.length := hst.length_inputs ▸ lt_of_getElem? hi
    exact (hst.inputs i _ t (List.getElem?_eq_getElem hlt) hi).genuine
  · rw [hevents, List.nil_append, ← accepted_append, ← accepted_append]
  · intro i out info hout hinfo hvalidated
    have hknown := hreq.known i out info hout hinfo
    obtain ⟨hunblinded, e, -, hscript⟩ := hknown.validated hvalidated
    exact ⟨hknown.unblinded hunblinded, e, info.message, hscript⟩

end Run

/-! ### A run -/

/-- A transaction with an output that is blinded and a fee. -/
def toyElementsTx : Tx where
  inputs := [{ txhash := List.replicate 32 7, index := 0 }]
  outputs := [regtestOutput,
    { satoshi := 0, script := [], asset := 1 :: regtestAsset.reverse,
      value := 1 :: Bytes.ofNatBE 8 1000 }]

/-- The small wallet, for that transaction. -/
def toyLiquidLib : SignTxLib Unit Bytes :=
  { toySignTxLib with
    txFromBytes := fun bytes _ => if bytes = [3] then some toyElementsTx else none
    txIsElements := fun _ => true }

/-- The data of its output, with the key it is blinded for. -/
def toyBlindedItem : Bytes :=
  0xa5 :: regtestItem.drop 1 ++ shortText "blinding_key" ++ [0x58, 0x21] ++ List.replicate 33 2

/-- The request to sign it, with those data. -/
def toySignLiquidTx : Incoming Bytes :=
  toyIncoming "sign_liquid_tx" (0xa4 :: shortText "network" ++ shortText "localtest-liquid" ++
    shortText "num_inputs" ++ [0x01] ++ shortText "txn" ++ [0x41, 0x03] ++
    shortText "trusted_commitments" ++ 0x82 :: toyBlindedItem ++ [0xf6])

/-- The message about its input, with the commitment to its value. -/
def toyLiquidInput : Incoming Bytes :=
  toyIncoming "tx_input" (0xa4 :: shortText "is_witness" ++ [0xf5] ++ shortText "path" ++
    [0x81, 0x00] ++ shortText "script" ++ [0x41, 0x51] ++ shortText "value_commitment" ++
    [0x58, 0x21] ++ regtestCommitment)

end Jade
