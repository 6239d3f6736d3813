/-
**The summaries of a Liquid transaction (`sign_utils.c`).**

The host states what the wallet puts in and gets out, asset by asset.  The device books what it can
verify to the summaries: change against what is put in, the other outputs of the wallet as what it
gets, and later the inputs.  A summary is valid when what is booked is what was stated.  Amounts are
added modulo `2^64`.

Main definitions:

* `Jade.Booked` — what was booked to summaries;
* `Jade.walletOutputs` — the outputs of the wallet, by asset;
* `Jade.FeeFound` — the fee output of a transaction.

Main results:

* `Jade.Booked.balance` — in a valid summary, what is stated of an asset is what was booked;
* `Jade.validateElementsOutputs_booked` — the outputs are booked;
* `Jade.paramsTxnValidate_fee` — the explicit fee is that of the fee output.
-/

import Jade.Lib.Tally
import Jade.SignTx.Messages
import Mathlib.Data.UInt

set_option relaxedAutoImplicit false
set_option autoImplicit false

namespace Jade

open Exec

/-! ### Accounts -/

/-- What the host states of an asset. -/
def AssetSummary.stated (sum : AssetSummary) : Bytes × UInt64 := (sum.assetId, sum.value)

/-- What the device has verified of it. -/
def AssetSummary.validated (sum : AssetSummary) : Bytes × UInt64 :=
  (sum.assetId, sum.validatedValue)

/-- What was booked to summaries that started from nothing. -/
def Booked (postings : List (Bytes × UInt64)) (sums : List AssetSummary) : Prop :=
  sums.map AssetSummary.validated =
    Tally.creditAll postings (sums.map fun sum => (sum.assetId, (0 : UInt64)))

section Accounts

variable {postings : List (Bytes × UInt64)} {sums : List AssetSummary}

/-- The accounts are those of the ledger. -/
theorem map_validated_update (assetId : Bytes) (value : UInt64) (sums : List AssetSummary) :
    (assetSummaryUpdate assetId value sums).map AssetSummary.validated =
      Tally.credit (assetId, value) (sums.map AssetSummary.validated) := by
  induction sums with
  | nil => rfl
  | cons sum sums ih =>
      rw [assetSummaryUpdate, List.map_cons, Tally.credit]
      by_cases hsame : sum.assetId = assetId
      · have hkey : sum.validated.1 = (assetId, value).1 := hsame
        rw [if_pos (beq_iff_eq.2 hsame), if_pos hkey]
        rfl
      · have hkey : sum.validated.1 ≠ (assetId, value).1 := hsame
        rw [if_neg (mt beq_iff_eq.1 hsame), if_neg hkey, List.map_cons, ih]

theorem map_stated_update (assetId : Bytes) (value : UInt64) (sums : List AssetSummary) :
    (assetSummaryUpdate assetId value sums).map AssetSummary.stated =
      sums.map AssetSummary.stated := by
  induction sums with
  | nil => rfl
  | cons sum sums ih =>
      rw [assetSummaryUpdate]
      split
      · rfl
      · rw [List.map_cons, List.map_cons, ih]

theorem map_blank_of_stated {sums sums' : List AssetSummary}
    (h : sums'.map AssetSummary.stated = sums.map AssetSummary.stated) :
    (sums'.map fun sum => (sum.assetId, (0 : UInt64))) =
      sums.map fun sum => (sum.assetId, (0 : UInt64)) := by
  have hmap := congrArg (List.map fun entry : Bytes × UInt64 => (entry.1, (0 : UInt64))) h
  rw [List.map_map, List.map_map] at hmap
  exact hmap

theorem booked_nil (h : ∀ sum ∈ sums, sum.validatedValue = 0) : Booked [] sums := by
  rw [Booked, Tally.creditAll_nil]
  refine List.map_congr_left fun sum hmem => ?_
  rw [AssetSummary.validated, h sum hmem]

theorem Booked.update (h : Booked postings sums) (assetId : Bytes) (value : UInt64) :
    Booked (postings ++ [(assetId, value)]) (assetSummaryUpdate assetId value sums) := by
  rw [Booked, map_validated_update, h, map_blank_of_stated (map_stated_update assetId value sums),
    Tally.creditAll_append]
  rfl

theorem stated_eq_validated (h : assetSummaryValidate sums = true) :
    sums.map AssetSummary.stated = sums.map AssetSummary.validated := by
  refine List.map_congr_left fun sum hmem => ?_
  rw [assetSummaryValidate, List.all_eq_true] at h
  rw [AssetSummary.stated, AssetSummary.validated, beq_iff_eq.1 (h sum hmem)]

/-- **In a valid summary, what is stated of an asset is what was booked.** -/
theorem Booked.balance (h : Booked postings sums) (hvalid : assetSummaryValidate sums = true)
    {assetId : Bytes} (hmem : assetId ∈ sums.map AssetSummary.assetId) :
    Tally.total assetId (sums.map AssetSummary.stated) = Tally.total assetId postings := by
  have hkey : assetId ∈ (sums.map fun sum => (sum.assetId, (0 : UInt64))).map Prod.fst := by
    rw [List.map_map]
    exact hmem
  rw [stated_eq_validated hvalid, h, Tally.total_creditAll hkey, Tally.total_map_zero, zero_add]

end Accounts

/-! ### Reading -/

section Reading

variable {V : Type} {C : TinyCborArrays V}

theorem assetSummaryItem_blank {item : V} {sum : AssetSummary}
    (h : assetSummaryItem C item = .ok (some sum)) : sum.validatedValue = 0 := by
  rw [assetSummaryItem] at h
  split at h
  · cases h
  · obtain ⟨assetId, -, h⟩ := bind_eq_ok.1 h
    split at h
    · cases h
    · obtain ⟨value, -, rfl⟩ := Option.map_eq_some_iff.1 (pure_eq_ok.1 h)
      rfl

theorem assetSummaryItems_blank {items : List V} {sums : List AssetSummary}
    (h : assetSummaryItems C items = .ok (some sums)) : ∀ sum ∈ sums, sum.validatedValue = 0 := by
  induction items generalizing sums with
  | nil =>
      obtain rfl := Option.some.inj (Except.ok.inj h)
      intro sum hmem
      cases hmem
  | cons item items ih =>
      obtain ⟨first, hfirst, h⟩ := bind_eq_ok.1 h
      cases first with
      | none => cases h
      | some sum =>
          obtain ⟨rest, hrest, h⟩ := bind_eq_ok.1 h
          obtain ⟨rest', rfl, rfl⟩ := Option.map_eq_some_iff.1 (pure_eq_ok.1 h)
          exact List.forall_mem_cons.2 ⟨assetSummaryItem_blank hfirst, ih hrest⟩

/-- Nothing is booked to a summary that was just read. -/
theorem rpcGetAssetSummary_blank {field : String} {value : V} {sums : List AssetSummary}
    (h : rpcGetAssetSummary C field value = .ok sums) : ∀ sum ∈ sums, sum.validatedValue = 0 := by
  have hnothing : ∀ sum ∈ ([] : List AssetSummary), sum.validatedValue = 0 :=
    fun _ hmem => (List.not_mem_nil hmem).elim
  rw [rpcGetAssetSummary] at h
  split at h
  · obtain rfl := Except.ok.inj h
    exact hnothing
  · obtain rfl := Except.ok.inj h
    exact hnothing
  · split at h
    · obtain ⟨sums', hsums, h⟩ := bind_eq_ok.1 h
      obtain rfl := pure_eq_ok.1 h
      cases sums' with
      | none => exact hnothing
      | some sums => exact assetSummaryItems_blank hsums
    · obtain rfl := Except.ok.inj h
      exact hnothing

theorem AdditionalInfo.read_blank {params : V} {info : AdditionalInfo}
    (h : AdditionalInfo.read C params = .ok (some info)) :
    Booked [] info.inSums ∧ Booked [] info.outSums := by
  rw [AdditionalInfo.read] at h
  split at h
  · cases h
  · obtain ⟨inSums, hin, h⟩ := bind_eq_ok.1 h
    obtain ⟨outSums, hout, h⟩ := bind_eq_ok.1 h
    obtain ⟨txType, -, h⟩ := bind_eq_ok.1 h
    obtain rfl := Option.some.inj (pure_eq_ok.1 h)
    exact ⟨booked_nil (rpcGetAssetSummary_blank hin), booked_nil (rpcGetAssetSummary_blank hout)⟩

end Reading

/-- A proposal of a swap has one input, one output and one summary of each. -/
def ProposalShape (txType : TxType) (tx : Tx) (isPartial : Bool)
    (inSums outSums : List AssetSummary) : Prop :=
  txType = .swap → isPartial = true → tx.inputs.length = 1 ∧ tx.outputs.length = 1 ∧
    inSums.length = 1 ∧ outSums.length = 1

theorem proposalShape_of_validate {tx : Tx} {txType : TxType} {info : AdditionalInfo}
    (h : validateAdditionalInfo tx txType info = .ok ()) :
    ProposalShape txType tx info.isPartial info.inSums info.outSums := by
  intro hswap hpartial
  rw [validateAdditionalInfo, if_pos hswap] at h
  obtain ⟨_, -, h⟩ := bind_eq_ok.1 h
  rw [if_pos hpartial, rejectUnless_eq_ok] at h
  simp only [Bool.and_eq_true, beq_iff_eq] at h
  exact ⟨h.1.1.1.1, h.1.1.1.2, h.1.1.2, h.1.2⟩

/-- The section of a request. -/
theorem paramsAdditionalInfo_eq_ok {tx : Tx} {additional : Option AdditionalInfo}
    {txType : TxType} {info : AdditionalInfo}
    (h : paramsAdditionalInfo tx additional = .ok (txType, info)) :
    (additional = some info ∨ info = {}) ∧
      ProposalShape txType tx info.isPartial info.inSums info.outSums := by
  cases additional with
  | none =>
      obtain ⟨rfl, rfl⟩ := Prod.mk.inj (Except.ok.inj h)
      exact ⟨.inr rfl, fun hswap => by cases hswap⟩
  | some info' =>
      rw [paramsAdditionalInfo] at h
      split at h
      · cases h
      · obtain ⟨_, hvalid, h⟩ := bind_eq_ok.1 h
        obtain ⟨rfl, rfl⟩ := Prod.mk.inj (pure_eq_ok.1 h)
        exact ⟨.inl rfl, proposalShape_of_validate hvalid⟩


/-! ### The outputs of the wallet -/

/-- The outputs of the wallet that are change, or that are not. -/
def walletOutputs (change : Bool) (infos : List OutputInfo) : List (Bytes × UInt64) :=
  (infos.filter fun info => info.validated && info.change == change).map fun info =>
    (info.assetId, info.value)

/-- What is put in less what comes back. -/
def opposite (entries : List (Bytes × UInt64)) : List (Bytes × UInt64) :=
  entries.map fun entry => (entry.1, 0 - entry.2)

/-- What is known of every output before it is shown. -/
structure OutputChecked (txType : TxType) (info : OutputInfo) : Prop where
  validated : info.validated = true → info.hasUnblinded = true
  blinded : txType ≠ .swap → info.confidential = true →
    info.hasUnblinded = true ∧ info.hasBlindingKey = true

/-- One output of the wallet is booked. -/
def bookOutput (info : OutputInfo) (sums : List AssetSummary × List AssetSummary) :
    List AssetSummary × List AssetSummary :=
  if info.validated then
    if info.change then (assetSummaryUpdate info.assetId (0 - info.value) sums.1, sums.2)
    else (sums.1, assetSummaryUpdate info.assetId info.value sums.2)
  else sums

theorem bookOutput_eq_ok {α : Type} {info : OutputInfo}
    {f : List AssetSummary → List AssetSummary → Except SignErr α}
    {sums : List AssetSummary × List AssetSummary} {a : α}
    (h : (if info.validated = true then do
        assertThat info.hasUnblinded
        if info.change = true then
          f (assetSummaryUpdate info.assetId (0 - info.value) sums.1) sums.2
        else f sums.1 (assetSummaryUpdate info.assetId info.value sums.2)
      else f sums.1 sums.2) = .ok a) :
    (info.validated = true → info.hasUnblinded = true) ∧
      f (bookOutput info sums).1 (bookOutput info sums).2 = .ok a := by
  rw [bookOutput]
  split at h
  · next hvalidated =>
      obtain ⟨_, hunblinded, h⟩ := bind_eq_ok.1 h
      refine ⟨fun _ => assertThat_eq_ok.1 hunblinded, ?_⟩
      rw [if_pos hvalidated]
      split at h
      · next hchange =>
          rw [if_pos hchange]
          exact h
      · next hchange =>
          rw [if_neg hchange]
          exact h
  · next hvalidated =>
      refine ⟨fun htrue => absurd htrue hvalidated, ?_⟩
      rw [if_neg hvalidated]
      exact h

/-- An output is checked, and booked. -/
theorem validateElementsOutputs_cons {txType : TxType} {info : OutputInfo} {infos : List OutputInfo}
    {sums sums' : List AssetSummary × List AssetSummary}
    (h : validateElementsOutputs txType (info :: infos) sums.1 sums.2 = .ok sums') :
    OutputChecked txType info ∧
      validateElementsOutputs txType infos (bookOutput info sums).1 (bookOutput info sums).2 =
        .ok sums' := by
  rw [validateElementsOutputs] at h
  split at h
  · obtain ⟨_, hdata, h⟩ := bind_eq_ok.1 h
    rw [rejectUnless_eq_ok, Bool.and_eq_true] at hdata
    obtain ⟨hvalidated, h⟩ := bookOutput_eq_ok h
    exact ⟨⟨hvalidated, fun _ _ => hdata⟩, h⟩
  · next hclear =>
      obtain ⟨hvalidated, h⟩ := bookOutput_eq_ok h
      refine ⟨⟨hvalidated, fun hpayment hconfidential => absurd ?_ hclear⟩, h⟩
      rw [hconfidential, Bool.and_true, decide_eq_true_iff]
      exact hpayment

/-- The summaries of the outputs of `infos`, from `sums` on. -/
structure OutputsBooked (infos : List OutputInfo) (ins outs : List (Bytes × UInt64))
    (sums sums' : List AssetSummary × List AssetSummary) : Prop where
  inStated : sums'.1.map AssetSummary.stated = sums.1.map AssetSummary.stated
  outStated : sums'.2.map AssetSummary.stated = sums.2.map AssetSummary.stated
  inBooked : Booked (ins ++ opposite (walletOutputs true infos)) sums'.1
  outBooked : Booked (outs ++ walletOutputs false infos) sums'.2

theorem walletOutputs_cons (change : Bool) (info : OutputInfo) (infos : List OutputInfo) :
    walletOutputs change (info :: infos) =
      walletOutputs change [info] ++ walletOutputs change infos := by
  rw [walletOutputs, walletOutputs, walletOutputs, ← List.map_append, ← List.filter_append]
  rfl

/-- One output is booked. -/
theorem bookOutput_booked {info : OutputInfo} {ins outs : List (Bytes × UInt64)}
    {sums : List AssetSummary × List AssetSummary} (hin : Booked ins sums.1)
    (hout : Booked outs sums.2) : OutputsBooked [info] ins outs sums (bookOutput info sums) := by
  have hnone : Booked (ins ++ []) sums.1 ∧ Booked (outs ++ []) sums.2 := by
    rw [List.append_nil, List.append_nil]
    exact ⟨hin, hout⟩
  rw [bookOutput]
  cases hvalidated : info.validated with
  | false =>
      have hothers : ∀ change, walletOutputs change [info] = [] := by
        intro change
        rw [walletOutputs, List.filter_cons, hvalidated]
        rfl
      refine ⟨rfl, rfl, ?_, ?_⟩
      · rw [hothers]
        exact hnone.1
      · rw [hothers]
        exact hnone.2
  | true =>
      have hown : ∀ change, walletOutputs change [info] =
          if info.change == change then [(info.assetId, info.value)] else [] := by
        intro change
        rw [walletOutputs, List.filter_cons, hvalidated, Bool.true_and]
        split <;> rfl
      cases hchange : info.change with
      | true =>
          refine ⟨map_stated_update _ _ _, rfl, ?_, ?_⟩
          · rw [hown, hchange]
            exact hin.update _ _
          · rw [hown, hchange]
            exact hnone.2
      | false =>
          refine ⟨rfl, map_stated_update _ _ _, ?_, ?_⟩
          · rw [hown, hchange]
            exact hnone.1
          · rw [hown, hchange]
            exact hout.update _ _

/-- **The outputs of the wallet are booked.** -/
theorem validateElementsOutputs_booked {txType : TxType} {infos : List OutputInfo}
    {ins outs : List (Bytes × UInt64)} {sums sums' : List AssetSummary × List AssetSummary}
    (hin : Booked ins sums.1) (hout : Booked outs sums.2)
    (h : validateElementsOutputs txType infos sums.1 sums.2 = .ok sums') :
    (∀ info ∈ infos, OutputChecked txType info) ∧ OutputsBooked infos ins outs sums sums' := by
  induction infos generalizing ins outs sums with
  | nil =>
      obtain rfl := Except.ok.inj h
      refine ⟨fun _ hmem => (List.not_mem_nil hmem).elim, rfl, rfl, ?_, ?_⟩
      · exact (List.append_nil ins).symm ▸ hin
      · exact (List.append_nil outs).symm ▸ hout
  | cons info infos ih =>
      obtain ⟨hchecked, h⟩ := validateElementsOutputs_cons h
      have hbooked : OutputsBooked [info] ins outs sums (bookOutput info sums) :=
        bookOutput_booked hin hout
      obtain ⟨hall, hrest⟩ := ih hbooked.inBooked hbooked.outBooked h
      refine ⟨List.forall_mem_cons.2 ⟨hchecked, hall⟩, hrest.inStated.trans hbooked.inStated,
        hrest.outStated.trans hbooked.outStated, ?_, ?_⟩
      · rw [walletOutputs_cons, opposite, List.map_append, ← List.append_assoc]
        exact hrest.inBooked
      · rw [walletOutputs_cons, ← List.append_assoc]
        exact hrest.outBooked

/-! ### The fee output -/

/-- A fee output. -/
structure IsFee (policyAsset : Bytes) (out : TxOutput) : Prop where
  script : out.script = []
  asset : out.asset = WALLY_TX_ASSET_CT_EXPLICIT_PREFIX :: policyAsset.reverse
  value : out.value.head? = some WALLY_TX_ASSET_CT_EXPLICIT_PREFIX

/-- The fee found among the outputs `done`; it is zero when there is none. -/
inductive FeeFound (policyAsset : Bytes) (done : List TxOutput) : UInt64 → Prop
  | none : (∀ out ∈ done, out.script ≠ []) → FeeFound policyAsset done 0
  | output {before after : List TxOutput} {out : TxOutput} {fee : UInt64} :
      done = before ++ out :: after → (∀ out' ∈ before ++ after, out'.script ≠ []) →
      IsFee policyAsset out → fee = confidentialValueToSatoshi out.value → fee ≠ 0 →
      FeeFound policyAsset done fee

/-- One output: one with a script is passed over, and there is one fee output at most. -/
theorem txnValidateOutput_eq_ok {policyAsset : Bytes} {fee fee' : UInt64} {out : TxOutput}
    (h : txnValidateOutput policyAsset fee out = .ok fee') :
    (out.script ≠ [] ∧ fee' = fee) ∨
    (IsFee policyAsset out ∧ fee = 0 ∧ fee' ≠ 0 ∧ fee' = confidentialValueToSatoshi out.value) := by
  obtain ⟨_, hasset, h⟩ := bind_eq_ok.1 h
  obtain ⟨_, -, h⟩ := bind_eq_ok.1 h
  obtain ⟨_, -, h⟩ := bind_eq_ok.1 h
  obtain ⟨_, -, h⟩ := bind_eq_ok.1 h
  split at h
  · next hscript =>
      obtain rfl := pure_eq_ok.1 h
      refine .inl ⟨?_, rfl⟩
      simpa using hscript
  · next hscript =>
      obtain ⟨_, hexplicit, h⟩ := bind_eq_ok.1 h
      obtain ⟨_, hfirst, h⟩ := bind_eq_ok.1 h
      obtain ⟨_, hfee, h⟩ := bind_eq_ok.1 h
      obtain ⟨_, hpolicy, h⟩ := bind_eq_ok.1 h
      obtain rfl := pure_eq_ok.1 h
      rw [rejectUnless_eq_ok, Bool.and_eq_true, beq_iff_eq, beq_iff_eq] at hexplicit
      rw [rejectUnless_eq_ok, beq_iff_eq] at hfirst hpolicy
      rw [rejectUnless_eq_ok, bne_iff_ne] at hfee
      refine .inr ⟨⟨by simpa using hscript, ?_, hexplicit.2⟩, hfirst, hfee, rfl⟩
      rw [← hpolicy, List.drop_one]
      exact List.eq_cons_of_mem_head? hexplicit.1

theorem FeeFound.step {policyAsset : Bytes} {done : List TxOutput} {fee fee' : UInt64}
    {out : TxOutput} (hfound : FeeFound policyAsset done fee)
    (h : txnValidateOutput policyAsset fee out = .ok fee') :
    FeeFound policyAsset (done ++ [out]) fee' := by
  rcases txnValidateOutput_eq_ok h with ⟨hscript, rfl⟩ | ⟨hout, rfl, hne, rfl⟩
  · cases hfound with
    | none hall =>
        refine .none (List.forall_mem_append.2 ⟨hall, ?_⟩)
        exact List.forall_mem_singleton.2 hscript
    | @output before after _ _ hdone hothers hisFee hvalue hne =>
        have hall : ∀ out' ∈ before ++ after ++ [out], out'.script ≠ [] :=
          List.forall_mem_append.2 ⟨hothers, List.forall_mem_singleton.2 hscript⟩
        rw [List.append_assoc] at hall
        refine .output ?_ hall hisFee hvalue hne
        rw [hdone, List.append_assoc, List.cons_append]
  · cases hfound with
    | none hall =>
        refine .output rfl ?_ hout rfl hne
        rw [List.append_nil]
        exact hall
    | output _ _ _ _ hne' => exact absurd rfl hne'

/-- **The explicit fee is that of the fee output**, of which there is one at most. -/
theorem paramsTxnValidate_fee {network : Network} {isElements : Bool} {tx : Tx} {fee : UInt64}
    (h : paramsTxnValidate network true isElements tx = .ok fee) :
    ∃ policyAsset, networkToPolicyAsset network = some policyAsset ∧
      FeeFound policyAsset tx.outputs fee := by
  obtain ⟨_, -, h⟩ := bind_eq_ok.1 h
  split at h
  · next hfalse => cases hfalse
  · split at h
    · cases h
    · next policyAsset hpolicy =>
        exact ⟨policyAsset, hpolicy, foldlM_eq_ok (FeeFound policyAsset) tx.outputs
          (fun _ _ _ _ _ _ hfound hstep => hfound.step hstep)
          (.none fun _ hmem => (List.not_mem_nil hmem).elim) h⟩

end Jade
