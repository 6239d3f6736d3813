/-
**Which input amounts are vouched for.**

The fee on the screen is what the inputs have over the outputs.  The host tells what the inputs have,
and there are two ways to hold it to its word: the amount is read off the previous transaction, whose
id is in the prevout, or it goes into the hash of a signature that the device gives out.  A segwit
signature vouches for the amount of its own input, a taproot signature for those of all inputs.

`sign_psbt` does not ask for either.  A foreign input, or an old-style one, may come with nothing but
an output the host made up.

Main definitions:

* `Jade.FromPrevTx` — the amount is read off the previous transaction;
* `Jade.AmountsVouched` — every amount that went into the fee is vouched for;
* `Jade.VouchedInputs` — the PSBTs whose amounts are.

Main results:

* `Jade.amountsVouched_iff` — **exactly when a run vouches for the amounts**;
* `Jade.amountsVouched_fails_on_foreign` — a foreign segwit input next to one of the wallet.
-/

import Jade.SignPsbt.Scan

set_option relaxedAutoImplicit false
set_option autoImplicit false

namespace Jade

open Exec Mweb

variable {K P : Type} (D : Device K P)

/-- The amount of an input is that of the output it spends, in a transaction with the id that the
prevout gives. -/
def FromPrevTx (txid : Tx → Bytes) (psbt : Psbt) (i : ℕ) (input : PsbtInput) : Prop :=
  ∃ tx txin prev output, fetchTx D psbt = .ok tx ∧ tx.inputs[i]? = some txin ∧
    input.utxo = some prev ∧ txid prev = txin.txhash ∧
    prev.outputs[txin.index.toNat]? = some output ∧ output.satoshi.toNat = stdAmount input

/-- **Every amount that went into the fee is vouched for**: by the previous transaction, by a segwit
signature for the same input, or by a taproot signature.  This is asked only when something was
signed; with a session the fee shown is that of the kernel, and no amount of an input goes into it. -/
def AmountsVouched (txid : Tx → Bytes) (psbt : Psbt) (signed : List (ℕ × SigType)) : Prop :=
  signPsbtHasMwebComponent psbt = false → signed ≠ [] →
    ∀ i input, psbt.inputs[i]? = some input →
      FromPrevTx D txid psbt i input ∨ (i, .swV0) ∈ signed ∨ ∃ j, (j, .swV1) ∈ signed

/-- The transaction has parts in the extension block, nothing is signed, some input is signed with
taproot, or each input comes with its previous transaction or is signed with segwit. -/
def VouchedInputs (txid : Tx → Bytes) (psbt : Psbt) : Prop :=
  signPsbtHasMwebComponent psbt = true ∨ (∀ i, signsWith D psbt i = none) ∨
    (∃ i, signsWith D psbt i = some .swV1) ∨
    ∀ i input, psbt.inputs[i]? = some input →
      FromPrevTx D txid psbt i input ∨ signsWith D psbt i = some .swV0

/-- The signatures of a run are those of the inputs with keys of the wallet. -/
theorem mem_signed_iff {network : Network} (hliquid : networkIsLiquid network = false)
    {additional : Option AdditionalInfo} {psbt : Psbt} {tape : Tape} {s' : SignState}
    (hrun : (signPsbt D network additional).run (.start psbt tape) = .ok () s') {i : ℕ}
    {t : SigType} : (i, t) ∈ s'.signed ↔ signsWith D psbt i = some t := by
  obtain ⟨p, w, hp, hbtc⟩ := (sat_signPsbt_btc D hliquid additional _ rfl).ok hrun
  have hscan := scanned_scanInputs D hliquid (preparedFrom_of_prepare D hp).scan
  rw [hbtc.signed, SignState.start_signed, List.nil_append]
  exact mem_signatures_iff D hscan

/-- **Exactly when a run vouches for the amounts it has added up.** -/
theorem amountsVouched_iff (txid : Tx → Bytes) {network : Network}
    (hliquid : networkIsLiquid network = false) {additional : Option AdditionalInfo} {psbt : Psbt}
    {tape : Tape} {s' : SignState}
    (hrun : (signPsbt D network additional).run (.start psbt tape) = .ok () s') :
    AmountsVouched D txid psbt s'.signed ↔ VouchedInputs D txid psbt := by
  have hmem : ∀ i t, (i, t) ∈ s'.signed ↔ signsWith D psbt i = some t :=
    fun i t => mem_signed_iff D hliquid hrun
  constructor
  · intro h
    by_cases hmweb : signPsbtHasMwebComponent psbt = true
    · exact .inl hmweb
    by_cases hnone : ∀ i, signsWith D psbt i = none
    · exact .inr (.inl hnone)
    by_cases htaproot : ∃ i, signsWith D psbt i = some .swV1
    · exact .inr (.inr (.inl htaproot))
    refine .inr (.inr (.inr fun i input hi => ?_))
    have hne : s'.signed ≠ [] := by
      intro hnil
      refine hnone fun i => ?_
      cases hsigns : signsWith D psbt i with
      | none => rfl
      | some t => simpa [hnil] using (hmem i t).2 hsigns
    rcases h (Bool.eq_false_iff.2 hmweb) hne i input hi with hprev | hsegwit | ⟨j, hj⟩
    · exact .inl hprev
    · exact .inr ((hmem i .swV0).1 hsegwit)
    · exact absurd ⟨j, (hmem j .swV1).1 hj⟩ htaproot
  · intro h hmweb hne i input hi
    rcases h with hmweb' | hnone | ⟨j, hj⟩ | hall
    · simp [hmweb] at hmweb'
    · obtain ⟨⟨j, t⟩, hj⟩ := List.exists_mem_of_ne_nil _ hne
      have hsigns := (hmem j t).1 hj
      rw [hnone j] at hsigns
      simp at hsigns
    · exact .inr (.inr ⟨j, (hmem j .swV1).2 hj⟩)
    · rcases hall i input hi with hprev | hsegwit
      · exact .inl hprev
      · exact .inr (.inl ((hmem i .swV0).2 hsegwit))

/-! ### Two inputs -/

/-- A payment of 5 from an input of the wallet and one of somebody else, 7 each; the host has sent the
previous transaction of the second one or not. -/
def foreignPsbt (prev : Option Tx) : Psbt where
  version := 0
  tx := some {
    inputs := [{ txhash := [1], index := 0 }, { txhash := [2], index := 0 }]
    outputs := [{ satoshi := 5, script := segwitScript }] }
  inputs := [
    { bestUtxo := some { satoshi := 7, script := segwitScript }
      keypaths := [⟨2 :: List.replicate 32 1, [1, 2, 3, 4], [0, 0]⟩] },
    { bestUtxo := some { satoshi := 7, script := segwitScript }, utxo := prev }]
  outputs := [{ amount := some 5, script := segwitScript }]

/-- The transaction that the second input spends. -/
def foreignPrevTx : Tx where
  outputs := [{ satoshi := 7, script := segwitScript }]

/-- A transaction id that tells it from others. -/
def foreignTxid (tx : Tx) : Bytes := if tx = foreignPrevTx then [2] else []

theorem amountsVouched_iff_prevTx : ∃ s',
    (signPsbt pairDevice .bitcoin none).run (.start (foreignPsbt (some foreignPrevTx)) plainTape) =
        .ok () s' ∧
      AmountsVouched pairDevice foreignTxid (foreignPsbt (some foreignPrevTx)) s'.signed := by
  obtain ⟨s', hrun⟩ := exists_run_of_returns pairDevice .bitcoin
    (foreignPsbt (some foreignPrevTx)) plainTape (by decide +kernel)
  refine ⟨s', hrun, (amountsVouched_iff pairDevice foreignTxid rfl hrun).2 (.inr (.inr (.inr ?_)))⟩
  intro i input hi
  rcases i with _ | _ | i
  · exact .inr (by decide)
  · obtain rfl := Option.some.inj hi
    exact .inl ⟨_, { txhash := [2], index := 0 }, foreignPrevTx, _, rfl, rfl, rfl, by decide, rfl,
      rfl⟩
  · simp [foreignPsbt] at hi

/-- The wallet signs its input, and nothing vouches for the 7 of the other. -/
theorem amountsVouched_fails_on_foreign : ∃ s',
    (signPsbt pairDevice .bitcoin none).run (.start (foreignPsbt none) plainTape) = .ok () s' ∧
      ¬AmountsVouched pairDevice foreignTxid (foreignPsbt none) s'.signed := by
  obtain ⟨s', hrun⟩ := exists_run_of_returns pairDevice .bitcoin (foreignPsbt none) plainTape
    (by decide +kernel)
  refine ⟨s', hrun, fun h => ?_⟩
  have hmem : ∀ i t, (i, t) ∈ s'.signed ↔ signsWith pairDevice (foreignPsbt none) i = some t :=
    fun i t => mem_signed_iff pairDevice rfl hrun
  have hfirst : (0, SigType.swV0) ∈ s'.signed := (hmem 0 .swV0).2 (by decide)
  rcases h (by decide) (List.ne_nil_of_mem hfirst) 1 _ rfl with
    ⟨_, _, _, _, -, -, hprev, -⟩ | hsegwit | ⟨j, hj⟩
  · simp at hprev
  · exact absurd ((hmem 1 .swV0).1 hsegwit) (by decide)
  · have hsigns := (hmem j .swV1).1 hj
    rcases j with _ | _ | j
    · exact absurd hsigns (by decide)
    · exact absurd hsigns (by decide)
    · simp [signsWith, foreignPsbt] at hsigns

end Jade
