/-
**The amounts of the extension block that reach a screen.**

The MWEB outputs, the pegouts, the pegin and the fee of a session are shown one by one, and each
screen takes its amount from the session and not from the PSBT. The session has refused everything
outside of the money range before the first of them, so no run shows an amount above the cap,
whether it is signed, declined or refused on the way.

Main definitions:

* `Jade.Screen.sessionAmount` — the amount on a screen that shows one of the session;
* `Jade.AmountsShown` — every such amount is at most the cap;
* `Jade.SessionMatchesSigner` — the session, the signer and the screens agree.

Main results:

* `Jade.sat_signPsbt_amounts` — a run shows amounts up to the cap only;
* `Jade.session_matches_signer` — **what the session has checked, the signer accepts and the screens
  show**.
-/

import Jade.Mweb.Balance
import Jade.Mweb.SignerChecks
import Jade.SignPsbt.Run

set_option relaxedAutoImplicit false
set_option autoImplicit false

namespace Jade

open Exec Mweb

/-! ### Amounts on screens -/

/-- The amount on a screen of the extension block, or on the last one. -/
def Screen.sessionAmount : Screen → Option UInt64
  | .mwebOutput _ _ _ _ amount => some amount
  | .pegout _ _ _ _ amount => some amount
  | .pegin amount => some amount
  | .fee _ amount _ => some amount
  | _ => none

/-- The amount on the screen, if it is one of the session, is at most the cap. -/
def Screen.capped (screen : Screen) : Prop :=
  ∀ amount, screen.sessionAmount = some amount → amount ≤ MWEB_LTC_MAX_LITOSHI

/-- Every amount of the session that was shown is at most the cap. -/
def AmountsShown (answers : Answers) : Prop := ∀ answer ∈ answers, answer.1.capped

theorem capped_of_none {screen : Screen} (h : screen.sessionAmount = none) : screen.capped := by
  intro amount hamount
  rw [h] at hamount
  cases hamount

theorem capped_of_some {screen : Screen} {amount : UInt64}
    (h : screen.sessionAmount = some amount) (hle : amount ≤ MWEB_LTC_MAX_LITOSHI) :
    screen.capped := by
  intro amount' hamount
  obtain rfl : amount = amount' := Option.some.inj (h.symm.trans hamount)
  exact hle

theorem keeps_ask (user : User) {screen : Screen} (h : screen.capped) :
    Keeps AmountsShown (ask user screen) := by
  intro log hlog
  exact (sat_ask user screen).2 (List.forall_mem_append.2 ⟨hlog, List.forall_mem_singleton.2 h⟩)

theorem keeps_askAll (user : User) {screens : List Screen} (h : ∀ screen ∈ screens, screen.capped) :
    Keeps AmountsShown (askAll user screens) := by
  induction screens with
  | nil => exact Keeps.pure _
  | cons screen screens ih =>
      obtain ⟨hfirst, hrest⟩ := List.forall_mem_cons.1 h
      exact (keeps_ask user hfirst).bind fun _ => Keeps.ite (ih hrest) (Keeps.pure _)

theorem keeps_orFault {σ α : Type} {I : σ → Prop} (x : Except Fault α) :
    Keeps I (orFault x : EStateM SignErr σ α) := by
  cases x with
  | ok a => exact Keeps.pure a
  | error f => exact Keeps.throw _

/-- The loop over the outputs of the transaction. -/
theorem keeps_showOutputsLoop (user : User)
    {screens : ℕ → TxOutput → Option OutputInfo → Except Fault (List Screen)}
    (hscreens : ∀ place out info block, screens place out info = .ok block →
      ∀ screen ∈ block, screen.capped)
    (display : TxOutput → Option OutputInfo → Bool) (total : ℕ)
    (outs : List (TxOutput × Option OutputInfo)) (shown : ℕ) :
    Keeps AmountsShown (showOutputsLoop user screens display total outs shown) := by
  induction outs generalizing shown with
  | nil => exact (keeps_orFault _).bind fun _ => Keeps.pure _
  | cons entry outs ih =>
      obtain ⟨out, info⟩ := entry
      refine Keeps.ite ((keeps_orFault _).bind fun _ => ?_) (ih shown)
      intro log hlog
      rw [sat_bind, sat_orFault]
      refine ⟨fun block hblock => ?_, fun _ _ => hlog⟩
      exact ((keeps_askAll user (hscreens _ _ _ _ hblock)).bind fun _ =>
        Keeps.ite (ih _) (Keeps.pure _)) log hlog

theorem keeps_showBtcTransactionOutputs (user : User) (tx : Tx) (infos : Option (List OutputInfo)) :
    Keeps AmountsShown (showBtcTransactionOutputsActivity user tx infos) := by
  refine keeps_showOutputsLoop user ?_ _ _ _ _
  intro place out info block hblock
  obtain rfl := Except.ok.inj hblock
  exact List.forall_mem_singleton.2 (capped_of_none rfl)

/-! ### The session and its screens -/

/-- While the screens are shown: the session is open, its amounts are capped, and so are those that
were shown. -/
structure Showing (s : SignState) : Prop where
  session : ∃ session, s.session = some session ∧ AmountsCapped session
  shown : AmountsShown s.answers

section Model

variable {K P : Type} (D : Device K P)

theorem Showing.display {α : Type} {x : Ui α} (hx : Keeps AmountsShown x) :
    Keeps Showing (Jade.display x) := by
  intro s h
  rw [sat_display]
  exact (hx s.answers h.shown).mono (fun _ _ h' => ⟨h.session, h'⟩) (fun _ _ h' => ⟨h.session, h'⟩)

/-- A confirmation changes no amount. -/
theorem AmountsCapped.marked {session session' : MwebSession} (h : AmountsCapped session)
    (hmarked : Marked session session') : AmountsCapped session' where
  inputs := by rw [hmarked.rest]; exact h.inputs
  outputs := by rw [hmarked.rest]; exact h.outputs
  pegouts := by
    intro sp' hsp'
    have hmem : sp'.pegout ∈ session.pegouts.map SessionPegout.pegout :=
      hmarked.pegouts ▸ List.mem_map_of_mem hsp'
    obtain ⟨sp, hsp, heq⟩ := List.mem_map.1 hmem
    have hamount : sp.amount = sp'.amount := congrArg Pegout.amount heq
    exact hamount ▸ h.pegouts sp hsp
  totalInput := by rw [hmarked.rest]; exact h.totalInput
  totalOutput := by rw [hmarked.rest]; exact h.totalOutput
  totalPegout := by rw [hmarked.rest]; exact h.totalPegout
  fee := by rw [hmarked.rest]; exact h.fee
  pegin := by rw [hmarked.rest]; exact h.pegin

theorem keeps_unlessDeclined (text : String) (accepts : Bool) :
    Keeps Showing (unlessDeclined text accepts) := Keeps.check _ _

theorem keeps_askScreen {screen : Screen} (h : screen.capped) :
    Keeps Showing (display (ask D.user screen)) := Showing.display (keeps_ask D.user h)

theorem keeps_showMwebOutputs (network : Network) (total : ℕ) (outputs : List (PsbtOutput × ℕ))
    (shown : ℕ) : Keeps Showing (showMwebOutputs D network total outputs shown) := by
  induction outputs generalizing shown with
  | nil => exact Keeps.pure _
  | cons entry outputs ih =>
      obtain ⟨output, i⟩ := entry
      refine Keeps.ite ?_ (ih shown)
      intro s h
      rw [sat_bind, sat_get, sat_bind, sat_orReject]
      refine ⟨fun screen hscreen => ?_, fun _ _ => h⟩
      obtain ⟨payload, address, amount, session, -, hsession, hamount, rfl⟩ :=
        mwebOutputScreen_eq_ok hscreen
      -- the amount is that of an output of the session
      obtain ⟨session', hsession', hcapped⟩ := h.session
      obtain rfl : session = session' := Option.some.inj (hsession.symm.trans hsession')
      obtain ⟨so, hso, rfl⟩ := Option.map_eq_some_iff.1 hamount
      have hle := hcapped.outputs so (List.mem_of_find?_eq_some hso)
      exact ((keeps_askScreen D (capped_of_some rfl hle)).bind fun _ =>
        (keeps_unlessDeclined _ _).bind fun _ => ih (shown + 1)) s h

theorem keeps_showPegout (total : ℕ) {pegout : SessionPegout}
    (hle : pegout.amount ≤ MWEB_LTC_MAX_LITOSHI) (p : ℕ) :
    Keeps Showing (showPegout D total pegout p) := by
  refine (keeps_askScreen D (capped_of_some rfl hle)).bind fun _ =>
    (keeps_unlessDeclined _ _).bind fun _ => Keeps.modify fun s h => ?_
  obtain ⟨session, hsession, hcapped⟩ := h.session
  exact ⟨⟨_, by rw [hsession]; rfl, AmountsCapped.marked hcapped (marked_mark p session)⟩, h.shown⟩

theorem keeps_showPegin {session : MwebSession} (h : AmountsCapped session) :
    Keeps Showing (showPegin D session) :=
  Keeps.ite ((keeps_askScreen D (capped_of_some rfl h.pegin)).bind fun _ =>
    keeps_unlessDeclined _ _) (Keeps.pure _)

theorem keeps_confirmMweb (network : Network) : Keeps Showing (confirmMweb D network) := by
  refine Keeps.get.bind fun s₀ => (keeps_showMwebOutputs D network _ _ _).bind fun _ => ?_
  intro s h
  obtain ⟨session, hsession, hcapped⟩ := h.session
  rw [sat_bind, sat_get, hsession]
  refine ((Keeps.forM _ ?_).bind fun _ => keeps_showPegin D hcapped) s h
  intro entry hentry
  obtain ⟨pegout, p⟩ := entry
  exact keeps_showPegout D _ (hcapped.pegouts pegout (List.fst_mem_of_mem_zipIdx hentry)) p

theorem keeps_confirmFee (tx : Tx) (scan : InputScan) (infos : List OutputInfo)
    (totalInputAmount outputAmount : UInt64) :
    Keeps Showing (confirmFee D tx scan infos totalInputAmount outputAmount) := by
  intro s h
  obtain ⟨session, hsession, hcapped⟩ := h.session
  rw [confirmFee, sat_bind, sat_get, hsession]
  exact ((keeps_askScreen D (capped_of_some rfl hcapped.fee)).bind fun _ =>
    keeps_unlessDeclined _ _) s h

/-! ### Runs -/

/-- What is kept in every outcome. -/
abbrev KeepsAmounts {α : Type} (x : S α) : Prop := Keeps (fun s => AmountsShown s.answers) x

theorem keepsAmounts_onWorld {α : Type} (report : MwebErr → SignErr) (x : W α) :
    KeepsAmounts (onWorld report x) := by
  intro s h
  rw [sat_onWorld]
  exact sat_of_forall (fun _ _ => h) fun _ _ => h

/-- The screens after the session is open. -/
theorem keeps_confirmShown (network : Network) (tx : Tx) (scan : InputScan)
    (infos : List OutputInfo) (totalInputAmount outputAmount : UInt64) :
    Keeps Showing (do
      let accepts ← display (showBtcTransactionOutputsActivity D.user tx (some infos))
      unlessDeclined DECLINED_PSBT accepts
      confirmExtension D network
      confirmFee D tx scan infos totalInputAmount outputAmount) :=
  (Showing.display (keeps_showBtcTransactionOutputs D.user tx (some infos))).bind fun _ =>
    (keeps_unlessDeclined _ _).bind fun _ =>
    (Keeps.ite (keeps_confirmMweb D network) (Keeps.pure _)).bind fun _ =>
    keeps_confirmFee D tx scan infos totalInputAmount outputAmount

theorem sat_confirmBtc_amounts (network : Network) (tx : Tx) (scan : InputScan)
    (infos : List OutputInfo) {s : SignState} (hmweb : signPsbtHasMwebComponent s.psbt = true)
    (h : AmountsShown s.answers) :
    Sat (confirmBtc D network tx scan infos) (fun _ s' => AmountsShown s'.answers)
      (fun _ s' => AmountsShown s'.answers) s := by
  rw [confirmBtc, sat_bind, sat_orFault]
  refine ⟨fun outputAmount _ => ?_, fun _ _ => h⟩
  rw [sat_bind, sat_check]
  refine ⟨fun _ => ?_, fun _ => h⟩
  rw [sat_bind, openSession, sat_bind, sat_get, if_pos hmweb, sat_onWorld]
  refine (sat_mwebSessionBegin_capped network s.toWorld).mono ?_ (fun _ _ _ => h)
  rintro _ w ⟨session, hsession, hcapped⟩
  have hshowing := keeps_confirmShown D network tx scan infos
    (scan.inputAmount + scan.mwebInputAmount) outputAmount
    { s with toWorld := w } ⟨⟨session, hsession, hcapped⟩, h⟩
  exact hshowing.mono (fun _ _ h' => h'.shown) (fun _ _ h' => h'.shown)

theorem keepsAmounts_noteNothingToSign (scan : InputScan) :
    KeepsAmounts (noteNothingToSign scan) :=
  Keeps.ite (Keeps.modify fun _ h =>
    List.forall_mem_append.2 ⟨h, List.forall_mem_singleton.2 (capped_of_none rfl)⟩) (Keeps.pure _)

theorem keepsAmounts_signWithKey (forLiquid : Bool) (index : ℕ) (sigType : SigType)
    (txhash : Bytes) (iter : KeyIter K) :
    KeepsAmounts (signWithKey D forLiquid index sigType txhash iter) := by
  intro s h
  rw [signWithKey, sat_bind, sat_get]
  split
  · exact (sat_throw _).2 h
  · exact (sat_set _).2 h

theorem keepsAmounts_signInput (forLiquid : Bool) (tx : Tx) (sigType : Option SigType)
    (index : ℕ) : KeepsAmounts (signInput D forLiquid tx sigType index) := by
  cases sigType with
  | none => exact Keeps.pure _
  | some sigType =>
      refine Keeps.get.bind fun s => ?_
      split
      · exact (keeps_orFault _).bind fun iters =>
          Keeps.forM _ fun iter _ => keepsAmounts_signWithKey D forLiquid index sigType _ iter
      · exact Keeps.throw _

theorem keepsAmounts_signInputs (network : Network) (tx : Tx) (scan : InputScan) :
    KeepsAmounts (signInputs D network tx scan) := by
  have hgenesis : KeepsAmounts (provideGenesis network scan) :=
    Keeps.get.bind fun _ => Keeps.ite (Keeps.modify fun _ h => h) (Keeps.pure _)
  exact hgenesis.bind fun _ => Keeps.forM _ fun _ _ => keepsAmounts_signInput D _ _ _ _

theorem keepsAmounts_commitSession : KeepsAmounts (commitSession D) := by
  refine Keeps.get.bind fun s => ?_
  split
  · exact Keeps.pure _
  · exact keepsAmounts_onWorld _ _

theorem keepsAmounts_cleanup (e : SignErr) : KeepsAmounts (cleanup e) := by
  cases e with
  | fault f => exact Keeps.throw _
  | reject code errmsg =>
      intro s h
      simp only [cleanup, sat_bind, sat_modify, sat_throw]
      exact h

/-- **A run shows amounts up to the cap only**, however it ends. -/
theorem sat_signPsbt_amounts {network : Network} (hliquid : networkIsLiquid network = false)
    (additional : Option AdditionalInfo) {psbt : Psbt}
    (hmweb : signPsbtHasMwebComponent psbt = true) (tape : Tape) :
    Sat (signPsbt D network additional) (fun _ s' => AmountsShown s'.answers)
      (fun _ s' => AmountsShown s'.answers) (.start psbt tape) := by
  have hstart : AmountsShown (SignState.start psbt tape).answers := by simp [AmountsShown]
  rw [signPsbt, sat_bind, sat_get, sat_bind, sat_orReject]
  refine ⟨fun p _ => ?_, fun _ _ => hstart⟩
  rw [sat_tryCatch]
  have hrun : Sat (confirmAndSign D network p.tx p.explicitFee p.txType p.info p.scan p.infos)
      (fun _ s' => AmountsShown s'.answers) (fun _ s' => AmountsShown s'.answers)
      (.start psbt tape) := by
    rw [confirmAndSign, confirm, hliquid, sat_bind]
    refine (sat_confirmBtc_amounts D network p.tx p.scan p.infos hmweb hstart).mono ?_
      (fun _ _ h => h)
    intro _ s h
    exact ((keepsAmounts_noteNothingToSign p.scan).bind fun _ =>
      (keepsAmounts_signInputs D network p.tx p.scan).bind fun _ =>
      keepsAmounts_commitSession D) s h
  exact hrun.mono (fun _ _ h => h) fun e s h => keepsAmounts_cleanup e s h

/-! ### The result -/

/-- **The session, the signer and the screens agree.**  What passes the checks of
`mweb_session_begin` has amounts and totals in the money range, the signer finds the same totals and
reports neither an imbalance nor a mismatch; a signer that signs has found its two sides equal,
whatever it was given; and every amount of the session that a run of `sign_psbt` shows is in the range,
too. -/
structure SessionMatchesSigner (D : Device K P) : Prop where
  signer : ∀ psbt kernel tape,
    Sat (sessionEntries D.env psbt kernel)
      (fun fk b => AmountsCapped b.session ∧ ∀ receivedTxOffset receivedStealthOffset,
        SignerAgrees D.secp b.session
          (kernelParams b.session kernel fk.1 fk.2 receivedTxOffset receivedStealthOffset))
      (fun _ _ => True) { session := MwebSession.create psbt kernel, tape := tape }
  recomputes : ∀ eK params tape,
    Sat (mwebSignKernelWithEk D.secp eK params)
      (fun _ _ => FieldsAgree params ∧ SignerBalanced params) (fun _ _ => True) tape
  screens : ∀ network additional psbt tape, networkIsLiquid network = false →
    signPsbtHasMwebComponent psbt = true →
    Sat (signPsbt D network additional) (fun _ s' => AmountsShown s'.answers)
      (fun _ s' => AmountsShown s'.answers) (.start psbt tape)

/-- **What the session has checked, the signer accepts and the screens show.** -/
theorem session_matches_signer : SessionMatchesSigner D where
  signer psbt kernel tape := sat_sessionEntries psbt kernel tape
  recomputes eK params tape := sat_mwebSignKernelWithEk_checked D.secp eK params tape
  screens _ additional _ tape hliquid hmweb :=
    sat_signPsbt_amounts D hliquid additional hmweb tape

end Model

/-! ### A session that passes -/

/-- A kernel with all the amounts: the 10 of the transfer and a pegin of 6 pay the output of 7, a fee
of 3, and a pegout of 6. -/
def pegoutKernel : PsbtKernel where
  features := some (MWEB_KERNEL_FEE_BIT ||| MWEB_KERNEL_PEGIN_BIT ||| MWEB_KERNEL_PEGOUT_BIT |||
    MWEB_KERNEL_STEALTH_EXCESS_BIT)
  fee := some 3
  peginAmount := some 6
  pegouts := WallyMap.empty.add
    (.int 0, Bytes.ofNatLE 8 6 ++ 22 :: 0 :: 20 :: List.replicate 20 7)

/-- The session of that kernel, up to the kernel signature. -/
def pegoutEntries : EStateM.Result MwebErr Build (UInt8 × Option Bytes) :=
  (sessionEntries pairDevice.env transferPsbt pegoutKernel).run
    { session := MwebSession.create transferPsbt pegoutKernel, tape := plainTape }

/-- What is signed for it. -/
def pegoutSigned (fk : UInt8 × Option Bytes) (b : Build) :
    EStateM.Result MwebErr Tape MwebKernelSignOutputs :=
  (mwebSignKernelWithEk pairSecp transferKey
    (kernelParams b.session pegoutKernel fk.1 fk.2 zero32 zero32)).run plainTape

/-- The total of the pegouts, when the kernel is signed. -/
def pegoutResult : Option UInt64 :=
  match pegoutEntries with
  | .error _ _ => none
  | .ok fk b =>
      match pegoutSigned fk b with
      | .error _ _ => none
      | .ok _ _ => some b.session.totalPegout

/-- Its checks pass, and the signer signs what they have passed. -/
theorem session_matches_signer_pegout : ∃ fk b out t,
    pegoutEntries = .ok fk b ∧
      SignerAgrees pairSecp b.session
        (kernelParams b.session pegoutKernel fk.1 fk.2 zero32 zero32) ∧
      pegoutSigned fk b = .ok out t ∧ b.session.totalPegout = 6 := by
  have hresult : pegoutResult = some 6 := by decide +kernel
  unfold pegoutResult at hresult
  cases hentries : pegoutEntries with
  | error e b => simp [hentries] at hresult
  | ok fk b =>
      cases hsigned : pegoutSigned fk b with
      | error e t => simp [hentries, hsigned] at hresult
      | ok out t =>
          simp only [hentries, hsigned, Option.some.injEq] at hresult
          have hagrees := ((session_matches_signer pairDevice).signer transferPsbt pegoutKernel
            plainTape).ok hentries
          exact ⟨fk, b, out, t, rfl, hagrees.2 zero32 zero32, hsigned, hresult⟩

end Jade
