/-
**A run of `sign_psbt` on Bitcoin or Litecoin, from its start to its return.**

A run that returns without an error has gone through all of its phases: it opened a session if the
PSBT has parts in the extension block, the user accepted every screen put before him, the inputs were
signed one by one, and the session was committed.  What each phase reads was settled by an earlier one,
so the whole run can be described by what was read off the PSBT, by the session as it was opened, and
by the list of the screens, each of them a function of these.

Main definitions:

* `Jade.mwebOutputScreens`, `Jade.pegoutScreens`, `Jade.sessionScreens` — the screens of a session;
* `Jade.Marked` — a session that differs in the confirmations only;
* `Jade.Opened` — how a run comes by its session;
* `Jade.signaturesOf` — the signatures made for an input;
* `Jade.BtcRun` — what a run that returns has gone through.

Main results:

* `Jade.sat_showMwebOutputs`, `Jade.sat_confirmMweb`, `Jade.sat_signInputs` — one for each phase;
* `Jade.sat_signPsbt_btc` — **a run that returns has gone through all of its phases**.
-/

import Jade.Mweb.Contents
import Jade.SignPsbt.Sign

set_option relaxedAutoImplicit false
set_option autoImplicit false

namespace Jade

open Exec Mweb

variable {K P : Type} (D : Device K P)

/-! ### The screens of a session -/

/-- The screens of the MWEB outputs left, of which `shown` have been displayed before. -/
def mwebOutputScreens (network : Network) (total : ℕ) (session : Option MwebSession) :
    List (PsbtOutput × ℕ) → ℕ → Except SignErr (List Screen)
  | [], _ => .ok []
  | (output, i) :: outputs, shown =>
      if mwebOutIsMweb output.mwebOutputKeyset then do
        let screen ← mwebOutputScreen network (shown + 1) total output i session
        let screens ← mwebOutputScreens network total session outputs (shown + 1)
        pure (screen :: screens)
      else mwebOutputScreens network total session outputs shown

/-- The loop over the outputs asks the screens of the MWEB ones, in order. -/
theorem sat_showMwebOutputs (network : Network) (total : ℕ) (outputs : List (PsbtOutput × ℕ))
    (shown : ℕ) (s : SignState) :
    Sat (showMwebOutputs D network total outputs shown)
      (fun _ s' => ∃ screens, mwebOutputScreens network total s.session outputs shown = .ok screens ∧
        s' = { s with answers := s.answers ++ accepted screens })
      (fun _ _ => True) s := by
  induction outputs generalizing shown s with
  | nil => exact (sat_pure _).2 ⟨[], rfl, by simp⟩
  | cons entry outputs ih =>
      obtain ⟨output, i⟩ := entry
      rw [showMwebOutputs, mwebOutputScreens]
      by_cases hmweb : mwebOutIsMweb output.mwebOutputKeyset = true
      · rw [if_pos hmweb, if_pos hmweb]
        simp only [sat_bind, sat_get, sat_orReject, sat_display, sat_ask, unlessDeclined, sat_check,
          implies_true, and_true]
        intro screen hscreen haccept
        rw [haccept]
        refine (ih (shown + 1) _).mono ?_ (fun _ _ h => h)
        rintro _ s' ⟨screens, hscreens, rfl⟩
        refine ⟨screen :: screens, ?_, ?_⟩
        · rw [hscreen, hscreens]
          rfl
        · rw [accepted_cons, List.append_assoc]
          rfl
      · rw [if_neg hmweb, if_neg hmweb]
        exact ih shown s

/-- The screen of a pegout. -/
def pegoutScreen (total p : ℕ) (pegout : Pegout) : Screen :=
  .pegout (p + 1) total pegout.script pegout.scriptLen pegout.amount

/-- The screens of some pegouts. -/
def pegoutScreens (pegouts : List Pegout) : List Screen :=
  pegouts.mapIdx fun p pegout => pegoutScreen pegouts.length p pegout

/-- The screens of what a session moves between the two chains. -/
def sessionScreens : Option MwebSession → List Screen
  | none => []
  | some session =>
      pegoutScreens (session.pegouts.map SessionPegout.pegout) ++
        if session.hasPegin then [.pegin session.totalPegin] else []

/-- The sessions differ in the confirmations only. -/
structure Marked (s s' : MwebSession) : Prop where
  rest : s' = { s with pegouts := s'.pegouts }
  pegouts : s'.pegouts.map SessionPegout.pegout = s.pegouts.map SessionPegout.pegout

theorem Marked.refl (s : MwebSession) : Marked s s := ⟨rfl, rfl⟩

theorem Marked.trans {s s' s'' : MwebSession} (h : Marked s s') (h' : Marked s' s'') :
    Marked s s'' := by
  refine ⟨?_, h'.pegouts.trans h.pegouts⟩
  rw [h'.rest, h.rest]

theorem marked_mark (p : ℕ) (s : MwebSession) : Marked s (mwebSessionMarkPegoutConfirmed p s) := by
  refine ⟨rfl, ?_⟩
  refine List.ext_getElem? fun i => ?_
  simp only [mwebSessionMarkPegoutConfirmed, List.getElem?_map, List.getElem?_modify]
  cases s.pegouts[i]? with
  | none => rfl
  | some pegout => by_cases hi : p = i <;> simp [hi, SessionPegout.pegout]

/-- The loop over the pegouts. -/
theorem sat_showPegouts (session : MwebSession) (psbt : Psbt) (tape : Tape) (answers : Answers)
    (signed : List (ℕ × SigType)) :
    Sat (session.pegouts.zipIdx.forM fun (pegout, p) =>
        showPegout D session.pegouts.length pegout p)
      (fun _ s' => ∃ session', Marked session session' ∧
        s' = ⟨⟨psbt, some session', tape⟩, answers ++
          accepted (pegoutScreens (session.pegouts.map SessionPegout.pegout)), signed⟩)
      (fun _ _ => True) ⟨⟨psbt, some session, tape⟩, answers, signed⟩ := by
  let screens : List SessionPegout → List Screen := fun pre =>
    pre.mapIdx fun p pegout => pegoutScreen session.pegouts.length p pegout.pegout
  have hscreens : pegoutScreens (session.pegouts.map SessionPegout.pegout) =
      screens session.pegouts := by
    simp [pegoutScreens, screens, List.mapIdx_eq_zipIdx_map, List.zipIdx_map, Function.comp_def]
  rw [hscreens]
  refine sat_forM_zipIdx (fun pre (s' : SignState) => ∃ session', Marked session session' ∧
    s' = ⟨⟨psbt, some session', tape⟩, answers ++ accepted (screens pre), signed⟩)
    session.pegouts ?_ ⟨⟨psbt, some session, tape⟩, answers, signed⟩
    ⟨session, Marked.refl session, by simp [screens]⟩
  rintro pre pegout _ t _ ⟨session', hmarked, rfl⟩
  simp only [showPegout, sat_bind, sat_display, sat_ask, unlessDeclined, sat_check, sat_modify,
    implies_true, and_true]
  intro haccept
  refine ⟨mwebSessionMarkPegoutConfirmed pre.length session',
    hmarked.trans (marked_mark pre.length session'), ?_⟩
  have hpre : screens (pre ++ [pegout]) =
      screens pre ++ [pegoutScreen session.pegouts.length pre.length pegout.pegout] := by
    simp [screens, List.mapIdx_append]
  rw [haccept, hpre, accepted_append, List.append_assoc]
  rfl

/-- The screen of an MWEB output: the address is the unknown field, the amount the session's. -/
theorem mwebOutputScreen_eq_ok {network : Network} {place total i : ℕ} {output : PsbtOutput}
    {session : Option MwebSession} {screen : Screen}
    (h : mwebOutputScreen network place total output i session = .ok screen) :
    ∃ payload address amount ses, unknownStealthAddress output = some payload ∧
      session = some ses ∧ mwebSessionGetOutputValue ses i = some amount ∧
      screen = .mwebOutput place total payload address amount := by
  rw [mwebOutputScreen] at h
  split at h
  · simp at h
  · next payload hpayload =>
      split at h
      · simp at h
      · split at h
        · simp at h
        · next address _ =>
            split at h
            · simp at h
            · next amount hamount =>
                obtain ⟨ses, hses, hget⟩ := Option.bind_eq_some_iff.1 hamount
                exact ⟨payload, address, amount, ses, hpayload, hses, hget,
                  (Except.ok.inj h).symm⟩

/-- Each MWEB output has its screen, at its place among the MWEB outputs. -/
theorem getElem?_mwebOutputScreens {network : Network} {total : ℕ} {session : Option MwebSession}
    {outputs : List (PsbtOutput × ℕ)} {shown : ℕ} {screens : List Screen}
    (h : mwebOutputScreens network total session outputs shown = .ok screens) :
    screens.length = (outputs.filter fun entry => isMwebOutput entry.1).length ∧
    ∀ j output i, outputs[j]? = some (output, i) → isMwebOutput output = true →
      ∃ screen, screens[((outputs.take j).filter fun entry => isMwebOutput entry.1).length]? =
          some screen ∧
        mwebOutputScreen network
          (shown + ((outputs.take j).filter fun entry => isMwebOutput entry.1).length + 1) total output
          i session = .ok screen := by
  induction outputs generalizing shown screens with
  | nil =>
      obtain rfl : [] = screens := by simpa [mwebOutputScreens] using h
      simp
  | cons entry outputs ih =>
      obtain ⟨output, i⟩ := entry
      rw [mwebOutputScreens] at h
      by_cases hmweb : isMwebOutput output = true
      · rw [if_pos (by exact hmweb), bind_eq_ok] at h
        obtain ⟨first, hfirst, h⟩ := h
        obtain ⟨rest, hrest, h⟩ := bind_eq_ok.1 h
        obtain rfl : first :: rest = screens := pure_eq_ok.1 h
        obtain ⟨hlen, hget⟩ := ih hrest
        refine ⟨by simp [hmweb, hlen], ?_⟩
        intro j output' i' hj hmweb'
        cases j with
        | zero =>
            obtain ⟨rfl, rfl⟩ : output = output' ∧ i = i' := by simpa using hj
            exact ⟨first, by simp, by simpa using hfirst⟩
        | succ j =>
            obtain ⟨screen, hscreen, hok⟩ := hget j output' i' (by simpa using hj) hmweb'
            refine ⟨screen, by simpa [hmweb] using hscreen, ?_⟩
            rw [List.take_succ_cons, List.filter_cons_of_pos (by exact hmweb), List.length_cons,
              ← Nat.add_assoc, Nat.add_right_comm shown _ 1]
            exact hok
      · rw [if_neg (by exact hmweb)] at h
        obtain ⟨hlen, hget⟩ := ih h
        refine ⟨by simp [hmweb, hlen], ?_⟩
        intro j output' i' hj hmweb'
        cases j with
        | zero =>
            obtain ⟨rfl, rfl⟩ : output = output' ∧ i = i' := by simpa using hj
            exact absurd hmweb' hmweb
        | succ j =>
            obtain ⟨screen, hscreen, hok⟩ := hget j output' i' (by simpa using hj) hmweb'
            refine ⟨screen, by simpa [hmweb] using hscreen, ?_⟩
            rw [List.take_succ_cons, List.filter_cons_of_neg (by exact hmweb)]
            exact hok

/-- Only MWEB screens are made for MWEB outputs. -/
theorem mem_mwebOutputScreens {network : Network} {total : ℕ} {session : Option MwebSession}
    {outputs : List (PsbtOutput × ℕ)} {shown : ℕ} {screens : List Screen}
    (h : mwebOutputScreens network total session outputs shown = .ok screens) {screen : Screen}
    (hmem : screen ∈ screens) :
    ∃ place payload address amount, screen = .mwebOutput place total payload address amount := by
  induction outputs generalizing shown screens with
  | nil =>
      obtain rfl : [] = screens := by simpa [mwebOutputScreens] using h
      simp at hmem
  | cons entry outputs ih =>
      obtain ⟨output, i⟩ := entry
      rw [mwebOutputScreens] at h
      split at h
      · obtain ⟨first, hfirst, h⟩ := bind_eq_ok.1 h
        obtain ⟨rest, hrest, h⟩ := bind_eq_ok.1 h
        obtain rfl : first :: rest = screens := pure_eq_ok.1 h
        rcases List.mem_cons.1 hmem with rfl | hmem
        · obtain ⟨payload, address, amount, -, -, -, -, rfl⟩ := mwebOutputScreen_eq_ok hfirst
          exact ⟨shown + 1, payload, address, amount, rfl⟩
        · exact ih hrest hmem
      · exact ih h hmem

/-- The number of MWEB outputs. -/
def mwebOutputCount (psbt : Psbt) : ℕ :=
  (psbt.outputs.filter fun output => mwebOutIsMweb output.mwebOutputKeyset).length

theorem sat_confirmMweb (network : Network) (s : SignState) :
    Sat (confirmMweb D network)
      (fun _ s' => ∃ mweb, mwebOutputScreens network (mwebOutputCount s.psbt) s.session
          s.psbt.outputs.zipIdx 0 = .ok mweb ∧
        Option.Rel Marked s.session s'.session ∧
        s' = { s with
          session := s'.session
          answers := s.answers ++ accepted (mweb ++ sessionScreens s.session) })
      (fun _ _ => True) s := by
  obtain ⟨⟨psbt, session, tape⟩, answers, signed⟩ := s
  simp only [confirmMweb, sat_bind, sat_get]
  refine (sat_showMwebOutputs D network (mwebOutputCount psbt) psbt.outputs.zipIdx 0 _).mono ?_
    (fun _ _ h => h)
  rintro _ s₁ ⟨mweb, hmweb, rfl⟩
  cases session with
  | none =>
      refine (sat_pure _).2 ⟨mweb, hmweb, Option.Rel.none, ?_⟩
      simp [sessionScreens]
  | some session =>
      simp only [sat_bind]
      refine (sat_showPegouts D session psbt tape _ signed).mono ?_ (fun _ _ h => h)
      rintro _ s₂ ⟨session', hmarked, rfl⟩
      simp only [showPegin, sat_ite, sat_bind, sat_display, sat_ask, unlessDeclined, sat_check,
        sat_pure, implies_true, and_true]
      constructor
      · intro hpegin haccept
        refine ⟨mweb, hmweb, Option.Rel.some hmarked, ?_⟩
        rw [haccept]
        simp [sessionScreens, hpegin]
      · intro hpegin
        refine ⟨mweb, hmweb, Option.Rel.some hmarked, ?_⟩
        simp [sessionScreens, hpegin]

/-! ### The screens of a run -/

/-- How a run comes by its session: it opens one exactly when the PSBT has parts in the extension
block. -/
inductive Opened (network : Network) (s : SignState) : World → Prop
  | none : signPsbtHasMwebComponent s.psbt = false → Opened network s s.toWorld
  | session {w : World} : signPsbtHasMwebComponent s.psbt = true →
      (mwebSessionBegin D.env network).run s.toWorld = .ok () w → Opened network s w

/-- Opening a session leaves the PSBT alone, and needs Litecoin. -/
theorem Opened.frame {network : Network} {s : SignState} {w : World} (h : Opened D network s w) :
    w.psbt = s.psbt ∧
      (signPsbtHasMwebComponent s.psbt = true → networkIsLitecoin network = true) := by
  cases h with
  | none hmweb => exact ⟨rfl, fun h => by simp [hmweb] at h⟩
  | session _ hrun =>
      obtain ⟨hnetwork, hpsbt, -⟩ := (sat_mwebSessionBegin_contents network s.toWorld).ok hrun
      exact ⟨hpsbt, fun _ => hnetwork⟩

/-- The fee on the screen: that of the kernel, or what the inputs have over the outputs. -/
def feeShown (session : Option MwebSession) (totalInputAmount outputAmount : UInt64) : UInt64 :=
  match session with
  | some session => session.totalFee
  | none => totalInputAmount - outputAmount

theorem sat_confirmFee (tx : Tx) (scan : InputScan) (infos : List OutputInfo)
    (totalInputAmount outputAmount : UInt64) (s : SignState) :
    Sat (confirmFee D tx scan infos totalInputAmount outputAmount)
      (fun _ s' => (s.session = none → outputAmount ≤ totalInputAmount) ∧ ∃ warning,
        s' = { s with answers := s.answers ++ accepted [.fee "Send Transaction"
          (feeShown s.session totalInputAmount outputAmount) warning] })
      (fun _ _ => True) s := by
  obtain ⟨⟨psbt, session, tape⟩, answers, signed⟩ := s
  simp only [confirmFee, sat_bind, sat_get]
  cases session with
  | some session =>
      simp only [showBtcFinalConfirmationActivity, sat_display, sat_ask, unlessDeclined, sat_check,
        implies_true, and_true]
      intro haccept
      refine ⟨fun h => by simp at h, none, ?_⟩
      rw [haccept]
      rfl
  | none =>
      simp only [showBtcFeeConfirmationActivity, showBtcFinalConfirmationActivity, sat_display,
        sat_bind, sat_orFault, sat_ask, unlessDeclined, sat_check, implies_true, and_true]
      intro _ _ _ _ _ hle spend _ haccept
      refine ⟨fun _ => ?_, _, by rw [haccept]; rfl⟩
      by_contra hlt
      simp [jadeVerify, hlt] at hle

/-- The screens of the outputs of a transaction. -/
def btcOutputBlocks (tx : Tx) (infos : List OutputInfo) : Except Fault (List (List Screen)) :=
  let outs := outputsWithInfo tx (some infos)
  displayedScreens (btcOutputScreens (displayableOutputs outs true)) (isDisplayed outs true) outs 0

/-- Only the ordinary screens are made for the outputs of a transaction. -/
theorem mem_btcOutputBlocks {tx : Tx} {infos : List OutputInfo} {blocks : List (List Screen)}
    (h : btcOutputBlocks tx infos = .ok blocks) {screen : Screen} (hmem : screen ∈ blocks.flatten) :
    ∃ place total isWallet script satoshi warning,
      screen = .output place total isWallet script satoshi warning := by
  rw [btcOutputBlocks] at h
  generalize outputsWithInfo tx (some infos) = outs at h
  revert h
  generalize displayableOutputs outs true = total
  generalize isDisplayed outs true = display
  generalize 0 = shown
  intro h
  induction outs generalizing shown blocks with
  | nil =>
      obtain rfl : [] = blocks := by simpa [displayedScreens] using h
      simp at hmem
  | cons entry outs ih =>
      obtain ⟨out, info⟩ := entry
      rw [displayedScreens] at h
      split at h
      · obtain ⟨block, hblock, h⟩ := bind_eq_ok.1 h
        obtain ⟨rest, hrest, h⟩ := bind_eq_ok.1 h
        obtain rfl : block :: rest = blocks := pure_eq_ok.1 h
        rw [List.flatten_cons] at hmem
        rcases List.mem_append.1 hmem with hmem | hmem
        · rw [← Except.ok.inj hblock] at hmem
          exact ⟨_, _, _, _, _, _, List.mem_singleton.1 hmem⟩
        · exact ih hmem (shown + 1) hrest
      · exact ih hmem shown h

/-- All screens of a run, in order. -/
def btcScreens (blocks : List (List Screen)) (mweb : List Screen) (session : Option MwebSession)
    (fee : UInt64) (warning : Option String) : List Screen :=
  blocks.flatten ++ (mweb ++ sessionScreens session) ++ [.fee "Send Transaction" fee warning]

/-- What was checked, and what the screens are made of. -/
structure BtcShown (network : Network) (tx : Tx) (scan : InputScan) (infos : List OutputInfo)
    (psbt : Psbt) (session : Option MwebSession) (outputAmount : UInt64)
    (blocks : List (List Screen)) (mweb : List Screen) : Prop where
  total : D.totalOutputSatoshi tx = some outputAmount
  enough : scan.inputAmount + scan.mwebInputAmount < outputAmount →
    scan.mwebAmountsIncomplete = true
  fee : session = none → outputAmount ≤ scan.inputAmount + scan.mwebInputAmount
  outputs : btcOutputBlocks tx infos = .ok blocks
  mweb : networkIsLitecoin network = true →
    mwebOutputScreens network (mwebOutputCount psbt) session psbt.outputs.zipIdx 0 = .ok mweb

theorem sat_openSession (network : Network) (s : SignState) :
    Sat (openSession D network)
      (fun _ s' => ∃ w, Opened D network s w ∧ s' = { s with toWorld := w }) (fun _ _ => True) s := by
  simp only [openSession, sat_bind, sat_get, sat_ite]
  constructor
  · intro hmweb
    rw [sat_onWorld]
    refine (sat_self _ s.toWorld).mono ?_ (fun _ _ _ => trivial)
    intro _ w hrun
    exact ⟨w, .session hmweb hrun, rfl⟩
  · intro hmweb
    exact (sat_pure _).2 ⟨s.toWorld, .none (Bool.eq_false_iff.2 hmweb), rfl⟩

/-- The screens of the extension block, when the session of `w` is open. -/
theorem sat_confirmExtension (network : Network) {s : SignState} (hs : s.session = none)
    {w : World} (hopened : Opened D network s w) (answers : Answers) :
    Sat (confirmExtension D network)
      (fun _ s' => ∃ mweb, (networkIsLitecoin network = true →
          mwebOutputScreens network (mwebOutputCount s.psbt) w.session s.psbt.outputs.zipIdx 0 =
            .ok mweb) ∧
        Option.Rel Marked w.session s'.session ∧
        s' = ⟨⟨s.psbt, s'.session, w.tape⟩,
          answers ++ accepted (mweb ++ sessionScreens w.session), s.signed⟩)
      (fun _ _ => True) { s with toWorld := w, answers := answers } := by
  obtain ⟨hpsbt, hlitecoin⟩ := hopened.frame
  rw [confirmExtension, sat_ite]
  constructor
  · intro _
    refine (sat_confirmMweb D network _).mono ?_ (fun _ _ h => h)
    rintro _ s' ⟨mweb, hmweb, hrel, hs'⟩
    simp only [hpsbt] at hmweb hs'
    exact ⟨mweb, fun _ => hmweb, hrel, hs'⟩
  · intro hnot
    refine (sat_pure _).2 ⟨[], fun h => absurd h hnot, ?_⟩
    cases hopened with
    | none _ =>
        obtain ⟨⟨psbt, session, tape⟩, log, signed⟩ := s
        obtain rfl : session = none := hs
        exact ⟨Option.Rel.none, by simp [sessionScreens]⟩
    | session hmweb _ => exact absurd (hlitecoin hmweb) hnot

/-- A confirmation does not change the fee. -/
theorem feeShown_of_rel {session session' : Option MwebSession}
    (h : Option.Rel Marked session session') (totalInputAmount outputAmount : UInt64) :
    feeShown session' totalInputAmount outputAmount =
      feeShown session totalInputAmount outputAmount := by
  cases h with
  | none => rfl
  | some hmarked => rw [feeShown, feeShown, hmarked.rest]

theorem eq_none_of_rel {session session' : Option MwebSession}
    (h : Option.Rel Marked session session') (hnone : session = none) : session' = none := by
  cases h with
  | none => rfl
  | some _ => simp at hnone

/-- **The screens of a Bitcoin or Litecoin transaction, all of them accepted.** -/
theorem sat_confirmBtc (network : Network) (tx : Tx) (scan : InputScan) (infos : List OutputInfo)
    (s : SignState) (hs : s.session = none) :
    Sat (confirmBtc D network tx scan infos)
      (fun _ s' => ∃ w outputAmount blocks mweb warning, Opened D network s w ∧
        BtcShown D network tx scan infos s.psbt w.session outputAmount blocks mweb ∧
        Option.Rel Marked w.session s'.session ∧
        s' = ⟨⟨s.psbt, s'.session, w.tape⟩,
          s.answers ++ accepted (btcScreens blocks mweb w.session
            (feeShown w.session (scan.inputAmount + scan.mwebInputAmount) outputAmount) warning),
          s.signed⟩)
      (fun _ _ => True) s := by
  simp only [confirmBtc, sat_bind, sat_orFault, sat_check, implies_true, and_true]
  intro outputAmount htotal henough
  refine (sat_openSession D network s).mono ?_ (fun _ _ h => h)
  rintro _ s₁ ⟨w, hopened, rfl⟩
  simp only [sat_display, unlessDeclined, sat_check, implies_true, and_true]
  refine (sat_showTransactionOutputs D.user true btcOutputScreens _ s.answers).mono ?_
    (fun _ _ _ => trivial)
  intro ok log hlog hok
  obtain ⟨blocks, hblocks, rfl⟩ := hlog hok
  refine (sat_confirmExtension D network hs hopened _).mono ?_ (fun _ _ h => h)
  rintro _ ⟨⟨psbt, session, tape⟩, answers, signed⟩ ⟨mweb, hmweb, hrel, hs₂⟩
  refine (sat_confirmFee D tx scan infos _ outputAmount _).mono ?_ (fun _ _ h => h)
  rintro _ s₃ ⟨hfee, warning, rfl⟩
  refine ⟨w, outputAmount, blocks, mweb, warning, hopened, ?_, hrel, ?_⟩
  · exact {
      total := by
        cases hsat : D.totalOutputSatoshi tx with
        | none => simp [hsat, wallyVerify] at htotal
        | some amount => simpa [hsat, wallyVerify] using htotal
      enough := fun hlt => by simpa [hlt] using henough
      fee := fun hnone => hfee (eq_none_of_rel hrel hnone)
      outputs := hblocks
      mweb := hmweb }
  · simp only [SignState.mk.injEq, World.mk.injEq] at hs₂
    obtain ⟨⟨rfl, -, rfl⟩, rfl, rfl⟩ := hs₂
    simp only [feeShown_of_rel hrel, btcScreens, accepted_append, List.append_assoc]

/-! ### Signing -/

/-- What signing the inputs below `n` leaves alone. -/
structure SignedBelow (n : ℕ) (psbt psbt' : Psbt) : Prop where
  outputs : psbt'.outputs = psbt.outputs
  kernels : psbt'.mwebKernels = psbt.mwebKernels
  inputs : ∀ i, n ≤ i → psbt'.inputs[i]? = psbt.inputs[i]?

theorem SignedBelow.refl (n : ℕ) (psbt : Psbt) : SignedBelow n psbt psbt :=
  ⟨rfl, rfl, fun _ _ => rfl⟩

theorem SignedBelow.mono {n m : ℕ} {psbt psbt' : Psbt} (h : SignedBelow n psbt psbt')
    (hle : n ≤ m) : SignedBelow m psbt psbt' :=
  ⟨h.outputs, h.kernels, fun i hi => h.inputs i (hle.trans hi)⟩

theorem SignedBelow.signInput {n : ℕ} {psbt psbt' : Psbt} (h : SignedBelow (n + 1) psbt psbt')
    (a b c : WallyMap) (flags : UInt32) :
    SignedBelow (n + 1) psbt ((SessionStep.signInput n a b c flags).onPsbt psbt') where
  outputs := h.outputs
  kernels := h.kernels
  inputs := by
    intro i hi
    have hne : n ≠ i := by omega
    rw [← h.inputs i hi]
    simp [SessionStep.onPsbt, hne]

/-- The signatures made for an input: one for each private key of the wallet. -/
def signaturesOf (psbt : Psbt) (sigType : Option SigType) (index : ℕ) : List (ℕ × SigType) :=
  match sigType, psbt.inputs[index]? with
  | some sigType, some input =>
      match keyIterKeys D.wallet (inputKeySource input) with
      | .ok iters => iters.map fun _ => (index, sigType)
      | .error _ => []
  | _, _ => []

/-- The loop over the keys of an input. -/
theorem sat_signWithKeys (forLiquid : Bool) (index : ℕ) (sigType : SigType) (txhash : Bytes)
    {psbt₀ : Psbt} (iters : List (KeyIter K)) (s : SignState)
    (h : SignedBelow (index + 1) psbt₀ s.psbt) :
    Sat (iters.forM (signWithKey D forLiquid index sigType txhash))
      (fun _ s' => SignedBelow (index + 1) psbt₀ s'.psbt ∧
        s' = ⟨⟨s'.psbt, s.session, s.tape⟩, s.answers,
          s.signed ++ iters.map fun _ => (index, sigType)⟩)
      (fun _ _ => True) s := by
  refine sat_forM (fun pre s' => SignedBelow (index + 1) psbt₀ s'.psbt ∧
    s' = ⟨⟨s'.psbt, s.session, s.tape⟩, s.answers, s.signed ++ pre.map fun _ => (index, sigType)⟩)
    iters ?_ s ⟨h, by simp⟩
  rintro pre iter _ ⟨⟨psbt, session, tape⟩, answers, signed⟩ _ ⟨hbelow, hs⟩
  simp only [SignState.mk.injEq, World.mk.injEq] at hs
  obtain ⟨⟨-, rfl, rfl⟩, rfl, rfl⟩ := hs
  simp only [signWithKey, sat_bind, sat_get]
  cases D.signInputBip32 psbt index iter.keyIndex txhash iter.hdkey forLiquid with
  | none => exact (sat_throw _).2 trivial
  | some sig =>
      refine (sat_set _).2 ⟨hbelow.signInput _ _ _ _, ?_⟩
      cases s.session <;> simp [SessionStep.run, SessionStep.onSession]

theorem sat_signInput (forLiquid : Bool) (tx : Tx) (sigType : Option SigType) (index : ℕ)
    {psbt₀ : Psbt} (s : SignState) (h : SignedBelow index psbt₀ s.psbt) :
    Sat (signInput D forLiquid tx sigType index)
      (fun _ s' => SignedBelow (index + 1) psbt₀ s'.psbt ∧
        s' = ⟨⟨s'.psbt, s.session, s.tape⟩, s.answers,
          s.signed ++ signaturesOf D psbt₀ sigType index⟩)
      (fun _ _ => True) s := by
  have hbelow := h.mono (Nat.le_succ index)
  cases sigType with
  | none => exact (sat_pure _).2 ⟨hbelow, by simp [signaturesOf]⟩
  | some sigType =>
      simp only [signInput, sat_bind, sat_get]
      split
      · next txhash input hhash hinput =>
          -- the input has not been touched by what was signed before it
          rw [h.inputs index le_rfl] at hinput
          simp only [sat_bind, sat_orFault, implies_true, and_true]
          intro iters hiters
          refine (sat_signWithKeys D forLiquid index sigType txhash iters s hbelow).mono ?_
            (fun _ _ h => h)
          rintro _ s' ⟨hbelow', hs'⟩
          exact ⟨hbelow', by simp only [signaturesOf, hinput, hiters]; exact hs'⟩
      · exact (sat_throw _).2 trivial

/-- **The signing loop** makes the signatures of each input in turn. -/
theorem sat_signInputs (network : Network) (hliquid : networkIsLiquid network = false) (tx : Tx)
    (scan : InputScan) (s : SignState) :
    Sat (signInputs D network tx scan)
      (fun _ s' => SignedBelow scan.sigTypes.length s.psbt s'.psbt ∧
        s' = ⟨⟨s'.psbt, s.session, s.tape⟩, s.answers, s.signed ++
          scan.sigTypes.zipIdx.flatMap fun (sigType, i) => signaturesOf D s.psbt sigType i⟩)
      (fun _ _ => True) s := by
  simp only [signInputs, provideGenesis, hliquid, Bool.and_false, Bool.false_and,
    Bool.false_eq_true, if_false, sat_bind, sat_get, sat_pure]
  refine sat_forM_zipIdx (fun pre s' => SignedBelow pre.length s.psbt s'.psbt ∧
    s' = ⟨⟨s'.psbt, s.session, s.tape⟩, s.answers, s.signed ++
      pre.zipIdx.flatMap fun (sigType, i) => signaturesOf D s.psbt sigType i⟩)
    scan.sigTypes ?_ s ⟨SignedBelow.refl _ _, by simp⟩
  rintro pre sigType _ ⟨⟨psbt, session, tape⟩, answers, signed⟩ _ ⟨hbelow, hs⟩
  simp only [SignState.mk.injEq, World.mk.injEq] at hs
  obtain ⟨⟨-, rfl, rfl⟩, rfl, rfl⟩ := hs
  refine (sat_signInput D false tx sigType pre.length _ hbelow).mono ?_ (fun _ _ h => h)
  rintro _ s' ⟨hbelow', hs'⟩
  refine ⟨by rw [List.length_append, List.length_singleton]; exact hbelow', ?_⟩
  rw [hs']
  simp [List.zipIdx_append]

/-! ### The whole run -/

/-- **What a run that returns has gone through.**  The session is the one of `w`. -/
structure BtcRun (network : Network) (p : Prepared) (s : SignState) (w : World) (s' : SignState) :
    Prop where
  opened : Opened D network s w
  shown : ∃ outputAmount blocks mweb warning rest,
    BtcShown D network p.tx p.scan p.infos s.psbt w.session outputAmount blocks mweb ∧
    (rest = [] ∨ rest = [.nothingToSign]) ∧
    s'.answers = s.answers ++ accepted (btcScreens blocks mweb w.session
      (feeShown w.session (p.scan.inputAmount + p.scan.mwebInputAmount) outputAmount) warning ++
        rest)
  signed : s'.signed = s.signed ++
    p.scan.sigTypes.zipIdx.flatMap fun (sigType, i) => signaturesOf D s.psbt sigType i
  committed : ∀ session, w.session = some session → ∃ session' psbt tape, Marked session session' ∧
    SignedBelow p.scan.sigTypes.length s.psbt psbt ∧
    (mwebSessionCommit D.env).run ⟨psbt, some session', tape⟩ = .ok () s'.toWorld

theorem sat_noteNothingToSign (scan : InputScan) (s : SignState) :
    Sat (noteNothingToSign scan)
      (fun _ s' => ∃ rest, (rest = [] ∨ rest = [.nothingToSign]) ∧
        s' = { s with answers := s.answers ++ accepted rest })
      (fun _ _ => True) s := by
  rw [noteNothingToSign, sat_ite]
  constructor
  · intro _
    exact (sat_modify _).2 ⟨[.nothingToSign], .inr rfl, rfl⟩
  · intro _
    exact (sat_pure _).2 ⟨[], .inl rfl, by simp⟩

theorem sat_commitSession (s : SignState) :
    Sat (commitSession D)
      (fun _ s' => s' = { s with toWorld := s'.toWorld } ∧ (∀ session, s.session = some session →
        (mwebSessionCommit D.env).run s.toWorld = .ok () s'.toWorld))
      (fun _ _ => True) s := by
  simp only [commitSession, sat_bind, sat_get]
  cases hs : s.session with
  | none => exact (sat_pure _).2 ⟨rfl, fun session h => by simp at h⟩
  | some session =>
      rw [sat_onWorld]
      refine (sat_self _ s.toWorld).mono ?_ (fun _ _ _ => trivial)
      intro _ w hrun
      exact ⟨rfl, fun _ _ => hrun⟩

/-- **A run that returns has gone through all of its phases.** -/
theorem sat_signPsbt_btc {network : Network} (hliquid : networkIsLiquid network = false)
    (additional : Option AdditionalInfo) (s : SignState) (hs : s.session = none) :
    Sat (signPsbt D network additional)
      (fun _ s' => ∃ p w, prepare D network additional s.psbt = .ok p ∧ BtcRun D network p s w s')
      (fun _ _ => True) s := by
  simp only [signPsbt, sat_bind, sat_get, sat_orReject, implies_true, and_true]
  intro p hp
  rw [sat_tryCatch]
  have hrun : Sat (confirmAndSign D network p.tx p.explicitFee p.txType p.info p.scan p.infos)
      (fun _ s' => ∃ w, BtcRun D network p s w s') (fun _ _ => True) s := by
    simp only [confirmAndSign, confirm, hliquid, Bool.false_eq_true, if_false, sat_bind]
    refine (sat_confirmBtc D network p.tx p.scan p.infos s hs).mono ?_ (fun _ _ h => h)
    rintro _ s₁ ⟨w, outputAmount, blocks, mweb, warning, hopened, hshown, hrel, hs₁⟩
    refine (sat_noteNothingToSign p.scan s₁).mono ?_ (fun _ _ h => h)
    rintro _ s₂ ⟨rest, hrest, hs₂⟩
    refine (sat_signInputs D network hliquid p.tx p.scan s₂).mono ?_ (fun _ _ h => h)
    rintro _ s₃ ⟨hbelow, hs₃⟩
    refine (sat_commitSession D s₃).mono ?_ (fun _ _ h => h)
    rintro _ s₄ ⟨hs₄, hcommit⟩
    have hpsbt : s₂.psbt = s.psbt := by rw [hs₂, hs₁]
    have hsession : s₃.session = s₁.session := by rw [hs₃, hs₂]
    exact ⟨w, {
      opened := hopened
      shown := by
        refine ⟨outputAmount, blocks, mweb, warning, rest, hshown, hrest, ?_⟩
        rw [hs₄, hs₃, hs₂, hs₁, accepted_append, List.append_assoc]
      signed := by
        rw [hs₄, hs₃, hpsbt, hs₂, hs₁]
      committed := by
        intro session hsession₀
        rw [hsession₀] at hrel
        generalize hsession₁ : s₁.session = session₁ at hrel
        cases hrel with
        | some hmarked =>
            rename_i session'
            refine ⟨session', s₃.psbt, s₃.tape, hmarked, hpsbt ▸ hbelow, ?_⟩
            rw [← hcommit session' (by rw [hsession, hsession₁]), ← hsession₁, ← hsession] }⟩
  refine hrun.mono ?_ ?_
  · rintro _ s' ⟨w, h⟩
    exact ⟨p, w, hp, h⟩
  · intro e s' _
    cases e with
    | fault f => exact (sat_throw _).2 trivial
    | reject code errmsg =>
        simp only [cleanup, sat_bind, sat_modify, sat_throw]

end Jade
