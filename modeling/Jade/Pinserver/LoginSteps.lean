/-
**What the dialogues of a login leave alone.**

A login talks with the user, and with the oracle through the host. These conversations leave the
wallet alone, in flash and in memory; they add to the exchange with the host; and a key comes back
for the PIN that was entered, from the message that was taken after the last question.

Main definitions:

* `Jade.Pinclient.Grown`, `Jade.Pinclient.Quiet` — the exchange goes on, or goes on without another
  message;
* `Jade.Pinclient.PinAsked` — what comes of a question for a PIN.

Main results:

* `Jade.Pinclient.sat_getPinGetAeskey`, `Jade.Pinclient.sat_setPinGetAeskey` — **the two questions
  of a login**.
-/

import Jade.Keychain.Restriction
import Jade.Pinserver.AuthUser
import Jade.Pinserver.Interaction

set_option relaxedAutoImplicit false
set_option autoImplicit false

namespace Jade.Pinclient

open Exec Flash

/-! ### The exchange -/

section Exchange

variable {V : Type} {L : AuthLib V} {d d' d'' : ClientDev V}

/-- The exchange has gone on. -/
def Grown (d d' : ClientDev V) : Prop := ∃ es, d'.ram.talk.events = d.ram.talk.events ++ es

/-- It has gone on without another message. -/
def Quiet (d d' : ClientDev V) : Prop :=
  ∃ es, d'.ram.talk.events = d.ram.talk.events ++ es ∧ ∀ m, .took m ∉ es

theorem Quiet.grown (h : Quiet d d') : Grown d d' := by
  obtain ⟨es, hes, -⟩ := h
  exact ⟨es, hes⟩

theorem quiet_of_talk (h : d'.ram.talk = d.ram.talk) : Quiet d d' := by
  refine ⟨[], ?_, fun m => List.not_mem_nil⟩
  rw [h, List.append_nil]

theorem Quiet.refl (d : ClientDev V) : Quiet d d := quiet_of_talk rfl

theorem Grown.trans (h : Grown d d') (h' : Grown d' d'') : Grown d d'' := by
  obtain ⟨es, hes⟩ := h
  obtain ⟨es', hes'⟩ := h'
  exact ⟨es ++ es', by rw [hes', hes, List.append_assoc]⟩

theorem Quiet.trans (h : Quiet d d') (h' : Quiet d' d'') : Quiet d d'' := by
  obtain ⟨es, hes, hno⟩ := h
  obtain ⟨es', hes', hno'⟩ := h'
  refine ⟨es ++ es', by rw [hes', hes, List.append_assoc], ?_⟩
  intro m hm
  rcases List.mem_append.1 hm with hm | hm
  · exact hno m hm
  · exact hno' m hm

/-- One thing that is not a message. -/
theorem quiet_of_record {e : Dialogue.Event (Incoming V) PinScreen (Outgoing PinReply)}
    (he : ∀ m, e ≠ .took m) (h : d'.ram.talk.events = d.ram.talk.events ++ [e]) : Quiet d d' := by
  refine ⟨[e], h, ?_⟩
  intro m hm
  exact he m (List.mem_singleton.1 hm).symm

/-- Only the exchange has gone on, and without another message. -/
structure Said (d d' : ClientDev V) : Prop extends Talked d d' where
  quiet : Quiet d d'

theorem Said.refl (d : ClientDev V) : Said d d := ⟨.refl d, .refl d⟩

theorem Said.trans (h : Said d d') (h' : Said d' d'') : Said d d'' :=
  ⟨h.toTalked.trans h'.toTalked, h.quiet.trans h'.quiet⟩

theorem said_record (d : ClientDev V)
    {e : Dialogue.Event (Incoming V) PinScreen (Outgoing PinReply)}
    (he : ∀ m, e ≠ .took m) :
    Said d { d with ram := d.ram.putTalk (d.ram.talk.record e) } :=
  ⟨talked_putTalk d _, quiet_of_record he rfl⟩

theorem sat_rejectCurrent (code : ℤ) (errmsg : String) (d : ClientDev V) :
    Sat (rejectCurrent L code errmsg) (fun _ d' => Said d d') (fun _ d' => Said d d') d := by
  rw [rejectCurrent, sat_onTalk]
  refine (sat_rejectMessage_sent code errmsg _).mono ?_ ?_
  · rintro _ talk (rfl | ⟨out, -, rfl⟩)
    · exact .refl d
    · exact said_record d (fun _ h => by cases h)
  · rintro _ talk rfl
    exact .refl d

theorem sat_replyBool (ok : Bool) (d : ClientDev V) :
    Sat (replyBool L ok) (fun _ d' => Said d d') (fun _ d' => Said d d') d := by
  simp only [replyBool, sat_onTalk, currentMessage, sat_bind, sat_get, sat_pure]
  cases d.ram.talk.current with
  | none => exact (sat_throw _).2 (.refl d)
  | some m =>
      simp only [replyWith, replyTo, sat_bind, sat_orFault, Dialogue.sat_send]
      exact ⟨fun _ _ => said_record d (fun _ h => by cases h), fun _ _ => .refl d⟩

theorem sat_showScreen (screen : PinScreen) (d : ClientDev V) :
    Sat (showScreen screen)
      (fun _ d' => Talked d d' ∧ d'.ram.talk.events = d.ram.talk.events ++ [.shown screen])
      (fun _ _ => False) d := by
  have hevents : (d.ram.talk.showMore (Dialogue.screens d.ram.talk.events ++ [screen])).events =
      d.ram.talk.events ++ [.shown screen] := by
    rw [Dialogue.State.showMore_append]
    rfl
  rw [showScreen, sat_onTalk, Dialogue.sat_onScreens, sat_modify]
  exact ⟨talked_putTalk d _, hevents⟩

theorem said_of_shown {screen : PinScreen} (h : Talked d d')
    (hevents : d'.ram.talk.events = d.ram.talk.events ++ [.shown screen]) : Said d d' :=
  ⟨h, quiet_of_record (e := .shown screen) (fun _ h => by cases h) hevents⟩

/-- Looking at the message changes nothing. -/
theorem sat_messageSource (d : ClientDev V) :
    Sat messageSource (fun _ d' => d' = d) (fun _ _ => False) d := by
  simp only [messageSource, currentMessage, sat_bind, sat_onTalk, sat_get, sat_pure]
  rfl

end Exchange

/-! ### PINs -/

section Pins

variable {V : Type} (L : AuthLib V)

/-- **What comes of asking the oracle for the key of a PIN.** -/
structure PinAsked (document : Document) (typed : Option Pin) (d d' : ClientDev V)
    (r : Option (Pin × Bytes)) : Prop where
  kept : Kept L.wally d d'
  grown : Grown d d'
  answered : ∀ pin aeskey, r = some (pin, aeskey) → typed = some pin ∧
    Answered L.wally L.cbor.toTinyCborStrings
      ⟨pin.toList, document, decide (document = .setPin)⟩ d' aeskey
  heard : ∀ pin, typed = some pin → Heard L.wally L.cbor.toTinyCborStrings
    ⟨pin.toList, document, decide (document = .setPin)⟩ d d' (r.map Prod.snd)

variable {L} {d d' d'' : ClientDev V} {document : Document}

theorem Progress.grown {W : PinWally} {ask : Ask} (h : Progress W ask d d') : Grown d d' := by
  obtain ⟨es, js, hes, -⟩ := h.asked
  exact ⟨es, hes⟩

/-- A question that comes after a screen, or after nothing. -/
theorem heard_of_quiet {W : PinWally} {C : TinyCborStrings V} {ask : Ask} {key : Option Bytes}
    (hquiet : Quiet d d') (hlast : ∀ es out, d'.ram.talk.events ≠ es ++ [.sent out])
    (h : Heard W C ask d' d'' key) (hgrown : Grown d' d'') : Heard W C ask d d'' key := by
  obtain ⟨es, hes, hquiet⟩ := hquiet
  obtain ⟨new, hnew⟩ := hgrown
  intro before out m after r hevents hno hbody
  rw [hnew] at hevents
  rcases pair_append hevents (fun ys => hlast ys out) with ⟨before', rfl⟩ | ⟨mid, hold, rfl⟩
  · exact h before' out m after r (by simp only [hnew, List.append_assoc]) hno hbody
  · -- no message was taken before
    rw [hes, List.append_assoc, List.append_assoc, List.append_cancel_left_eq] at hold
    refine absurd ?_ (hquiet m)
    rw [hold]
    simp

/-- The question itself. -/
theorem sat_getPinserverAeskey_asked {pin : Pin} {retries : List Bool} (hquiet : Quiet d d')
    (hlast : ∀ es out, d'.ram.talk.events ≠ es ++ [.sent out]) (hkept : Kept L.wally d d') :
    Sat (getPinserverAeskey L.wally L.cbor.toTinyCborStrings pin.toList document
        (decide (document = .setPin)) retries)
      (fun aeskey d'' =>
        PinAsked L document (some pin) d d'' (aeskey.map fun aeskey => (pin, aeskey)))
      (fun _ d'' => PinAsked L document (some pin) d d'' none) d' := by
  refine (sat_getPinserverAeskey ⟨pin.toList, document, decide (document = .setPin)⟩ retries).mono
    ?_ ?_
  · intro aeskey d'' h
    refine ⟨hkept.trans h.progress.kept, hquiet.grown.trans h.progress.grown, ?_, ?_⟩
    · intro pin' aeskey' hr
      obtain ⟨aeskey'', haeskey, hpair⟩ := Option.map_eq_some_iff.1 hr
      obtain ⟨rfl, rfl⟩ := Prod.mk.inj hpair
      exact ⟨rfl, h.answered aeskey'' haeskey⟩
    · intro pin' hpin
      obtain rfl := Option.some.inj hpin
      rw [Option.map_map, show Prod.snd ∘ (fun aeskey : Bytes => (pin, aeskey)) = id from rfl,
        Option.map_id]
      exact heard_of_quiet hquiet hlast h.heard h.progress.grown
  · intro _ d'' h
    refine ⟨hkept.trans h.progress.kept, hquiet.grown.trans h.progress.grown,
      (fun _ _ h => by cases h), ?_⟩
    intro pin' hpin
    obtain rfl := Option.some.inj hpin
    exact heard_of_quiet hquiet hlast h.heard h.progress.grown

/-- The keychain, seen and put back as it was. -/
theorem putWallet_walletDev (d : ClientDev V) : putWallet (walletDev d) d = d := by
  have hstore : withWallet d.store (walletStore d.store) = d.store := by
    funext k
    cases k with
    | settings k =>
        cases k with
        | wallet k => rfl
        | _ => rfl
    | antireplay => rfl
    | walletErasePin => rfl
  obtain ⟨store, ram, fates, log⟩ := d
  simp only [putWallet, walletDev, hstore]

theorem Said.pinAsked_none (h : Said d d') (typed : Option Pin) :
    PinAsked L document typed d d' none where
  kept := h.kept
  grown := h.quiet.grown
  answered := by
    intro pin aeskey h
    cases h
  heard := by
    intro pin _ before out m after r hevents _ _
    obtain ⟨es, hes, hquiet⟩ := h.quiet
    rw [hes, List.append_assoc, List.append_assoc, List.append_cancel_left_eq] at hevents
    refine absurd ?_ (hquiet m)
    rw [hevents]
    simp

/-- The PIN of the stored wallet. -/
theorem sat_getPinGetAeskey (title : PinScreen) (u : UserInput) (d : ClientDev V) :
    Sat (getPinGetAeskey L title u) (fun r d' => PinAsked L .getPin u.pin d d' r)
      (fun _ d' => Kept L.wally d d') d := by
  have hlook : Sat (onWallet Jade.getPinGetAeskey : ClientM V UInt8) (fun _ d' => d' = d)
      (fun _ d' => d' = d) d := by
    rw [sat_onWallet]
    refine (keeps_getPinGetAeskey (I := fun w => w = walletDev d) _ rfl).mono ?_ ?_
    · intro _ w hw
      rw [hw]
      exact putWallet_walletDev d
    · intro _ w hw
      rw [hw]
      exact putWallet_walletDev d
  rw [getPinGetAeskey, sat_bind]
  refine hlook.mono ?_ (fun _ d' h => by rw [h]; exact .refl d)
  intro _ d' hd'
  subst d'
  rw [sat_bind]
  refine (sat_showScreen title d).mono ?_ (fun _ _ h => h.elim)
  rintro _ d₁ ⟨htalked, hevents⟩
  have hsaid := said_of_shown htalked hevents
  cases hpin : u.pin with
  | none =>
      rw [sat_bind]
      refine (sat_rejectCurrent _ _ d₁).mono ?_ (fun _ _ h => (hsaid.trans h).kept)
      intro _ d₂ h
      exact (sat_pure _).2 ((hsaid.trans h).pinAsked_none none)
  | some pin =>
      have hlast : ∀ es out, d₁.ram.talk.events ≠ es ++ [.sent out] := by
        intro es out h
        rw [hevents] at h
        cases List.singleton_inj.1 (List.append_inj' h rfl).2
      rw [sat_bind]
      exact (sat_getPinserverAeskey_asked hsaid.quiet hlast hsaid.kept).mono
        (fun _ _ h => (sat_pure _).2 h) (fun _ _ h => h.kept)

/-- The PIN that is confirmed, if one is. -/
def confirmedPin : List NewPinRound → Option Pin
  | [] => none
  | .abandon :: _ => none
  | .backOut _ :: rounds => confirmedPin rounds
  | .confirm pin again tryAgain :: rounds =>
      if pin = again then some pin else if tryAgain then confirmedPin rounds else none

/-- A new PIN is entered. -/
theorem sat_enterNewPin (rounds : List NewPinRound) (d : ClientDev V) :
    Sat (enterNewPin L rounds)
      (fun r d' => Said d d' ∧ r = confirmedPin rounds ∧
        (r.isSome → ∀ es out, d'.ram.talk.events ≠ es ++ [.sent out]))
      (fun _ d' => Said d d') d := by
  induction rounds generalizing d with
  | nil =>
      rw [enterNewPin, sat_bind]
      exact (sat_showScreen _ d).mono (fun _ _ h => (sat_throw _).2 (said_of_shown h.1 h.2))
        (fun _ _ h => h.elim)
  | cons round rounds ih =>
      have hreject : ∀ d₁ : ClientDev V, Said d d₁ →
          Sat (do rejectCurrent L CBOR_RPC_USER_CANCELLED "User abandoned setting new PIN"
                  return none : ClientM V (Option Pin))
            (fun r d' => Said d d' ∧ r = none ∧
              (r.isSome → ∀ es out, d'.ram.talk.events ≠ es ++ [.sent out]))
            (fun _ d' => Said d d') d₁ := by
        intro d₁ hd₁
        rw [sat_bind]
        refine (sat_rejectCurrent _ _ d₁).mono ?_ (fun _ _ h => hd₁.trans h)
        intro _ d₂ h
        refine (sat_pure _).2 ⟨hd₁.trans h, rfl, ?_⟩
        intro hsome
        cases hsome
      cases round with
      | abandon =>
          rw [enterNewPin, sat_bind]
          refine (sat_showScreen _ d).mono ?_ (fun _ _ h => h.elim)
          intro _ d₁ h₁
          exact hreject d₁ (said_of_shown h₁.1 h₁.2)
      | backOut pin =>
          rw [enterNewPin, sat_bind]
          refine (sat_showScreen _ d).mono ?_ (fun _ _ h => h.elim)
          intro _ d₁ h₁
          rw [sat_bind]
          refine (sat_showScreen _ d₁).mono ?_ (fun _ _ h => h.elim)
          intro _ d₂ h₂
          have hsaid := (said_of_shown h₁.1 h₁.2).trans (said_of_shown h₂.1 h₂.2)
          exact (ih d₂).mono (fun _ _ h => ⟨hsaid.trans h.1, h.2⟩) (fun _ _ h => hsaid.trans h)
      | confirm pin again tryAgain =>
          rw [enterNewPin, confirmedPin, sat_bind]
          refine (sat_showScreen _ d).mono ?_ (fun _ _ h => h.elim)
          intro _ d₁ h₁
          rw [sat_bind]
          refine (sat_showScreen _ d₁).mono ?_ (fun _ _ h => h.elim)
          intro _ d₂ h₂
          have hsaid := (said_of_shown h₁.1 h₁.2).trans (said_of_shown h₂.1 h₂.2)
          rw [sat_ite]
          constructor
          · intro hsame
            refine (sat_pure _).2 ⟨hsaid, by rw [if_pos hsame], ?_⟩
            intro _ es out hes
            rw [h₂.2] at hes
            cases List.singleton_inj.1 (List.append_inj' hes rfl).2
          · intro hdiffer
            rw [if_neg hdiffer, sat_bind]
            refine (sat_showScreen _ d₂).mono ?_ (fun _ _ h => h.elim)
            intro _ d₃ h₃
            have hsaid₃ := hsaid.trans (said_of_shown h₃.1 h₃.2)
            cases tryAgain with
            | true =>
                simp only [if_true]
                exact (ih d₃).mono (fun _ _ h => ⟨hsaid₃.trans h.1, h.2⟩)
                  (fun _ _ h => hsaid₃.trans h)
            | false =>
                simp only [Bool.false_eq_true, if_false]
                exact hreject d₃ hsaid₃

/-- A new PIN. -/
theorem sat_setPinGetAeskey (u : UserInput) (d : ClientDev V) :
    Sat (setPinGetAeskey L u) (fun r d' => PinAsked L .setPin (confirmedPin u.newPin) d d' r)
      (fun _ d' => Kept L.wally d d') d := by
  rw [setPinGetAeskey, sat_bind]
  refine (sat_enterNewPin u.newPin d).mono ?_ (fun _ _ h => h.kept)
  rintro r d₁ ⟨hsaid, hr, hlast⟩
  rw [← hr]
  cases r with
  | none => exact (sat_pure _).2 (hsaid.pinAsked_none none)
  | some pin =>
      rw [sat_bind]
      exact (sat_getPinserverAeskey_asked hsaid.quiet (hlast rfl)
        hsaid.kept).mono (fun _ _ h => (sat_pure _).2 h) (fun _ _ h => h.kept)

end Pins

end Jade.Pinclient
