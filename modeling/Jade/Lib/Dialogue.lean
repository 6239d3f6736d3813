/-
**A process in a dialogue: it takes messages, shows screens and sends replies.**

A process works on one message at a time. It shows screens, sends replies, lets go of the message
and takes the next one; a read comes back without a message when the connection is lost. Everything
that happens at its edges is kept in one list, oldest first, so that what happened before a reply
was sent can be read off the list.

In the simplest kind of dialogue the two sides take turns: each message is answered once, before the
next one is taken.

Main definitions:

* `Dialogue.Event`, `Dialogue.State` — what happens, and the process between two steps;
* `Dialogue.take`, `Dialogue.send`, `Dialogue.onScreens` — the steps;
* `Dialogue.EverySent` — what was known whenever a reply was sent;
* `Dialogue.Turns` — the two sides take turns.

Main results:

* `Dialogue.EverySent.push` — one more event;
* `Dialogue.Turns.forall₂` — the messages and the replies come in pairs;
* `Dialogue.Turns.onScreens` — screens do not interfere.
-/

import Jade.Lib.Exec

set_option relaxedAutoImplicit false
set_option autoImplicit false

namespace Dialogue

open Exec

variable {M S R : Type}

/-! ### What happens -/

/-- What happens at the edges of a process. -/
inductive Event (M S R : Type)
  | took (message : M)
  | lost
  | shown (screen : S)
  | sent (reply : R)
  deriving DecidableEq

namespace Event

def message? : Event M S R → Option M
  | took m => some m
  | _ => none

def screen? : Event M S R → Option S
  | shown screen => some screen
  | _ => none

def reply? : Event M S R → Option R
  | sent r => some r
  | _ => none

end Event

/-- The messages taken. -/
def messages (events : List (Event M S R)) : List M := events.filterMap Event.message?

/-- The screens shown. -/
def screens (events : List (Event M S R)) : List S := events.filterMap Event.screen?

/-- The replies that were sent. -/
def outbox (events : List (Event M S R)) : List R := events.filterMap Event.reply?

section Lists

variable (events events' : List (Event M S R))

@[simp] theorem messages_append :
    messages (events ++ events') = messages events ++ messages events' :=
  List.filterMap_append

@[simp] theorem screens_append : screens (events ++ events') = screens events ++ screens events' :=
  List.filterMap_append

@[simp] theorem outbox_append : outbox (events ++ events') = outbox events ++ outbox events' :=
  List.filterMap_append

@[simp] theorem messages_nil : messages ([] : List (Event M S R)) = [] := rfl
@[simp] theorem screens_nil : screens ([] : List (Event M S R)) = [] := rfl
@[simp] theorem outbox_nil : outbox ([] : List (Event M S R)) = [] := rfl

@[simp] theorem messages_took (m : M) : messages [(.took m : Event M S R)] = [m] := rfl
@[simp] theorem screens_took (m : M) : screens [(.took m : Event M S R)] = [] := rfl
@[simp] theorem outbox_took (m : M) : outbox [(.took m : Event M S R)] = [] := rfl

@[simp] theorem messages_lost : messages [(.lost : Event M S R)] = [] := rfl
@[simp] theorem screens_lost : screens [(.lost : Event M S R)] = [] := rfl
@[simp] theorem outbox_lost : outbox [(.lost : Event M S R)] = [] := rfl

@[simp] theorem messages_sent (r : R) : messages [(.sent r : Event M S R)] = [] := rfl
@[simp] theorem screens_sent (r : R) : screens [(.sent r : Event M S R)] = [] := rfl
@[simp] theorem outbox_sent (r : R) : outbox [(.sent r : Event M S R)] = [r] := rfl

/-- The screens of a part of a dialogue in which nothing else happens. -/
@[simp] theorem screens_map_shown (shown : List S) :
    screens (shown.map (Event.shown : S → Event M S R)) = shown := by
  induction shown with
  | nil => rfl
  | cons screen shown ih => exact congrArg (screen :: ·) ih

@[simp] theorem messages_map_shown (shown : List S) :
    messages (shown.map (Event.shown : S → Event M S R)) = [] := by
  induction shown with
  | nil => rfl
  | cons screen shown ih => exact ih

@[simp] theorem outbox_map_shown (shown : List S) :
    outbox (shown.map (Event.shown : S → Event M S R)) = [] := by
  induction shown with
  | nil => rfl
  | cons screen shown ih => exact ih

end Lists

/-! ### Steps -/

/-- A process between two steps: the messages that are going to arrive, the one it is at, and what
has happened so far. -/
structure State (M S R : Type) where
  inbox : List M
  current : Option M
  events : List (Event M S R) := []

namespace State

/-- The process starts with a message. -/
def start (m : M) (inbox : List M) : State M S R where
  inbox := inbox
  current := some m

def record (s : State M S R) (e : Event M S R) : State M S R := { s with events := s.events ++ [e] }

/-- Let go of the current message and take the next one.  Without one the connection is lost. -/
def take (s : State M S R) : State M S R :=
  match s.inbox with
  | [] => { s with current := none, events := s.events ++ [.lost] }
  | m :: inbox => { inbox, current := some m, events := s.events ++ [.took m] }

/-- The screens that were shown on top of those before. -/
def showMore (s : State M S R) (after : List S) : State M S R :=
  { s with events := s.events ++ (after.drop (screens s.events).length).map .shown }

@[simp] theorem record_events (s : State M S R) (e : Event M S R) :
    (s.record e).events = s.events ++ [e] := rfl

@[simp] theorem record_current (s : State M S R) (e : Event M S R) :
    (s.record e).current = s.current := rfl

@[simp] theorem record_inbox (s : State M S R) (e : Event M S R) :
    (s.record e).inbox = s.inbox := rfl

@[simp] theorem showMore_current (s : State M S R) (after : List S) :
    (s.showMore after).current = s.current := rfl

@[simp] theorem messages_showMore (s : State M S R) (after : List S) :
    messages (s.showMore after).events = messages s.events := by
  rw [showMore, messages_append, messages_map_shown, List.append_nil]

@[simp] theorem outbox_showMore (s : State M S R) (after : List S) :
    outbox (s.showMore after).events = outbox s.events := by
  rw [showMore, outbox_append, outbox_map_shown, List.append_nil]

/-- Screens that come on top of those before. -/
theorem showMore_append (s : State M S R) (shown : List S) :
    s.showMore (screens s.events ++ shown) =
      { s with events := s.events ++ shown.map .shown } := by
  rw [showMore, List.drop_left]

end State

variable {ε α : Type}

def take : EStateM ε (State M S R) PUnit := modify State.take

def send (r : R) : EStateM ε (State M S R) PUnit := modify fun s => s.record (.sent r)

/-- A program that knows of the screens only. -/
def onScreens (x : EStateM ε (List S) α) : EStateM ε (State M S R) α :=
  zoom (fun s => screens s.events) (fun after s => s.showMore after) x

section Sat

variable {Q : PUnit → State M S R → Prop} {E : ε → State M S R → Prop} {s : State M S R}

@[simp] theorem sat_take : Sat take Q E s ↔ Q () s.take := by
  rw [take, sat_modify]

@[simp] theorem sat_send (r : R) : Sat (send r) Q E s ↔ Q () (s.record (.sent r)) := by
  rw [send, sat_modify]

theorem sat_onScreens {Q : α → State M S R → Prop} (x : EStateM ε (List S) α) :
    Sat (onScreens x) Q E s ↔
      Sat x (fun a after => Q a (s.showMore after)) (fun e after => E e (s.showMore after))
        (screens s.events) := sat_zoom _ _ _

end Sat

/-- Screens that are accepted come on top of those before. -/
theorem sat_onScreens_accepts {Q : List S → Prop} {x : EStateM ε (List S) Bool} {s : State M S R}
    (h : Sat x (fun ok after => ok = true → ∃ shown, after = screens s.events ++ shown ∧ Q shown)
      (fun _ _ => True) (screens s.events)) :
    Sat (onScreens x)
      (fun ok s' => ok = true → ∃ shown, screens s'.events = screens s.events ++ shown ∧ Q shown)
      (fun _ _ => True) s := by
  rw [sat_onScreens]
  refine h.mono ?_ (fun _ _ _ => trivial)
  intro ok after hok htrue
  obtain ⟨shown, rfl, hQ⟩ := hok htrue
  refine ⟨shown, ?_, hQ⟩
  rw [State.showMore_append, screens_append, screens_map_shown]

/-! ### Before a reply -/

section EverySent

/-- Whenever a reply was sent, it was one that what had happened before allows. -/
def EverySent (P : List (Event M S R) → R → Prop) (events : List (Event M S R)) : Prop :=
  ∀ before r after, events = before ++ .sent r :: after → P before r

variable {P : List (Event M S R) → R → Prop} {events : List (Event M S R)}

theorem everySent_nil : EverySent P ([] : List (Event M S R)) := by
  intro before r after h
  exact absurd (congrArg List.length h) (by simp)

/-- One more event: only a reply has to be allowed. -/
theorem EverySent.push (h : EverySent P events) {e : Event M S R}
    (he : ∀ r, e = .sent r → P events r) : EverySent P (events ++ [e]) := by
  intro before r after hsplit
  rcases List.eq_nil_or_concat after with rfl | ⟨after, last, rfl⟩
  · obtain ⟨rfl, hlast⟩ := List.append_inj' hsplit rfl
    exact he r (List.cons.inj hlast).1
  · rw [List.concat_eq_append, ← List.cons_append, ← List.append_assoc] at hsplit
    exact h before r after (List.append_inj' hsplit rfl).1

theorem EverySent.map_shown (h : EverySent P events) (shown : List S) :
    EverySent P (events ++ shown.map .shown) := by
  induction shown generalizing events with
  | nil => rwa [List.map_nil, List.append_nil]
  | cons screen shown ih =>
      have hmore := ih (h.push (e := .shown screen) (by intro r hr; cases hr))
      rwa [List.append_assoc] at hmore

/-- Nothing is sent with the next message. -/
theorem EverySent.take {s : State M S R} (h : EverySent P s.events) :
    EverySent P s.take.events := by
  obtain ⟨inbox, current, events⟩ := s
  cases inbox with
  | nil => exact h.push (by intro r hr; cases hr)
  | cons m inbox => exact h.push (by intro r hr; cases hr)

/-- Nothing is sent with a screen. -/
theorem EverySent.onScreens (x : EStateM ε (List S) α) {s : State M S R}
    (h : EverySent P s.events) :
    Sat (onScreens x) (fun _ s' => EverySent P s'.events)
      (fun _ s' => EverySent P s'.events) s := by
  rw [sat_onScreens]
  exact sat_of_forall (fun _ _ => h.map_shown _) fun _ _ => h.map_shown _

end EverySent

/-- The screens are those shown before. -/
@[simp] theorem State.screens_take (s : State M S R) :
    screens s.take.events = screens s.events := by
  obtain ⟨inbox, current, events⟩ := s
  cases inbox <;> simp [State.take]

/-! ### Taking turns -/

section Turns

variable (answers : M → R → Prop) (m₀ : M)

/-- **The two sides take turns**: each message taken is answered once, before the next one is taken.
The message that is still to be answered, if there is one, is `pending`. -/
inductive Turns : List (Event M S R) → Option M → Prop
  | start : Turns [] (some m₀)
  | shown {events : List (Event M S R)} {pending : Option M} (screen : S) :
      Turns events pending → Turns (events ++ [.shown screen]) pending
  | sent {events : List (Event M S R)} {m : M} {r : R} :
      Turns events (some m) → answers m r → Turns (events ++ [.sent r]) none
  | took {events : List (Event M S R)} (m : M) :
      Turns events none → Turns (events ++ [.took m]) (some m)
  | lost {events : List (Event M S R)} : Turns events none → Turns (events ++ [.lost]) none

variable {answers : M → R → Prop} {m₀ : M} {events : List (Event M S R)} {pending : Option M}

/-- **The messages and the replies come in pairs.** -/
theorem Turns.forall₂ (h : Turns answers m₀ events pending) :
    ∃ answered, m₀ :: messages events = answered ++ pending.toList ∧
      List.Forall₂ answers answered (outbox events) := by
  induction h with
  | start => exact ⟨[], rfl, .nil⟩
  | shown screen _ ih =>
      obtain ⟨answered, hmessages, hpairs⟩ := ih
      refine ⟨answered, ?_, ?_⟩
      · rw [messages_append, ← hmessages]
        exact congrArg (m₀ :: ·) (List.append_nil _)
      · rw [outbox_append]
        exact (List.append_nil _).symm ▸ hpairs
  | @sent events m r _ hanswers ih =>
      obtain ⟨answered, hmessages, hpairs⟩ := ih
      refine ⟨answered ++ [m], ?_, ?_⟩
      · rw [messages_append, messages_sent, List.append_nil, hmessages, Option.toList_some,
          Option.toList_none, List.append_nil]
      · rw [outbox_append, outbox_sent]
        exact List.rel_append hpairs (.cons hanswers .nil)
  | @took events m _ ih =>
      obtain ⟨answered, hmessages, hpairs⟩ := ih
      rw [Option.toList_none, List.append_nil] at hmessages
      refine ⟨answered, ?_, ?_⟩
      · rw [messages_append, messages_took, ← List.cons_append, hmessages, Option.toList_some]
      · rwa [outbox_append, outbox_took, List.append_nil]
  | @lost events _ ih =>
      obtain ⟨answered, hmessages, hpairs⟩ := ih
      refine ⟨answered, ?_, ?_⟩
      · rwa [messages_append, messages_lost, List.append_nil]
      · rwa [outbox_append, outbox_lost, List.append_nil]

/-- Any number of screens. -/
theorem Turns.map_shown (h : Turns answers m₀ events pending) (shown : List S) :
    Turns answers m₀ (events ++ shown.map .shown) pending := by
  induction shown generalizing events with
  | nil => rwa [List.map_nil, List.append_nil]
  | cons screen shown ih =>
      have hmore := ih (h.shown screen)
      rwa [List.append_assoc] at hmore

/-- Screens do not interfere. -/
theorem Turns.onScreens (x : EStateM ε (List S) α) {s : State M S R}
    (h : Turns answers m₀ s.events pending) :
    Sat (onScreens x)
      (fun _ s' => s'.current = s.current ∧ Turns answers m₀ s'.events pending)
      (fun _ s' => s'.current = s.current ∧ Turns answers m₀ s'.events pending) s := by
  rw [sat_onScreens]
  exact sat_of_forall (fun _ _ => ⟨rfl, h.map_shown _⟩) fun _ _ => ⟨rfl, h.map_shown _⟩

/-- The process is at the message that is pending. -/
def AtMessage (answers : M → R → Prop) (m₀ m : M) (s : State M S R) : Prop :=
  s.current = some m ∧ Turns answers m₀ s.events (some m)

/-- Every message was answered. -/
def AllAnswered (answers : M → R → Prop) (m₀ : M) (s : State M S R) : Prop :=
  Turns answers m₀ s.events none

theorem atMessage_start (m₀ : M) (inbox : List M) :
    AtMessage answers m₀ m₀ (.start m₀ inbox : State M S R) := ⟨rfl, .start⟩

variable {s : State M S R} {m : M} {r : R}

theorem AtMessage.send (h : AtMessage answers m₀ m s) (hr : answers m r) :
    AllAnswered answers m₀ (s.record (.sent r)) := h.2.sent hr

/-- The next message is taken, or the connection is lost. -/
theorem AllAnswered.take (h : AllAnswered answers m₀ s) :
    (∃ m, s.inbox.head? = some m ∧ AtMessage answers m₀ m s.take) ∨
      (s.take.current = none ∧ AllAnswered answers m₀ s.take) := by
  obtain ⟨inbox, current, events⟩ := s
  cases inbox with
  | nil => exact .inr ⟨rfl, h.lost⟩
  | cons m inbox => exact .inl ⟨m, rfl, rfl, h.took m⟩

end Turns

end Dialogue
