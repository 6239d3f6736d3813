/-
**Handlers of requests.**

A handler asks the user, sends replies, and ends; it may end by rejecting the request with a code and a
message, or an assertion may fail, and then the device restarts.  The device keeps no record of what it
asked and sent, but the model does.

Main definitions:

* `Jade.SignErr` — the two ways to fail;
* `Jade.Talk`, `Jade.Handler` — what has been asked and sent, and the programs that ask and send;
* `Jade.getter`, `Jade.orFault`, `Jade.askUser`, `Jade.sendReply`, `Jade.reject` — their steps.
-/

import Jade.Lib.Exec
import Jade.Utils.CborRpc
import Jade.Wallet.Script

set_option relaxedAutoImplicit false
set_option autoImplicit false

namespace Jade

open Exec

/-! ### Failing -/

/-- How signing fails: the request is rejected with a code and a message, or the device restarts. -/
inductive SignErr
  | reject (code : ℤ) (errmsg : String)
  | fault (f : Fault)
  deriving DecidableEq

/-- Does the device restart? -/
def SignErr.isFault : SignErr → Bool
  | .reject .. => false
  | .fault _ => true

/-- A computation that may be cut short, as a step of a program. -/
def orFault {σ α : Type} : Except Fault α → EStateM SignErr σ α
  | .ok a => pure a
  | .error f => throw (.fault f)

@[simp] theorem sat_orFault {σ α : Type} {Q : α → σ → Prop} {E : SignErr → σ → Prop} {s : σ}
    (x : Except Fault α) :
    Sat (orFault x) Q E s ↔
      (∀ a, x = .ok a → Q a s) ∧ ∀ f, x = .error f → E (.fault f) s := by
  cases x <;> simp [orFault]

/-- A getter that may abort, as a computation that may be cut short. -/
def getter {α : Type} : Except WireAbort α → Except Fault α
  | .ok a => .ok a
  | .error _ => .error .assert

/-- `jade_process_reject_message` -/
def reject {σ α : Type} (code : ℤ) (errmsg : String) : EStateM SignErr σ α :=
  throw (.reject code errmsg)

@[simp] theorem sat_reject {σ α : Type} {Q : α → σ → Prop} {E : SignErr → σ → Prop} {s : σ}
    (code : ℤ) (errmsg : String) :
    Sat (reject code errmsg) Q E s ↔ E (.reject code errmsg) s := sat_throw _

/-! ### Asking and replying -/

/-- The screens answered and the replies sent so far, oldest first. -/
structure Talk (Screen Reply : Type) where
  answers : List (Screen × Bool) := []
  replies : List Reply := []

/-- A handler. -/
abbrev Handler (Screen Reply : Type) : Type → Type := EStateM SignErr (Talk Screen Reply)

variable {Screen Reply : Type}

/-- Show a screen, and wait for the answer. -/
def askUser (user : Screen → Bool) (screen : Screen) : Handler Screen Reply Bool := do
  modify fun t => { t with answers := t.answers ++ [(screen, user screen)] }
  pure (user screen)

/-- Send a reply. -/
def sendReply (reply : Reply) : Handler Screen Reply PUnit :=
  modify fun t => { t with replies := t.replies ++ [reply] }

@[simp] theorem sat_askUser {Q : Bool → Talk Screen Reply → Prop}
    {E : SignErr → Talk Screen Reply → Prop} {t : Talk Screen Reply} (user : Screen → Bool)
    (screen : Screen) :
    Sat (askUser user screen) Q E t ↔
      Q (user screen) { t with answers := t.answers ++ [(screen, user screen)] } := by
  simp only [askUser, sat_bind, sat_modify, sat_pure]

@[simp] theorem sat_sendReply {Q : PUnit → Talk Screen Reply → Prop}
    {E : SignErr → Talk Screen Reply → Prop} {t : Talk Screen Reply} (reply : Reply) :
    Sat (sendReply reply) Q E t ↔ Q () { t with replies := t.replies ++ [reply] } := by
  rw [sendReply, sat_modify]

/-! ### Restarts -/

/-- The device does not restart. -/
def NoFault {σ α : Type} (x : EStateM SignErr σ α) (s : σ) : Prop :=
  Sat x (fun _ _ => True) (fun e _ => e.isFault = false) s

section NoFault

variable {σ α β : Type} {s : σ}

theorem noFault_pure (a : α) : NoFault (pure a : EStateM SignErr σ α) s := (sat_pure _).2 trivial

theorem noFault_reject (code : ℤ) (errmsg : String) :
    NoFault (reject code errmsg : EStateM SignErr σ α) s := (sat_reject _ _).2 rfl

theorem not_noFault_throw (f : Fault) : ¬NoFault (throw (.fault f) : EStateM SignErr σ α) s := by
  rw [NoFault, sat_throw]
  exact Bool.noConfusion

/-- A step that may be cut short must not be. -/
theorem noFault_orFault_bind {x : Except Fault α} {k : α → EStateM SignErr σ β} :
    NoFault (orFault x >>= k) s ↔ ∃ a, x = .ok a ∧ NoFault (k a) s := by
  cases x with
  | ok a => simp [orFault, NoFault]
  | error f =>
      have hthrow : (orFault (.error f) >>= k : EStateM SignErr σ β) = throw (.fault f) := rfl
      rw [hthrow]
      refine ⟨fun h => absurd h (not_noFault_throw f), ?_⟩
      rintro ⟨a, ha, -⟩
      cases ha

end NoFault

end Jade
