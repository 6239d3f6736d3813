/-
**Runs of a machine, and predicates that hold along them.**

A machine is a step function taking a state and an operation.  A run is the fold of the step
function over a list of operations of any length; a property of every run is proved by showing it
of one step.  Steps may be restricted: `Run.AllSteps P s ops` says that every step of the run of
`ops` from `s` was taken from a state and with an operation related by `P`.

Main definitions:

* `Run.run` — the state a list of operations leads to;
* `Run.AllSteps` — every step of the run satisfies a condition on its state and operation.

Main results:

* `Run.run_induction` — **the run rule**: what one admissible step preserves, an admissible run
  preserves, and `Run.run_invariant` without conditions;
* `Run.allSteps_append`, `Run.run_append` — runs can be cut anywhere;
* `Run.append_singleton_eq` — where an entry of an extended history can lie.
-/

import Mathlib.Data.Nat.Notation
import Mathlib.Tactic.Common

set_option relaxedAutoImplicit false
set_option autoImplicit false

namespace Run

variable {σ op : Type}

/-- The state reached from `s` by the operations `ops`, oldest first. -/
def run (step : σ → op → σ) (s : σ) (ops : List op) : σ := ops.foldl step s

@[simp] theorem run_nil (step : σ → op → σ) (s : σ) : run step s [] = s := rfl

@[simp] theorem run_cons (step : σ → op → σ) (s : σ) (o : op) (ops : List op) :
    run step s (o :: ops) = run step (step s o) ops := rfl

theorem run_append (step : σ → op → σ) (s : σ) (ops ops' : List op) :
    run step s (ops ++ ops') = run step (run step s ops) ops' := List.foldl_append

/-- Every step of the run of `ops` from `s` is taken from a state and with an operation that
`P` relates. -/
def AllSteps (step : σ → op → σ) (P : σ → op → Prop) : σ → List op → Prop
  | _, [] => True
  | s, o :: ops => P s o ∧ AllSteps step P (step s o) ops

@[simp] theorem allSteps_nil (step : σ → op → σ) (P : σ → op → Prop) (s : σ) :
    AllSteps step P s [] := trivial

@[simp] theorem allSteps_cons (step : σ → op → σ) (P : σ → op → Prop) (s : σ) (o : op)
    (ops : List op) :
    AllSteps step P s (o :: ops) ↔ P s o ∧ AllSteps step P (step s o) ops := Iff.rfl

instance AllSteps.decidable {step : σ → op → σ} {P : σ → op → Prop} [∀ s o, Decidable (P s o)] :
    ∀ s ops, Decidable (AllSteps step P s ops)
  | _, [] => isTrue trivial
  | s, o :: ops =>
      have : Decidable (AllSteps step P (step s o) ops) := AllSteps.decidable (step s o) ops
      inferInstanceAs (Decidable (P s o ∧ AllSteps step P (step s o) ops))

theorem allSteps_append (step : σ → op → σ) (P : σ → op → Prop) (s : σ) (ops ops' : List op) :
    AllSteps step P s (ops ++ ops') ↔
      AllSteps step P s ops ∧ AllSteps step P (run step s ops) ops' := by
  induction ops generalizing s with
  | nil => simp
  | cons o ops ih => simp [ih, and_assoc]

/-- **The run rule.**  A predicate preserved by every admissible step holds at the end of every
admissible run. -/
theorem run_induction {step : σ → op → σ} {P : σ → op → Prop} {I : σ → Prop}
    (hstep : ∀ s o, I s → P s o → I (step s o)) {s : σ} {ops : List op} (hs : I s)
    (hops : AllSteps step P s ops) : I (run step s ops) := by
  induction ops generalizing s with
  | nil => exact hs
  | cons o ops ih => exact ih (hstep s o hs hops.1) hops.2

/-- The run rule for steps that are all admissible. -/
theorem run_invariant {step : σ → op → σ} {I : σ → Prop} (hstep : ∀ s o, I s → I (step s o)) {s : σ}
    (hs : I s) (ops : List op) : I (run step s ops) := by
  induction ops generalizing s with
  | nil => exact hs
  | cons o ops ih => exact ih (hstep s o hs)

/-! ### Histories -/

/-- An entry `x` of a history extended by `y` is the new entry, or lies in the old history. -/
theorem append_singleton_eq {γ : Type} {log pre post : List γ} {x y : γ}
    (h : log ++ [y] = pre ++ x :: post) :
    (pre = log ∧ x = y ∧ post = []) ∨ ∃ post', post = post' ++ [y] ∧ log = pre ++ x :: post' := by
  rcases List.eq_nil_or_concat post with rfl | ⟨post', z, rfl⟩
  · obtain ⟨h₁, h₂⟩ := List.append_inj' h rfl
    exact .inl ⟨h₁.symm, (List.singleton_inj.1 h₂).symm, rfl⟩
  · rw [List.concat_eq_append, ← List.cons_append, ← List.append_assoc] at h
    obtain ⟨h₁, h₂⟩ := List.append_inj' h rfl
    obtain rfl := List.singleton_inj.1 h₂
    exact .inr ⟨post', List.concat_eq_append, h₁⟩

end Run
