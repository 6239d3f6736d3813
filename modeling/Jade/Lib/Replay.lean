/-
**Numbered messages and a receiver that wants the numbers to grow.**

A sender numbers its messages in increasing order; between it and the receiver they can be lost,
kept back, repeated and put in another order. A receiver that takes a message only when its number
is above all those it has taken so far takes every message at most once and in the order they were
sent, and it takes one that is new.

Main definitions:

* `Replay.Receiver`, `Replay.deliver`, `Replay.deliverAll` — the receiver.

Main results:

* `Replay.sublist_of_increasing` — messages with increasing numbers come in one order;
* `Replay.accepted_sublist` — **what is taken are some of the messages, in the order they were
  sent**;
* `Replay.accepted_new` — **a new message is taken**.
-/

import Mathlib.Data.List.Basic
import Mathlib.Data.Nat.Notation
import Mathlib.Tactic.Common

set_option relaxedAutoImplicit false
set_option autoImplicit false

namespace Replay

variable {M : Type}

/-- What a receiver has taken, oldest first, and the number that the next message must reach. -/
structure Receiver (M : Type) where
  accepted : List M := []
  next : ℕ := 0

section Deliver

variable (number : M → ℕ)

/-- A message arrives. -/
def deliver (r : Receiver M) (m : M) : Receiver M :=
  if r.next ≤ number m then { accepted := r.accepted ++ [m], next := number m + 1 } else r

/-- Messages arrive one after the other. -/
def deliverAll (r : Receiver M) (ms : List M) : Receiver M := ms.foldl (deliver number) r

@[simp] theorem deliverAll_nil (r : Receiver M) : deliverAll number r [] = r := rfl

@[simp] theorem deliverAll_cons (r : Receiver M) (m : M) (ms : List M) :
    deliverAll number r (m :: ms) = deliverAll number (deliver number r m) ms := rfl

/-- The numbers taken increase and lie below the next one. -/
structure Receiver.Increasing (r : Receiver M) : Prop where
  pairwise : r.accepted.Pairwise fun a b => number a < number b
  below : ∀ m ∈ r.accepted, number m < r.next

theorem Receiver.increasing_empty : Receiver.Increasing number ({} : Receiver M) where
  pairwise := List.Pairwise.nil
  below := by
    intro m hm
    exact absurd hm List.not_mem_nil

variable {number}

/-- One message keeps the receiver in order. -/
theorem Receiver.Increasing.deliver {r : Receiver M} (h : r.Increasing number) (m : M) :
    (Replay.deliver number r m).Increasing number := by
  unfold Replay.deliver
  split
  · next hle =>
      constructor
      · refine List.pairwise_append.2 ⟨h.pairwise, List.pairwise_singleton _ _, ?_⟩
        intro a ha b hb
        obtain rfl := List.mem_singleton.1 hb
        exact Nat.lt_of_lt_of_le (h.below a ha) hle
      · intro a ha
        rcases List.mem_append.1 ha with ha | ha
        · exact Nat.lt_succ_of_lt (Nat.lt_of_lt_of_le (h.below a ha) hle)
        · obtain rfl := List.mem_singleton.1 ha
          exact Nat.lt_succ_self _
  · exact h

theorem Receiver.Increasing.deliverAll {r : Receiver M} (h : r.Increasing number) (ms : List M) :
    (Replay.deliverAll number r ms).Increasing number := by
  induction ms generalizing r with
  | nil => exact h
  | cons m ms ih => exact ih (h.deliver m)

/-- What is taken has arrived. -/
theorem accepted_subset (r : Receiver M) (ms : List M) {m : M}
    (h : m ∈ (deliverAll number r ms).accepted) : m ∈ r.accepted ∨ m ∈ ms := by
  induction ms generalizing r with
  | nil => exact .inl h
  | cons a ms ih =>
      rcases ih (deliver number r a) h with h | h
      · rw [deliver] at h
        split at h
        · rcases List.mem_append.1 h with h | h
          · exact .inl h
          · exact .inr (List.mem_cons.2 (.inl (List.mem_singleton.1 h)))
        · exact .inl h
      · exact .inr (List.mem_cons_of_mem _ h)

/-- The next number stays within what bounds the messages. -/
theorem next_le {n : ℕ} (r : Receiver M) (ms : List M) (hr : r.next ≤ n)
    (hms : ∀ m ∈ ms, number m < n) : (deliverAll number r ms).next ≤ n := by
  induction ms generalizing r with
  | nil => exact hr
  | cons m ms ih =>
      refine ih _ ?_ fun a ha => hms a (List.mem_cons_of_mem _ ha)
      unfold deliver
      split
      · exact hms m List.mem_cons_self
      · exact hr

/-- **Messages with increasing numbers come in one order**: some of them, in increasing order too,
are a sublist. -/
theorem sublist_of_increasing {sent some : List M}
    (hsent : sent.Pairwise fun a b => number a < number b)
    (hsome : some.Pairwise fun a b => number a < number b) (hsub : ∀ m ∈ some, m ∈ sent) :
    some.Sublist sent := by
  induction sent generalizing some with
  | nil =>
      cases some with
      | nil => exact .slnil
      | cons m some => exact absurd (hsub m List.mem_cons_self) List.not_mem_nil
  | cons a sent ih =>
      obtain ⟨ha, hrest⟩ := List.pairwise_cons.1 hsent
      cases some with
      | nil => exact List.nil_sublist _
      | cons b some =>
          obtain ⟨hb, hsome'⟩ := List.pairwise_cons.1 hsome
          rcases List.mem_cons.1 (hsub b List.mem_cons_self) with rfl | hmem
          · -- the heads agree: nothing behind the first is the first again
            refine (ih hrest hsome' fun m hm => ?_).cons_cons b
            rcases List.mem_cons.1 (hsub m (List.mem_cons_of_mem _ hm)) with rfl | h
            · exact absurd (hb m hm) (Nat.lt_irrefl _)
            · exact h
          · -- the first is skipped: its number is too low
            refine (ih hrest hsome fun m hm => ?_).cons a
            rcases List.mem_cons.1 (hsub m hm) with rfl | h
            · rcases List.mem_cons.1 hm with rfl | hm
              · exact hmem
              · exact absurd (Nat.lt_trans (ha b hmem) (hb m hm)) (Nat.lt_irrefl _)
            · exact h

/-- **What is taken are some of the messages, each at most once and in the order they were
sent**, however often and in whatever order they arrive. -/
theorem accepted_sublist {sent ms : List M}
    (hsent : sent.Pairwise fun a b => number a < number b) (hms : ∀ m ∈ ms, m ∈ sent) :
    (deliverAll number {} ms).accepted.Sublist sent := by
  refine sublist_of_increasing hsent
    ((Receiver.increasing_empty number).deliverAll ms).pairwise fun m hm => ?_
  rcases accepted_subset _ ms hm with h | h
  · exact absurd h List.not_mem_nil
  · exact hms m h

/-- **A new message is taken**, whatever of those sent before it has arrived. -/
theorem accepted_new {before after ms : List M} {m : M}
    (hsent : (before ++ m :: after).Pairwise fun a b => number a < number b)
    (hms : ∀ a ∈ ms, a ∈ before) :
    m ∈ (deliver number (deliverAll number {} ms) m).accepted := by
  have hbelow : ∀ a ∈ ms, number a < number m := fun a ha =>
    (List.pairwise_append.1 hsent).2.2 a (hms a ha) m List.mem_cons_self
  rw [deliver, if_pos (next_le _ ms (Nat.zero_le _) hbelow)]
  exact List.mem_append.2 (.inr (List.mem_singleton.2 rfl))

end Deliver

end Replay
