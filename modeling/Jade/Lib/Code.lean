/-
**Codes that mark their own end.**

A code is self-delimiting when a word of it can be cut off the front of any longer string in only one
way: two strings that start with words of the code are equal only when the words are those of the same
value and the rests are equal.  Such codes can be written one after another without separators, as
often as wanted and each chosen by what was written before, and the whole is read in one way only.

Main definitions:

* `Jade.SelfDelimiting` — a code that marks its own end, on a set of values.

Main results:

* `Jade.SelfDelimiting.prefixFree` — no word is the beginning of another;
* `Jade.selfDelimiting_of_decode`, `Jade.selfDelimiting_of_length` — how to come by one;
* `Jade.SelfDelimiting.append`, `Jade.SelfDelimiting.option`, `Jade.SelfDelimiting.guarded`,
  `Jade.SelfDelimiting.counted`, `Jade.SelfDelimiting.sized` — how to put them together.
-/

import Mathlib.Data.Set.Basic
import Mathlib.Data.Set.Function

set_option relaxedAutoImplicit false
set_option autoImplicit false

namespace Jade

variable {α β γ : Type}

/-- A word of the code is cut off the front of a string in one way only. -/
def SelfDelimiting (s : Set α) (code : α → List γ) : Prop :=
  ∀ ⦃a⦄, a ∈ s → ∀ ⦃b⦄, b ∈ s → ∀ x y, code a ++ x = code b ++ y → a = b ∧ x = y

namespace SelfDelimiting

variable {s : Set α} {t : Set β} {code : α → List γ} {code' : β → List γ}

/-- No word is the beginning of another. -/
theorem prefixFree (h : SelfDelimiting s code) {a b : α} (ha : a ∈ s) (hb : b ∈ s)
    (hfront : code a <+: code b) : a = b := by
  obtain ⟨x, hx⟩ := hfront
  exact (h ha hb x [] (by rw [hx, List.append_nil])).1

/-- A value may be written as another one that stands for it. -/
theorem comp {f : β → α} (h : SelfDelimiting s code) (hf : Set.InjOn f t)
    (hmaps : Set.MapsTo f t s) : SelfDelimiting t fun b => code (f b) := by
  intro a ha b hb x y heq
  obtain ⟨hab, hxy⟩ := h (hmaps ha) (hmaps hb) x y heq
  exact ⟨hf ha hb hab, hxy⟩

/-- One word after another. -/
theorem append (h : SelfDelimiting s code) (h' : SelfDelimiting t code') :
    SelfDelimiting (s ×ˢ t) fun p => code p.1 ++ code' p.2 := by
  rintro ⟨a, b⟩ ⟨ha, hb⟩ ⟨a', b'⟩ ⟨ha', hb'⟩ x y heq
  rw [List.append_assoc, List.append_assoc] at heq
  obtain ⟨rfl, hrest⟩ := h ha ha' _ _ heq
  obtain ⟨rfl, hxy⟩ := h' hb hb' x y hrest
  exact ⟨rfl, hxy⟩

/-- A value that may be missing, when it is known whether it is. -/
theorem option (h : SelfDelimiting s code) (present : Bool) :
    SelfDelimiting {o : Option α | o.isSome = present ∧ ∀ a, o = some a → a ∈ s}
      fun o => (o.map code).getD [] := by
  rintro o ⟨ho, hos⟩ o' ⟨ho', hos'⟩ x y heq
  cases o with
  | none =>
      cases o' with
      | none => exact ⟨rfl, by simpa using heq⟩
      | some a' => simp [← ho] at ho'
  | some a =>
      cases o' with
      | none => simp [← ho] at ho'
      | some a' =>
          obtain ⟨rfl, hxy⟩ := h (hos a rfl) (hos' a' rfl) x y heq
          exact ⟨rfl, hxy⟩

/-- A value that is left out when it is `d`. -/
theorem guarded (h : SelfDelimiting s code) (present : Bool) (d : α) :
    SelfDelimiting {a | (present = true → a ∈ s) ∧ (present = false → a = d)}
      fun a => if present then code a else [] := by
  intro a ha a' ha' x y heq
  cases present with
  | false => exact ⟨(ha.2 rfl).trans (ha'.2 rfl).symm, heq⟩
  | true => exact h (ha.1 rfl) (ha'.1 rfl) x y heq

/-- A list of known length. -/
theorem flatMap (h : SelfDelimiting s code) (n : ℕ) :
    SelfDelimiting {l : List α | l.length = n ∧ ∀ a ∈ l, a ∈ s} fun l => l.flatMap code := by
  induction n with
  | zero =>
      rintro l ⟨hl, -⟩ l' ⟨hl', -⟩ x y heq
      obtain rfl := List.length_eq_zero_iff.1 hl
      obtain rfl := List.length_eq_zero_iff.1 hl'
      exact ⟨rfl, heq⟩
  | succ n ih =>
      rintro l ⟨hl, hs⟩ l' ⟨hl', hs'⟩ x y heq
      obtain ⟨a, l, rfl⟩ := List.exists_cons_of_length_eq_add_one hl
      obtain ⟨a', l', rfl⟩ := List.exists_cons_of_length_eq_add_one hl'
      simp only [List.flatMap_cons, List.append_assoc] at heq
      obtain ⟨rfl, hrest⟩ := h (hs a List.mem_cons_self) (hs' a' List.mem_cons_self) _ _ heq
      obtain ⟨rfl, hxy⟩ := ih ⟨by simpa using hl, fun b hb => hs b (List.mem_cons_of_mem _ hb)⟩
        ⟨by simpa using hl', fun b hb => hs' b (List.mem_cons_of_mem _ hb)⟩ x y hrest
      exact ⟨rfl, hxy⟩

/-- A list after its length. -/
theorem counted {count : ℕ → List γ} {r : Set ℕ} (hcount : SelfDelimiting r count)
    (h : SelfDelimiting s code) :
    SelfDelimiting {l : List α | l.length ∈ r ∧ ∀ a ∈ l, a ∈ s}
      fun l => count l.length ++ l.flatMap code := by
  rintro l ⟨hl, hs⟩ l' ⟨hl', hs'⟩ x y heq
  simp only [List.append_assoc] at heq
  obtain ⟨hlen, hrest⟩ := hcount hl hl' _ _ heq
  exact h.flatMap l.length ⟨rfl, hs⟩ ⟨hlen.symm, hs'⟩ x y hrest

/-- A string after its length. -/
theorem sized {count : ℕ → List γ} {r : Set ℕ} (hcount : SelfDelimiting r count) :
    SelfDelimiting {l : List γ | l.length ∈ r} fun l => count l.length ++ l := by
  intro l hl l' hl' x y heq
  simp only [List.append_assoc] at heq
  obtain ⟨hlen, hrest⟩ := hcount hl hl' _ _ heq
  exact List.append_inj hrest hlen

end SelfDelimiting

/-- A code that can be decoded marks its own end. -/
theorem selfDelimiting_of_decode {s : Set α} {code : α → List γ}
    (decode : List γ → Option (α × List γ))
    (h : ∀ a ∈ s, ∀ x, decode (code a ++ x) = some (a, x)) : SelfDelimiting s code := by
  intro a ha b hb x y heq
  have hdecode := h b hb y
  rw [← heq, h a ha x] at hdecode
  simpa using hdecode

/-- An injective code whose words all have one length marks its own end. -/
theorem selfDelimiting_of_length {s : Set α} {code : α → List γ} (n : ℕ)
    (hlen : ∀ a ∈ s, (code a).length = n) (hinj : Set.InjOn code s) : SelfDelimiting s code := by
  intro a ha b hb x y heq
  obtain ⟨hcode, hxy⟩ := List.append_inj heq ((hlen a ha).trans (hlen b hb).symm)
  exact ⟨hinj ha hb hcode, hxy⟩

/-- Strings of one length, written as they are. -/
theorem selfDelimiting_id (n : ℕ) : SelfDelimiting {l : List γ | l.length = n} id :=
  selfDelimiting_of_length n (fun _ h => h) (Set.injOn_id _)

/-- Digits of which exactly the last one lies outside a set mark their own end. -/
theorem append_cons_inj {p : γ → Prop} {l l' x y : List γ} {c c' : γ} (hl : ∀ a ∈ l, p a)
    (hl' : ∀ a ∈ l', p a) (hc : ¬p c) (hc' : ¬p c') (h : l ++ c :: x = l' ++ c' :: y) :
    l = l' ∧ c = c' ∧ x = y := by
  induction l generalizing l' with
  | nil =>
      cases l' with
      | nil => simpa using h
      | cons a' l' =>
          obtain ⟨rfl, -⟩ := List.cons.inj h
          exact absurd (hl' c List.mem_cons_self) hc
  | cons a l ih =>
      cases l' with
      | nil =>
          obtain ⟨rfl, -⟩ := List.cons.inj h
          exact absurd (hl a List.mem_cons_self) hc'
      | cons a' l' =>
          obtain ⟨rfl, hrest⟩ := List.cons.inj h
          obtain ⟨rfl, hcx⟩ := ih (fun b hb => hl b (List.mem_cons_of_mem _ hb))
            (fun b hb => hl' b (List.mem_cons_of_mem _ hb)) hrest
          exact ⟨rfl, hcx⟩

end Jade
