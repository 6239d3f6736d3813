/-
**Cutting a stream into items.**

A reader looks at the front of a list and tells how long the first item is, when all of it is there.
What a reader says does not depend on what follows the item, so that a stream may arrive in pieces:
cutting what has arrived so far into items, keeping the rest, and going on with the rest and the next
piece gives the items of the whole stream.

Main definitions:

* `Stream.Reader` — a reader, with the proof that an item is not empty and not longer than the list;
* `Stream.split` — the items at the front of a list, and the rest;
* `Stream.IsItem` — a list that is one item;
* `Stream.scan`, `Stream.scanReader` — a reader that follows a step function and stops at the first
  state that is accepted.

Main results:

* `Stream.flatten_split`, `Stream.next_split` — the items and the rest make up the list, and the rest
  does not begin with an item;
* `Stream.split_append` — **a stream may be cut piece by piece**;
* `Stream.split_of_prefix` — the beginning of a sequence of items is cut into the first of them, and
  what is left of the next;
* `Stream.scanReader_stable` — a reader that stops where its step function says so does not look
  further.
-/

import Mathlib.Data.List.Infix
import Mathlib.Data.Nat.Notation

set_option relaxedAutoImplicit false
set_option autoImplicit false

namespace Stream

variable {β α : Type}

/-- A reader: the length and the value of the item at the front of a list, when it is complete. -/
structure Reader (β α : Type) where
  next : List β → Option (ℕ × α)
  next_pos : ∀ {bs n v}, next bs = some (n, v) → 0 < n
  next_le : ∀ {bs n v}, next bs = some (n, v) → n ≤ bs.length

/-- What follows an item does not matter. -/
def Reader.Stable (R : Reader β α) : Prop :=
  ∀ bs n v rest, R.next bs = some (n, v) → R.next (bs ++ rest) = some (n, v)

theorem Reader.drop_lt (R : Reader β α) {bs : List β} {n : ℕ} {v : α}
    (h : R.next bs = some (n, v)) : (bs.drop n).length < bs.length := by
  have hpos := R.next_pos h
  have hle := R.next_le h
  rw [List.length_drop]
  omega

@[simp] theorem Reader.next_nil (R : Reader β α) : R.next [] = none := by
  cases h : R.next [] with
  | none => rfl
  | some item =>
      have hpos := R.next_pos h
      have hle := R.next_le h
      exact absurd hpos (Nat.not_lt.2 hle)

/-- The items at the front of a list, each with its value, and the rest. -/
def split (R : Reader β α) (bs : List β) : List (List β × α) × List β :=
  match _h : R.next bs with
  | none => ([], bs)
  | some (n, v) =>
      let r := split R (bs.drop n)
      ((bs.take n, v) :: r.1, r.2)
termination_by bs.length
decreasing_by exact R.drop_lt _h

theorem split_of_none {R : Reader β α} {bs : List β} (h : R.next bs = none) :
    split R bs = ([], bs) := by
  rw [split]
  split
  · rfl
  · next heq => exact absurd (h.symm.trans heq) (by simp)

theorem split_of_some {R : Reader β α} {bs : List β} {n : ℕ} {v : α}
    (h : R.next bs = some (n, v)) :
    split R bs = ((bs.take n, v) :: (split R (bs.drop n)).1, (split R (bs.drop n)).2) := by
  rw [split]
  split
  · next heq => exact absurd (h.symm.trans heq) (by simp)
  · next n' v' heq =>
      obtain ⟨rfl, rfl⟩ := Prod.mk.inj (Option.some.inj (h.symm.trans heq))
      rfl

@[simp] theorem split_nil (R : Reader β α) : split R [] = ([], []) := split_of_none R.next_nil

/-- The induction that follows the items of a list. -/
theorem split_induction (R : Reader β α) {motive : List β → Prop}
    (rest : ∀ bs, R.next bs = none → motive bs)
    (item : ∀ bs n v, R.next bs = some (n, v) → motive (bs.drop n) → motive bs) (bs : List β) :
    motive bs := by
  induction h : bs.length using Nat.strong_induction_on generalizing bs with
  | _ len ih =>
      cases hnext : R.next bs with
      | none => exact rest bs hnext
      | some iv =>
          have hlt := R.drop_lt (n := iv.1) (v := iv.2) hnext
          exact item bs iv.1 iv.2 hnext (ih _ (by omega) _ rfl)

/-- The items and the rest make up the list. -/
theorem flatten_split (R : Reader β α) (bs : List β) :
    ((split R bs).1.map Prod.fst).flatten ++ (split R bs).2 = bs := by
  induction bs using split_induction R with
  | rest bs h => simp [split_of_none h]
  | item bs n v h ih =>
      rw [split_of_some h, List.map_cons, List.flatten_cons, List.append_assoc, ih]
      exact List.take_append_drop n bs

/-- The rest does not begin with an item. -/
theorem next_split (R : Reader β α) (bs : List β) : R.next (split R bs).2 = none := by
  induction bs using split_induction R with
  | rest bs h => rw [split_of_none h]; exact h
  | item bs n v h ih => rw [split_of_some h]; exact ih

/-- Every item is taken from the front of what is left, and read there. -/
theorem length_split_le (R : Reader β α) (bs : List β) : (split R bs).1.length ≤ bs.length := by
  induction bs using split_induction R with
  | rest bs h => simp [split_of_none h]
  | item bs n v h ih =>
      have hlt := R.drop_lt h
      rw [split_of_some h, List.length_cons]
      omega

/-- **A stream may be cut piece by piece.** -/
theorem split_append {R : Reader β α} (hR : R.Stable) (a b : List β) :
    split R (a ++ b) =
      ((split R a).1 ++ (split R ((split R a).2 ++ b)).1, (split R ((split R a).2 ++ b)).2) := by
  induction a using split_induction R with
  | rest a h => simp [split_of_none h]
  | item a n v h ih =>
      have hle := R.next_le h
      rw [split_of_some (hR a n v b h), split_of_some h, List.take_append_of_le_length hle,
        List.drop_append_of_le_length hle, ih]
      rfl

/-! ### Sequences of items -/

/-- The list is one item. -/
def IsItem (R : Reader β α) (m : List β) : Prop := ∃ v, R.next m = some (m.length, v)

/-- The value of an item. -/
def value (R : Reader β α) (m : List β) : Option α := (R.next m).map Prod.snd

theorem IsItem.next_append {R : Reader β α} (hR : R.Stable) {m : List β} (h : IsItem R m)
    (rest : List β) : ∃ v, value R m = some v ∧ R.next (m ++ rest) = some (m.length, v) := by
  obtain ⟨v, hv⟩ := h
  exact ⟨v, by rw [value, hv]; rfl, hR m _ _ rest hv⟩

theorem IsItem.ne_nil {R : Reader β α} {m : List β} (h : IsItem R m) : m ≠ [] := by
  rintro rfl
  obtain ⟨v, hv⟩ := h
  rw [R.next_nil] at hv
  exact absurd hv (by simp)

/-- A sequence of items is cut into these items. -/
theorem split_flatten {R : Reader β α} (hR : R.Stable) {ms : List (List β)}
    (hms : ∀ m ∈ ms, IsItem R m) :
    (split R ms.flatten).1.map (fun item => (item.1, some item.2)) =
        ms.map (fun m => (m, value R m)) ∧
      (split R ms.flatten).2 = [] := by
  induction ms with
  | nil => simp
  | cons m ms ih =>
      obtain ⟨v, hvalue, hnext⟩ := (hms m List.mem_cons_self).next_append hR ms.flatten
      obtain ⟨hitems, hrest⟩ := ih fun m' hm' => hms m' (List.mem_cons_of_mem m hm')
      rw [List.flatten_cons, split_of_some hnext, List.drop_left' rfl, List.take_left' rfl]
      exact ⟨by rw [List.map_cons, List.map_cons, hitems, hvalue], hrest⟩

/-- **The beginning of a sequence of items is cut into the first of them**, and the rest is the
beginning of what is left. -/
theorem split_of_prefix {R : Reader β α} (hR : R.Stable) {ms : List (List β)}
    (hms : ∀ m ∈ ms, IsItem R m) {a b : List β} (h : a ++ b = ms.flatten) :
    ∃ k ≤ ms.length,
      (split R a).1.map (fun item => (item.1, some item.2)) =
          (ms.take k).map (fun m => (m, value R m)) ∧
        (split R a).2 ++ b = (ms.drop k).flatten := by
  obtain ⟨hitems, hrest⟩ := split_flatten hR hms
  have happend := split_append hR a b
  rw [h] at happend
  -- the items of `a` are the first ones of the whole sequence
  rw [happend, List.map_append] at hitems
  refine ⟨(split R a).1.length, ?_, ?_, ?_⟩
  · have hlen := congrArg List.length hitems
    simp only [List.length_append, List.length_map] at hlen
    omega
  · rw [List.map_take, ← hitems, List.take_left' (List.length_map _)]
  · have hfst : (split R a).1.map Prod.fst = ms.take (split R a).1.length := by
      have := congrArg (List.map Prod.fst ∘ List.take (split R a).1.length) hitems
      simpa [List.map_take, Function.comp_def] using this
    have hflat := flatten_split R a
    rw [hfst] at hflat
    have hwhole : (ms.take (split R a).1.length).flatten ++ ((split R a).2 ++ b) =
        (ms.take (split R a).1.length).flatten ++ (ms.drop (split R a).1.length).flatten := by
      rw [← List.flatten_append, List.take_append_drop, ← h, ← List.append_assoc, hflat]
    exact List.append_cancel_left hwhole

/-- What is left of an unfinished item is shorter than the item. -/
theorem length_rest_lt {R : Reader β α} (hR : R.Stable) {m rest : List β} (hm : IsItem R m)
    {a b : List β} (hnone : R.next a = none) (h : a ++ b = m ++ rest) : a.length < m.length := by
  by_contra hle
  obtain ⟨t, rfl⟩ : m <+: a := by
    refine List.prefix_of_prefix_length_le ⟨rest, rfl⟩ ⟨b, h⟩ (Nat.le_of_not_lt hle)
  obtain ⟨v, -, hnext⟩ := hm.next_append hR t
  exact absurd (hnone.symm.trans hnext) (by simp)

/-! ### Reading with a step function -/

section Scan

variable {σ : Type}

/-- The number of symbols up to the first state that is accepted. -/
def scan (step : σ → β → Option σ) (done : σ → Bool) : σ → List β → Option ℕ
  | _, [] => none
  | s, b :: bs =>
      match step s b with
      | none => none
      | some s' => if done s' then some 1 else (scan step done s' bs).map (· + 1)

variable {step : σ → β → Option σ} {done : σ → Bool}

theorem scan_bounds {s : σ} {bs : List β} {n : ℕ} (h : scan step done s bs = some n) :
    0 < n ∧ n ≤ bs.length := by
  induction bs generalizing s n with
  | nil => cases h
  | cons b bs ih =>
      rw [scan] at h
      cases hstep : step s b with
      | none => simp [hstep] at h
      | some s' =>
          simp only [hstep] at h
          split at h
          · cases h
            simp
          · obtain ⟨k, hk, rfl⟩ := Option.map_eq_some_iff.1 h
            have := ih hk
            simp only [List.length_cons]
            omega

theorem scan_append {s : σ} {bs : List β} {n : ℕ} (rest : List β)
    (h : scan step done s bs = some n) : scan step done s (bs ++ rest) = some n := by
  induction bs generalizing s n with
  | nil => cases h
  | cons b bs ih =>
      rw [scan] at h
      rw [List.cons_append, scan]
      cases hstep : step s b with
      | none => simp [hstep] at h
      | some s' =>
          simp only [hstep] at h ⊢
          split at h
          · next hdone => rw [if_pos hdone]; exact h
          · next hdone =>
              obtain ⟨k, hk, rfl⟩ := Option.map_eq_some_iff.1 h
              rw [if_neg hdone, ih hk]
              rfl

/-- The item is what was read up to the first accepted state; its value is computed from it. -/
def scanReader (step : σ → β → Option σ) (done : σ → Bool) (start : σ) (value : List β → α) :
    Reader β α where
  next bs := (scan step done start bs).map fun n => (n, value (bs.take n))
  next_pos := by
    intro bs n v h
    obtain ⟨k, hk, heq⟩ := Option.map_eq_some_iff.1 h
    cases heq
    exact (scan_bounds hk).1
  next_le := by
    intro bs n v h
    obtain ⟨k, hk, heq⟩ := Option.map_eq_some_iff.1 h
    cases heq
    exact (scan_bounds hk).2

theorem scanReader_stable (start : σ) (value : List β → α) :
    (scanReader step done start value).Stable := by
  intro bs n v rest h
  obtain ⟨k, hk, heq⟩ := Option.map_eq_some_iff.1 h
  cases heq
  simp only [scanReader, scan_append rest hk, Option.map_some,
    List.take_append_of_le_length (scan_bounds hk).2]

end Scan

end Stream
