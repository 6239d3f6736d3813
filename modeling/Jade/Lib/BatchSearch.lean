/-
**Searching in batches.**

A batch tries a number of places in turn.  At each of them something is built, which may fail, and is
compared with what is looked for.  The batch ends where it is found, where nothing can be built, or
behind its last place.

Main definitions:

* `BatchSearch.scan` — one batch, with the places it has tried;
* `BatchSearch.Builds` — something can be built at every place, up to the one looked for.

Main results:

* `BatchSearch.scan_found` — what has been found is where the batch says;
* `BatchSearch.scan_tried` — the places are tried in order;
* `BatchSearch.scan_advances_iff` — **exactly when a batch that finds nothing gets to its end**.
-/

import Jade.Lib.Exec
import Mathlib.Data.List.Range

set_option relaxedAutoImplicit false
set_option autoImplicit false

namespace BatchSearch

open Exec

variable {ε α : Type} [DecidableEq α]

/-- What a batch comes to: whether it has found what it looked for, where it has stopped, and the
places it has tried. -/
structure Result where
  found : Bool
  index : ℕ
  tried : List ℕ
  deriving DecidableEq, Repr

/-- A batch of so many places from an index on. -/
def scan (build : ℕ → Except ε (Option α)) (target : α) : ℕ → ℕ → Except ε Result
  | 0, index => .ok ⟨false, index, []⟩
  | depth + 1, index => do
      match ← build index with
      | none => return ⟨false, index, [index]⟩
      | some built =>
          if built = target then return ⟨true, index, [index]⟩
          else do
            let rest ← scan build target depth (index + 1)
            return { rest with tried := index :: rest.tried }

/-- Something is built at each of the places, up to the one looked for. -/
def Builds (build : ℕ → Except ε (Option α)) (target : α) (depth index : ℕ) : Prop :=
  ∀ k < depth, (∀ j < k, build (index + j) ≠ .ok (some target)) → build (index + k) ≠ .ok none

variable {build : ℕ → Except ε (Option α)} {target : α} {depth index : ℕ} {r : Result}

/-- One turn of a batch. -/
theorem scan_succ_eq_ok (h : scan build target (depth + 1) index = .ok r) :
    (build index = .ok none ∧ r = ⟨false, index, [index]⟩) ∨
      (build index = .ok (some target) ∧ r = ⟨true, index, [index]⟩) ∨
        ∃ built rest, build index = .ok (some built) ∧ built ≠ target ∧
          scan build target depth (index + 1) = .ok rest ∧
            r = { rest with tried := index :: rest.tried } := by
  rw [scan] at h
  obtain ⟨answer, hanswer, h⟩ := bind_eq_ok.1 h
  cases answer with
  | none => exact .inl ⟨hanswer, (Except.ok.inj h).symm⟩
  | some built =>
      simp only at h
      by_cases hmatch : built = target
      · rw [if_pos hmatch] at h
        rw [hmatch] at hanswer
        exact .inr (.inl ⟨hanswer, (Except.ok.inj h).symm⟩)
      · rw [if_neg hmatch] at h
        obtain ⟨rest, hrest, h⟩ := bind_eq_ok.1 h
        exact .inr (.inr ⟨built, rest, hanswer, hmatch, hrest, (Except.ok.inj h).symm⟩)

/-- A batch comes to an end when every place does. -/
theorem exists_scan_eq_ok (target : α) (h : ∀ i, ∃ answer, build i = .ok answer)
    (depth index : ℕ) : ∃ r, scan build target depth index = .ok r := by
  induction depth generalizing index with
  | zero => exact ⟨_, rfl⟩
  | succ depth ih =>
      obtain ⟨answer, hanswer⟩ := h index
      obtain ⟨rest, hrest⟩ := ih (index + 1)
      rw [scan, hanswer, ok_bind]
      cases answer with
      | none => exact ⟨_, rfl⟩
      | some built =>
          by_cases hmatch : built = target
          · exact ⟨_, if_pos hmatch⟩
          · refine ⟨{ rest with tried := index :: rest.tried }, (if_neg hmatch).trans ?_⟩
            rw [hrest, ok_bind]
            rfl

/-- What has been found is where the batch says. -/
theorem scan_found (h : scan build target depth index = .ok r) (hfound : r.found = true) :
    build r.index = .ok (some target) ∧ index ≤ r.index ∧ r.index < index + depth := by
  induction depth generalizing index r with
  | zero =>
      obtain rfl := Except.ok.inj h
      cases hfound
  | succ depth ih =>
      obtain ⟨-, rfl⟩ | ⟨hbuild, rfl⟩ | ⟨built, rest, -, -, hrest, rfl⟩ := scan_succ_eq_ok h
      · cases hfound
      · exact ⟨hbuild, Nat.le_refl _, Nat.lt_add_of_pos_right (Nat.succ_pos _)⟩
      · obtain ⟨hbuild, hle, hlt⟩ := ih hrest hfound
        refine ⟨hbuild, ?_, ?_⟩
        · change index ≤ rest.index
          omega
        · change rest.index < index + (depth + 1)
          omega

/-- The places are tried in order, and each of them once. -/
theorem scan_tried (h : scan build target depth index = .ok r) :
    index ≤ r.index ∧ r.index ≤ index + depth ∧
      (r.tried = List.range' index (r.index - index) ∨
        r.index < index + depth ∧ r.tried = List.range' index (r.index - index + 1)) := by
  induction depth generalizing index r with
  | zero =>
      obtain rfl := Except.ok.inj h
      refine ⟨Nat.le_refl _, Nat.le_refl _, .inl ?_⟩
      simp
  | succ depth ih =>
      have hstop : ∀ found, (⟨found, index, [index]⟩ : Result).tried =
          List.range' index (index - index + 1) := by simp
      obtain ⟨-, rfl⟩ | ⟨-, rfl⟩ | ⟨built, rest, -, -, hrest, rfl⟩ := scan_succ_eq_ok h
      · exact ⟨Nat.le_refl _, Nat.le_add_right _ _, .inr ⟨by simp, hstop _⟩⟩
      · exact ⟨Nat.le_refl _, Nat.le_add_right _ _, .inr ⟨by simp, hstop _⟩⟩
      · obtain ⟨hle, hend, htried⟩ := ih hrest
        have hcons : ∀ n, index :: List.range' (index + 1) n = List.range' index (n + 1) := by
          intro n
          rw [List.range'_succ]
        refine ⟨by change index ≤ rest.index; omega, by change rest.index ≤ _; omega, ?_⟩
        rcases htried with htried | ⟨hlt, htried⟩
        · refine .inl ?_
          change index :: rest.tried = List.range' index (rest.index - index)
          rw [htried, hcons]
          congr 1
          omega
        · refine .inr ⟨by change rest.index < _; omega, ?_⟩
          change index :: rest.tried = List.range' index (rest.index - index + 1)
          rw [htried, hcons]
          congr 1
          omega

/-- What a batch has found is the last place it has tried. -/
theorem scan_tried_found (h : scan build target depth index = .ok r) (hfound : r.found = true) :
    r.tried = List.range' index (r.index - index + 1) := by
  induction depth generalizing index r with
  | zero =>
      obtain rfl := Except.ok.inj h
      cases hfound
  | succ depth ih =>
      obtain ⟨-, rfl⟩ | ⟨-, rfl⟩ | ⟨built, rest, -, -, hrest, rfl⟩ := scan_succ_eq_ok h
      · cases hfound
      · simp
      · have hle := (scan_found hrest hfound).2.1
        change index :: rest.tried = List.range' index (rest.index - index + 1)
        have hlen : rest.index - index + 1 = rest.index - (index + 1) + 1 + 1 := by omega
        rw [ih hrest hfound, hlen]
        exact (List.range'_succ).symm

omit [DecidableEq α] in
/-- A place that is built and is not the one looked for. -/
theorem builds_succ_iff {built : α} (hbuild : build index = .ok (some built))
    (hne : built ≠ target) :
    Builds build target (depth + 1) index ↔ Builds build target depth (index + 1) := by
  have hzero : build (index + 0) ≠ .ok (some target) := by
    intro h
    rw [Nat.add_zero, hbuild] at h
    exact hne (Option.some.inj (Except.ok.inj h))
  constructor
  · intro h k hk hbefore
    have hnone := h (k + 1) (by omega) (fun j hj => by
      cases j with
      | zero => exact hzero
      | succ j =>
          have hj' := hbefore j (by omega)
          rwa [show index + 1 + j = index + (j + 1) by omega] at hj')
    rwa [show index + (k + 1) = index + 1 + k by omega] at hnone
  · intro h k hk hbefore
    cases k with
    | zero =>
        rw [Nat.add_zero, hbuild]
        intro hnone
        cases hnone
    | succ k =>
        have hnone := h k (by omega) (fun j hj => by
          have hj' := hbefore (j + 1) (by omega)
          rwa [show index + (j + 1) = index + 1 + j by omega] at hj')
        rwa [show index + 1 + k = index + (k + 1) by omega] at hnone

/-- **Exactly when a batch that finds nothing gets to its end.** -/
theorem scan_advances_iff (h : scan build target depth index = .ok r) :
    Builds build target depth index ↔ (r.found = false → r.index = index + depth) := by
  induction depth generalizing index r with
  | zero =>
      obtain rfl := Except.ok.inj h
      exact ⟨fun _ _ => rfl, fun _ k hk => absurd hk (Nat.not_lt_zero k)⟩
  | succ depth ih =>
      obtain ⟨hbuild, rfl⟩ | ⟨hbuild, rfl⟩ | ⟨built, rest, hbuild, hne, hrest, rfl⟩ :=
        scan_succ_eq_ok h
      · constructor
        · intro hbuilds
          exact absurd hbuild (hbuilds 0 (Nat.succ_pos _) (fun j hj => absurd hj (Nat.not_lt_zero j)))
        · intro hend
          have hindex : index = index + (depth + 1) := hend rfl
          omega
      · constructor
        · intro _ hfound
          cases hfound
        · intro _ k _ hbefore
          cases k with
          | zero =>
              rw [Nat.add_zero, hbuild]
              intro hnone
              cases hnone
          | succ k => exact absurd hbuild (hbefore 0 (Nat.succ_pos _))
      · rw [builds_succ_iff hbuild hne, ih hrest]
        have hshift : index + 1 + depth = index + (depth + 1) := by omega
        rw [hshift]

end BatchSearch
