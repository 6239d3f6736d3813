/-
**Work lists into an array.**

A program that handles some of the entries of an array often makes a list of the ones it wants,
with what it computed for each, and comes back later to write to them by position.  `Slots q R k
xs ws` says that the work list `ws` does that for `xs`, whose first entry has the position `k`: it
names exactly the entries that satisfy `q`, in order and by their positions, each with a value that
`R` relates to the entry.

A list of saved copies is put back from the front, as far as it reaches; `overlay` does that.

Main definitions:

* `writeAll` — write every value of a work list to its position;
* `Slots` — a work list into an array;
* `overlay` — put saved values back, entry by entry;
* `Filled` — the saved values, as far as they have been taken.

Main results:

* `Slots.append_take`, `Slots.append_skip` — extending the array by one entry;
* `Slots.modify` — a write that `q` and `R` do not see;
* `Slots.write` — writing every value to its position;
* `Slots.map_filter` — reading off the entries what the work list knows;
* `writeAll_modify_of_mem`, `overlay_modify` — a write that is written over leaves no trace;
* `writeAll_self`, `overlay_self`, `Filled.overlay_eq` — writing what is there changes nothing.
-/

import Mathlib.Data.List.Basic
import Mathlib.Data.Nat.Notation

set_option relaxedAutoImplicit false
set_option autoImplicit false

/-! ### Writing by position -/

/-- Write every value of a work list to its position. -/
def writeAll {α β : Type} (idx : β → ℕ) (f : β → α → α) (ws : List β) (xs : List α) : List α :=
  ws.foldl (fun ys w => ys.modify (idx w) (f w)) xs

section WriteAll

variable {α β : Type} {idx : β → ℕ} {f : β → α → α}

@[simp] theorem writeAll_nil (xs : List α) : writeAll idx f [] xs = xs := rfl

@[simp] theorem writeAll_cons (w : β) (ws : List β) (xs : List α) :
    writeAll idx f (w :: ws) xs = writeAll idx f ws (xs.modify (idx w) (f w)) := rfl

@[simp] theorem length_writeAll (ws : List β) (xs : List α) :
    (writeAll idx f ws xs).length = xs.length := by
  induction ws generalizing xs with
  | nil => rfl
  | cons w ws ih => rw [writeAll_cons, ih, List.length_modify]

theorem writeAll_concat (ws : List β) (w : β) (xs : List α) :
    writeAll idx f (ws ++ [w]) xs = (writeAll idx f ws xs).modify (idx w) (f w) := by
  rw [writeAll, List.foldl_append]
  rfl

/-- A write the values commute with can be made before or after. -/
theorem writeAll_modify_comm {g : α → α} (hg : ∀ w x, f w (g x) = g (f w x)) (ws : List β)
    (xs : List α) (i : ℕ) :
    writeAll idx f ws (xs.modify i g) = (writeAll idx f ws xs).modify i g := by
  induction ws generalizing xs with
  | nil => rfl
  | cons w ws ih =>
      have hcomm : (xs.modify i g).modify (idx w) (f w) = (xs.modify (idx w) (f w)).modify i g := by
        by_cases hi : i = idx w
        · subst hi
          rw [List.modify_modify_eq, List.modify_modify_eq]
          congr 1
          funext x
          exact hg w x
        · exact List.modify_modify_ne _ _ _ hi
      rw [writeAll_cons, hcomm, ih, writeAll_cons]

/-- A write to a position that is written again leaves no trace. -/
theorem writeAll_modify_of_mem {g : α → α} (hg : ∀ w x, f w (g x) = f w x) {ws : List β} {w : β}
    (hw : w ∈ ws) (xs : List α) :
    writeAll idx f ws (xs.modify (idx w) g) = writeAll idx f ws xs := by
  induction ws generalizing xs with
  | nil => simp at hw
  | cons v ws ih =>
      rw [writeAll_cons, writeAll_cons]
      by_cases hi : idx w = idx v
      · rw [hi, List.modify_modify_eq]
        congr 2
        funext x
        exact hg v x
      · have hmem : w ∈ ws := by
          rcases List.mem_cons.1 hw with rfl | hmem
          · exact absurd rfl hi
          · exact hmem
        rw [List.modify_modify_ne _ _ _ hi, ih hmem]

/-- Writing what is there changes nothing. -/
theorem modify_self {g : α → α} {xs : List α} {i : ℕ} (h : ∀ x, xs[i]? = some x → g x = x) :
    xs.modify i g = xs := by
  apply List.ext_getElem?
  intro j
  rw [List.getElem?_modify]
  by_cases hij : i = j
  · subst hij
    cases hx : xs[i]? with
    | none => rfl
    | some x => simp [h x hx]
  · simp [hij]

theorem writeAll_self {ws : List β} {xs : List α}
    (h : ∀ w ∈ ws, ∀ x, xs[idx w]? = some x → f w x = x) : writeAll idx f ws xs = xs := by
  induction ws with
  | nil => rfl
  | cons w ws ih =>
      rw [writeAll_cons, modify_self (h w List.mem_cons_self)]
      exact ih fun w' hw' => h w' (List.mem_cons_of_mem _ hw')

/-- An entry that no value is for stays as it is. -/
theorem getElem?_writeAll_of_ne {ws : List β} {xs : List α} {i : ℕ} (h : ∀ w ∈ ws, idx w ≠ i) :
    (writeAll idx f ws xs)[i]? = xs[i]? := by
  induction ws generalizing xs with
  | nil => rfl
  | cons w ws ih =>
      rw [writeAll_cons, ih fun w' hw' => h w' (List.mem_cons_of_mem _ hw'), List.getElem?_modify]
      simp [h w List.mem_cons_self]

/-- The entry that a value is for is written once, when no two values are for one entry. -/
theorem getElem?_writeAll_of_find {ws : List β} {xs : List α} {i : ℕ} {w : β} {x : α}
    (hnodup : (ws.map idx).Nodup) (hw : ws.find? (fun w => idx w == i) = some w)
    (hx : xs[i]? = some x) : (writeAll idx f ws xs)[i]? = some (f w x) := by
  induction ws generalizing xs x with
  | nil => simp at hw
  | cons w' ws ih =>
      rw [List.map_cons, List.nodup_cons] at hnodup
      rw [writeAll_cons]
      by_cases hi : idx w' = i
      · obtain rfl : w' = w := by simpa [hi] using hw
        have hne : ∀ v ∈ ws, idx v ≠ i := fun v hv heq =>
          hnodup.1 (List.mem_map.2 ⟨v, hv, heq.trans hi.symm⟩)
        rw [getElem?_writeAll_of_ne hne, List.getElem?_modify, hx, hi]
        simp
      · refine ih hnodup.2 (by simpa [hi] using hw) ?_
        rw [List.getElem?_modify, hx]
        simp [hi]

end WriteAll

/-! ### Work lists -/

/-- `ws` names, in order, the entries of `xs` that satisfy `q`; `idx` is the position a value is
for, and the first entry of `xs` has the position `k`. -/
inductive Slots {α β : Type} (idx : β → ℕ) (q : α → Bool) (R : α → β → Prop) :
    ℕ → List α → List β → Prop
  | nil {k : ℕ} : Slots idx q R k [] []
  | skip {k : ℕ} {x : α} {xs : List α} {ws : List β} : q x = false →
      Slots idx q R (k + 1) xs ws → Slots idx q R k (x :: xs) ws
  | take {k : ℕ} {x : α} {xs : List α} {w : β} {ws : List β} : q x = true → idx w = k → R x w →
      Slots idx q R (k + 1) xs ws → Slots idx q R k (x :: xs) (w :: ws)

namespace Slots

variable {α β γ : Type} {idx : β → ℕ} {q : α → Bool} {R : α → β → Prop} {k : ℕ} {xs : List α}
  {ws : List β}

theorem append_skip (h : Slots idx q R k xs ws) {x : α} (hx : q x = false) :
    Slots idx q R k (xs ++ [x]) ws := by
  induction h with
  | nil => exact skip hx nil
  | skip hq _ ih => exact skip hq ih
  | take hq hi hR _ ih => exact take hq hi hR ih

theorem append_take (h : Slots idx q R k xs ws) {x : α} {w : β} (hx : q x = true)
    (hw : idx w = k + xs.length) (hR : R x w) : Slots idx q R k (xs ++ [x]) (ws ++ [w]) := by
  induction h with
  | nil => exact take hx hw hR nil
  | skip hq _ ih =>
      refine skip hq (ih ?_)
      rw [hw, List.length_cons]
      omega
  | take hq hi hR' _ ih =>
      refine take hq hi hR' (ih ?_)
      rw [hw, List.length_cons]
      omega

theorem idx_lt (h : Slots idx q R k xs ws) {w : β} (hw : w ∈ ws) :
    k ≤ idx w ∧ idx w < k + xs.length := by
  induction h with
  | nil => simp at hw
  | skip _ _ ih =>
      have := ih hw
      rw [List.length_cons]
      omega
  | take _ hi _ _ ih =>
      rcases List.mem_cons.1 hw with rfl | hw
      · rw [List.length_cons]
        omega
      · have := ih hw
        rw [List.length_cons]
        omega

/-- No two values are for one entry. -/
theorem nodup_idx (h : Slots idx q R k xs ws) : (ws.map idx).Nodup := by
  induction h with
  | nil => exact List.nodup_nil
  | skip _ _ ih => exact ih
  | take _ hi _ hrest ih =>
      rw [List.map_cons, List.nodup_cons]
      refine ⟨?_, ih⟩
      intro hmem
      obtain ⟨w, hw, heq⟩ := List.mem_map.1 hmem
      have := hrest.idx_lt hw
      omega

/-- Every entry that is selected has a value. -/
theorem exists_of_getElem? (h : Slots idx q R k xs ws) {j : ℕ} {x : α} (hj : xs[j]? = some x)
    (hx : q x = true) : ∃ w, ws.find? (fun w => idx w == k + j) = some w ∧ R x w := by
  induction h generalizing j with
  | nil => simp at hj
  | @skip k y xs ws hy _ ih =>
      cases j with
      | zero =>
          obtain rfl : y = x := by simpa using hj
          simp [hx] at hy
      | succ j =>
          obtain ⟨w, hw, hR⟩ := ih (by simpa using hj)
          refine ⟨w, ?_, hR⟩
          rw [← hw]
          congr 2
          funext v
          rw [show k + (j + 1) = k + 1 + j by omega]
  | @take k y xs v ws hy hi hRy hrest ih =>
      cases j with
      | zero =>
          obtain rfl : y = x := by simpa using hj
          exact ⟨v, by simp [hi], hRy⟩
      | succ j =>
          obtain ⟨w, hw, hR⟩ := ih (by simpa using hj)
          refine ⟨w, ?_, hR⟩
          have hne : (idx v == k + (j + 1)) = false := by
            rw [beq_eq_false_iff_ne]
            omega
          rw [List.find?_cons_of_neg (by simp [hne]), ← hw, show k + (j + 1) = k + 1 + j by omega]

/-- Every value is for an entry. -/
theorem exists_of_mem (h : Slots idx q R k xs ws) {w : β} (hw : w ∈ ws) : ∃ x ∈ xs, R x w := by
  induction h with
  | nil => simp at hw
  | skip _ _ ih =>
      obtain ⟨x, hx, hR⟩ := ih hw
      exact ⟨x, List.mem_cons_of_mem _ hx, hR⟩
  | take _ _ hRx _ ih =>
      rcases List.mem_cons.1 hw with rfl | hw
      · exact ⟨_, List.mem_cons_self, hRx⟩
      · obtain ⟨x, hx, hR⟩ := ih hw
        exact ⟨x, List.mem_cons_of_mem _ hx, hR⟩

/-- A write that neither the selection nor the relation sees. -/
theorem modify {f : α → α} (h : Slots idx q R k xs ws) (hq : ∀ x, q (f x) = q x)
    (hR : ∀ x w, R x w → R (f x) w) (i : ℕ) : Slots idx q R k (xs.modify i f) ws := by
  induction h generalizing i with
  | nil => simpa using nil
  | skip hx _ ih =>
      cases i with
      | zero => exact skip (by rw [hq]; exact hx) ‹_›
      | succ i => exact skip hx (ih i)
  | take hx hi hRx _ ih =>
      cases i with
      | zero => exact take (by rw [hq]; exact hx) hi (hR _ _ hRx) ‹_›
      | succ i => exact take hx hi hRx (ih i)

/-- **Writing every value to its position.**  The written entries are related to the values by
`S`, and the selection stays what it was. -/
theorem write {f : β → α → α} {S : α → β → Prop} (h : Slots idx q R k xs ws)
    (hf : ∀ x w, q x = true → R x w → q (f w x) = true ∧ S (f w x) w) (pre : List α)
    (hpre : pre.length = k) :
    ∃ ys, writeAll idx f ws (pre ++ xs) = pre ++ ys ∧ Slots idx q S k ys ws := by
  induction h generalizing pre with
  | nil => exact ⟨[], rfl, nil⟩
  | @skip k x xs ws hx _ ih =>
      obtain ⟨ys, hys, hslots⟩ := ih (pre ++ [x]) (by simp [hpre])
      exact ⟨x :: ys, by simpa using hys, skip hx hslots⟩
  | @take k x xs w ws hx hi hR _ ih =>
      obtain ⟨hq', hR'⟩ := hf x w hx hR
      obtain ⟨ys, hys, hslots⟩ := ih (pre ++ [f w x]) (by simp [hpre])
      refine ⟨f w x :: ys, ?_, take hq' hi hR' hslots⟩
      have hmod : (pre ++ x :: xs).modify (idx w) (f w) = pre ++ [f w x] ++ xs := by
        have hlt : idx w < (pre ++ x :: xs).length := by simp [hi, hpre]
        rw [List.modify_eq_take_cons_drop hlt]
        simp [hi, ← hpre]
      rw [writeAll_cons, hmod, hys, List.append_assoc]
      rfl

/-- The values of a work list may carry more than the relation needs. -/
theorem of_map {g : γ → β} {ws : List γ} (h : Slots idx q R k xs (ws.map g)) :
    Slots (fun w => idx (g w)) q (fun x w => R x (g w)) k xs ws := by
  generalize hvs : ws.map g = vs at h
  induction h generalizing ws with
  | nil =>
      obtain rfl : ws = [] := by simpa using hvs
      exact nil
  | skip hx _ ih => exact skip hx (ih hvs)
  | take hx hi hR _ ih =>
      cases ws with
      | nil => simp at hvs
      | cons w ws =>
          rw [List.map_cons, List.cons.injEq] at hvs
          obtain ⟨rfl, hvs⟩ := hvs
          exact take hx hi hR (ih hvs)

/-- Dropping what the relation does not need. -/
theorem map {g : γ → β} {ws : List γ}
    (h : Slots (fun w => idx (g w)) q (fun x w => R x (g w)) k xs ws) :
    Slots idx q R k xs (ws.map g) := by
  induction h with
  | nil => exact nil
  | skip hx _ ih => exact skip hx ih
  | take hx hi hR _ ih => exact take hx hi hR ih

/-- What the work list knows of its entries is what the entries have. -/
theorem map_filter (h : Slots idx q R k xs ws) {g : α → γ} {g' : β → γ}
    (hg : ∀ x w, R x w → g x = g' w) : (xs.filter q).map g = ws.map g' := by
  induction h with
  | nil => rfl
  | skip hx _ ih => rw [List.filter_cons_of_neg (by simp [hx]), ih]
  | take hx _ hR _ ih => rw [List.filter_cons_of_pos hx, List.map_cons, List.map_cons, ih, hg _ _ hR]

end Slots

/-! ### Putting saved values back -/

/-- Put the saved values back, entry by entry, as far as they reach. -/
def overlay {α σ : Type} (restore : σ → α → α) : List σ → List α → List α
  | s :: ss, x :: xs => restore s x :: overlay restore ss xs
  | _, xs => xs

section Overlay

variable {α σ : Type} {restore : σ → α → α}

@[simp] theorem overlay_nil_left (xs : List α) : overlay restore [] xs = xs := rfl

@[simp] theorem overlay_nil_right (ss : List σ) : overlay restore ss [] = [] := by
  cases ss <;> rfl

@[simp] theorem overlay_cons (s : σ) (ss : List σ) (x : α) (xs : List α) :
    overlay restore (s :: ss) (x :: xs) = restore s x :: overlay restore ss xs := rfl

/-- Putting back what is there changes nothing. -/
theorem overlay_self {ss : List σ} {xs : List α}
    (h : ∀ (i : ℕ) s x, ss[i]? = some s → xs[i]? = some x → restore s x = x) :
    overlay restore ss xs = xs := by
  induction ss generalizing xs with
  | nil => rfl
  | cons s ss ih =>
      cases xs with
      | nil => rfl
      | cons x xs =>
          rw [overlay_cons, h 0 s x rfl rfl]
          exact congrArg (x :: ·) (ih fun i s' x' hs hx => h (i + 1) s' x' hs hx)

/-- A write to an entry whose saved value covers it is undone. -/
theorem overlay_modify {f : α → α} {ss : List σ} {xs : List α} (i : ℕ)
    (h : i < xs.length → ∃ s, ss[i]? = some s ∧ ∀ x, restore s (f x) = restore s x) :
    overlay restore ss (xs.modify i f) = overlay restore ss xs := by
  induction ss generalizing xs i with
  | nil =>
      cases xs with
      | nil => simp
      | cons x xs =>
          by_cases hi : i < (x :: xs).length
          · obtain ⟨s, hs, _⟩ := h hi
            simp at hs
          · rw [List.modify_eq_self (Nat.le_of_not_lt hi)]
  | cons s ss ih =>
      cases xs with
      | nil => simp
      | cons x xs =>
          cases i with
          | zero =>
              obtain ⟨s', hs', hcover⟩ := h (Nat.zero_lt_succ _)
              obtain rfl : s = s' := Option.some.inj hs'
              rw [List.modify_zero_cons, overlay_cons, overlay_cons, hcover]
          | succ i =>
              rw [List.modify_succ_cons, overlay_cons, overlay_cons,
                ih i fun hi => h (Nat.succ_lt_succ hi)]

/-- The first `n` saved values are valid for their entries, and the others are still blank. -/
structure Filled (valid : σ → α → Prop) (blank : σ) (xs : List α) (ss : List σ) (n : ℕ) : Prop where
  filled : ∀ i < n, ∀ x, xs[i]? = some x → ∃ s, ss[i]? = some s ∧ valid s x
  rest : ∀ i, n ≤ i → ∀ s, ss[i]? = some s → s = blank

namespace Filled

variable {valid : σ → α → Prop} {blank : σ} {xs : List α} {ss : List σ} {n : ℕ}

theorem nil : Filled valid blank xs [] 0 where
  filled := fun i hi => absurd hi (Nat.not_lt_zero i)
  rest := by simp

theorem replicate (m : ℕ) : Filled valid blank xs (List.replicate m blank) 0 where
  filled := fun i hi => absurd hi (Nat.not_lt_zero i)
  rest := by
    intro i _ s hs
    rw [List.getElem?_replicate, Option.ite_none_right_eq_some] at hs
    exact (Option.some.inj hs.2).symm

/-- Fill the next slot. -/
theorem set (h : Filled valid blank xs ss n) (hn : n < ss.length) {x : α} {s : σ}
    (hx : xs[n]? = some x) (hs : valid s x) : Filled valid blank xs (ss.set n s) (n + 1) where
  filled := by
    intro i hi y hy
    by_cases hin : i = n
    · subst hin
      obtain rfl : x = y := Option.some.inj (hx.symm.trans hy)
      exact ⟨s, List.getElem?_set_self hn, hs⟩
    · obtain ⟨s', hs', hv⟩ := h.filled i (by omega) y hy
      exact ⟨s', by rw [List.getElem?_set_ne (Ne.symm hin)]; exact hs', hv⟩
  rest := by
    intro i hi s' hs'
    rw [List.getElem?_set_ne (by omega)] at hs'
    exact h.rest i (by omega) s' hs'

/-- As far as the values have been saved, putting them back changes nothing. -/
theorem overlay_eq (h : Filled valid blank xs ss n) (hvalid : ∀ s x, valid s x → restore s x = x)
    (hblank : ∀ x, restore blank x = x) : overlay restore ss xs = xs := by
  refine overlay_self fun i s x hs hx => ?_
  by_cases hi : i < n
  · obtain ⟨s', hs', hv⟩ := h.filled i hi x hx
    obtain rfl : s = s' := Option.some.inj (hs.symm.trans hs')
    exact hvalid s x hv
  · rw [h.rest i (by omega) s hs, hblank]

end Filled

end Overlay
