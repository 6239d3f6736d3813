/-
**Programs that may stop half way, and what holds when they do.**

A C function that fails part way through leaves behind whatever it had written by then.  The
monad `EStateM ε σ` keeps exactly that: an exception carries the state it was thrown in, so an
early exit and a jump to a cleanup label are the same thing as `throw`, and nothing is undone
behind the program's back.

This module is the program logic for such programs.  `Exec.Sat x Q E s` says that the program `x`,
started in the state `s`, either returns a value and a state satisfying `Q`, or throws an
exception in a state satisfying `E`.  Every rule is an equivalence, so `simp` computes weakest
preconditions; loops are the exception and come with an invariant rule.

Main definitions:

* `Exec.Sat` — the two-sided triple: a postcondition for returning and one for throwing;
* `Exec.Keeps` — a predicate of the state survives the program, whichever way it ends;
* `Exec.Silent` — the program neither reads nor writes the state;
* `Exec.Throws`, `Exec.Raises` — what a program throws, with a state and without one;
* `Exec.check` — throw unless a condition holds.

Main results:

* `Exec.sat_bind`, `Exec.sat_tryCatch`, `Exec.sat_ite`, … — the rules of the program logic;
* `Exec.sat_foldlM` — the loop rule: an invariant indexed by the part of the list consumed so far;
* `Exec.Keeps.bind`, `Exec.Keeps.foldlM`, … — the rules for predicates that always survive;
* `Exec.foldlM_zipIdx_eq_ok`, `Exec.foldlM_eq_ok`, `Exec.foldlM_eq_some`,
  `Exec.exists_foldlM_eq_ok`, `Exec.mapM_eq_ok` — the loop rules for programs without a state.
-/

import Mathlib.Data.List.Forall2
import Mathlib.Data.Nat.Notation
import Mathlib.Logic.Basic
import Mathlib.Tactic.Common

set_option relaxedAutoImplicit false
set_option autoImplicit false

namespace Exec

variable {ε σ α β : Type}

/-! ### The triple -/

/-- Started in `s`, the program `x` returns `a` in `s'` with `Q a s'`, or throws `e` in `s'` with
`E e s'`. -/
structure Sat (x : EStateM ε σ α) (Q : α → σ → Prop) (E : ε → σ → Prop) (s : σ) : Prop where
  ok : ∀ {a s'}, x.run s = .ok a s' → Q a s'
  error : ∀ {e s'}, x.run s = .error e s' → E e s'

/-- The triple is about the one outcome the run has. -/
theorem sat_iff {x : EStateM ε σ α} {Q : α → σ → Prop} {E : ε → σ → Prop} {s : σ} :
    Sat x Q E s ↔
      match x.run s with
      | .ok a s' => Q a s'
      | .error e s' => E e s' := by
  cases h : x.run s with
  | ok a s' => exact ⟨fun hx => hx.ok h, fun hQ => ⟨by simp [h, hQ], by simp [h]⟩⟩
  | error e s' => exact ⟨fun hx => hx.error h, fun hE => ⟨by simp [h], by simp [h, hE]⟩⟩

/-- The triple that says what a run is: it holds of the run itself and of nothing weaker. -/
theorem sat_self (x : EStateM ε σ α) (s : σ) :
    Sat x (fun a s' => x.run s = .ok a s') (fun e s' => x.run s = .error e s') s :=
  ⟨fun h => h, fun h => h⟩

/-- A program that cannot throw returns. -/
theorem Sat.exists_ok {x : EStateM ε σ α} {Q : α → σ → Prop} {s : σ}
    (h : Sat x Q (fun _ _ => False) s) : ∃ a s', x.run s = .ok a s' ∧ Q a s' := by
  cases hx : x.run s with
  | ok a s' => exact ⟨a, s', rfl, h.ok hx⟩
  | error e s' => exact (h.error hx).elim

/-- Weakening both postconditions. -/
theorem Sat.mono {x : EStateM ε σ α} {Q Q' : α → σ → Prop} {E E' : ε → σ → Prop} {s : σ}
    (h : Sat x Q E s) (hQ : ∀ a s', Q a s' → Q' a s') (hE : ∀ e s', E e s' → E' e s') :
    Sat x Q' E' s :=
  ⟨fun hx => hQ _ _ (h.ok hx), fun hx => hE _ _ (h.error hx)⟩

/-- Nothing needs to be known about a program whose outcome does not matter. -/
theorem sat_of_forall {x : EStateM ε σ α} {Q : α → σ → Prop} {E : ε → σ → Prop} {s : σ}
    (hQ : ∀ a s', Q a s') (hE : ∀ e s', E e s') : Sat x Q E s :=
  ⟨fun _ => hQ _ _, fun _ => hE _ _⟩

/-- Two triples of one run hold together. -/
theorem Sat.and {x : EStateM ε σ α} {Q Q' : α → σ → Prop} {E E' : ε → σ → Prop} {s : σ}
    (h : Sat x Q E s) (h' : Sat x Q' E' s) :
    Sat x (fun a s' => Q a s' ∧ Q' a s') (fun e s' => E e s' ∧ E' e s') s :=
  ⟨fun hx => ⟨h.ok hx, h'.ok hx⟩, fun hx => ⟨h.error hx, h'.error hx⟩⟩

/-! ### The rules -/

section Rules

variable {Q : α → σ → Prop} {R : β → σ → Prop} {E : ε → σ → Prop} {s : σ}

@[simp] theorem sat_pure (a : α) : Sat (pure a : EStateM ε σ α) Q E s ↔ Q a s :=
  sat_iff

@[simp] theorem sat_throw (e : ε) : Sat (throw e : EStateM ε σ α) Q E s ↔ E e s :=
  sat_iff

@[simp] theorem sat_get {Q : σ → σ → Prop} :
    Sat (get : EStateM ε σ σ) Q E s ↔ Q s s := sat_iff

@[simp] theorem sat_set {Q : PUnit → σ → Prop} (t : σ) :
    Sat (set t : EStateM ε σ PUnit) Q E s ↔ Q ⟨⟩ t := sat_iff

@[simp] theorem sat_modify {Q : PUnit → σ → Prop} (f : σ → σ) :
    Sat (modify f : EStateM ε σ PUnit) Q E s ↔ Q ⟨⟩ (f s) := sat_iff

@[simp] theorem sat_bind (x : EStateM ε σ α) (f : α → EStateM ε σ β) :
    Sat (x >>= f) R E s ↔ Sat x (fun a s' => Sat (f a) R E s') E s := by
  simp only [sat_iff, EStateM.run, bind, EStateM.bind]
  cases x s with
  | ok a s' => rfl
  | error e s' => rfl

theorem sat_bind_of_ok {x : EStateM ε σ α} {f : α → EStateM ε σ β} {a : α} {s' : σ}
    (hx : x.run s = .ok a s') : Sat (x >>= f) R E s ↔ Sat (f a) R E s' := by
  rw [sat_bind, sat_iff, hx]

theorem sat_bind_of_error {x : EStateM ε σ α} {f : α → EStateM ε σ β} {e : ε} {s' : σ}
    (hx : x.run s = .error e s') : Sat (x >>= f) R E s ↔ E e s' := by
  rw [sat_bind, sat_iff, hx]

@[simp] theorem sat_map (x : EStateM ε σ α) (f : α → β) :
    Sat (f <$> x) R E s ↔ Sat x (fun a s' => R (f a) s') E s := by
  simp only [sat_iff, EStateM.run, Functor.map, EStateM.map]
  cases x s with
  | ok a s' => rfl
  | error e s' => rfl

/-- A handler sees the state in which the exception was thrown. -/
@[simp] theorem sat_tryCatch (x : EStateM ε σ α) (f : ε → EStateM ε σ α) :
    Sat (tryCatch x f) Q E s ↔ Sat x Q (fun e s' => Sat (f e) Q E s') s := by
  simp only [sat_iff, EStateM.run, tryCatch, tryCatchThe, MonadExceptOf.tryCatch, EStateM.tryCatch,
    EStateM.Backtrackable.restore, EStateM.dummyRestore]
  cases x s with
  | ok a s' => rfl
  | error e s' => rfl

theorem sat_ite {c : Prop} [Decidable c] {x y : EStateM ε σ α} :
    Sat (if c then x else y) Q E s ↔ (c → Sat x Q E s) ∧ (¬ c → Sat y Q E s) := by
  by_cases hc : c <;> simp [hc]

theorem sat_dite {c : Prop} [Decidable c] {x : c → EStateM ε σ α} {y : ¬ c → EStateM ε σ α} :
    Sat (dite c x y) Q E s ↔ (∀ hc, Sat (x hc) Q E s) ∧ ∀ hc, Sat (y hc) Q E s := by
  by_cases hc : c <;> simp [hc]

/-- Throw `e` unless the condition holds. -/
def check (c : Bool) (e : ε) : EStateM ε σ Unit :=
  if c then pure () else throw e

@[simp] theorem sat_check {Q : Unit → σ → Prop} (c : Bool) (e : ε) :
    Sat (check c e) Q E s ↔ (c = true → Q () s) ∧ (c = false → E e s) := by
  cases c <;> simp [check]

/-- Run a program on a part of the state. -/
def zoom {τ : Type} (view : τ → σ) (put : σ → τ → τ) (x : EStateM ε σ α) : EStateM ε τ α := fun t =>
  match x (view t) with
  | .ok a s => .ok a (put s t)
  | .error e s => .error e (put s t)

@[simp] theorem sat_zoom {τ : Type} {Q : α → τ → Prop} {E : ε → τ → Prop} {t : τ} (view : τ → σ)
    (put : σ → τ → τ) (x : EStateM ε σ α) :
    Sat (zoom view put x) Q E t ↔
      Sat x (fun a s => Q a (put s t)) (fun e s => E e (put s t)) (view t) := by
  simp only [sat_iff, EStateM.run, zoom]
  cases x (view t) with
  | ok a s => rfl
  | error e s => rfl

/-- The loop rule.  `I pre b` holds when the part `pre` of the list has been consumed and `b` has
been accumulated; one step carries it past one more element. -/
theorem sat_foldlM {γ : Type} {f : β → γ → EStateM ε σ β} {E : ε → σ → Prop}
    (I : List γ → β → σ → Prop) (xs : List γ)
    (step : ∀ pre x suf b t, xs = pre ++ x :: suf → I pre b t →
      Sat (f b x) (fun b' => I (pre ++ [x]) b') E t) :
    ∀ b t, I [] b t → Sat (xs.foldlM f b) (I xs) E t := by
  -- the induction is on what is left of the list; `done` is what the loop has consumed
  have key : ∀ rest done : List γ, xs = done ++ rest → ∀ b t, I done b t →
      Sat (rest.foldlM f b) (I xs) E t := by
    intro rest
    induction rest with
    | nil =>
        intro done hxs b t hI
        simpa [hxs] using hI
    | cons x rest ih =>
        intro done hxs b t hI
        rw [List.foldlM_cons, sat_bind]
        refine (step done x rest b t hxs hI).mono ?_ (fun _ _ h => h)
        intro b' t' hI'
        exact ih (done ++ [x]) (by simpa using hxs) b' t' hI'
  intro b t hI
  exact key xs [] rfl b t hI

/-- The rule for a loop that accumulates nothing. -/
theorem sat_forM {γ : Type} {f : γ → EStateM ε σ PUnit} {E : ε → σ → Prop}
    (I : List γ → σ → Prop) (xs : List γ)
    (step : ∀ pre x suf t, xs = pre ++ x :: suf → I pre t →
      Sat (f x) (fun _ => I (pre ++ [x])) E t) :
    ∀ t, I [] t → Sat (xs.forM f) (fun _ => I xs) E t := by
  have key : ∀ rest done : List γ, xs = done ++ rest → ∀ t, I done t →
      Sat (rest.forM f) (fun _ => I xs) E t := by
    intro rest
    induction rest with
    | nil =>
        intro done hxs t hI
        simpa [hxs] using hI
    | cons x rest ih =>
        intro done hxs t hI
        rw [List.forM, sat_bind]
        refine (step done x rest t hxs hI).mono ?_ (fun _ _ h => h)
        intro _ t' hI'
        exact ih (done ++ [x]) (by simpa using hxs) t' hI'
  exact key xs [] rfl

/-- The rule for a loop that counts the elements. -/
theorem sat_forM_zipIdx {γ : Type} {f : γ × ℕ → EStateM ε σ PUnit} {E : ε → σ → Prop}
    (I : List γ → σ → Prop) (xs : List γ)
    (step : ∀ pre x suf t, xs = pre ++ x :: suf → I pre t →
      Sat (f (x, pre.length)) (fun _ => I (pre ++ [x])) E t) :
    ∀ t, I [] t → Sat (xs.zipIdx.forM f) (fun _ => I xs) E t := by
  have key : ∀ rest done : List γ, xs = done ++ rest → ∀ t, I done t →
      Sat ((rest.zipIdx done.length).forM f) (fun _ => I xs) E t := by
    intro rest
    induction rest with
    | nil =>
        intro done hxs t hI
        simpa [hxs] using hI
    | cons x rest ih =>
        intro done hxs t hI
        rw [List.zipIdx_cons, List.forM, sat_bind]
        refine (step done x rest t hxs hI).mono ?_ (fun _ _ h => h)
        intro _ t' hI'
        have h := ih (done ++ [x]) (by simpa using hxs) t' hI'
        rwa [List.length_append, List.length_singleton] at h
  exact key xs [] rfl

end Rules

/-! ### Predicates that survive -/

/-- The predicate `I` of the state survives the program, whether it returns or throws. -/
def Keeps (I : σ → Prop) (x : EStateM ε σ α) : Prop :=
  ∀ s, I s → Sat x (fun _ => I) (fun _ => I) s

namespace Keeps

variable {I : σ → Prop}

theorem pure (a : α) : Keeps I (pure a : EStateM ε σ α) := fun _ h => (sat_pure a).2 h

theorem throw (e : ε) : Keeps I (throw e : EStateM ε σ α) := fun _ h => (sat_throw e).2 h

theorem get : Keeps I (get : EStateM ε σ σ) := fun _ h => sat_get.2 h

theorem modify {f : σ → σ} (hf : ∀ s, I s → I (f s)) :
    Keeps I (modify f : EStateM ε σ PUnit) := fun s h => (sat_modify f).2 (hf s h)

theorem bind {x : EStateM ε σ α} {f : α → EStateM ε σ β} (hx : Keeps I x)
    (hf : ∀ a, Keeps I (f a)) : Keeps I (x >>= f) := fun s h =>
  (sat_bind x f).2 ((hx s h).mono (fun a s' h' => hf a s' h') (fun _ _ h' => h'))

theorem map {x : EStateM ε σ α} (f : α → β) (hx : Keeps I x) : Keeps I (f <$> x) := fun s h =>
  (sat_map x f).2 (hx s h)

theorem ite {c : Prop} [Decidable c] {x y : EStateM ε σ α} (hx : Keeps I x) (hy : Keeps I y) :
    Keeps I (if c then x else y) := by
  by_cases hc : c <;> simpa [hc]

theorem check (c : Bool) (e : ε) : Keeps I (check c e : EStateM ε σ Unit) :=
  fun _ h => (sat_check c e).2 ⟨fun _ => h, fun _ => h⟩

theorem tryCatch {x : EStateM ε σ α} {f : ε → EStateM ε σ α} (hx : Keeps I x)
    (hf : ∀ e, Keeps I (f e)) : Keeps I (tryCatch x f) := fun s h =>
  (sat_tryCatch x f).2 ((hx s h).mono (fun _ _ h' => h') (fun e s' h' => hf e s' h'))

/-- A program that keeps every predicate leaves the state as it was. -/
theorem eq_of_run {x : EStateM ε σ α} (hx : ∀ I, Keeps I x) {a : α} {s s' : σ}
    (h : x.run s = .ok a s') : s' = s := (hx (· = s) s rfl).ok h

theorem foldlM {γ : Type} {f : β → γ → EStateM ε σ β} (hf : ∀ b x, Keeps I (f b x))
    (xs : List γ) (b : β) : Keeps I (xs.foldlM f b) := fun s h =>
  sat_foldlM (fun _ _ => I) xs (fun _ x _ b' t _ ht => hf b' x t ht) b s h

theorem forM {γ : Type} {f : γ → EStateM ε σ PUnit} (xs : List γ)
    (hf : ∀ x ∈ xs, Keeps I (f x)) : Keeps I (xs.forM f) := fun s h =>
  sat_forM (fun _ => I) xs
    (fun _ x _ t hxs ht => hf x (by rw [hxs]; exact List.mem_append_cons_self) t ht) s h

end Keeps

/-! ### What a program throws -/

/-- The predicate `I` of the state survives the program, and whatever it throws satisfies `R`. -/
def Throws (I : σ → Prop) (R : ε → Prop) (x : EStateM ε σ α) : Prop :=
  ∀ s, I s → Sat x (fun _ => I) (fun e s' => I s' ∧ R e) s

namespace Throws

variable {I : σ → Prop} {R : ε → Prop}

theorem pure (a : α) : Throws I R (pure a : EStateM ε σ α) := fun _ h => (sat_pure a).2 h

theorem throw {e : ε} (he : R e) : Throws I R (throw e : EStateM ε σ α) :=
  fun _ h => (sat_throw e).2 ⟨h, he⟩

theorem get : Throws I R (get : EStateM ε σ σ) := fun _ h => sat_get.2 h

theorem modify {f : σ → σ} (hf : ∀ s, I s → I (f s)) :
    Throws I R (modify f : EStateM ε σ PUnit) := fun s h => (sat_modify f).2 (hf s h)

theorem bind {x : EStateM ε σ α} {f : α → EStateM ε σ β} (hx : Throws I R x)
    (hf : ∀ a, Throws I R (f a)) : Throws I R (x >>= f) := fun s h =>
  (sat_bind x f).2 ((hx s h).mono (fun a s' h' => hf a s' h') (fun _ _ h' => h'))

theorem ite {c : Prop} [Decidable c] {x y : EStateM ε σ α} (hx : Throws I R x)
    (hy : Throws I R y) : Throws I R (if c then x else y) := by
  by_cases hc : c <;> simpa [hc]

theorem check (c : Bool) {e : ε} (he : R e) : Throws I R (check c e : EStateM ε σ Unit) :=
  fun _ h => (sat_check c e).2 ⟨fun _ => h, fun _ => ⟨h, he⟩⟩

theorem forM {γ : Type} {f : γ → EStateM ε σ PUnit} (xs : List γ)
    (hf : ∀ x ∈ xs, Throws I R (f x)) : Throws I R (xs.forM f) := fun s h =>
  sat_forM (fun _ => I) xs
    (fun _ x _ t hxs ht => hf x (by rw [hxs]; exact List.mem_append_cons_self) t ht) s h

end Throws

/-! ### Programs that do not use the state -/

/-- The program neither reads nor writes the state: from every state it returns the same value, or
throws the same exception, and leaves the state as it was. -/
def Silent (x : EStateM ε σ α) : Prop :=
  (∃ a, ∀ s, x.run s = .ok a s) ∨ ∃ e, ∀ s, x.run s = .error e s

namespace Silent

theorem pure (a : α) : Silent (pure a : EStateM ε σ α) := .inl ⟨a, fun _ => rfl⟩

theorem throw (e : ε) : Silent (throw e : EStateM ε σ α) := .inr ⟨e, fun _ => rfl⟩

theorem check (c : Bool) (e : ε) : Silent (check c e : EStateM ε σ Unit) := by
  cases c with
  | true => exact pure ()
  | false => exact throw e

theorem ite {c : Prop} [Decidable c] {x y : EStateM ε σ α} (hx : Silent x) (hy : Silent y) :
    Silent (if c then x else y) := by
  by_cases hc : c <;> simpa [hc]

theorem bind {x : EStateM ε σ α} {f : α → EStateM ε σ β} (hx : Silent x)
    (hf : ∀ a, Silent (f a)) : Silent (x >>= f) := by
  rcases hx with ⟨a, ha⟩ | ⟨e, he⟩
  · have hrun : ∀ s, (x >>= f).run s = (f a).run s := fun s => by
      simp only [EStateM.run_bind, ha]
    rcases hf a with ⟨b, hb⟩ | ⟨e, he⟩
    · exact .inl ⟨b, fun s => (hrun s).trans (hb s)⟩
    · exact .inr ⟨e, fun s => (hrun s).trans (he s)⟩
  · exact .inr ⟨e, fun s => by simp only [EStateM.run_bind, he]⟩

theorem keeps {x : EStateM ε σ α} (hx : Silent x) (I : σ → Prop) : Keeps I x := by
  intro s hs
  rcases hx with ⟨a, ha⟩ | ⟨e, he⟩
  · exact sat_iff.2 (by rw [ha]; exact hs)
  · exact sat_iff.2 (by rw [he]; exact hs)

/-- A run leaves the state as it was. -/
theorem sat_self {x : EStateM ε σ α} (hx : Silent x) (s : σ) :
    Sat x (fun a s' => s' = s ∧ x.run s = .ok a s) (fun _ s' => s' = s) s := by
  rcases hx with ⟨a, ha⟩ | ⟨e, he⟩
  · exact sat_iff.2 (by rw [ha]; exact ⟨rfl, rfl⟩)
  · exact sat_iff.2 (by rw [he])

/-- What one run returned, every run returns. -/
theorem sat_of_ok {x : EStateM ε σ α} (hx : Silent x) {a : α} {s s' : σ} (h : x.run s = .ok a s')
    {Q : α → σ → Prop} {E : ε → σ → Prop} {t : σ} : Sat x Q E t ↔ Q a t := by
  rcases hx with ⟨b, hb⟩ | ⟨e, he⟩
  · obtain ⟨rfl, rfl⟩ := EStateM.Result.ok.inj ((hb s).symm.trans h)
    rw [sat_iff, hb]
  · exact absurd ((he s).symm.trans h) (by simp)

end Silent

/-! ### Programs without a state -/

section Pure

theorem bind_eq_ok {x : Except ε α} {f : α → Except ε β} {b : β} :
    x >>= f = .ok b ↔ ∃ a, x = .ok a ∧ f a = .ok b := by
  cases x with
  | ok a => exact ⟨fun h => ⟨a, rfl, h⟩, fun ⟨_, ha, h⟩ => Except.ok.inj ha ▸ h⟩
  | error e =>
      constructor
      · intro h
        cases h
      · rintro ⟨a, ha, -⟩
        cases ha

theorem ok_bind (a : α) (f : α → Except ε β) : (Except.ok a >>= f) = f a := rfl

theorem pure_eq_ok {a b : α} : (pure a : Except ε α) = .ok b ↔ a = b :=
  ⟨fun h => Except.ok.inj h, fun h => h ▸ rfl⟩

/-- Whatever the computation throws satisfies `R`. -/
def Raises (R : ε → Prop) (x : Except ε α) : Prop := ∀ e, x = .error e → R e

namespace Raises

variable {R : ε → Prop}

theorem ok (a : α) : Raises R (.ok a : Except ε α) := by
  intro e h
  cases h

theorem pure (a : α) : Raises R (pure a : Except ε α) := ok a

theorem error {e : ε} (he : R e) : Raises R (.error e : Except ε α) := by
  rintro e' h
  cases h
  exact he

theorem bind {x : Except ε α} {f : α → Except ε β} (hx : Raises R x)
    (hf : ∀ a, Raises R (f a)) : Raises R (x >>= f) := by
  cases x with
  | ok a => exact hf a
  | error e => exact error (hx e rfl)

theorem ite {c : Prop} [Decidable c] {x y : Except ε α} (hx : Raises R x) (hy : Raises R y) :
    Raises R (if c then x else y) := by
  by_cases hc : c <;> simpa [hc]

theorem foldlM {γ : Type} {f : β → γ → Except ε β} (hf : ∀ b x, Raises R (f b x)) (xs : List γ)
    (b : β) : Raises R (xs.foldlM f b) := by
  induction xs generalizing b with
  | nil => exact pure b
  | cons x xs ih => exact (hf b x).bind fun b' => ih b'

end Raises

/-- The rule for a loop that counts the elements and accumulates. -/
theorem foldlM_zipIdx_eq_ok {γ : Type} {f : β → γ × ℕ → Except ε β} (I : List γ → β → Prop)
    (xs : List γ)
    (step : ∀ pre x suf b b', xs = pre ++ x :: suf → I pre b → f b (x, pre.length) = .ok b' →
      I (pre ++ [x]) b')
    {b b' : β} (hstart : I [] b) (h : xs.zipIdx.foldlM f b = .ok b') : I xs b' := by
  have key : ∀ rest done : List γ, xs = done ++ rest → ∀ b, I done b →
      (rest.zipIdx done.length).foldlM f b = .ok b' → I xs b' := by
    intro rest
    induction rest with
    | nil =>
        intro done hxs b hI h
        obtain rfl : b = b' := pure_eq_ok.1 h
        simpa [hxs] using hI
    | cons x rest ih =>
        intro done hxs b hI h
        rw [List.zipIdx_cons, List.foldlM_cons, bind_eq_ok] at h
        obtain ⟨b₁, hb₁, h⟩ := h
        refine ih (done ++ [x]) (by simpa using hxs) b₁ (step done x rest b b₁ hxs hI hb₁) ?_
        rwa [List.length_append, List.length_singleton]
  exact key xs [] rfl b hstart h

/-- The rule for a loop that accumulates and may give up. -/
theorem foldlM_eq_some {γ : Type} {f : β → γ → Option β} (I : List γ → β → Prop) (xs : List γ)
    (step : ∀ pre x suf b b', xs = pre ++ x :: suf → I pre b → f b x = some b' → I (pre ++ [x]) b')
    {b b' : β} (hstart : I [] b) (h : xs.foldlM f b = some b') : I xs b' := by
  have key : ∀ rest done : List γ, xs = done ++ rest → ∀ b, I done b →
      rest.foldlM f b = some b' → I xs b' := by
    intro rest
    induction rest with
    | nil =>
        intro done hxs b hI h
        obtain rfl : b = b' := by simpa using h
        simpa [hxs] using hI
    | cons x rest ih =>
        intro done hxs b hI h
        rw [List.foldlM_cons, Option.bind_eq_bind, Option.bind_eq_some_iff] at h
        obtain ⟨b₁, hb₁, h⟩ := h
        exact ih (done ++ [x]) (by simpa using hxs) b₁ (step done x rest b b₁ hxs hI hb₁) h
  exact key xs [] rfl b hstart h

/-- The rule for a loop that accumulates and may throw. -/
theorem foldlM_eq_ok {γ : Type} {f : β → γ → Except ε β} (I : List γ → β → Prop) (xs : List γ)
    (step : ∀ pre x suf b b', xs = pre ++ x :: suf → I pre b → f b x = .ok b' → I (pre ++ [x]) b')
    {b b' : β} (hstart : I [] b) (h : xs.foldlM f b = .ok b') : I xs b' := by
  have key : ∀ rest done : List γ, xs = done ++ rest → ∀ b, I done b →
      rest.foldlM f b = .ok b' → I xs b' := by
    intro rest
    induction rest with
    | nil =>
        intro done hxs b hI h
        obtain rfl : b = b' := pure_eq_ok.1 h
        simpa [hxs] using hI
    | cons x rest ih =>
        intro done hxs b hI h
        rw [List.foldlM_cons, bind_eq_ok] at h
        obtain ⟨b₁, hb₁, h⟩ := h
        exact ih (done ++ [x]) (by simpa using hxs) b₁ (step done x rest b b₁ hxs hI hb₁) h
  exact key xs [] rfl b hstart h

/-- A loop whose turns all succeed from the states it can be in succeeds. -/
theorem exists_foldlM_eq_ok {γ : Type} {f : β → γ → Except ε β} (I : β → Prop) (xs : List γ)
    (step : ∀ x ∈ xs, ∀ b, I b → ∃ b', f b x = .ok b' ∧ I b') {b : β} (hstart : I b) :
    ∃ b', xs.foldlM f b = .ok b' ∧ I b' := by
  induction xs generalizing b with
  | nil => exact ⟨b, rfl, hstart⟩
  | cons x xs ih =>
      obtain ⟨b₁, hb₁, hI⟩ := step x List.mem_cons_self b hstart
      obtain ⟨b', hb', hI'⟩ := ih (fun y hy => step y (List.mem_cons_of_mem x hy)) hI
      exact ⟨b', bind_eq_ok.2 ⟨b₁, hb₁, hb'⟩, hI'⟩

/-- A computation for every element, one after the other. -/
theorem mapM_eq_ok {γ : Type} {f : γ → Except ε β} {xs : List γ} {ys : List β} :
    xs.mapM f = .ok ys ↔ List.Forall₂ (fun x y => f x = .ok y) xs ys := by
  induction xs generalizing ys with
  | nil =>
      rw [List.mapM_nil, pure_eq_ok, List.forall₂_nil_left_iff]
      exact eq_comm
  | cons x xs ih =>
      rw [List.mapM_cons, bind_eq_ok, List.forall₂_cons_left_iff]
      constructor
      · rintro ⟨y, hy, h⟩
        obtain ⟨ys', hys, h⟩ := bind_eq_ok.1 h
        exact ⟨y, ys', hy, ih.1 hys, (pure_eq_ok.1 h).symm⟩
      · rintro ⟨y, ys', hy, hys, rfl⟩
        exact ⟨y, hy, bind_eq_ok.2 ⟨ys', ih.2 hys, rfl⟩⟩

theorem mapM_eq_some {γ : Type} {f : γ → Option β} {xs : List γ} {ys : List β} :
    xs.mapM f = some ys ↔ List.Forall₂ (fun x y => f x = some y) xs ys := by
  induction xs generalizing ys with
  | nil =>
      rw [List.mapM_nil, List.forall₂_nil_left_iff]
      exact Option.some_inj.trans eq_comm
  | cons x xs ih =>
      rw [List.mapM_cons, List.forall₂_cons_left_iff]
      constructor
      · intro h
        obtain ⟨y, hy, h⟩ := Option.bind_eq_some_iff.1 h
        obtain ⟨ys', hys, h⟩ := Option.bind_eq_some_iff.1 h
        exact ⟨y, ys', hy, ih.1 hys, (Option.some.inj h).symm⟩
      · rintro ⟨y, ys', hy, hys, rfl⟩
        exact Option.bind_eq_some_iff.2 ⟨y, hy, Option.bind_eq_some_iff.2 ⟨ys', ih.2 hys, rfl⟩⟩

/-- Every element has its result among the results, and every result its element. -/
theorem mem_of_mapM_eq_some {γ : Type} {f : γ → Option β} {xs : List γ} {ys : List β}
    (h : xs.mapM f = some ys) :
    (∀ x ∈ xs, ∃ y ∈ ys, f x = some y) ∧ ∀ y ∈ ys, ∃ x ∈ xs, f x = some y := by
  have hall := mapM_eq_some.1 h
  clear h
  induction hall with
  | nil =>
      constructor
      · intro x hx
        cases hx
      · intro y hy
        cases hy
  | @cons x y xs ys hxy _ ih =>
      constructor
      · intro x' hx'
        rcases List.mem_cons.1 hx' with rfl | hx'
        · exact ⟨y, List.mem_cons_self, hxy⟩
        · obtain ⟨y', hy', hxy'⟩ := ih.1 x' hx'
          exact ⟨y', List.mem_cons_of_mem y hy', hxy'⟩
      · intro y' hy'
        rcases List.mem_cons.1 hy' with rfl | hy'
        · exact ⟨x, List.mem_cons_self, hxy⟩
        · obtain ⟨x', hx', hxy'⟩ := ih.2 y' hy'
          exact ⟨x', List.mem_cons_of_mem x hx', hxy'⟩

theorem exists_mapM_eq_ok {γ : Type} {f : γ → Except ε β} {xs : List γ}
    (h : ∀ x ∈ xs, ∃ y, f x = .ok y) : ∃ ys, xs.mapM f = .ok ys := by
  induction xs with
  | nil => exact ⟨[], rfl⟩
  | cons x xs ih =>
      obtain ⟨y, hy⟩ := h x List.mem_cons_self
      obtain ⟨ys, hys⟩ := ih (fun x' hx' => h x' (List.mem_cons_of_mem x hx'))
      exact ⟨y :: ys, mapM_eq_ok.2 (.cons hy (mapM_eq_ok.1 hys))⟩

/-- A result is that of the element at its position. -/
theorem getElem?_of_mapM_eq_ok {γ : Type} {f : γ → Except ε β} {xs : List γ} {ys : List β}
    (h : xs.mapM f = .ok ys) {i : ℕ} {y : β} (hy : ys[i]? = some y) :
    ∃ x, xs[i]? = some x ∧ f x = .ok y := by
  have hall := mapM_eq_ok.1 h
  clear h
  induction hall generalizing i with
  | nil => cases hy
  | @cons x y' xs ys hxy _ ih =>
      cases i with
      | zero =>
          obtain rfl : y' = y := Option.some.inj hy
          exact ⟨x, rfl, hxy⟩
      | succ i => exact ih hy

/-- A computation for every element and its position, read off position by position. -/
theorem getElem?_mapM_zipIdx {γ : Type} {f : γ × ℕ → Except ε β} {xs : List γ} {ys : List β}
    (h : xs.zipIdx.mapM f = .ok ys) :
    ys.length = xs.length ∧
      ∀ i x y, xs[i]? = some x → ys[i]? = some y → f (x, i) = .ok y := by
  have hall := mapM_eq_ok.1 h
  have hlen : ys.length = xs.length := by simpa using hall.length_eq.symm
  refine ⟨hlen, ?_⟩
  intro i x y hx hy
  obtain ⟨hi, hx⟩ := List.getElem?_eq_some_iff.1 hx
  obtain ⟨hi', hy⟩ := List.getElem?_eq_some_iff.1 hy
  have hget := hall.get (by simpa using hi) hi'
  simpa [hx, hy] using hget

end Pure

end Exec
