/-
**Schnorr signatures with a chosen sign.**

A signature carries the abscissa of the nonce point and not the point. Two points share an abscissa,
a point and its opposite, so signer and verifier agree on a predicate that tells the two apart: the
signer negates its nonce when the predicate fails, and the verifier takes the point that satisfies
it. Everything is over a module; the challenge is any function of what is hashed.

Main definitions:

* `Schnorr.SignChoice` — an abscissa, and a predicate that holds of one of two opposite points;
* `Schnorr.Accepts` — the verifier's equation, for the point that the abscissa stands for.

Main results:

* `Schnorr.SignChoice.unique` — an abscissa stands for one point;
* `Schnorr.accepts_respond` — **the response to the chosen nonce is accepted**;
* `Schnorr.combined_smul` — the public point of a key that is put together from two.
-/

import Mathlib.Algebra.Module.Basic

set_option relaxedAutoImplicit false
set_option autoImplicit false

namespace Schnorr

variable {F P X : Type} [CommRing F] [AddCommGroup P] [Module F P]

/-! ### The sign -/

/-- An abscissa that a point shares with its opposite only, and a predicate that holds of exactly
one of the two. -/
structure SignChoice (P X : Type) [AddCommGroup P] where
  abscissa : P → X
  chosen : P → Prop
  abscissa_neg : ∀ R, abscissa (-R) = abscissa R
  abscissa_inj : ∀ {R R' : P}, R ≠ 0 → R' ≠ 0 → abscissa R = abscissa R' → R' = R ∨ R' = -R
  chosen_neg : ∀ {R : P}, R ≠ 0 → (chosen (-R) ↔ ¬chosen R)

/-- An abscissa stands for one point. -/
theorem SignChoice.unique (C : SignChoice P X) {R R' : P} (hR : R ≠ 0) (hR' : R' ≠ 0)
    (hchosen : C.chosen R) (hchosen' : C.chosen R') (h : C.abscissa R = C.abscissa R') :
    R' = R := by
  rcases C.abscissa_inj hR hR' h with heq | hneg
  · exact heq
  · rw [hneg] at hchosen'
    exact absurd hchosen ((C.chosen_neg hR).1 hchosen')

/-! ### The equation -/

/-- **The verifier accepts** the response `s` to the challenge `e` under the public point `pub`: the
chosen point with the abscissa `r` satisfies the equation. -/
def Accepts (C : SignChoice P X) (G pub : P) (r : X) (s e : F) : Prop :=
  ∃ R, R ≠ 0 ∧ C.abscissa R = r ∧ C.chosen R ∧ s • G = R + e • pub

/-- The nonce that is used: the drawn one or its opposite. -/
def IsChosenNonce (C : SignChoice P X) (G : P) (k k' : F) : Prop :=
  (C.chosen (k • G) ∧ k' = k) ∨ (¬C.chosen (k • G) ∧ k' = -k)

/-- **The response to the chosen nonce is accepted**, with the abscissa of the drawn one. -/
theorem accepts_respond {C : SignChoice P X} {G : P} {k k' : F} (hk : k • G ≠ 0)
    (h : IsChosenNonce C G k k') (sk e : F) :
    Accepts C G (sk • G) (C.abscissa (k • G)) (e * sk + k') e := by
  have hsum : (e * sk + k') • G = k' • G + e • sk • G := by
    rw [add_smul, mul_smul, add_comm]
  rcases h with ⟨hchosen, rfl⟩ | ⟨hnot, rfl⟩
  · exact ⟨k' • G, hk, rfl, hchosen, hsum⟩
  · rw [neg_smul] at hsum
    exact ⟨-(k • G), neg_ne_zero.2 hk, C.abscissa_neg _, (C.chosen_neg hk).2 hnot, hsum⟩

/-- The public point of a key that is put together from two: whoever knows the two public points and
the factor can compute it. -/
theorem combined_smul (G : P) (a b t : F) : (a * t + b) • G = t • a • G + b • G := by
  rw [add_smul, mul_comm, mul_smul]

end Schnorr
