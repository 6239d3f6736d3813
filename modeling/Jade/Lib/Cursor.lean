/-
**Readers of packed records.**

A decoder moves a pointer over a record and copies fields off the front.  It either returns a value
with the rest of the record, or it stops half way, for one of several reasons; what it does when a
copy would pass the end is one of these.

For such a reader two things are worth knowing: which words it takes off the front, and with which
value; and on which records it stops for a given reason.  `Reads` and `Stops` say so exactly, as
equivalences, so that the two can be computed from the text of the reader by the rules below: a
sequence of readers takes a word of the first followed by a word of the second, and stops where the
first does, or where the second does once a word of the first has been taken off.

Main definitions:

* `Cursor.Reader` — a program whose state is what is left of the record;
* `Cursor.take`, `Cursor.next`, `Cursor.lift` — copy the next elements, the next one, and none;
* `Cursor.Reads`, `Cursor.Stops` — the words a reader takes, and where it stops;
* `Cursor.Needs` — how many elements are enough for a reader;
* `Cursor.readSlots` — read a number of entries into an array of so many slots;
* `Cursor.Spells` — the words of the entries, one after another.

Main results:

* `Cursor.reads_bind`, `Cursor.stops_bind` — **the rules for a sequence**;
* `Cursor.reads_readSlots`, `Cursor.stops_readSlots` — the rules for an array;
* `Cursor.spells_iff` — entries that have one word each are spelled by their words.
-/

import Jade.Lib.Exec

set_option relaxedAutoImplicit false
set_option autoImplicit false

namespace Cursor

open Exec

variable {ε γ α β : Type}

/-- A program whose state is what is left of the record. -/
abbrev Reader (ε γ α : Type) : Type := EStateM ε (List γ) α

/-- Copy the next `n` elements; a copy that would pass the end throws `past`. -/
def take (past : ε) (n : ℕ) : Reader ε γ { as : List γ // as.length = n } := fun bs =>
  if h : n ≤ bs.length then .ok ⟨bs.take n, List.length_take_of_le h⟩ (bs.drop n)
  else .error past bs

/-- Copy the next element. -/
def next (past : ε) : Reader ε γ γ
  | [] => .error past []
  | b :: bs => .ok b bs

/-- A computation that does not look at the record. -/
def lift (x : Except ε α) : Reader ε γ α := fun bs =>
  match x with
  | .ok a => .ok a bs
  | .error e => .error e bs

/-- The reader takes exactly the words `L a` off the front, and returns `a`. -/
def Reads (x : Reader ε γ α) (L : α → List γ → Prop) : Prop :=
  ∀ bs a rest, x.run bs = .ok a rest ↔ ∃ word, L a word ∧ bs = word ++ rest

/-- The reader throws `e` exactly on the records `R`. -/
def Stops (x : Reader ε γ α) (e : ε) (R : List γ → Prop) : Prop :=
  ∀ bs, (∃ rest, x.run bs = .error e rest) ↔ R bs

theorem Reads.congr {x : Reader ε γ α} {L L' : α → List γ → Prop} (h : Reads x L)
    (hL : ∀ a word, L a word ↔ L' a word) : Reads x L' := by
  intro bs a rest
  rw [h bs a rest]
  simp only [hL]

theorem Stops.congr {x : Reader ε γ α} {e : ε} {R R' : List γ → Prop} (h : Stops x e R)
    (hR : ∀ bs, R bs ↔ R' bs) : Stops x e R' := fun bs => (h bs).trans (hR bs)

/-! ### The words of a reader -/

section Reads

theorem reads_pure (a : α) : Reads (pure a : Reader ε γ α) (fun b word => b = a ∧ word = []) := by
  intro bs b rest
  constructor
  · intro h
    cases h
    exact ⟨[], ⟨rfl, rfl⟩, rfl⟩
  · rintro ⟨word, ⟨rfl, rfl⟩, rfl⟩
    rfl

theorem reads_throw (e : ε) : Reads (throw e : Reader ε γ α) (fun _ _ => False) := by
  intro bs a rest
  constructor
  · intro h
    cases h
  · rintro ⟨word, h, -⟩
    exact h.elim

theorem reads_take (past : ε) (n : ℕ) :
    Reads (take (γ := γ) past n) (fun a word => word = a.1) := by
  intro bs a rest
  constructor
  · intro h
    by_cases hn : n ≤ bs.length
    · rw [EStateM.run, take, dif_pos hn] at h
      cases h
      exact ⟨bs.take n, rfl, (List.take_append_drop n bs).symm⟩
    · rw [EStateM.run, take, dif_neg hn] at h
      cases h
  · rintro ⟨word, rfl, rfl⟩
    obtain ⟨as, rfl⟩ := a
    have hle : as.length ≤ (as ++ rest).length := by
      rw [List.length_append]
      omega
    rw [EStateM.run, take, dif_pos hle]
    simp

theorem reads_next (past : ε) : Reads (next (γ := γ) past) (fun b word => word = [b]) := by
  intro bs b rest
  cases bs with
  | nil => simp [EStateM.run, next]
  | cons c bs => simp [EStateM.run, next]

theorem reads_check (c : Bool) (e : ε) :
    Reads (check c e : Reader ε γ Unit) (fun _ word => c = true ∧ word = []) := by
  cases c with
  | true => exact (reads_pure ()).congr (fun _ _ => by simp)
  | false => exact (reads_throw e).congr (fun _ _ => by simp)

theorem reads_lift (x : Except ε α) :
    Reads (lift x : Reader ε γ α) (fun a word => x = .ok a ∧ word = []) := by
  cases x with
  | ok a =>
      refine (reads_pure a).congr ?_
      intro b word
      simp [eq_comm]
  | error e => exact (reads_throw e).congr (fun a word => by simp)

/-- **A sequence takes a word of the first reader followed by a word of the second.** -/
theorem reads_bind {x : Reader ε γ α} {f : α → Reader ε γ β} {L : α → List γ → Prop}
    {M : α → β → List γ → Prop} (hx : Reads x L) (hf : ∀ a, Reads (f a) (M a)) :
    Reads (x >>= f) (fun b word => ∃ a u v, L a u ∧ M a b v ∧ word = u ++ v) := by
  intro bs b rest
  constructor
  · intro h
    cases hrun : x.run bs with
    | error e s =>
        rw [EStateM.run_bind, hrun] at h
        cases h
    | ok a s =>
        rw [EStateM.run_bind, hrun] at h
        obtain ⟨u, hu, rfl⟩ := (hx bs a s).1 hrun
        obtain ⟨v, hv, rfl⟩ := (hf a s b rest).1 h
        exact ⟨u ++ v, ⟨a, u, v, hu, hv, rfl⟩, (List.append_assoc u v rest).symm⟩
  · rintro ⟨word, ⟨a, u, v, hu, hv, rfl⟩, rfl⟩
    have hrun : x.run (u ++ v ++ rest) = .ok a (v ++ rest) :=
      (hx _ _ _).2 ⟨u, hu, List.append_assoc u v rest⟩
    rw [EStateM.run_bind, hrun]
    exact (hf a _ _ _).2 ⟨v, hv, rfl⟩

end Reads

/-! ### Where a reader stops -/

section Stops

variable {e : ε}

theorem stops_pure (a : α) : Stops (pure a : Reader ε γ α) e (fun _ => False) := by
  intro bs
  constructor
  · rintro ⟨rest, h⟩
    cases h
  · exact False.elim

theorem stops_throw (e' : ε) : Stops (throw e' : Reader ε γ α) e (fun _ => e' = e) := by
  intro bs
  constructor
  · rintro ⟨rest, h⟩
    cases h
    rfl
  · rintro rfl
    exact ⟨bs, rfl⟩

theorem stops_take {past : ε} (n : ℕ) :
    Stops (take (γ := γ) past n) e (fun bs => past = e ∧ bs.length < n) := by
  intro bs
  by_cases hn : n ≤ bs.length
  · simp [EStateM.run, take, dif_pos hn, Nat.not_lt.2 hn]
  · simp [EStateM.run, take, dif_neg hn, Nat.not_le.1 hn]

theorem stops_next {past : ε} : Stops (next (γ := γ) past) e (fun bs => past = e ∧ bs = []) := by
  intro bs
  cases bs with
  | nil => simp [EStateM.run, next]
  | cons c bs => simp [EStateM.run, next]

theorem stops_check (c : Bool) (e' : ε) :
    Stops (check c e' : Reader ε γ Unit) e (fun _ => c = false ∧ e' = e) := by
  cases c with
  | true => exact (stops_pure ()).congr (fun _ => by simp)
  | false => exact (stops_throw e').congr (fun _ => by simp)

theorem stops_lift (x : Except ε α) :
    Stops (lift x : Reader ε γ α) e (fun _ => x = .error e) := by
  cases x with
  | ok a => exact (stops_pure a).congr (fun _ => by simp)
  | error e' => exact (stops_throw e').congr (fun _ => by simp)

/-- **A sequence stops where the first reader does, or where the second does on what is left.** -/
theorem stops_bind {x : Reader ε γ α} {f : α → Reader ε γ β} {L : α → List γ → Prop}
    {R : List γ → Prop} {S : α → List γ → Prop} (hx : Reads x L) (hxe : Stops x e R)
    (hf : ∀ a, Stops (f a) e (S a)) :
    Stops (x >>= f) e
      (fun bs => R bs ∨ ∃ a word rest, L a word ∧ S a rest ∧ bs = word ++ rest) := by
  intro bs
  constructor
  · rintro ⟨rest, h⟩
    cases hrun : x.run bs with
    | error e' s =>
        rw [EStateM.run_bind, hrun] at h
        cases h
        exact .inl ((hxe bs).1 ⟨rest, hrun⟩)
    | ok a s =>
        rw [EStateM.run_bind, hrun] at h
        obtain ⟨word, hword, rfl⟩ := (hx bs a s).1 hrun
        exact .inr ⟨a, word, s, hword, (hf a s).1 ⟨rest, h⟩, rfl⟩
  · rintro (hR | ⟨a, word, rest, hword, hS, rfl⟩)
    · obtain ⟨rest, hrest⟩ := (hxe bs).2 hR
      exact ⟨rest, by rw [EStateM.run_bind, hrest]⟩
    · have hrun : x.run (word ++ rest) = .ok a rest := (hx _ _ _).2 ⟨word, hword, rfl⟩
      obtain ⟨rest', hrest'⟩ := (hf a rest).2 hS
      exact ⟨rest', by rw [EStateM.run_bind, hrun]; exact hrest'⟩

/-- What follows a check runs only when the condition holds. -/
theorem stops_guard {c : Bool} {e' : ε} {x : Reader ε γ α} {R : List γ → Prop} (he : e' ≠ e)
    (hx : c = true → Stops x e R) :
    Stops (check c e' >>= fun _ => x) e (fun bs => c = true ∧ R bs) := by
  cases c with
  | true =>
      intro bs
      simpa [check, pure_bind] using hx rfl bs
  | false =>
      intro bs
      constructor
      · rintro ⟨rest, h⟩
        cases h
        exact absurd rfl he
      · rintro ⟨h, -⟩
        cases h

end Stops

/-! ### How much a reader needs -/

/-- On a record of `n` elements the reader does not throw `past`, and it takes no more than `n`. -/
def Needs (past : ε) (x : Reader ε γ α) (n : ℕ) : Prop :=
  ∀ bs, n ≤ bs.length →
    (∀ rest, x.run bs ≠ .error past rest) ∧
      ∀ a rest, x.run bs = .ok a rest → bs.length ≤ rest.length + n

namespace Needs

variable {past : ε}

theorem pure (a : α) (n : ℕ) : Needs past (pure a : Reader ε γ α) n := by
  intro bs _
  constructor
  · intro rest h
    cases h
  · intro b rest h
    cases h
    omega

theorem throw {e : ε} (he : e ≠ past) (n : ℕ) : Needs past (throw e : Reader ε γ α) n := by
  intro bs _
  constructor
  · intro rest h
    cases h
    exact he rfl
  · intro b rest h
    cases h

theorem check (c : Bool) {e : ε} (he : e ≠ past) :
    Needs past (check c e : Reader ε γ Unit) 0 := by
  cases c with
  | true => exact pure () 0
  | false => exact throw he 0

theorem take (n : ℕ) : Needs past (take (γ := γ) past n) n := by
  intro bs hn
  rw [EStateM.run, Cursor.take, dif_pos hn]
  constructor
  · intro rest h
    cases h
  · intro a rest h
    cases h
    rw [List.length_drop]
    omega

theorem next : Needs past (next (γ := γ) past) 1 := by
  intro bs hn
  cases bs with
  | nil => simp at hn
  | cons b bs => simp [EStateM.run, Cursor.next]

theorem bind {x : Reader ε γ α} {f : α → Reader ε γ β} {n m : ℕ} (hx : Needs past x n)
    (hf : ∀ a, Needs past (f a) m) : Needs past (x >>= f) (n + m) := by
  intro bs hlen
  obtain ⟨hpast, hle⟩ := hx bs (by omega)
  rw [EStateM.run_bind]
  cases hrun : x.run bs with
  | error e rest =>
      constructor
      · intro rest' h
        cases h
        exact hpast rest hrun
      · intro b rest' h
        cases h
  | ok a rest =>
      have hrest := hle a rest hrun
      obtain ⟨hpast', hle'⟩ := hf a rest (by omega)
      refine ⟨hpast', fun b rest' h => ?_⟩
      have := hle' b rest' h
      omega

theorem ite {c : Prop} [Decidable c] {x y : Reader ε γ α} {n : ℕ} (hx : Needs past x n)
    (hy : Needs past y n) : Needs past (if c then x else y) n := by
  by_cases hc : c
  · rwa [if_pos hc]
  · rwa [if_neg hc]

theorem mono {x : Reader ε γ α} {n m : ℕ} (hx : Needs past x n) (h : n ≤ m) :
    Needs past x m := by
  intro bs hm
  obtain ⟨hpast, hle⟩ := hx bs (Nat.le_trans h hm)
  refine ⟨hpast, fun a rest hrun => ?_⟩
  have := hle a rest hrun
  omega

end Needs

/-! ### Arrays -/

/-- Read `n` entries into an array of `slots` entries, entry `i` with the reader `x i`; writing past
the end of the array throws `past`. -/
def readSlots (past : ε) (x : ℕ → Reader ε γ α) :
    (slots n : ℕ) → Reader ε γ { as : List α // as.length ≤ slots }
  | _, 0 => pure ⟨[], Nat.zero_le _⟩
  | 0, _ + 1 => throw past
  | slots + 1, n + 1 => do
      let a ← x 0
      let as ← readSlots past (fun i => x (i + 1)) slots n
      pure ⟨a :: as.1, Nat.succ_le_succ as.2⟩

/-- The words of the entries, one after another. -/
inductive Spells : (ℕ → α → List γ → Prop) → List α → List γ → Prop
  | nil {L : ℕ → α → List γ → Prop} : Spells L [] []
  | cons {L : ℕ → α → List γ → Prop} {a : α} {word : List γ} {as : List α} {words : List γ} :
      L 0 a word → Spells (fun i => L (i + 1)) as words → Spells L (a :: as) (word ++ words)

/-- Entries that have one word each are spelled by their words. -/
theorem spells_iff {layout : α → List γ} {as : List α} {words : List γ} :
    Spells (fun _ a word => word = layout a) as words ↔ words = as.flatMap layout := by
  induction as generalizing words with
  | nil =>
      constructor
      · rintro ⟨⟩
        rfl
      · rintro rfl
        exact .nil
  | cons a as ih =>
      constructor
      · intro h
        cases h with
        | cons hword hwords => rw [hword, ih.1 hwords, List.flatMap_cons]
      · rintro rfl
        exact .cons rfl (ih.2 rfl)

theorem reads_readSlots (past : ε) {x : ℕ → Reader ε γ α} {L : ℕ → α → List γ → Prop}
    (hx : ∀ i, Reads (x i) (L i)) (slots n : ℕ) :
    Reads (readSlots past x slots n) (fun as words => as.1.length = n ∧ Spells L as.1 words) := by
  induction n generalizing slots x L with
  | zero =>
      rw [readSlots]
      refine (reads_pure _).congr ?_
      rintro ⟨as, hle⟩ words
      constructor
      · rintro ⟨h, rfl⟩
        cases h
        exact ⟨rfl, .nil⟩
      · rintro ⟨hlen, hspell⟩
        obtain rfl := List.length_eq_zero_iff.1 hlen
        cases hspell
        exact ⟨rfl, rfl⟩
  | succ n ih =>
      cases slots with
      | zero =>
          refine (reads_throw past).congr ?_
          rintro ⟨as, hle⟩ words
          constructor
          · exact False.elim
          · rintro ⟨hlen, -⟩
            have hlen' : as.length = n + 1 := hlen
            omega
      | succ slots =>
          refine (reads_bind (hx 0) (fun a =>
            reads_bind (ih (fun i => hx (i + 1)) slots) (fun as => reads_pure _))).congr ?_
          rintro ⟨as, hle⟩ words
          constructor
          · rintro ⟨a, u, v, hu, ⟨as', w, w', ⟨hlen, hspell⟩, ⟨h, rfl⟩, rfl⟩, rfl⟩
            cases h
            refine ⟨by rw [List.length_cons, hlen], ?_⟩
            rw [List.append_nil]
            exact .cons hu hspell
          · rintro ⟨hlen, hspell⟩
            cases hspell with
            | nil => simp at hlen
            | @cons _ a word as' words' hword hwords =>
                have hlen' : as'.length = n := Nat.succ.inj hlen
                exact ⟨a, word, words', hword, ⟨⟨as', Nat.le_of_succ_le_succ hle⟩, words', [],
                  ⟨hlen', hwords⟩, ⟨rfl, rfl⟩, (List.append_nil words').symm⟩, rfl⟩

/-- The array stops the reader at an entry that stops it, once the entries before have been read. -/
theorem stops_readSlots (past : ε) {e : ε} {x : ℕ → Reader ε γ α} {L : ℕ → α → List γ → Prop}
    {R : ℕ → List γ → Prop} (hx : ∀ i, Reads (x i) (L i)) (hxe : ∀ i, Stops (x i) e (R i))
    (slots n : ℕ) (hpast : past = e → n ≤ slots) :
    Stops (readSlots past x slots n) e
      (fun bs => ∃ as words rest, as.length < n ∧ as.length < slots ∧ Spells L as words ∧
        R as.length rest ∧ bs = words ++ rest) := by
  induction n generalizing slots x L R with
  | zero =>
      rw [readSlots]
      exact (stops_pure _).congr (fun bs => by simp)
  | succ n ih =>
      cases slots with
      | zero =>
          have hne : past ≠ e := fun h => Nat.not_succ_le_zero n (hpast h)
          exact (stops_throw past).congr (fun bs => by simp [hne])
      | succ slots =>
          refine (stops_bind (hx 0) (hxe 0) (fun a =>
            stops_bind (reads_readSlots _ (fun i => hx (i + 1)) slots n)
              (ih (fun i => hx (i + 1)) (fun i => hxe (i + 1)) slots
                (fun h => Nat.le_of_succ_le_succ (hpast h)))
              (fun as => stops_pure _))).congr ?_
          intro bs
          constructor
          · rintro (hR | ⟨a, word, rest, hword, hrest, rfl⟩)
            · exact ⟨[], [], bs, Nat.succ_pos n, Nat.succ_pos slots, .nil, hR, rfl⟩
            · rcases hrest with ⟨as, words, rest', hn, hslots, hspell, hR, rfl⟩ | ⟨_, _, _, _, h, _⟩
              · exact ⟨a :: as, word ++ words, rest', Nat.succ_lt_succ hn, Nat.succ_lt_succ hslots,
                  .cons hword hspell, hR, (List.append_assoc word words rest').symm⟩
              · exact h.elim
          · rintro ⟨as, words, rest, hn, hslots, hspell, hR, rfl⟩
            cases hspell with
            | nil => exact .inl hR
            | @cons _ a word as' words' hword hwords =>
                refine .inr ⟨a, word, words' ++ rest, hword, .inl ⟨as', words', rest,
                  Nat.lt_of_succ_lt_succ hn, Nat.lt_of_succ_lt_succ hslots, hwords, hR, rfl⟩,
                  List.append_assoc word words' rest⟩

/-- Entries of one width run past the end exactly when there is not room for all of them. -/
theorem stops_readSlots_fixed (past : ε) {x : Reader ε γ α} {L : α → List γ → Prop} {width : ℕ}
    (hx : Reads x L) (hxe : Stops x past (fun bs => bs.length < width))
    (hlen : ∀ a word, L a word → word.length = width)
    (hword : ∀ word : List γ, word.length = width → ∃ a, L a word) (slots n : ℕ) (hle : n ≤ slots) :
    Stops (readSlots past (fun _ => x) slots n) past (fun bs => bs.length < n * width) := by
  induction n generalizing slots with
  | zero =>
      rw [readSlots]
      exact (stops_pure _).congr (fun bs => by simp)
  | succ n ih =>
      cases slots with
      | zero => omega
      | succ slots =>
          refine (stops_bind hx hxe (fun a => stops_bind
            (reads_readSlots _ (fun _ => hx) slots n) (ih slots (Nat.le_of_succ_le_succ hle))
              (fun as => stops_pure _))).congr ?_
          intro bs
          rw [Nat.succ_mul]
          constructor
          · rintro (h | ⟨a, word, rest, hL, h | ⟨_, _, _, _, h, _⟩, rfl⟩)
            · omega
            · have := hlen a word hL
              rw [List.length_append]
              omega
            · exact h.elim
          · intro h
            by_cases hw : bs.length < width
            · exact .inl hw
            · have htake : (bs.take width).length = width := List.length_take_of_le (by omega)
              obtain ⟨a, ha⟩ := hword _ htake
              refine .inr ⟨a, _, bs.drop width, ha, .inl ?_, (List.take_append_drop width bs).symm⟩
              rw [List.length_drop]
              omega

end Cursor
