/-
**Well-formed CBOR.**

The grammar of RFC 8949: a sequence of items, one after another, and how deep its containers are
nested.  A tag stands in front of an item and is no item of its own; a string or a container gives
its length in its head, or ends with a break.

The walk over the bytes in `Jade.Lib.Cbor` reads every item of the grammar to its end, and no
further.

Main definitions:

* `Cbor.IsHead` — a head byte with its argument;
* `Cbor.Chunks`, `Cbor.Items` — the chunks of a string, and **a sequence of well-formed items**;
* `Cbor.tagged`, `Cbor.deepest` — is there a tag in front, and how deep are the containers nested.

Main results:

* `Cbor.Items.run` — a frame that waits for items is done when they have been read;
* `Cbor.Items.next` — **the walk reads a well-formed item to its end**;
* `Cbor.Items.deepest_eq` — the depth that is computed is that of the grammar.
-/

import Jade.Lib.Cbor

set_option relaxedAutoImplicit false
set_option autoImplicit false

namespace Cbor

/-! ### The grammar -/

/-- A head of a major type, whose length is not left open, and its argument. -/
inductive IsHead (mt : ℕ) : ℕ → Bytes → Prop
  | short {b : UInt8} (hmt : major b = mt) (hinfo : info b < 24) : IsHead mt (info b) [b]
  | long {b : UInt8} {arg : Bytes} (hmt : major b = mt) (hinfo : 24 ≤ info b) (hinfo' : info b < 28)
      (hlen : arg.length = 2 ^ (info b - 24)) : IsHead mt (Bytes.toNatBE arg) (b :: arg)

/-- Is the byte the head of a string or a container whose length is left open? -/
def opens (b : UInt8) (mt : ℕ) : Prop := major b = mt ∧ info b = 31

/-- The chunks of a string of unknown length. -/
inductive Chunks (mt : ℕ) : Bytes → Prop
  | nil : Chunks mt []
  | cons {h content rest : Bytes} {n : ℕ} (hhead : IsHead mt n h) (hlen : content.length = n)
      (hrest : Chunks mt rest) : Chunks mt (h ++ content ++ rest)

/-- `Items n d bs`: the bytes are `n` well-formed items, and at most `d` containers are nested in
them, as many in one place. -/
inductive Items : ℕ → ℕ → Bytes → Prop
  | nil : Items 0 0 []
  /-- integers and simple values -/
  | number {mt v n d : ℕ} {h rest : Bytes} (hmt : mt = 0 ∨ mt = 1 ∨ mt = 7) (hhead : IsHead mt v h)
      (hsimple : mt = 7 → h.length = 2 → 32 ≤ v) (hrest : Items n d rest) :
      Items (n + 1) d (h ++ rest)
  | string {mt v n d : ℕ} {h content rest : Bytes} (hmt : mt = 2 ∨ mt = 3) (hhead : IsHead mt v h)
      (hlen : content.length = v) (hrest : Items n d rest) :
      Items (n + 1) d (h ++ content ++ rest)
  | chunked {mt n d : ℕ} {b : UInt8} {chunks rest : Bytes} (hmt : mt = 2 ∨ mt = 3)
      (hhead : opens b mt) (hchunks : Chunks mt chunks) (hrest : Items n d rest) :
      Items (n + 1) d (b :: chunks ++ [0xff] ++ rest)
  | array {v n d e : ℕ} {h body rest : Bytes} (hhead : IsHead 4 v h) (hbody : Items v d body)
      (hrest : Items n e rest) : Items (n + 1) (max (d + 1) e) (h ++ body ++ rest)
  | map {v n d e : ℕ} {h body rest : Bytes} (hhead : IsHead 5 v h) (hbody : Items (2 * v) d body)
      (hrest : Items n e rest) : Items (n + 1) (max (d + 1) e) (h ++ body ++ rest)
  | openArray {v n d e : ℕ} {b : UInt8} {body rest : Bytes} (hhead : opens b 4)
      (hbody : Items v d body) (hrest : Items n e rest) :
      Items (n + 1) (max (d + 1) e) (b :: body ++ [0xff] ++ rest)
  | openMap {v n d e : ℕ} {b : UInt8} {body rest : Bytes} (hhead : opens b 5)
      (hbody : Items (2 * v) d body) (hrest : Items n e rest) :
      Items (n + 1) (max (d + 1) e) (b :: body ++ [0xff] ++ rest)
  /-- a tag in front of an item -/
  | tag {v n d : ℕ} {h rest : Bytes} (hhead : IsHead 6 v h) (hrest : Items (n + 1) d rest) :
      Items (n + 1) d (h ++ rest)

/-- The bytes are one well-formed item. -/
def WellFormed (bs : Bytes) : Prop := ∃ d, Items 1 d bs

/-- Is there a tag in front? -/
def tagged (bs : Bytes) : Bool :=
  match bs with
  | [] => false
  | b :: _ => major b == 6

/-! ### The walk over a head -/

/-- What the bytes do to the stack of open frames. -/
def run (stack : List Frame) (bs : Bytes) : Option (List Frame) := bs.foldlM step stack

@[simp] theorem run_nil (stack : List Frame) : run stack [] = some stack := rfl

@[simp] theorem run_cons (stack : List Frame) (b : UInt8) (bs : Bytes) :
    run stack (b :: bs) = (step stack b).bind fun s => run s bs := rfl

@[simp] theorem run_append (stack : List Frame) (as bs : Bytes) :
    run stack (as ++ bs) = (run stack as).bind fun s => run s bs := by
  simp only [run, List.foldlM_append]
  rfl

theorem run_argument (mt value : ℕ) (stack : List Frame) {arg : Bytes} (h : arg ≠ []) :
    run (.argument mt arg.length value :: stack) arg =
      some (headDone mt (value * 256 ^ arg.length + Bytes.toNatBE arg) stack) := by
  induction arg generalizing value with
  | nil => exact absurd rfl h
  | cons b arg ih =>
      rw [run_cons, step]
      cases arg with
      | nil => simp
      | cons b' arg =>
          rw [if_neg (by simp), Option.bind_some, List.length_cons, Nat.add_sub_cancel,
            ih _ (by simp), Bytes.toNatBE_cons b]
          congr 2
          rw [List.length_cons, Nat.pow_succ]
          ring

theorem run_payload (stack : List Frame) (content : Bytes) :
    run (push .payload content.length stack) content = some stack := by
  induction content with
  | nil => rfl
  | cons b content ih =>
      rw [List.length_cons, push, if_neg (Nat.succ_ne_zero _), run_cons, step, Nat.add_sub_cancel]
      exact ih

theorem IsHead.length_pos {mt v : ℕ} {h : Bytes} (hhead : IsHead mt v h) : 0 < h.length := by
  cases hhead <;> simp

/-- A frame that a head does not close reads it like any other: the byte has gone to `head`, and
what is left of the head is its argument. -/
theorem IsHead.run_head {mt v : ℕ} {h : Bytes} (hhead : IsHead mt v h)
    {before after : List Frame}
    (hstep : ∀ b, major b = mt → info b < 28 → step before b = head b after) :
    run before h = some (headDone mt v after) := by
  cases hhead with
  | short hmt hinfo =>
      rw [run_cons, hstep _ hmt (by omega), head, if_pos hinfo, hmt]
      rfl
  | long hmt hinfo hinfo' hlen =>
      have hpos : (_ : Bytes) ≠ [] := List.ne_nil_of_length_pos (hlen ▸ Nat.two_pow_pos _)
      rw [run_cons, hstep _ hmt hinfo', head, if_neg (by omega), if_pos hinfo', hmt, ← hlen,
        Option.bind_some, run_argument _ _ _ hpos, Nat.zero_mul, Nat.zero_add]

/-- A frame that waits for items: the first byte of an item takes it to the frame that waits for one
item less. -/
def Waits (ctx : ℕ → List Frame) (n : ℕ) : Prop :=
  ∀ m b, m < n → b ≠ 0xff → step (ctx (m + 1)) b = head b (ctx m)

theorem ne_break {b : UInt8} (h : info b < 28 ∨ major b ≠ 7) : b ≠ 0xff := by
  rintro rfl
  revert h
  decide

theorem IsHead.run_waits {mt v n : ℕ} {h : Bytes} (hhead : IsHead mt v h) {ctx : ℕ → List Frame}
    (hctx : Waits ctx (n + 1)) : run (ctx (n + 1)) h = some (headDone mt v (ctx n)) :=
  hhead.run_head fun b _ hinfo => hctx n b (Nat.lt_succ_self n) (ne_break (.inl hinfo))

theorem Waits.mono {ctx : ℕ → List Frame} {n m : ℕ} (h : Waits ctx n) (hle : m ≤ n) :
    Waits ctx m := fun k b hk => h k b (hk.trans_le hle)

theorem waits_items (stack : List Frame) (n : ℕ) : Waits (fun m => push .items m stack) n := by
  intro m b _ _
  simp only [push, if_neg (Nat.succ_ne_zero m), step, Nat.add_sub_cancel]

theorem waits_openArray (stack : List Frame) (n : ℕ) : Waits (fun _ => .openArray :: stack) n := by
  intro m b _ hb
  simp only [step, if_neg hb]

theorem waits_openMap (stack : List Frame) (n : ℕ) :
    Waits (fun m => .openMap (decide (m % 2 = 1)) :: stack) n := by
  intro m b _ hb
  have hpar : (!decide ((m + 1) % 2 = 1)) = decide (m % 2 = 1) := by
    rcases Nat.mod_two_eq_zero_or_one m with h | h <;> simp [Nat.add_mod, h]
  simp only [step, if_neg hb, hpar]

/-- Behind a tag the frame of the tag waits for the item in front of which the tag stands. -/
theorem Waits.tag {ctx : ℕ → List Frame} {n : ℕ} (h : Waits ctx (n + 1)) :
    Waits (fun m => if m = n + 1 then .items 1 :: ctx n else ctx m) (n + 1) := by
  intro m b hm hb
  simp only
  rcases Nat.lt_succ_iff_lt_or_eq.1 hm with hlt | rfl
  · rw [if_neg (by omega), if_neg (by omega)]
    exact h m b hm hb
  · rw [if_pos rfl, if_neg (by omega), step]
    rfl

/-! ### The walk over items -/

theorem headDone_number {mt : ℕ} (hmt : mt = 0 ∨ mt = 1 ∨ mt = 7) (v : ℕ) (stack : List Frame) :
    headDone mt v stack = stack := by
  rcases hmt with rfl | rfl | rfl <;> rfl

theorem headDone_string {mt : ℕ} (hmt : mt = 2 ∨ mt = 3) (v : ℕ) (stack : List Frame) :
    headDone mt v stack = push .payload v stack := by
  rcases hmt with rfl | rfl <;> rfl

theorem Chunks.run {mt : ℕ} {bs : Bytes} (h : Chunks mt bs) (hmt : mt = 2 ∨ mt = 3)
    (stack : List Frame) : run (.chunks mt :: stack) bs = some (.chunks mt :: stack) := by
  induction h with
  | nil => rfl
  | cons hhead hlen _ ih =>
      have hstep : ∀ b, major b = mt → info b < 28 →
          step (.chunks mt :: stack) b = head b (.chunks mt :: stack) := by
        intro b hb hinfo
        simp only [step, if_neg (ne_break (.inl hinfo)), if_pos (And.intro hb hinfo)]
      rw [run_append, run_append, hhead.run_head hstep, Option.bind_some, headDone_string hmt,
        ← hlen, run_payload, Option.bind_some, ih]

/-- The head of a string or a container whose length is left open. -/
theorem head_opens {b : UInt8} {mt : ℕ} (h : opens b mt) (stack : List Frame) :
    (mt = 2 ∨ mt = 3 → head b stack = some (.chunks mt :: stack)) ∧
      (mt = 4 → head b stack = some (.openArray :: stack)) ∧
        (mt = 5 → head b stack = some (.openMap false :: stack)) := by
  obtain ⟨hmt, hinfo⟩ := h
  refine ⟨?_, ?_, ?_⟩
  · rintro (rfl | rfl) <;> simp [head, hinfo, hmt]
  · rintro rfl
    simp [head, hinfo, hmt]
  · rintro rfl
    simp [head, hinfo, hmt]

/-- **A frame that waits for items is done when they have been read.** -/
theorem Items.run {n d : ℕ} {bs : Bytes} (h : Items n d bs) {ctx : ℕ → List Frame}
    (hctx : Waits ctx n) : run (ctx n) bs = some (ctx 0) := by
  induction h generalizing ctx with
  | nil => rfl
  | number hmt hhead _ _ ih =>
      rw [run_append, hhead.run_waits hctx, Option.bind_some, headDone_number hmt]
      exact ih (hctx.mono (Nat.le_succ _))
  | string hmt hhead hlen _ ih =>
      rw [run_append, run_append, hhead.run_waits hctx, Option.bind_some, headDone_string hmt,
        ← hlen, run_payload, Option.bind_some]
      exact ih (hctx.mono (Nat.le_succ _))
  | chunked hmt hhead hchunks _ ih =>
      have hb := ne_break (b := _) (.inr (by rw [hhead.1]; omega))
      rw [run_append, run_append, run_cons, hctx _ _ (Nat.lt_succ_self _) hb,
        (head_opens hhead _).1 hmt, Option.bind_some, hchunks.run hmt, Option.bind_some, run_cons,
        step, if_pos rfl]
      exact ih (hctx.mono (Nat.le_succ _))
  | @array v n d e _ _ _ hhead _ _ ihbody ih =>
      have hbody := ihbody (waits_items (ctx n) _)
      rw [run_append, run_append, hhead.run_waits hctx, Option.bind_some, headDone, hbody,
        Option.bind_some]
      exact ih (hctx.mono (Nat.le_succ _))
  | @map v n d e _ _ _ hhead _ _ ihbody ih =>
      have hbody := ihbody (waits_items (ctx n) _)
      rw [run_append, run_append, hhead.run_waits hctx, Option.bind_some, headDone, hbody,
        Option.bind_some]
      exact ih (hctx.mono (Nat.le_succ _))
  | @openArray v n d e _ _ _ hhead _ _ ihbody ih =>
      have hb := ne_break (b := _) (.inr (by rw [hhead.1]; omega))
      rw [run_append, run_append, run_cons, hctx _ _ (Nat.lt_succ_self _) hb,
        (head_opens hhead _).2.1 rfl, Option.bind_some, ihbody (waits_openArray (ctx n) _),
        Option.bind_some, run_cons, step, if_pos rfl]
      exact ih (hctx.mono (Nat.le_succ _))
  | @openMap v n d e _ _ _ hhead _ _ ihbody ih =>
      have hb := ne_break (b := _) (.inr (by rw [hhead.1]; omega))
      have hbody := ihbody (waits_openMap (ctx n) _)
      simp only [Nat.mul_mod_right, Nat.zero_mod, zero_ne_one, decide_false] at hbody
      rw [run_append, run_append, run_cons, hctx _ _ (Nat.lt_succ_self _) hb,
        (head_opens hhead _).2.2 rfl, Option.bind_some, hbody, Option.bind_some, run_cons, step,
        if_pos rfl]
      exact ih (hctx.mono (Nat.le_succ _))
  | tag hhead _ ih =>
      have hrest := ih hctx.tag
      rw [if_pos rfl, if_neg (by omega)] at hrest
      rw [run_append, hhead.run_waits hctx, Option.bind_some]
      exact hrest

/-- The walk ends with the bytes when that is where the stack is empty. -/
theorem scan_of_run {stack : List Frame} {bs : Bytes} (h : run stack bs = some []) (hne : bs ≠ []) :
    Stream.scan step List.isEmpty stack bs = some bs.length := by
  induction bs generalizing stack with
  | nil => exact absurd rfl hne
  | cons b bs ih =>
      rw [run_cons] at h
      obtain ⟨s, hs, hrun⟩ := Option.bind_eq_some_iff.1 h
      rw [Stream.scan, hs]
      cases s with
      | nil =>
          -- nothing is open any more, and no byte can follow
          cases bs with
          | nil => rfl
          | cons b' bs => cases hrun
      | cons frame s =>
          have hbs : bs ≠ [] := by
            rintro rfl
            cases hrun
          simp [ih hrun hbs]

theorem Items.length_pos {n d : ℕ} {bs : Bytes} (h : Items (n + 1) d bs) : 0 < bs.length := by
  cases h with
  | number _ hhead => have := hhead.length_pos; simp; omega
  | string _ hhead => have := hhead.length_pos; simp; omega
  | chunked => simp
  | array hhead => have := hhead.length_pos; simp; omega
  | map hhead => have := hhead.length_pos; simp; omega
  | openArray => simp
  | openMap => simp
  | tag hhead => have := hhead.length_pos; simp; omega

/-- **The walk reads a well-formed item to its end**, whatever follows it. -/
theorem Items.next {d : ℕ} {bs : Bytes} (h : Items 1 d bs) (rest : Bytes) :
    reader.next (bs ++ rest) = some (bs.length, bs) := by
  have hscan : reader.next bs = some (bs.length, bs) := by
    have hrun := h.run (waits_items [] 1)
    have hne := List.ne_nil_of_length_pos h.length_pos
    simp only [reader, Stream.scanReader]
    rw [scan_of_run (by simpa [push] using hrun) hne]
    simp
  exact reader_stable _ _ _ rest hscan

/-- Items behind items. -/
theorem Items.append {n d m e : ℕ} {as bs : Bytes} (has : Items n d as) (hbs : Items m e bs) :
    Items (n + m) (max d e) (as ++ bs) := by
  induction has with
  | nil => simpa using hbs
  | @number _ _ n d _ _ hmt hhead hsimple _ ih =>
      rw [List.append_assoc, Nat.add_right_comm]
      exact .number hmt hhead hsimple ih
  | @string _ _ n d _ _ _ hmt hhead hlen _ ih =>
      rw [List.append_assoc, Nat.add_right_comm]
      exact .string hmt hhead hlen ih
  | @chunked _ n d _ _ _ hmt hhead hchunks _ ih =>
      rw [List.append_assoc, Nat.add_right_comm]
      exact .chunked hmt hhead hchunks ih
  | @array _ n d _ _ _ _ hhead hbody _ _ ih =>
      rw [List.append_assoc, Nat.add_right_comm, max_assoc]
      exact .array hhead hbody ih
  | @map _ n d _ _ _ _ hhead hbody _ _ ih =>
      rw [List.append_assoc, Nat.add_right_comm, max_assoc]
      exact .map hhead hbody ih
  | @openArray _ n d _ _ _ _ hhead hbody _ _ ih =>
      rw [List.append_assoc, Nat.add_right_comm, max_assoc]
      exact .openArray hhead hbody ih
  | @openMap _ n d _ _ _ _ hhead hbody _ _ ih =>
      rw [List.append_assoc, Nat.add_right_comm, max_assoc]
      exact .openMap hhead hbody ih
  | @tag _ n d _ _ hhead _ ih =>
      rw [List.append_assoc, Nat.add_right_comm]
      rw [Nat.add_right_comm] at ih
      exact .tag hhead ih

/-! ### How deep the containers are nested -/

/-- Is the item an array or a map? -/
def isContainer (item : Bytes) : Bool :=
  match item with
  | [] => false
  | b :: _ => major b == 4 || major b == 5

/-- The depth of the items at the front. -/
def deepest : ℕ → Bytes → ℕ
  | 0, _ => 0
  | fuel + 1, bs =>
      if tagged bs then deepest fuel (bs.drop (headLength bs))
      else
        match reader.next bs with
        | none => 0
        | some (n, item) =>
            max (if isContainer item then deepest fuel (item.drop (headLength item)) + 1 else 0)
              (deepest fuel (bs.drop n))

def depth (item : Bytes) : ℕ := deepest (item.length + 1) item

theorem IsHead.headLength_append {mt v : ℕ} {h : Bytes} (hhead : IsHead mt v h) (rest : Bytes) :
    headLength (h ++ rest) = h.length := by
  cases hhead with
  | short _ hinfo => simp [headLength, hinfo]
  | long _ hinfo hinfo' hlen =>
      simp only [List.cons_append, headLength, List.length_cons, hlen]
      rw [if_neg (by omega), Nat.add_comm]

theorem IsHead.tagged_append {mt v : ℕ} {h : Bytes} (hhead : IsHead mt v h) (rest : Bytes) :
    tagged (h ++ rest) = (mt == 6) := by
  cases hhead with
  | short hmt => simp [tagged, hmt]
  | long hmt => simp [tagged, hmt]

theorem IsHead.isContainer_append {mt v : ℕ} {h : Bytes} (hhead : IsHead mt v h) (rest : Bytes) :
    isContainer (h ++ rest) = (mt == 4 || mt == 5) := by
  cases hhead with
  | short hmt => simp [isContainer, hmt]
  | long hmt => simp [isContainer, hmt]

theorem opens.front {b : UInt8} {mt : ℕ} (h : opens b mt) (rest : Bytes) :
    tagged (b :: rest) = (mt == 6) ∧ isContainer (b :: rest) = (mt == 4 || mt == 5) ∧
      headLength (b :: rest) = 1 := by
  obtain ⟨hmt, hinfo⟩ := h
  simp [tagged, isContainer, headLength, hmt, hinfo]

theorem tagged_append {item : Bytes} (hne : item ≠ []) (rest : Bytes) :
    tagged (item ++ rest) = tagged item := by
  cases item with
  | nil => exact absurd rfl hne
  | cons b item => rfl

/-- The depth of an item and of what follows it. -/
theorem deepest_item {d fuel : ℕ} {item : Bytes} (h : Items 1 d item) (htag : tagged item = false)
    (rest : Bytes) : deepest (fuel + 1) (item ++ rest) =
      max (if isContainer item then deepest fuel (item.drop (headLength item)) + 1 else 0)
        (deepest fuel rest) := by
  have htag' := (tagged_append (List.ne_nil_of_length_pos h.length_pos) rest).trans htag
  rw [deepest, if_neg (by rw [htag']; exact Bool.false_ne_true), h.next rest]
  simp only [List.drop_left]

theorem deepest_leaf {d fuel : ℕ} {item : Bytes} (h : Items 1 d item) (htag : tagged item = false)
    (hleaf : isContainer item = false) (rest : Bytes) :
    deepest (fuel + 1) (item ++ rest) = deepest fuel rest := by
  rw [deepest_item h htag, hleaf, if_neg Bool.false_ne_true, Nat.zero_max]

theorem deepest_container {d e fuel : ℕ} {item : Bytes} (h : Items 1 e item)
    (htag : tagged item = false) (hcont : isContainer item = true)
    (hbody : deepest fuel (item.drop (headLength item)) = d) (rest : Bytes) :
    deepest (fuel + 1) (item ++ rest) = max (d + 1) (deepest fuel rest) := by
  rw [deepest_item h htag, hcont, if_pos rfl, hbody]

theorem deepest_closed {mt v d fuel : ℕ} {h body : Bytes} (hhead : IsHead mt v h)
    (hmt : mt = 4 ∨ mt = 5) (hitem : Items 1 (d + 1) (h ++ body)) (hbody : deepest fuel body = d)
    (rest : Bytes) : deepest (fuel + 1) (h ++ body ++ rest) = max (d + 1) (deepest fuel rest) := by
  refine deepest_container hitem ?_ ?_ ?_ rest
  · rw [hhead.tagged_append]
    rcases hmt with rfl | rfl <;> rfl
  · rw [hhead.isContainer_append]
    rcases hmt with rfl | rfl <;> rfl
  · rw [hhead.headLength_append, List.drop_left, hbody]

theorem deepest_opened {mt d fuel : ℕ} {b : UInt8} {body : Bytes} (hhead : opens b mt)
    (hmt : mt = 4 ∨ mt = 5) (hitem : Items 1 (d + 1) (b :: body ++ [0xff]))
    (hbody : deepest fuel (body ++ [0xff]) = d) (rest : Bytes) :
    deepest (fuel + 1) (b :: body ++ [0xff] ++ rest) = max (d + 1) (deepest fuel rest) := by
  obtain ⟨hfront, hcont, hlen⟩ := hhead.front (body ++ [0xff])
  refine deepest_container hitem ?_ ?_ ?_ rest
  · rw [List.cons_append, hfront]
    rcases hmt with rfl | rfl <;> rfl
  · rw [List.cons_append, hcont]
    rcases hmt with rfl | rfl <;> rfl
  · rw [List.cons_append, hlen]
    exact hbody

/-- **The depth that is computed is that of the grammar.** -/
theorem Items.deepest_eq {n d fuel : ℕ} {bs : Bytes} (h : Items n d bs) (hfuel : bs.length < fuel)
    {tail : Bytes} (htail : reader.next tail = none) (htag : tagged tail = false) :
    deepest fuel (bs ++ tail) = d := by
  induction h generalizing fuel tail with
  | nil =>
      obtain ⟨fuel, rfl⟩ := Nat.exists_eq_succ_of_ne_zero (Nat.ne_of_gt hfuel)
      simp [deepest, htag, htail]
  | @number mt v n d h rest hmt hhead hsimple _ ih =>
      obtain ⟨fuel, rfl⟩ := Nat.exists_eq_succ_of_ne_zero (Nat.ne_of_gt (Nat.zero_lt_of_lt hfuel))
      have hitem : Items 1 0 h := by simpa using Items.number hmt hhead hsimple .nil
      have hfront := hhead.tagged_append []
      have hcont := hhead.isContainer_append []
      rw [List.append_nil] at hfront hcont
      have hpos := hhead.length_pos
      rw [List.length_append] at hfuel
      rw [List.append_assoc, deepest_leaf hitem
        (by rw [hfront]; rcases hmt with rfl | rfl | rfl <;> rfl)
        (by rw [hcont]; rcases hmt with rfl | rfl | rfl <;> rfl)]
      exact ih (by omega) htail htag
  | @string mt v n d h content rest hmt hhead hlen _ ih =>
      obtain ⟨fuel, rfl⟩ := Nat.exists_eq_succ_of_ne_zero (Nat.ne_of_gt (Nat.zero_lt_of_lt hfuel))
      have hitem : Items 1 0 (h ++ content) := by simpa using Items.string hmt hhead hlen .nil
      have hpos := hhead.length_pos
      rw [List.length_append, List.length_append] at hfuel
      rw [List.append_assoc, deepest_leaf hitem
        (by rw [hhead.tagged_append]; rcases hmt with rfl | rfl <;> rfl)
        (by rw [hhead.isContainer_append]; rcases hmt with rfl | rfl <;> rfl)]
      exact ih (by omega) htail htag
  | @chunked mt n d b chunks rest hmt hhead hchunks _ ih =>
      obtain ⟨fuel, rfl⟩ := Nat.exists_eq_succ_of_ne_zero (Nat.ne_of_gt (Nat.zero_lt_of_lt hfuel))
      have hitem : Items 1 0 (b :: chunks ++ [0xff]) := by
        simpa using Items.chunked hmt hhead hchunks .nil
      obtain ⟨hfront, hcont, -⟩ := hhead.front (chunks ++ [0xff])
      rw [List.length_append, List.length_append, List.length_cons] at hfuel
      rw [List.append_assoc, deepest_leaf hitem
        (by rw [List.cons_append, hfront]; rcases hmt with rfl | rfl <;> rfl)
        (by rw [List.cons_append, hcont]; rcases hmt with rfl | rfl <;> rfl)]
      exact ih (by omega) htail htag
  | @array v n d e h body rest hhead hbody _ ihbody ih =>
      obtain ⟨fuel, rfl⟩ := Nat.exists_eq_succ_of_ne_zero (Nat.ne_of_gt (Nat.zero_lt_of_lt hfuel))
      have hpos := hhead.length_pos
      rw [List.length_append, List.length_append] at hfuel
      have hitem : Items 1 (d + 1) (h ++ body) := by simpa using Items.array hhead hbody .nil
      have hlt : body.length < fuel := by omega
      have hin : deepest fuel body = d := by simpa using ihbody hlt reader.next_nil rfl
      rw [List.append_assoc, deepest_closed hhead (.inl rfl) hitem hin, ih (by omega) htail htag]
  | @map v n d e h body rest hhead hbody _ ihbody ih =>
      obtain ⟨fuel, rfl⟩ := Nat.exists_eq_succ_of_ne_zero (Nat.ne_of_gt (Nat.zero_lt_of_lt hfuel))
      have hpos := hhead.length_pos
      rw [List.length_append, List.length_append] at hfuel
      have hitem : Items 1 (d + 1) (h ++ body) := by simpa using Items.map hhead hbody .nil
      have hlt : body.length < fuel := by omega
      have hin : deepest fuel body = d := by simpa using ihbody hlt reader.next_nil rfl
      rw [List.append_assoc, deepest_closed hhead (.inr rfl) hitem hin, ih (by omega) htail htag]
  | @openArray v n d e b body rest hhead hbody _ ihbody ih =>
      obtain ⟨fuel, rfl⟩ := Nat.exists_eq_succ_of_ne_zero (Nat.ne_of_gt (Nat.zero_lt_of_lt hfuel))
      rw [List.length_append, List.length_append, List.length_cons] at hfuel
      have hitem : Items 1 (d + 1) (b :: body ++ [0xff]) := by
        simpa using Items.openArray hhead hbody .nil
      have hin : deepest fuel (body ++ [0xff]) = d := ihbody (by omega) rfl rfl
      rw [List.append_assoc, deepest_opened hhead (.inl rfl) hitem hin, ih (by omega) htail htag]
  | @openMap v n d e b body rest hhead hbody _ ihbody ih =>
      obtain ⟨fuel, rfl⟩ := Nat.exists_eq_succ_of_ne_zero (Nat.ne_of_gt (Nat.zero_lt_of_lt hfuel))
      rw [List.length_append, List.length_append, List.length_cons] at hfuel
      have hitem : Items 1 (d + 1) (b :: body ++ [0xff]) := by
        simpa using Items.openMap hhead hbody .nil
      have hin : deepest fuel (body ++ [0xff]) = d := ihbody (by omega) rfl rfl
      rw [List.append_assoc, deepest_opened hhead (.inr rfl) hitem hin, ih (by omega) htail htag]
  | @tag v n d h rest hhead _ ih =>
      -- the depth is that of the items behind the tag
      obtain ⟨fuel, rfl⟩ := Nat.exists_eq_succ_of_ne_zero (Nat.ne_of_gt (Nat.zero_lt_of_lt hfuel))
      have hpos := hhead.length_pos
      rw [List.length_append] at hfuel
      rw [List.append_assoc, deepest, hhead.tagged_append, if_pos (beq_self_eq_true 6),
        hhead.headLength_append, List.drop_left]
      exact ih (by omega) htail htag

/-- Something follows a tag. -/
theorem Items.headLength_lt {d : ℕ} {item : Bytes} (h : Items 1 d item) (htag : tagged item = true) :
    headLength item < item.length := by
  cases h with
  | number hmt hhead =>
      rw [hhead.tagged_append] at htag
      rcases hmt with rfl | rfl | rfl <;> cases htag
  | string hmt hhead =>
      rw [List.append_assoc, hhead.tagged_append] at htag
      rcases hmt with rfl | rfl <;> cases htag
  | chunked hmt hhead =>
      rw [List.append_assoc, List.cons_append, (hhead.front _).1] at htag
      rcases hmt with rfl | rfl <;> cases htag
  | array hhead =>
      rw [List.append_assoc, hhead.tagged_append] at htag
      cases htag
  | map hhead =>
      rw [List.append_assoc, hhead.tagged_append] at htag
      cases htag
  | openArray hhead =>
      rw [List.append_assoc, List.cons_append, (hhead.front _).1] at htag
      cases htag
  | openMap hhead =>
      rw [List.append_assoc, List.cons_append, (hhead.front _).1] at htag
      cases htag
  | tag hhead hrest =>
      have hpos := hrest.length_pos
      rw [hhead.headLength_append, List.length_append]
      omega

theorem Items.depth_eq {d : ℕ} {item : Bytes} (h : Items 1 d item) : depth item = d := by
  simpa [depth] using h.deepest_eq (Nat.lt_succ_self _) reader.next_nil rfl

end Cbor
