/-
**Decoding the text of a URL (`utils/urldecode.c`).**

A percent sign with two hex digits behind it stands for a byte, and a plus sign for a space.  The
source is a slice: it ends at its length or at its first terminator, and it is read together with
what lies behind it in memory, since the loop looks two bytes ahead at every character.

Main definitions:

* `Jade.urldecode` — the decoder, over a slice and the bytes behind it;
* `Jade.urlUnits`, `Jade.urlText` — the characters and escapes of a text, and what they stand for;
* `Jade.reached` — where the characters and escapes begin that are looked at before the destination
  is full.

Main results:

* `Jade.urldecode_eq` — **the text is decoded**, or cut off where the destination is full, when there
  are two bytes to read behind the slice;
* `Jade.urldecode_iff` — **the slice is enough** just when all that is reached begins three bytes
  before its end, or earlier.
-/

import Jade.Lib.CText
import Jade.Lib.Exec
import Jade.Wallet.Script

set_option relaxedAutoImplicit false
set_option autoImplicit false

namespace Jade

open Exec

/-! ### The decoder -/

/-- `isxdigit` -/
def isXDigit (c : UInt8) : Bool :=
  isDigit c || (0x41 ≤ c && c ≤ 0x46) || (0x61 ≤ c && c ≤ 0x66)

/-- `map_char`, for a hex digit. -/
def mapChar (c : UInt8) : UInt8 :=
  let c := if 0x61 ≤ c then c - 0x20 else c
  if 0x41 ≤ c then c - (0x41 - 10) else c - 0x30

/-- The byte at some distance from the position, in the rest of the slice or behind it; further away
there is nothing that may be read. -/
def lookAhead (behind src : Bytes) (distance : ℕ) : Except Fault UInt8 :=
  match (src ++ behind)[distance]? with
  | some c => .ok c
  | none => .error .overflow

/-- Behind the loop: the terminator. -/
def urlEnd (destLen : ℕ) (dest : Bytes) (fits : Bool) : Except Fault (Bytes × Bool) := do
  jadeVerify (decide (dest.length < destLen))
  return (← put destLen dest [0], fits)

/-- The loop of `urldecode` over the rest of the slice; every turn takes at least one byte. -/
def urldecodeLoop (behind : Bytes) (destLen : ℕ) : ℕ → Bytes → Bytes → Except Fault (Bytes × Bool)
  | 0, _, dest => urlEnd destLen dest true
  | _, [], dest => urlEnd destLen dest true
  | fuel + 1, c :: src, dest =>
      if c = 0 then urlEnd destLen dest true
      -- the last place is for the terminator
      else if dest.length = destLen - 1 then urlEnd destLen dest false
      else do
        let c1 ← lookAhead behind (c :: src) 1
        let c2 ← lookAhead behind (c :: src) 2
        if c = 0x25 ∧ 2 ≤ src.length ∧ isXDigit c1 ∧ isXDigit c2 then
          urldecodeLoop behind destLen fuel (src.drop 2)
            (← put destLen dest [16 * mapChar c1 + mapChar c2])
        else if c = 0x2b then
          urldecodeLoop behind destLen fuel src (← put destLen dest [0x20])
        else urldecodeLoop behind destLen fuel src (← put destLen dest [c])

/-- `urldecode`: what is in the destination, and whether the text fits. -/
def urldecode (behind src : Bytes) (destLen : ℕ) : Except Fault (Bytes × Bool) := do
  jadeVerify (!src.isEmpty)
  jadeVerify (decide (0 < destLen))
  urldecodeLoop behind destLen src.length src []

/-! ### What a text stands for -/

/-- The characters of a text, with a percent sign and two hex digits as one. -/
def urlUnits : Bytes → List Bytes
  | [] => []
  | [c] => [[c]]
  | [c, d] => [[c], [d]]
  | c :: c1 :: c2 :: cs =>
      if c = 0x25 ∧ isXDigit c1 ∧ isXDigit c2 then [c, c1, c2] :: urlUnits cs
      else [c] :: urlUnits (c1 :: c2 :: cs)

/-- What a character or an escape stands for. -/
def urlByte : Bytes → UInt8
  | [_, c1, c2] => 16 * mapChar c1 + mapChar c2
  | [c] => if c = 0x2b then 0x20 else c
  | _ => 0

/-- What a text stands for. -/
def urlText (text : Bytes) : Bytes := (urlUnits text).map urlByte

/-- Where the units of a text begin, when the first begins at `k`. -/
def unitStarts (k : ℕ) : List Bytes → List ℕ
  | [] => []
  | unit :: units => k :: unitStarts (k + unit.length) units

/-- Where the units begin that are reached before `room` of them have been decoded. -/
def reached (src : Bytes) (room : ℕ) : List ℕ :=
  (unitStarts 0 (urlUnits (Bytes.cstr src))).take room

/-- What the decoder leaves behind: as much of the text as there is room for with a terminator, and
whether this is all of it. -/
def urlDecoded (src : Bytes) (destLen : ℕ) : Bytes × Bool :=
  ((urlText (Bytes.cstr src)).take (destLen - 1) ++ [0],
    decide ((urlText (Bytes.cstr src)).length + 1 ≤ destLen))

/-! ### The units of a text -/

theorem urlUnits_cons (c : UInt8) (cs : Bytes) :
    urlUnits (c :: cs) = [c] :: urlUnits cs ∨
      ∃ c1 c2 rest, cs = c1 :: c2 :: rest ∧ (c = 0x25 ∧ isXDigit c1 ∧ isXDigit c2) ∧
        urlUnits (c :: cs) = [c, c1, c2] :: urlUnits rest := by
  rcases cs with _ | ⟨c1, _ | ⟨c2, rest⟩⟩
  · exact .inl rfl
  · exact .inl rfl
  · rw [urlUnits]
    by_cases hescape : c = 0x25 ∧ isXDigit c1 ∧ isXDigit c2
    · rw [if_pos hescape]
      exact .inr ⟨c1, c2, rest, rfl, hescape, rfl⟩
    · rw [if_neg hescape]
      exact .inl rfl

theorem unitStarts_add (k l : ℕ) (units : List Bytes) :
    unitStarts (k + l) units = (unitStarts l units).map (k + ·) := by
  induction units generalizing l with
  | nil => rfl
  | cons unit units ih =>
      rw [unitStarts, unitStarts, List.map_cons, Nat.add_assoc, ih]

theorem ne_zero_of_isXDigit {c : UInt8} (h : isXDigit c = true) : c ≠ 0 := by
  rintro rfl
  exact absurd h (by decide)

theorem cstr_cons {c : UInt8} (hc : c ≠ 0) (cs : Bytes) :
    Bytes.cstr (c :: cs) = c :: Bytes.cstr cs := by simp [Bytes.cstr, hc]

/-- The first unit of a slice, and the slice behind it. -/
theorem urlUnits_cstr_cons {c : UInt8} (hc : c ≠ 0) (src : Bytes) :
    (∃ c1 c2 rest, src = c1 :: c2 :: rest ∧ (c = 0x25 ∧ isXDigit c1 ∧ isXDigit c2) ∧
      urlUnits (Bytes.cstr (c :: src)) = [c, c1, c2] :: urlUnits (Bytes.cstr rest)) ∨
    ((∀ c1 c2 rest, src = c1 :: c2 :: rest → ¬(c = 0x25 ∧ isXDigit c1 ∧ isXDigit c2)) ∧
      urlUnits (Bytes.cstr (c :: src)) = [c] :: urlUnits (Bytes.cstr src)) := by
  rw [cstr_cons hc]
  by_cases hescape : ∃ c1 c2 rest, src = c1 :: c2 :: rest ∧ c = 0x25 ∧ isXDigit c1 ∧ isXDigit c2
  · obtain ⟨c1, c2, rest, rfl, hdigits⟩ := hescape
    refine .inl ⟨c1, c2, rest, rfl, hdigits, ?_⟩
    rw [cstr_cons (ne_zero_of_isXDigit hdigits.2.1), cstr_cons (ne_zero_of_isXDigit hdigits.2.2),
      urlUnits, if_pos hdigits]
  · have hno : ∀ c1 c2 rest, src = c1 :: c2 :: rest →
        ¬(c = 0x25 ∧ isXDigit c1 ∧ isXDigit c2) := by
      intro c1 c2 rest hsrc hdigits
      exact hescape ⟨c1, c2, rest, hsrc, hdigits⟩
    refine .inr ⟨hno, ?_⟩
    rcases urlUnits_cons c (Bytes.cstr src) with hunits | ⟨c1, c2, rest, hcstr, hdigits, -⟩
    · exact hunits
    · -- the digits are in the slice as well
      exfalso
      obtain ⟨tail, htail⟩ : Bytes.cstr src <+: src := List.takeWhile_prefix _
      rw [hcstr] at htail
      exact hno c1 c2 (rest ++ tail) htail.symm hdigits

/-! ### The loop -/

theorem lookAhead_eq_ok {behind src : Bytes} {distance : ℕ}
    (h : distance < src.length + behind.length) :
    ∃ c, lookAhead behind src distance = .ok c ∧
      (distance < src.length → src[distance]? = some c) := by
  have hlt : distance < (src ++ behind).length := by rwa [List.length_append]
  refine ⟨(src ++ behind)[distance], ?_, ?_⟩
  · rw [lookAhead, List.getElem?_eq_getElem hlt]
  · intro hsrc
    rw [List.getElem_append_left hsrc, List.getElem?_eq_getElem hsrc]

theorem lookAhead_eq_error {behind src : Bytes} {distance : ℕ}
    (h : src.length + behind.length ≤ distance) :
    lookAhead behind src distance = .error .overflow := by
  rw [lookAhead, List.getElem?_eq_none (by rwa [List.length_append])]

theorem urlEnd_eq {destLen : ℕ} {dest : Bytes} (h : dest.length < destLen) (fits : Bool) :
    urlEnd destLen dest fits = .ok (dest ++ [0], fits) := by
  rw [urlEnd, jadeVerify_bind (decide_eq_true h), put_eq_ok (Nat.succ_le_of_lt h)]
  rfl

/-- The units that the loop still reaches can be read, with `room` places left before the last. -/
def Readable (behind src : Bytes) (room : ℕ) : Prop :=
  ∀ p ∈ reached src room, p + 2 < src.length + behind.length

/-- When there is room for one more unit, it has to be readable, and what comes behind it. -/
theorem readable_succ {behind src rest unit : Bytes} {room : ℕ}
    (hunits : urlUnits (Bytes.cstr src) = unit :: urlUnits (Bytes.cstr rest))
    (hlen : src.length = unit.length + rest.length) :
    Readable behind src (room + 1) ↔
      2 < src.length + behind.length ∧ Readable behind rest room := by
  have hreached : reached src (room + 1) = 0 :: (reached rest room).map (unit.length + ·) := by
    rw [reached, hunits, unitStarts, Nat.zero_add, List.take_succ_cons, reached, List.map_take,
      ← unitStarts_add, Nat.add_zero]
  rw [Readable, Readable, hreached]
  simp only [List.mem_cons, List.mem_map]
  constructor
  · intro h
    refine ⟨by simpa using h 0 (.inl rfl), ?_⟩
    intro p hp
    have := h (unit.length + p) (.inr ⟨p, hp, rfl⟩)
    omega
  · rintro ⟨hfirst, hrest⟩ p (rfl | ⟨q, hq, rfl⟩)
    · simpa using hfirst
    · have := hrest q hq
      omega

/-- One turn of the loop: a unit is looked at and what it stands for is written. -/
theorem urldecodeLoop_cons {behind : Bytes} {destLen fuel : ℕ} {c : UInt8} {src dest : Bytes}
    (hc : c ≠ 0) (hroom : dest.length + 1 < destLen) :
    ∃ unit rest, urlUnits (Bytes.cstr (c :: src)) = unit :: urlUnits (Bytes.cstr rest) ∧
      (c :: src).length = unit.length + rest.length ∧ 0 < unit.length ∧
        urldecodeLoop behind destLen (fuel + 1) (c :: src) dest =
          if 2 < (c :: src).length + behind.length then
            urldecodeLoop behind destLen fuel rest (dest ++ [urlByte unit])
          else .error .overflow := by
  rw [urldecodeLoop, if_neg hc, if_neg (by omega)]
  have hput : ∀ b : UInt8, put destLen dest [b] = .ok (dest ++ [b]) :=
    fun b => put_eq_ok (Nat.le_of_lt hroom)
  rcases urlUnits_cstr_cons hc src with ⟨c1, c2, rest, rfl, hdigits, hunits⟩ | ⟨hno, hunits⟩
  · refine ⟨[c, c1, c2], rest, hunits, ?_, by simp, ?_⟩
    · simp only [List.length_cons, List.length_nil]
      omega
    · have hread : 2 < (c :: c1 :: c2 :: rest).length + behind.length := by
        simp only [List.length_cons]
        omega
      have h1 : lookAhead behind (c :: c1 :: c2 :: rest) 1 = .ok c1 := rfl
      have h2 : lookAhead behind (c :: c1 :: c2 :: rest) 2 = .ok c2 := rfl
      rw [if_pos hread, h1, ok_bind, h2, ok_bind, if_pos ⟨hdigits.1, by simp, hdigits.2⟩, hput,
        ok_bind]
      rfl
  · refine ⟨[c], src, hunits, by simp [Nat.add_comm], by simp, ?_⟩
    by_cases hread : 2 < (c :: src).length + behind.length
    · obtain ⟨d1, h1, hd1⟩ := lookAhead_eq_ok (show 1 < (c :: src).length + behind.length by omega)
      obtain ⟨d2, h2, hd2⟩ := lookAhead_eq_ok hread
      rw [if_pos hread, h1, ok_bind, h2, ok_bind, if_neg]
      · by_cases hplus : c = 0x2b
        · rw [if_pos hplus, hput, ok_bind, urlByte, if_pos hplus]
        · rw [if_neg hplus, hput, ok_bind, urlByte, if_neg hplus]
      · rintro ⟨hpercent, hlen, hdigits⟩
        rcases src with _ | ⟨c1, _ | ⟨c2, rest⟩⟩
        · exact absurd hlen (by simp)
        · exact absurd hlen (by simp)
        · obtain rfl : c1 = d1 := Option.some.inj (hd1 (by simp))
          obtain rfl : c2 = d2 := Option.some.inj (hd2 (by simp))
          exact hno c1 c2 rest rfl ⟨hpercent, hdigits⟩
    · rw [if_neg hread]
      cases hfirst : lookAhead behind (c :: src) 1 with
      | error f =>
          rw [lookAhead] at hfirst
          split at hfirst
          · cases hfirst
          · cases hfirst
            rfl
      | ok d1 =>
          rw [ok_bind, lookAhead_eq_error (Nat.le_of_not_lt hread)]
          rfl

/-- What the loop makes of the rest of a slice: it decodes what there is room for, when it can read
ahead at every unit it reaches. -/
def LoopDecodes (behind : Bytes) (destLen : ℕ) (src dest : Bytes)
    (result : Except Fault (Bytes × Bool)) : Prop :=
  (Readable behind src (destLen - 1 - dest.length) →
    result = .ok ((dest ++ urlText (Bytes.cstr src)).take (destLen - 1) ++ [0],
      decide (dest.length + (urlText (Bytes.cstr src)).length + 1 ≤ destLen))) ∧
  (¬Readable behind src (destLen - 1 - dest.length) → result = .error .overflow)

/-- A text that has ended. -/
theorem loopDecodes_nil {behind : Bytes} {destLen : ℕ} {src dest : Bytes}
    (hsrc : Bytes.cstr src = []) (hdest : dest.length < destLen) :
    LoopDecodes behind destLen src dest (urlEnd destLen dest true) := by
  have htext : urlText [] = [] := rfl
  have hreadable : Readable behind src (destLen - 1 - dest.length) := by
    intro p hp
    simp [reached, hsrc, urlUnits, unitStarts] at hp
  refine ⟨fun _ => ?_, fun h => absurd hreadable h⟩
  rw [urlEnd_eq hdest, hsrc, htext, List.append_nil, List.take_of_length_le (by omega),
    List.length_nil, Nat.add_zero, decide_eq_true (Nat.succ_le_of_lt hdest)]

/-- A text that goes on, with no room but for the terminator. -/
theorem loopDecodes_full {behind : Bytes} {destLen : ℕ} {c : UInt8} {src dest : Bytes} (hc : c ≠ 0)
    (hdest : dest.length + 1 = destLen) :
    LoopDecodes behind destLen (c :: src) dest (urlEnd destLen dest false) := by
  have hroom : destLen - 1 - dest.length = 0 := by omega
  have htext : urlText (Bytes.cstr (c :: src)) ≠ [] := by
    rw [cstr_cons hc, urlText]
    rcases urlUnits_cons c (Bytes.cstr src) with hunits | ⟨c1, c2, rest, -, -, hunits⟩ <;>
      simp [hunits]
  have hpos := List.length_pos_iff.2 htext
  have hreadable : Readable behind (c :: src) (destLen - 1 - dest.length) := by
    intro p hp
    rw [hroom, reached, List.take_zero] at hp
    exact absurd hp List.not_mem_nil
  refine ⟨fun _ => ?_, fun h => absurd hreadable h⟩
  rw [urlEnd_eq (by omega), List.take_left' (by omega), decide_eq_false (by omega)]

/-- **The loop decodes what there is room for.** -/
theorem urldecodeLoop_decodes {behind : Bytes} {destLen fuel : ℕ} {src dest : Bytes}
    (hfuel : src.length ≤ fuel) (hdest : dest.length < destLen) :
    LoopDecodes behind destLen src dest (urldecodeLoop behind destLen fuel src dest) := by
  induction fuel generalizing src dest with
  | zero =>
      obtain rfl : src = [] := List.eq_nil_of_length_eq_zero (Nat.le_zero.1 hfuel)
      exact loopDecodes_nil rfl hdest
  | succ fuel ih =>
      cases src with
      | nil => exact loopDecodes_nil rfl hdest
      | cons c src =>
          by_cases hc : c = 0
          · rw [urldecodeLoop, if_pos hc]
            exact loopDecodes_nil (by simp [Bytes.cstr, hc]) hdest
          · by_cases hfull : dest.length = destLen - 1
            · rw [urldecodeLoop, if_neg hc, if_pos hfull]
              exact loopDecodes_full hc (by omega)
            · have hroom : dest.length + 1 < destLen := by omega
              obtain ⟨unit, rest, hunits, hlen, hpos, hrun⟩ :=
                @urldecodeLoop_cons behind destLen fuel c src dest hc hroom
              have hsucc : destLen - 1 - dest.length = destLen - 1 - (dest.length + 1) + 1 := by
                omega
              have htext : urlText (Bytes.cstr (c :: src)) =
                  urlByte unit :: urlText (Bytes.cstr rest) := by
                rw [urlText, hunits, List.map_cons, ← urlText]
              have hrest := @ih rest (dest ++ [urlByte unit]) (by omega)
                (by rw [List.length_append, List.length_singleton]; omega)
              rw [LoopDecodes, List.length_append, List.length_singleton] at hrest
              rw [hrun, LoopDecodes, hsucc, readable_succ hunits hlen, htext]
              by_cases hread : 2 < (c :: src).length + behind.length
              · rw [if_pos hread, and_iff_right hread, List.length_cons]
                simp only [List.append_assoc, List.singleton_append] at hrest
                rw [show dest.length + ((urlText (Bytes.cstr rest)).length + 1) =
                  dest.length + 1 + (urlText (Bytes.cstr rest)).length by omega]
                exact hrest
              · rw [if_neg hread]
                exact ⟨fun h => absurd h.1 hread, fun _ => rfl⟩

/-! ### The result -/

/-- The units are all of the text. -/
theorem urlUnits_flatten (text : Bytes) :
    (urlUnits text).flatten = text ∧ ∀ unit ∈ urlUnits text, unit ≠ [] := by
  induction text using urlUnits.induct with
  | case1 => simp [urlUnits]
  | case2 c => simp [urlUnits]
  | case3 c d => simp [urlUnits]
  | case4 c c1 c2 cs hescape ih =>
      rw [urlUnits, if_pos hescape, List.flatten_cons, ih.1]
      exact ⟨rfl, List.forall_mem_cons.2 ⟨by simp, ih.2⟩⟩
  | case5 c c1 c2 cs hescape ih =>
      rw [urlUnits, if_neg hescape, List.flatten_cons, ih.1]
      exact ⟨rfl, List.forall_mem_cons.2 ⟨by simp, ih.2⟩⟩

theorem lt_of_mem_unitStarts {k p : ℕ} {units : List Bytes} (hne : ∀ unit ∈ units, unit ≠ [])
    (hp : p ∈ unitStarts k units) : p < k + units.flatten.length := by
  induction units generalizing k with
  | nil => exact absurd hp List.not_mem_nil
  | cons unit units ih =>
      obtain ⟨hunit, hunits⟩ := List.forall_mem_cons.1 hne
      have hpos := List.length_pos_iff.2 hunit
      rw [List.flatten_cons, List.length_append]
      rcases List.mem_cons.1 hp with rfl | hp
      · omega
      · have := ih hunits hp
        omega

/-- A unit begins inside the slice. -/
theorem lt_of_mem_reached {src : Bytes} {room p : ℕ} (hp : p ∈ reached src room) :
    p < src.length := by
  obtain ⟨hflatten, hne⟩ := urlUnits_flatten (Bytes.cstr src)
  have hlt := lt_of_mem_unitStarts hne (List.mem_of_mem_take hp)
  have hle : (Bytes.cstr src).length ≤ src.length := (List.takeWhile_prefix _).length_le
  rw [hflatten] at hlt
  omega

/-- The whole run: the text is decoded when the bytes ahead of every unit can be read. -/
theorem urldecode_decodes {behind src : Bytes} {destLen : ℕ} (hsrc : src ≠ [])
    (hdest : 0 < destLen) : LoopDecodes behind destLen src [] (urldecode behind src destLen) := by
  rw [urldecode, jadeVerify_bind (by simpa using hsrc), jadeVerify_bind (decide_eq_true hdest)]
  exact urldecodeLoop_decodes (Nat.le_refl _) hdest

/-- **The text is decoded, or cut off where the destination is full**, when there are two bytes to
read behind the slice. -/
theorem urldecode_eq {behind src : Bytes} {destLen : ℕ} (hsrc : src ≠ []) (hdest : 0 < destLen)
    (hbehind : 2 ≤ behind.length) :
    urldecode behind src destLen = .ok (urlDecoded src destLen) := by
  have hreadable : Readable behind src (destLen - 1 - 0) := by
    intro p hp
    have := lt_of_mem_reached hp
    omega
  rw [(urldecode_decodes hsrc hdest).1 hreadable, urlDecoded, List.nil_append, List.length_nil,
    Nat.zero_add]

/-- **The slice alone is enough** just when every character and escape that is reached begins three
bytes before its end, or earlier. -/
theorem urldecode_iff {src : Bytes} {destLen : ℕ} (hsrc : src ≠ []) (hdest : 0 < destLen) :
    (urldecode [] src destLen = .ok (urlDecoded src destLen) ↔
      ∀ p ∈ reached src (destLen - 1), p + 2 < src.length) ∧
    ∀ behind : Bytes, 2 ≤ behind.length →
      urldecode behind src destLen = .ok (urlDecoded src destLen) := by
  obtain ⟨hok, herror⟩ := @urldecode_decodes [] src destLen hsrc hdest
  refine ⟨⟨?_, ?_⟩, fun behind hbehind => urldecode_eq hsrc hdest hbehind⟩
  · intro hrun p hp
    by_contra hlt
    rw [herror (fun hreadable => hlt (hreadable p hp))] at hrun
    cases hrun
  · intro hreadable
    rw [hok hreadable, urlDecoded, List.nil_append, List.length_nil, Nat.zero_add]

/-- A label with a terminator well before the end of the slice is decoded without looking further. -/
theorem urldecode_iff_label :
    urldecode [] (ascii "a%20b+c" ++ [0, 0, 0]) 16 = .ok (ascii "a b c" ++ [0], true) :=
  ((urldecode_iff (by simp) (by decide)).1.2 (by decide)).trans (by decide)

/-- The last two characters of a slice without a terminator are decoded only by reading behind it. -/
theorem urldecode_reads_behind :
    urldecode [] (ascii "label") 64 = .error .overflow ∧
      ¬(urldecode [] (ascii "label") 64 = .ok (urlDecoded (ascii "label") 64)) := by
  have hrun : urldecode [] (ascii "label") 64 = .error .overflow := by decide +kernel
  refine ⟨hrun, ?_⟩
  rw [hrun]
  intro h
  cases h

end Jade
