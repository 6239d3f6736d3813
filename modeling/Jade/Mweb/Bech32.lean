/-
**The text of an address (`mweb_keychain.c`).**

The payload of an address is regrouped in fives and printed as a bech32 string by functions of this
firmware, which is done in two places.  What they print decodes to the payload: the checksum verifies,
the version is zero and so is the padding.

Main definitions:

* `Jade.Mweb.Prints` — a text that decodes to the payload, and fits its buffers.

Main results:

* `Jade.Mweb.mwebConvertBits_eq` — what the regrouping loop computes;
* `Jade.Mweb.mwebBech32Encode_eq` — the text that is printed;
* `Jade.Mweb.bech32_injective` — **addresses are valid bech32, and different ones differ**.
-/

import Jade.Lib.Bech32
import Jade.Mweb.Address

set_option relaxedAutoImplicit false
set_option autoImplicit false

namespace Jade.Mweb

/-! ### The checksum -/

theorem and_one_eq_one_iff (b i : UInt32) (hi : i.toNat < 32) :
    (b >>> i) &&& 1 = 1 ↔ b.toNat.testBit i.toNat = true := by
  rw [← UInt32.toNat_inj, UInt32.toNat_and, UInt32.toNat_shiftRight, Nat.mod_eq_of_lt hi,
    Nat.testBit_eq_decide_div_mod_eq, decide_eq_true_eq, ← Nat.shiftRight_eq_div_pow]
  exact Eq.congr (Nat.and_one_is_mod _) rfl

theorem toNat_polymodTerm {b i : UInt32} (generator : UInt32) (hi : i.toNat < 32) :
    (polymodTerm b i generator).toNat =
      Bech32.generated (b.toNat.testBit i.toNat) generator.toNat := by
  rw [polymodTerm, Bech32.generated]
  by_cases hbit : b.toNat.testBit i.toNat = true
  · rw [if_pos ((and_one_eq_one_iff b i hi).2 hbit), if_pos hbit]
  · rw [if_neg (fun h => hbit ((and_one_eq_one_iff b i hi).1 h)), if_neg hbit]
    rfl

theorem testBit_top (pre : UInt32) {i : ℕ} (hi : i < 8) :
    ((pre >>> 25) &&& 0xff).toNat.testBit i = pre.toNat.testBit (25 + i) := by
  have hmask : Nat.testBit (UInt32.toNat 0xff) i = true := by
    revert i
    decide
  rw [UInt32.toNat_and, UInt32.toNat_shiftRight, Nat.testBit_and, hmask, Bool.and_true,
    Nat.testBit_shiftRight]
  rfl

/-- The step of the code, with the digit that enters. -/
theorem toNat_mwebBech32PolymodStep (pre v : UInt32) :
    (mwebBech32PolymodStep pre ^^^ v).toNat = Bech32.polymodStep pre.toNat v.toNat := by
  have hlow : ((pre &&& 0x1FFFFFF) <<< 5).toNat = (pre.toNat % 2 ^ 25) <<< 5 := by
    have hmask : pre.toNat &&& (2 ^ 25 - 1) = pre.toNat % 2 ^ 25 :=
      Nat.and_two_pow_sub_one_eq_mod _ _
    have hlt : pre.toNat % 2 ^ 25 < 2 ^ 25 := Nat.mod_lt _ (by decide)
    rw [UInt32.toNat_shiftLeft, UInt32.toNat_and]
    change ((pre.toNat &&& (2 ^ 25 - 1)) <<< 5) % 2 ^ 32 = _
    rw [hmask, Nat.shiftLeft_eq, Nat.mod_eq_of_lt (by omega)]
  simp only [mwebBech32PolymodStep, UInt32.toNat_xor, hlow, Bech32.polymodStep]
  rw [toNat_polymodTerm _ (by decide), toNat_polymodTerm _ (by decide),
    toNat_polymodTerm _ (by decide), toNat_polymodTerm _ (by decide),
    toNat_polymodTerm _ (by decide)]
  simp only [show UInt32.toNat 0 = 0 by rfl, show UInt32.toNat 1 = 1 by rfl,
    show UInt32.toNat 2 = 2 by rfl, show UInt32.toNat 3 = 3 by rfl, show UInt32.toNat 4 = 4 by rfl]
  rw [testBit_top pre (by decide), testBit_top pre (by decide), testBit_top pre (by decide),
    testBit_top pre (by decide), testBit_top pre (by decide)]
  change _ = (pre.toNat % 2 ^ 25) <<< 5 ^^^ v.toNat ^^^ _ ^^^ _ ^^^ _ ^^^ _ ^^^ _
  ac_rfl

/-- A loop over digits. -/
theorem toNat_foldl_polymod {α : Type} (f : α → UInt32) (chk : UInt32) (xs : List α) :
    (xs.foldl (fun chk x => mwebBech32PolymodStep chk ^^^ f x) chk).toNat =
      Bech32.polymod chk.toNat (xs.map fun x => (f x).toNat) := by
  induction xs generalizing chk with
  | nil => rfl
  | cons x xs ih =>
      rw [List.foldl_cons, ih, toNat_mwebBech32PolymodStep, List.map_cons, Bech32.polymod_cons]

/-! ### What is printed -/

theorem toNat_ofNat32 {n : ℕ} (h : n < 2 ^ 32) : (UInt32.ofNat n).toNat = n :=
  UInt32.toNat_ofNat_of_lt' h

theorem bech32Char_eq (d : ℕ) : bech32Char d = Bech32.character d := by
  rw [Bech32.character, List.getD_eq_getElem?_getD]
  rfl

theorem hrpCharValid_iff (ch : Char) : hrpCharValid ch = true ↔ Bech32.IsHrpChar ch := by
  simp only [hrpCharValid, Bech32.IsHrpChar, Bool.not_eq_true', Bool.or_eq_false_iff,
    Bool.and_eq_false_iff, decide_eq_false_iff_not, Nat.not_lt, not_and_or, and_assoc]

theorem map_expand_high {hrp : List Char} (h : ∀ ch ∈ hrp, Bech32.IsHrpChar ch) :
    (hrp.map fun ch => (UInt32.ofNat (ch.toNat >>> 5)).toNat) =
      hrp.map fun ch => ch.toNat / 32 := by
  refine List.map_congr_left fun ch hch => ?_
  have hle := (h ch hch).2.1
  rw [Nat.shiftRight_eq_div_pow]
  exact toNat_ofNat32 (by omega)

theorem map_expand_low (hrp : List Char) :
    (hrp.map fun ch => (UInt32.ofNat (ch.toNat % 32)).toNat) =
      hrp.map fun ch => ch.toNat % 32 := by
  refine List.map_congr_left fun ch _ => ?_
  have hlt : ch.toNat % 32 < 32 := Nat.mod_lt _ (by decide)
  exact toNat_ofNat32 (by omega)

theorem map_digits (data : Bytes) :
    (data.map fun d => (UInt32.ofNat d.toNat).toNat) = data.map UInt8.toNat := by
  refine List.map_congr_left fun d _ => ?_
  have hlt := d.toNat_lt
  exact toNat_ofNat32 (by omega)

/-- The six digits taken out of the register. -/
theorem map_range_digits (chk : UInt32) :
    ((List.range 6).map fun i =>
      bech32Char ((chk >>> UInt32.ofNat ((5 - i) * 5)).toNat % 32)) =
        (Numeral.digits 32 6 chk.toNat).map Bech32.character := by
  have hdigit : ∀ k, k < 6 →
      (chk >>> UInt32.ofNat (k * 5)).toNat % 32 = chk.toNat / 32 ^ k % 32 := by
    intro k hk
    have hfit : (UInt32.ofNat (k * 5)).toNat = k * 5 := toNat_ofNat32 (by omega)
    have hmod : k * 5 % 32 = k * 5 := Nat.mod_eq_of_lt (by omega)
    rw [UInt32.toNat_shiftRight, hfit, hmod, Nat.shiftRight_eq_div_pow, Nat.mul_comm, Nat.pow_mul]
  have hrange : List.range 6 = [0, 1, 2, 3, 4, 5] := rfl
  simp only [hrange, List.map_cons, List.map_nil, bech32Char_eq, hdigit _ (show 5 - 0 < 6 by decide),
    hdigit _ (show 5 - 1 < 6 by decide), hdigit _ (show 5 - 2 < 6 by decide),
    hdigit _ (show 5 - 3 < 6 by decide), hdigit _ (show 5 - 4 < 6 by decide),
    hdigit _ (show 5 - 5 < 6 by decide)]
  rfl

/-- **The text that is printed.** -/
theorem mwebBech32Encode_eq {hrp : List Char} {data : Bytes}
    (hhrp : ∀ ch ∈ hrp, Bech32.IsHrpChar ch) (hdata : ∀ d ∈ data, d.toNat < 32) :
    mwebBech32Encode hrp data = some (Bech32.text hrp (data.map UInt8.toNat)) := by
  have hvalid : hrp.all hrpCharValid = true :=
    List.all_eq_true.2 fun ch hch => (hrpCharValid_iff ch).2 (hhrp ch hch)
  have hsmall : data.any (fun d => d >>> 5 ≠ 0) = false := by
    rw [List.any_eq_false]
    intro d hd
    have hlt := hdata d hd
    simp only [ne_eq, decide_eq_true_eq, not_not]
    rw [← UInt8.toNat_inj, UInt8.toNat_shiftRight]
    exact Nat.shiftRight_eq_zero _ _ hlt
  have hstep : ∀ chk : UInt32, mwebBech32PolymodStep chk = mwebBech32PolymodStep chk ^^^ 0 := by
    intro chk
    simp
  rw [mwebBech32Encode, hvalid, hsmall]
  simp only [Bool.not_true, Bool.false_eq_true, if_false]
  rw [map_range_digits]
  have hregister : ∀ chk : UInt32,
      ((List.range 6).foldl (fun chk _ => mwebBech32PolymodStep chk) chk ^^^ 1).toNat =
        Bech32.polymod chk.toNat (List.replicate 6 0) ^^^ 1 := by
    intro chk
    have hzeros := toNat_foldl_polymod (fun _ : ℕ => (0 : UInt32)) chk (List.range 6)
    simp only [← hstep] at hzeros
    rw [UInt32.toNat_xor, hzeros]
    rfl
  rw [hregister, toNat_foldl_polymod, toNat_foldl_polymod, hstep, toNat_mwebBech32PolymodStep,
    toNat_foldl_polymod, map_expand_high hhrp, map_expand_low, map_digits]
  simp only [Bech32.text, Bech32.checksum, Bech32.hrpExpand, Bech32.polymod_append, List.map_append,
    bech32Char_eq, List.map_map, List.append_assoc, List.nil_append, List.cons_append,
    Bech32.polymod_cons]
  rfl

/-! ### The groups -/

/-- What the inner loop takes out of the bits, and what it leaves. -/
theorem convertEmit_spec (val : UInt32) {fuel bits : ℕ} (hfuel : bits ≤ fuel) (hbits : bits < 32) :
    (convertEmit 5 val fuel bits).2 < 5 ∧
      bits = 5 * (convertEmit 5 val fuel bits).1.length + (convertEmit 5 val fuel bits).2 ∧
      (∀ g ∈ (convertEmit 5 val fuel bits).1, g.toNat < 32) ∧
      Numeral.value 32 ((convertEmit 5 val fuel bits).1.map UInt8.toNat) *
          2 ^ (convertEmit 5 val fuel bits).2 +
        val.toNat % 2 ^ (convertEmit 5 val fuel bits).2 = val.toNat % 2 ^ bits := by
  induction fuel generalizing bits with
  | zero =>
      obtain rfl : bits = 0 := by omega
      simp [convertEmit]
  | succ fuel ih =>
      rw [convertEmit]
      by_cases hle : 5 ≤ bits
      · rw [if_pos hle]
        obtain ⟨hrest, hlen, hsmall, hvalue⟩ := @ih (bits - 5) (by omega) (by omega)
        generalize convertEmit 5 val fuel (bits - 5) = r at hrest hlen hsmall hvalue
        obtain ⟨gs, rest⟩ := r
        have hgroup : (UInt8.ofNat ((val >>> UInt32.ofNat (bits - 5)).toNat % 2 ^ 5)).toNat =
            val.toNat / 2 ^ (bits - 5) % 32 := by
          have hmod : (bits - 5) % 32 = bits - 5 := Nat.mod_eq_of_lt (by omega)
          have hlt : val.toNat / 2 ^ (bits - 5) % 32 < 256 :=
            Nat.lt_trans (Nat.mod_lt _ (by decide)) (by decide)
          rw [UInt32.toNat_shiftRight, toNat_ofNat32 (by omega), hmod, Nat.shiftRight_eq_div_pow]
          exact UInt8.toNat_ofNat_of_lt' hlt
        refine ⟨hrest, ?_, ?_, ?_⟩
        · simp only [List.length_cons] at hlen ⊢
          omega
        · intro g hg
          rcases List.mem_cons.1 hg with rfl | hg
          · rw [hgroup]
            exact Nat.mod_lt _ (by decide)
          · exact hsmall g hg
        · -- the bits at the top, and the ones below
          simp only at hlen hvalue ⊢
          have hpow : 32 ^ gs.length * 2 ^ rest = 2 ^ (bits - 5) := by
            rw [hlen, show 32 = 2 ^ 5 by rfl, ← Nat.pow_mul, ← Nat.pow_add]
          have htop : val.toNat % 2 ^ bits =
              val.toNat % 2 ^ (bits - 5) + 2 ^ (bits - 5) * (val.toNat / 2 ^ (bits - 5) % 32) := by
            have hsplit : 2 ^ bits = 2 ^ (bits - 5) * 32 := by
              rw [show 32 = 2 ^ 5 by rfl, ← Nat.pow_add]
              congr 1
              omega
            rw [hsplit, Nat.mod_mul]
          rw [List.map_cons, Numeral.value_cons, hgroup, List.length_map, htop, ← hvalue, ← hpow]
          ring
      · rw [if_neg hle]
        exact ⟨by omega, by simp, by simp, by simp⟩

/-- A byte enters below the bits that are left. -/
theorem shiftLeft_or_mod (val : UInt32) (b : UInt8) {bits : ℕ} (hbits : bits < 5) :
    ((val <<< UInt32.ofNat 8) ||| UInt32.ofNat b.toNat).toNat % 2 ^ (bits + 8) =
      val.toNat % 2 ^ bits * 256 + b.toNat := by
  have hb := b.toNat_lt
  have hshift : (val <<< UInt32.ofNat 8).toNat = 2 ^ 8 * (val.toNat % 2 ^ 24) := by
    rw [UInt32.toNat_shiftLeft]
    change val.toNat <<< 8 % 2 ^ 32 = _
    rw [Nat.shiftLeft_eq, Nat.mul_comm, show 2 ^ 32 = 2 ^ 8 * 2 ^ 24 by rfl, Nat.mul_mod_mul_left]
  have hcombine : ((val <<< UInt32.ofNat 8) ||| UInt32.ofNat b.toNat).toNat =
      2 ^ 8 * (val.toNat % 2 ^ 24) + b.toNat := by
    rw [UInt32.toNat_or, hshift, toNat_ofNat32 (by omega)]
    exact (Nat.two_pow_add_eq_or_of_lt hb _).symm
  have hmod : val.toNat % 2 ^ 24 % 2 ^ bits = val.toNat % 2 ^ bits :=
    Nat.mod_mod_of_dvd _ (Nat.pow_dvd_pow 2 (by omega))
  have hlt : val.toNat % 2 ^ bits < 2 ^ bits := Nat.mod_lt _ (Nat.pow_pos (by decide))
  have hpow : 2 ^ (bits + 8) = 2 ^ 8 * 2 ^ bits := by rw [Nat.pow_add, Nat.mul_comm]
  rw [hcombine, hpow, Nat.mod_mul, Nat.mul_add_mod, Nat.mod_eq_of_lt hb, Nat.mul_add_div (by decide),
    Nat.div_eq_of_lt hb, Nat.add_zero, hmod]
  omega

/-- The groups and the bits that are left denote the bits before and the bytes that came in. -/
theorem convertLoop_spec (val : UInt32) {bits : ℕ} (hbits : bits < 5) (input : Bytes) :
    (convertLoop 5 8 val bits input).2.2 < 5 ∧
      bits + 8 * input.length = 5 * (convertLoop 5 8 val bits input).1.length +
        (convertLoop 5 8 val bits input).2.2 ∧
      (∀ g ∈ (convertLoop 5 8 val bits input).1, g.toNat < 32) ∧
      Numeral.value 32 ((convertLoop 5 8 val bits input).1.map UInt8.toNat) *
          2 ^ (convertLoop 5 8 val bits input).2.2 +
        (convertLoop 5 8 val bits input).2.1.toNat % 2 ^ (convertLoop 5 8 val bits input).2.2 =
          val.toNat % 2 ^ bits * 256 ^ input.length + Bytes.toNatBE input := by
  induction input generalizing val bits with
  | nil => exact ⟨hbits, by simp [convertLoop], by simp [convertLoop], by simp [convertLoop]⟩
  | cons b input ih =>
      rw [convertLoop]
      simp only
      have hval := shiftLeft_or_mod val b hbits
      generalize (val <<< UInt32.ofNat 8) ||| UInt32.ofNat b.toNat = entered at hval ⊢
      obtain ⟨hrest, hlen, hsmall, hvalue⟩ :=
        convertEmit_spec entered (Nat.le_refl (bits + 8)) (by omega)
      generalize convertEmit 5 entered (bits + 8) (bits + 8) = emitted at *
      obtain ⟨gs, left⟩ := emitted
      obtain ⟨hrest', hlen', hsmall', hvalue'⟩ := ih entered hrest
      simp only at hlen hvalue hlen' hsmall' hvalue' ⊢
      generalize convertLoop 5 8 entered left input = r at *
      obtain ⟨hs, last, left'⟩ := r
      refine ⟨hrest', ?_, ?_, ?_⟩
      · simp only [List.length_append, List.length_cons] at hlen' ⊢
        omega
      · intro g hg
        rcases List.mem_append.1 hg with hg | hg
        · exact hsmall g hg
        · exact hsmall' g hg
      · simp only at hlen' hvalue' ⊢
        -- the groups of the rest stand in the place of the bytes of the rest
        have hplace : 32 ^ hs.length * 2 ^ left' = 2 ^ left * 256 ^ input.length := by
          rw [show 32 = 2 ^ 5 by rfl, show 256 = 2 ^ 8 by rfl, ← Nat.pow_mul, ← Nat.pow_mul,
            ← Nat.pow_add, ← Nat.pow_add, hlen']
        have hhead := congrArg (· * 256 ^ input.length) (hvalue.trans hval)
        simp only [Nat.add_mul] at hhead
        rw [List.map_append, Numeral.value_append, List.length_map, Nat.add_mul, Nat.add_assoc,
          hvalue', Nat.mul_assoc, hplace, Bytes.toNatBE_cons, List.length_cons, Nat.pow_succ]
        linarith

/-- **What the regrouping computes**: the bits of the bytes, filled up with zero bits. -/
theorem mwebConvertBits_eq (input : Bytes) : ∃ groups,
    mwebConvertBits 5 input 8 true = some groups ∧
      groups.length = (8 * input.length + 4) / 5 ∧ (∀ g ∈ groups, g.toNat < 32) ∧
        Numeral.value 32 (groups.map UInt8.toNat) =
          Bytes.toNatBE input * 2 ^ (5 * groups.length - 8 * input.length) := by
  obtain ⟨hrest, hlen, hsmall, hvalue⟩ := convertLoop_spec 0 (show 0 < 5 by decide) input
  rw [mwebConvertBits]
  generalize convertLoop 5 8 0 0 input = r at *
  obtain ⟨gs, val, bits⟩ := r
  rw [UInt32.toNat_zero, Nat.zero_mod, Nat.zero_mul] at hvalue
  simp only [Nat.zero_add] at hrest hlen hsmall hvalue
  simp only [if_true]
  by_cases hbits : bits = 0
  · subst hbits
    refine ⟨gs, rfl, by omega, hsmall, ?_⟩
    rw [pow_zero, Nat.mul_one, Nat.mod_one, Nat.add_zero] at hvalue
    rw [hvalue, show 5 * gs.length - 8 * input.length = 0 by omega, pow_zero, Nat.mul_one]
  · rw [if_pos hbits]
    have hlast : (UInt8.ofNat ((val <<< UInt32.ofNat (5 - bits)).toNat % 2 ^ 5)).toNat =
        val.toNat % 2 ^ bits * 2 ^ (5 - bits) := by
      have hshift : (val <<< UInt32.ofNat (5 - bits)).toNat % 2 ^ 5 =
          val.toNat % 2 ^ bits * 2 ^ (5 - bits) := by
        have hmod : (5 - bits) % 32 = 5 - bits := Nat.mod_eq_of_lt (by omega)
        have hpow : 2 ^ 5 = 2 ^ bits * 2 ^ (5 - bits) := by
          rw [← Nat.pow_add]
          congr 1
          omega
        rw [UInt32.toNat_shiftLeft, toNat_ofNat32 (by omega), hmod, Nat.shiftLeft_eq,
          Nat.mod_mod_of_dvd _ (by decide), hpow, Nat.mul_mod_mul_right]
      have hlt : (val <<< UInt32.ofNat (5 - bits)).toNat % 2 ^ 5 < 256 :=
        Nat.lt_trans (Nat.mod_lt _ (by decide)) (by decide)
      rw [← hshift]
      exact UInt8.toNat_ofNat_of_lt' hlt
    refine ⟨_, rfl, ?_, ?_, ?_⟩
    · rw [List.length_append, List.length_singleton]
      omega
    · intro g hg
      rcases List.mem_append.1 hg with hg | hg
      · exact hsmall g hg
      · rw [List.mem_singleton.1 hg]
        exact lt_of_le_of_lt (by rw [UInt8.toNat_ofNat']; exact Nat.mod_le _ _)
          (Nat.mod_lt _ (by decide))
    · have hpad : 5 * (gs.length + 1) - 8 * input.length = 5 - bits := by omega
      have hpow : 32 = 2 ^ bits * 2 ^ (5 - bits) := by
        rw [← Nat.pow_add, show bits + (5 - bits) = 5 by omega]
      rw [List.map_append, List.map_singleton, Numeral.value_append, Numeral.value_singleton, hlast,
        ← hvalue]
      simp only [List.length_append, List.length_singleton, pow_one]
      rw [hpad, Nat.add_mul, Nat.mul_assoc, ← hpow]

/-! ### Addresses -/

/-- `mweb_bech32_encode_payload`, with the check of the size of the output buffer. -/
def mwebBech32EncodePayloadTo (payload : Bytes) (hrp : List Char) (outputLen : ℕ) :
    Option (List Char) :=
  if outputLen < 128 then none else mwebBech32EncodePayload payload hrp

/-- The text decodes to the prefix, version zero and the payload; the groups fit `data5`, behind the
version, and the text and its NUL fit a buffer. -/
structure Prints (hrp : List Char) (payload : Bytes) (bufferLen : ℕ) (address : List Char) :
    Prop where
  decodes : Bech32.decodeProgram address = some (hrp, 0, payload)
  groups : ∀ data, mwebConvertBits 5 payload 8 true = some data → 1 + data.length ≤ 1 + 107
  fits : address.length + 1 ≤ bufferLen

/-- The prefixes in use. -/
theorem mwebNetworkHrp_valid {network : Network} {hrp : List Char}
    (h : mwebNetworkHrp network = some hrp) :
    hrp ≠ [] ∧ (∀ ch ∈ hrp, Bech32.IsHrpChar ch) ∧ hrp.length ≤ 7 := by
  have hvalid : hrp ≠ [] ∧ hrp.all (fun ch => decide (Bech32.IsHrpChar ch)) = true ∧
      hrp.length ≤ 7 := by
    cases network <;> simp only [mwebNetworkHrp, reduceCtorEq, Option.some.injEq] at h <;>
      subst h <;> decide
  exact ⟨hvalid.1, fun ch hch => of_decide_eq_true (List.all_eq_true.1 hvalid.2.1 ch hch),
    hvalid.2.2⟩

theorem program_of_groups {payload : Bytes} {groups : List ℕ} (hlen : payload.length = 66)
    (hgroups : groups.length = 106)
    (hvalue : Numeral.value 32 groups = Bytes.toNatBE payload * 2 ^ 2) :
    Bech32.program groups = some payload := by
  have hpad : Bytes.toNatBE payload * 2 ^ 2 % 2 ^ 2 = 0 := Nat.mul_mod_left _ _
  have hshift : Bytes.toNatBE payload * 2 ^ 2 / 2 ^ 2 = Bytes.toNatBE payload :=
    Nat.mul_div_cancel _ (by decide)
  have hround := Bytes.ofNatBE_toNatBE payload
  rw [hlen] at hround
  rw [Bech32.program, hgroups, hvalue]
  simp only [show 5 * 106 % 8 = 2 by rfl, show 5 * 106 / 8 = 66 by rfl, hpad, hshift, hround]
  rfl

/-- What is printed for a payload decodes to it. -/
theorem mwebBech32EncodePayload_prints {network : Network} {hrp : List Char} {payload : Bytes}
    (hhrp : mwebNetworkHrp network = some hrp) (hlen : payload.length = 66) :
    ∃ address, mwebBech32EncodePayload payload hrp = some address ∧
      Prints hrp payload 128 address := by
  obtain ⟨hne, hchars, hshort⟩ := mwebNetworkHrp_valid hhrp
  obtain ⟨groups, hgroups, hcount, hsmall, hvalue⟩ := mwebConvertBits_eq payload
  rw [hlen] at hcount hvalue
  have hcount' : groups.length = 106 := hcount
  rw [hcount'] at hvalue
  have hdata : ∀ d ∈ (0 : UInt8) :: groups, d.toNat < 32 := by
    intro d hd
    rcases List.mem_cons.1 hd with rfl | hd
    · decide
    · exact hsmall d hd
  have hdigits : ∀ d ∈ ((0 : UInt8) :: groups).map UInt8.toNat, d < 32 := by
    intro d hd
    obtain ⟨g, hg, rfl⟩ := List.mem_map.1 hd
    exact hdata g hg
  have hprogram : Bech32.program (groups.map UInt8.toNat) = some payload :=
    program_of_groups hlen (by rw [List.length_map, hcount']) hvalue
  refine ⟨Bech32.text hrp (((0 : UInt8) :: groups).map UInt8.toNat), ?_, ?_, ?_, ?_⟩
  · rw [mwebBech32EncodePayload, if_neg (not_not.2 hlen), hgroups]
    exact mwebBech32Encode_eq hchars hdata
  · rw [Bech32.decodeProgram, Bech32.decode_text hne hchars hdigits]
    simp only [Option.bind_eq_bind, Option.bind_some, List.map_cons, hprogram]
    rfl
  · intro data hconvert
    rw [hgroups, Option.some.injEq] at hconvert
    rw [← hconvert, hcount']
    decide
  · simp only [Bech32.text, List.length_append, List.length_cons, List.length_map,
      Bech32.length_checksum, hcount']
    omega

section Model

variable {P : Type} (S : Secp P)

theorem length_addressPayload (hS : ∀ pk, (S.ecPubkeySerialize pk).length = 33)
    {scanKey spendKey payload : Bytes} {index : UInt32}
    (h : addressPayload S scanKey spendKey index = some payload) : payload.length = 66 := by
  simp only [addressPayload, Option.bind_eq_bind, Option.bind_eq_some_iff, Option.pure_def,
    Option.some.injEq] at h
  obtain ⟨B, -, A, -, rfl⟩ := h
  rw [List.length_append, hS, hS]

/-- The two functions print the same. -/
theorem mwebDeriveAddress_eq (hS : ∀ pk, (S.ecPubkeySerialize pk).length = 33)
    (scanKey spendKey : Bytes) (index : UInt32) (network : Network) :
    mwebDeriveAddress S scanKey spendKey index network = (do
      let hrp ← mwebNetworkHrp network
      let payload ← addressPayload S scanKey spendKey index
      mwebBech32EncodePayload payload hrp) := by
  simp only [mwebDeriveAddress, Option.bind_eq_bind]
  cases hhrp : mwebNetworkHrp network with
  | none => rfl
  | some hrp =>
      simp only [Option.bind_some]
      cases hpayload : addressPayload S scanKey spendKey index with
      | none => rfl
      | some payload =>
          simp only [Option.bind_some]
          rw [mwebBech32EncodePayload, if_neg (not_not.2 (length_addressPayload S hS hpayload))]
          cases mwebConvertBits 5 payload 8 true with
          | none => rfl
          | some data => rfl

/-! ### The result -/

/-- **Addresses are valid bech32, and different ones differ.**  Every payload of two points is printed,
into every buffer that is accepted, as a bech32 string that decodes to the prefix, version zero and the
payload, within the buffers; the same string is printed by `mweb_derive_address`; and no string is
printed for two payloads, or for two prefixes. -/
theorem bech32_injective (hS : ∀ pk, (S.ecPubkeySerialize pk).length = 33) :
    (∀ network hrp payload outputLen, mwebNetworkHrp network = some hrp → payload.length = 66 →
      128 ≤ outputLen → ∃ address,
        mwebBech32EncodePayloadTo payload hrp outputLen = some address ∧
          Prints hrp payload outputLen address) ∧
      (∀ scanKey spendKey index network,
        mwebDeriveAddress S scanKey spendKey index network = (do
          let hrp ← mwebNetworkHrp network
          let payload ← addressPayload S scanKey spendKey index
          mwebBech32EncodePayload payload hrp)) ∧
      (∀ scanKey spendKey index network address,
        mwebDeriveAddress S scanKey spendKey index network = some address →
          ∃ hrp payload, addressPayload S scanKey spendKey index = some payload ∧
            Prints hrp payload 128 address) ∧
      ∀ network network' hrp hrp' payload payload' address,
        mwebNetworkHrp network = some hrp → mwebNetworkHrp network' = some hrp' →
          payload.length = 66 → payload'.length = 66 →
            mwebBech32EncodePayload payload hrp = some address →
              mwebBech32EncodePayload payload' hrp' = some address →
                hrp = hrp' ∧ payload = payload' := by
  refine ⟨?_, mwebDeriveAddress_eq S hS, ?_, ?_⟩
  · intro network hrp payload outputLen hhrp hlen hout
    obtain ⟨address, haddress, hprints⟩ := mwebBech32EncodePayload_prints hhrp hlen
    refine ⟨address, ?_, hprints.decodes, hprints.groups, Nat.le_trans hprints.fits hout⟩
    rw [mwebBech32EncodePayloadTo, if_neg (by omega), haddress]
  · intro scanKey spendKey index network address h
    rw [mwebDeriveAddress_eq S hS] at h
    simp only [Option.bind_eq_bind, Option.bind_eq_some_iff] at h
    obtain ⟨hrp, hhrp, payload, hpayload, haddress⟩ := h
    obtain ⟨printed, hprinted, hprints⟩ :=
      mwebBech32EncodePayload_prints hhrp (length_addressPayload S hS hpayload)
    obtain rfl : printed = address := Option.some.inj (hprinted.symm.trans haddress)
    exact ⟨hrp, payload, hpayload, hprints⟩
  · intro network network' hrp hrp' payload payload' address hhrp hhrp' hlen hlen' h h'
    obtain ⟨printed, hprinted, hprints⟩ := mwebBech32EncodePayload_prints hhrp hlen
    obtain ⟨printed', hprinted', hprints'⟩ := mwebBech32EncodePayload_prints hhrp' hlen'
    obtain rfl : printed = address := Option.some.inj (hprinted.symm.trans h)
    obtain rfl : printed' = printed := Option.some.inj (hprinted'.symm.trans h')
    have hsame := Option.some.inj (hprints.decodes.symm.trans hprints'.decodes)
    simp only [Prod.mk.injEq, true_and] at hsame
    exact hsame

/-- Two addresses with every point of the model curve serialized. -/
theorem bech32_injective_line :
    (∀ pk, (lineSecp.ecPubkeySerialize pk).length = 33) ∧
      mwebNetworkHrp .litecoin = some "ltcmweb".toList ∧
        ∃ address, mwebBech32EncodePayloadTo (List.replicate 66 2) "ltcmweb".toList 128 =
          some address ∧ Prints "ltcmweb".toList (List.replicate 66 2) 128 address :=
  ⟨lineCurve.length_serialize, rfl,
    (bech32_injective lineSecp lineCurve.length_serialize).1 .litecoin _ _ 128 rfl (by simp)
      (by decide)⟩

end Model

end Jade.Mweb
