/-
**The message of the kernel signature says what the kernel is.**

The fields of a kernel are written one after another without tags, in two formats for integers, and a
field that is missing leaves no trace.  The features byte comes first and tells which fields follow,
and the signer has checked that it does; each field marks its own end.  So the message can be read in
one way only, and two kernels with one message are the same kernel.

An entry of the pegout map counts as what it parses to, an amount and a script.  The signer takes the
script from the entry with the length that the entry declares, and when that length runs past the end
of the entry the hasher is made to read memory that does not belong to it: no message comes out.

Main definitions:

* `Jade.Mweb.KernelFields` — what a kernel signature covers;
* `Jade.Mweb.KernelFields.FeaturesMatch` — the features byte agrees with the fields;
* `Jade.Mweb.KernelFields.fedMessage` — what the hasher is fed;
* `Jade.Mweb.SameKernel` — equal in every field.

Main results:

* `Jade.Mweb.selfDelimiting_writeMwebVarint`, `Jade.Mweb.selfDelimiting_mwebWriteCompactSize`;
* `Jade.Mweb.kernel_unambiguous` — **two kernels with one message are the same**.
-/

import Jade.Lib.Code
import Jade.Mweb.Kernel
import Jade.Wallet.Script

set_option relaxedAutoImplicit false
set_option autoImplicit false

namespace Jade.Mweb

open Exec

/-! ### The two formats for integers -/

/-- The number that digits stand for, the lowest first: each digit but the lowest counts from one. -/
def ofMwebVarintDigits : List UInt8 → ℕ
  | [] => 0
  | [low] => low.toNat
  | low :: high => low.toNat + 128 * (ofMwebVarintDigits high + 1)

/-- The lowest digit of a number. -/
def lowDigit (n : UInt64) : UInt8 := UInt8.ofNat (n &&& 0x7f).toNat

theorem mwebVarintDigits_succ (digits : ℕ) (n : UInt64) : mwebVarintDigits (digits + 1) n =
    if n < 0x80 then [lowDigit n] else lowDigit n :: mwebVarintDigits digits ((n >>> 7) - 1) :=
  rfl

theorem toNat_lowDigit (n : UInt64) : (lowDigit n).toNat = n.toNat % 128 := by
  rw [lowDigit, UInt64.toNat_and, UInt8.toNat_ofNat', show (0x7f : UInt64).toNat = 2 ^ 7 - 1 from rfl,
    Nat.and_two_pow_sub_one_eq_mod]
  omega

theorem toNat_shift_sub_one {n : UInt64} (h : ¬n < 0x80) :
    ((n >>> 7) - 1).toNat = n.toNat / 128 - 1 := by
  have hn : 128 ≤ n.toNat := by
    rw [UInt64.lt_iff_toNat_lt] at h
    exact Nat.le_of_not_lt h
  have hshift : (n >>> 7).toNat = n.toNat / 128 := by
    rw [UInt64.toNat_shiftRight]
    simp [Nat.shiftRight_eq_div_pow]
  rw [UInt64.toNat_sub_of_le, hshift]
  · rfl
  · rw [UInt64.le_iff_toNat_le, hshift, show (1 : UInt64).toNat = 1 from rfl]
    omega

/-- The digits are below 128 and stand for the number, if there are enough of them. -/
theorem mwebVarintDigits_spec {digits : ℕ} {n : UInt64} (h : n.toNat < 128 ^ (digits + 1)) :
    ∃ low high, mwebVarintDigits (digits + 1) n = low :: high ∧
      (∀ d ∈ low :: high, d.toNat < 128) ∧ ofMwebVarintDigits (low :: high) = n.toNat := by
  induction digits generalizing n with
  | zero =>
      have hlt : n < 0x80 := by simpa [UInt64.lt_iff_toNat_lt] using h
      refine ⟨lowDigit n, [], by rw [mwebVarintDigits_succ, if_pos hlt], ?_, ?_⟩
      · intro d hd
        obtain rfl := List.mem_singleton.1 hd
        rw [toNat_lowDigit]
        omega
      · rw [ofMwebVarintDigits, toNat_lowDigit]
        omega
  | succ digits ih =>
      by_cases hlt : n < 0x80
      · have hlt' : n.toNat < 128 := UInt64.lt_iff_toNat_lt.1 hlt
        refine ⟨lowDigit n, [], by rw [mwebVarintDigits_succ, if_pos hlt], ?_, ?_⟩
        · intro d hd
          obtain rfl := List.mem_singleton.1 hd
          rw [toNat_lowDigit]
          omega
        · rw [ofMwebVarintDigits, toNat_lowDigit]
          omega
      · have hge : 128 ≤ n.toNat := by
          rw [UInt64.lt_iff_toNat_lt] at hlt
          exact Nat.le_of_not_lt hlt
        have hnext := toNat_shift_sub_one hlt
        obtain ⟨low, high, hdigits, hsmall, hval⟩ := ih (n := (n >>> 7) - 1) (by
          rw [hnext]
          rw [Nat.pow_succ] at h
          omega)
        refine ⟨lowDigit n, low :: high,
          by rw [mwebVarintDigits_succ, if_neg hlt, hdigits], ?_, ?_⟩
        · intro d hd
          rcases List.mem_cons.1 hd with rfl | hd
          · rw [toNat_lowDigit]
            omega
          · exact hsmall d hd
        · rw [ofMwebVarintDigits, hval, hnext, toNat_lowDigit]
          · omega
          · simp

/-- A byte with the continuation bit. -/
def IsContinued (b : UInt8) : Prop := 128 ≤ b.toNat

theorem toNat_continued {d : UInt8} (h : d.toNat < 128) : (d ||| 0x80).toNat = d.toNat + 128 := by
  rw [UInt8.toNat_or, show (0x80 : UInt8).toNat = 2 ^ 7 * 1 from rfl, Nat.or_comm,
    ← Nat.two_pow_add_eq_or_of_lt h]
  omega

/-- **The varint marks its own end**: only its last byte is not continued. -/
theorem selfDelimiting_writeMwebVarint : SelfDelimiting Set.univ writeMwebVarint := by
  intro n _ m _ x y heq
  have hbound : ∀ k : UInt64, k.toNat < 128 ^ (9 + 1) := fun k => by
    have h := k.toNat_lt
    omega
  obtain ⟨low, high, hn, hsmall, hval⟩ := mwebVarintDigits_spec (hbound n)
  obtain ⟨low', high', hm, hsmall', hval'⟩ := mwebVarintDigits_spec (hbound m)
  simp only [writeMwebVarint, hn, hm, List.append_assoc, List.singleton_append] at heq
  have hcontinued : ∀ ds : List UInt8, (∀ d ∈ ds, d.toNat < 128) →
      ∀ b ∈ (ds.map (· ||| 0x80)).reverse, IsContinued b := by
    intro ds hds b hb
    obtain ⟨d, hd, rfl⟩ := List.mem_map.1 (List.mem_reverse.1 hb)
    rw [IsContinued, toNat_continued (hds d hd)]
    omega
  obtain ⟨hhigh, rfl, hxy⟩ := append_cons_inj
    (hcontinued high fun d hd => hsmall d (List.mem_cons_of_mem _ hd))
    (hcontinued high' fun d hd => hsmall' d (List.mem_cons_of_mem _ hd))
    (Nat.not_le.2 (hsmall low List.mem_cons_self))
    (Nat.not_le.2 (hsmall' low' List.mem_cons_self)) heq
  refine ⟨?_, hxy⟩
  have huncontinued : ∀ ds : List UInt8, (∀ d ∈ ds, d.toNat < 128) →
      (ds.map (· ||| 0x80)).map (fun b => UInt8.ofNat (b.toNat - 128)) = ds := by
    intro ds hds
    rw [List.map_map]
    refine (List.map_congr_left fun d hd => ?_).trans (List.map_id ds)
    rw [Function.comp_apply, toNat_continued (hds d hd), Nat.add_sub_cancel, UInt8.ofNat_toNat]
    rfl
  have hsame : high = high' := by
    rw [← huncontinued high fun d hd => hsmall d (List.mem_cons_of_mem _ hd),
      ← huncontinued high' fun d hd => hsmall' d (List.mem_cons_of_mem _ hd),
      List.reverse_injective hhigh]
  rw [← UInt64.toNat_inj, ← hval, ← hval', hsame]

/-- Reading a length, with what follows it. -/
def decodeCompactSize (bs : Bytes) : Option (UInt64 × Bytes) :=
  (readCompactSize bs).map fun (hdr, n) => (n, bs.drop hdr)

/-- A length after a marker. -/
theorem decodeCompactSize_marker {marker : UInt8} {len : ℕ}
    (hread : ∀ bs : Bytes, len ≤ bs.length → readCompactSize (marker :: bs) =
      some (len + 1, UInt64.ofNat (Bytes.toNatLE (bs.take len)))) {n : UInt64}
    (hn : n.toNat < 256 ^ len) (x : Bytes) :
    decodeCompactSize (marker :: Bytes.ofNatLE len n.toNat ++ x) = some (n, x) := by
  have hlen : (Bytes.ofNatLE len n.toNat).length = len := Bytes.length_ofNatLE len n.toNat
  have htake : (Bytes.ofNatLE len n.toNat ++ x).take len = Bytes.ofNatLE len n.toNat :=
    List.take_left' hlen
  have hdrop : (Bytes.ofNatLE len n.toNat ++ x).drop len = x := List.drop_left' hlen
  rw [decodeCompactSize, List.cons_append, hread _ (by simp), htake,
    Bytes.toNatLE_ofNatLE_of_lt hn, UInt64.ofNat_toNat, Option.map_some]
  simp only [List.drop_succ_cons, hdrop]

/-- **The length marks its own end**: its first byte tells how many follow. -/
theorem selfDelimiting_mwebWriteCompactSize : SelfDelimiting Set.univ mwebWriteCompactSize := by
  refine selfDelimiting_of_decode decodeCompactSize fun n _ x => ?_
  have hn := n.toNat_lt
  rw [mwebWriteCompactSize]
  split_ifs with h₁ h₂ h₃
  · have hlt : n.toNat < 0xfd := UInt64.lt_iff_toNat_lt.1 h₁
    have hbyte : (UInt8.ofNat n.toNat).toNat = n.toNat := by
      rw [UInt8.toNat_ofNat']
      omega
    have hsmall : UInt8.ofNat n.toNat < 0xfd := by
      rw [UInt8.lt_iff_toNat_lt, hbyte]
      exact hlt
    simp only [decodeCompactSize, List.singleton_append, readCompactSize, if_pos hsmall, hbyte,
      UInt64.ofNat_toNat, Option.map_some, List.drop_succ_cons, List.drop_zero]
  · have hle : n.toNat ≤ 0xffff := UInt64.le_iff_toNat_le.1 h₂
    refine decodeCompactSize_marker (fun bs hlen => ?_) (by omega) x
    simp [readCompactSize, hlen]
  · have hle : n.toNat ≤ 0xffffffff := UInt64.le_iff_toNat_le.1 h₃
    refine decodeCompactSize_marker (fun bs hlen => ?_) (by omega) x
    simp [readCompactSize, hlen]
  · refine decodeCompactSize_marker (fun bs hlen => ?_) (by omega) x
    simp [readCompactSize, hlen]

/-! ### The kernel -/

/-- What a kernel signature covers.  The commitment and the stealth excess are arrays of 33 bytes, and
sizes are 64-bit numbers. -/
structure KernelFields where
  features : UInt8
  excessCommitment : Bytes
  fee : Option UInt64
  peginAmount : Option UInt64
  pegouts : WallyMap
  lockHeight : Option UInt32
  stealthExcess : Option Bytes
  extraData : Bytes
  length_excess : excessCommitment.length = 33
  length_stealth : ∀ e, stealthExcess = some e → e.length = 33
  size_pegouts : pegouts.items.length < 2 ^ 64
  size_extraData : extraData.length < 2 ^ 64

namespace KernelFields

/-- The pegouts, as the map entries parse. -/
def parsedPegouts (k : KernelFields) : List (Option Pegout) :=
  k.pegouts.items.map fun item => parsePegoutValue item.2

/-- **The features byte agrees with the fields that are there.** -/
structure FeaturesMatch (k : KernelFields) : Prop where
  fee : k.fee.isSome = hasBit k.features MWEB_KERNEL_FEE_BIT
  pegin : k.peginAmount.isSome = hasBit k.features MWEB_KERNEL_PEGIN_BIT
  pegouts : (!k.pegouts.items.isEmpty) = hasBit k.features MWEB_KERNEL_PEGOUT_BIT
  lockHeight : k.lockHeight.isSome = hasBit k.features MWEB_KERNEL_HEIGHT_LOCK_BIT
  extraData : (!k.extraData.isEmpty) = hasBit k.features MWEB_KERNEL_EXTRA_DATA_BIT
  stealth : k.stealthExcess.isSome = hasBit k.features MWEB_KERNEL_STEALTH_EXCESS_BIT

/-- The loop of `mweb_kernel_sig_hash` over the pegouts gets to a script that runs past the end of its
entry, which is memory that must not be read. An entry that does not parse ends the loop. -/
def overruns : List Bytes → Bool
  | [] => false
  | val :: vals =>
      match parsePegoutValue val with
      | none => false
      | some pegout => decide (pegout.script.length < pegout.scriptLen.toNat) || overruns vals

/-- What `mweb_kernel_sig_hash` feeds to the hasher. -/
def fedMessage (k : KernelFields) : Except Fault (Option Bytes) :=
  if hasBit k.features MWEB_KERNEL_PEGOUT_BIT && overruns (k.pegouts.items.map Prod.snd) then
    .error .overflow
  else
    .ok (kernelMessage k.features k.excessCommitment k.fee k.peginAmount k.pegouts k.lockHeight
      k.stealthExcess k.extraData)

end KernelFields

/-- The kernels are equal in every field; an entry of the pegout map counts as an amount and a
script. -/
structure SameKernel (k k' : KernelFields) : Prop where
  features : k.features = k'.features
  excessCommitment : k.excessCommitment = k'.excessCommitment
  fee : k.fee = k'.fee
  peginAmount : k.peginAmount = k'.peginAmount
  pegouts : k.parsedPegouts = k'.parsedPegouts
  lockHeight : k.lockHeight = k'.lockHeight
  stealthExcess : k.stealthExcess = k'.stealthExcess
  extraData : k.extraData = k'.extraData

/-- The entry holds the script it declares. -/
def Pegout.IsWhole (pegout : Pegout) : Prop := pegout.scriptLen.toNat = pegout.script.length

/-- A parser that accepts takes no more of the entry than is declared. -/
theorem script_length_le {val : Bytes} {pegout : Pegout} (h : parsePegoutValue val = some pegout) :
    pegout.script.length ≤ pegout.scriptLen.toNat := by
  rw [parsePegoutValue, parsePegout, Option.ite_none_left_eq_some] at h
  obtain ⟨-, h⟩ := h
  cases hread : readCompactSize (val.drop 8) with
  | none => simp [hread] at h
  | some entry =>
      simp only [hread, Option.ite_none_left_eq_some, Option.some.injEq] at h
      obtain ⟨-, rfl⟩ := h
      exact List.length_take_le _ _

/-- Where the loop reads no script past its end, the pegouts are whole. -/
theorem isWhole_of_overruns {vals : List Bytes} {pegouts : List Pegout}
    (hparsed : vals.map parsePegoutValue = pegouts.map some)
    (h : KernelFields.overruns vals = false) : ∀ pegout ∈ pegouts, pegout.IsWhole := by
  induction vals generalizing pegouts with
  | nil =>
      obtain rfl : pegouts = [] := by simpa using hparsed.symm
      exact fun pegout hmem => absurd hmem List.not_mem_nil
  | cons val vals ih =>
      cases pegouts with
      | nil => cases hparsed
      | cons pegout pegouts =>
          obtain ⟨hparse, hparsed⟩ := List.cons.inj hparsed
          rw [KernelFields.overruns, hparse, Bool.or_eq_false_iff, decide_eq_false_iff_not] at h
          intro pegout' hmem
          rcases List.mem_cons.1 hmem with rfl | hmem
          · exact Nat.le_antisymm (Nat.le_of_not_lt h.1) (script_length_le hparse)
          · exact ih hparsed h.2 pegout' hmem

/-! ### The sections of the message -/

/-- A number of things as it is written in front of them. -/
def writeCount (n : ℕ) : Bytes := mwebWriteCompactSize (UInt64.ofNat n)

theorem selfDelimiting_writeCount : SelfDelimiting {n : ℕ | n < 2 ^ 64} writeCount := by
  refine selfDelimiting_mwebWriteCompactSize.comp (fun n hn m hm h => ?_) fun _ _ => trivial
  have h := congrArg UInt64.toNat h
  rwa [UInt64.toNat_ofNat', UInt64.toNat_ofNat', Nat.mod_eq_of_lt hn, Nat.mod_eq_of_lt hm] at h

/-- A whole pegout marks its own end: its length is in front of its script. -/
theorem selfDelimiting_pegoutMessage : SelfDelimiting {pegout | pegout.IsWhole} pegoutMessage := by
  have hpair := selfDelimiting_writeMwebVarint.append selfDelimiting_writeCount.sized
  intro pegout hwhole pegout' hwhole' x y heq
  have hmessage : ∀ p : Pegout, p.IsWhole → pegoutMessage p =
      writeMwebVarint p.amount ++ (writeCount p.script.length ++ p.script) := by
    intro p hp
    rw [pegoutMessage, writeCount, ← hp, UInt64.ofNat_toNat, List.append_assoc]
  have hsize : ∀ p : Pegout, p.IsWhole → p.script.length < 2 ^ 64 := fun p hp =>
    hp ▸ p.scriptLen.toNat_lt
  rw [hmessage pegout hwhole, hmessage pegout' hwhole'] at heq
  obtain ⟨hsame, hxy⟩ := hpair (a := (pegout.amount, pegout.script)) ⟨trivial, hsize _ hwhole⟩
    (b := (pegout'.amount, pegout'.script)) ⟨trivial, hsize _ hwhole'⟩ x y heq
  obtain ⟨hamount, hscript⟩ := Prod.mk.inj hsame
  refine ⟨?_, hxy⟩
  have hlen : pegout.scriptLen = pegout'.scriptLen := by
    rw [← UInt64.toNat_inj, hwhole, hwhole', hscript]
  cases pegout
  cases pegout'
  simp_all

/-- The heights are written as 64-bit numbers. -/
theorem selfDelimiting_lockHeight :
    SelfDelimiting Set.univ fun h : UInt32 => writeMwebVarint (UInt64.ofNat h.toNat) := by
  refine selfDelimiting_writeMwebVarint.comp (fun h _ h' _ heq => ?_) fun _ _ => trivial
  have hlt := h.toNat_lt
  have hlt' := h'.toNat_lt
  have heq := congrArg UInt64.toNat heq
  rw [UInt64.toNat_ofNat', UInt64.toNat_ofNat', Nat.mod_eq_of_lt (by omega),
    Nat.mod_eq_of_lt (by omega)] at heq
  exact UInt32.toNat_inj.1 heq

/-- The pegouts of a kernel with a message, and the section they make. -/
theorem fedMessage_eq_ok {k : KernelFields} (hk : k.FeaturesMatch) {msg : Bytes}
    (h : k.fedMessage = .ok (some msg)) :
    ∃ pegouts : List Pegout, k.parsedPegouts = pegouts.map some ∧
      (∀ pegout ∈ pegouts, pegout.IsWhole) ∧
      msg = List.flatten [
        [k.features], k.excessCommitment,
        (k.fee.map writeMwebVarint).getD [],
        (k.peginAmount.map writeMwebVarint).getD [],
        if hasBit k.features MWEB_KERNEL_PEGOUT_BIT then
          writeCount pegouts.length ++ pegouts.flatMap pegoutMessage
        else [],
        (k.lockHeight.map fun h => writeMwebVarint (UInt64.ofNat h.toNat)).getD [],
        k.stealthExcess.getD [],
        if hasBit k.features MWEB_KERNEL_EXTRA_DATA_BIT then
          writeCount k.extraData.length ++ k.extraData
        else []] := by
  rw [KernelFields.fedMessage] at h
  split at h
  · cases h
  · next hinside =>
      have h := Except.ok.inj h
      rw [kernelMessage] at h
      by_cases hbit : hasBit k.features MWEB_KERNEL_PEGOUT_BIT = true
      · rw [hbit, Bool.true_and, Bool.not_eq_true] at hinside
        rw [if_pos hbit] at h
        obtain ⟨pegouts, hpegouts, h⟩ := Option.bind_eq_some_iff.1 h
        have hparsed := mapM_eq_some.1 hpegouts
        have hlen : k.pegouts.items.length = pegouts.length := by
          simpa using congrArg List.length hparsed
        refine ⟨pegouts, hparsed, isWhole_of_overruns (by rwa [List.map_map]) hinside, ?_⟩
        simp only [hbit, if_true, writeCount, ← hlen]
        simpa using (Option.some.inj h).symm
      · have hempty : k.pegouts.items = [] := by
          have hmatch := hk.pegouts
          rw [Bool.eq_false_iff.2 hbit] at hmatch
          simpa using hmatch
        rw [if_neg hbit] at h
        refine ⟨[], by simp [KernelFields.parsedPegouts, hempty], by simp, ?_⟩
        simp only [hbit, writeCount]
        simpa using (Option.some.inj h).symm

/-! ### The message -/

/-- **Two kernels with one message are the same**: the fields are read off it one by one, and the
features byte at its front tells which of them there are. -/
theorem sameKernel_of_fedMessage {k k' : KernelFields} (hk : k.FeaturesMatch)
    (hk' : k'.FeaturesMatch) {msg : Bytes} (h : k.fedMessage = .ok (some msg))
    (h' : k'.fedMessage = .ok (some msg)) : SameKernel k k' := by
  obtain ⟨pegouts, hparsed, hwhole, hmsg⟩ := fedMessage_eq_ok hk h
  obtain ⟨pegouts', hparsed', hwhole', hmsg'⟩ := fedMessage_eq_ok hk' h'
  rw [hmsg] at hmsg'
  simp only [List.flatten_cons, List.flatten_nil, List.append_nil, List.singleton_append,
    List.cons.injEq] at hmsg'
  obtain ⟨hfeatures, heq⟩ := hmsg'
  obtain ⟨hexcess, heq⟩ := selfDelimiting_id 33 k.length_excess k'.length_excess _ _ heq
  have hoption : ∀ o o' : Option UInt64, o.isSome = o'.isSome → ∀ x y : Bytes,
      (o.map writeMwebVarint).getD [] ++ x = (o'.map writeMwebVarint).getD [] ++ y →
      o = o' ∧ x = y := fun o o' hsome x y =>
    selfDelimiting_writeMwebVarint.option o'.isSome ⟨hsome, fun _ _ => trivial⟩
      ⟨rfl, fun _ _ => trivial⟩ x y
  obtain ⟨hfee, heq⟩ := hoption _ _ (by rw [hk.fee, hk'.fee, hfeatures]) _ _ heq
  obtain ⟨hpegin, heq⟩ := hoption _ _ (by rw [hk.pegin, hk'.pegin, hfeatures]) _ _ heq
  have hsize : ∀ {k : KernelFields} {pegouts : List Pegout}, k.parsedPegouts = pegouts.map some →
      pegouts.length < 2 ^ 64 := fun {k pegouts} hparsed => by
    have hlen := congrArg List.length hparsed
    rw [KernelFields.parsedPegouts, List.length_map, List.length_map] at hlen
    exact hlen ▸ k.size_pegouts
  have habsent : ∀ {k : KernelFields} {pegouts : List Pegout}, k.FeaturesMatch →
      k.parsedPegouts = pegouts.map some →
      hasBit k.features MWEB_KERNEL_PEGOUT_BIT = false → pegouts = [] := by
    intro k pegouts hk hparsed hbit
    have hempty : k.pegouts.items = [] := by simpa [hbit] using hk.pegouts
    simpa [KernelFields.parsedPegouts, hempty] using hparsed.symm
  rw [← hfeatures] at heq
  obtain ⟨hentries, htail⟩ := ((selfDelimiting_writeCount.counted selfDelimiting_pegoutMessage).guarded
    (hasBit k.features MWEB_KERNEL_PEGOUT_BIT) [])
    ⟨fun _ => ⟨hsize hparsed, hwhole⟩, habsent hk hparsed⟩
    ⟨fun _ => ⟨hsize hparsed', hwhole'⟩, fun hbit => habsent hk' hparsed' (hfeatures ▸ hbit)⟩ _ _ heq
  obtain ⟨hlock, htail⟩ := (selfDelimiting_lockHeight.option k'.lockHeight.isSome)
    ⟨by rw [hk.lockHeight, hk'.lockHeight, hfeatures], fun _ _ => trivial⟩
    ⟨rfl, fun _ _ => trivial⟩ _ _ htail
  obtain ⟨hstealth, htail⟩ := ((selfDelimiting_id 33).option k'.stealthExcess.isSome)
    ⟨by rw [hk.stealth, hk'.stealth, hfeatures], k.length_stealth⟩ ⟨rfl, k'.length_stealth⟩ _ _
    (by simpa using htail)
  have hextra : ∀ {k : KernelFields}, k.FeaturesMatch →
      hasBit k.features MWEB_KERNEL_EXTRA_DATA_BIT = false → k.extraData = [] := by
    intro k hk hbit
    simpa [hbit] using hk.extraData
  obtain ⟨hextraData, -⟩ := (selfDelimiting_writeCount.sized.guarded
    (hasBit k.features MWEB_KERNEL_EXTRA_DATA_BIT) [])
    ⟨fun _ => k.size_extraData, hextra hk⟩
    ⟨fun _ => k'.size_extraData, fun hbit => hextra hk' (hfeatures ▸ hbit)⟩ [] []
    (by simpa using htail)
  exact {
    features := hfeatures
    excessCommitment := hexcess
    fee := hfee
    peginAmount := hpegin
    pegouts := by rw [hparsed, hparsed', hentries]
    lockHeight := hlock
    stealthExcess := hstealth
    extraData := hextraData }

/-- The kernel the signer is given, with the stealth excess that goes with its stealth key. -/
structure KernelFields.Of (k : KernelFields) (p : MwebKernelSignParams) : Prop where
  features : k.features = p.features
  fee : k.fee = p.fee
  peginAmount : k.peginAmount = p.peginAmount
  pegouts : k.pegouts = p.pegouts
  lockHeight : k.lockHeight = p.lockHeight
  extraData : k.extraData = p.extraData
  stealthExcess : k.stealthExcess.isSome = p.stealthKeyOrNull.isSome

/-- **The signer's checks**: a kernel that gets through them has matching features. -/
theorem sat_kernelValidate_features {k : KernelFields} {p : MwebKernelSignParams} (hk : k.Of p)
    (eK : Bytes) (t : Tape) :
    Sat (kernelValidate eK p) (fun _ _ => k.FeaturesMatch) (fun _ _ => True) t := by
  refine (sat_kernelValidate eK p t).mono (fun _ _ h => ?_) fun _ _ h => h
  exact {
    fee := by rw [hk.fee, hk.features, h.fee]
    pegin := by rw [hk.peginAmount, hk.features, h.pegin]
    pegouts := by rw [hk.pegouts, hk.features, h.pegouts]
    lockHeight := by rw [hk.lockHeight, hk.features, h.lockHeight]
    extraData := by rw [hk.extraData, hk.features, h.extraData]
    stealth := by rw [hk.stealthExcess, hk.features, h.stealthKey] }

/-- **The message is unambiguous**, and so are the two formats for integers in it. -/
theorem kernel_unambiguous :
    (∀ n m : UInt64, writeMwebVarint n <+: writeMwebVarint m → n = m) ∧
    (∀ n m : UInt64, mwebWriteCompactSize n <+: mwebWriteCompactSize m → n = m) ∧
    ∀ k k' : KernelFields, k.FeaturesMatch → k'.FeaturesMatch → ∀ msg,
      k.fedMessage = .ok (some msg) → k'.fedMessage = .ok (some msg) → SameKernel k k' :=
  ⟨fun _ _ => selfDelimiting_writeMwebVarint.prefixFree trivial trivial,
    fun _ _ => selfDelimiting_mwebWriteCompactSize.prefixFree trivial trivial,
    fun _ _ hk hk' _ => sameKernel_of_fedMessage hk hk'⟩

/-- A kernel with a fee, a pegout in the entry `entry`, and a stealth excess. -/
def pegoutKernel (entry : Bytes) : KernelFields where
  features := MWEB_KERNEL_FEE_BIT ||| MWEB_KERNEL_PEGOUT_BIT ||| MWEB_KERNEL_STEALTH_EXCESS_BIT
  excessCommitment := List.replicate 33 8
  fee := some 300
  peginAmount := none
  pegouts := WallyMap.empty.add (.int 0, entry)
  lockHeight := none
  stealthExcess := some (List.replicate 33 2)
  extraData := []
  length_excess := rfl
  length_stealth := by
    intro e h
    obtain rfl := Option.some.inj h
    rfl
  size_pegouts := by
    show 1 < 2 ^ 64
    decide
  size_extraData := by decide

/-- An amount of 5 with a script of one byte; the second entry has a byte after the script. -/
theorem kernel_unambiguous_pegout :
    ¬writeMwebVarint 300 <+: writeMwebVarint 16512 ∧
    ¬mwebWriteCompactSize 252 <+: mwebWriteCompactSize 253 ∧
    SameKernel (pegoutKernel [5, 0, 0, 0, 0, 0, 0, 0, 1, 0x51])
      (pegoutKernel [5, 0, 0, 0, 0, 0, 0, 0, 1, 0x51, 0]) := by
  obtain ⟨hvarint, hsize, hkernel⟩ := kernel_unambiguous
  refine ⟨fun h => absurd (hvarint _ _ h) (by decide), fun h => absurd (hsize _ _ h) (by decide),
    hkernel _ _ ?_ ?_ _ rfl rfl⟩
  · exact ⟨rfl, rfl, rfl, rfl, rfl, rfl⟩
  · exact ⟨rfl, rfl, rfl, rfl, rfl, rfl⟩

end Jade.Mweb
