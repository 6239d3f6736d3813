/-
**Getters that copy and getters that point (`utils/cbor_rpc.c`).**

A string in a request can be had in two ways: copied into a buffer, or as a pointer into the message
with a length.  The getters that point decode the head of the string by hand.  A string may be sent
with a length of eight bytes, or in chunks without a length at all, and there the two ways part: the
first restarts the device, and of the second the pointer getters see nothing.

Main definitions:

* `Jade.TinyCborBytes` — the CBOR library with its byte strings, and `Jade.TinyCborBytes.Lawful` —
  what it documents about the strings of a message;
* `Jade.rpcGetBytes` — the getter that copies a byte string;
* `Jade.StringGettersAgree`, `Jade.BytesGettersAgree` — the two ways agree on a field;
* `Jade.InOnePiece` — the string has a length, of at most four bytes;
* `Jade.tinyCborBytes` — an instance that walks over the bytes.

Main results:

* `Jade.rpcGetRawTypePtr_eq` — what a pointer getter does at a string;
* `Jade.getters_agree_iff` — **the two ways agree exactly on strings in one piece**;
* `Jade.tinyCborBytes_lawful` — the walk over the bytes does what the library documents.
-/

import Jade.Utils.CborParams

set_option relaxedAutoImplicit false
set_option autoImplicit false

namespace Jade

/-! ### The strings of a message -/

/-- The library with its byte strings. -/
structure TinyCborBytes (V : Type) extends TinyCborValues V where
  isByteString : V → Bool
  copyByteString : V → Option Bytes

/-- A value that is found in the message `bs`: its item, or a field of a value found in it. -/
inductive Inside {V : Type} (C : TinyCbor V) (bs : Bytes) : V → Prop
  | item {n : ℕ} {v : V} : C.reader.next bs = some (n, v) → Inside C bs v
  | field {f : String} {v w : V} : Inside C bs v → C.findValue v f = some w → Inside C bs w

/-- What the library documents about a valid value of a message, for one type of strings: the head
byte tells the type, a string can be copied, and one of known length lies behind its head. -/
structure ReadsString {V : Type} (C : TinyCbor V) (bs : Bytes) (mask : UInt8) (isString : V → Bool)
    (copy : V → Option Bytes) (w : V) : Prop where
  kind : isString w = true ↔ C.nextByte w &&& CBOR_TYPE_MASK = mask
  content : isString w = true →
    ∃ content, copy w = some content ∧ C.stringLength w = some content.length
  contiguous : isString w = true → C.isLengthKnown w = true → ∀ content, copy w = some content →
    ∀ skip, getSkip (C.nextByte w &&& CBOR_LEN_MASK) = .ok skip →
      ((C.getNextByte w).drop skip).take content.length = content
  unknown : C.isLengthKnown w = false → C.getStringLength w = none
  within : C.getNextByte w <:+: bs

structure TinyCborBytes.Lawful {V : Type} (C : TinyCborBytes V) : Prop where
  text : ∀ {bs w}, Inside C.toTinyCbor bs w → C.isValid w = true →
    ReadsString C.toTinyCbor bs CBOR_TEXT_MASK C.isTextString C.copyTextString w
  bytes : ∀ {bs w}, Inside C.toTinyCbor bs w → C.isValid w = true →
    ReadsString C.toTinyCbor bs CBOR_BINARY_MASK C.isByteString C.copyByteString w

/-- `rpc_get_bytes` into a buffer of `max` bytes; nothing is the empty string. -/
def rpcGetBytes {V : Type} (C : TinyCborBytes V) (field : String) (max : ℕ) (value : V) :
    Except WireAbort Bytes := do
  jadeAssert (decide (0 < max))
  match rpcGetData C.toTinyCbor field value with
  | none => return []
  | some result =>
      if !C.isByteString result then return []
      match C.stringLength result with
      | none => return []
      | some len =>
          if len = 0 ∨ max < len then return []
          match C.copyByteString result with
          | none => .error .assert
          | some content => do
              jadeAssert (decide (0 < content.length))
              jadeAssert (decide (content.length ≤ max))
              return content

/-! ### The two ways -/

section Agree

variable {V : Type} (C : TinyCborBytes V)

/-- The buffer has room for the string in the field and a terminator. -/
def LargeEnough (field : String) (v : V) (max : ℕ) : Prop :=
  0 < max ∧ ∀ w len, C.findValue v field = some w → C.stringLength w = some len → len < max

/-- The pointer getter returns; what it returns is a part of the message that is not empty, and what
is copied into any buffer with enough room. -/
def Agree (bs : Bytes) (ptr : Except WireAbort (Option Bytes))
    (copied : ℕ → Except WireAbort Bytes) (enough : ℕ → Prop) : Prop :=
  ∃ slice, ptr = .ok slice ∧ (∀ s ∈ slice, s ≠ [] ∧ s <:+: bs) ∧
    ∀ max, enough max → copied max = .ok (slice.getD [])

def StringGettersAgree (bs : Bytes) (field : String) (v : V) : Prop :=
  Agree bs (rpcGetStringPtr C.toTinyCbor field v)
    (fun max => rpcGetString C.toTinyCborValues field max v) (LargeEnough C field v)

def BytesGettersAgree (bs : Bytes) (field : String) (v : V) : Prop :=
  Agree bs (rpcGetBytesPtr C.toTinyCbor field v) (fun max => rpcGetBytes C field max v)
    (LargeEnough C field v)

/-- A string that is not empty has a length, of at most four bytes. -/
def InOnePiece (w : V) : Prop :=
  C.isTextString w = true ∨ C.isByteString w = true → C.stringLength w ≠ some 0 →
    C.isLengthKnown w = true ∧ C.nextByte w &&& CBOR_LEN_MASK < 27

end Agree

/-! ### What the getters do at a string -/

section Getters

variable {V : Type} {C : TinyCbor V} {bs : Bytes} {mask : UInt8} {isString : V → Bool}
  {copy : V → Option Bytes} {w : V}

/-- The pointer getter finds nothing in a value of another type. -/
theorem rpcGetRawTypePtr_other (h : ReadsString C bs mask isString copy w)
    (hno : isString w = false) : rpcGetRawTypePtr C mask w = .ok none := by
  have htype : C.nextByte w &&& CBOR_TYPE_MASK ≠ mask := by
    intro heq
    exact absurd (hno.symm.trans (h.kind.2 heq)) Bool.false_ne_true
  rw [rpcGetRawTypePtr, if_pos htype]
  rfl

/-- At a string it returns the content, finds nothing when there is no length or the string is
empty, and stops at a length of eight bytes. -/
theorem rpcGetRawTypePtr_eq (h : ReadsString C bs mask isString copy w) (hw : isString w = true)
    {content : Bytes} (hcopy : copy w = some content) :
    rpcGetRawTypePtr C mask w =
      if C.isLengthKnown w = false ∨ content = [] then .ok none
      else if C.nextByte w &&& CBOR_LEN_MASK < 27 then .ok (some content)
      else .error .assert := by
  have htype : ¬C.nextByte w &&& CBOR_TYPE_MASK ≠ mask := not_not.2 (h.kind.1 hw)
  obtain ⟨content', hcopy', hlen⟩ := h.content hw
  obtain rfl : content' = content := Option.some.inj (hcopy'.symm.trans hcopy)
  rw [rpcGetRawTypePtr, if_neg htype]
  cases hknown : C.isLengthKnown w with
  | false =>
      rw [h.unknown hknown, if_pos (.inl rfl)]
      rfl
  | true =>
      rw [TinyCbor.stringLength, if_pos hknown] at hlen
      rw [hlen]
      cases content' with
      | nil =>
          rw [if_pos (.inr rfl)]
          rfl
      | cons b content =>
          rw [if_neg (by simp)]
          by_cases hlt : C.nextByte w &&& CBOR_LEN_MASK < 27
          · obtain ⟨skip, hskip⟩ := getSkip_of_lt hlt
            have hslice := h.contiguous hw hknown _ hcopy skip hskip
            rw [if_pos hlt]
            simp only [List.length_cons, hskip]
            exact congrArg (fun s => Except.ok (some s)) hslice
          · rw [if_neg hlt]
            simp only [List.length_cons, getSkip, jadeAssert, decide_eq_false hlt]
            rfl

/-- What it returns is a part of the message. -/
theorem isInfix_of_rpcGetRawTypePtr (h : ReadsString C bs mask isString copy w)
    {s : Bytes} (hs : rpcGetRawTypePtr C mask w = .ok (some s)) : s <:+: bs := by
  rw [rpcGetRawTypePtr] at hs
  split at hs
  · cases hs
  · split at hs
    · cases hs
    · cases hs
    · cases hskip : getSkip (C.nextByte w &&& CBOR_LEN_MASK) with
      | error e =>
          rw [hskip] at hs
          cases hs
      | ok skip =>
          rw [hskip] at hs
          cases hs
          exact ((List.take_prefix _ _).isInfix.trans (List.drop_suffix _ _).isInfix).trans h.within

end Getters

/-! ### The two ways agree on strings in one piece -/

section Fields

variable {V : Type} {C : TinyCborBytes V} {bs : Bytes} {field : String} {v w : V}

/-- The pointer getter and the copying one at a field that holds a valid value, for one type of
strings. -/
theorem agree_iff {mask : UInt8} {isString : V → Bool} {copy : V → Option Bytes}
    (h : ReadsString C.toTinyCbor bs mask isString copy w) {copied : ℕ → Except WireAbort Bytes}
    {enough : ℕ → Prop} (hex : ∃ max, enough max)
    (hother : isString w = false → ∀ max, enough max → copied max = .ok [])
    (hcopied : isString w = true → ∀ content, copy w = some content → ∀ max, enough max →
      copied max = .ok content) :
    Agree bs (rpcGetRawTypePtr C.toTinyCbor mask w) copied enough ↔
      (isString w = true → C.stringLength w ≠ some 0 →
        C.isLengthKnown w = true ∧ C.nextByte w &&& CBOR_LEN_MASK < 27) := by
  cases hw : isString w with
  | false =>
      refine ⟨fun _ h => absurd h Bool.false_ne_true, fun _ => ?_⟩
      exact ⟨none, rpcGetRawTypePtr_other h hw, by simp, fun max hmax => hother hw max hmax⟩
  | true =>
      obtain ⟨content, hcopy, hlen⟩ := h.content hw
      have hempty : C.stringLength w ≠ some 0 ↔ content ≠ [] := by
        rw [hlen]
        simp
      have hptr := rpcGetRawTypePtr_eq h hw hcopy
      rw [hempty]
      constructor
      · intro hagree _ hne
        obtain ⟨slice, hslice, -, hsame⟩ := hagree
        obtain ⟨max, hmax⟩ := hex
        have hcontent : content = slice.getD [] :=
          Except.ok.inj ((hcopied hw content hcopy max hmax).symm.trans (hsame max hmax))
        rw [hptr] at hslice
        split at hslice
        · -- nothing is found, and something was copied
          obtain rfl : none = slice := Except.ok.inj hslice
          exact absurd hcontent hne
        · next hknown =>
            split at hslice
            · next hlt =>
                refine ⟨?_, hlt⟩
                by_contra hfalse
                exact hknown (.inl (by simpa using hfalse))
            · cases hslice
      · intro hpiece
        by_cases hne : content = []
        · refine ⟨none, by rw [hptr, if_pos (.inr hne)], by simp, ?_⟩
          intro max hmax
          rw [hcopied hw content hcopy max hmax, hne]
          rfl
        · obtain ⟨hknown, hlt⟩ := hpiece rfl hne
          have hok : rpcGetRawTypePtr C.toTinyCbor mask w = .ok (some content) := by
            rw [hptr, if_neg (by simp [hknown, hne]), if_pos hlt]
          refine ⟨some content, hok, ?_, fun max hmax => hcopied hw content hcopy max hmax⟩
          intro s hs
          obtain rfl := Option.mem_some_iff.1 hs
          exact ⟨hne, isInfix_of_rpcGetRawTypePtr h hok⟩

theorem exists_largeEnough (C : TinyCborBytes V) (field : String) (v : V) :
    ∃ max, LargeEnough C field v max := by
  cases hfind : C.findValue v field with
  | none => exact ⟨1, Nat.one_pos, fun w len h => absurd (hfind.symm.trans h) (by simp)⟩
  | some w =>
      refine ⟨(C.stringLength w).getD 0 + 1, Nat.succ_pos _, ?_⟩
      intro w' len hw' hlen
      obtain rfl : w = w' := Option.some.inj (hfind.symm.trans hw')
      rw [hlen]
      exact Nat.lt_succ_self len

/-- What `rpc_get_string` copies. -/
theorem rpcGetString_eq (hdata : rpcGetData C.toTinyCbor field v = some w)
    (hfind : C.findValue v field = some w)
    (h : ReadsString C.toTinyCbor bs CBOR_TEXT_MASK C.isTextString C.copyTextString w) {max : ℕ}
    (hmax : LargeEnough C field v max) :
    (C.isTextString w = false → rpcGetString C.toTinyCborValues field max v = .ok []) ∧
      (C.isTextString w = true → ∀ content, C.copyTextString w = some content →
        rpcGetString C.toTinyCborValues field max v = .ok content) := by
  constructor
  · intro hw
    simp only [rpcGetString, hdata, hw, Bool.not_false, if_true]
  · intro hw content hcopy
    obtain ⟨content', hcopy', hlen⟩ := h.content hw
    obtain rfl : content' = content := Option.some.inj (hcopy'.symm.trans hcopy)
    have hlt : content'.length < max := hmax.2 w _ hfind hlen
    simp only [rpcGetString, hdata, hw, Bool.not_true, Bool.false_eq_true, if_false, hlen,
      if_neg (Nat.not_le.2 hlt), hcopy, jadeAssert, decide_eq_true hlt]
    rfl

/-- What `rpc_get_bytes` copies. -/
theorem rpcGetBytes_eq (hdata : rpcGetData C.toTinyCbor field v = some w)
    (hfind : C.findValue v field = some w)
    (h : ReadsString C.toTinyCbor bs CBOR_BINARY_MASK C.isByteString C.copyByteString w) {max : ℕ}
    (hmax : LargeEnough C field v max) :
    (C.isByteString w = false → rpcGetBytes C field max v = .ok []) ∧
      (C.isByteString w = true → ∀ content, C.copyByteString w = some content →
        rpcGetBytes C field max v = .ok content) := by
  have hpos : jadeAssert (decide (0 < max)) = .ok () := by
    rw [decide_eq_true hmax.1]
    rfl
  constructor
  · intro hw
    simp only [rpcGetBytes, hpos, hdata, hw, Bool.not_false, if_true]
    rfl
  · intro hw content hcopy
    obtain ⟨content', hcopy', hlen⟩ := h.content hw
    obtain rfl : content' = content := Option.some.inj (hcopy'.symm.trans hcopy)
    have hlt : content'.length < max := hmax.2 w _ hfind hlen
    simp only [rpcGetBytes, hpos, hdata, hw, Bool.not_true, Bool.false_eq_true, if_false, hlen]
    cases content' with
    | nil => rfl
    | cons b content =>
        have hne : ¬((b :: content).length = 0 ∨ max < (b :: content).length) := by
          simp only [List.length_cons] at hlt ⊢
          omega
        have hlen' : 0 < (b :: content).length := Nat.succ_pos _
        simp only [if_neg hne, hcopy, jadeAssert, decide_eq_true hlt.le, decide_eq_true hlen']
        rfl

/-- A field that is missing, or holds nothing valid, is absent both ways. -/
theorem agree_of_absent {ptr : Except WireAbort (Option Bytes)}
    {copied : ℕ → Except WireAbort Bytes} {enough : ℕ → Prop} (hptr : ptr = .ok none)
    (hcopied : ∀ max, enough max → copied max = .ok []) : Agree bs ptr copied enough :=
  ⟨none, hptr, by simp, hcopied⟩

end Fields

/-! ### The walk over the bytes -/

/-- The walk over the bytes, with byte strings. -/
def tinyCborBytes : TinyCborBytes Bytes where
  toTinyCborValues := tinyCborValues
  isByteString v := headMajor v = 2
  copyByteString v := some (Cbor.stringContent v)

theorem isInfix_of_mem_takeItems (fuel : ℕ) (bs : Bytes) :
    ∀ item ∈ Cbor.takeItems fuel bs, item <:+: bs := by
  induction fuel generalizing bs with
  | zero =>
      intro item hitem
      exact absurd hitem List.not_mem_nil
  | succ fuel ih =>
      intro item hitem
      rw [Cbor.takeItems] at hitem
      cases hnext : Cbor.reader.next bs with
      | none =>
          rw [hnext] at hitem
          exact absurd hitem List.not_mem_nil
      | some first =>
          rw [hnext] at hitem
          rcases List.mem_cons.1 hitem with rfl | hitem
          · exact (List.take_prefix first.1 bs).isInfix
          · exact (ih (bs.drop first.1) item hitem).trans (List.drop_suffix first.1 bs).isInfix

theorem mem_of_mem_pairs {entries : List Bytes} {entry : Bytes × Bytes}
    (h : entry ∈ Cbor.pairs entries) : entry.2 ∈ entries := by
  induction entries using Cbor.pairs.induct with
  | case1 key value rest ih =>
      rw [Cbor.pairs] at h
      rcases List.mem_cons.1 h with rfl | h
      · simp
      · exact List.mem_cons_of_mem _ (List.mem_cons_of_mem _ (ih h))
  | case2 entries hno =>
      rw [Cbor.pairs] at h
      · exact absurd h List.not_mem_nil
      · exact hno

/-- A value that is found in a message is a part of it. -/
theorem isInfix_of_inside {bs v : Bytes} (h : Inside tinyCborBytes.toTinyCbor bs v) :
    v <:+: bs := by
  induction h with
  | item hnext =>
      obtain ⟨len, -, heq⟩ := Option.map_eq_some_iff.1 hnext
      cases heq
      exact (List.take_prefix _ bs).isInfix
  | @field f v w _ hfind ih =>
      obtain ⟨entry, hentry, rfl⟩ := Option.map_eq_some_iff.1 hfind
      have hmem := mem_of_mem_pairs (List.mem_of_find?_eq_some hentry)
      have hinner := isInfix_of_mem_takeItems _ _ _ hmem
      exact (hinner.trans (List.drop_suffix _ _).isInfix).trans ih

/-- The head byte tells the type of a string. -/
theorem mask_iff (b : UInt8) :
    (Cbor.major b = 3 ↔ b &&& CBOR_TYPE_MASK = CBOR_TEXT_MASK) ∧
      (Cbor.major b = 2 ↔ b &&& CBOR_TYPE_MASK = CBOR_BINARY_MASK) := by
  have hall : ∀ n : Fin 256,
      (n.val / 32 = 3 ↔ UInt8.ofNat n.val &&& CBOR_TYPE_MASK = CBOR_TEXT_MASK) ∧
        (n.val / 32 = 2 ↔ UInt8.ofNat n.val &&& CBOR_TYPE_MASK = CBOR_BINARY_MASK) := by
    decide +kernel
  have h := hall ⟨b.toNat, b.toNat_lt⟩
  rwa [UInt8.ofNat_toNat] at h

theorem readsString_walk {bs w : Bytes} {mask : UInt8} {n : ℕ} (hn : n < 8)
    (hw : Inside tinyCborBytes.toTinyCbor bs w) (hzero : (0 : UInt8) &&& CBOR_TYPE_MASK ≠ mask)
    (hmask : ∀ b, Cbor.major b = n ↔ b &&& CBOR_TYPE_MASK = mask) :
    ReadsString tinyCborBytes.toTinyCbor bs mask (fun v => headMajor v = n)
      (fun v => some (Cbor.stringContent v)) w where
  kind := by
    cases w with
    | nil =>
        refine ⟨fun h => ?_, fun h => absurd h hzero⟩
        have h8 : (8 : ℕ) = n := of_decide_eq_true h
        omega
    | cons b w => exact decide_eq_true_iff.trans (hmask b)
  content := by
    intro _
    refine ⟨_, rfl, ?_⟩
    rw [TinyCbor.stringLength]
    split
    · next hknown => exact if_pos hknown
    · rfl
  contiguous := by
    intro _ hknown content hcopy skip hskip
    obtain rfl : Cbor.stringContent w = content := Option.some.inj hcopy
    cases w with
    | nil => cases hknown
    | cons b w =>
        have hk : Cbor.lengthKnown (b :: w) = true := hknown
        have hhead : skip = Cbor.headLength (b :: w) := by
          rw [show tinyCborBytes.nextByte (b :: w) = b from rfl, getSkip_info] at hskip
          split at hskip
          · cases hskip
            rfl
          · cases hskip
        have hcontent : Cbor.stringContent (b :: w) =
            ((b :: w).drop skip).take (Cbor.argument (b :: w)) := by
          rw [hhead]
          exact if_pos hk
        rw [hcontent, show tinyCborBytes.getNextByte (b :: w) = b :: w from rfl,
          List.take_eq_take_iff, List.length_take]
        exact min_assoc _ _ _ |>.trans (by rw [min_self])
  unknown := by
    intro h
    exact if_neg (by rw [show Cbor.lengthKnown w = false from h]; exact Bool.false_ne_true)
  within := isInfix_of_inside hw

theorem tinyCborBytes_lawful : tinyCborBytes.Lawful where
  text hw _ := readsString_walk (by omega) hw (by decide) fun b => (mask_iff b).1
  bytes hw _ := readsString_walk (by omega) hw (by decide) fun b => (mask_iff b).2

/-! ### The result -/

/-- **The pointer getters agree with the copying ones exactly on strings in one piece.** For every
map found in a message and every field of it: a string that has a length of at most four bytes, or
is empty, is the same slice of the message that is copied; at any other one the pointer getter stops
the device, or finds nothing where there is something to copy. -/
theorem getters_agree_iff {V : Type} (C : TinyCborBytes V) (hC : C.Lawful) {bs : Bytes} {v : V}
    (hv : Inside C.toTinyCbor bs v) (hvalid : C.isValid v = true) (hmap : C.isMap v = true)
    (field : String) :
    (StringGettersAgree C bs field v ∧ BytesGettersAgree C bs field v) ↔
      ∀ w, C.findValue v field = some w → C.isValid w = true → InOnePiece C w := by
  cases hfind : C.findValue v field with
  | none =>
      refine ⟨fun _ w h => absurd h (by simp), fun _ => ⟨?_, ?_⟩⟩
      · refine agree_of_absent (by rw [rpcGetStringPtr, hfind]) ?_
        intro max _
        simp only [rpcGetString, rpcGetData, hvalid, hmap, hfind, Bool.not_true, Bool.false_eq_true,
          if_false]
      · refine agree_of_absent (by rw [rpcGetBytesPtr, hfind]) ?_
        intro max hmax
        simp only [rpcGetBytes, rpcGetData, hvalid, hmap, hfind, Bool.not_true, Bool.false_eq_true,
          if_false, jadeAssert, decide_eq_true hmax.1]
        rfl
  | some w =>
      cases hw : C.isValid w with
      | false =>
          refine ⟨fun _ w' h hw' => ?_, fun _ => ⟨?_, ?_⟩⟩
          · obtain rfl : w = w' := Option.some.inj h
            exact absurd (hw.symm.trans hw') Bool.false_ne_true
          · refine agree_of_absent (by simp [rpcGetStringPtr, hfind, hw]) ?_
            intro max _
            simp [rpcGetString, rpcGetData, hvalid, hmap, hfind, hw]
          · refine agree_of_absent (by simp [rpcGetBytesPtr, hfind, hw]) ?_
            intro max hmax
            simp only [rpcGetBytes, rpcGetData, hvalid, hmap, hfind, hw, Bool.not_true,
              Bool.not_false, Bool.false_eq_true, if_false, if_true, jadeAssert,
              decide_eq_true hmax.1]
            rfl
      | true =>
          have hdata := rpcGetData_of_find hvalid hmap hfind hw
          have htext := hC.text (hv.field hfind) hw
          have hbytes := hC.bytes (hv.field hfind) hw
          have hstring : StringGettersAgree C bs field v ↔ (C.isTextString w = true →
              C.stringLength w ≠ some 0 →
                C.isLengthKnown w = true ∧ C.nextByte w &&& CBOR_LEN_MASK < 27) := by
            have h := agree_iff htext (exists_largeEnough C field v)
              (fun hno max hmax => (rpcGetString_eq hdata hfind htext hmax).1 hno)
              (fun hyes content hcopy max hmax =>
                (rpcGetString_eq hdata hfind htext hmax).2 hyes content hcopy)
            simpa only [StringGettersAgree, rpcGetStringPtr, rpcGetRawStringPtr, hfind, hw,
              Bool.not_true, Bool.false_eq_true, if_false] using h
          have hbyte : BytesGettersAgree C bs field v ↔ (C.isByteString w = true →
              C.stringLength w ≠ some 0 →
                C.isLengthKnown w = true ∧ C.nextByte w &&& CBOR_LEN_MASK < 27) := by
            have h := agree_iff hbytes (exists_largeEnough C field v)
              (fun hno max hmax => (rpcGetBytes_eq hdata hfind hbytes hmax).1 hno)
              (fun hyes content hcopy max hmax =>
                (rpcGetBytes_eq hdata hfind hbytes hmax).2 hyes content hcopy)
            simpa only [BytesGettersAgree, rpcGetBytesPtr, hfind, hw, Bool.not_true,
              Bool.false_eq_true, if_false] using h
          rw [hstring, hbyte]
          constructor
          · intro h w' hw' _ hkind
            obtain rfl : w = w' := Option.some.inj hw'
            exact hkind.elim h.1 h.2
          · intro h
            exact ⟨fun hkind => h w rfl hw (.inl hkind), fun hkind => h w rfl hw (.inr hkind)⟩

/-- A map with a byte string of three bytes. -/
def shortBytes : Bytes := [0xa1, 0x61, 0x64, 0x43, 1, 2, 3]

theorem getters_agree_shortBytes :
    StringGettersAgree tinyCborBytes shortBytes "d" shortBytes ∧
      BytesGettersAgree tinyCborBytes shortBytes "d" shortBytes := by
  have hnext : tinyCborBytes.reader.next shortBytes = some (7, shortBytes) := by decide +kernel
  refine (getters_agree_iff tinyCborBytes tinyCborBytes_lawful (.item hnext) (by decide)
    (by decide) "d").2 ?_
  intro w hw _ _ _
  have hfind : tinyCborBytes.findValue shortBytes "d" = some [0x43, 1, 2, 3] := by decide +kernel
  obtain rfl : [0x43, 1, 2, 3] = w := Option.some.inj (hfind.symm.trans hw)
  exact ⟨by decide +kernel, by decide +kernel⟩

/-- The same byte string, of one byte, with a length of eight bytes, and in chunks. -/
def longLength : Bytes := [0xa1, 0x61, 0x64, 0x5b, 0, 0, 0, 0, 0, 0, 0, 1, 7]

def inChunks : Bytes := [0xa1, 0x61, 0x64, 0x5f, 0x41, 7, 0xff]

/-- **A length of eight bytes stops the device, and a string in chunks is not seen**; both are
copied without trouble. -/
theorem getters_part :
    rpcGetBytesPtr tinyCborBytes.toTinyCbor "d" longLength = .error .assert ∧
      rpcGetBytes tinyCborBytes "d" 100 longLength = .ok [7] ∧
      rpcGetBytesPtr tinyCborBytes.toTinyCbor "d" inChunks = .ok none ∧
      rpcGetBytes tinyCborBytes "d" 100 inChunks = .ok [7] ∧
      ¬BytesGettersAgree tinyCborBytes longLength "d" longLength ∧
      ¬BytesGettersAgree tinyCborBytes inChunks "d" inChunks := by
  have hlong : rpcGetBytesPtr tinyCborBytes.toTinyCbor "d" longLength = .error .assert := by
    decide +kernel
  have hchunks : rpcGetBytesPtr tinyCborBytes.toTinyCbor "d" inChunks = .ok none := by
    decide +kernel
  refine ⟨hlong, by decide +kernel, hchunks, by decide +kernel, ?_, ?_⟩
  · intro h
    obtain ⟨slice, hslice, -⟩ := h
    rw [hlong] at hslice
    cases hslice
  · intro h
    obtain ⟨slice, hslice, -, hsame⟩ := h
    obtain rfl : none = slice := Except.ok.inj (hchunks.symm.trans hslice)
    have hlarge : LargeEnough tinyCborBytes "d" inChunks 100 := by
      refine ⟨by decide, ?_⟩
      intro w len hw hlen
      have hfind : tinyCborBytes.findValue inChunks "d" = some [0x5f, 0x41, 7, 0xff] := by
        decide +kernel
      obtain rfl : [0x5f, 0x41, 7, 0xff] = w := Option.some.inj (hfind.symm.trans hw)
      have hone : tinyCborBytes.stringLength [0x5f, 0x41, 7, 0xff] = some 1 := by decide +kernel
      obtain rfl : 1 = len := Option.some.inj (hone.symm.trans hlen)
      decide
    have hcopy : rpcGetBytes tinyCborBytes "d" 100 inChunks = .ok [7] := by decide +kernel
    exact absurd (hcopy.symm.trans (hsame 100 hlarge)) (by decide)

end Jade
