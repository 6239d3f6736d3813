/-
**The parameters of a request (`utils/cbor_rpc.c`, `process/process_utils.h`).**

A process looks at the method of its message and takes the parameters one by one out of the map that
the message carries.  The getters that copy have been told the size of their buffer; those that hand
out a pointer rely on the text lying in one piece behind its head.

Main definitions:

* `Jade.TinyCborStrings`, `Jade.TinyCborValues` — the rest of the CBOR library;
* `Jade.rpcIsMethod`, `Jade.assertCurrentMessage`, `Jade.isCurrentMessage`, `Jade.getMsgParams` — the
  message of a process;
* `Jade.rpcHasFieldData`, `Jade.rpcGetString`, `Jade.rpcGetSizet`, `Jade.rpcGetBip32Path` — its
  parameters;
* `Jade.tinyCborStrings`, `Jade.tinyCborValues` — an instance that walks over the bytes.

Main results:

* `Jade.tinyCborStrings_lawful` — the walk over the bytes does what the library documents.
-/

import Jade.Utils.CborRpc

set_option relaxedAutoImplicit false
set_option autoImplicit false

namespace Jade

/-! ### More of the CBOR library -/

/-- The library with the comparison of a text. -/
structure TinyCborStrings (V : Type) extends TinyCbor V where
  textStringEquals : V → Bytes → Option Bool

/-- What the library documents about a text inside a complete item: it is compared by its content, and
one of known length lies in one piece behind its head. -/
structure TinyCborStrings.Lawful {V : Type} (C : TinyCborStrings V) : Prop
    extends C.toTinyCbor.Lawful where
  equals : ∀ {bs n v field w content} (s : Bytes), C.reader.next bs = some (n, v) →
    C.findValue v field = some w → C.isTextString w = true → C.copyTextString w = some content →
      C.textStringEquals w s = some (content == s)
  contiguous : ∀ {bs n v field w content}, C.reader.next bs = some (n, v) →
    C.findValue v field = some w → C.isTextString w = true → C.isLengthKnown w = true →
      C.copyTextString w = some content →
        C.nextByte w &&& CBOR_TYPE_MASK = CBOR_TEXT_MASK ∧
          C.getStringLength w = some content.length ∧
            ∀ skip, getSkip (C.nextByte w &&& CBOR_LEN_MASK) = .ok skip →
              ((C.getNextByte w).drop skip).take content.length = content

/-- The library with the values that are not strings.  The items of an array whose length is not
known are `none`, and so is an integer that is not unsigned. -/
structure TinyCborValues (V : Type) extends TinyCborStrings V where
  isNull : V → Bool
  arrayItems : V → Option (List V)
  getUint64 : V → Option UInt64

/-! ### The message of a process -/

section Message

variable {V : Type} (C : TinyCborStrings V)

/-- `rpc_is_method` -/
def rpcIsMethod (value : V) (method : Bytes) : Except WireAbort Bool := do
  jadeAssert (C.isValid value)
  jadeAssert (C.isMap value)
  match C.findValue value "method" with
  | none => .error .assert
  | some result => do
      jadeAssert (C.isValid result)
      jadeAssert (C.isTextString result)
      match C.textStringEquals result method with
      | none => .error .assert
      | some same => pure same

/-- `ASSERT_CURRENT_MESSAGE` -/
def assertCurrentMessage (value : V) (method : Bytes) : Except WireAbort Unit := do
  jadeAssert (rpcRequestValid C.toTinyCbor value)
  let same ← rpcIsMethod C value method
  jadeAssert same

/-- `IS_CURRENT_MESSAGE` -/
def isCurrentMessage (value : V) (method : Bytes) : Except WireAbort Bool :=
  if rpcRequestValid C.toTinyCbor value then rpcIsMethod C value method else .ok false

/-- `GET_MSG_PARAMS`; without a map the message is rejected. -/
def getMsgParams (value : V) : Option V :=
  match C.findValue value "params" with
  | none => none
  | some params => if !C.isValid params || !C.isMap params then none else some params

end Message

/-! ### Its parameters -/

section Params

variable {V : Type} (C : TinyCborValues V)

def rpcHasFieldData (field : String) (value : V) : Bool :=
  match rpcGetData C.toTinyCbor field value with
  | none => false
  | some result => !C.isNull result

/-- `rpc_get_string` into a buffer of `max` bytes; nothing is the empty string. -/
def rpcGetString (field : String) (max : ℕ) (value : V) : Except WireAbort Bytes :=
  match rpcGetData C.toTinyCbor field value with
  | none => .ok []
  | some result =>
      if !C.isTextString result then .ok []
      else
        match C.stringLength result with
        | none => .ok []
        | some len =>
            if max ≤ len then .ok []
            else
              match C.copyTextString result with
              | none => .error .assert
              | some content => do
                  jadeAssert (decide (content.length < max))
                  return content

/-- `rpc_get_sizet` -/
def rpcGetSizet (field : String) (value : V) : Option UInt32 :=
  match rpcGetData C.toTinyCbor field value with
  | none => none
  | some result =>
      match C.getUint64 result with
      | none => none
      | some n => if 0xFFFFFFFF < n then none else some n.toUInt32

/-- An element of a path. -/
def pathElement (item : V) : Option UInt32 :=
  match C.getUint64 item with
  | none => none
  | some n => if 0xFFFFFFFF < n then none else some n.toUInt32

/-- `rpc_get_bip32_path`: the elements, at most `maxPathLen` of them. -/
def rpcGetBip32Path (field : String) (maxPathLen : ℕ) (value : V) : Option (List UInt32) :=
  match rpcGetData C.toTinyCbor field value with
  | none => none
  | some result =>
      match C.arrayItems result with
      | none => none
      | some items => if maxPathLen < items.length then none else items.mapM (pathElement C)

theorem length_of_mapM {α β : Type} {f : α → Option β} {xs : List α} {ys : List β}
    (h : xs.mapM f = some ys) : ys.length = xs.length := by
  induction xs generalizing ys with
  | nil =>
      obtain rfl : [] = ys := Option.some.inj h
      rfl
  | cons x xs ih =>
      simp only [List.mapM_cons, Option.bind_eq_bind, Option.bind_eq_some_iff, Option.pure_def,
        Option.some.injEq] at h
      obtain ⟨y, -, ys', hys', rfl⟩ := h
      rw [List.length_cons, List.length_cons, ih hys']

theorem length_rpcGetBip32Path {C : TinyCborValues V} {field : String} {maxPathLen : ℕ} {value : V}
    {path : List UInt32} (h : rpcGetBip32Path C field maxPathLen value = some path) :
    path.length ≤ maxPathLen := by
  unfold rpcGetBip32Path at h
  split at h
  · cases h
  · split at h
    · cases h
    · rw [Option.ite_none_left_eq_some] at h
      obtain ⟨hle, hpath⟩ := h
      rw [length_of_mapM hpath]
      omega

end Params

/-! ### The walk over the bytes -/

/-- The walk over the bytes, with the comparison of a text. -/
def tinyCborStrings : TinyCborStrings Bytes where
  toTinyCbor := tinyCbor
  textStringEquals w s := some (Cbor.stringContent w == s)

/-- The head byte of a text. -/
theorem text_head {b : UInt8} (h : Cbor.major b = 3) : b &&& CBOR_TYPE_MASK = CBOR_TEXT_MASK := by
  have hall : ∀ n : Fin 256, n.val / 32 = 3 →
      UInt8.ofNat n.val &&& CBOR_TYPE_MASK = CBOR_TEXT_MASK := by decide +kernel
  have := hall ⟨b.toNat, b.toNat_lt⟩ h
  rwa [UInt8.ofNat_toNat] at this

/-- The bytes that are skipped are the head, when it has at most four bytes of length. -/
theorem getSkip_info (b : UInt8) : getSkip (b &&& CBOR_LEN_MASK) =
    if Cbor.info b < 27 then .ok (Cbor.headLength [b]) else .error .assert := by
  have hall : ∀ n : Fin 256, getSkip (UInt8.ofNat n.val &&& CBOR_LEN_MASK) =
      if Cbor.info (UInt8.ofNat n.val) < 27 then .ok (Cbor.headLength [UInt8.ofNat n.val])
      else .error .assert := by decide +kernel
  have := hall ⟨b.toNat, b.toNat_lt⟩
  rwa [UInt8.ofNat_toNat] at this

theorem tinyCborStrings_lawful : tinyCborStrings.Lawful where
  toLawful := tinyCbor_lawful
  equals := by
    intro bs n v field w content s _ _ _ hcopy
    obtain rfl : Cbor.stringContent w = content := Option.some.inj hcopy
    rfl
  contiguous := by
    intro bs n v field w content _ _ htext hknown hcopy
    obtain rfl : Cbor.stringContent w = content := Option.some.inj hcopy
    cases w with
    | nil => cases hknown
    | cons b w =>
        have hmajor : Cbor.major b = 3 := of_decide_eq_true htext
        have hk : Cbor.lengthKnown (b :: w) = true := hknown
        refine ⟨text_head hmajor, if_pos hk, ?_⟩
        intro skip hskip
        have hhead : skip = Cbor.headLength (b :: w) := by
          rw [show tinyCborStrings.nextByte (b :: w) = b from rfl, getSkip_info] at hskip
          split at hskip
          · cases hskip
            rfl
          · cases hskip
        subst hhead
        have hcontent : Cbor.stringContent (b :: w) =
            ((b :: w).drop (Cbor.headLength (b :: w))).take (Cbor.argument (b :: w)) := if_pos hk
        rw [hcontent, show tinyCborStrings.getNextByte (b :: w) = b :: w from rfl,
          List.take_eq_take_iff, List.length_take]
        exact min_assoc _ _ _ |>.trans (by rw [min_self])

/-- The walk over the bytes, with all values. -/
def tinyCborValues : TinyCborValues Bytes where
  toTinyCborStrings := tinyCborStrings
  isNull v := v = [0xf6]
  arrayItems v := if headMajor v = 4 && Cbor.lengthKnown v then some (Cbor.inner v) else none
  getUint64 v := if headMajor v = 0 then some (UInt64.ofNat (Cbor.argument v)) else none

/-- A text of fewer than 24 bytes, encoded. -/
def shortText (text : String) : Bytes := UInt8.ofNat (0x60 + (ascii text).length) :: ascii text

end Jade
