/-
**Reading a request** (`utils/cbor_rpc.c`).

The CBOR library is a parameter: what it finds at the front of a buffer, and how it answers the
questions the getters ask about a value.  The getters are embedded with their assertions, and a
failed assertion is an abort of the device.

Main definitions:

* `Jade.TinyCbor` — the part of the CBOR library that is used, `Jade.TinyCbor.Lawful` — what it
  documents;
* `Jade.rpcGetData`, `Jade.rpcGetStringLen`, `Jade.rpcRequestValid`, `Jade.rpcGetStringPtr`,
  `Jade.rpcGetMethod`, `Jade.rpcGetId` — the getters;
* `Jade.tinyCbor` — an instance that walks over the bytes.

Main results:

* `Jade.rpcGetRawStringPtr_spec` — the pointer getter aborts exactly at a string whose length takes eight
  bytes;
* `Jade.rpcGetMethod_of_valid`, `Jade.rpcGetId_of_valid` — what the getters do on a valid request;
* `Jade.tinyCbor_lawful` — the instance does what the library documents.
-/

import Jade.Lib.Cbor
import Jade.Lib.Stream

set_option relaxedAutoImplicit false
set_option autoImplicit false

namespace Jade

/-! ### The codes of a rejection -/

def CBOR_RPC_BAD_PARAMETERS : ℤ := -32602
def CBOR_RPC_INTERNAL_ERROR : ℤ := -32603
def CBOR_RPC_USER_CANCELLED : ℤ := -32000
def CBOR_RPC_UNKNOWN_METHOD : ℤ := -32601
def CBOR_RPC_PROTOCOL_ERROR : ℤ := -32001
def CBOR_RPC_HW_LOCKED : ℤ := -32002

/-! ### The CBOR library -/

/-- The functions of the CBOR library.  `reader` is `cbor_parser_init` followed by
`cbor_value_advance`, `parserInit` is the root value of a buffer with no complete item, and `none` is
an error or an invalid type. -/
structure TinyCbor (V : Type) where
  reader : Stream.Reader UInt8 V
  parserInit : Bytes → Option V
  isValid : V → Bool
  isMap : V → Bool
  isTextString : V → Bool
  isBoolean : V → Bool
  findValue : V → String → Option V
  isLengthKnown : V → Bool
  getStringLength : V → Option ℕ
  calculateStringLength : V → Option ℕ
  copyTextString : V → Option Bytes
  getNextByte : V → Bytes
  getBoolean : V → Option Bool

namespace TinyCbor

variable {V : Type} (C : TinyCbor V)

/-- The length of a string, known or computed. -/
def stringLength (v : V) : Option ℕ :=
  if C.isLengthKnown v then C.getStringLength v else C.calculateStringLength v

/-- `*cbor_value_get_next_byte(value)`. -/
def nextByte (v : V) : UInt8 :=
  match C.getNextByte v with
  | [] => 0
  | b :: _ => b

/-- What the library documents: an item is read without looking further, the length of a string in
chunks is not known beforehand, and a string inside a complete item can be copied. -/
structure Lawful : Prop where
  stable : C.reader.Stable
  unknown : ∀ v, C.isLengthKnown v = false → C.getStringLength v = none
  copy : ∀ bs n v field w len, C.reader.next bs = some (n, v) → C.findValue v field = some w →
    C.isTextString w = true → C.stringLength w = some len →
      ∃ content, C.copyTextString w = some content ∧ content.length = len

end TinyCbor

/-! ### The getters -/

def CBOR_RPC_INVALID_REQUEST : ℤ := -32600

def MAXLEN_ID : ℕ := 16

def MAXLEN_METHOD : ℕ := 32

def CBOR_BINARY_MASK : UInt8 := 0x40

def CBOR_TEXT_MASK : UInt8 := 0x60

def CBOR_TYPE_MASK : UInt8 := 0xe0

def CBOR_LEN_MASK : UInt8 := 0x1f

/-- A failed `JADE_ASSERT`. -/
inductive WireAbort
  | assert
  deriving DecidableEq, Repr

def jadeAssert (c : Bool) : Except WireAbort Unit := if c then .ok () else .error .assert

variable {V : Type} (C : TinyCbor V)

def rpcGetData (field : String) (value : V) : Option V :=
  if !C.isValid value then none
  else if !C.isMap value then none
  else
    match C.findValue value field with
    | none => none
    | some result => if !C.isValid result then none else some result

/-- The length of a text field, zero when there is none. -/
def rpcGetStringLen (field : String) (value : V) : ℕ :=
  match rpcGetData C field value with
  | none => 0
  | some result => if !C.isTextString result then 0 else (C.stringLength result).getD 0

def rpcMessageValid (message : V) : Bool :=
  if !C.isValid message then false
  else if !C.isMap message then false
  else
    let written := rpcGetStringLen C "id" message
    !(written == 0 || decide (MAXLEN_ID < written))

def rpcRequestValid (request : V) : Bool :=
  if !rpcMessageValid C request then false
  else
    let written := rpcGetStringLen C "method" request
    !(written == 0 || decide (MAXLEN_METHOD < written))

/-- The bytes between the head byte and the payload, the head byte counted. -/
def getSkip (lencode : UInt8) : Except WireAbort ℕ := do
  jadeAssert (decide (lencode < 27))
  if lencode < 24 then return 1
  else if lencode = 24 then return 2
  else if lencode = 25 then return 3
  else return 5

/-- `rpc_get_raw_type_ptr`: the bytes of a string of the type given by the mask, or `none`. -/
def rpcGetRawTypePtr (mask : UInt8) (value : V) : Except WireAbort (Option Bytes) := do
  if C.nextByte value &&& CBOR_TYPE_MASK ≠ mask then return none
  match C.getStringLength value with
  | none | some 0 => return none
  | some size =>
      let skip ← getSkip (C.nextByte value &&& CBOR_LEN_MASK)
      return some (((C.getNextByte value).drop skip).take size)

def rpcGetRawStringPtr (value : V) : Except WireAbort (Option Bytes) :=
  rpcGetRawTypePtr C CBOR_TEXT_MASK value

def rpcGetStringPtr (field : String) (value : V) : Except WireAbort (Option Bytes) :=
  match C.findValue value field with
  | none => .ok none
  | some result => if !C.isValid result then .ok none else rpcGetRawStringPtr C result

def rpcGetBytesPtr (field : String) (value : V) : Except WireAbort (Option Bytes) :=
  match C.findValue value field with
  | none => .ok none
  | some result => if !C.isValid result then .ok none else rpcGetRawTypePtr C CBOR_BINARY_MASK result

def rpcGetMethod (value : V) : Except WireAbort (Option Bytes) := do
  jadeAssert (C.isValid value)
  jadeAssert (C.isMap value)
  let method ← rpcGetStringPtr C "method" value
  jadeAssert (decide ((method.getD []).length ≤ MAXLEN_METHOD))
  return method

/-- `rpc_get_id`: the content of the id, empty when there is none or it does not fit. -/
def rpcGetId (value : V) : Except WireAbort Bytes :=
  match rpcGetData C "id" value with
  | none => .ok []
  | some result =>
      if !C.isTextString result then .ok []
      else
        match C.stringLength result with
        | none => .ok []
        | some len =>
            if MAXLEN_ID + 1 ≤ len then .ok []
            else
              match C.copyTextString result with
              | none => .error .assert
              | some content => do
                  jadeAssert (decide (content.length < MAXLEN_ID + 1))
                  return content

def rpcGetMap (field : String) (value : V) : Option V :=
  match rpcGetData C field value with
  | none => none
  | some result => if C.isMap result then some result else none

def rpcGetBoolean (field : String) (value : V) : Option Bool :=
  match rpcGetData C field value with
  | none => none
  | some result => if C.isBoolean result then C.getBoolean result else none

/-! ### What the getters do on a valid request -/

variable {C}

theorem rpcGetStringLen_pos {field : String} {value : V}
    (h : rpcGetStringLen C field value ≠ 0) :
    C.isValid value = true ∧ C.isMap value = true ∧ ∃ result, C.findValue value field = some result ∧
      C.isValid result = true ∧ C.isTextString result = true ∧
        C.stringLength result = some (rpcGetStringLen C field value) := by
  unfold rpcGetStringLen rpcGetData at h ⊢
  cases hvalid : C.isValid value with
  | false => simp [hvalid] at h
  | true =>
      cases hmap : C.isMap value with
      | false => simp [hvalid, hmap] at h
      | true =>
          cases hfind : C.findValue value field with
          | none => simp [hvalid, hmap, hfind] at h
          | some result =>
              cases hr : C.isValid result with
              | false => simp [hvalid, hmap, hfind, hr] at h
              | true =>
                  cases htext : C.isTextString result with
                  | false => simp [hvalid, hmap, hfind, hr, htext] at h
                  | true =>
                      cases hlen : C.stringLength result with
                      | none => simp [hvalid, hmap, hfind, hr, htext, hlen] at h
                      | some len => simp [hr, htext, hlen]

/-- A valid request is a map with an id of at most 16 and a method of at most 32 bytes. -/
theorem rpcRequestValid_iff {request : V} :
    rpcRequestValid C request = true ↔
      (0 < rpcGetStringLen C "id" request ∧ rpcGetStringLen C "id" request ≤ MAXLEN_ID) ∧
        0 < rpcGetStringLen C "method" request ∧
          rpcGetStringLen C "method" request ≤ MAXLEN_METHOD := by
  constructor
  · intro h
    unfold rpcRequestValid rpcMessageValid at h
    cases hvalid : C.isValid request <;> cases hmap : C.isMap request <;>
      simp [hvalid, hmap] at h
    omega
  · rintro ⟨hid, hmethod⟩
    obtain ⟨hvalid, hmap, -⟩ := rpcGetStringLen_pos (Nat.pos_iff_ne_zero.1 hid.1)
    unfold rpcRequestValid rpcMessageValid
    simp [hvalid, hmap]
    omega

/-- The string of the type given by the mask has a known length, which takes eight bytes in its
head. -/
def eightByteLengthOf (C : TinyCbor V) (mask : UInt8) (value : V) : Bool :=
  C.nextByte value &&& CBOR_TYPE_MASK == mask &&
    (C.getStringLength value).getD 0 != 0 &&
      !decide (C.nextByte value &&& CBOR_LEN_MASK < 27)

/-- The text has a known length, which takes eight bytes in its head. -/
def eightByteLength (C : TinyCbor V) (value : V) : Bool := eightByteLengthOf C CBOR_TEXT_MASK value

theorem getSkip_of_lt {lencode : UInt8} (h : lencode < 27) : ∃ skip, getSkip lencode = .ok skip := by
  unfold getSkip jadeAssert
  rw [decide_eq_true h, if_pos rfl]
  by_cases h1 : lencode < 24
  · exact ⟨1, by simp [bind, Except.bind, pure, Except.pure, h1]⟩
  · by_cases h2 : lencode = 24
    · exact ⟨2, by simp [bind, Except.bind, pure, Except.pure, h2]⟩
    · by_cases h3 : lencode = 25
      · exact ⟨3, by simp [bind, Except.bind, pure, Except.pure, h3]⟩
      · exact ⟨5, by simp [bind, Except.bind, pure, Except.pure, h1, h2, h3]⟩

theorem rpcGetRawTypePtr_spec (mask : UInt8) (value : V) :
    (eightByteLengthOf C mask value = true ∧ rpcGetRawTypePtr C mask value = .error .assert) ∨
      (eightByteLengthOf C mask value = false ∧ ∃ data, rpcGetRawTypePtr C mask value = .ok data ∧
        ((data.getD []).length ≤ (C.getStringLength value).getD 0)) := by
  unfold eightByteLengthOf rpcGetRawTypePtr
  by_cases htype : C.nextByte value &&& CBOR_TYPE_MASK = mask
  · cases hlen : C.getStringLength value with
    | none => exact .inr ⟨by simp, none, by rw [if_neg (not_not.2 htype)]; rfl, by simp⟩
    | some size =>
        cases size with
        | zero => exact .inr ⟨by simp, none, by rw [if_neg (not_not.2 htype)]; rfl, by simp⟩
        | succ size =>
            by_cases hskip : C.nextByte value &&& CBOR_LEN_MASK < 27
            · obtain ⟨skip, hs⟩ := getSkip_of_lt hskip
              refine .inr ⟨by simp [hskip], some (((C.getNextByte value).drop skip).take (size + 1)),
                ?_, ?_⟩
              · simp only [htype, ne_eq, not_true, if_false, hs]
                rfl
              · simp only [Option.getD_some, List.length_take]
                omega
            · refine .inl ⟨by simp [htype, hskip], ?_⟩
              simp only [htype, ne_eq, not_true, if_false, getSkip, jadeAssert,
                decide_eq_false hskip]
              rfl
  · refine .inr ⟨by simp [htype], none, ?_, by simp⟩
    rw [if_pos htype]
    rfl

/-- **The pointer getter aborts exactly at a string whose length takes eight bytes.**  What it
returns otherwise is not longer than the string. -/
theorem rpcGetRawStringPtr_spec (value : V) :
    (eightByteLength C value = true ∧ rpcGetRawStringPtr C value = .error .assert) ∨
      (eightByteLength C value = false ∧ ∃ data, rpcGetRawStringPtr C value = .ok data ∧
        ((data.getD []).length ≤ (C.getStringLength value).getD 0)) :=
  rpcGetRawTypePtr_spec CBOR_TEXT_MASK value

theorem rpcGetData_of_find {field : String} {value result : V} (hvalid : C.isValid value = true)
    (hmap : C.isMap value = true) (hfind : C.findValue value field = some result)
    (hresult : C.isValid result = true) : rpcGetData C field value = some result := by
  simp [rpcGetData, hvalid, hmap, hfind, hresult]

/-- The method of a valid request aborts the device exactly when its length takes eight bytes. -/
theorem rpcGetMethod_of_valid (hC : C.Lawful) {request : V}
    (h : rpcRequestValid C request = true) :
    ∃ method, C.findValue request "method" = some method ∧
      ((eightByteLength C method = true ∧ rpcGetMethod C request = .error .assert) ∨
        (eightByteLength C method = false ∧ ∃ data, rpcGetMethod C request = .ok data)) := by
  obtain ⟨-, hpos, hmax⟩ := rpcRequestValid_iff.1 h
  obtain ⟨hvalid, hmap, method, hfind, hmethod, -, hlen⟩ :=
    rpcGetStringLen_pos (Nat.pos_iff_ne_zero.1 hpos)
  refine ⟨method, hfind, ?_⟩
  have hget : rpcGetMethod C request = (do
      let data ← rpcGetRawStringPtr C method
      jadeAssert (decide ((data.getD []).length ≤ MAXLEN_METHOD))
      return data) := by
    simp only [rpcGetMethod, rpcGetStringPtr, jadeAssert, hvalid, hmap, hfind, hmethod]
    rfl
  -- a length that is not known is not given, so that the last assertion holds in either case
  have hsize : (C.getStringLength method).getD 0 ≤ MAXLEN_METHOD := by
    cases hknown : C.isLengthKnown method with
    | false => rw [hC.unknown method hknown]; exact Nat.zero_le _
    | true =>
        rw [TinyCbor.stringLength, if_pos hknown] at hlen
        rw [hlen]
        exact hmax
  rcases rpcGetRawStringPtr_spec method with ⟨height, herr⟩ | ⟨height, data, hdata, hle⟩
  · left
    exact ⟨height, by rw [hget, herr]; rfl⟩
  · right
    refine ⟨height, data, ?_⟩
    rw [hget, hdata]
    simp only [jadeAssert, bind, Except.bind, decide_eq_true (hle.trans hsize)]
    rfl

/-- The id of a valid request can be read. -/
theorem rpcGetId_of_valid (hC : C.Lawful) {bs : Bytes} {n : ℕ} {request : V}
    (hnext : C.reader.next bs = some (n, request)) (h : rpcRequestValid C request = true) :
    ∃ id, rpcGetId C request = .ok id ∧ id ≠ [] := by
  obtain ⟨⟨hpos, hmax⟩, -⟩ := rpcRequestValid_iff.1 h
  obtain ⟨hvalid, hmap, id, hfind, hid, htext, hlen⟩ :=
    rpcGetStringLen_pos (Nat.pos_iff_ne_zero.1 hpos)
  obtain ⟨content, hcopy, hcontent⟩ := hC.copy bs n request "id" id _ hnext hfind htext hlen
  refine ⟨content, ?_, List.ne_nil_of_length_pos (by omega)⟩
  have hfits : ¬ MAXLEN_ID + 1 ≤ rpcGetStringLen C "id" request := by omega
  simp only [rpcGetId, rpcGetData_of_find hvalid hmap hfind hid, htext, hlen, hcopy, Bool.not_true,
    Bool.false_eq_true, if_false, if_neg hfits, jadeAssert, hcontent,
    decide_eq_true (Nat.lt_succ_of_le hmax)]
  rfl

/-- The id of whatever is there can be read when it is in a complete item. -/
theorem rpcGetId_of_next (hC : C.Lawful) {bs : Bytes} {n : ℕ} {value : V}
    (hnext : C.reader.next bs = some (n, value)) : ∃ id, rpcGetId C value = .ok id ∧
      id.length ≤ MAXLEN_ID := by
  unfold rpcGetId
  cases hdata : rpcGetData C "id" value with
  | none => exact ⟨[], rfl, Nat.zero_le _⟩
  | some result =>
      have hfind : C.findValue value "id" = some result := by
        unfold rpcGetData at hdata
        split at hdata
        · cases hdata
        · split at hdata
          · cases hdata
          · split at hdata
            · cases hdata
            · next hfind =>
                split at hdata
                · cases hdata
                · cases hdata
                  exact hfind
      cases htext : C.isTextString result with
      | false => exact ⟨[], by simp [htext], Nat.zero_le _⟩
      | true =>
          cases hlen : C.stringLength result with
          | none => exact ⟨[], by simp [htext, hlen], Nat.zero_le _⟩
          | some len =>
              by_cases hfits : MAXLEN_ID + 1 ≤ len
              · exact ⟨[], by simp [htext, hlen, hfits], Nat.zero_le _⟩
              · obtain ⟨content, hcopy, hcontent⟩ :=
                  hC.copy bs n value "id" result len hnext hfind htext hlen
                refine ⟨content, ?_, by omega⟩
                simp only [htext, hlen, hcopy, Bool.not_true, Bool.false_eq_true, if_false,
                  if_neg hfits, jadeAssert, decide_eq_true (Nat.lt_of_not_le (hcontent ▸ hfits))]
                rfl

/-! ### An instance that walks over the bytes -/

/-- The head byte of a value. -/
def headMajor (v : Bytes) : ℕ :=
  match v with
  | [] => 8
  | b :: _ => Cbor.major b

/-- The library as a walk over the bytes: a value is the item itself. -/
def tinyCbor : TinyCbor Bytes where
  reader := Cbor.reader
  parserInit bs := if bs = [] then none else some bs
  isValid v := headMajor v < 8
  isMap v := headMajor v = 5
  isTextString v := headMajor v = 3
  isBoolean v := v = [0xf4] ∨ v = [0xf5]
  findValue v field :=
    ((Cbor.mapEntries v).find? fun entry =>
      Cbor.isText entry.1 (field.toList.map fun c => UInt8.ofNat c.toNat)).map Prod.snd
  isLengthKnown v := Cbor.lengthKnown v
  getStringLength v := if Cbor.lengthKnown v then some (Cbor.stringContent v).length else none
  calculateStringLength v := some (Cbor.stringContent v).length
  copyTextString v := some (Cbor.stringContent v)
  getNextByte v := v
  getBoolean v := some (v = [0xf5])

theorem tinyCbor_lawful : tinyCbor.Lawful where
  stable := Cbor.reader_stable
  unknown := by
    intro v h
    exact if_neg (by rw [show Cbor.lengthKnown v = false from h]; exact Bool.false_ne_true)
  copy := by
    intro bs n v field w len _ _ _ hlen
    refine ⟨Cbor.stringContent w, rfl, ?_⟩
    simp only [TinyCbor.stringLength, tinyCbor] at hlen
    cases hknown : Cbor.lengthKnown w with
    | false => simpa [hknown] using hlen
    | true => simpa [hknown] using hlen

end Jade
