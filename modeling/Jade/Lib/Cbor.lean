/-
**Walking over CBOR, and writing it.**

A CBOR item is a head byte, an argument of up to eight bytes, and the payload of a string or the
items of a container.  What has been opened and not closed yet is a stack of frames; a byte changes
the top of the stack, and the item is complete when the stack is empty.

Main definitions:

* `Cbor.step` — what one byte does to the stack of open frames;
* `Cbor.reader` — the reader of one item;
* `Cbor.stringContent`, `Cbor.mapEntries` — the bytes of a string, and the keys and values of a map;
* `Cbor.encodeHead`, `Cbor.encodeText`, `Cbor.encodeBytes` — items as they are written.

Main results:

* `Cbor.reader_stable` — where an item ends does not depend on what follows it;
* `Cbor.length_encodeHead_le` — how long a head is.
-/

import Jade.Lib.Bytes
import Jade.Lib.Stream

set_option relaxedAutoImplicit false
set_option autoImplicit false

namespace Cbor

/-! ### Items -/

/-- The major type of a head byte. -/
def major (b : UInt8) : ℕ := b.toNat / 32

/-- The additional information of a head byte. -/
def info (b : UInt8) : ℕ := b.toNat % 32

/-- What has been opened and is not complete. -/
inductive Frame
  | items (n : ℕ)
  | argument (major n value : ℕ)
  | payload (n : ℕ)
  | openArray
  | openMap (value : Bool)
  | chunks (major : ℕ)
  deriving DecidableEq, Repr

/-- Push a frame that still needs `n` things. -/
def push (frame : ℕ → Frame) (n : ℕ) (stack : List Frame) : List Frame :=
  if n = 0 then stack else frame n :: stack

/-- The head of an item is complete, with its argument. -/
def headDone (major value : ℕ) (stack : List Frame) : List Frame :=
  match major with
  | 2 | 3 => push .payload value stack
  | 4 => push .items value stack
  | 5 => push .items (2 * value) stack
  | 6 => push .items 1 stack
  | _ => stack

/-- The first byte of an item. -/
def head (b : UInt8) (stack : List Frame) : Option (List Frame) :=
  if info b < 24 then some (headDone (major b) (info b) stack)
  else if info b < 28 then some (.argument (major b) (2 ^ (info b - 24)) 0 :: stack)
  else if info b = 31 then
    match major b with
    | 2 | 3 => some (.chunks (major b) :: stack)
    | 4 => some (.openArray :: stack)
    | 5 => some (.openMap false :: stack)
    | _ => none
  else none

/-- What one byte does to the stack of open frames. -/
def step (stack : List Frame) (b : UInt8) : Option (List Frame) :=
  match stack with
  | [] => none
  | .items n :: stack => head b (push .items (n - 1) stack)
  | .argument major n value :: stack =>
      if n ≤ 1 then some (headDone major (value * 256 + b.toNat) stack)
      else some (.argument major (n - 1) (value * 256 + b.toNat) :: stack)
  | .payload n :: stack => some (push .payload (n - 1) stack)
  | .openArray :: stack => if b = 0xff then some stack else head b (.openArray :: stack)
  | .openMap value :: stack =>
      if b = 0xff then (if value then none else some stack)
      else head b (.openMap (!value) :: stack)
  | .chunks m :: stack =>
      if b = 0xff then some stack
      else if major b = m ∧ info b < 28 then head b (.chunks m :: stack)
      else none

/-- The reader of one item. -/
def reader : Stream.Reader UInt8 Bytes :=
  Stream.scanReader step List.isEmpty [.items 1] id

theorem reader_stable : reader.Stable := Stream.scanReader_stable _ _

/-! ### What an item holds -/

/-- The number of bytes of the head of an item. -/
def headLength (item : Bytes) : ℕ :=
  match item with
  | [] => 0
  | b :: _ => if info b < 24 ∨ 28 ≤ info b then 1 else 1 + 2 ^ (info b - 24)

/-- The argument in the head of an item. -/
def argument (item : Bytes) : ℕ :=
  match item with
  | [] => 0
  | b :: bs => if info b < 24 then info b else Bytes.toNatBE (bs.take (2 ^ (info b - 24)))

/-- The items at the front, at most `fuel` of them. -/
def takeItems : ℕ → Bytes → List Bytes
  | 0, _ => []
  | fuel + 1, bs =>
      match reader.next bs with
      | none => []
      | some (n, _) => bs.take n :: takeItems fuel (bs.drop n)

/-- The items inside an item. -/
def inner (item : Bytes) : List Bytes :=
  takeItems item.length (item.drop (headLength item))

/-- Is the length of the string or the container in its head? -/
def lengthKnown (item : Bytes) : Bool :=
  match item with
  | [] => false
  | b :: _ => info b != 31

/-- The content of a string; of one in chunks, that of the chunks one after another. -/
def stringContent (item : Bytes) : Bytes :=
  if lengthKnown item then (item.drop (headLength item)).take (argument item)
  else (inner item).flatMap fun chunk => (chunk.drop (headLength chunk)).take (argument chunk)

/-- Keys and values, taken in turn. -/
def pairs : List Bytes → List (Bytes × Bytes)
  | key :: value :: rest => (key, value) :: pairs rest
  | _ => []

/-- The keys and values of a map. -/
def mapEntries (item : Bytes) : List (Bytes × Bytes) := pairs (inner item)

/-- Is it a text string with this content? -/
def isText (item content : Bytes) : Bool :=
  match item with
  | [] => false
  | b :: _ => major b == 3 && stringContent item == content

/-! ### Writing items -/

/-- The head of an item, with its argument in as few bytes as it takes. -/
def encodeHead (major value : ℕ) : Bytes :=
  if value < 24 then [UInt8.ofNat (32 * major + value)]
  else if value < 2 ^ 8 then UInt8.ofNat (32 * major + 24) :: Bytes.ofNatBE 1 value
  else if value < 2 ^ 16 then UInt8.ofNat (32 * major + 25) :: Bytes.ofNatBE 2 value
  else if value < 2 ^ 32 then UInt8.ofNat (32 * major + 26) :: Bytes.ofNatBE 4 value
  else UInt8.ofNat (32 * major + 27) :: Bytes.ofNatBE 8 value

def encodeUint (value : ℕ) : Bytes := encodeHead 0 value

def encodeText (content : Bytes) : Bytes := encodeHead 3 content.length ++ content

def encodeBytes (content : Bytes) : Bytes := encodeHead 2 content.length ++ content

theorem length_encodeHead_le (major value : ℕ) :
    (encodeHead major value).length ≤ 9 ∧
      (value < 2 ^ 16 → (encodeHead major value).length ≤ 3) ∧
        (value < 24 → (encodeHead major value).length = 1) := by
  unfold encodeHead
  split_ifs <;> simp <;> omega

end Cbor
