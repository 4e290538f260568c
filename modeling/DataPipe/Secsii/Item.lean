import DataPipe.Foundation.BigEndian
import DataPipe.Foundation.Metered

/-!
# SECS-II items

`engine/nodes/secsii/item.go`: a tree of typed items, each written as a format
byte, one to three length bytes and its data.  A float is its bit pattern, a Go
string its bytes.  A read outside a slice is the failure `panic`, and the meter
counts the elements of the slices that are made.
-/

set_option linter.dupNamespace false

namespace DataPipe.Secsii

open DataPipe.Foundation

inductive Format where
  | list
  | binary
  | boolean
  | ascii
  | jis8
  | i8
  | i1
  | i2
  | i4
  | f8
  | f4
  | u8
  | u1
  | u2
  | u4
  | other (code : UInt8)
  deriving DecidableEq, Repr

namespace Format

def code : Format → UInt8
  | .list => 0x00
  | .binary => 0x08
  | .boolean => 0x09
  | .ascii => 0x10
  | .jis8 => 0x11
  | .i8 => 0x18
  | .i1 => 0x19
  | .i2 => 0x1A
  | .i4 => 0x1C
  | .f8 => 0x20
  | .f4 => 0x24
  | .u8 => 0x28
  | .u1 => 0x29
  | .u2 => 0x2A
  | .u4 => 0x2C
  | .other code => code

/-- The formats that have a case in `Decode`. -/
def known : Format → Bool
  | .other _ => false
  | _ => true

def ofCode (code : UInt8) : Format :=
  match code.toNat with
  | 0x00 => .list
  | 0x08 => .binary
  | 0x09 => .boolean
  | 0x10 => .ascii
  | 0x11 => .jis8
  | 0x18 => .i8
  | 0x19 => .i1
  | 0x1A => .i2
  | 0x1C => .i4
  | 0x20 => .f8
  | 0x24 => .f4
  | 0x28 => .u8
  | 0x29 => .u1
  | 0x2A => .u2
  | 0x2C => .u4
  | _ => .other code

end Format

structure Data where
  bytes : List UInt8 := []
  bools : List Bool := []
  str : List UInt8 := []
  i1 : List Int8 := []
  i2 : List Int16 := []
  i4 : List Int32 := []
  i8 : List Int64 := []
  u1 : List UInt8 := []
  u2 : List UInt16 := []
  u4 : List UInt32 := []
  u8 : List UInt64 := []
  f4 : List UInt32 := []
  f8 : List UInt64 := []
  deriving DecidableEq

inductive Item where
  | mk (format : Format) (list : List Item) (data : Data)

namespace Item

def l (items : List Item) : Item := .mk .list items {}
def a (s : List UInt8) : Item := .mk .ascii [] { str := s }
def jis8 (s : List UInt8) : Item := .mk .jis8 [] { str := s }
def b (bytes : List UInt8) : Item := .mk .binary [] { bytes }
def bool (v : List Bool) : Item := .mk .boolean [] { bools := v }
def i1v (v : List Int8) : Item := .mk .i1 [] { i1 := v }
def i2v (v : List Int16) : Item := .mk .i2 [] { i2 := v }
def i4v (v : List Int32) : Item := .mk .i4 [] { i4 := v }
def i8v (v : List Int64) : Item := .mk .i8 [] { i8 := v }
def u1v (v : List UInt8) : Item := .mk .u1 [] { u1 := v }
def u2v (v : List UInt16) : Item := .mk .u2 [] { u2 := v }
def u4v (v : List UInt32) : Item := .mk .u4 [] { u4 := v }
def u8v (v : List UInt64) : Item := .mk .u8 [] { u8 := v }
def f4v (v : List UInt32) : Item := .mk .f4 [] { f4 := v }
def f8v (v : List UInt64) : Item := .mk .f8 [] { f8 := v }

def count : Item → Nat
  | .mk format list data =>
    match format with
    | .list => list.length
    | .binary => data.bytes.length
    | .boolean => data.bools.length
    | .ascii | .jis8 => data.str.length
    | .i1 | .u1 => data.i1.length + data.u1.length
    | .i2 => data.i2.length * 2
    | .u2 => data.u2.length * 2
    | .i4 => data.i4.length * 4
    | .u4 => data.u4.length * 4
    | .f4 => data.f4.length * 4
    | .i8 => data.i8.length * 8
    | .u8 => data.u8.length * 8
    | .f8 => data.f8.length * 8
    | .other _ => 0

end Item

def boolByte : Packing Bool :=
  .word 1 (fun v => if v then 1 else 0) (fun n => n ≠ 0) (by decide) (by decide) (by decide)

def int8 : Packing Int8 :=
  .word 1 (fun v => v.toUInt8.toNat) (fun n => (UInt8.ofNat n).toInt8) (by decide)
    (fun v => v.toUInt8.toNat_lt) (fun v => by simp)

def int16 : Packing Int16 :=
  .word 2 (fun v => v.toUInt16.toNat) (fun n => (UInt16.ofNat n).toInt16) (by decide)
    (fun v => v.toUInt16.toNat_lt) (fun v => by simp)

def int32 : Packing Int32 :=
  .word 4 (fun v => v.toUInt32.toNat) (fun n => (UInt32.ofNat n).toInt32) (by decide)
    (fun v => v.toUInt32.toNat_lt) (fun v => by simp)

def int64 : Packing Int64 :=
  .word 8 (fun v => v.toUInt64.toNat) (fun n => (UInt64.ofNat n).toInt64) (by decide)
    (fun v => v.toUInt64.toNat_lt) (fun v => by simp)

def uint16 : Packing UInt16 :=
  .word 2 UInt16.toNat UInt16.ofNat (by decide) UInt16.toNat_lt (fun v => by simp)

def uint32 : Packing UInt32 :=
  .word 4 UInt32.toNat UInt32.ofNat (by decide) UInt32.toNat_lt (fun v => by simp)

def uint64 : Packing UInt64 :=
  .word 8 UInt64.toNat UInt64.ofNat (by decide) UInt64.toNat_lt (fun v => by simp)

def lengthBytesNeeded (n : Nat) : Nat :=
  if n ≤ 0xFF then 1 else if n ≤ 0xFFFF then 2 else 3

def lengthBytes (n : Nat) : List UInt8 :=
  match lengthBytesNeeded n with
  | 1 => [UInt8.ofNat n]
  | 2 => bigEndian 2 n
  | _ => [UInt8.ofNat (n >>> 16), UInt8.ofNat (n >>> 8), UInt8.ofNat n]

def header (format : Format) (n : Nat) : List UInt8 :=
  (format.code <<< 2 ||| UInt8.ofNat (lengthBytesNeeded n)) :: lengthBytes n

def Data.body (data : Data) : Format → List UInt8
  | .list => []
  | .binary => data.bytes
  | .boolean => boolByte.packAll data.bools
  | .ascii | .jis8 => data.str
  | .i1 => int8.packAll data.i1
  | .u1 => data.u1
  | .i2 => int16.packAll data.i2
  | .u2 => uint16.packAll data.u2
  | .i4 => int32.packAll data.i4
  | .u4 => uint32.packAll data.u4
  | .f4 => uint32.packAll data.f4
  | .i8 => int64.packAll data.i8
  | .u8 => uint64.packAll data.u8
  | .f8 => uint64.packAll data.f8
  | .other _ => []

mutual

def encode : Item → List UInt8
  | .mk format list data =>
    header format (Item.count (.mk format list data)) ++
      match format with
      | .list => encodeAll list
      | format => data.body format

def encodeAll : List Item → List UInt8
  | [] => []
  | item :: items => encode item ++ encodeAll items

end

inductive DecodeError where
  | emptyItem
  | noLengthBytes
  | truncatedLength
  | short
  | listElement (index : Nat) (cause : DecodeError)
  | unknownFormat (code : UInt8)
  deriving DecidableEq, Repr

inductive Fault where
  | error (e : DecodeError)
  | panic
  | outOfFuel
  deriving DecidableEq, Repr

abbrev Decoding (α : Type) := Metered Fault α

section Slices

variable (data : List UInt8)

def index (i : Nat) : Decoding UInt8 :=
  match data[i]? with
  | none => .fail .panic
  | some byte => pure byte

def sliceFrom (i : Nat) : Decoding (List UInt8) :=
  if i ≤ data.length then pure (data.drop i) else .fail .panic

def sliceTo (n : Nat) : Decoding (List UInt8) :=
  if n ≤ data.length then pure (data.take n) else .fail .panic

/-- The bytes of a word at the front, as `binary.BigEndian` reads them. -/
def wordAt (width : Nat) : Decoding (List UInt8) :=
  if width ≤ data.length then pure (data.take width) else .fail .panic

def declared (lb : Nat) : Decoding Nat :=
  match lb with
  | 1 => do
    let byte ← index data 1
    pure byte.toNat
  | 2 => do
    let bytes ← sliceTo data 3
    let bytes ← sliceFrom bytes 1
    let bytes ← wordAt bytes 2
    pure (ofBigEndian bytes)
  | 3 => do
    let high ← index data 1
    let middle ← index data 2
    let low ← index data 3
    pure (high.toNat <<< 16 ||| middle.toNat <<< 8 ||| low.toNat)
  | _ => pure 0

def readHeader : Decoding (Format × Nat × List UInt8) :=
  if data.length < 1 then .fail (.error .emptyItem)
  else do
    let fb ← index data 0
    let lb := (fb &&& 0x03).toNat
    if lb = 0 then .fail (.error .noLengthBytes)
    else if data.length < 1 + lb then .fail (.error .truncatedLength)
    else do
      let n ← declared data lb
      let rest ← sliceFrom data (1 + lb)
      pure (.ofCode (fb >>> 2), n, rest)

end Slices

section Bodies

variable {α : Type} (n : Nat) (rest : List UInt8)

/-- The elements from the `i`-th on. -/
def readVals (p : Packing α) : Nat → Nat → Decoding (List α)
  | 0, _ => pure []
  | count + 1, i => do
    let bytes ← sliceFrom rest (i * p.width)
    let word ← wordAt bytes p.width
    let vals ← readVals p count (i + 1)
    pure (p.unpack word :: vals)

def decodeVals (p : Packing α) (make : List α → Item) : Decoding (Item × List UInt8) :=
  if n % p.width ≠ 0 ∨ rest.length < n then .fail (.error .short)
  else do
    Metered.use (n / p.width)
    let vals ← readVals rest p (n / p.width) 0
    let remaining ← sliceFrom rest n
    pure (make vals, remaining)

def decodeBytes (make : List UInt8 → Item) : Decoding (Item × List UInt8) :=
  if rest.length < n then .fail (.error .short)
  else do
    let bytes ← sliceTo rest n
    Metered.use n
    let remaining ← sliceFrom rest n
    pure (make bytes, remaining)

end Bodies

def Fault.inElement (i : Nat) : Fault → Fault
  | .error e => .error (.listElement i e)
  | .panic => .panic
  | .outOfFuel => .outOfFuel

section Lists

variable (decodeItem : List UInt8 → Decoding (Item × List UInt8))

/-- `count` more elements, the first of which is the `i`-th. -/
def decodeItems : Nat → Nat → List UInt8 → Decoding (List Item × List UInt8)
  | 0, _, remaining => pure ([], remaining)
  | count + 1, i, remaining => do
    let (item, remaining) ← (decodeItem remaining).reporting (Fault.inElement i)
    let (items, remaining) ← decodeItems count (i + 1) remaining
    pure (item :: items, remaining)

def decodeBody (n : Nat) (rest : List UInt8) : Format → Decoding (Item × List UInt8)
  | .list => do
    Metered.use n
    let (items, remaining) ← decodeItems decodeItem n 0 rest
    pure (.l items, remaining)
  | .binary => decodeBytes n rest .b
  | .boolean => decodeVals n rest boolByte .bool
  | .ascii => decodeBytes n rest .a
  | .jis8 => decodeBytes n rest .jis8
  | .i1 => decodeVals n rest int8 .i1v
  | .u1 => decodeBytes n rest .u1v
  | .i2 => decodeVals n rest int16 .i2v
  | .u2 => decodeVals n rest uint16 .u2v
  | .i4 => decodeVals n rest int32 .i4v
  | .u4 => decodeVals n rest uint32 .u4v
  | .f4 => decodeVals n rest uint32 .f4v
  | .i8 => decodeVals n rest int64 .i8v
  | .u8 => decodeVals n rest uint64 .u8v
  | .f8 => decodeVals n rest uint64 .f8v
  | .other code => .fail (.error (.unknownFormat code))

/-- One call of `Decode`, given what the calls for the elements of a list do. -/
def decodeStep (data : List UInt8) : Decoding (Item × List UInt8) := do
  let (format, n, rest) ← readHeader data
  decodeBody decodeItem n rest format

end Lists

/-- The calls of `Decode` up to a depth of nesting. -/
def decodeWithin : Nat → List UInt8 → Decoding (Item × List UInt8)
  | 0, _ => .fail .outOfFuel
  | fuel + 1, data => decodeStep (decodeWithin fuel) data

def decode (data : List UInt8) : Decoding (Item × List UInt8) :=
  decodeWithin (data.length + 1) data

end DataPipe.Secsii
