import Mathlib.Data.List.AList
import Mathlib.Tactic.Ring
import DataPipe.Foundation.BigEndian
import DataPipe.Foundation.Binary64
import DataPipe.Foundation.Duration
import DataPipe.Foundation.Fallible

/-!
# Modbus registers

The typed fields of a register block (`modbusshared`), the bytes that `modbus-sink`
writes for a field, and what `modbus-source` makes of a reply.
-/

set_option linter.dupNamespace false

namespace DataPipe.Nodes.Modbus

open DataPipe.Foundation

/-! ## Fields -/

inductive FieldType where
  | uint16
  | int16
  | uint32
  | int32
  | uint64
  | int64
  | float32
  | float64
  | string
  | bit
  | other (name : String)
  deriving DecidableEq, Repr

inductive WordOrder where
  | little
  | other (name : String)
  deriving DecidableEq, Repr

structure Field where
  name : String
  register : Int
  type : FieldType
  length : Int
  bitOffset : Int
  wordOrder : WordOrder
  deriving DecidableEq, Repr

inductive FieldError where
  | lengthRequired (name : String)
  | unknownType (name : String) (type : FieldType)
  | exceedsBlock (name : String) (register n registers : Int)
  | bitOffset (name : String) (offset : Int)
  | expectedString (name : String)
  | expectedNumeric (name : String)
  deriving DecidableEq, Repr

/-- An index or a slice outside of the bytes, and a `make` that is negative or too large. -/
inductive Fault where
  | outside
  | makeslice
  deriving DecidableEq, Repr

inductive Failure where
  | fault (fault : Fault)
  | reported (error : FieldError)
  deriving DecidableEq, Repr

/-- A text is its bytes, a `float64` its bits. -/
inductive Value where
  | number (bits : Nat)
  | int (z : Int)
  | int64 (z : Int)
  | bool (b : Bool)
  | string (s : List UInt8)
  | other
  deriving DecidableEq, Repr

def maxAlloc : Int := 0x1000000000000

/-- `make` of `n` elements of the given size. -/
def makeslice (n size : Int) : Except Fault Unit :=
  if 0 ≤ n ∧ n * size ≤ maxAlloc then .ok () else .error .makeslice

def guarded {α : Type} : Except Fault α → Except Failure α
  | .ok x => .ok x
  | .error fault => .error (.fault fault)

def registerCount (f : Field) : Except Failure Int :=
  match f.type with
  | .uint16 | .int16 | .bit => .ok 1
  | .uint32 | .int32 | .float32 => .ok 2
  | .uint64 | .int64 | .float64 => .ok 4
  | .string =>
    if f.length ≤ 0 then .error (.reported (.lengthRequired f.name)) else .ok f.length
  | .other name => .error (.reported (.unknownType f.name (.other name)))

theorem uint16_lt (w : UInt16) : w.toNat < 256 ^ 2 := w.toNat_lt

/-- A register: `binary.BigEndian.Uint16`, and the bytes `byte(w >> 8), byte(w)`. -/
def register : Packing UInt16 :=
  .word 2 UInt16.toNat UInt16.ofNat Nat.two_pos uint16_lt fun _ => UInt16.ofNat_toNat

/-- `binary.BigEndian.Uint16(raw[lo : lo+2])`. -/
def wordAt (raw : List UInt8) (lo : Int) : Except Fault UInt16 :=
  let hi := wrap64 (lo + 2)
  if 0 ≤ lo ∧ lo ≤ hi ∧ hi ≤ raw.length then
    .ok (register.unpack ((raw.drop lo.toNat).take 2))
  else .error .outside

def readWords (raw : List UInt8) (start n : Int) : Except Fault (List UInt16) := do
  makeslice n 2
  (List.range n.toNat).mapM fun i : Nat => wordAt raw (wrap64 (start + i * 2))

def orderWords (f : Field) (words : List UInt16) : List UInt16 :=
  if f.wordOrder = .little then words.reverse else words

def registerWords (raw : List UInt8) (f : Field) (n : Int) : Except Failure (List UInt16) := do
  let start := wrap64 (f.register * 2)
  let stop := wrap64 (start + wrap64 (n * 2))
  if start < 0 ∨ raw.length < stop then
    .error (.reported (.exceedsBlock f.name f.register n (raw.length / 2)))
  else
    let words ← guarded (readWords raw start n)
    .ok (orderWords f words)

def joinWords (words : List UInt16) : Nat :=
  words.foldl (fun v w => v * 65536 + w.toNat) 0

def trimNulls (b : List UInt8) : List UInt8 := b.takeWhile (· ≠ 0)

/-- The value of a field with the words; `int16(w)` and the like keep the number modulo `2 ^ 16`. -/
def fieldValue (f : Field) (n : Int) (words : List UInt16) : Except Failure Value :=
  match f.type with
  | .uint16 | .uint32 | .uint64 => .ok (.number (Binary64.ofInt (joinWords words)))
  | .int16 => .ok (.number (Binary64.ofInt ((joinWords words : Int).bmod 0x10000)))
  | .int32 => .ok (.number (Binary64.ofInt ((joinWords words : Int).bmod 0x100000000)))
  | .int64 => .ok (.number (Binary64.ofInt ((joinWords words : Int).bmod 0x10000000000000000)))
  | .float32 => .ok (.number (Binary64.ofFloat32 (joinWords words)))
  | .float64 => .ok (.number (joinWords words))
  | .bit =>
    if f.bitOffset < 0 ∨ 15 < f.bitOffset then
      .error (.reported (.bitOffset f.name f.bitOffset))
    else .ok (.bool ((joinWords words).testBit f.bitOffset.toNat))
  | .string => do
    guarded (makeslice (wrap64 (n * 2)) 1)
    .ok (.string (trimNulls (register.packAll words)))
  | .other name => .error (.reported (.unknownType f.name (.other name)))

def decodeField (raw : List UInt8) (f : Field) : Except Failure Value := do
  let n ← registerCount f
  let words ← registerWords raw f n
  fieldValue f n words

def decodeRegisters (raw : List UInt8) (fields : List Field) :
    Except Failure (AList fun _ : String => Value) :=
  fields.foldlM (fun out f => do
    let value ← decodeField raw f
    .ok (out.insert f.name value)) ∅

/-! ## Writing a field -/

def toFloat : Value → Option Nat
  | .number bits => some bits
  | .int z | .int64 z => some (Binary64.ofInt z)
  | .bool b => some (Binary64.ofInt (if b then 1 else 0))
  | .string _ | .other => none

/-- `uint16(v >> (16 * k)), ..., uint16(v)`. -/
def splitWords : Nat → Nat → List UInt16
  | 0, _ => []
  | k + 1, v => UInt16.ofNat (v >>> (16 * k)) :: splitWords k v

/-- `make([]byte, n*2)` after `copy(b, s)`. -/
def padded (s : List UInt8) (n : Int) : List UInt8 :=
  s.take (2 * n).toNat ++ List.replicate ((2 * n).toNat - s.length) 0

def encodeText (f : Field) (s : List UInt8) : Except Failure (List UInt16) := do
  let n ← registerCount f
  guarded (makeslice (wrap64 (n * 2)) 1)
  guarded (readWords (padded s n) 0 n)

def encodeNumber (f : Field) (x : Nat) : Except Failure (List UInt16) :=
  let z := Binary64.toInt64 x
  match f.type with
  | .uint16 | .int16 => .ok (orderWords f (splitWords 1 (z % 0x10000).toNat))
  | .uint32 | .int32 => .ok (orderWords f (splitWords 2 (z % 0x100000000).toNat))
  | .uint64 | .int64 => .ok (orderWords f (splitWords 4 (z % 0x10000000000000000).toNat))
  | .float32 => .ok (orderWords f (splitWords 2 (Binary64.toFloat32 x)))
  | .float64 => .ok (orderWords f (splitWords 4 x))
  | type => .error (.reported (.unknownType f.name type))

def encodeField (f : Field) (value : Value) : Except Failure (List UInt16) :=
  if f.type = .string then
    match value with
    | .string s => encodeText f s
    | _ => .error (.reported (.expectedString f.name))
  else
    match toFloat value with
    | none => .error (.reported (.expectedNumeric f.name))
    | some x => encodeNumber f x

/-- The bytes that `modbus-sink` hands to `WriteMultipleRegisters`. -/
def writtenBytes (f : Field) (value : Value) : Except Failure (List UInt8) := do
  let words ← encodeField f value
  guarded (makeslice (wrap64 (words.length * 2)) 1)
  .ok (register.packAll words)

def readBack (f : Field) (value : Value) : Except Failure (AList fun _ : String => Value) := do
  let raw ← writtenBytes f value
  decodeRegisters raw [f]

/-! ## Polling -/

inductive Area where
  | coils
  | discreteInputs
  | holdingRegisters
  | inputRegisters
  | other (name : String)
  deriving DecidableEq, Repr

structure PollingGroup where
  name : String
  area : Area
  quantity : UInt16
  intervalMs : Int
  fields : List Field
  deriving DecidableEq, Repr

inductive GroupError where
  | nameRequired
  | unknownArea (name : String) (area : Area)
  | quantityNotPositive (name : String)
  | intervalNotPositive (name : String)
  deriving DecidableEq, Repr

/-- What `New` asks of a group. -/
def PollingGroup.check (g : PollingGroup) : Except GroupError Unit :=
  if g.name = "" then .error .nameRequired
  else
    match g.area with
    | .other area => .error (.unknownArea g.name (.other area))
    | _ =>
      if g.quantity = 0 then .error (.quantityNotPositive g.name)
      else if g.intervalMs ≤ 0 then .error (.intervalNotPositive g.name)
      else .ok ()

/-- The value of the datagram that `pollOnce` emits. -/
inductive Payload where
  | bits (bits : List Bool)
  | words (words : List Nat)
  | fields (values : AList fun _ : String => Value)
  | error (error : FieldError)
  | nil

def byteAt (raw : List UInt8) (i : Nat) : Except Fault UInt8 :=
  if h : i < raw.length then .ok raw[i] else .error .outside

def decodeBits (raw : List UInt8) (quantity : Nat) : Except Fault (List Bool) := do
  makeslice quantity 1
  (List.range quantity).mapM fun i => do
    let byte ← byteAt raw (i / 8)
    .ok (byte.toNat.testBit (i % 8))

def decodeRegisterValue (raw : List UInt8) (fields : List Field) : Except Fault Payload :=
  if fields = [] then do
    makeslice (raw.length / 2 : Nat) 8
    let words ← (List.range (raw.length / 2)).mapM fun i => do
      let high ← byteAt raw (i * 2)
      let low ← byteAt raw (i * 2 + 1)
      .ok (Binary64.ofInt (high.toNat * 256 + low.toNat : Nat))
    .ok (.words words)
  else
    match decodeRegisters raw fields with
    | .error (.fault fault) => .error fault
    | .error (.reported e) => .ok (.error e)
    | .ok values => .ok (.fields values)

structure Reply where
  bytes : List UInt8
  allocated : (bytes.length : Int) ≤ maxAlloc

def pollOnce (g : PollingGroup) (reply : Reply) : Except Fault Payload :=
  match g.area with
  | .coils | .discreteInputs => do
    let bits ← decodeBits reply.bytes g.quantity.toNat
    .ok (.bits bits)
  | .holdingRegisters | .inputRegisters => decodeRegisterValue reply.bytes g.fields
  | .other _ => .ok .nil

/-! ## Replies that are decoded without a fault -/

/-- The bytes of `n` registers, from the byte at which the source reads, are in the block. -/
def Fits (f : Field) (n len : Int) : Prop :=
  0 ≤ wrap64 (f.register * 2) ∧ wrap64 (f.register * 2) + n * 2 ≤ len

/-- The end of the registers exceeds an `int` and comes out before the end of the block. -/
def Overflows (f : Field) (n len : Int) : Prop :=
  0 ≤ wrap64 (f.register * 2) ∧ 0x8000000000000000 ≤ wrap64 (f.register * 2) + n * 2 ∧
    wrap64 (wrap64 (f.register * 2) + n * 2) ≤ len

def Reads (f : Field) (len : Int) : Prop :=
  ∃ n, registerCount f = .ok n ∧ Fits f n len ∧ (f.type = .bit → 0 ≤ f.bitOffset ∧ f.bitOffset ≤ 15)

def Wraps (f : Field) (len : Int) : Prop :=
  ∃ n, registerCount f = .ok n ∧ Overflows f n len

/-- No field wraps that is reached, fields being decoded until the first one that cannot be. -/
def FieldsInside (len : Int) : List Field → Prop
  | [] => True
  | f :: fields => ¬ Wraps f len ∧ (Reads f len → FieldsInside len fields)

def Inside (g : PollingGroup) (reply : Reply) : Prop :=
  match g.area with
  | .coils | .discreteInputs => g.quantity.toNat ≤ 8 * reply.bytes.length
  | .holdingRegisters | .inputRegisters =>
    if g.fields = [] then ((reply.bytes.length / 2 : Nat) : Int) * 8 ≤ maxAlloc
    else FieldsInside reply.bytes.length g.fields
  | .other _ => True

variable {n : Int}

theorem makeslice_eq_ok {size : Int} (hn : 0 ≤ n) (hsize : n * size ≤ maxAlloc) :
    makeslice n size = .ok () := if_pos ⟨hn, hsize⟩

/-- A `make` of the bytes of `n` registers. -/
theorem guarded_makeslice (hn : 0 ≤ n) (hroom : n * 2 ≤ maxAlloc) :
    guarded (makeslice (wrap64 (n * 2)) 1) = .ok () := by
  have hsame : wrap64 (n * 2) = n * 2 := by
    unfold maxAlloc at hroom
    exact wrap64_eq_self (by omega) (by omega)
  rw [makeslice_eq_ok (by omega) (by omega), guarded]

variable {f : Field} {raw s : List UInt8}

theorem registerCount_pos (h : registerCount f = .ok n) : 0 < n := by
  unfold registerCount at h
  cases htype : f.type <;> rw [htype] at h
  case string =>
    dsimp only at h
    split at h <;> cases h
    omega
  all_goals
    cases h
    try decide

section Block

variable (hraw : (raw.length : Int) ≤ maxAlloc)

theorem exists_wordAt_iff {lo : Int} :
    (∃ w, wordAt raw lo = .ok w) ↔
      0 ≤ lo ∧ lo ≤ wrap64 (lo + 2) ∧ wrap64 (lo + 2) ≤ raw.length := by
  unfold wordAt
  dsimp only
  split <;> simp_all

include hraw

variable {n : Int}

theorem exists_readWords_iff {start : Int} (hstart : 0 ≤ start) (hlt : start < 0x8000000000000000)
    (hn : 0 < n) : (∃ words, readWords raw start n = .ok words) ↔ start + n * 2 ≤ raw.length := by
  unfold maxAlloc at hraw
  unfold readWords makeslice maxAlloc
  split
  next hmake =>
    refine exists_mapM_eq_ok_iff.trans ?_
    constructor
    · intro hall
      have hlast := exists_wordAt_iff.mp (hall (n.toNat - 1) (List.mem_range.mpr (by omega)))
      unfold wrap64 at hlast
      omega
    · intro hfits i hi
      have hi := List.mem_range.mp hi
      rw [exists_wordAt_iff]
      unfold wrap64
      omega
  next hmake => exact ⟨nofun, fun hfits => absurd ⟨Int.le_of_lt hn, by omega⟩ hmake⟩

theorem registerWords_cases (f : Field) (hn : 0 < n) :
    (Fits f n raw.length ∧ ∃ words, registerWords raw f n = .ok words) ∨
    (Overflows f n raw.length ∧ ∃ x, registerWords raw f n = .error (.fault x)) ∨
    (¬ Fits f n raw.length ∧ ¬ Overflows f n raw.length ∧
      ∃ e, registerWords raw f n = .error (.reported e)) := by
  have hlt := wrap64_lt (f.register * 2)
  have hstop : wrap64 (wrap64 (f.register * 2) + wrap64 (n * 2)) =
      wrap64 (wrap64 (f.register * 2) + n * 2) := by
    unfold wrap64
    omega
  unfold Fits Overflows registerWords
  dsimp only
  rw [hstop]
  generalize wrap64 (f.register * 2) = start at hlt
  have hlen : (raw.length : Int) ≤ 0x1000000000000 := hraw
  split
  next hout =>
    refine .inr (.inr ⟨?_, ?_, _, rfl⟩)
    · rintro ⟨hstart, hfits⟩
      rw [wrap64_eq_self (by omega) (by omega)] at hout
      omega
    · rintro ⟨hstart, -, hwrapped⟩
      omega
  next hin =>
    have hwords := exists_readWords_iff hraw (by omega) hlt hn
    cases hread : readWords raw start n with
    | ok words => exact .inl ⟨⟨by omega, hwords.mp ⟨words, hread⟩⟩, _, rfl⟩
    | error x =>
      have hnot : ¬ start + n * 2 ≤ raw.length := by
        intro hfits
        obtain ⟨words, hok⟩ := hwords.mpr hfits
        rw [hread] at hok
        cases hok
      refine .inr (.inl ⟨⟨by omega, ?_, by omega⟩, x, rfl⟩)
      by_contra hsmall
      rw [wrap64_eq_self (by omega) (by omega)] at hin
      omega

theorem fieldValue_cases (hn : registerCount f = .ok n) (hfits : Fits f n raw.length)
    (words : List UInt16) : if f.type = .bit ∧ (f.bitOffset < 0 ∨ 15 < f.bitOffset) then
      ∃ e, fieldValue f n words = .error (.reported e)
    else ∃ value, fieldValue f n words = .ok value := by
  have hpos := registerCount_pos hn
  obtain ⟨hstart, hend⟩ := hfits
  unfold fieldValue
  cases htype : f.type with
  | bit =>
    by_cases hoffset : f.bitOffset < 0 ∨ 15 < f.bitOffset
    · rw [if_pos ⟨rfl, hoffset⟩, if_pos hoffset]
      exact ⟨_, rfl⟩
    · rw [if_neg fun h => hoffset h.2, if_neg hoffset]
      exact ⟨_, rfl⟩
  | string =>
    rw [guarded_makeslice (by omega) (by omega)]
    exact ⟨_, rfl⟩
  | other name =>
    rw [registerCount, htype] at hn
    cases hn
  | _ => exact ⟨_, rfl⟩

omit hraw in
theorem decodeField_of_count (hn : registerCount f = .ok n) :
    decodeField raw f = registerWords raw f n >>= fieldValue f n := by
  rw [decodeField, hn]
  rfl

theorem decodeField_cases (f : Field) :
    (Reads f raw.length ∧ ¬ Wraps f raw.length ∧ ∃ value, decodeField raw f = .ok value) ∨
    (Wraps f raw.length ∧ ∃ x, decodeField raw f = .error (.fault x)) ∨
    (¬ Reads f raw.length ∧ ¬ Wraps f raw.length ∧
      ∃ e, decodeField raw f = .error (.reported e)) := by
  unfold Reads Wraps
  cases hcount : registerCount f with
  | error e =>
    have hdecode : decodeField raw f = .error e := by
      rw [decodeField, hcount]
      rfl
    cases e with
    | fault x =>
      unfold registerCount at hcount
      repeat' split at hcount
      all_goals cases hcount
    | reported e => exact .inr (.inr ⟨nofun, nofun, e, hdecode⟩)
  | ok n =>
    have hpos := registerCount_pos hcount
    simp only [Except.ok.injEq, exists_eq_left', decodeField_of_count hcount]
    rcases registerWords_cases hraw f hpos with ⟨hfits, words, hwords⟩ | ⟨hover, x, hwords⟩ |
        ⟨hfits, hover, e, hwords⟩
    · have hvalue := fieldValue_cases hraw hcount hfits words
      have hno : ¬ Overflows f n raw.length := by
        rintro ⟨-, hlarge, -⟩
        unfold maxAlloc at hraw
        have := hfits.2
        omega
      rw [hwords]
      split at hvalue
      next hbad =>
        refine .inr (.inr ⟨?_, hno, hvalue⟩)
        rintro ⟨-, hoffset⟩
        have := hoffset hbad.1
        omega
      next hgood =>
        refine .inl ⟨⟨hfits, fun hbit => ?_⟩, hno, hvalue⟩
        have := not_and.mp hgood hbit
        omega
    · rw [hwords]
      exact .inr (.inl ⟨hover, x, rfl⟩)
    · rw [hwords]
      exact .inr (.inr ⟨fun h => hfits h.1, hover, e, rfl⟩)

theorem fieldsInside_iff (fields : List Field) (out : AList fun _ : String => Value) :
    FieldsInside raw.length fields ↔
      ∀ x, fields.foldlM (fun out f => do
        let value ← decodeField raw f
        .ok (out.insert f.name value)) out ≠ .error (.fault x) := by
  induction fields generalizing out with
  | nil => exact ⟨fun _ _ => nofun, fun _ => trivial⟩
  | cons f fields ih =>
    rw [FieldsInside, List.foldlM_cons]
    rcases decodeField_cases hraw f with ⟨hreads, hwraps, value, hvalue⟩ | ⟨hwraps, x, hfault⟩ |
        ⟨hreads, hwraps, e, herror⟩
    · rw [hvalue]
      simp only [hreads, hwraps, not_false_eq_true, true_and, true_implies]
      exact ih _
    · rw [hfault]
      exact ⟨fun h => absurd hwraps h.1, fun h => absurd rfl (h x)⟩
    · rw [herror]
      exact ⟨fun _ _ => nofun, fun _ => ⟨hwraps, fun h => absurd h hreads⟩⟩

end Block

theorem exists_byteAt_iff {i : Nat} : (∃ byte, byteAt raw i = .ok byte) ↔ i < raw.length := by
  unfold byteAt
  split <;> simp_all

theorem exists_decodeBits_iff {quantity : Nat} (hquantity : (quantity : Int) ≤ maxAlloc) :
    (∃ bits, decodeBits raw quantity = .ok bits) ↔ quantity ≤ 8 * raw.length := by
  rw [decodeBits, makeslice_eq_ok (Int.natCast_nonneg _) (by omega)]
  refine exists_mapM_eq_ok_iff.trans ?_
  simp only [exists_bind_ok_iff, exists_byteAt_iff, List.mem_range]
  constructor
  · intro hall
    by_contra hmore
    have := hall (8 * raw.length) (by omega)
    omega
  · omega

theorem exists_registerWords_iff (raw : List UInt8) :
    (∃ payload, decodeRegisterValue raw [] = .ok payload) ↔
      ((raw.length / 2 : Nat) : Int) * 8 ≤ maxAlloc := by
  rw [decodeRegisterValue, if_pos rfl]
  by_cases hmake : ((raw.length / 2 : Nat) : Int) * 8 ≤ maxAlloc
  · rw [makeslice_eq_ok (Int.natCast_nonneg _) hmake]
    refine iff_of_true (exists_bind_ok_iff.mpr (exists_mapM_eq_ok_iff.mpr ?_)) hmake
    intro i hi
    have hi := List.mem_range.mp hi
    obtain ⟨high, hhigh⟩ := exists_byteAt_iff.mpr (show i * 2 < raw.length by omega)
    obtain ⟨low, hlow⟩ := exists_byteAt_iff.mpr (show i * 2 + 1 < raw.length by omega)
    rw [hhigh, hlow]
    exact ⟨_, rfl⟩
  · rw [makeslice, if_neg fun h => hmake h.2]
    exact iff_of_false nofun hmake

/-- Decoding a reply yields a value exactly under the stated bounds. -/
theorem pollOnce_yields_iff (g : PollingGroup) (reply : Reply) :
    (∃ payload, pollOnce g reply = .ok payload) ↔ Inside g reply := by
  have hquantity : (g.quantity.toNat : Int) ≤ maxAlloc := by
    have := g.quantity.toNat_lt
    unfold maxAlloc
    omega
  have hregisters : (∃ payload, decodeRegisterValue reply.bytes g.fields = .ok payload) ↔
      if g.fields = [] then ((reply.bytes.length / 2 : Nat) : Int) * 8 ≤ maxAlloc
      else FieldsInside reply.bytes.length g.fields := by
    split
    next hfields =>
      rw [hfields]
      exact exists_registerWords_iff reply.bytes
    next hfields =>
      rw [fieldsInside_iff reply.allocated g.fields ∅, decodeRegisterValue, if_neg hfields]
      unfold decodeRegisters
      split
      next x hfault => exact iff_of_false nofun fun h => h x hfault
      next e herror => exact iff_of_true ⟨_, rfl⟩ fun x => by rw [herror]; nofun
      next values hvalues => exact iff_of_true ⟨_, rfl⟩ fun x => by rw [hvalues]; nofun
  unfold pollOnce Inside
  cases g.area with
  | coils | discreteInputs => exact exists_bind_ok_iff.trans (exists_decodeBits_iff hquantity)
  | holdingRegisters | inputRegisters => exact hregisters
  | other name => exact iff_of_true ⟨_, rfl⟩ trivial

def sixteenCoils : PollingGroup := ⟨"g", .coils, 16, 1000, []⟩

theorem one_le_maxAlloc : (1 : Int) ≤ maxAlloc := by decide

theorem short_coil_reply_faults :
    sixteenCoils.check = .ok () ∧
      pollOnce sixteenCoils ⟨[255], one_le_maxAlloc⟩ = .error .outside := ⟨rfl, rfl⟩

/-! ## Reading back what was written -/

def FieldType.range : FieldType → Option (Int × Int)
  | .uint16 => some (0, 0x10000)
  | .int16 => some (-0x8000, 0x8000)
  | .uint32 => some (0, 0x100000000)
  | .int32 => some (-0x80000000, 0x80000000)
  | .uint64 => some (0, 0x10000000000000000)
  | .int64 => some (-0x8000000000000000, 0x8000000000000000)
  | _ => none

inductive Written (f : Field) : Value → Value → Prop
  | integer {value : Value} {z low high : Int} (hrange : f.type.range = some (low, high))
      (hlow : low ≤ z) (hhigh : z < high) (hexact : z.natAbs ≤ 0x20000000000000)
      (hvalue : toFloat value = some (Binary64.ofInt z)) :
      Written f value (.number (Binary64.ofInt z))
  | text {s : List UInt8} (htype : f.type = .string) (hlength : s.length ≤ 2 * f.length)
      (hnull : 0 ∉ s) : Written f (.string s) (.string s)

def pairs : List UInt8 → List UInt16
  | a :: b :: rest => register.unpack [a, b] :: pairs rest
  | _ => []

/-- The text fits into registers that can be allocated, and turning their order round does not
change it: it is empty or in one register, or it fills a row of registers that reads the same in
both directions. -/
def KeepsText (f : Field) (s : List UInt8) : Prop :=
  0 < f.length ∧ f.length * 2 ≤ maxAlloc ∧
    (f.wordOrder = .little → s = [] ∨ f.length = 1 ∨
      (s.length : Int) = 2 * f.length ∧ (pairs s).reverse = pairs s)

theorem orderWords_orderWords (f : Field) (words : List UInt16) :
    orderWords f (orderWords f words) = words := by
  unfold orderWords
  split <;> simp

theorem length_orderWords (f : Field) (words : List UInt16) :
    (orderWords f words).length = words.length := by
  unfold orderWords
  split <;> simp

theorem length_splitWords (k v : Nat) : (splitWords k v).length = k := by
  induction k with
  | zero => rfl
  | succ k ih => rw [splitWords, List.length_cons, ih]

theorem joinWords_splitWords (k v : Nat) : joinWords (splitWords k v) = v % 65536 ^ k := by
  have hfold : ∀ start, (splitWords k v).foldl (fun v w => v * 65536 + w.toNat) start =
      start * 65536 ^ k + v % 65536 ^ k := by
    induction k with
    | zero => simp [splitWords, Nat.mod_one]
    | succ k ih =>
      intro start
      have hshift : v >>> (16 * k) = v / 65536 ^ k := by rw [Nat.shiftRight_eq_div_pow, Nat.pow_mul]
      rw [splitWords, List.foldl_cons, ih, UInt16.toNat_ofNat', hshift, Nat.pow_succ 65536,
        Nat.mod_mul]
      ring
  rw [joinWords, hfold 0, Nat.zero_mul, Nat.zero_add]

theorem readWords_packAll {words : List UInt16} (hroom : (words.length : Int) * 2 ≤ maxAlloc) :
    readWords (register.packAll words) 0 words.length = .ok words := by
  have hword : ∀ i ∈ List.range words.length,
      wordAt (register.packAll words) (wrap64 (0 + (i : Int) * 2)) = .ok (words[i]?.getD 0) := by
    intro i hi
    have hi := List.mem_range.mp hi
    have hlength : (register.packAll words).length = words.length * 2 :=
      register.length_packAll words
    have htake : ((register.packAll words).drop (i * 2)).take 2 = register.pack words[i] :=
      register.take_drop_packAll words hi
    unfold maxAlloc at hroom
    rw [wrap64_eq_self (by omega) (by omega), wordAt, wrap64_eq_self (by omega) (by omega),
      if_pos (by omega), show (0 + (i : Int) * 2).toNat = i * 2 by omega, htake,
      register.unpack_pack, List.getElem?_eq_getElem hi]
    rfl
  have hall : (List.range words.length).map (words[·]?.getD 0) = words := by
    apply List.ext_getElem
    · rw [List.length_map, List.length_range]
    · intro i hi hi'
      rw [List.getElem_map, List.getElem_range, List.getElem?_eq_getElem hi']
      rfl
  rw [readWords, makeslice_eq_ok (Int.natCast_nonneg _) hroom]
  change List.mapM _ (List.range (words.length : Int).toNat) = _
  rw [Int.toNat_natCast, mapM_eq_ok hword, hall]

section ReadBack

variable {words : List UInt16} (hroom : (words.length : Int) * 2 ≤ maxAlloc)

include hroom

theorem wrap64_length : wrap64 ((words.length : Int) * 2) = words.length * 2 := by
  unfold maxAlloc at hroom
  exact wrap64_eq_self (by omega) (by omega)

theorem registerWords_packAll (hregister : f.register = 0) :
    registerWords (register.packAll words) f words.length = .ok (orderWords f words) := by
  have hlength : ((register.packAll words).length : Int) = words.length * 2 := by
    rw [register.length_packAll]
    exact Int.natCast_mul _ _
  have hstart : wrap64 0 = 0 := wrap64_eq_self (by omega) (by omega)
  have hinside : ¬ ((0 : Int) < 0 ∨
      ((register.packAll words).length : Int) < words.length * 2) := by omega
  unfold registerWords
  dsimp only
  rw [hregister, wrap64_length hroom, Int.zero_mul, hstart, Int.zero_add, wrap64_length hroom,
    if_neg hinside, readWords_packAll hroom]
  rfl

variable {value : Value}

theorem writtenBytes_of_words (hencode : encodeField f value = .ok words) :
    writtenBytes f value = .ok (register.packAll words) := by
  rw [writtenBytes, hencode, ok_bind, guarded_makeslice (by omega) hroom, ok_bind]

theorem readBack_of_words (hregister : f.register = 0) (hencode : encodeField f value = .ok words)
    (hcount : registerCount f = .ok words.length) :
    readBack f value = (do
      let value ← fieldValue f words.length (orderWords f words)
      .ok (AList.insert f.name value ∅)) := by
  have hfield : decodeField (register.packAll words) f =
      fieldValue f words.length (orderWords f words) := by
    rw [decodeField_of_count hcount, registerWords_packAll hroom hregister]
    rfl
  rw [readBack, writtenBytes_of_words hroom hencode, ok_bind, ← hfield, decodeRegisters,
    List.foldlM_cons]
  cases decodeField (register.packAll words) f <;> rfl

end ReadBack

theorem readBack_integer {value : Value} {k v : Nat} (hregister : f.register = 0) (hk : k ≤ 4)
    (hencode : encodeField f value = .ok (orderWords f (splitWords k v)))
    (hcount : registerCount f = .ok k) : readBack f value = (do
      let value ← fieldValue f k (splitWords k v)
      .ok (AList.insert f.name value ∅)) := by
  have hlength : (orderWords f (splitWords k v)).length = k := by
    rw [length_orderWords, length_splitWords]
  have hroom : ((orderWords f (splitWords k v)).length : Int) * 2 ≤ maxAlloc := by
    unfold maxAlloc
    omega
  rw [readBack_of_words hroom hregister hencode (by rw [hlength, hcount]), orderWords_orderWords,
    hlength]

theorem fieldValue_splitWords {z low high : Int} (hrange : f.type.range = some (low, high))
    (hlow : low ≤ z) (hhigh : z < high) (hexact : z.natAbs ≤ 0x20000000000000) :
    ∃ k v : Nat, k ≤ 4 ∧ registerCount f = .ok k ∧
      encodeNumber f (Binary64.ofInt z) = .ok (orderWords f (splitWords k v)) ∧
      fieldValue f k (splitWords k v) = .ok (.number (Binary64.ofInt z)) := by
  have hnumber : ∀ {y : Int}, y = z →
      (.ok (.number (Binary64.ofInt y)) : Except Failure Value) =
        .ok (.number (Binary64.ofInt z)) := by
    rintro y rfl
    rfl
  unfold registerCount encodeNumber fieldValue
  rw [Binary64.toInt64_ofInt hexact]
  cases htype : f.type <;> rw [htype] at hrange <;> cases hrange
  case uint16 => exact ⟨1, _, by omega, rfl, rfl, hnumber (by rw [joinWords_splitWords]; omega)⟩
  case int16 =>
    exact ⟨1, _, by omega, rfl, rfl, hnumber (by rw [joinWords_splitWords, Int.bmod_def]; omega)⟩
  case uint32 => exact ⟨2, _, by omega, rfl, rfl, hnumber (by rw [joinWords_splitWords]; omega)⟩
  case int32 =>
    exact ⟨2, _, by omega, rfl, rfl, hnumber (by rw [joinWords_splitWords, Int.bmod_def]; omega)⟩
  case uint64 => exact ⟨4, _, by omega, rfl, rfl, hnumber (by rw [joinWords_splitWords]; omega)⟩
  case int64 =>
    refine ⟨4, _, by omega, rfl, rfl, hnumber ?_⟩
    rw [joinWords_splitWords, Int.bmod_def]
    omega

/-! ## Texts -/

theorem pack_unpack (a b : UInt8) : register.pack (register.unpack [a, b]) = [a, b] := by
  have hlt : ofBigEndian [a, b] < 2 ^ 16 := by simpa using ofBigEndian_lt [a, b]
  change bigEndian 2 (UInt16.ofNat (ofBigEndian [a, b])).toNat = [a, b]
  rw [UInt16.toNat_ofNat', Nat.mod_eq_of_lt hlt]
  exact bigEndian_ofBigEndian [a, b]

theorem packAll_pairs {b : List UInt8} {n : Nat} (hb : b.length = 2 * n) :
    register.packAll (pairs b) = b ∧ (pairs b).length = n := by
  induction n generalizing b with
  | zero =>
    rw [List.length_eq_zero_iff.mp hb]
    exact ⟨rfl, rfl⟩
  | succ n ih =>
    match b, hb with
    | x :: y :: rest, hb =>
      obtain ⟨hpack, hlength⟩ := ih (b := rest) (by simp only [List.length_cons] at hb; omega)
      rw [pairs, Packing.packAll_cons, pack_unpack, hpack, List.length_cons, hlength]
      exact ⟨rfl, rfl⟩

theorem pairs_append {b c : List UInt8} {n : Nat} (hb : b.length = 2 * n) :
    pairs (b ++ c) = pairs b ++ pairs c := by
  induction n generalizing b with
  | zero =>
    rw [List.length_eq_zero_iff.mp hb]
    rfl
  | succ n ih =>
    match b, hb with
    | x :: y :: rest, hb =>
      have htail := ih (b := rest) (by simp only [List.length_cons] at hb; omega)
      rw [List.cons_append, List.cons_append, pairs, pairs, htail, List.cons_append]

theorem length_padded (hs : s.length ≤ 2 * n) : (padded s n).length = 2 * n.toNat := by
  rw [padded, List.length_append, List.length_take, List.length_replicate]
  omega

theorem trimNulls_append {rest : List UInt8} (hnull : 0 ∉ s) :
    trimNulls (s ++ rest) = s ++ trimNulls rest := by
  apply List.takeWhile_append_of_pos
  intro byte hbyte
  rw [decide_eq_true_eq]
  rintro rfl
  exact hnull hbyte

theorem padded_eq (hs : s.length ≤ 2 * n) :
    padded s n = s ++ List.replicate ((2 * n).toNat - s.length) 0 := by
  rw [padded, List.take_of_length_le (by omega)]

theorem pairs_packAll (words : List UInt16) : pairs (register.packAll words) = words := by
  induction words with
  | nil => rfl
  | cons w words ih =>
    have hlength : (register.pack w).length = 2 := register.length_pack w
    obtain ⟨a, b, hpack⟩ := List.length_eq_two.mp hlength
    have hw := register.unpack_pack w
    rw [hpack] at hw
    rw [Packing.packAll_cons, hpack]
    change register.unpack [a, b] :: pairs (register.packAll words) = _
    rw [hw, ih]

section Reverse

variable {n : Nat}

theorem trimNulls_reverse_of_full (hs : s.length = 2 * n) (hnull : 0 ∉ s) :
    trimNulls (register.packAll (pairs s).reverse) = s ↔ (pairs s).reverse = pairs s := by
  obtain ⟨hpack, -⟩ := packAll_pairs hs
  have hperm : (register.packAll (pairs s).reverse).Perm s := by
    conv_rhs => rw [← hpack]
    exact (List.reverse_perm _).flatMap_right _
  have hnull' : 0 ∉ register.packAll (pairs s).reverse := fun h => hnull (hperm.mem_iff.mp h)
  have htrim := @trimNulls_append _ [] hnull'
  rw [show trimNulls [] = [] from rfl, List.append_nil] at htrim
  rw [htrim]
  constructor
  · intro h
    rw [← pairs_packAll (pairs s).reverse, h]
  · intro h
    rw [h, hpack]

theorem trimNulls_reverse_of_padded {front : List UInt8} {x : UInt8}
    (hfront : front.length = 2 * n) :
    trimNulls (register.packAll (pairs (front ++ [x, 0])).reverse) = trimNulls [x] := by
  rw [pairs_append hfront, List.reverse_append]
  change trimNulls (register.packAll (register.unpack [x, 0] :: (pairs front).reverse)) = _
  rw [Packing.packAll_cons, pack_unpack]
  unfold trimNulls
  simp [List.takeWhile_cons]

theorem trimNulls_reverse_iff (hpos : 0 < n) (hs : s.length ≤ 2 * n) (hnull : 0 ∉ s) :
    trimNulls (register.packAll (pairs (padded s n)).reverse) = s ↔
      s = [] ∨ n = 1 ∨ s.length = 2 * n ∧ (pairs s).reverse = pairs s := by
  rw [padded_eq (by omega)]
  rcases (show s.length = 2 * n ∨ s.length + 1 = 2 * n ∨ s.length + 2 ≤ 2 * n by omega) with
    hfull | hodd | hless
  · have hlength := (packAll_pairs hfull).2
    have hnone : (2 * (n : Int)).toNat - s.length = 0 := by omega
    rw [hnone, List.replicate_zero, List.append_nil, trimNulls_reverse_of_full hfull hnull]
    constructor
    · exact fun h => .inr (.inr ⟨hfull, h⟩)
    · rintro (rfl | rfl | ⟨-, h⟩)
      · exact absurd hfull (by simp only [List.length_nil]; omega)
      · obtain ⟨w, hw⟩ := List.length_eq_one_iff.mp hlength
        rw [hw]
        rfl
      · exact h
  · have hne : s ≠ [] := by
      rintro rfl
      rw [List.length_nil] at hodd
      omega
    obtain ⟨front, x, rfl⟩ : ∃ front x, s = front ++ [x] :=
      ⟨_, _, (List.dropLast_append_getLast hne).symm⟩
    rw [List.length_append, List.length_singleton] at hodd
    have hone : (2 * (n : Int)).toNat - (front ++ [x]).length = 1 := by
      rw [List.length_append, List.length_singleton]
      omega
    have hx : x ≠ 0 := fun h => hnull (by simp [h])
    rw [hone, List.append_assoc]
    change trimNulls (register.packAll (pairs (front ++ [x, 0])).reverse) = _ ↔ _
    have htrim : trimNulls [x] = [x] := by simp [trimNulls, hx]
    rw [trimNulls_reverse_of_padded (n := n - 1) (by omega), htrim]
    constructor
    · intro h
      have hlength := congrArg List.length h
      rw [List.length_append] at hlength
      exact .inr (.inl (by omega))
    · rintro (h | rfl | ⟨hfull, -⟩)
      · exact absurd h (by simp)
      · rw [List.length_eq_zero_iff.mp (show front.length = 0 by omega)]
        rfl
      · omega
  · have hmore : (2 * (n : Int)).toNat - s.length = (2 * n - 2 - s.length) + 2 := by omega
    rw [hmore, ← List.replicate_append_replicate, ← List.append_assoc]
    change trimNulls (register.packAll (pairs (_ ++ [0, 0])).reverse) = _ ↔ _
    rw [trimNulls_reverse_of_padded (n := n - 1)
      (by rw [List.length_append, List.length_replicate]; omega)]
    constructor
    · exact fun h => .inl h.symm
    · rintro (rfl | rfl | ⟨hfull, -⟩)
      · rfl
      · exact (List.length_eq_zero_iff.mp (by omega)).symm
      · omega

end Reverse

section Text

variable (htype : f.type = .string)

include htype

theorem encodeField_text : encodeField f (.string s) = encodeText f s := by
  rw [encodeField, if_pos htype]

theorem registerCount_text (hpos : 0 < f.length) : registerCount f = .ok f.length := by
  rw [registerCount, htype]
  rw [if_neg (by omega)]

theorem readBack_text (hregister : f.register = 0) (hpos : 0 < f.length)
    (hroom : f.length * 2 ≤ maxAlloc) (hs : s.length ≤ 2 * f.length) :
    readBack f (.string s) = .ok (AList.insert f.name (.string (trimNulls
      (register.packAll (orderWords f (pairs (padded s f.length)))))) ∅) := by
  obtain ⟨hpack, hwords⟩ := packAll_pairs (length_padded hs)
  have hlength : ((pairs (padded s f.length)).length : Int) = f.length := by omega
  have hcount := registerCount_text htype hpos
  have hmake := guarded_makeslice (Int.le_of_lt hpos) hroom
  have hread := @readWords_packAll (pairs (padded s f.length)) (by omega)
  rw [hpack, hlength] at hread
  have hencode : encodeField f (.string s) = .ok (pairs (padded s f.length)) := by
    rw [encodeField_text htype, encodeText, hcount, ok_bind, hmake, ok_bind, hread, guarded]
  rw [readBack_of_words (by omega) hregister hencode (by rw [hlength, hcount]), fieldValue, htype,
    hlength]
  rw [hmake, ok_bind, ok_bind]

theorem readBack_text_eq_ok {values : AList fun _ : String => Value}
    (h : readBack f (.string s) = .ok values) : 0 < f.length ∧ f.length * 2 ≤ maxAlloc := by
  rw [readBack, writtenBytes, encodeField_text htype, encodeText] at h
  by_cases hpos : 0 < f.length
  · refine ⟨hpos, ?_⟩
    by_contra hmore
    rw [registerCount_text htype hpos, ok_bind, readWords, makeslice, makeslice,
      if_neg (c := 0 ≤ f.length ∧ f.length * 2 ≤ maxAlloc) (fun h => hmore h.2)] at h
    split at h <;> cases h
  · rw [registerCount, htype] at h
    rw [if_pos (by omega)] at h
    cases h

omit htype in
theorem trimNulls_ordered_iff (hpos : 0 < f.length) (hs : s.length ≤ 2 * f.length) (hnull : 0 ∉ s) :
    trimNulls (register.packAll (orderWords f (pairs (padded s f.length)))) = s ↔
      (f.wordOrder = .little → s = [] ∨ f.length = 1 ∨
        (s.length : Int) = 2 * f.length ∧ (pairs s).reverse = pairs s) := by
  obtain ⟨n, hn⟩ : ∃ n : Nat, f.length = n := ⟨f.length.toNat, by omega⟩
  unfold orderWords
  rw [hn] at hpos hs ⊢
  split
  next hlittle =>
    rw [trimNulls_reverse_iff (by omega) (by omega) hnull]
    simp only [hlittle, true_implies]
    norm_cast
  next hbig =>
    refine iff_of_true ?_ fun hlittle => absurd hlittle hbig
    rw [(packAll_pairs (length_padded hs)).1, padded_eq hs, trimNulls_append hnull]
    cases (2 * (n : Int)).toNat - s.length <;> exact List.append_nil s

end Text

/--
What is written to a field and decoded again comes back exactly if, in the case of a text, its
registers hold it whatever their order.
-/
theorem readBack_iff {f : Field} {value expected : Value} (hregister : f.register = 0)
    (hwritten : Written f value expected) :
    readBack f value = .ok (AList.insert f.name expected ∅) ↔
      ∀ s, value = .string s → KeepsText f s := by
  cases hwritten with
  | integer hrange hlow hhigh hexact hvalue =>
    obtain ⟨k, v, hk, hcount, hencode, hfield⟩ :=
      fieldValue_splitWords hrange hlow hhigh hexact
    have htype : f.type ≠ .string := by
      intro htype
      rw [htype] at hrange
      cases hrange
    have hwords : encodeField f value = .ok (orderWords f (splitWords k v)) := by
      unfold encodeField
      rw [if_neg htype, hvalue]
      exact hencode
    rw [readBack_integer hregister hk hwords hcount, hfield, ok_bind]
    refine iff_of_true rfl ?_
    rintro s rfl
    cases hvalue
  | @text s htype hs hnull =>
    constructor
    · rintro h s ⟨⟩
      obtain ⟨hpos, hroom⟩ := readBack_text_eq_ok htype h
      refine ⟨hpos, hroom, (trimNulls_ordered_iff hpos hs hnull).mp ?_⟩
      rw [readBack_text htype hregister hpos hroom hs] at h
      have hlookup := congrArg (AList.lookup f.name) (Except.ok.inj h)
      rw [AList.lookup_insert, AList.lookup_insert] at hlookup
      exact Value.string.inj (Option.some.inj hlookup)
    · intro h
      obtain ⟨hpos, hroom, horder⟩ := h s rfl
      rw [readBack_text htype hregister hpos hroom hs,
        (trimNulls_ordered_iff hpos hs hnull).mpr horder]

def littleInt32 : Field := ⟨"v", 0, .int32, 0, 0, .little⟩

theorem minus_five_comes_back :
    readBack littleInt32 (.int (-5)) =
      .ok (AList.insert "v" (.number (Binary64.ofInt (-5))) ∅) :=
  (readBack_iff rfl (.integer rfl (by decide) (by decide) (by decide) rfl)).mpr nofun

def littleText : Field := ⟨"v", 0, .string, 2, 0, .little⟩

theorem text_comes_back_turned_round :
    Written littleText (.string [65, 66, 67, 68]) (.string [65, 66, 67, 68]) ∧
      readBack littleText (.string [65, 66, 67, 68]) =
        .ok (AList.insert "v" (.string [67, 68, 65, 66]) ∅) :=
  ⟨.text rfl (by decide) (by decide), rfl⟩

end DataPipe.Nodes.Modbus
