import Mathlib.Algebra.Group.Nat.Defs
import Mathlib.Data.List.Induction

/-!
# Big-endian words

Numbers as a fixed number of bytes, the most significant first, and sequences of
elements that are packed into words of one width.
-/

namespace DataPipe.Foundation

/-- The low `width` bytes of `n`. -/
def bigEndian : Nat → Nat → List UInt8
  | 0, _ => []
  | width + 1, n => bigEndian width (n / 256) ++ [UInt8.ofNat n]

def ofBigEndian (bytes : List UInt8) : Nat :=
  bytes.foldl (fun n byte => n * 256 + byte.toNat) 0

@[simp] theorem length_bigEndian (width n : Nat) : (bigEndian width n).length = width := by
  induction width generalizing n with
  | zero => rfl
  | succ width ih => rw [bigEndian, List.length_append, ih, List.length_singleton]

theorem ofBigEndian_concat (bytes : List UInt8) (byte : UInt8) :
    ofBigEndian (bytes ++ [byte]) = ofBigEndian bytes * 256 + byte.toNat := by
  rw [ofBigEndian, List.foldl_append]
  rfl

theorem ofBigEndian_lt (bytes : List UInt8) : ofBigEndian bytes < 256 ^ bytes.length := by
  induction bytes using List.reverseRecOn with
  | nil => decide
  | append_singleton bytes byte ih =>
    have hbyte : byte.toNat < 256 := byte.toNat_lt
    rw [ofBigEndian_concat, List.length_append, List.length_singleton]
    omega

theorem ofBigEndian_bigEndian {width n : Nat} (hn : n < 256 ^ width) :
    ofBigEndian (bigEndian width n) = n := by
  induction width generalizing n with
  | zero =>
    rw [Nat.pow_zero, Nat.lt_one_iff] at hn
    rw [hn]
    rfl
  | succ width ih =>
    have hhigh : n / 256 < 256 ^ width := by omega
    rw [bigEndian, ofBigEndian_concat, ih hhigh, UInt8.toNat_ofNat']
    omega

theorem bigEndian_ofBigEndian (bytes : List UInt8) :
    bigEndian bytes.length (ofBigEndian bytes) = bytes := by
  induction bytes using List.reverseRecOn with
  | nil => rfl
  | append_singleton bytes byte ih =>
    have hbyte : byte.toNat < 256 := byte.toNat_lt
    have hhigh : (ofBigEndian bytes * 256 + byte.toNat) / 256 = ofBigEndian bytes := by omega
    have hlow : UInt8.ofNat (ofBigEndian bytes * 256 + byte.toNat) = byte := by
      apply UInt8.toNat_inj.mp
      rw [UInt8.toNat_ofNat']
      omega
    rw [List.length_append, List.length_singleton, ofBigEndian_concat, bigEndian, hhigh, ih, hlow]

/-- Elements that take `width` bytes each. -/
structure Packing (α : Type) where
  width : Nat
  pack : α → List UInt8
  unpack : List UInt8 → α
  width_pos : 0 < width
  length_pack : ∀ x, (pack x).length = width
  unpack_pack : ∀ x, unpack (pack x) = x

namespace Packing

variable {α : Type}

def word (width : Nat) (toNat : α → Nat) (ofNat : Nat → α) (hpos : 0 < width)
    (hlt : ∀ x, toNat x < 256 ^ width) (hback : ∀ x, ofNat (toNat x) = x) : Packing α where
  width
  pack x := bigEndian width (toNat x)
  unpack bytes := ofNat (ofBigEndian bytes)
  width_pos := hpos
  length_pack _ := length_bigEndian _ _
  unpack_pack x := by rw [ofBigEndian_bigEndian (hlt x), hback]

variable (p : Packing α)

def packAll (xs : List α) : List UInt8 := xs.flatMap p.pack

@[simp] theorem packAll_nil : p.packAll [] = [] := rfl

@[simp] theorem packAll_cons (x : α) (xs : List α) :
    p.packAll (x :: xs) = p.pack x ++ p.packAll xs := rfl

@[simp] theorem length_packAll (xs : List α) : (p.packAll xs).length = xs.length * p.width := by
  induction xs with
  | nil => rw [packAll_nil, List.length_nil, List.length_nil, Nat.zero_mul]
  | cons x xs ih =>
    rw [packAll_cons, List.length_append, p.length_pack, ih, List.length_cons, Nat.succ_mul,
      Nat.add_comm]

theorem take_drop_packAll (xs : List α) {i : Nat} (hi : i < xs.length) :
    ((p.packAll xs).drop (i * p.width)).take p.width = p.pack xs[i] := by
  induction xs generalizing i with
  | nil => exact absurd hi (Nat.not_lt_zero i)
  | cons x xs ih =>
    cases i with
    | zero =>
      rw [Nat.zero_mul, List.drop_zero, packAll_cons, ← p.length_pack x, List.take_left]
      rfl
    | succ i =>
      have hwidth : (i + 1) * p.width = (p.pack x).length + i * p.width := by
        rw [p.length_pack, Nat.succ_mul, Nat.add_comm]
      rw [packAll_cons, hwidth, ← List.drop_drop, List.drop_left, ih (Nat.lt_of_succ_lt_succ hi)]
      rfl

end Packing

end DataPipe.Foundation
