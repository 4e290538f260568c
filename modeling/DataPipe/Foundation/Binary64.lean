import Mathlib.Data.Nat.Log

/-!
# Numbers in the formats binary64 and binary32

A number is the value of its bits.  An integer of at most 53 bits has a number of its
own, from which it is read back.
-/

namespace DataPipe.Foundation.Binary64

/-- `m` shifted right by `s` bits, rounded to the nearest, ties to even. -/
def roundShift (m s : Nat) : Nat :=
  let q := m >>> s
  let twice := 2 * (m - q <<< s)
  if 1 <<< s < twice ∨ twice = 1 <<< s ∧ q % 2 = 1 then q + 1 else q

/-- The leading bit of the significand, which is not stored, counts as one of the exponent. -/
def ofNat (n : Nat) : Nat :=
  if n = 0 then 0
  else if n.log2 ≤ 52 then (n.log2 + 1022) * 0x10000000000000 + n <<< (52 - n.log2)
  else (n.log2 + 1022) * 0x10000000000000 + roundShift n (n.log2 - 52)

/-- `float64(z)` of an integer type. -/
def ofInt (z : Int) : Nat :=
  if z < 0 then 0x8000000000000000 + ofNat z.natAbs else ofNat z.natAbs

def magnitude (bits : Nat) : Nat :=
  let exponent := bits / 0x10000000000000 % 2048
  let significand := bits % 0x10000000000000 + 0x10000000000000
  if exponent = 0 then 0
  else if 1075 ≤ exponent then significand <<< (exponent - 1075)
  else significand >>> (1075 - exponent)

/-- `int64(x)`; on amd64 a number out of range becomes the least integer. -/
def toInt64 (bits : Nat) : Int :=
  let z : Int := if bits < 0x8000000000000000 then magnitude bits else -magnitude bits
  if -0x8000000000000000 ≤ z ∧ z < 0x8000000000000000 then z else -0x8000000000000000

/-- `float64(x)` of the bits of a `float32`. -/
def ofFloat32 (bits : Nat) : Nat :=
  let sign := bits / 0x80000000 % 2 * 0x8000000000000000
  let exponent := bits / 0x800000 % 256
  let fraction := bits % 0x800000
  if exponent = 255 then
    sign + 0x7ff0000000000000 + (if fraction = 0 then 0 else fraction <<< 29 ||| 0x8000000000000)
  else if exponent = 0 then
    if fraction = 0 then sign
    else sign + (fraction.log2 + 873) * 0x10000000000000 + fraction <<< (52 - fraction.log2)
  else sign + (exponent + 896) * 0x10000000000000 + fraction <<< 29

/-- The bits of `float32(x)`. -/
def toFloat32 (bits : Nat) : Nat :=
  let sign := bits / 0x8000000000000000 % 2 * 0x80000000
  let exponent := bits / 0x10000000000000 % 2048
  let fraction := bits % 0x10000000000000
  if exponent = 2047 then
    sign + 0x7f800000 + (if fraction = 0 then 0 else fraction >>> 29 ||| 0x400000)
  else if exponent = 0 then sign
  else if 1150 < exponent then sign + 0x7f800000
  else if 897 ≤ exponent then
    sign + (exponent - 897) * 0x800000 + roundShift (fraction + 0x10000000000000) 29
  else sign + roundShift (fraction + 0x10000000000000) (29 + (897 - exponent))

variable {n : Nat}

theorem magnitude_fields {k : Nat} (hlow : 0x10000000000000 ≤ n <<< (52 - k))
    (hhigh : n <<< (52 - k) < 0x20000000000000) (hk : k ≤ 52) :
    magnitude ((k + 1022) * 0x10000000000000 + n <<< (52 - k)) = n := by
  have hexponent :
      ((k + 1022) * 0x10000000000000 + n <<< (52 - k)) / 0x10000000000000 % 2048 = k + 1023 := by
    omega
  have hsignificand :
      ((k + 1022) * 0x10000000000000 + n <<< (52 - k)) % 0x10000000000000 + 0x10000000000000 =
        n <<< (52 - k) := by
    omega
  unfold magnitude
  simp only [hexponent, hsignificand]
  rw [if_neg (Nat.succ_ne_zero _)]
  split
  · have h52 : k = 52 := by omega
    rw [h52]
    rfl
  · have hshift : 1075 - (k + 1023) = 52 - k := by omega
    rw [hshift, Nat.shiftLeft_shiftRight]

theorem log2_le (hpos : n ≠ 0) (hn : n < 0x20000000000000) : n.log2 ≤ 52 := by
  have := (Nat.log2_lt hpos).mpr (show n < 2 ^ 53 from hn)
  omega

theorem shiftLeft_bounds (hpos : n ≠ 0) (hlog : n.log2 ≤ 52) :
    0x10000000000000 ≤ n <<< (52 - n.log2) ∧ n <<< (52 - n.log2) < 0x20000000000000 := by
  have hpow : 2 ^ n.log2 * 2 ^ (52 - n.log2) = 0x10000000000000 := by
    rw [← Nat.pow_add, Nat.add_sub_cancel' hlog]
  rw [Nat.shiftLeft_eq]
  constructor
  · rw [← hpow]
    exact Nat.mul_le_mul_right _ (Nat.log2_self_le hpos)
  · calc n * 2 ^ (52 - n.log2) < 2 ^ (n.log2 + 1) * 2 ^ (52 - n.log2) :=
          Nat.mul_lt_mul_of_pos_right Nat.lt_log2_self (Nat.two_pow_pos _)
      _ = 2 * (2 ^ n.log2 * 2 ^ (52 - n.log2)) := by rw [Nat.pow_succ', Nat.mul_assoc]
      _ = 0x20000000000000 := by rw [hpow]

theorem ofNat_spec (hn : n ≤ 0x20000000000000) :
    magnitude (ofNat n) = n ∧ ofNat n < 0x8000000000000000 := by
  rcases Nat.eq_or_lt_of_le hn with rfl | hlt
  · decide
  by_cases hzero : n = 0
  · rw [hzero]
    decide
  have hlog := log2_le hzero hlt
  obtain ⟨hlow, hhigh⟩ := shiftLeft_bounds hzero hlog
  rw [ofNat, if_neg hzero, if_pos hlog]
  exact ⟨magnitude_fields hlow hhigh hlog, by omega⟩

theorem magnitude_add_sign (bits : Nat) :
    magnitude (0x8000000000000000 + bits) = magnitude bits := by
  have hexponent : (0x8000000000000000 + bits) / 0x10000000000000 % 2048 =
      bits / 0x10000000000000 % 2048 := by omega
  have hfraction : (0x8000000000000000 + bits) % 0x10000000000000 =
      bits % 0x10000000000000 := by omega
  unfold magnitude
  rw [hexponent, hfraction]

theorem toInt64_ofInt {z : Int} (hz : z.natAbs ≤ 0x20000000000000) : toInt64 (ofInt z) = z := by
  obtain ⟨hmagnitude, hlt⟩ := ofNat_spec hz
  by_cases hneg : z < 0
  · rw [ofInt, if_pos hneg, toInt64, magnitude_add_sign]
    omega
  · rw [ofInt, if_neg hneg, toInt64]
    omega

end DataPipe.Foundation.Binary64
