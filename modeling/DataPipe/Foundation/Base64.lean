import Mathlib.Algebra.Group.Nat.Defs
import Mathlib.Data.List.Basic

/-!
# Standard base64

Encoding with padding and the matching decoder: three bytes become four
characters, an incomplete group is filled up with `=`.
-/

namespace DataPipe.Foundation.Base64

def alphabet : List Char :=
  "ABCDEFGHIJKLMNOPQRSTUVWXYZabcdefghijklmnopqrstuvwxyz0123456789+/".toList

def encodeDigit (digit : Nat) : Char := alphabet.getD digit 'A'

def decodeDigit (c : Char) : Option Nat :=
  if c ∈ alphabet then some (alphabet.idxOf c) else none

/-- The `index`-th of the four six-bit digits of a 24-bit group. -/
def digit (group index : Nat) : Nat := group / 64 ^ (3 - index) % 64

def encode : List UInt8 → List Char
  | [] => []
  | [a] =>
    let group := a.toNat * 65536
    [encodeDigit (digit group 0), encodeDigit (digit group 1), '=', '=']
  | [a, b] =>
    let group := a.toNat * 65536 + b.toNat * 256
    [encodeDigit (digit group 0), encodeDigit (digit group 1), encodeDigit (digit group 2), '=']
  | a :: b :: c :: rest =>
    let group := a.toNat * 65536 + b.toNat * 256 + c.toNat
    encodeDigit (digit group 0) :: encodeDigit (digit group 1) ::
      encodeDigit (digit group 2) :: encodeDigit (digit group 3) ::
      encode rest

def group (w x y z : Nat) : Nat := w * 262144 + x * 4096 + y * 64 + z

def decodeGroups : List Char → Option (List UInt8)
  | [] => some []
  | w :: x :: y :: z :: rest =>
    if rest = [] ∧ z = '=' then
      if y = '=' then do
        let w ← decodeDigit w
        let x ← decodeDigit x
        some [UInt8.ofNat (group w x 0 0 / 65536)]
      else do
        let w ← decodeDigit w
        let x ← decodeDigit x
        let y ← decodeDigit y
        some [UInt8.ofNat (group w x y 0 / 65536), UInt8.ofNat (group w x y 0 / 256)]
    else do
      let w ← decodeDigit w
      let x ← decodeDigit x
      let y ← decodeDigit y
      let z ← decodeDigit z
      let bytes ← decodeGroups rest
      some (UInt8.ofNat (group w x y z / 65536) ::
        UInt8.ofNat (group w x y z / 256) ::
        UInt8.ofNat (group w x y z) :: bytes)
  | _ => none

def decode (text : List Char) : Option (List UInt8) :=
  decodeGroups (text.filter fun c => c ≠ '\r' ∧ c ≠ '\n')

theorem digit_lt (group index : Nat) : digit group index < 64 :=
  Nat.mod_lt _ (by decide)

theorem encodeDigit_facts : ∀ digit < 64,
    decodeDigit (encodeDigit digit) = some digit ∧ encodeDigit digit ≠ '=' ∧
      encodeDigit digit ≠ '\r' ∧ encodeDigit digit ≠ '\n' := by
  decide +kernel

theorem decodeDigit_encodeDigit (n index : Nat) :
    decodeDigit (encodeDigit (digit n index)) = some (digit n index) :=
  (encodeDigit_facts _ (digit_lt n index)).1

theorem encodeDigit_ne_pad (n index : Nat) : encodeDigit (digit n index) ≠ '=' :=
  (encodeDigit_facts _ (digit_lt n index)).2.1

theorem group_digit {n : Nat} (hlt : n < 16777216) :
    group (digit n 0) (digit n 1) (digit n 2) (digit n 3) = n := by
  change n / 262144 % 64 * 262144 + n / 4096 % 64 * 4096 + n / 64 % 64 * 64 + n / 1 % 64 = n
  omega

theorem byte_eq {n : Nat} (a : UInt8) (hvalue : n % 256 = a.toNat) : UInt8.ofNat n = a := by
  apply UInt8.toNat.inj
  simpa using hvalue

theorem group_digit_one {a : Nat} (hlt : a < 256) :
    group (digit (a * 65536) 0) (digit (a * 65536) 1) 0 0 = a * 65536 := by
  change a * 65536 / 262144 % 64 * 262144 + a * 65536 / 4096 % 64 * 4096 + 0 * 64 + 0 = a * 65536
  omega

theorem group_digit_two {a b : Nat} (ha : a < 256) (hb : b < 256) :
    group (digit (a * 65536 + b * 256) 0) (digit (a * 65536 + b * 256) 1)
      (digit (a * 65536 + b * 256) 2) 0 = a * 65536 + b * 256 := by
  change (a * 65536 + b * 256) / 262144 % 64 * 262144 +
    (a * 65536 + b * 256) / 4096 % 64 * 4096 +
    (a * 65536 + b * 256) / 64 % 64 * 64 + 0 = a * 65536 + b * 256
  omega

theorem decodeGroups_cons {w x y z : Char} (hpad : z ≠ '=') (rest : List Char) :
    decodeGroups (w :: x :: y :: z :: rest) = (do
      let w ← decodeDigit w
      let x ← decodeDigit x
      let y ← decodeDigit y
      let z ← decodeDigit z
      let bytes ← decodeGroups rest
      some (UInt8.ofNat (group w x y z / 65536) ::
        UInt8.ofNat (group w x y z / 256) ::
        UInt8.ofNat (group w x y z) :: bytes)) := by
  rw [decodeGroups, if_neg fun h => hpad h.2]

theorem decodeGroups_encode (bytes : List UInt8) : decodeGroups (encode bytes) = some bytes := by
  induction bytes using encode.induct with
  | case1 => rfl
  | case2 a =>
    have ha : a.toNat < 256 := a.toNat_lt
    rw [encode, decodeGroups, if_pos ⟨rfl, rfl⟩, if_pos rfl]
    simp only [decodeDigit_encodeDigit, Option.bind_eq_bind, Option.bind_some]
    rw [group_digit_one ha, byte_eq a (by omega)]
  | case3 a b =>
    have ha : a.toNat < 256 := a.toNat_lt
    have hb : b.toNat < 256 := b.toNat_lt
    rw [encode, decodeGroups, if_pos ⟨rfl, rfl⟩, if_neg (encodeDigit_ne_pad _ 2)]
    simp only [decodeDigit_encodeDigit, Option.bind_eq_bind, Option.bind_some]
    rw [group_digit_two ha hb, byte_eq a (by omega), byte_eq b (by omega)]
  | case4 a b c rest ih =>
    have ha : a.toNat < 256 := a.toNat_lt
    have hb : b.toNat < 256 := b.toNat_lt
    have hc : c.toNat < 256 := c.toNat_lt
    rw [encode, decodeGroups_cons (encodeDigit_ne_pad _ 3)]
    simp only [decodeDigit_encodeDigit, ih, Option.bind_eq_bind, Option.bind_some]
    rw [group_digit (by omega), byte_eq a (by omega), byte_eq b (by omega), byte_eq c (by omega)]

theorem not_break_of_mem_encode {bytes : List UInt8} {c : Char}
    (hc : c ∈ encode bytes) : c ≠ '\r' ∧ c ≠ '\n' := by
  have hdigit : ∀ n index, encodeDigit (digit n index) ≠ '\r' ∧
      encodeDigit (digit n index) ≠ '\n' := fun n index =>
    (encodeDigit_facts _ (digit_lt n index)).2.2
  induction bytes using encode.induct with
  | case1 => simp [encode] at hc
  | case2 a =>
    simp only [encode, List.mem_cons, List.not_mem_nil, or_false] at hc
    rcases hc with rfl | rfl | rfl | rfl
    · exact hdigit _ _
    · exact hdigit _ _
    · decide
    · decide
  | case3 a b =>
    simp only [encode, List.mem_cons, List.not_mem_nil, or_false] at hc
    rcases hc with rfl | rfl | rfl | rfl
    · exact hdigit _ _
    · exact hdigit _ _
    · exact hdigit _ _
    · decide
  | case4 a b c rest ih =>
    simp only [encode, List.mem_cons] at hc
    rcases hc with rfl | rfl | rfl | rfl | hrest
    · exact hdigit _ _
    · exact hdigit _ _
    · exact hdigit _ _
    · exact hdigit _ _
    · exact ih hrest

theorem decode_encode (bytes : List UInt8) : decode (encode bytes) = some bytes := by
  have hkeep : (encode bytes).filter (fun c => c ≠ '\r' ∧ c ≠ '\n') = encode bytes := by
    apply List.filter_eq_self.mpr
    intro c hc
    exact decide_eq_true (not_break_of_mem_encode hc)
  rw [decode, hkeep, decodeGroups_encode]

end DataPipe.Foundation.Base64
