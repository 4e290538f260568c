import Mathlib.Data.List.Basic

/-!
# Decimal text

Decimal digits of natural numbers, their zero-padded form, and the reading of
signed decimal text.  Padding never changes the value that is read back.
-/

namespace DataPipe.Foundation

def decimal (n : Nat) : List Char := Nat.toDigits 10 n

/-- The digits of `n`, filled with leading zeros up to `width` characters. -/
def paddedDecimal (width n : Nat) : List Char :=
  List.replicate (width - (decimal n).length) '0' ++ decimal n

def decimalValue (text : List Char) : Option Nat :=
  if text ≠ [] ∧ text.all Char.isDigit then some (Nat.ofDigitChars 10 text 0)
  else none

def signedDecimalValue : List Char → Option Int
  | '-' :: text => (decimalValue text).map fun n => -(n : Int)
  | '+' :: text => (decimalValue text).map Int.ofNat
  | text => (decimalValue text).map Int.ofNat

variable {c : Char} {n : Nat}

theorem isDigit_of_mem_decimal (hc : c ∈ decimal n) : c.isDigit = true :=
  Nat.isDigit_of_mem_toDigits (by decide) (by decide) hc

theorem isDigit_of_mem_paddedDecimal {width : Nat} (hc : c ∈ paddedDecimal width n) :
    c.isDigit = true := by
  rcases List.mem_append.mp hc with hzero | hdigit
  · rw [List.eq_of_mem_replicate hzero]
    rfl
  · exact isDigit_of_mem_decimal hdigit

theorem paddedDecimal_ne_nil (width n : Nat) : paddedDecimal width n ≠ [] := by
  simp [paddedDecimal, decimal]

theorem decimalValue_paddedDecimal (width n : Nat) :
    decimalValue (paddedDecimal width n) = some n := by
  have hdigits : (paddedDecimal width n).all Char.isDigit = true :=
    List.all_eq_true.mpr fun c hc => isDigit_of_mem_paddedDecimal hc
  rw [decimalValue, if_pos ⟨paddedDecimal_ne_nil width n, hdigits⟩]
  simp [paddedDecimal, decimal, Nat.ofDigitChars_append]

theorem decimalValue_decimal (n : Nat) : decimalValue (decimal n) = some n := by
  simpa [paddedDecimal] using decimalValue_paddedDecimal 0 n

theorem signedDecimalValue_of_digits {text : List Char} (hdigits : ∀ c ∈ text, c.isDigit = true) :
    signedDecimalValue text = (decimalValue text).map Int.ofNat := by
  unfold signedDecimalValue
  split
  · exact absurd (hdigits '-' (by simp)) (by decide)
  · exact absurd (hdigits '+' (by simp)) (by decide)
  · rfl

theorem signedDecimalValue_paddedDecimal (width n : Nat) :
    signedDecimalValue (paddedDecimal width n) = some (n : Int) := by
  rw [signedDecimalValue_of_digits fun c hc => isDigit_of_mem_paddedDecimal hc,
    decimalValue_paddedDecimal]
  rfl

theorem paddedDecimal_injective (width : Nat) : Function.Injective (paddedDecimal width) := by
  intro first second heq
  have hvalue := congrArg decimalValue heq
  simpa [decimalValue_paddedDecimal] using hvalue

def signedDecimal : Int → List Char
  | .ofNat n => decimal n
  | .negSucc n => '-' :: decimal (n + 1)

theorem signedDecimalValue_signedDecimal (n : Int) :
    signedDecimalValue (signedDecimal n) = some n := by
  cases n with
  | ofNat n =>
    rw [signedDecimal,
      signedDecimalValue_of_digits fun c hc => isDigit_of_mem_decimal hc,
      decimalValue_decimal]
    rfl
  | negSucc n =>
    simp only [signedDecimal, signedDecimalValue, decimalValue_decimal]
    rfl

end DataPipe.Foundation
