import Mathlib.Data.Int.Init

/-!
# Go's 64-bit integers and durations

Arithmetic wraps around.  A `time.Duration` counts nanoseconds, so that a number
of milliseconds becomes a duration by a multiplication that can wrap.
-/

namespace DataPipe.Foundation

/-- The value of an `int64`, or of an `int`, after an operation with the result `n`. -/
def wrap64 (n : Int) : Int :=
  (n + 0x8000000000000000) % 0x10000000000000000 - 0x8000000000000000

/-- `time.Duration(n) * time.Millisecond`. -/
def milliseconds (n : Int) : Int := wrap64 (n * 1000000)

/-- `now.Sub(t)`, for a `t` that is not after `now`. -/
def elapsed (now t : Int) : Int := min (now - t) 0x7fffffffffffffff

variable {d t now : Int}

theorem elapsed_le_iff (hd : d < 0x7fffffffffffffff) : elapsed now t ≤ d ↔ now - t ≤ d := by
  unfold elapsed
  omega

theorem lt_elapsed_iff (hd : d < 0x7fffffffffffffff) : d < elapsed now t ↔ d < now - t := by
  unfold elapsed
  omega

theorem le_elapsed_iff (hd : d ≤ 0x7fffffffffffffff) : d ≤ elapsed now t ↔ d ≤ now - t := by
  unfold elapsed
  omega

variable {n : Int}

theorem wrap64_eq_self (hlow : -0x8000000000000000 ≤ n) (hhigh : n < 0x8000000000000000) :
    wrap64 n = n := by
  unfold wrap64
  omega

theorem wrap64_lt (n : Int) : wrap64 n < 0x8000000000000000 := by
  unfold wrap64
  omega

theorem le_wrap64 (n : Int) : -0x8000000000000000 ≤ wrap64 n := by
  unfold wrap64
  omega

theorem milliseconds_eq (hpos : 0 < n) (hn : n ≤ 9223372036854) :
    milliseconds n = n * 1000000 ∧ n * 1000000 < 0x7fffffffffffffff :=
  ⟨wrap64_eq_self (by omega) (by omega), by omega⟩

end DataPipe.Foundation
