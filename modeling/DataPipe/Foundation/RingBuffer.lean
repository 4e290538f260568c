import Mathlib.Data.List.Basic
import Mathlib.Data.Nat.ModEq

/-!
# Bounded ring buffers

A ring stores at most `capacity` elements in a fixed list of slots.  The oldest
element stands in slot `head` and the others follow it modulo the capacity.
`contents` is the abstract queue, and `push` and `pop` act on it as on a list.
-/

namespace DataPipe.Foundation

structure RingBuffer (α : Type*) where
  slots : List α
  head : Nat
  count : Nat
  head_lt : head < slots.length
  count_le : count ≤ slots.length

namespace RingBuffer

variable {α : Type*} {offset : Nat} (ring : RingBuffer α)

def capacity (ring : RingBuffer α) : Nat := ring.slots.length

theorem capacity_pos : 0 < ring.capacity :=
  Nat.zero_lt_of_lt ring.head_lt

theorem mod_lt (index : Nat) : index % ring.slots.length < ring.slots.length :=
  Nat.mod_lt _ ring.capacity_pos

/-- The element `offset` places behind the oldest one. -/
def slot (ring : RingBuffer α) (offset : Nat) : α :=
  ring.slots.get ⟨(ring.head + offset) % ring.slots.length, ring.mod_lt _⟩

def contents (ring : RingBuffer α) : List α :=
  (List.range ring.count).map ring.slot

@[simp] theorem length_contents : ring.contents.length = ring.count := by
  simp [contents]

def empty (zero : α) (capacity : Nat) (hpos : 0 < capacity) : RingBuffer α where
  slots := List.replicate capacity zero
  head := 0
  count := 0
  head_lt := by simpa using hpos
  count_le := by simp

@[simp] theorem capacity_empty (zero : α) (capacity : Nat) (hpos : 0 < capacity) :
    (empty zero capacity hpos).capacity = capacity := by
  simp [empty, RingBuffer.capacity]

def push (ring : RingBuffer α) (value : α) (hroom : ring.count < ring.capacity) : RingBuffer α where
  slots := ring.slots.set ((ring.head + ring.count) % ring.slots.length) value
  head := ring.head
  count := ring.count + 1
  head_lt := by simpa using ring.head_lt
  count_le := by
    rw [List.length_set]
    exact hroom

/-- Clear the oldest slot to `zero` and advance past it. -/
def pop (ring : RingBuffer α) (zero : α) : RingBuffer α where
  slots := ring.slots.set ring.head zero
  head := (ring.head + 1) % ring.slots.length
  count := ring.count - 1
  head_lt := by simpa using ring.mod_lt _
  count_le := by
    have := ring.count_le
    simp
    omega

@[simp] theorem capacity_push (value : α) (hroom : ring.count < ring.capacity) :
    (ring.push value hroom).capacity = ring.capacity := by
  simp [push, RingBuffer.capacity]

@[simp] theorem capacity_pop (zero : α) : (ring.pop zero).capacity = ring.capacity := by
  simp [pop, RingBuffer.capacity]

@[simp] theorem count_push (value : α) (hroom : ring.count < ring.capacity) :
    (ring.push value hroom).count = ring.count + 1 := rfl

@[simp] theorem count_pop (zero : α) : (ring.pop zero).count = ring.count - 1 := rfl

theorem offset_injective {first second : Nat} (hfirst : first < ring.slots.length)
    (hsecond : second < ring.slots.length)
    (hmod : (ring.head + first) % ring.slots.length = (ring.head + second) % ring.slots.length) :
    first = second := by
  have hcongr : Nat.ModEq ring.slots.length first second :=
    Nat.ModEq.add_left_cancel' ring.head hmod
  exact Nat.ModEq.eq_of_lt_of_lt hcongr hfirst hsecond

theorem slot_push_of_lt (value : α) (hroom : ring.count < ring.capacity)
    (hoffset : offset < ring.count) : (ring.push value hroom).slot offset = ring.slot offset := by
  have hne : (ring.head + ring.count) % ring.slots.length ≠
      (ring.head + offset) % ring.slots.length := by
    intro hmod
    have hle : offset < ring.slots.length := Nat.lt_of_lt_of_le hoffset ring.count_le
    have := ring.offset_injective hroom hle hmod
    omega
  simp [slot, push, hne]

theorem contents_push (value : α) (hroom : ring.count < ring.capacity) :
    (ring.push value hroom).contents = ring.contents ++ [value] := by
  simp only [contents, count_push, List.range_succ, List.map_append, List.map_cons, List.map_nil]
  congr 1
  · refine List.map_congr_left fun offset hoffset => ?_
    exact ring.slot_push_of_lt value hroom (List.mem_range.mp hoffset)
  · simp [slot, push]

theorem slot_pop (zero : α) (hoffset : offset + 1 < ring.slots.length) :
    (ring.pop zero).slot offset = ring.slot (offset + 1) := by
  have hindex : ((ring.head + 1) % ring.slots.length + offset) %
      ring.slots.length = (ring.head + (offset + 1)) % ring.slots.length := by
    rw [Nat.mod_add_mod]
    congr 1
    omega
  have hne : ring.head ≠ (ring.head + (offset + 1)) % ring.slots.length := by
    intro hmod
    have hzero : 0 = offset + 1 :=
      ring.offset_injective (Nat.zero_lt_of_lt hoffset) hoffset
        (by simpa [Nat.mod_eq_of_lt ring.head_lt] using hmod)
    omega
  simp [slot, pop, hindex, hne]

theorem contents_pop (zero : α) : (ring.pop zero).contents = ring.contents.tail := by
  cases hcount : ring.count with
  | zero => simp [contents, hcount]
  | succ rest =>
    simp only [contents, count_pop, hcount, List.range_succ_eq_map,
      List.map_cons, List.tail_cons, List.map_map, Nat.add_sub_cancel]
    refine List.map_congr_left fun offset hoffset => ?_
    have hlt : offset + 1 < ring.slots.length := by
      have := ring.count_le
      have := List.mem_range.mp hoffset
      omega
    exact ring.slot_pop zero hlt

theorem contents_eq_slot_cons (zero : α) (hcount : ring.count ≠ 0) :
    ring.contents = ring.slot 0 :: (ring.pop zero).contents := by
  rw [contents_pop]
  obtain ⟨rest, hrest⟩ := Nat.exists_eq_succ_of_ne_zero hcount
  simp [contents, hrest, List.range_succ_eq_map]

end RingBuffer

end DataPipe.Foundation
