import Mathlib.Data.List.Induction

/-!
# The ring buffer of debug events

`engine/flow/debug.go`: each node keeps the last events it saw in a buffer of fixed size.
-/

namespace DataPipe.Flow.Debug

variable {Event : Type*}

def defaultRingBufferSize : Nat := 50

structure RingBuffer (Event : Type*) where
  events : List Event
  cap : Nat
  next : Nat
  filled : Bool

def newRingBuffer (zero : Event) (capacity : Int) : RingBuffer Event :=
  let cap := if capacity ≤ 0 then defaultRingBufferSize else capacity.toNat
  ⟨List.replicate cap zero, cap, 0, false⟩

/-- The slice `dst` after `copy(dst[start:], src)`. -/
def copyAt (dst : List Event) (start : Nat) (src : List Event) : List Event :=
  dst.take start ++ src.take (dst.length - start) ++ dst.drop (start + src.length)

namespace RingBuffer

def push (b : RingBuffer Event) (e : Event) : RingBuffer Event :=
  let next := (b.next + 1) % b.cap
  { b with events := b.events.set b.next e, next, filled := b.filled || next == 0 }

def snapshot (zero : Event) (b : RingBuffer Event) : List Event :=
  if !b.filled then copyAt (List.replicate b.next zero) 0 (b.events.take b.next)
  else
    let out := copyAt (List.replicate b.cap zero) 0 (b.events.drop b.next)
    copyAt out (b.cap - b.next) (b.events.take b.next)

structure Keeps (b : RingBuffer Event) (pushed : List Event) : Prop where
  length : b.events.length = b.cap
  next_lt : b.next < b.cap
  part : b.filled = false → b.events.take b.next = pushed
  full : b.filled = true → b.cap ≤ pushed.length ∧
    b.events.drop b.next ++ b.events.take b.next = pushed.drop (pushed.length - b.cap)

variable {b : RingBuffer Event} {pushed : List Event}

theorem drop_concat {c : Nat} (hpos : 0 < c) (hc : c ≤ pushed.length) (e : Event) :
    (pushed ++ [e]).drop ((pushed ++ [e]).length - c) =
      (pushed.drop (pushed.length - c)).tail ++ [e] := by
  rw [List.length_append, List.length_singleton, Nat.sub_add_comm hc,
    List.drop_append_of_le_length (by omega), List.tail_drop]

theorem Keeps.push (h : b.Keeps pushed) (e : Event) : (b.push e).Keeps (pushed ++ [e]) := by
  obtain ⟨hlength, hlt, hpart, hfull⟩ := h
  -- The slot that is written stands between the newer and the older events.
  obtain ⟨newer, old, older, hevents, hnewer⟩ : ∃ newer old older,
      b.events = newer ++ old :: older ∧ newer.length = b.next :=
    ⟨b.events.take b.next, b.events[b.next], b.events.drop (b.next + 1), by simp, by simp; omega⟩
  have hcap : b.cap = b.next + (older.length + 1) := by simp [← hlength, hevents, hnewer]
  have hset : b.events.set b.next e = newer ++ [e] ++ older := by simp [hevents, ← hnewer]
  have hwritten : (newer ++ [e]).length = b.next + 1 := by simp [hnewer]
  rw [hevents, ← hnewer] at hpart hfull
  simp only [List.take_left', List.drop_left', List.cons_append] at hpart hfull
  have hkept : b.filled = true → b.cap ≤ (pushed ++ [e]).length ∧ older ++ (newer ++ [e]) =
      (pushed ++ [e]).drop ((pushed ++ [e]).length - b.cap) := by
    intro hfilled
    obtain ⟨hle, hlast⟩ := hfull hfilled
    rw [drop_concat (by omega) hle, ← hlast]
    simp
    omega
  refine ⟨by simpa [RingBuffer.push] using hlength, Nat.mod_lt _ (by omega), ?_, ?_⟩ <;>
    simp only [RingBuffer.push, hset] <;> intro hfilled <;> by_cases hwrap : b.next + 1 = b.cap
  · simp [hwrap] at hfilled
  · rw [Nat.mod_eq_of_lt (by omega)] at hfilled ⊢
    rw [List.take_left' hwritten, hpart (by simpa using hfilled)]
  · obtain rfl : older = [] := List.length_eq_zero_iff.mp (by omega)
    cases hold : b.filled with
    | false => simp [← hpart hold, ← hnewer, hcap]
    | true => simpa [hwrap] using hkept hold
  · rw [Nat.mod_eq_of_lt (by omega)] at hfilled ⊢
    rw [List.take_left' hwritten, List.drop_left' hwritten]
    exact hkept (by simpa using hfilled)

theorem Keeps.snapshot_eq (h : b.Keeps pushed) (zero : Event) :
    b.snapshot zero = pushed.drop (pushed.length - b.cap) := by
  have hle := Nat.le_of_lt h.next_lt
  cases hfilled : b.filled with
  | false =>
    have hpart := h.part hfilled
    have hpushed : pushed.length = b.next := by simp [← hpart, h.length, hle]
    simp [snapshot, copyAt, hfilled, hpart, hpushed, Nat.sub_eq_zero_of_le hle,
      List.take_of_length_le]
  | true =>
    rw [← (h.full hfilled).2]
    simp [snapshot, copyAt, hfilled, h.length, Nat.sub_sub_self hle, hle, List.take_of_length_le]

/-- The snapshot is what was pushed last, as far as the capacity goes. -/
theorem snapshot_pushes (zero : Event) {capacity : Int} (hpos : 0 < capacity)
    (pushed : List Event) :
    (pushed.foldl push (newRingBuffer zero capacity)).snapshot zero =
      pushed.drop (pushed.length - capacity.toNat) := by
  have hcap : (newRingBuffer zero capacity).cap = capacity.toNat := if_neg (by omega)
  have hkeeps : (pushed.foldl push (newRingBuffer zero capacity)).Keeps pushed ∧
      (pushed.foldl push (newRingBuffer zero capacity)).cap = capacity.toNat := by
    induction pushed using List.reverseRecOn with
    | nil =>
      refine ⟨⟨List.length_replicate, ?_, by simp [newRingBuffer], nofun⟩, hcap⟩
      rw [List.foldl_nil, hcap]
      simpa [newRingBuffer]
    | append_singleton pushed e ih =>
      rw [List.foldl_append]
      exact ⟨ih.1.push e, ih.2⟩
  rw [hkeeps.1.snapshot_eq, hkeeps.2]

theorem snapshot_of_three : 0 < (2 : Int) ∧
    ([1, 2, 3].foldl push (newRingBuffer 0 2)).snapshot 0 = [2, 3] :=
  ⟨by decide, snapshot_pushes 0 (by decide) [1, 2, 3]⟩

end RingBuffer

end DataPipe.Flow.Debug
