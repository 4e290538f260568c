import Mathlib.Algebra.GroupWithZero.Nat
import Mathlib.Data.List.Induction
import DataPipe.Foundation.Duration

/-!
# Batches of single datagrams

The batch mode of the `split-batch` node, `engine/nodes/splitbatch/splitbatch.go`.  The
estimated size of a value is the length of its JSON text; the lengths of texts that one batch
holds do not add up beyond an `int`.
-/

namespace DataPipe.Nodes.SplitBatch

open DataPipe.Foundation

/-- The limits of the batch mode; one that is not positive is not set. -/
structure Config where
  maxCount : Int
  maxIntervalMs : Int
  maxBytes : Int
  deriving DecidableEq, Repr

structure Node (V : Type) where
  batch : List V := []
  batchStart : Int := 0
  batchBytes : Nat := 0
  deriving DecidableEq, Repr

variable {V : Type} (estimateBytes : V → Nat) (cfg : Config)

def Node.flush (n : Node V) : Node V := { n with batch := [], batchBytes := 0 }

/-- The flush before the item that would push the batch over its limit. -/
def Node.makeRoom (n : Node V) (itemBytes : Nat) : Node V × List (List V) :=
  if 0 < cfg.maxBytes ∧ n.batch ≠ [] ∧ cfg.maxBytes < (n.batchBytes + itemBytes : Nat) then
    (n.flush, [n.batch])
  else (n, [])

def Node.add (n : Node V) (value : V) (now : Int) : Node V where
  batchStart := if n.batch = [] then now else n.batchStart
  batch := n.batch ++ [value]
  batchBytes := n.batchBytes + estimateBytes value

def Node.emitFull (n : Node V) (now : Int) : Node V × List (List V) :=
  if 0 < cfg.maxCount ∧ cfg.maxCount ≤ n.batch.length ∨
      0 < cfg.maxIntervalMs ∧ milliseconds cfg.maxIntervalMs ≤ elapsed now n.batchStart then
    (n.flush, [n.batch])
  else (n, [])

/-- `processBatch` of a value at the time `now`: the node after it and the batches it emits. -/
def Node.processBatch (n : Node V) (value : V) (now : Int) : Node V × List (List V) :=
  let before := n.makeRoom cfg (estimateBytes value)
  let after := (before.1.add estimateBytes value now).emitFull cfg now
  (after.1, before.2 ++ after.2)

/-- The node after the inputs, each with the time of its call, and all batches emitted. -/
def run (inputs : List (V × Int)) : Node V × List (List V) :=
  inputs.foldl (fun s input =>
    let next := s.1.processBatch estimateBytes cfg input.1 input.2
    (next.1, s.2 ++ next.2)) ({}, [])

/-- Only an item that is too large by itself exceeds the size. -/
structure Within (batch : List V) : Prop where
  count : 0 < cfg.maxCount → (batch.length : Int) ≤ cfg.maxCount
  bytes : 0 < cfg.maxBytes → cfg.maxBytes < (batch.map estimateBytes).sum → batch.length = 1

structure Node.Sound (n : Node V) : Prop where
  within : Within estimateBytes cfg n.batch
  notFull : 0 < cfg.maxCount → (n.batch.length : Int) < cfg.maxCount
  total : n.batchBytes = (n.batch.map estimateBytes).sum

structure Conserves (s : Node V × List (List V)) (items : List V) : Prop where
  joined : s.2.flatten ++ s.1.batch = items
  nonempty : ∀ batch ∈ s.2, batch ≠ []
  within : ∀ batch ∈ s.2, Within estimateBytes cfg batch
  pending : s.1.Sound estimateBytes cfg

variable {estimateBytes cfg} {n : Node V}

theorem Node.sound_flush (n : Node V) : n.flush.Sound estimateBytes cfg where
  within := ⟨fun h => Int.le_of_lt h, fun h hover => absurd hover (Int.lt_asymm h)⟩
  notFull := id
  total := rfl

theorem Conserves.flushed (hne : n.batch ≠ []) (hn : Within estimateBytes cfg n.batch) :
    Conserves estimateBytes cfg (n.flush, [n.batch]) n.batch where
  joined := by simp [Node.flush]
  nonempty := by simpa using hne
  within := by simpa using hn
  pending := n.sound_flush

theorem Conserves.append {s s' : Node V × List (List V)} {items more : List V}
    (h : Conserves estimateBytes cfg s items)
    (h' : Conserves estimateBytes cfg s' (s.1.batch ++ more)) :
    Conserves estimateBytes cfg (s'.1, s.2 ++ s'.2) (items ++ more) where
  joined := by rw [List.flatten_append, List.append_assoc, h'.joined, ← List.append_assoc, h.joined]
  nonempty := List.forall_mem_append.mpr ⟨h.nonempty, h'.nonempty⟩
  within := List.forall_mem_append.mpr ⟨h.within, h'.within⟩
  pending := h'.pending

section Step

variable (hn : n.Sound estimateBytes cfg)

include hn

theorem Node.Sound.makeRoom (itemBytes : Nat) :
    Conserves estimateBytes cfg (n.makeRoom cfg itemBytes) n.batch ∧
      (0 < cfg.maxBytes → (n.makeRoom cfg itemBytes).1.batch ≠ [] →
        ((n.makeRoom cfg itemBytes).1.batchBytes + itemBytes : Nat) ≤ cfg.maxBytes) := by
  unfold Node.makeRoom
  split
  next hover => exact ⟨.flushed hover.2.1 hn.within, fun _ hne => absurd rfl hne⟩
  next hroom =>
    refine ⟨⟨rfl, by simp, by simp, hn⟩, fun hset hne => ?_⟩
    exact Int.not_lt.mp fun h => hroom ⟨hset, hne, h⟩

theorem Node.Sound.emitFull_add (value : V) (now : Int)
    (hroom : 0 < cfg.maxBytes → n.batch ≠ [] →
      (n.batchBytes + estimateBytes value : Nat) ≤ cfg.maxBytes) :
    Conserves estimateBytes cfg ((n.add estimateBytes value now).emitFull cfg now)
      (n.batch ++ [value]) := by
  have htotal : n.batchBytes + estimateBytes value =
      ((n.batch ++ [value]).map estimateBytes).sum := by
    rw [List.map_append, List.sum_append, List.map_singleton, List.sum_singleton, hn.total]
  have hwithin : Within estimateBytes cfg (n.batch ++ [value]) := by
    refine ⟨fun hset => ?_, fun hset hover => ?_⟩
    · rw [List.length_append]
      exact Int.add_one_le_of_lt (hn.notFull hset)
    · by_cases hempty : n.batch = []
      · simp [hempty]
      · rw [← htotal] at hover
        exact absurd hover (Int.not_lt.mpr (hroom hset hempty))
  unfold Node.emitFull
  split
  · exact .flushed (by simp [Node.add]) hwithin
  next hopen =>
    refine ⟨rfl, by simp, by simp, hwithin, fun hset => ?_, htotal⟩
    exact Int.not_le.mp fun hcount => hopen (.inl ⟨hset, hcount⟩)

theorem Node.Sound.processBatch (value : V) (now : Int) :
    Conserves estimateBytes cfg (n.processBatch estimateBytes cfg value now)
      (n.batch ++ [value]) := by
  obtain ⟨hbefore, hroom⟩ := hn.makeRoom (estimateBytes value)
  exact hbefore.append (hbefore.pending.emitFull_add value now hroom)

end Step

/--
The batches emitted and the pending one are the input values in order, no batch emitted is empty
or beyond its limits, and the size kept is that of the pending items.
-/
theorem batches_conserve_items (estimateBytes : V → Nat) (cfg : Config) (inputs : List (V × Int)) :
    Conserves estimateBytes cfg (run estimateBytes cfg inputs) (inputs.map Prod.fst) := by
  induction inputs using List.reverseRecOn with
  | nil => exact ⟨rfl, by simp [run], by simp [run], Node.sound_flush {}⟩
  | append_singleton inputs input ih =>
    rw [run, List.foldl_append, List.map_append]
    exact ih.append (ih.pending.processBatch input.1 input.2)

end DataPipe.Nodes.SplitBatch
