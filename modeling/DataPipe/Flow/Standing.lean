import DataPipe.Flow.Accounts

/-!
# Where an execution stands

What the tracker knows of an execution and how many of its datagrams are at which
stage.  An execution is unknown, running with its pending count equal to the number
of its counted datagrams, telling the sink that it ends, or over.
-/

namespace DataPipe.Flow

open DataPipe.Foundation

def Stage.gone : Stage → Bool
  | .running [] => true
  | _ => false

def Stage.completing : Stage → Bool
  | .notifying _ (some _) _ => true
  | .finishing _ _ => true
  | _ => false

def Stage.reporting : Stage → Bool
  | .notifying _ _ _ => true
  | _ => false

def Stage.working (stage : Stage) : Bool := !stage.gone && !stage.completing

def Item.ownIf (p : Stage → Bool) (item : Item) : Option String :=
  if p item.stage then some item.corr else none

def stageCount (p : Stage → Bool) (items : List Item) (id : String) : Nat :=
  tally (Item.ownIf p) items id

structure Execution where
  active : Option ExecState
  started : Bool
  finished : Bool
  counted : Nat
  working : Nat
  completing : Nat

def Pipeline.execution (s : Pipeline) (id : String) : Execution where
  active := s.tracker.active.lookup id
  started := s.tracker.hasStarted id
  finished := s.tracker.hasFinished id
  counted := counted s.items id
  working := stageCount Stage.working s.items id
  completing := stageCount Stage.completing s.items id

namespace Stage

variable {stage : Stage}

theorem working_of_live (h : stage.live = true) :
    stage.working = true ∧ stage.completing = false := by
  rcases stage with _ | _ | ⟨_ | _⟩ | _ | _ <;> simp_all [live, working, gone, completing]

theorem live_or_reporting (h : stage.working = true) :
    stage.live = true ∨ stage.reporting = true := by
  rcases stage with _ | _ | ⟨_ | _⟩ | _ | _ <;>
    simp_all [live, reporting, working, gone, completing]

theorem gone_iff : stage.gone = true ↔ stage.working = false ∧ stage.completing = false := by
  rcases stage with _ | _ | ⟨_ | _⟩ | ⟨_, _ | _, _⟩ | _ <;> simp [gone, working, completing]

end Stage

section Counts

variable (p : Stage → Bool) {items : List Item} {item : Item} {i : Nat}

theorem ownCount_ownIf (id : String) (item : Item) :
    ownCount (Item.ownIf p) id item = if item.corr = id then (p item.stage).toNat else 0 := by
  unfold ownCount Item.ownIf
  cases p item.stage <;> simp

theorem stageCount_set (hitem : items[i]? = some item) (stage : Stage) (id : String) :
    stageCount p (items.set i { item with stage := stage }) id +
        (if item.corr = id then (p item.stage).toNat else 0) =
      stageCount p items id + if item.corr = id then (p stage).toNat else 0 := by
  have hset := tally_set (Item.ownIf p) hitem { item with stage := stage } id
  rw [ownCount_ownIf, ownCount_ownIf] at hset
  exact hset

theorem stageCount_concat (items : List Item) (new : Item) (id : String) :
    stageCount p (items ++ [new]) id =
      stageCount p items id + if new.corr = id then (p new.stage).toNat else 0 := by
  rw [stageCount, tally_concat, ownCount_ownIf]
  rfl

theorem stageCount_settle (items : List Item) (i : Nat) (id : String) :
    stageCount p (items.map (Item.settle i)) id = stageCount p items id := by
  simp only [stageCount, tally_eq_sum_map, List.map_map]
  congr 2
  funext item
  simp [ownCount, Item.ownIf]

theorem stageCount_pos_iff {id : String} :
    0 < stageCount p items id ↔ ∃ item ∈ items, item.corr = id ∧ p item.stage = true := by
  rw [stageCount, tally_pos_iff]
  refine exists_congr fun item => and_congr_right fun _ => ?_
  unfold Item.ownIf
  cases p item.stage <;> simp

end Counts

structure Running (e : Execution) (st : ExecState) : Prop where
  active : e.active = some st
  started : e.started = true
  finished : e.finished = false
  pending : st.pending = e.counted
  pos : 0 < e.counted
  completing : e.completing = 0

inductive Standing (e : Execution) : Prop where
  | fresh (hactive : e.active = none) (hstarted : e.started = false)
      (hfinished : e.finished = false) (hcounted : e.counted = 0) (hworking : e.working = 0)
      (hcompleting : e.completing = 0)
  | running (st : ExecState) (h : Running e st)
  | ending (hactive : e.active = none) (hstarted : e.started = true)
      (hfinished : e.finished = false) (hworking : e.working = 0) (hcompleting : e.completing = 1)
  | ended (hactive : e.active = none) (hstarted : e.started = true)
      (hfinished : e.finished = true) (hworking : e.working = 0) (hcompleting : e.completing = 0)

namespace Standing

variable {e : Execution}

theorem running_of_working (h : Standing e) (hpos : 0 < e.working) : ∃ st, Running e st := by
  cases h with
  | running st h => exact ⟨st, h⟩
  | _ => omega

theorem ending_of_completing (h : Standing e) (hpos : 0 < e.completing) :
    e.active = none ∧ e.started = true ∧ e.finished = false ∧ e.working = 0 ∧
      e.completing = 1 := by
  cases h with
  | ending hactive hstarted hfinished hworking hcompleting =>
    exact ⟨hactive, hstarted, hfinished, hworking, hcompleting⟩
  | running st h => exact absurd h.completing (by omega)
  | _ => omega

end Standing

end DataPipe.Flow
