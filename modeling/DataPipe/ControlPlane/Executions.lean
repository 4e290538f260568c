import DataPipe.Flow.Tracker
import Mathlib.Data.List.Induction

/-!
# Execution history of the control plane

`RecordExecutionEvent` of `controlplane/internal/api/executions.go` and the
events that `EventSink` of `engine/internal/runtimeclient/eventchannel.go`
makes of the calls of the tracker.  The two tables are a map from execution
ids to rows and a list of node records; the fields of an event that its phase
leaves empty are not part of the phase.
-/

namespace DataPipe.ControlPlane

open DataPipe.Flow

inductive Phase where
  | waiting (triggerNodeID : String) (seed : Datagram)
  | started (triggerNodeID triggerKind reRunOf : String) (seed : Datagram)
  | node (io : NodeIO)
  | finished (status : ExecutionStatus) (reason : String)

structure ExecutionEventInput where
  executionID : String
  flowID : String
  atTime : Time
  phase : Phase

structure Execution where
  flowID : String
  runtimeID : String
  status : ExecutionStatus
  triggerNodeID : String
  triggerKind : String
  reRunOf : Option String
  seed : Datagram
  startedAt : Time
  finishedAt : Option Time
  reason : String

structure ExecutionNodeIO where
  executionID : String
  atTime : Time
  io : NodeIO

structure Store where
  executions : AList fun _ : String => Execution
  nodeIO : List ExecutionNodeIO

namespace Store

def empty : Store := ⟨∅, []⟩

def upsertExecution (s : Store) (runtimeID : String) (ev : ExecutionEventInput)
    (triggerNodeID triggerKind reRunOf : String) (seed : Datagram)
    (status : ExecutionStatus) : Store :=
  let reRunOf := if reRunOf = "" then none else some reRunOf
  match s.executions.lookup ev.executionID with
  | some row =>
    { s with
      executions := s.executions.insert ev.executionID
        { row with status, runtimeID, triggerNodeID, triggerKind, reRunOf, seed } }
  | none =>
    { s with
      executions := s.executions.insert ev.executionID
        { flowID := ev.flowID, runtimeID, status, triggerNodeID, triggerKind, reRunOf,
          seed, startedAt := ev.atTime, finishedAt := none, reason := "" } }

def insertExecutionNodeIO (s : Store) (ev : ExecutionEventInput) (io : NodeIO) : Store :=
  { s with nodeIO := s.nodeIO ++ [⟨ev.executionID, ev.atTime, io⟩] }

def finishExecution (s : Store) (ev : ExecutionEventInput) (status : ExecutionStatus)
    (reason : String) : Store :=
  match s.executions.lookup ev.executionID with
  | some row =>
    { s with
      executions := s.executions.insert ev.executionID
        { row with status, finishedAt := some ev.atTime, reason } }
  | none => s

def recordExecutionEvent (s : Store) (runtimeID : String) (ev : ExecutionEventInput) : Store :=
  match ev.phase with
  | .waiting triggerNodeID seed =>
    s.upsertExecution runtimeID ev triggerNodeID "" "" seed .waiting
  | .started triggerNodeID triggerKind reRunOf seed =>
    s.upsertExecution runtimeID ev triggerNodeID triggerKind reRunOf seed .running
  | .node io => s.insertExecutionNodeIO ev io
  | .finished status reason => s.finishExecution ev status reason

def status (s : Store) (id : String) : Option ExecutionStatus :=
  (s.executions.lookup id).map Execution.status

end Store

def uplink : Event → Option ExecutionEventInput
  | .waiting flowID id triggerNodeID atTime seed =>
    some ⟨id, flowID, atTime, .waiting triggerNodeID seed⟩
  | .started flowID id triggerNodeID triggerKind reRunOf atTime seed =>
    some ⟨id, flowID, atTime, .started triggerNodeID triggerKind reRunOf seed⟩
  | .nodeEvent flowID id io => some ⟨id, flowID, io.atTime, .node io⟩
  | .finished flowID id status atTime reason =>
    some ⟨id, flowID, atTime, .finished status reason⟩
  | _ => none

def recordTrace (runtimeID : String) (trace : List Event) : Store :=
  (trace.filterMap uplink).foldl (fun s ev => s.recordExecutionEvent runtimeID ev) .empty

inductive SinkCall where
  | waiting
  | started
  | nodeEvent
  | finished (status : ExecutionStatus)
  deriving DecidableEq, Repr

def Phase.sinkCall : Phase → SinkCall
  | .waiting _ _ => .waiting
  | .started _ _ _ _ => .started
  | .node _ => .nodeEvent
  | .finished status _ => .finished status

def sinkCall (id : String) (event : Event) : Option SinkCall :=
  match uplink event with
  | some ev => if ev.executionID = id then some ev.phase.sinkCall else none
  | none => none

def sinkCalls (id : String) (trace : List Event) : List SinkCall :=
  trace.filterMap (sinkCall id)

theorem sinkCalls_concat (id : String) (trace : List Event) (event : Event) :
    sinkCalls id (trace ++ [event]) = sinkCalls id trace ++ (sinkCall id event).toList := by
  rw [sinkCalls, List.filterMap_append, ← sinkCalls]
  cases h : sinkCall id event with
  | none | some => simp [h]

def SinkCall.apply (call : SinkCall) (status : Option ExecutionStatus) : Option ExecutionStatus :=
  match call with
  | .waiting => some .waiting
  | .started => some .running
  | .nodeEvent => status
  | .finished new => status.map fun _ => new

variable (s : Store) (runtimeID : String) (ev : ExecutionEventInput) (trace : List Event)

theorem status_insert (key id : String) (row : Execution) :
    ({ s with executions := s.executions.insert key row } : Store).status id =
      if key = id then some row.status else s.status id := by
  unfold Store.status
  by_cases hid : key = id
  · subst hid
    simp
  · rw [if_neg hid]
    exact congrArg _ (AList.lookup_insert_ne (Ne.symm hid))

theorem status_upsertExecution (triggerNodeID triggerKind reRunOf : String) (seed : Datagram)
    (new : ExecutionStatus) (id : String) :
    (s.upsertExecution runtimeID ev triggerNodeID triggerKind reRunOf seed new).status id =
      if ev.executionID = id then some new else s.status id := by
  cases hrow : s.executions.lookup ev.executionID with
  | none | some =>
    simp only [Store.upsertExecution, hrow]
    exact status_insert s _ id _

theorem status_finishExecution (new : ExecutionStatus) (reason id : String) :
    (s.finishExecution ev new reason).status id =
      if ev.executionID = id then (s.status id).map fun _ => new else s.status id := by
  cases hrow : s.executions.lookup ev.executionID with
  | none =>
    simp only [Store.finishExecution, hrow]
    split
    case isTrue hid =>
      subst hid
      simp [Store.status, hrow]
    case isFalse => rfl
  | some row =>
    simp only [Store.finishExecution, hrow]
    refine (status_insert s _ id _).trans ?_
    split
    case isTrue hid =>
      subst hid
      simp [Store.status, hrow]
    case isFalse => rfl

theorem status_recordExecutionEvent (id : String) :
    (s.recordExecutionEvent runtimeID ev).status id =
      if ev.executionID = id then ev.phase.sinkCall.apply (s.status id)
      else s.status id := by
  unfold Store.recordExecutionEvent
  cases hphase : ev.phase with
  | waiting triggerNodeID seed => exact status_upsertExecution s _ _ _ _ _ _ _ id
  | started triggerNodeID triggerKind reRunOf seed =>
    exact status_upsertExecution s _ _ _ _ _ _ _ id
  | node io =>
    simp only [Phase.sinkCall, SinkCall.apply, ite_self]
    rfl
  | finished new reason => exact status_finishExecution s _ _ _ id

theorem status_recordTrace (id : String) : (recordTrace runtimeID trace).status id =
      (sinkCalls id trace).foldl (fun status call => call.apply status) none := by
  induction trace using List.reverseRecOn with
  | nil => simp [recordTrace, sinkCalls, Store.empty, Store.status]
  | append_singleton trace event ih =>
    rw [sinkCalls_concat, List.foldl_append, ← ih]
    cases hup : uplink event with
    | none => simp [recordTrace, sinkCall, hup]
    | some ev =>
      have hnext : recordTrace runtimeID (trace ++ [event]) =
          (recordTrace runtimeID trace).recordExecutionEvent runtimeID ev := by
        simp [recordTrace, hup]
      rw [hnext, status_recordExecutionEvent, sinkCall, hup]
      by_cases hid : ev.executionID = id
      · simp [hid]
      · simp [hid]

end DataPipe.ControlPlane
