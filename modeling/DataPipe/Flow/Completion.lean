import DataPipe.Flow.Deployment
import DataPipe.Flow.Runner
import DataPipe.Foundation.Tokens

/-!
# Completion of executions

A triggered flow at work: datagrams wait in inboxes, nodes take them, do what their runner
does with them and report to the tracker.  The effect list of `NodeRunner.process` is executed
one effect at a time, interleaved with the steps of all other nodes.  Waits, slots, timeouts,
cancellation and closed inboxes are not part of this system, so every send reaches all inboxes
of its port.
-/

namespace DataPipe.Flow

open DataPipe.Foundation

inductive Op where
  | deliver (key : Endpoint) (datagram : Datagram)
  | report (call : EventCall)
  | park

def Effect.ops (wires : List Wire) (node : String) : Effect → List Op
  | .send port datagram _ =>
    (outputTargets wires ⟨node, port⟩).map fun key => .deliver key datagram
  | .nodeEvent call => [.report call]
  | .enqueue _ kept => if kept then [.park] else []
  | _ => []

def Effect.fails : Effect → Bool
  | .send _ _ (.error _) => true
  | _ => false

def script (wires : List Wire) (node : String) (effects : List Effect) : Option (List Op) :=
  if effects.any Effect.fails then none
  else some (effects.flatMap (Effect.ops wires node))

inductive Stage where
  | queued
  | invoking
  | running (ops : List Op)
  | notifying (call : EventCall) (done : Option ExecState) (ops : List Op)
  | finishing (c : Completion) (ops : List Op)

/--
A datagram from its delivery to the end of its handling.  `producer` is the
item whose handling delivered it, until that item has reported; the seed of an
execution is an item of its trigger.
-/
structure Item where
  key : Endpoint
  datagram : Datagram
  producer : Option Nat
  trigger : Bool
  stage : Stage

structure Pipeline where
  tracker : Tracker
  items : List Item
  parked : List (Endpoint × Datagram)

def Pipeline.start : Pipeline := ⟨.newTracker 0 false 0, [], []⟩

inductive PipelineAction where
  | emit (call : StartCall) (port : String) (now : Time)
  | receive (index : Nat)
  | handle (index : Nat) (runner : NodeRunner) (world : World)
  | advance (index : Nat) (now : Time)
  | redeliver (index : Nat) (runner : NodeRunner) (world : World)
      (results : List PortDatagram)

def Event.nodeEventID : Event → Option String
  | .nodeEvent _ id _ => some id
  | _ => none

def Tracker.hasStarted (t : Tracker) (id : String) : Bool :=
  t.trace.any fun event => event.insertedID = some id

def Tracker.hasFinished (t : Tracker) (id : String) : Bool :=
  t.trace.any fun event => event.finishedID = some id

def Item.corr (item : Item) : String := item.datagram.correlationID

def Item.settle (index : Nat) (item : Item) : Item :=
  if item.producer = some index then { item with producer := none } else item

def Pipeline.setStage (s : Pipeline) (index : Nat) (item : Item) (stage : Stage) : Pipeline :=
  { s with items := s.items.set index { item with stage := stage } }

def Pipeline.deliver (s : Pipeline) (index : Nat) (item : Item) (key : Endpoint)
    (datagram : Datagram) (ops : List Op) : Pipeline :=
  { s with
    items := s.items.set index { item with stage := .running ops } ++
      [{ key := key
         datagram := datagram
         producer := if item.trigger then none else some index
         trigger := false
         stage := .queued }] }

/-- The section of `NodeEvent` under the tracker's mutex. -/
def Pipeline.report (s : Pipeline) (index : Nat) (item : Item) (call : EventCall)
    (ops : List Op) : Pipeline :=
  let next (tracker : Tracker) (stage : Stage) : Pipeline :=
    { s with
      tracker := tracker
      items := (s.items.set index { item with stage := stage }).map (Item.settle index) }
  match s.tracker.nodeEventLocked call with
  | none => next s.tracker (.running ops)
  | some (tracker, done) => next tracker (.notifying call done ops)

def Pipeline.notify (s : Pipeline) (index : Nat) (item : Item) (call : EventCall)
    (done : Option ExecState) (ops : List Op) : Pipeline :=
  let s := { s with tracker := s.tracker.record (.nodeEvent call.flowID call.id call.io) }
  match done with
  | none => s.setStage index item (.running ops)
  | some st => s.setStage index item (.finishing (call.completion st) ops)

def Pipeline.finish (s : Pipeline) (index : Nat) (item : Item) (c : Completion)
    (ops : List Op) (now : Time) : Pipeline :=
  let s := { s with
    tracker := s.tracker.record (.finished c.flowID c.id c.status now c.reason) }
  s.setStage index item (.running ops)

def Pipeline.advanceItem (s : Pipeline) (index : Nat) (item : Item) (now : Time) :
    Option Pipeline :=
  match item.stage with
  | .running (.deliver key datagram :: ops) => some (s.deliver index item key datagram ops)
  | .running (.report call :: ops) => some (s.report index item call ops)
  | .running (.park :: ops) =>
    some { s.setStage index item (.running ops) with
      parked := s.parked ++ [(item.key, item.datagram)] }
  | .notifying call done ops => some (s.notify index item call done ops)
  | .finishing c ops => some (s.finish index item c ops now)
  | _ => none

def Pipeline.emit (wires : List Wire) (s : Pipeline) (call : StartCall) (port : String)
    (now : Time) : Option Pipeline :=
  if s.tracker.hasStarted call.id then none
  else
    some { s with
      tracker := (s.tracker.startLocked call).record
        (.started call.flowID call.id call.triggerNodeID call.triggerKind call.reRunOf
          now call.seed)
      items := s.items ++
        [{ key := ⟨call.triggerNodeID, port⟩
           datagram := call.seed
           producer := none
           trigger := true
           stage := .running ((outputTargets wires ⟨call.triggerNodeID, port⟩).map
             fun key => .deliver key call.seed) }] }

def Pipeline.step (wires : List Wire) (s : Pipeline) : PipelineAction → Option Pipeline
  | .emit call port now => s.emit wires call port now
  | .receive index =>
    match s.items[index]? with
    | none => none
    | some item =>
      match item.stage with
      | .queued => some (s.setStage index item .invoking)
      | _ => none
  | .handle index runner world =>
    match s.items[index]? with
    | none => none
    | some item =>
      match item.stage with
      | .invoking =>
        match script wires item.key.node
            (runner.process world item.key.port item.datagram) with
        | none => none
        | some ops => some (s.setStage index item (.running ops))
      | _ => none
  | .advance index now =>
    match s.items[index]? with
    | none => none
    | some item => s.advanceItem index item now
  | .redeliver index runner world results =>
    -- the store-and-forward drain delivers a parked entry after all
    match s.parked[index]? with
    | none => none
    | some (key, datagram) =>
      match script wires key.node (runner.dispatch world 0 results ++
          runner.reportNode world datagram key.port 1 results none .none) with
      | none => none
      | some ops =>
        some { s with
          parked := s.parked.eraseIdx index
          items := s.items ++
            [{ key := key
               datagram := datagram
               producer := none
               trigger := false
               stage := .running ops }] }

def Item.gone (item : Item) : Bool :=
  match item.stage with
  | .running [] => true
  | _ => false

def Pipeline.Settled (s : Pipeline) (id : String) : Prop :=
  (∀ item ∈ s.items, item.corr = id → item.gone) ∧ ∀ entry ∈ s.parked, entry.2.correlationID ≠ id

/--
An execution is reported finished exactly when nothing of it is outstanding,
and no node event of it reaches the sink after that.
-/
structure CompletesExactly (s : Pipeline) : Prop where
  finished_iff : ∀ id, s.tracker.hasStarted id → (s.tracker.hasFinished id ↔ s.Settled id)
  events_first : s.tracker.trace.Pairwise fun earlier later =>
    ∀ id, earlier.finishedID = some id → later.nodeEventID ≠ some id

/--
The deliveries carry the correlation id, end with the report, and are as many
as the outputs it reports; `delivered` were made before.
-/
def balanced (id : String) : Nat → List Op → Bool
  | delivered, .deliver _ datagram :: ops =>
    datagram.correlationID = id && balanced id (delivered + 1) ops
  | delivered, [.report call] =>
    call.id = id && call.io.outputs.length = delivered
  | _, _ => false

def Item.notifying (item : Item) : Bool :=
  match item.stage with
  | .notifying _ _ _ => true
  | _ => false

/--
A seed goes to one inbox; a handling delivers as many datagrams of the
execution as it reports outputs; an item reports only after its producer has;
and the report that completes an execution finds no other report of it on its
way to the sink.
-/
def regular (wires : List Wire) (s : Pipeline) : PipelineAction → Bool
  | .emit call port _ => (outputTargets wires ⟨call.triggerNodeID, port⟩).length = 1
  | .handle index runner world =>
    match s.items[index]? with
    | none => true
    | some item =>
      match script wires item.key.node
          (runner.process world item.key.port item.datagram) with
      | none => true
      | some ops => balanced item.corr 0 ops
  | .advance index _ =>
    match s.items[index]? with
    | some ⟨_, datagram, producer, _, .running (.report call :: _)⟩ =>
      producer = none &&
      match s.tracker.nodeEventLocked call with
      | some (_, some _) => s.items.all fun other =>
        !(other.corr = datagram.correlationID && other.notifying)
      | _ => true
    | _ => true
  | _ => true

end DataPipe.Flow
