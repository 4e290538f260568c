import DataPipe.Bus.Wire
import DataPipe.Flow.Tracker
import DataPipe.StoreForward.Queue

/-!
# Node runners

The model of the processor loops of `engine/flow/runner.go`: the time-to-live
check, the retry loop and the terminal error policies.  What the outside world
answers while one datagram is handled (the node's own code, the waits, the
sends, the disk) is a `World`; the calls the runner makes are the list of its
effects.
-/

namespace DataPipe.Flow

open DataPipe.Foundation

def OnError.ofString (text : String) : OnError :=
  if text = "retry" then .retry
  else if text = "errorPort" then .errorPort
  else if text = "discard" then .discard
  else if text = "storeForward" then .storeForward
  else .fail

/-- `ErrorFlowTopic` -/
def errorFlowTopic (flowID : String) : String :=
  if flowID = "*" then "$errors/#" else "$errors/" ++ flowID

structure QueueState where
  dir : StoreForward.Dir
  queue : StoreForward.Queue
  disk : StoreForward.Disk

/-- How the disk answers an `Enqueue` of a process that stays alive. -/
inductive DiskAnswer where
  | ok
  | writeFails (written : Option String)
  | renameFails

def DiskAnswer.fault : DiskAnswer → StoreForward.Fault
  | .ok => .none
  | .writeFails written => .writeFails written
  | .renameFails => .renameFails

/--
An `Enqueue` on the node's queue: the new id and whether the queue still holds
it when the call returns, or `none` for an error.
-/
def QueueState.enqueue (s : QueueState) (data : List UInt8) (enqueuedAt : Time)
    (answer : DiskAnswer) : Option (StoreForward.Name × Bool) :=
  let id := StoreForward.seqName s.queue.nextSeq
  match (s.queue.enqueue s.dir s.disk data enqueuedAt answer.fault).1 with
  | some (queue, .ok _) => some (id, id ∈ queue.order)
  | _ => none

structure NodeRunner where
  id : String
  flowID : String
  errorPolicy : Option ErrorPolicy
  outputs : List String

/--
The answers of the environment while one datagram is handled.  Attempts are
numbered from one; `cancelled k` says that the wait after attempt `k` ends by
cancellation.
-/
structure World where
  received : Time
  started : Nat → Time
  durationUs : Nat → Int
  invoke : Nat → Except NodeError (List PortDatagram)
  cancelled : Nat → Bool
  send : Nat → Except Bus.WireError Unit
  sfQueue : Option QueueState
  marshal : String → Datagram → Option (List UInt8)
  enqueuedAt : Time
  diskAnswer : DiskAnswer
  errorFlowTarget : Option String
  newID : String
  encode : Datagram → Json

inductive Metric where
  | processed
  | errors
  | retries
  deriving DecidableEq, Repr

inductive Effect where
  | count (metric : Metric)
  | send (port : String) (datagram : Datagram)
      (result : Except Bus.WireError Unit)
  | noSuchPort (port : String)
  | nodeEvent (call : EventCall)
  | capture (flowID nodeID port reason : String) (datagram : Datagram)
  | publish (topic : String) (datagram : Datagram)
  | enqueue (id : StoreForward.Name) (kept : Bool)

/-- `AsNodeError` -/
def asNodeError (err : NodeError) (nodeID : String) (attempt : Nat) : NodeError :=
  { err with node := nodeID, attempt := attempt }

/-- `BuildErrorDatagram` -/
def buildErrorDatagram (w : World) (original : Datagram) (err : NodeError) : Datagram :=
  let value := Json.obj
    [("original", w.encode original),
      ("error", .obj
        [("message", .str err.message), ("code", .str err.code),
          ("node", .str err.node), ("stack", .str err.stack),
          ("attempt", .num (intLit err.attempt))])]
  let caused := Datagram.newCaused w.newID w.received original
    { nodeID := err.node } { value := some value }
  { caused with header := { caused.header with quality := .bad } }

namespace NodeRunner

def policy (r : NodeRunner) : ErrorPolicy :=
  r.errorPolicy.getD { onError := "fail" }

def onError (r : NodeRunner) : OnError := .ofString r.policy.onError

def reportNode (r : NodeRunner) (w : World) (input : Datagram) (port : String) (attempt : Nat)
    (outputs : List PortDatagram) (err : Option NodeError) (onError : OnError) : List Effect :=
  let io : NodeIO :=
    { nodeID := r.id
      port := port
      attempt := attempt
      atTime := w.started attempt
      durationUs := w.durationUs attempt
      input := input
      outputs := outputs
      err := err }
  .nodeEvent ⟨r.flowID, input, io, onError⟩ ::
    match err with
    | none => []
    | some err =>
      (if onError = .fail ∨ onError = .discard then
        [.capture r.flowID r.id port "node_error" input]
      else []) ++
      (match w.errorFlowTarget with
      | none => []
      | some target =>
        if onError = .fail ∧ target ≠ "" then
          [.publish (errorFlowTopic target)
            (buildErrorDatagram w input err)]
        else [])

/-- `dropExpired`; `none` when the datagram is still alive. -/
def dropExpired (r : NodeRunner) (w : World) (input : Datagram)
    (port : String) : Option (List Effect) :=
  if input.header.expired w.received then
    let io : NodeIO :=
      { nodeID := r.id
        port := port
        attempt := 1
        atTime := w.received
        input := input }
    some [.capture r.flowID r.id port "ttl_expired" input, .nodeEvent ⟨r.flowID, input, io, .fail⟩]
  else none

/-- `dispatch`, from the output with the given index on. -/
def dispatch (r : NodeRunner) (w : World) :
    Nat → List PortDatagram → List Effect
  | _, [] => []
  | index, result :: results =>
    (if result.port ∈ r.outputs then
      .send result.port result.datagram (w.send index)
    else .noSuchPort result.port) :: r.dispatch w (index + 1) results

def storeForward (r : NodeRunner) (w : World) (port : String) (attempt : Nat)
    (input : Datagram) (err : NodeError) : List Effect :=
  let fail := r.reportNode w input port attempt [] (some err) .fail
  match w.sfQueue with
  | none => fail
  | some s =>
    match w.marshal port input with
    | none => fail
    | some data =>
      match s.enqueue data w.enqueuedAt w.diskAnswer with
      | none => fail
      | some (id, kept) =>
        .enqueue id kept :: r.reportNode w input port attempt [] (some err) .storeForward

def applyTerminalPolicy (r : NodeRunner) (w : World) (port : String)
    (attempt : Nat) (input : Datagram) (err : NodeError) : List Effect :=
  match r.onError with
  | .errorPort =>
    if "error" ∈ r.outputs then
      let errDgm := buildErrorDatagram w input err
      .send "error" errDgm (w.send 0) ::
        r.reportNode w input port attempt [⟨"error", errDgm⟩] (some err)
          .errorPort
    else r.reportNode w input port attempt [] (some err) .fail
  | .discard => r.reportNode w input port attempt [] (some err) .discard
  | .storeForward => r.storeForward w port attempt input err
  | _ => r.reportNode w input port attempt [] (some err) .fail

def maxRetries (r : NodeRunner) : Nat :=
  match r.policy.retry with
  | none => 0
  | some retry => retry.max.toNat

/--
The loop of `handle` with `left` retries to go; the source compares `attempt`
with the maximum instead of counting down.
-/
def handleLoop (r : NodeRunner) (w : World) (port : String)
    (input : Datagram) : Nat → Nat → List Effect
  | left, attempt =>
    match w.invoke attempt with
    | .ok results =>
      .count .processed :: (r.dispatch w 0 results ++
        r.reportNode w input port attempt results none .none)
    | .error err =>
      let nodeErr := asNodeError err r.id attempt
      .count .errors ::
        if r.onError = .retry then
          match left with
          | 0 => r.reportNode w input port attempt [] (some nodeErr) .fail
          | left + 1 =>
            .count .retries ::
              if w.cancelled attempt then []
              else r.handleLoop w port input left (attempt + 1)
        else r.applyTerminalPolicy w port attempt input nodeErr

def handle (r : NodeRunner) (w : World) (port : String) (input : Datagram) : List Effect :=
  r.handleLoop w port input r.maxRetries 1

/-- One turn of `runProcessor` and `runMultiProcessor` after a `Receive`. -/
def process (r : NodeRunner) (w : World) (port : String) (input : Datagram) : List Effect :=
  match r.dropExpired w input port with
  | some effects => effects
  | none => r.handle w port input

def runProcessor (r : NodeRunner) (port : String) :
    List (Datagram × World) → List (Datagram × List Effect)
  | [] => []
  | (input, w) :: rest =>
    (input, r.process w port input) :: r.runProcessor port rest

end NodeRunner

end DataPipe.Flow
