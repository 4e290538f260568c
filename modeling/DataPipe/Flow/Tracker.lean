import DataPipe.Foundation.Threads
import DataPipe.Flow.Datagram
import DataPipe.Flow.File
import Mathlib.Data.List.AList

/-!
# Execution tracking

`Tracker` of `engine/flow/execution.go` and `reconfigureTrackerLocked` of
`engine/flow/graph.go`.  Each call runs as a thread whose program counter names the next access
to shared state, so that every interleaving of the source is a run of `System.step`.  A section
under the tracker's mutex is one step; each read of the field `sem`, each channel operation and
each call of the sink is a step of its own.
-/

namespace DataPipe.Flow

open DataPipe.Foundation

inductive ExecutionStatus where
  | running
  | waiting
  | success
  | failed
  | cancelled
  | crashed
  deriving DecidableEq, Repr, Inhabited

structure NodeIO where
  nodeID : String
  port : String
  attempt : Int
  atTime : Time
  durationUs : Int := 0
  input : Datagram
  outputs : List PortDatagram := []
  err : Option NodeError := none
  deriving Inhabited

structure ExecState where
  pending : Int
  failed : Bool
  reason : String
  deriving DecidableEq, Repr, Inhabited

/-- A pending `time.AfterFunc`; it is armed until it fires. -/
structure Timer where
  flowID : String
  armed : Bool
  deriving DecidableEq, Repr, Inhabited

/--
A buffered channel of empty structs.  As ghost data a token carries the
execution whose `Start` sent it.
-/
structure Semaphore where
  cap : Nat
  tokens : List String
  le_cap : tokens.length ≤ cap

namespace Semaphore

def make (cap : Nat) : Semaphore := ⟨cap, [], Nat.zero_le cap⟩

def send (sem : Semaphore) (id : String) : Option Semaphore :=
  if hroom : sem.tokens.length < sem.cap then
    some ⟨sem.cap, id :: sem.tokens, hroom⟩
  else none

def receive (sem : Semaphore) (id : String) : Option (String × Semaphore) :=
  if id ∈ sem.tokens then
    some (id, ⟨sem.cap, sem.tokens.erase id, (sem.tokens.length_erase_le).trans sem.le_cap⟩)
  else
    match htokens : sem.tokens with
    | [] => none
    | owner :: rest =>
      some (owner, ⟨sem.cap, rest, by
        have := sem.le_cap
        rw [htokens, List.length_cons] at this
        omega⟩)

end Semaphore

inductive Event where
  | waiting (flowID id triggerNodeID : String) (atTime : Time) (seed : Datagram)
  | inserted (id : String)
  | started (flowID id triggerNodeID triggerKind reRunOf : String) (atTime : Time)
      (seed : Datagram)
  | accepted (id : String)
  | nodeEvent (flowID id : String) (io : NodeIO)
  | finished (flowID id : String) (status : ExecutionStatus) (atTime : Time)
      (reason : String)
  | acquired (id : String) (sem : Nat)
  | released (id : String) (sem : Nat) (owner : String)

namespace Event

def insertedID : Event → Option String
  | .inserted id => some id
  | _ => none

def acceptedID : Event → Option String
  | .accepted id => some id
  | _ => none

def finishedID : Event → Option String
  | .finished _ id _ _ _ => some id
  | _ => none

end Event

/-- `sems` holds every channel made so far, `sem` says which one is current. -/
structure Tracker where
  reject : Bool
  timeout : Int
  sems : List Semaphore
  sem : Option Nat
  active : AList fun _ : String => ExecState
  timers : AList fun _ : String => Timer
  trace : List Event

structure StartCall where
  flowID : String
  triggerNodeID : String
  triggerKind : String
  reRunOf : String
  seed : Datagram
  deriving Inhabited

structure EventCall where
  flowID : String
  input : Datagram
  io : NodeIO
  onError : OnError
  deriving Inhabited

structure Completion where
  flowID : String
  id : String
  status : ExecutionStatus
  reason : String
  deriving DecidableEq, Repr, Inhabited

structure Reconfiguration where
  maxConcurrency : Int
  reject : Bool
  timeout : Int
  deriving DecidableEq, Repr, Inhabited

def StartCall.id (call : StartCall) : String := call.seed.correlationID

def EventCall.id (call : EventCall) : String := call.input.correlationID

namespace Tracker

def newTracker (maxConcurrency : Int) (reject : Bool) (timeout : Int) : Tracker where
  reject := reject
  timeout := timeout
  sems :=
    if maxConcurrency > 0 then [Semaphore.make maxConcurrency.toNat] else []
  sem := if maxConcurrency > 0 then some 0 else none
  active := ∅
  timers := ∅
  trace := []

def record (t : Tracker) (event : Event) : Tracker :=
  { t with trace := t.trace ++ [event] }

/-- `ch <- struct{}{}`; a nil channel never accepts. -/
def sendOn (t : Tracker) (ch : Option Nat) (id : String) : Option Tracker :=
  match ch with
  | none => none
  | some k =>
    match t.sems[k]? with
    | none => none
    | some sem =>
      match sem.send id with
      | none => none
      | some sem =>
        some ({ t with sems := t.sems.set k sem }.record (.acquired id k))

/-- `<-ch`; a nil channel never delivers. -/
def receiveOn (t : Tracker) (ch : Option Nat) (id : String) : Option Tracker :=
  match ch with
  | none => none
  | some k =>
    match t.sems[k]? with
    | none => none
    | some sem =>
      match sem.receive id with
      | none => none
      | some (owner, sem) =>
        some ({ t with sems := t.sems.set k sem }.record
          (.released id k owner))

/-- The section of `Start` under the mutex. -/
def startLocked (t : Tracker) (call : StartCall) : Tracker :=
  { t with
    active := t.active.insert call.id ⟨1, false, ""⟩
    timers :=
      if t.timeout > 0 then t.timers.insert call.id ⟨call.flowID, true⟩
      else t.timers
    trace := t.trace ++ [.inserted call.id] }

def nextState (st : ExecState) (call : EventCall) : ExecState :=
  let pending := st.pending + (call.io.outputs.length - 1)
  match call.io.err, call.onError with
  | some err, .fail => ⟨pending, true, err.message⟩
  | _, _ => ⟨pending, st.failed, st.reason⟩

theorem nextState_pending (st : ExecState) (call : EventCall) :
    (nextState st call).pending = st.pending + (call.io.outputs.length - 1) := by
  unfold nextState
  split <;> rfl

/-- The section of `NodeEvent` under the mutex; `none` for an untracked id. -/
def nodeEventLocked (t : Tracker) (call : EventCall) : Option (Tracker × Option ExecState) :=
  match t.active.lookup call.id with
  | none => none
  | some st =>
    let st := nextState st call
    if st.pending ≤ 0 then
      some ({ t with
        active := t.active.erase call.id
        timers := t.timers.erase call.id
        trace := t.trace ++ [.accepted call.id] }, some st)
    else
      some ({ t with
        active := t.active.replace call.id st
        trace := t.trace ++ [.accepted call.id] }, none)

/-- The section shared by `Cancel` and `timeoutExecution`. -/
def removeLocked (t : Tracker) (id : String) : Option Tracker :=
  match t.active.lookup id with
  | none => none
  | some _ =>
    some { t with active := t.active.erase id, timers := t.timers.erase id }

def idle (t : Tracker) : Bool := t.active.keys.isEmpty

def reconfigure (t : Tracker) (r : Reconfiguration) : Tracker :=
  { t with
    reject := r.reject
    timeout := r.timeout
    sems :=
      if r.maxConcurrency > 0 then
        t.sems ++ [Semaphore.make r.maxConcurrency.toNat]
      else t.sems
    sem := if r.maxConcurrency > 0 then some t.sems.length else none }

end Tracker

/-- The arguments `reconfigureTrackerLocked` derives from the settings. -/
def Settings.reconfiguration (s : Settings) : Reconfiguration where
  maxConcurrency := s.maxConcurrency.getD 0
  reject := s.concurrencyPolicy == "reject"
  timeout := (s.executionTimeoutMs.map fun ms => (ms * 1000000).toInt).getD 0

def EventCall.completion (call : EventCall) (st : ExecState) : Completion where
  flowID := call.flowID
  id := call.id
  status := if st.failed then .failed else .success
  reason := if st.failed then st.reason else ""

inductive Result where
  | execution (id : String)
  | concurrencyRejected
  | ctxErr
  | cancelled (found : Bool)
  | done
  deriving DecidableEq, Repr, Inhabited

inductive Pc where
  | startEnter (call : StartCall)
  | startEval (call : StartCall)
  | startTry (call : StartCall) (ch : Option Nat)
  | startFull (call : StartCall)
  | startWaiting (call : StartCall)
  | startEvalWait (call : StartCall)
  | startBlocked (call : StartCall) (ch : Option Nat)
  | startInsert (call : StartCall) (token : Option Nat)
  | startStarted (call : StartCall) (atTime : Time)
  | eventEnter (call : EventCall)
  | eventSink (call : EventCall) (done : Option ExecState)
  | cancelEnter (flowID id : String)
  | timeoutEnter (flowID id : String)
  | release (c : Completion)
  | releaseEval (c : Completion)
  | releaseRecv (c : Completion) (ch : Option Nat)
  | finish (c : Completion)
  | reconfIdle (settings : Settings)
  | reconfSwap (r : Reconfiguration)
  | returned (result : Result)

def Completion.result (c : Completion) : Result :=
  match c.status with
  | .cancelled => .cancelled true
  | _ => .done

namespace Tracker

/-- One atomic step of a thread; `none` while it is blocked or has returned. -/
def advance (now : Time) (t : Tracker) : Pc → Option (Tracker × Pc)
  | .startEnter call =>
    match t.sem with
    | none => some (t, .startInsert call none)
    | some _ => some (t, .startEval call)
  | .startEval call => some (t, .startTry call t.sem)
  | .startTry call ch =>
    match t.sendOn ch call.id with
    | some t => some (t, .startInsert call ch)
    | none => some (t, .startFull call)
  | .startFull call =>
    if t.reject then some (t, .returned .concurrencyRejected)
    else some (t, .startWaiting call)
  | .startWaiting call =>
    some (t.record
      (.waiting call.flowID call.id call.triggerNodeID now call.seed), .startEvalWait call)
  | .startEvalWait call => some (t, .startBlocked call t.sem)
  | .startBlocked call ch =>
    match t.sendOn ch call.id with
    | some t => some (t, .startInsert call ch)
    | none => none
  | .startInsert call _ => some (t.startLocked call, .startStarted call now)
  | .startStarted call atTime =>
    some (t.record (.started call.flowID call.id call.triggerNodeID
      call.triggerKind call.reRunOf atTime call.seed), .returned (.execution call.id))
  | .eventEnter call =>
    match t.nodeEventLocked call with
    | none => some (t, .returned .done)
    | some (t, done) => some (t, .eventSink call done)
  | .eventSink call done =>
    let t := t.record (.nodeEvent call.flowID call.id call.io)
    match done with
    | none => some (t, .returned .done)
    | some st => some (t, .release (call.completion st))
  | .cancelEnter flowID id =>
    match t.removeLocked id with
    | none => some (t, .returned (.cancelled false))
    | some t => some (t, .release ⟨flowID, id, .cancelled, "cancelled"⟩)
  | .timeoutEnter flowID id =>
    match t.removeLocked id with
    | none => some (t, .returned .done)
    | some t => some (t, .release ⟨flowID, id, .failed, "timeout"⟩)
  | .release c =>
    match t.sem with
    | none => some (t, .finish c)
    | some _ => some (t, .releaseEval c)
  | .releaseEval c => some (t, .releaseRecv c t.sem)
  | .releaseRecv c ch =>
    match t.receiveOn ch c.id with
    | some t => some (t, .finish c)
    | none => none
  | .finish c =>
    some (t.record (.finished c.flowID c.id c.status now c.reason), .returned c.result)
  | .reconfIdle settings =>
    if t.idle then some (t, .reconfSwap settings.reconfiguration)
    else some (t, .returned .done)
  | .reconfSwap r => some (t.reconfigure r, .returned .done)
  | .returned _ => none

end Tracker

/-- `ctx.Done()` wins the blocking select of `Start`. -/
def Pc.abort : Pc → Option Pc
  | .startBlocked _ _ => some (.returned .ctxErr)
  | _ => none

inductive Call where
  | start (call : StartCall)
  | nodeEvent (call : EventCall)
  | cancel (flowID id : String)
  | reconfigure (settings : Settings)

namespace Call

def entry : Call → Pc
  | .start call => .startEnter call
  | .nodeEvent call => .eventEnter call
  | .cancel flowID id => .cancelEnter flowID id
  | .reconfigure settings => .reconfIdle settings

def fresh : Call → Option String
  | .start call => some call.id
  | _ => none

end Call

inductive Action where
  | call (c : Call)
  | proceed (thread : Nat) (now : Time)
  | abort (thread : Nat)
  | fire (id : String)

structure System where
  tracker : Tracker
  threads : List Pc
  used : List String

namespace System

def start (tracker : Tracker) : System := ⟨tracker, [], []⟩

def call (s : System) (c : Call) : Option System :=
  match c.fresh with
  | none => some { s with threads := s.threads ++ [c.entry] }
  | some id =>
    if id ∈ s.used then none
    else some { s with threads := s.threads ++ [c.entry], used := id :: s.used }

/-- An armed timer starts the goroutine that runs `timeoutExecution`. -/
def fire (s : System) (id : String) : Option System :=
  match s.tracker.timers.lookup id with
  | some ⟨flowID, true⟩ =>
    some { s with
      tracker :=
        { s.tracker with
          timers := s.tracker.timers.replace id ⟨flowID, false⟩ }
      threads := s.threads ++ [.timeoutEnter flowID id] }
  | _ => none

def step (s : System) : Action → Option System
  | .call c => s.call c
  | .proceed thread now =>
    match advanceAt (Tracker.advance now) s.tracker s.threads thread with
    | none => none
    | some (tracker, threads) => some { s with tracker, threads }
  | .abort thread =>
    match advanceAt (fun t pc => pc.abort.map (t, ·)) s.tracker s.threads
        thread with
    | none => none
    | some (tracker, threads) => some { s with tracker, threads }
  | .fire id => s.fire id

end System

end DataPipe.Flow
