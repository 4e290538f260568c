import DataPipe.Flow.Runner

/-!
# Dead letters on the event channel

`EventSink` and `eventChannelLoop` of `engine/internal/runtimeclient/eventchannel.go`,
`EventChannel` and `handleEventUplink` of `controlplane/internal/registry/registry.go`, and
`RecordDeadLetter` of the store.  Runners call `Capture` while the loops of the sessions open,
attach and detach streams, and a stream may break at any time with all that is on its way.
What is lost in a run is computed step by step and compared with what was captured.
-/

set_option linter.dupNamespace false

namespace DataPipe.RuntimeClient

open DataPipe.Foundation DataPipe.Flow

/-- The arguments of `Capture`. -/
structure CaptureCall where
  flowID : String
  nodeID : String
  port : String
  reason : String
  datagram : Datagram
  atTime : Time

def CaptureCall.ofEffect (atTime : Time) : Effect → Option CaptureCall
  | .capture flowID nodeID port reason datagram =>
    some { flowID, nodeID, port, reason, datagram, atTime }
  | _ => none

theorem captureCalls_reportNode (r : NodeRunner) (w : World) (input : Datagram) (port : String)
    (attempt : Nat) (outputs : List PortDatagram) (err : NodeError) (onError : OnError)
    (atTime : Time) :
    (r.reportNode w input port attempt outputs (some err) onError).filterMap
        (CaptureCall.ofEffect atTime) =
      if onError = .fail ∨ onError = .discard then
        [⟨r.flowID, r.id, port, "node_error", input, atTime⟩]
      else [] := by
  unfold NodeRunner.reportNode
  cases w.errorFlowTarget with
  | none => cases onError <;> rfl
  | some target =>
    dsimp only
    by_cases htarget : onError = .fail ∧ target ≠ ""
    · rw [if_pos htarget]
      cases onError <;> rfl
    · rw [if_neg htarget]
      cases onError <;> rfl

structure DeadLetterEvent where
  flowID : String
  nodeID : String
  port : String
  reason : String
  datagramJSON : String
  timeUnixMs : Int
  deriving DecidableEq

/-- `marshalDatagram`; `marshal` is `json.Marshal`. -/
def marshalDatagram (marshal : Datagram → Option String) (d : Datagram) : String :=
  (marshal d).getD "null"

def CaptureCall.event (marshal : Datagram → Option String) (call : CaptureCall) :
    DeadLetterEvent where
  flowID := call.flowID
  nodeID := call.nodeID
  port := call.port
  reason := call.reason
  datagramJSON := marshalDatagram marshal call.datagram
  timeUnixMs := call.atTime / 1000000

structure EventChannelRequest where
  runtimeID : String
  sessionToken : String
  deadLetterEvent : Option DeadLetterEvent := none

/-- What a row of `dead_letters` says of its letter; the time is in seconds. -/
structure StoredLetter where
  flowID : String
  nodeID : String
  port : String
  reason : String
  datagram : String
  createdAt : Int
  deriving DecidableEq

structure DeadLetterRow extends StoredLetter where
  id : String

def DeadLetterEvent.stored (ev : DeadLetterEvent) : StoredLetter where
  flowID := ev.flowID
  nodeID := ev.nodeID
  port := ev.port
  reason := ev.reason
  datagram := ev.datagramJSON
  createdAt := ev.timeUnixMs / 1000

/-- The row that `RecordDeadLetter` inserts under a new id. -/
def DeadLetterEvent.row (ev : DeadLetterEvent) (id : String) : DeadLetterRow :=
  { ev.stored with id }

def EventChannelRequest.letter (req : EventChannelRequest) : Option StoredLetter :=
  req.deadLetterEvent.map DeadLetterEvent.stored

/-- A `send` function is that of the stream with the given number. -/
structure EventSink where
  send : Option Nat := none
  runtimeID : String := ""
  token : String := ""

def EventSink.attach (_ : EventSink) (stream : Nat) (runtimeID token : String) : EventSink :=
  ⟨some stream, runtimeID, token⟩

def EventSink.detach (sink : EventSink) : EventSink := { sink with send := none }

structure EventStream where
  alive : Bool := true
  inFlight : List EventChannelRequest

def EventStream.letters (stream : EventStream) : List StoredLetter :=
  stream.inFlight.filterMap EventChannelRequest.letter

/-- `Send` of a stream; `none` is an error. -/
def sendOn (streams : List EventStream) (k : Nat) (req : EventChannelRequest) :
    Option (List EventStream) :=
  match streams[k]? with
  | none => none
  | some stream =>
    if stream.alive then
      some (streams.set k { stream with inFlight := stream.inFlight ++ [req] })
    else none

inductive CapturePc where
  | called
  | sending (stream : Nat) (runtimeID token : String)
  | returned

structure Capturing where
  call : CaptureCall
  pc : CapturePc := .called

/-- `trySend`: the fields are read under the mutex, and the request is sent after it. -/
def Capturing.advance (marshal : Datagram → Option String) (sink : EventSink)
    (streams : List EventStream) (c : Capturing) : Option (List EventStream × Capturing) :=
  match c.pc with
  | .called =>
    match sink.send with
    | none => some (streams, { c with pc := .returned })
    | some k => some (streams, { c with pc := .sending k sink.runtimeID sink.token })
  | .sending k runtimeID token =>
    -- a failed send is only logged
    match sendOn streams k ⟨runtimeID, token, some (c.call.event marshal)⟩ with
    | none => some (streams, { c with pc := .returned })
    | some streams => some (streams, { c with pc := .returned })
  | .returned => none

inductive LoopPc where
  | idle
  | opened (stream : Nat)
  | attached (stream : Nat)
  | stopped

structure EventLoop where
  sessionToken : String
  cancelled : Bool := false
  pc : LoopPc := .idle

def isAlive (streams : List EventStream) (k : Nat) : Bool :=
  streams[k]?.any EventStream.alive

/-- `eventChannelLoop`; an attempt that fails leaves the loop where it was. -/
def EventLoop.advance (runtimeID : String) (shared : EventSink × List EventStream)
    (loop : EventLoop) : Option ((EventSink × List EventStream) × EventLoop) :=
  let (sink, streams) := shared
  match loop.pc with
  | .idle =>
    if loop.cancelled then some (shared, { loop with pc := .stopped })
    else
      some ((sink, streams ++ [{ inFlight := [⟨runtimeID, loop.sessionToken, none⟩] }]),
        { loop with pc := .opened streams.length })
  | .opened k =>
    some ((sink.attach k runtimeID loop.sessionToken, streams), { loop with pc := .attached k })
  | .attached k =>
    if loop.cancelled || !isAlive streams k then
      some ((sink.detach, streams), { loop with pc := .idle })
    else none
  | .stopped => none

/-- `wired` says that the control plane has an execution store. -/
structure EventChannel where
  runtimeID : String
  wired : Bool
  sink : EventSink := {}
  streams : List EventStream := []
  loops : List EventLoop := []
  captures : List Capturing := []
  deadLetters : List DeadLetterRow := []

inductive ChannelAction where
  | register (sessionToken : String)
  | cancel (index : Nat)
  | loop (index : Nat)
  | capture (call : CaptureCall)
  | trySend (index : Nat)
  | streamFails (k : Nat)
  | receive (k : Nat) (id : String) (ok : Bool)

namespace EventChannel

variable (marshal : Datagram → Option String)

/-- `handleEventUplink`; `ok` is whether the insert succeeds, and its error is ignored. -/
def handleEventUplink (s : EventChannel) (req : EventChannelRequest) (id : String) (ok : Bool) :
    EventChannel :=
  if s.wired then
    match req.deadLetterEvent with
    | none => s
    | some ev => if ok then { s with deadLetters := s.deadLetters ++ [ev.row id] } else s
  else s

def step (s : EventChannel) : ChannelAction → Option EventChannel
  | .register sessionToken =>
    -- `Run` cancels the streams of a session before it registers again
    if s.loops.all EventLoop.cancelled then
      some { s with loops := s.loops ++ [{ sessionToken }] }
    else none
  | .cancel index =>
    match s.loops[index]? with
    | none => none
    | some loop => some { s with loops := s.loops.set index { loop with cancelled := true } }
  | .loop index =>
    match advanceAt (EventLoop.advance s.runtimeID) (s.sink, s.streams) s.loops index with
    | none => none
    | some ((sink, streams), loops) => some { s with sink, streams, loops }
  | .capture call => some { s with captures := s.captures ++ [{ call }] }
  | .trySend index =>
    match advanceAt (Capturing.advance marshal s.sink) s.streams s.captures index with
    | none => none
    | some (streams, captures) => some { s with streams, captures }
  | .streamFails k =>
    match s.streams[k]? with
    | none => none
    | some _ => some { s with streams := s.streams.set k { alive := false, inFlight := [] } }
  | .receive k id ok =>
    match s.streams[k]? with
    | none => none
    | some stream =>
      match stream.inFlight with
      | [] => none
      | req :: inFlight =>
        let streams := s.streams.set k { stream with inFlight }
        some ({ s with streams }.handleEventUplink req id ok)

def start (runtimeID : String) (wired : Bool) : EventChannel := { runtimeID, wired }

end EventChannel

def Capturing.letter (marshal : Datagram → Option String) (c : Capturing) : StoredLetter :=
  (c.call.event marshal).stored

def Capturing.pending (marshal : Datagram → Option String) (c : Capturing) : Option StoredLetter :=
  match c.pc with
  | .returned => none
  | _ => some (c.letter marshal)

namespace EventChannel

variable (marshal : Datagram → Option String)

def captured (s : EventChannel) : List StoredLetter := s.captures.map (Capturing.letter marshal)

def recorded (s : EventChannel) : List StoredLetter :=
  s.deadLetters.map DeadLetterRow.toStoredLetter

def held (s : EventChannel) : List StoredLetter :=
  s.captures.filterMap (Capturing.pending marshal) ++ s.streams.flatMap EventStream.letters

def NoneLost (s : EventChannel) : Prop :=
  ∀ letter, (s.captured marshal).count letter ≤
    s.recorded.count letter + (s.held marshal).count letter

end EventChannel

def Capturing.Safe (sink : EventSink) (streams : List EventStream) (c : Capturing) : Prop :=
  match c.pc with
  | .called => sink.send.isSome
  | .sending k _ _ => isAlive streams k
  | .returned => True

instance (sink : EventSink) (streams : List EventStream) (c : Capturing) :
    Decidable (c.Safe sink streams) := by
  unfold Capturing.Safe
  split <;> infer_instance

variable {req : EventChannelRequest} {k : Nat} {runtimeID : String}

namespace EventChannel

/--
A call finds a stream that is attached and alive, a stream breaks with no letter on its
way, and a letter that arrives is recorded.
-/
def Safe (s : EventChannel) : ChannelAction → Prop
  | .trySend index => ∀ c ∈ s.captures[index]?, c.Safe s.sink s.streams
  | .streamFails k => ∀ stream ∈ s.streams[k]?, stream.letters = []
  | .receive k _ ok => ∀ stream ∈ s.streams[k]?, ∀ req ∈ stream.inFlight.head?,
      req.deadLetterEvent.isSome → s.wired ∧ ok
  | _ => True

instance (s : EventChannel) (a : ChannelAction) : Decidable (s.Safe a) := by
  unfold Safe
  split <;> infer_instance

def atStake (marshal : Datagram → Option String) (s : EventChannel) :
    ChannelAction → List StoredLetter
  | .trySend index => s.captures[index]?.toList.map (Capturing.letter marshal)
  | .streamFails k => s.streams[k]?.toList.flatMap EventStream.letters
  | .receive k _ _ => s.streams[k]?.toList.flatMap fun stream =>
    stream.inFlight.head?.toList.filterMap EventChannelRequest.letter
  | _ => []

def lost (marshal : Datagram → Option String) (s : EventChannel) (a : ChannelAction) :
    List StoredLetter :=
  if s.Safe a then [] else s.atStake marshal a

def lostIn (marshal : Datagram → Option String) (s : EventChannel) :
    List ChannelAction → List StoredLetter
  | [] => []
  | a :: actions =>
    s.lost marshal a ++
      match s.step marshal a with
      | none => []
      | some next => lostIn marshal next actions

variable {s : EventChannel} {marshal : Datagram → Option String}

theorem lost_eq_nil_iff {a : ChannelAction} : s.lost marshal a = [] ↔ s.Safe a := by
  unfold lost
  split
  next hsafe => exact iff_of_true rfl hsafe
  next hunsafe =>
    refine iff_of_false ?_ hunsafe
    cases a with
    | trySend index =>
      simp only [Safe, not_forall] at hunsafe
      obtain ⟨c, hc, -⟩ := hunsafe
      simp [atStake, Option.mem_def.mp hc]
    | streamFails k =>
      simp only [Safe, not_forall] at hunsafe
      obtain ⟨stream, hstream, hletters⟩ := hunsafe
      simpa [atStake, Option.mem_def.mp hstream] using hletters
    | receive k id ok =>
      simp only [Safe, not_forall] at hunsafe
      obtain ⟨stream, hstream, req, hreq, hletter, -⟩ := hunsafe
      obtain ⟨ev, hev⟩ := Option.isSome_iff_exists.mp hletter
      simp [atStake, Option.mem_def.mp hstream, Option.mem_def.mp hreq,
        EventChannelRequest.letter, hev]
    | _ => exact absurd trivial hunsafe

theorem lost_trySend {index : Nat} {c : Capturing} (hc : s.captures[index]? = some c) :
    s.lost marshal (.trySend index) =
      if c.Safe s.sink s.streams then [] else [c.letter marshal] := by
  simp [lost, Safe, atStake, hc]

variable {stream : EventStream}

theorem lost_streamFails (hstream : s.streams[k]? = some stream) :
    s.lost marshal (.streamFails k) = stream.letters := by
  simp only [lost, Safe, atStake, hstream, Option.mem_def, Option.some.injEq, forall_eq']
  split
  next hnone => exact hnone.symm
  · simp

theorem lost_receive {rest : List EventChannelRequest} {id : String} {ok : Bool}
    (hstream : s.streams[k]? = some stream) (hflight : stream.inFlight = req :: rest) :
    s.lost marshal (.receive k id ok) =
      if s.wired ∧ ok then [] else req.letter.toList := by
  cases hev : req.deadLetterEvent <;>
    simp [lost, Safe, atStake, hstream, hflight, EventChannelRequest.letter, hev]

end EventChannel

attribute [local simp] Capturing.pending List.count_singleton Capturing.Safe ownCount

section Accounts

variable {marshal : Datagram → Option String} {streams streams' : List EventStream}
  {letter : StoredLetter}

def carried (streams : List EventStream) (letter : StoredLetter) : Nat :=
  (streams.map fun stream => stream.letters.count letter).sum

theorem carried_set {stream : EventStream} (hstream : streams[k]? = some stream)
    (stream' : EventStream) (letter : StoredLetter) :
    carried (streams.set k stream') letter + stream.letters.count letter =
      carried streams letter + stream'.letters.count letter :=
  sum_map_set (fun stream => stream.letters.count letter) hstream stream'

theorem EventChannel.count_held (s : EventChannel) (letter : StoredLetter) :
    (s.held marshal).count letter =
      tally (Capturing.pending marshal) s.captures letter + carried s.streams letter := by
  rw [EventChannel.held, List.count_append, List.count_flatMap]
  rfl

theorem sendOn_eq_none : sendOn streams k req = none ↔ isAlive streams k = false := by
  unfold sendOn isAlive
  cases streams[k]? with
  | none => simp
  | some stream => cases halive : stream.alive <;> simp

theorem carried_sendOn (hsend : sendOn streams k req = some streams') (letter : StoredLetter) :
    carried streams' letter = carried streams letter + req.letter.toList.count letter := by
  revert hsend
  fun_cases sendOn streams k req <;> rintro ⟨⟩
  next stream hstream _ =>
    have hset := carried_set hstream { stream with inFlight := stream.inFlight ++ [req] } letter
    have hletters : EventStream.letters { stream with inFlight := stream.inFlight ++ [req] } =
        stream.letters ++ req.letter.toList := by
      cases hletter : req.letter <;> simp [EventStream.letters, hletter]
    rw [hletters, List.count_append] at hset
    omega

theorem EventLoop.carried_advance {sink sink' : EventSink} {loop loop' : EventLoop}
    (hstep : loop.advance runtimeID (sink, streams) = some ((sink', streams'), loop'))
    (letter : StoredLetter) : carried streams' letter = carried streams letter := by
  unfold EventLoop.advance at hstep
  cases hpc : loop.pc with
  | idle =>
    simp only [hpc] at hstep
    split at hstep
    · cases hstep
      rfl
    · cases hstep
      -- the new stream carries its hello only
      rw [carried, List.map_append, List.sum_append]
      exact Nat.add_zero _
  | opened k =>
    simp only [hpc] at hstep
    cases hstep
    rfl
  | attached k =>
    simp only [hpc] at hstep
    split at hstep
    · cases hstep
      rfl
    · cases hstep
  | stopped => simp [hpc] at hstep

theorem Capturing.advance_balance {sink : EventSink} {c c' : Capturing}
    (hstep : c.advance marshal sink streams = some (streams', c')) (letter : StoredLetter) :
    c'.call = c.call ∧
      carried streams letter + ownCount (Capturing.pending marshal) letter c =
        carried streams' letter + ownCount (Capturing.pending marshal) letter c' +
          (if c.Safe sink streams then [] else [c.letter marshal]).count letter := by
  revert hstep
  fun_cases c.advance marshal sink streams <;> rintro ⟨⟩
  next hpc hsend =>
    simp [hpc, hsend]
  next hpc k hsend =>
    simp [hpc, hsend, Capturing.letter]
  next hpc hfailed =>
    simp [hpc, sendOn_eq_none.mp hfailed]
  next k _ _ hpc hsent =>
    have halive : isAlive streams k = true := by
      by_contra hdead
      rw [sendOn_eq_none.mpr (Bool.not_eq_true _ ▸ hdead)] at hsent
      contradiction
    rw [carried_sendOn hsent]
    simp [hpc, halive, Capturing.letter, EventChannelRequest.letter]

end Accounts

namespace EventChannel

variable {marshal : Datagram → Option String} {s s' : EventChannel}

theorem handleEventUplink_eq (s : EventChannel) (req : EventChannelRequest) (id : String)
    (ok : Bool) :
    ∃ rows, s.handleEventUplink req id ok = { s with deadLetters := s.deadLetters ++ rows } ∧
      rows.map DeadLetterRow.toStoredLetter =
        if s.wired ∧ ok then req.letter.toList else [] := by
  unfold handleEventUplink EventChannelRequest.letter
  have hsame : s = { s with deadLetters := s.deadLetters ++ [] } := by rw [List.append_nil]
  by_cases hwired : s.wired = true
  · rw [if_pos hwired]
    cases req.deadLetterEvent with
    | none => exact ⟨[], hsame, by simp⟩
    | some ev =>
      cases ok with
      | false => exact ⟨[], hsame, by simp⟩
      | true => exact ⟨[ev.row id], rfl, by simp [hwired, DeadLetterEvent.row]⟩
  · rw [if_neg hwired]
    exact ⟨[], hsame, by simp [hwired]⟩

/-- What was captured and is no longer recorded or held is `lost`. -/
def Balanced (marshal : Datagram → Option String) (s s' : EventChannel)
    (lost : List StoredLetter) : Prop :=
  ∀ letter, (s'.captured marshal).count letter +
      (s.recorded.count letter + (s.held marshal).count letter) =
    (s.captured marshal).count letter +
      (s'.recorded.count letter + (s'.held marshal).count letter) + lost.count letter

theorem Balanced.trans {s'' : EventChannel} {lost lost' : List StoredLetter}
    (hfirst : Balanced marshal s s' lost) (hsecond : Balanced marshal s' s'' lost') :
    Balanced marshal s s'' (lost ++ lost') := by
  intro letter
  have hbefore := hfirst letter
  have hafter := hsecond letter
  rw [List.count_append]
  omega

theorem balanced_of_frame (hcaptures : s'.captures = s.captures)
    (hrows : s'.deadLetters = s.deadLetters)
    (hcarried : ∀ letter, carried s'.streams letter = carried s.streams letter) :
    Balanced marshal s s' [] := by
  intro letter
  rw [count_held, count_held, captured, captured, recorded, recorded, hcaptures, hrows,
    hcarried letter, List.count_nil, Nat.add_zero]

theorem balanced_capture (call : CaptureCall) :
    Balanced marshal s { s with captures := s.captures ++ [{ call }] } [] := by
  intro letter
  have htally := tally_concat (Capturing.pending marshal) { call } s.captures letter
  have hown : ownCount (Capturing.pending marshal) letter { call } =
      [Capturing.letter marshal { call }].count letter := by
    simp
  rw [count_held, count_held]
  simp only [captured, recorded, List.map_append, List.count_append, List.map_singleton,
    List.count_nil]
  omega

theorem balanced_trySend {index : Nat} {c c' : Capturing} {streams : List EventStream}
    (hc : s.captures[index]? = some c)
    (hadvance : c.advance marshal s.sink s.streams = some (streams, c')) :
    Balanced marshal s { s with streams, captures := s.captures.set index c' }
      (s.lost marshal (.trySend index)) := by
  intro letter
  obtain ⟨hcall, hbalance⟩ := Capturing.advance_balance hadvance letter
  have htally := tally_set (Capturing.pending marshal) hc c' letter
  have hletter : c'.letter marshal = c.letter marshal := by
    rw [Capturing.letter, Capturing.letter, hcall]
  rw [count_held, count_held, lost_trySend hc]
  simp only [captured, recorded, map_set_of_eq hc hletter]
  omega

variable {stream : EventStream}

theorem balanced_streamFails (hstream : s.streams[k]? = some stream) :
    Balanced marshal s { s with streams := s.streams.set k { alive := false, inFlight := [] } }
      (s.lost marshal (.streamFails k)) := by
  intro letter
  have hset := carried_set hstream { alive := false, inFlight := [] } letter
  have hnone : EventStream.letters { alive := false, inFlight := [] } = [] := rfl
  rw [hnone, List.count_nil] at hset
  rw [count_held, count_held, lost_streamFails hstream]
  simp only [captured, recorded]
  omega

theorem balanced_receive {inFlight : List EventChannelRequest} (id : String) (ok : Bool)
    (hstream : s.streams[k]? = some stream) (hflight : stream.inFlight = req :: inFlight) :
    Balanced marshal s
      (handleEventUplink { s with streams := s.streams.set k { stream with inFlight } } req id ok)
      (s.lost marshal (.receive k id ok)) := by
  intro letter
  obtain ⟨rows, hrows, hletters⟩ := handleEventUplink_eq
    { s with streams := s.streams.set k { stream with inFlight } } req id ok
  have hset := carried_set hstream { stream with inFlight } letter
  have hold : stream.letters = req.letter.toList ++
      EventStream.letters { stream with inFlight } := by
    cases hletter : req.letter <;> simp [EventStream.letters, hflight, hletter]
  rw [hold, List.count_append] at hset
  rw [hrows, count_held, count_held, lost_receive hstream hflight]
  simp only [captured, recorded, List.map_append, List.count_append, hletters]
  by_cases hok : s.wired = true ∧ ok = true
  · rw [if_pos hok, if_pos hok, List.count_nil]
    omega
  · rw [if_neg hok, if_neg hok, List.count_nil]
    omega

theorem step_balanced {a : ChannelAction} (hstep : s.step marshal a = some s') :
    Balanced marshal s s' (s.lost marshal a) := by
  revert hstep
  fun_cases s.step marshal a <;> rintro ⟨⟩
  case case1 | case4 => exact balanced_of_frame rfl rfl fun _ => rfl
  next hadvance =>
    obtain ⟨loop, loop', -, hadvance, -⟩ := advanceAt_eq_some.mp hadvance
    exact balanced_of_frame rfl rfl (EventLoop.carried_advance hadvance)
  next call => exact balanced_capture call
  next hadvance =>
    obtain ⟨c, c', hc, hmoved, rfl⟩ := advanceAt_eq_some.mp hadvance
    exact balanced_trySend hc hmoved
  next hstream => exact balanced_streamFails hstream
  next id ok _ hstream _ _ hflight _ => exact balanced_receive id ok hstream hflight

variable {actions : List ChannelAction}

theorem run_balanced (hrun : run (step marshal) s actions = some s') :
    Balanced marshal s s' (s.lostIn marshal actions) := by
  induction actions generalizing s with
  | nil =>
    obtain rfl := Option.some.inj hrun
    exact fun _ => rfl
  | cons a actions ih =>
    obtain ⟨next, hnext, hrest⟩ := run_cons_eq_some.mp hrun
    rw [lostIn, hnext]
    exact (step_balanced hnext).trans (ih hrest)

theorem lostIn_eq_nil_iff (hrun : run (step marshal) s actions = some s') :
    s.lostIn marshal actions = [] ↔ Meets (step marshal) Safe s actions := by
  induction actions generalizing s with
  | nil => exact iff_of_true rfl trivial
  | cons a actions ih =>
    obtain ⟨next, hnext, hrest⟩ := run_cons_eq_some.mp hrun
    rw [lostIn, hnext, List.append_eq_nil_iff, lost_eq_nil_iff, ih hrest]
    refine and_congr_right fun _ => ⟨?_, fun hall => hall next hnext⟩
    intro hmeets other hother
    obtain rfl := Option.mem_unique hnext hother
    exact hmeets

theorem count_captured {wired : Bool}
    (hrun : run (step marshal) (start runtimeID wired) actions = some s) (letter : StoredLetter) :
    (s.captured marshal).count letter =
      s.recorded.count letter + (s.held marshal).count letter +
        ((start runtimeID wired).lostIn marshal actions).count letter := by
  have hbalance := run_balanced hrun letter
  have hcaptured : (start runtimeID wired).captured marshal = [] := rfl
  have hrecorded : (start runtimeID wired).recorded = [] := rfl
  have hheld : (start runtimeID wired).held marshal = [] := rfl
  rw [hcaptured, hrecorded, hheld, List.count_nil] at hbalance
  omega

/-- No letter is lost in a run exactly when every step of it is safe. -/
theorem none_lost_iff (marshal : Datagram → Option String) (runtimeID : String) (wired : Bool)
    {actions : List ChannelAction} {s : EventChannel}
    (hrun : run (step marshal) (start runtimeID wired) actions = some s) :
    s.NoneLost marshal ↔ Meets (step marshal) Safe (start runtimeID wired) actions := by
  rw [← lostIn_eq_nil_iff hrun]
  constructor
  · intro hnone
    refine List.eq_nil_iff_forall_not_mem.mpr fun letter hmem => ?_
    have hpos := List.count_pos_iff.mpr hmem
    have hle := hnone letter
    rw [count_captured hrun] at hle
    omega
  · intro hnil letter
    rw [count_captured hrun, hnil, List.count_nil]
    omega

def failingNode : NodeRunner where
  id := "n"
  flowID := "f"
  errorPolicy := none
  outputs := []

/-- What `failingNode` captures of the datagram `d` at the instant zero. -/
def failedLetter : CaptureCall where
  flowID := "f"
  nodeID := "n"
  port := "in"
  reason := "node_error"
  datagram := { header := { id := "d", correlationID := "d" } }
  atTime := 0

def marshalID (d : Datagram) : Option String := some d.header.id

def connectSteps : List ChannelAction := [.register "token", .loop 0, .loop 0]

def captureSteps (index : Nat) : List ChannelAction :=
  [.capture failedLetter, .trySend index, .trySend index]

/-- The letter arrives before the stream breaks, and the next one is sent on a new stream. -/
def reconnectSteps : List ChannelAction :=
  connectSteps ++ captureSteps 0 ++ [ChannelAction.receive 0 "hello" true, .receive 0 "a" true] ++
    [ChannelAction.streamFails 0, .loop 0, .loop 0, .loop 0] ++ captureSteps 1

theorem none_lost_across_reconnect :
    ∃ s, run (step marshalID) (start "r" true) reconnectSteps = some s ∧
      s.NoneLost marshalID ∧ s.recorded.length = 1 ∧ (s.held marshalID).length = 1 := by
  refine exists_some_imp (fun s => s.recorded.length = 1 ∧ (s.held marshalID).length = 1)
    (by decide +kernel) ?_
  intro s hrun hcounts
  exact ⟨(none_lost_iff marshalID "r" true hrun).mpr (by decide +kernel), hcounts⟩

theorem lost_of_run
    (hany : (run (step marshalID) (start "r" true) actions).any (fun s =>
      decide (s.captured marshalID ≠ [] ∧ s.recorded = [] ∧ s.held marshalID = [])) = true) :
    ∃ s, run (step marshalID) (start "r" true) actions = some s ∧
      s.recorded = [] ∧ s.held marshalID = [] ∧ ¬ s.NoneLost marshalID := by
  obtain ⟨s, hrun, hany⟩ := (Option.any_eq_true _ _).mp hany
  obtain ⟨hcaptured, hrecorded, hheld⟩ := of_decide_eq_true hany
  refine ⟨s, hrun, hrecorded, hheld, fun hnone => ?_⟩
  obtain ⟨letter, hletter⟩ := List.exists_mem_of_ne_nil _ hcaptured
  have hle := hnone letter
  rw [hrecorded, hheld, List.count_nil] at hle
  have hpos := List.count_pos_iff.mpr hletter
  omega

/--
The letter of a node that fails before any stream is attached, and that of one that fails
while the broken stream is still attached: nothing is recorded and nothing is held.
-/
theorem letter_lost_during_outage :
    (∀ w err, (failingNode.reportNode w failedLetter.datagram "in" 1 [] (some err) .fail).filterMap
      (CaptureCall.ofEffect 0) = [failedLetter]) ∧
    (∃ s, run (step marshalID) (start "r" true) [.capture failedLetter, .trySend 0] = some s ∧
      s.recorded = [] ∧ s.held marshalID = [] ∧ ¬ s.NoneLost marshalID) ∧
    ∃ s, run (step marshalID) (start "r" true)
        (connectSteps ++ [ChannelAction.streamFails 0] ++ captureSteps 0) = some s ∧
      s.recorded = [] ∧ s.held marshalID = [] ∧ ¬ s.NoneLost marshalID := by
  refine ⟨?_, lost_of_run (by decide +kernel), lost_of_run (by decide +kernel)⟩
  intro w err
  exact captureCalls_reportNode failingNode w _ _ _ _ err .fail 0

end EventChannel

end DataPipe.RuntimeClient
