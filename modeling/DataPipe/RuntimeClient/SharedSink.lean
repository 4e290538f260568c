import DataPipe.RuntimeClient.DeadLetters

/-!
# One sink for the loops of all sessions

`Run` of `engine/internal/runtimeclient/client.go` starts a channel loop for each
registration and only cancels the one before, so the loops of several sessions
attach and detach the same `EventSink` or `DebugSink`.  Both loops are instances of
one: they differ in the sink and in what travels on their streams.
-/

set_option linter.dupNamespace false

namespace DataPipe.RuntimeClient

open DataPipe.Foundation

structure Attachment where
  send : Option Nat
  runtimeID : String
  token : String
  deriving DecidableEq

structure ChannelKind (Sink Stream : Type) where
  attach : Sink → Nat → String → String → Sink
  detach : Sink → Sink
  hello : String → String → Stream
  alive : Stream → Bool
  slot : Sink → Attachment
  slot_attach : ∀ sink k runtimeID token,
    slot (attach sink k runtimeID token) = ⟨some k, runtimeID, token⟩
  slot_detach : ∀ sink, slot (detach sink) = { slot sink with send := none }
  alive_hello : ∀ runtimeID token, alive (hello runtimeID token) = true

variable {Sink Stream : Type}

def ChannelKind.isAlive (kind : ChannelKind Sink Stream) (streams : List Stream) (k : Nat) : Bool :=
  streams[k]?.any kind.alive

def channelLoop (kind : ChannelKind Sink Stream) (runtimeID : String) (shared : Sink × List Stream)
    (loop : EventLoop) : Option ((Sink × List Stream) × EventLoop) :=
  let (sink, streams) := shared
  match loop.pc with
  | .idle =>
    if loop.cancelled then some (shared, { loop with pc := .stopped })
    else
      some ((sink, streams ++ [kind.hello runtimeID loop.sessionToken]),
        { loop with pc := .opened streams.length })
  | .opened k =>
    some ((kind.attach sink k runtimeID loop.sessionToken, streams),
      { loop with pc := .attached k })
  | .attached k =>
    if loop.cancelled || !kind.isAlive streams k then
      some ((kind.detach sink, streams), { loop with pc := .idle })
    else none
  | .stopped => none

def eventKind : ChannelKind EventSink EventStream where
  attach := EventSink.attach
  detach := EventSink.detach
  hello runtimeID token := { inFlight := [⟨runtimeID, token, none⟩] }
  alive := EventStream.alive
  slot sink := ⟨sink.send, sink.runtimeID, sink.token⟩
  slot_attach _ _ _ _ := rfl
  slot_detach _ := rfl
  alive_hello _ _ := rfl

structure DebugSink where
  subscribed : List String := []
  send : Option Nat := none
  runtimeID : String := ""
  token : String := ""

namespace DebugSink

def attach (sink : DebugSink) (stream : Nat) (runtimeID token : String) : DebugSink :=
  { sink with send := some stream, runtimeID, token }

def detach (sink : DebugSink) : DebugSink := { sink with send := none }

def setSubscribed (sink : DebugSink) (flowID : String) (on : Bool) : DebugSink :=
  { sink with
    subscribed :=
      if on then sink.subscribed.insert flowID else sink.subscribed.filter (· ≠ flowID) }

end DebugSink

structure DebugStream where
  alive : Bool := true

def debugKind : ChannelKind DebugSink DebugStream where
  attach := DebugSink.attach
  detach := DebugSink.detach
  hello _ _ := {}
  alive := DebugStream.alive
  slot sink := ⟨sink.send, sink.runtimeID, sink.token⟩
  slot_attach _ _ _ _ := rfl
  slot_detach _ := rfl
  alive_hello _ _ := rfl

/-- `debugChannelLoop` -/
def debugLoop (runtimeID : String) (shared : DebugSink × List DebugStream) (loop : EventLoop) :
    Option ((DebugSink × List DebugStream) × EventLoop) :=
  channelLoop debugKind runtimeID shared loop

structure DebugChannel where
  runtimeID : String
  sink : DebugSink := {}
  streams : List DebugStream := []
  loops : List EventLoop := []

/-- `downlink` is a message that subscribes a flow, or ends its subscription. -/
inductive DebugAction where
  | register (sessionToken : String)
  | cancel (index : Nat)
  | loop (index : Nat)
  | streamFails (k : Nat)
  | downlink (k : Nat) (flowID : String) (on : Bool)

namespace DebugChannel

def step (s : DebugChannel) : DebugAction → Option DebugChannel
  | .register sessionToken =>
    if s.loops.all EventLoop.cancelled then
      some { s with loops := s.loops ++ [{ sessionToken }] }
    else none
  | .cancel index =>
    match s.loops[index]? with
    | none => none
    | some loop => some { s with loops := s.loops.set index { loop with cancelled := true } }
  | .loop index =>
    match advanceAt (debugLoop s.runtimeID) (s.sink, s.streams) s.loops index with
    | none => none
    | some ((sink, streams), loops) => some { s with sink, streams, loops }
  | .streamFails k =>
    match s.streams[k]? with
    | none => none
    | some _ => some { s with streams := s.streams.set k { alive := false } }
  | .downlink k flowID on =>
    if debugKind.isAlive s.streams k then
      some { s with sink := s.sink.setSubscribed flowID on }
    else none

def start (runtimeID : String) : DebugChannel := { runtimeID }

end DebugChannel

/-- A channel of either kind: the slot of its sink, which streams are alive, and the loops. -/
structure Channel where
  slot : Attachment
  alive : List Bool
  loops : List EventLoop

def ChannelKind.view (kind : ChannelKind Sink Stream) (sink : Sink) (streams : List Stream)
    (loops : List EventLoop) : Channel :=
  ⟨kind.slot sink, streams.map kind.alive, loops⟩

namespace Channel

inductive Step (runtimeID : String) : Option Nat → Channel → Channel → Prop
  | other {c} : Step runtimeID none c c
  | register {c} (sessionToken : String) :
      Step runtimeID none c { c with loops := c.loops ++ [{ sessionToken }] }
  | cancel {c index loop} (hloop : c.loops[index]? = some loop) :
      Step runtimeID none c
        { c with loops := c.loops.set index { loop with cancelled := true } }
  | fails {c} (k : Nat) : Step runtimeID none c { c with alive := c.alive.set k false }
  | stops {c index loop} (hloop : c.loops[index]? = some loop) (hpc : loop.pc = .idle) :
      Step runtimeID (some index) c
        { c with loops := c.loops.set index { loop with pc := .stopped } }
  | opens {c index loop} (hloop : c.loops[index]? = some loop) (hpc : loop.pc = .idle) :
      Step runtimeID (some index) c
        { c with
          alive := c.alive ++ [true]
          loops := c.loops.set index { loop with pc := .opened c.alive.length } }
  | attaches {c index loop k} (hloop : c.loops[index]? = some loop)
      (hpc : loop.pc = .opened k) :
      Step runtimeID (some index) c
        { c with
          slot := ⟨some k, runtimeID, loop.sessionToken⟩
          loops := c.loops.set index { loop with pc := .attached k } }
  | detaches {c index loop k} (hloop : c.loops[index]? = some loop)
      (hpc : loop.pc = .attached k) :
      Step runtimeID (some index) c
        { c with
          slot := { c.slot with send := none }
          loops := c.loops.set index { loop with pc := .idle } }

end Channel

variable {runtimeID : String}

theorem step_of_channelLoop {kind : ChannelKind Sink Stream} {sink sink' : Sink}
    {streams streams' : List Stream} {loops loops' : List EventLoop} {index : Nat}
    (h : advanceAt (channelLoop kind runtimeID) (sink, streams) loops index =
      some ((sink', streams'), loops')) :
    Channel.Step runtimeID (some index) (kind.view sink streams loops)
      (kind.view sink' streams' loops') := by
  obtain ⟨loop, loop', hloop, hadvance, rfl⟩ := advanceAt_eq_some.mp h
  rw [channelLoop] at hadvance
  split at hadvance
  next hpc =>
    split at hadvance
    · cases hadvance
      exact .stops hloop hpc
    · cases hadvance
      have hopens : Channel.Step runtimeID (some index) (kind.view sink streams loops) _ :=
        .opens hloop hpc
      simpa [ChannelKind.view, kind.alive_hello] using hopens
  next k hpc =>
    cases hadvance
    have hattaches : Channel.Step runtimeID (some index) (kind.view sink streams loops) _ :=
      .attaches hloop hpc
    simpa [ChannelKind.view, kind.slot_attach] using hattaches
  next k hpc =>
    split at hadvance
    · cases hadvance
      have hdetaches : Channel.Step runtimeID (some index) (kind.view sink streams loops) _ :=
        .detaches hloop hpc
      simpa [ChannelKind.view, kind.slot_detach] using hdetaches
    · cases hadvance
  · cases hadvance

namespace Channel

def newest (c : Channel) : Option EventLoop := c.loops[c.loops.length - 1]?

def newestWaits (c : Channel) : Bool :=
  c.newest.any fun loop =>
    match loop.pc with
    | .attached k => c.alive[k]? = some true
    | _ => false

def writesSlot (c : Channel) (index : Nat) : Bool :=
  c.loops[index]?.any fun loop =>
    match loop.pc with
    | .opened _ => true
    | .attached _ => true
    | _ => false

/-- An older loop writes the slot only while the newest loop does not wait on its stream. -/
def sparesNewest (c : Channel) : Option Nat → Bool
  | none => true
  | some index => index + 1 = c.loops.length || !c.writesSlot index || !c.newestWaits

def StaysAttached (runtimeID : String) (c : Channel) : Prop :=
  ∀ loop k, c.newest = some loop → loop.pc = .attached k → c.alive[k]? = some true →
    c.slot = ⟨some k, runtimeID, loop.sessionToken⟩

structure Sound (runtimeID : String) (c : Channel) : Prop where
  exists_stream : ∀ loop k, c.newest = some loop →
    loop.pc = .opened k ∨ loop.pc = .attached k → k < c.alive.length
  attached : StaysAttached runtimeID c

theorem newest_concat (c : Channel) (loop : EventLoop) :
    newest { c with loops := c.loops ++ [loop] } = some loop := by
  simp [newest]

variable {c : Channel} {index : Nat} {loop : EventLoop} {slot : Attachment} {alive : List Bool}

theorem newest_set {loop' : EventLoop}
    (h : newest ⟨slot, alive, c.loops.set index loop'⟩ = some loop) :
    (index = c.loops.length - 1 ∧ loop = loop') ∨
      (index ≠ c.loops.length - 1 ∧ c.newest = some loop) := by
  rw [newest, List.length_set] at h
  rcases getElem?_set_eq_some h with ⟨rfl, rfl⟩ | ⟨hne, h⟩
  · exact .inl ⟨rfl, rfl⟩
  · exact .inr ⟨Ne.symm hne, h⟩

theorem not_newestWaits_of_spares (hspares : c.sparesNewest (some index) = true)
    (hne : index ≠ c.loops.length - 1) (hwrites : c.writesSlot index = true) :
    c.newestWaits = false := by
  have hlast : index + 1 ≠ c.loops.length := by omega
  simpa [sparesNewest, hlast, hwrites] using hspares

variable {runtimeID : String}

theorem Sound.of_set (hs : Sound runtimeID c) (hlength : c.alive.length ≤ alive.length)
    (hkept : ∀ k, k < c.alive.length → alive[k]? = some true → c.alive[k]? = some true)
    (hslot : slot = c.slot ∨ (index ≠ c.loops.length - 1 → c.newestWaits = false))
    (hexists : index = c.loops.length - 1 →
      ∀ k, loop.pc = .opened k ∨ loop.pc = .attached k → k < alive.length)
    (hattached : index = c.loops.length - 1 → ∀ k, loop.pc = .attached k →
      alive[k]? = some true → slot = ⟨some k, runtimeID, loop.sessionToken⟩) :
    Sound runtimeID ⟨slot, alive, c.loops.set index loop⟩ where
  exists_stream := by
    intro loop' k hnewest hpc
    rcases newest_set hnewest with ⟨hlast, rfl⟩ | ⟨-, hold⟩
    · exact hexists hlast k hpc
    · exact (hs.exists_stream loop' k hold hpc).trans_le hlength
  attached := by
    intro loop' k hnewest hpc halive
    rcases newest_set hnewest with ⟨hlast, rfl⟩ | ⟨hne, hold⟩
    · exact hattached hlast k hpc halive
    · have hlive := hkept k (hs.exists_stream loop' k hold (.inr hpc)) halive
      rcases hslot with rfl | hidle
      · exact hs.attached loop' k hold hpc hlive
      · have hwaits : c.newestWaits = true := by simp [newestWaits, hold, hpc, hlive]
        rw [hidle hne] at hwaits
        cases hwaits

theorem sound_step {actor : Option Nat} {c' : Channel} (hs : Sound runtimeID c)
    (hspares : c.sparesNewest actor = true) (h : Step runtimeID actor c c') :
    Sound runtimeID c' := by
  cases h with
  | other => exact hs
  | register sessionToken =>
    constructor
    · intro loop k hloop hpc
      rw [newest_concat] at hloop
      cases hloop
      simp at hpc
    · intro loop k hloop hpc
      rw [newest_concat] at hloop
      cases hloop
      cases hpc
  | @cancel _ index loop hloop =>
    refine hs.of_set le_rfl (fun _ _ => id) (.inl rfl) ?_ ?_
    · rintro rfl k hpc
      exact hs.exists_stream loop k hloop hpc
    · rintro rfl k hpc halive
      exact hs.attached loop k hloop hpc halive
  | fails k =>
    constructor
    · intro loop k' hloop hpc
      rw [List.length_set]
      exact hs.exists_stream loop k' hloop hpc
    · intro loop k' hloop hpc halive
      rcases getElem?_set_eq_some halive with ⟨-, hfalse⟩ | ⟨-, halive⟩
      · cases hfalse
      · exact hs.attached loop k' hloop hpc halive
  | stops => exact hs.of_set le_rfl (fun _ _ => id) (.inl rfl) (by simp) nofun
  | opens =>
    refine hs.of_set (by simp) ?_ (.inl rfl) (by simp) nofun
    intro k hk halive
    rwa [List.getElem?_append_left hk] at halive
  | attaches hloop hpc =>
    refine hs.of_set le_rfl (fun _ _ => id) (.inr fun hne => ?_) ?_ ?_
    · exact not_newestWaits_of_spares hspares hne (by simp [writesSlot, hloop, hpc])
    · rintro rfl _ (⟨⟨⟩⟩ | ⟨⟨⟩⟩)
      exact hs.exists_stream _ _ hloop (.inl hpc)
    · rintro - k ⟨⟩ -
      rfl
  | detaches hloop hpc =>
    refine hs.of_set le_rfl (fun _ _ => id) (.inr fun hne => ?_) (by simp) nofun
    exact not_newestWaits_of_spares hspares hne (by simp [writesSlot, hloop, hpc])

end Channel

def ChannelAction.actor : ChannelAction → Option Nat
  | .loop index => some index
  | _ => none

def DebugAction.actor : DebugAction → Option Nat
  | .loop index => some index
  | _ => none

def EventChannel.channel (s : EventChannel) : Channel := eventKind.view s.sink s.streams s.loops

def DebugChannel.channel (s : DebugChannel) : Channel := debugKind.view s.sink s.streams s.loops

variable {streams streams' : List EventStream}

theorem map_alive_sendOn {k : Nat} {req : EventChannelRequest}
    (h : sendOn streams k req = some streams') :
    streams'.map EventStream.alive = streams.map EventStream.alive := by
  revert h
  fun_cases sendOn streams k req <;> rintro ⟨⟩
  next hstream _ => exact map_set_of_eq hstream rfl

variable {marshal : Flow.Datagram → Option String}

theorem Capturing.map_alive_advance {sink : EventSink} {c c' : Capturing}
    (h : c.advance marshal sink streams = some (streams', c')) :
    streams'.map EventStream.alive = streams.map EventStream.alive := by
  revert h
  fun_cases c.advance marshal sink streams <;> rintro ⟨⟩
  case case4 hsend => exact map_alive_sendOn hsend
  all_goals rfl

theorem EventChannel.step_channel {s s' : EventChannel} {a : ChannelAction}
    (h : EventChannel.step marshal s a = some s') :
    s'.runtimeID = s.runtimeID ∧ Channel.Step s.runtimeID a.actor s.channel s'.channel := by
  have hother {streams : List EventStream}
      (hsame : streams.map eventKind.alive = s.streams.map eventKind.alive) :
      Channel.Step s.runtimeID none s.channel (eventKind.view s.sink streams s.loops) := by
    rw [ChannelKind.view, hsame]
    exact .other
  revert h
  fun_cases EventChannel.step marshal s a <;> rintro ⟨⟩
  next sessionToken _ => exact ⟨rfl, .register sessionToken⟩
  next hloop => exact ⟨rfl, .cancel hloop⟩
  next hadvance => exact ⟨rfl, step_of_channelLoop hadvance⟩
  next => exact ⟨rfl, .other⟩
  next hadvance =>
    obtain ⟨c, c', -, hcall, rfl⟩ := advanceAt_eq_some.mp hadvance
    exact ⟨rfl, hother (Capturing.map_alive_advance hcall)⟩
  next k _ _ =>
    refine ⟨rfl, ?_⟩
    rw [channel, channel, ChannelKind.view, ChannelKind.view, List.map_set]
    exact .fails k
  next k id ok stream hstream req inFlight _ _ =>
    obtain ⟨rows, hrows, -⟩ := handleEventUplink_eq
      { s with streams := s.streams.set k { stream with inFlight } } req id ok
    rw [hrows]
    exact ⟨rfl, hother (map_set_of_eq hstream rfl)⟩

theorem DebugChannel.step_channel {s s' : DebugChannel} {a : DebugAction}
    (h : DebugChannel.step s a = some s') :
    s'.runtimeID = s.runtimeID ∧ Channel.Step s.runtimeID a.actor s.channel s'.channel := by
  revert h
  fun_cases DebugChannel.step s a <;> rintro ⟨⟩
  next sessionToken _ => exact ⟨rfl, .register sessionToken⟩
  next hloop => exact ⟨rfl, .cancel hloop⟩
  next hadvance => exact ⟨rfl, step_of_channelLoop hadvance⟩
  next k _ _ =>
    refine ⟨rfl, ?_⟩
    rw [channel, channel, ChannelKind.view, ChannelKind.view, List.map_set]
    exact .fails k
  next => exact ⟨rfl, .other⟩

theorem Channel.sound_of_no_loops {c : Channel} (h : c.loops = []) : Channel.Sound runtimeID c := by
  have hnone : c.newest = none := by rw [Channel.newest, h]; rfl
  constructor
  · intro loop k hloop
    rw [hnone] at hloop
    cases hloop
  · intro loop k hloop
    rw [hnone] at hloop
    cases hloop

theorem Channel.staysAttached_of_run {State Action : Type} {step : State → Action → Option State}
    (idOf : State → String) (channel : State → Channel) (actor : Action → Option Nat)
    (hstep : ∀ s a s', step s a = some s' →
      idOf s' = idOf s ∧ Channel.Step (idOf s) (actor a) (channel s) (channel s'))
    {start s : State} {acts : List Action} (hstart : (channel start).loops = [])
    (hmeets : Meets step (fun s a => (channel s).sparesNewest (actor a) = true) start acts)
    (hrun : run step start acts = some s) : (channel s).StaysAttached (idOf start) := by
  have hkept : ∀ {s a s'}, (idOf s = idOf start ∧ (channel s).Sound (idOf start)) →
      (channel s).sparesNewest (actor a) = true → step s a = some s' →
      idOf s' = idOf start ∧ (channel s').Sound (idOf start) := by
    rintro s a s' ⟨hid, hsound⟩ hspares htaken
    obtain ⟨hid', hview⟩ := hstep s a s' htaken
    rw [hid] at hid' hview
    exact ⟨hid', Channel.sound_step hsound hspares hview⟩
  exact (run_invariant_of_meets hkept ⟨rfl, Channel.sound_of_no_loops hstart⟩ hmeets
    hrun).2.attached

/--
In every run of the event channel, and of the debug channel, in which an older loop writes
the sink only while the newest does not wait on its stream, the sink sends on that stream.
-/
theorem newest_stream_stays_attached (marshal : Flow.Datagram → Option String)
    (runtimeID : String) (wired : Bool) :
    (∀ acts s,
      Meets (EventChannel.step marshal) (fun s a => s.channel.sparesNewest a.actor = true)
        (.start runtimeID wired) acts →
      run (EventChannel.step marshal) (.start runtimeID wired) acts = some s →
      s.channel.StaysAttached runtimeID) ∧
    (∀ acts s,
      Meets DebugChannel.step (fun s a => s.channel.sparesNewest a.actor = true)
        (.start runtimeID) acts →
      run DebugChannel.step (.start runtimeID) acts = some s →
      s.channel.StaysAttached runtimeID) := by
  constructor
  · intro acts s hmeets hrun
    exact Channel.staysAttached_of_run EventChannel.runtimeID EventChannel.channel
      ChannelAction.actor (fun _ _ _ => EventChannel.step_channel) rfl hmeets hrun
  · intro acts s hmeets hrun
    exact Channel.staysAttached_of_run DebugChannel.runtimeID DebugChannel.channel
      DebugAction.actor (fun _ _ _ => DebugChannel.step_channel) rfl hmeets hrun

/-- The second session attaches its stream; the loop of the first detaches before or after it. -/
def reregistered (late : Bool) : List ChannelAction :=
  .register "t1" :: .loop 0 :: .loop 0 :: .cancel 0 :: .register "t2" :: .loop 1 ::
    if late then [.loop 1, .loop 0] else [.loop 0, .loop 1]

def reregisteredDebug (late : Bool) : List DebugAction :=
  .register "t1" :: .loop 0 :: .loop 0 :: .cancel 0 :: .register "t2" :: .loop 1 ::
    if late then [.loop 1, .loop 0] else [.loop 0, .loop 1]

theorem stream_attached_after_early_detach :
    ∃ s s', run (EventChannel.step fun _ => none) (.start "r" true) (reregistered false) = some s ∧
      run DebugChannel.step (.start "r") (reregisteredDebug false) = some s' ∧
      s.channel.newestWaits = true ∧ s'.channel.newestWaits = true ∧
      s.channel.StaysAttached "r" ∧ s'.channel.StaysAttached "r" := by
  obtain ⟨⟨s, hs, hwaits⟩, s', hs', hwaits'⟩ :
      (∃ s, run (EventChannel.step fun _ => none) (.start "r" true) (reregistered false) =
        some s ∧ s.channel.newestWaits = true) ∧
      ∃ s', run DebugChannel.step (.start "r") (reregisteredDebug false) = some s' ∧
        s'.channel.newestWaits = true := by
    decide +kernel
  obtain ⟨hattached, hattached'⟩ := newest_stream_stays_attached (fun _ => none) "r" true
  exact ⟨s, s', hs, hs', hwaits, hwaits', hattached _ s (by decide +kernel) hs,
    hattached' _ s' (by decide +kernel) hs'⟩

/-- The late detach of the first loop leaves the waiting second loop without a send function. -/
theorem late_detach_silences_new_stream :
    (run (EventChannel.step fun _ => none) (.start "r" true) (reregistered true)).any
        (fun s => s.channel.newestWaits && s.sink.send.isNone) = true ∧
      (run DebugChannel.step (.start "r") (reregisteredDebug true)).any
        (fun s => s.channel.newestWaits && s.sink.send.isNone) = true := by
  constructor
  · decide +kernel
  · decide +kernel

end DataPipe.RuntimeClient
