import DataPipe.RuntimeClient.SharedSink

/-!
# Subscriptions of the debug hub

`Hub` of `controlplane/internal/debughub/hub.go` with the `DebugSink` of every
runtime.  `Subscribe`, its cancel function and `attachRuntime` change the hub under
its lock and send afterwards, one stream after the other, so their sends interleave;
a runtime keeps its subscriptions when its stream breaks and it connects again.
-/

set_option linter.dupNamespace false

namespace DataPipe.ControlPlane

open DataPipe.Foundation DataPipe.RuntimeClient

/-- `Subscribe` or `Unsubscribe` for a flow. -/
structure Downlink where
  flowID : String
  subscribe : Bool
  deriving DecidableEq

/-- `Serve` of a stream; `sending` are the flows that `attachRuntime` has still to announce. -/
inductive ServePc where
  | waiting
  | sending (flows : List String)
  | ended
  deriving DecidableEq

structure HubStream where
  runtime : Nat
  alive : Bool := true
  pc : ServePc := .waiting
  inFlight : List Downlink := []

/-- `Send` of the stream, whose error is ignored. -/
def HubStream.send (stream : HubStream) (message : Downlink) : HubStream :=
  if stream.alive then { stream with inFlight := stream.inFlight ++ [message] } else stream

/-- A subscriber: the call of `Subscribe`, and later that of its cancel function. -/
structure HubCall where
  flowID : String
  present : Bool := true
  targets : List Nat

def HubCall.message (call : HubCall) : Downlink := ⟨call.flowID, call.present⟩

/-- `runtimes` and `refCount` are maps of the hub; `flows` are the keys of the second. -/
structure DebugHub where
  sinks : List DebugSink
  streams : List HubStream := []
  runtimes : Nat → Option Nat := fun _ => none
  flows : List String := []
  refCount : String → Int := fun _ => 0
  calls : List HubCall := []

inductive HubAction where
  | connect (runtime : Nat)
  | serve (k : Nat)
  | announce (k : Nat) (flowID : String)
  | receive (k : Nat)
  | fails (k : Nat)
  | ends (k : Nat)
  | subscribe (flowID : String)
  | cancel (index : Nat)
  | send (index k : Nat)

namespace DebugHub

def handles (s : DebugHub) : List Nat :=
  (List.range s.streams.length).filter fun k =>
    s.streams[k]?.any fun stream => s.runtimes stream.runtime = some k

def setStream (s : DebugHub) (k : Nat) (stream : HubStream) : DebugHub :=
  { s with streams := s.streams.set k stream }

/-- `attachRuntime`, up to the unlock -/
def attachRuntime (s : DebugHub) (k : Nat) (stream : HubStream) : DebugHub :=
  { s with
    runtimes := Function.update s.runtimes stream.runtime (some k)
    streams := s.streams.set k
      { stream with pc := .sending (s.flows.filter fun flowID => 0 < s.refCount flowID) } }

def detachRuntime (s : DebugHub) (k runtime : Nat) : Nat → Option Nat :=
  if s.runtimes runtime = some k then Function.update s.runtimes runtime none else s.runtimes

/-- `Subscribe`, up to the unlock -/
def subscribe (s : DebugHub) (flowID : String) : DebugHub :=
  { s with
    flows := s.flows.insert flowID
    refCount := Function.update s.refCount flowID (s.refCount flowID + 1)
    calls := s.calls ++
      [{ flowID, targets := if s.refCount flowID + 1 = 1 then s.handles else [] }] }

/-- `unsubscribe`, up to the unlock -/
def unsubscribe (s : DebugHub) (index : Nat) (call : HubCall) : DebugHub :=
  { s with
    refCount := Function.update s.refCount call.flowID (s.refCount call.flowID - 1)
    calls := s.calls.set index
      { call with
        present := false
        targets := if s.refCount call.flowID - 1 = 0 then s.handles else [] } }

/-- `handleDebugDownlink`, with the message taken off the stream -/
def handleDebugDownlink (s : DebugHub) (k : Nat) (stream : HubStream) (message : Downlink)
    (inFlight : List Downlink) (sink : DebugSink) : DebugHub :=
  { s with
    sinks := s.sinks.set stream.runtime (sink.setSubscribed message.flowID message.subscribe)
    streams := s.streams.set k { stream with inFlight } }

def step (s : DebugHub) : HubAction → Option DebugHub
  | .connect runtime =>
    if runtime < s.sinks.length then some { s with streams := s.streams ++ [{ runtime }] }
    else none
  | .serve k =>
    match s.streams[k]? with
    | none => none
    | some stream =>
      if stream.alive = true ∧ stream.pc = .waiting then some (s.attachRuntime k stream)
      else none
  | .announce k flowID =>
    match s.streams[k]? with
    | none => none
    | some stream =>
      match stream.pc with
      | .sending flows =>
        if flowID ∈ flows then
          some (s.setStream k
            ({ stream with pc := .sending (flows.erase flowID) }.send ⟨flowID, true⟩))
        else none
      | _ => none
  | .receive k =>
    match s.streams[k]? with
    | none => none
    | some stream =>
      match stream.inFlight, s.sinks[stream.runtime]? with
      | message :: inFlight, some sink =>
        some (s.handleDebugDownlink k stream message inFlight sink)
      | _, _ => none
  | .fails k =>
    match s.streams[k]? with
    | none => none
    | some stream => some (s.setStream k { stream with alive := false, inFlight := [] })
  | .ends k =>
    -- the stream has broken, and `Recv` of `Serve` returns an error
    match s.streams[k]? with
    | none => none
    | some stream =>
      if stream.alive then none
      else
        match stream.pc with
        | .waiting => some (s.setStream k { stream with pc := .ended })
        | .sending [] =>
          some { s.setStream k { stream with pc := .ended } with
            runtimes := s.detachRuntime k stream.runtime }
        | _ => none
  | .subscribe flowID => some (s.subscribe flowID)
  | .cancel index =>
    match s.calls[index]? with
    | none => none
    | some call =>
      -- the cancel function is there once `Subscribe` has returned
      if call.present = true ∧ call.targets = [] then some (s.unsubscribe index call)
      else none
  | .send index k =>
    match s.calls[index]? with
    | none => none
    | some call =>
      match s.streams[k]? with
      | none => none
      | some stream =>
        if k ∈ call.targets then
          some { s.setStream k (stream.send call.message) with
            calls := s.calls.set index { call with targets := call.targets.erase k } }
        else none

def start (runtimes : Nat) : DebugHub := { sinks := List.replicate runtimes {} }

end DebugHub

/-! ## Agreement -/

def HubStream.messages (stream : HubStream) : List Downlink :=
  stream.inFlight ++
    match stream.pc with
    | .sending flows => flows.map (⟨·, true⟩)
    | _ => []

@[simp] theorem HubStream.send_runtime (stream : HubStream) (message : Downlink) :
    (stream.send message).runtime = stream.runtime := by
  unfold HubStream.send
  split <;> rfl

@[simp] theorem HubStream.send_alive (stream : HubStream) (message : Downlink) :
    (stream.send message).alive = stream.alive := by
  unfold HubStream.send
  split <;> rfl

@[simp] theorem HubStream.send_pc (stream : HubStream) (message : Downlink) :
    (stream.send message).pc = stream.pc := by
  unfold HubStream.send
  split <;> rfl

theorem HubStream.mem_messages_send {stream : HubStream} {message other : Downlink} :
    other ∈ (stream.send message).messages ↔
      other ∈ stream.messages ∨ (stream.alive = true ∧ other = message) := by
  unfold HubStream.send
  split
  next halive =>
    simp only [HubStream.messages, List.mem_append, List.mem_singleton]
    tauto
  next halive => simp [halive]

namespace DebugHub

def Quiescent (s : DebugHub) : Prop :=
  (∀ stream ∈ s.streams, stream.messages = [] ∧ (stream.alive = false → stream.pc = .ended)) ∧
    ∀ call ∈ s.calls, call.targets = []

instance (s : DebugHub) : Decidable s.Quiescent := by
  unfold Quiescent
  infer_instance

def Agrees (s : DebugHub) : Prop :=
  ∀ runtime k sink, s.runtimes runtime = some k → s.sinks[runtime]? = some sink →
    ∀ flowID, flowID ∈ sink.subscribed ↔ 0 < s.refCount flowID

def quietAbout (s : DebugHub) (flowID : String) : Bool :=
  (s.streams.all fun stream => stream.messages.all fun message => message.flowID ≠ flowID) &&
    s.calls.all fun call => call.targets.isEmpty || call.flowID ≠ flowID

def holdersAttached (s : DebugHub) (flowID : String) : Bool :=
  (List.range s.sinks.length).all fun runtime =>
    (s.sinks[runtime]?.all fun sink => flowID ∉ sink.subscribed) ||
      (s.runtimes runtime).any fun k => s.streams[k]?.any HubStream.alive

/-- No `Unsubscribe` is to be sent or on its way on the stream. -/
def noneUnsubscribed (s : DebugHub) (k : Nat) : Bool :=
  (s.streams[k]?.all fun stream => stream.messages.all Downlink.subscribe) &&
    s.calls.all fun call => call.present || k ∉ call.targets

/--
The first subscriber of a flow joins, and the last one leaves, only when no message about it
is outstanding; the last one leaves only while every runtime that must be told is connected;
and a stream breaks only when nothing is to be unsubscribed on it.
-/
def Orderly (s : DebugHub) : HubAction → Bool
  | .subscribe flowID => s.refCount flowID ≠ 0 || s.quietAbout flowID
  | .cancel index =>
    s.calls[index]?.all fun call => s.refCount call.flowID ≠ 1 ||
      (s.quietAbout call.flowID && s.holdersAttached call.flowID)
  | .fails k => s.noneUnsubscribed k
  | _ => true

/-! ## What every message agrees with -/

def Pending (s : DebugHub) (k : Nat) (message : Downlink) : Prop :=
  ∃ call ∈ s.calls, k ∈ call.targets ∧ call.message = message

def Comes (s : DebugHub) (k : Nat) (message : Downlink) : Prop :=
  (∃ stream, s.streams[k]? = some stream ∧ message ∈ stream.messages) ∨ s.Pending k message

def Truthful (s : DebugHub) (message : Downlink) : Prop :=
  message.subscribe = true ↔ 0 < s.refCount message.flowID

def Reaches (s : DebugHub) (k runtime : Nat) : Prop :=
  ∃ stream, s.streams[k]? = some stream ∧ stream.runtime = runtime ∧ stream.alive = true

/-- The runtime lacks a flow that is watched, or has subscribed one that nobody watches. -/
def Differs (s : DebugHub) (runtime : Nat) (flowID : String) : Prop :=
  ∃ sink, s.sinks[runtime]? = some sink ∧ ¬ (flowID ∈ sink.subscribed ↔ 0 < s.refCount flowID)

/--
Outstanding messages say what the count says.  A runtime that lacks a watched flow will be told
on the live stream it is attached by; one that has subscribed a flow nobody watches will be told
on some live stream.
-/
structure Sound (s : DebugHub) : Prop where
  attached : ∀ {runtime k}, s.runtimes runtime = some k →
    ∃ stream, s.streams[k]? = some stream ∧ stream.runtime = runtime ∧
      ∃ flows, stream.pc = .sending flows
  known : ∀ {flowID}, 0 < s.refCount flowID → flowID ∈ s.flows
  truthful : ∀ {k message}, s.Comes k message → s.Truthful message
  watched : ∀ {runtime k flowID}, s.Differs runtime flowID → 0 < s.refCount flowID →
    s.runtimes runtime = some k → s.Reaches k runtime → ∃ on, s.Comes k ⟨flowID, on⟩
  unwatched : ∀ {runtime flowID}, s.Differs runtime flowID → ¬ 0 < s.refCount flowID →
    ∃ k, s.Reaches k runtime ∧ ∃ on, s.Comes k ⟨flowID, on⟩

theorem sound_start (runtimes : Nat) : (start runtimes).Sound where
  attached h := by cases h
  known h := absurd h (lt_irrefl _)
  truthful := by simp [Comes, Pending, start]
  watched _ h := absurd h (lt_irrefl _)
  unwatched := by
    rintro runtime flowID ⟨sink, hsink, hdiffers⟩
    obtain ⟨-, rfl⟩ := List.mem_replicate.mp (List.mem_of_getElem? hsink)
    exact absurd (iff_of_false List.not_mem_nil (lt_irrefl _)) hdiffers

variable {s s' : DebugHub} {k : Nat} {stream next : HubStream} {flowID : String}

theorem Sound.agrees (hs : s.Sound) (hquiet : s.Quiescent) : s.Agrees := by
  obtain ⟨hstreams, hcalls⟩ := hquiet
  have hnone : ∀ {k message}, ¬ s.Comes k message := by
    rintro k message (⟨stream, hstream, hmem⟩ | ⟨call, hcall, hk, -⟩)
    · rw [(hstreams stream (List.mem_of_getElem? hstream)).1] at hmem
      cases hmem
    · rw [hcalls call hcall] at hk
      cases hk
  intro runtime k sink hruntime hsink flowID
  obtain ⟨stream, hstream, hsame, flows, hpc⟩ := hs.attached hruntime
  have halive : stream.alive = true := by
    by_contra hdead
    have hended := (hstreams stream (List.mem_of_getElem? hstream)).2 (Bool.not_eq_true _ ▸ hdead)
    rw [hpc] at hended
    cases hended
  by_contra hdiffers
  by_cases hcount : 0 < s.refCount flowID
  · obtain ⟨on, hcomes⟩ := hs.watched ⟨sink, hsink, hdiffers⟩ hcount hruntime
      ⟨stream, hstream, hsame, halive⟩
    exact hnone hcomes
  · obtain ⟨k', -, on, hcomes⟩ := hs.unwatched ⟨sink, hsink, hdiffers⟩ hcount
    exact hnone hcomes

/-! ## Steps of the streams -/

/-- A stream loses only messages that its runtime needs no more, or breaks with subscriptions. -/
structure Turns (s s' : DebugHub) (k : Nat) (stream next : HubStream) : Prop where
  runtime : next.runtime = stream.runtime
  alive : next.alive = true → stream.alive = true
  breaks : stream.alive = true →
    next.alive = true ∨ ∀ message, s.Comes k message → 0 < s.refCount message.flowID
  keeps : next.alive = true → ∀ message ∈ stream.messages,
    s'.Differs stream.runtime message.flowID → message ∈ next.messages

/--
A step that puts `next` in the place of the stream `k`, or opens it, and leaves the counts as they
are; a runtime is only attached to a stream that tells it all.
-/
theorem Sound.of_turn {old : Option HubStream} (hs : s.Sound) (hold : s.streams[k]? = old)
    (hstreams : ∀ j, s'.streams[j]? = if j = k then some next else s.streams[j]?)
    (hcount : s'.refCount = s.refCount) (hflows : s'.flows = s.flows)
    (hcalls : ∀ {j message}, s'.Pending j message → s.Pending j message)
    (hpending : ∀ {j message}, s.Pending j message →
      s'.Pending j message ∨ (j = k ∧ (next.alive = true → message ∈ next.messages)))
    (hdiffers : ∀ {r flowID}, s'.Differs r flowID → s.Differs r flowID)
    (htruthful : ∀ message ∈ next.messages, s.Truthful message)
    (hturns : ∀ stream ∈ old, Turns s s' k stream next)
    (hattached : ∀ {r j}, s'.runtimes r = some j →
      (j = k → ∃ flows, next.pc = .sending flows) ∧
        (s.runtimes r = some j ∨ (j = k ∧ next.runtime = r ∧
          ∀ flowID, 0 < s.refCount flowID → ⟨flowID, true⟩ ∈ next.messages))) : s'.Sound := by
  have hnext : s'.streams[k]? = some next := by rw [hstreams, if_pos rfl]
  -- what comes on a live stream still comes on it
  have hkept : ∀ {j r flowID}, s'.Differs r flowID → s'.Reaches j r →
      (∃ on, s.Comes j ⟨flowID, on⟩) → ∃ on, s'.Comes j ⟨flowID, on⟩ := by
    rintro j r flowID hr ⟨new, hnew, rfl, halive⟩ ⟨on, ⟨stream, hstream, hmem⟩ | hcall⟩
    · refine ⟨on, .inl ⟨new, hnew, ?_⟩⟩
      rw [hstreams] at hnew
      split at hnew
      next hj =>
        subst hj
        obtain rfl := Option.some.inj hnew
        have hturn := hturns stream (hold.symm.trans hstream)
        exact hturn.keeps halive _ hmem (hturn.runtime ▸ hr)
      next => rwa [← Option.some.inj (hstream.symm.trans hnew)]
    · rcases hpending hcall with hcall | ⟨rfl, hmem⟩
      · exact ⟨on, .inr hcall⟩
      · obtain rfl := Option.mem_unique hnext hnew
        exact ⟨on, .inl ⟨next, hnew, hmem halive⟩⟩
  constructor
  case attached =>
    intro r j hr
    obtain ⟨hpc, hruntime | ⟨rfl, hsame, -⟩⟩ := hattached hr
    · obtain ⟨stream, hstream, hsame, hpc'⟩ := hs.attached hruntime
      by_cases hj : j = k
      · subst hj
        have hturn := hturns stream (hold.symm.trans hstream)
        exact ⟨next, hnext, hturn.runtime.trans hsame, hpc rfl⟩
      · exact ⟨stream, by rwa [hstreams, if_neg hj], hsame, hpc'⟩
    · exact ⟨next, hnext, hsame, hpc rfl⟩
  case known =>
    rw [hcount, hflows]
    exact hs.known
  case truthful =>
    intro j message hcomes
    rw [Truthful, hcount]
    rcases hcomes with ⟨new, hnew, hmem⟩ | hcall
    · rw [hstreams] at hnew
      split at hnew
      next =>
        obtain rfl := Option.some.inj hnew
        exact htruthful message hmem
      next => exact hs.truthful (.inl ⟨new, hnew, hmem⟩)
    · exact hs.truthful (.inr (hcalls hcall))
  case watched =>
    rw [hcount]
    intro r j flowID hr hpos hj hreach
    rcases (hattached hj).2 with hruntime | ⟨rfl, -, htold⟩
    · refine hkept hr hreach (hs.watched (hdiffers hr) hpos hruntime ?_)
      obtain ⟨new, hnew, hsame, halive⟩ := hreach
      obtain ⟨old', hold', hsame', -⟩ := hs.attached hruntime
      rw [hstreams] at hnew
      split at hnew
      next heq =>
        subst heq
        obtain rfl := Option.some.inj hnew
        exact ⟨old', hold', hsame', (hturns old' (hold.symm.trans hold')).alive halive⟩
      next => exact ⟨new, hnew, hsame, halive⟩
    · exact ⟨true, .inl ⟨next, hnext, htold flowID hpos⟩⟩
  case unwatched =>
    rw [hcount]
    intro r flowID hr hzero
    obtain ⟨j, ⟨stream, hstream, hsame, halive⟩, on, hcomes⟩ := hs.unwatched (hdiffers hr) hzero
    have hreach : s'.Reaches j r := by
      by_cases hj : j = k
      · subst hj
        have hturn := hturns stream (hold.symm.trans hstream)
        exact ⟨next, hnext, hturn.runtime.trans hsame,
          (hturn.breaks halive).resolve_right fun h => hzero (h _ hcomes)⟩
      · exact ⟨stream, by rwa [hstreams, if_neg hj], hsame, halive⟩
    exact ⟨j, hreach, hkept hr hreach ⟨on, hcomes⟩⟩

theorem Sound.sends {r j : Nat} (hs : s.Sound) (hstream : s.streams[k]? = some stream)
    (hr : s.runtimes r = some j) (hj : j = k) : ∃ flows, stream.pc = .sending flows := by
  subst hj
  obtain ⟨old, hold, -, hpc⟩ := hs.attached hr
  rwa [Option.some.inj (hstream.symm.trans hold)]

theorem sound_connect (hs : s.Sound) (runtime : Nat) :
    Sound { s with streams := s.streams ++ [{ runtime }] } := by
  refine hs.of_turn (List.getElem?_eq_none le_rfl) (getElem?_concat_eq_ite _ _) rfl rfl id .inl id
    (by simp [HubStream.messages]) nofun ?_
  intro r j hr
  obtain ⟨stream, hstream, -⟩ := hs.attached hr
  exact ⟨fun heq => absurd heq (List.getElem?_eq_some_iff.mp hstream).1.ne, .inl hr⟩

theorem sound_serve (hs : s.Sound) (hstream : s.streams[k]? = some stream)
    (hpc : stream.pc = .waiting) : (s.attachRuntime k stream).Sound := by
  have hmessages : stream.messages = stream.inFlight := by
    rw [HubStream.messages, hpc, List.append_nil]
  refine hs.of_turn hstream (getElem?_set_eq_ite hstream _) rfl rfl id .inl id ?_ ?_ ?_
  · intro message hmem
    rcases List.mem_append.mp hmem with hmem | hmem
    · exact hs.truthful (.inl ⟨stream, hstream, hmessages ▸ hmem⟩)
    · obtain ⟨flowID, hflow, rfl⟩ := List.mem_map.mp hmem
      exact iff_of_true rfl (of_decide_eq_true (List.mem_filter.mp hflow).2)
  · rintro _ ⟨⟩
    refine ⟨rfl, id, .inl, ?_⟩
    intro _ message hmem _
    exact List.mem_append_left _ (hmessages ▸ hmem)
  · intro r j hr
    refine ⟨fun _ => ⟨_, rfl⟩, ?_⟩
    have hupdate : Function.update s.runtimes stream.runtime (some k) r = some j := hr
    rw [Function.update_apply] at hupdate
    split at hupdate
    next hself =>
      refine .inr ⟨(Option.some.inj hupdate).symm, hself.symm, ?_⟩
      intro flowID hpos
      refine List.mem_append_right _ (List.mem_map_of_mem (List.mem_filter.mpr ?_))
      exact ⟨hs.known hpos, decide_eq_true hpos⟩
    next => exact .inl hupdate

theorem sound_announce {flows : List String} (hs : s.Sound) (hstream : s.streams[k]? = some stream)
    (hpc : stream.pc = .sending flows) (hflow : flowID ∈ flows) :
    (s.setStream k
      ({ stream with pc := .sending (flows.erase flowID) }.send ⟨flowID, true⟩)).Sound := by
  have hmem : ∀ {message}, message ∈ stream.messages ↔
      message ∈ stream.inFlight ∨ ∃ other ∈ flows, ⟨other, true⟩ = message := by
    intro message
    rw [HubStream.messages, hpc, List.mem_append, List.mem_map]
  have hrest : ∀ {message},
      message ∈ HubStream.messages { stream with pc := .sending (flows.erase flowID) } ↔
        message ∈ stream.inFlight ∨ ∃ other ∈ flows.erase flowID, ⟨other, true⟩ = message := by
    intro message
    rw [HubStream.messages, List.mem_append, List.mem_map]
  refine hs.of_turn hstream (getElem?_set_eq_ite hstream _) rfl rfl id .inl id ?_ ?_
    fun hr => ⟨fun _ => ⟨_, HubStream.send_pc _ _⟩, .inl hr⟩
  · intro message hnew
    refine hs.truthful (.inl ⟨stream, hstream, hmem.mpr ?_⟩)
    rw [HubStream.mem_messages_send, hrest] at hnew
    rcases hnew with (hold | ⟨other, hother, rfl⟩) | ⟨-, rfl⟩
    · exact .inl hold
    · exact .inr ⟨other, List.mem_of_mem_erase hother, rfl⟩
    · exact .inr ⟨flowID, hflow, rfl⟩
  · rintro _ ⟨⟩
    refine ⟨by simp, by simp, fun h => .inl ((HubStream.send_alive _ _).trans h), ?_⟩
    intro halive message hold _
    rw [HubStream.mem_messages_send, hrest]
    rcases hmem.mp hold with hold | ⟨other, hother, rfl⟩
    · exact .inl (.inl hold)
    · by_cases hself : other = flowID
      · exact .inr ⟨by simpa using halive, by rw [hself]⟩
      · exact .inl (.inr ⟨other, (List.mem_erase_of_ne hself).mpr hother, rfl⟩)

theorem sound_ends {runtimes : Nat → Option Nat} (hs : s.Sound)
    (hstream : s.streams[k]? = some stream)
    (hsub : ∀ flows, stream.pc = .sending flows → flows = [])
    (hattached : ∀ {r j}, runtimes r = some j → s.runtimes r = some j ∧ j ≠ k) :
    Sound { s.setStream k { stream with pc := .ended } with runtimes } := by
  have hmessages : HubStream.messages { stream with pc := .ended } = stream.messages := by
    cases hpc : stream.pc with
    | waiting | ended => simp [HubStream.messages, hpc]
    | sending flows => simp [HubStream.messages, hpc, hsub flows hpc]
  refine hs.of_turn hstream (getElem?_set_eq_ite hstream _) rfl rfl id .inl id ?_ ?_ ?_
  · intro message hmem
    exact hs.truthful (.inl ⟨stream, hstream, hmessages ▸ hmem⟩)
  · rintro _ ⟨⟩
    exact ⟨rfl, id, .inl, fun _ message hmem _ => hmessages ▸ hmem⟩
  · intro r j hr
    obtain ⟨hold, hne⟩ := hattached hr
    exact ⟨fun heq => absurd heq hne, .inl hold⟩

theorem sound_fails (hs : s.Sound) (hstream : s.streams[k]? = some stream)
    (hnone : s.noneUnsubscribed k = true) :
    (s.setStream k { stream with alive := false, inFlight := [] }).Sound := by
  simp only [noneUnsubscribed, hstream, Option.all_some, Bool.and_eq_true, List.all_eq_true,
    Bool.or_eq_true, decide_eq_true_eq] at hnone
  -- only subscriptions are lost
  have hlost : ∀ message, s.Comes k message → 0 < s.refCount message.flowID := by
    intro message hcomes
    refine (hs.truthful hcomes).mp ?_
    rcases hcomes with ⟨stream', hstream', hmem⟩ | ⟨call, hcall, hk, rfl⟩
    · obtain rfl := Option.mem_unique hstream hstream'
      exact hnone.1 message hmem
    · exact (hnone.2 call hcall).resolve_right (not_not.mpr hk)
  refine hs.of_turn hstream (getElem?_set_eq_ite hstream _) rfl rfl id .inl id ?_ ?_
    fun hr => ⟨(hs.sends hstream hr :), .inl hr⟩
  · intro message hmem
    exact hs.truthful (.inl ⟨stream, hstream, List.mem_append_right _ hmem⟩)
  · rintro _ ⟨⟩
    exact ⟨rfl, nofun, fun _ => .inr hlost, nofun⟩

variable {call : HubCall} {sink : DebugSink} {index : Nat}

theorem sound_send (hs : s.Sound) (hcall : s.calls[index]? = some call)
    (hstream : s.streams[k]? = some stream) (hk : k ∈ call.targets) :
    Sound { s.setStream k (stream.send call.message) with
      calls := s.calls.set index { call with targets := call.targets.erase k } } := by
  refine hs.of_turn hstream (getElem?_set_eq_ite hstream _) rfl rfl ?_ ?_ id ?_ ?_ ?_
  · rintro j message ⟨other, hother, hj, rfl⟩
    rcases List.mem_or_eq_of_mem_set hother with hold | rfl
    · exact ⟨other, hold, hj, rfl⟩
    · exact ⟨call, List.mem_of_getElem? hcall, List.mem_of_mem_erase hj, rfl⟩
  · rintro j message ⟨other, hother, hj, rfl⟩
    by_cases hself : other = call
    · subst hself
      by_cases hjk : j = k
      · refine .inr ⟨hjk, fun halive => HubStream.mem_messages_send.mpr (.inr ⟨?_, rfl⟩)⟩
        exact (HubStream.send_alive _ _).symm.trans halive
      · exact .inl ⟨_, mem_set_of_getElem? hcall _, (List.mem_erase_of_ne hjk).mpr hj, rfl⟩
    · exact .inl ⟨other, mem_set_of_ne hcall hother hself _, hj, rfl⟩
  · intro message hmem
    rcases HubStream.mem_messages_send.mp hmem with hmem | ⟨-, rfl⟩
    · exact hs.truthful (.inl ⟨stream, hstream, hmem⟩)
    · exact hs.truthful (.inr ⟨call, List.mem_of_getElem? hcall, hk, rfl⟩)
  · rintro _ ⟨⟩
    refine ⟨by simp, by simp, fun h => .inl ((HubStream.send_alive _ _).trans h), ?_⟩
    intro _ message hmem _
    exact HubStream.mem_messages_send.mpr (.inl hmem)
  · intro r j hr
    rw [HubStream.send_pc]
    exact ⟨(hs.sends hstream hr :), .inl hr⟩

/-! ## A message arrives -/

theorem mem_setSubscribed {other : String} {on : Bool} :
    other ∈ (sink.setSubscribed flowID on).subscribed ↔
      if other = flowID then on = true else other ∈ sink.subscribed := by
  rw [DebugSink.setSubscribed]
  cases on with
  | true =>
    simp only [if_true, List.mem_insert_iff]
    split
    next heq => exact iff_of_true (.inl heq) trivial
    next hne => exact or_iff_right hne
  | false =>
    simp only [Bool.false_eq_true, if_false, List.mem_filter, decide_eq_true_eq]
    split
    next heq => exact iff_of_false (fun h => h.2 heq) id
    next hne => exact and_iff_left hne

theorem sound_receive {message : Downlink} {inFlight : List Downlink} (hs : s.Sound)
    (hstream : s.streams[k]? = some stream) (hflight : stream.inFlight = message :: inFlight)
    (hsink : s.sinks[stream.runtime]? = some sink) :
    (s.handleDebugDownlink k stream message inFlight sink).Sound := by
  have hmessages : ∀ {other}, other ∈ stream.messages ↔
      other = message ∨ other ∈ HubStream.messages { stream with inFlight } := by
    intro other
    rw [HubStream.messages, hflight, List.cons_append, List.mem_cons]
    rfl
  have htruthful := hs.truthful (.inl ⟨stream, hstream, hmessages.mpr (.inl rfl)⟩)
  -- what the runtime is told is right afterwards
  have hdiffers : ∀ {r flowID},
      (s.handleDebugDownlink k stream message inFlight sink).Differs r flowID →
      s.Differs r flowID ∧ (r = stream.runtime → flowID ≠ message.flowID) := by
    rintro r flowID ⟨sink', hsink', hdiffers⟩
    rcases getElem?_set_eq_some hsink' with ⟨rfl, rfl⟩ | ⟨hne, hold⟩
    · rw [mem_setSubscribed] at hdiffers
      split at hdiffers
      next heq =>
        subst heq
        exact absurd htruthful hdiffers
      next hne => exact ⟨⟨sink, hsink, hdiffers⟩, fun _ => hne⟩
    · exact ⟨⟨sink', hold, hdiffers⟩, fun heq => absurd heq hne⟩
  refine hs.of_turn hstream (getElem?_set_eq_ite hstream _) rfl rfl id .inl
    (fun h => (hdiffers h).1) ?_ ?_ fun hr => ⟨(hs.sends hstream hr :), .inl hr⟩
  · intro other hmem
    exact hs.truthful (.inl ⟨stream, hstream, hmessages.mpr (.inr hmem)⟩)
  · rintro _ ⟨⟩
    refine ⟨rfl, id, .inl, ?_⟩
    intro _ other hmem hother
    refine (hmessages.mp hmem).resolve_left ?_
    rintro rfl
    exact (hdiffers hother).2 rfl rfl

/-! ## Subscribers come and go -/

theorem not_comes_of_quietAbout (h : s.quietAbout flowID = true) (on : Bool) :
    ¬ s.Comes k ⟨flowID, on⟩ := by
  simp only [quietAbout, Bool.and_eq_true, List.all_eq_true, decide_eq_true_eq, Bool.or_eq_true,
    List.isEmpty_iff] at h
  rintro (⟨stream, hstream, hmem⟩ | ⟨call, hcall, hk, hmessage⟩)
  · exact h.1 stream (List.mem_of_getElem? hstream) _ hmem rfl
  · exact (h.2 call hcall).elim (List.ne_nil_of_mem hk) (· (congrArg Downlink.flowID hmessage))

variable {runtime : Nat}

theorem mem_handles (hs : s.Sound) (h : s.runtimes runtime = some k) : k ∈ s.handles := by
  obtain ⟨stream, hstream, rfl, -⟩ := hs.attached h
  refine List.mem_filter.mpr ⟨List.mem_range.mpr (List.getElem?_eq_some_iff.mp hstream).1, ?_⟩
  rw [hstream, Option.any_some, h]
  exact decide_eq_true rfl

theorem reaches_of_holdersAttached (hs : s.Sound) (h : s.holdersAttached flowID = true)
    (hsink : s.sinks[runtime]? = some sink) (hmem : flowID ∈ sink.subscribed) :
    ∃ k, s.runtimes runtime = some k ∧ s.Reaches k runtime := by
  simp only [holdersAttached, List.all_eq_true, List.mem_range] at h
  have hholder := h runtime (List.getElem?_eq_some_iff.mp hsink).1
  simp only [hsink, Option.all_some, hmem]
    at hholder
  obtain ⟨k, hk, halive⟩ := (Option.any_eq_true _ _).mp hholder
  obtain ⟨stream, hstream, hruntime, -⟩ := hs.attached hk
  rw [hstream] at halive
  exact ⟨k, hk, stream, hstream, hruntime, halive⟩

/-- One call changes the count of its flow; where that turns the flow on or off, it tells all. -/
theorem Sound.of_count {count : Int} (hs : s.Sound) (hsinks : s'.sinks = s.sinks)
    (hstreams : s'.streams = s.streams) (hruntimes : s'.runtimes = s.runtimes)
    (hcall : call ∈ s'.calls) (hcount : s'.refCount = Function.update s.refCount call.flowID count)
    (hknown : ∀ {flowID}, 0 < s'.refCount flowID → flowID ∈ s'.flows)
    (hcalls : ∀ other ∈ s'.calls, other = call ∨ other ∈ s.calls)
    (hkept : ∀ other ∈ s.calls, other.targets ≠ [] → other ∈ s'.calls)
    (htruthful : call.targets ≠ [] → (call.present = true ↔ 0 < count))
    (hturned : (0 < count ↔ 0 < s.refCount call.flowID) ∨
      (s.quietAbout call.flowID = true ∧ call.targets = s.handles ∧
        (0 < count ∨ s.holdersAttached call.flowID = true))) : s'.Sound := by
  obtain rfl : s'.refCount call.flowID = count := hcount ▸ Function.update_self ..
  have hsame : ∀ flowID, (0 < s'.refCount flowID ↔ 0 < s.refCount flowID) ∨
      (flowID = call.flowID ∧ s.quietAbout call.flowID = true ∧ call.targets = s.handles ∧
        (0 < s'.refCount call.flowID ∨ s.holdersAttached call.flowID = true)) := by
    intro flowID
    by_cases heq : flowID = call.flowID
    · subst heq
      exact hturned.imp_right fun h => ⟨rfl, h⟩
    · rw [hcount, Function.update_of_ne heq]
      exact .inl Iff.rfl
  have hcomes : ∀ {k message}, s.Comes k message → s'.Comes k message := by
    rintro k message (hstream | ⟨other, hother, hk, rfl⟩)
    · exact .inl (hstreams ▸ hstream)
    · exact .inr ⟨other, hkept other hother (List.ne_nil_of_mem hk), hk, rfl⟩
  have hreaches : ∀ {k runtime}, s'.Reaches k runtime ↔ s.Reaches k runtime := by
    simp [Reaches, hstreams]
  constructor
  case attached =>
    rw [hruntimes, hstreams]
    exact hs.attached
  case known => exact hknown
  case truthful =>
    have hold : ∀ {k message}, s.Comes k message → s'.Truthful message := by
      intro k message h
      rcases hsame message.flowID with hsame | ⟨heq, hquiet, -⟩
      · exact (hs.truthful h).trans hsame.symm
      · exact absurd h (not_comes_of_quietAbout (heq ▸ hquiet) message.subscribe)
    rintro k message (hstream | ⟨other, hother, hk, rfl⟩)
    · exact hold (.inl (hstreams ▸ hstream))
    · rcases hcalls other hother with rfl | hother
      · exact htruthful (List.ne_nil_of_mem hk)
      · exact hold (.inr ⟨other, hother, hk, rfl⟩)
  case watched =>
    rw [hruntimes]
    rintro runtime k flowID ⟨sink, hsink, hdiffers⟩ hpos hruntime hreach
    rw [hreaches] at hreach
    rcases hsame flowID with hsame | ⟨rfl, -, htargets, -⟩
    · rw [hsinks] at hsink
      rw [hsame] at hdiffers hpos
      obtain ⟨on, hold⟩ := hs.watched ⟨sink, hsink, hdiffers⟩ hpos hruntime hreach
      exact ⟨on, hcomes hold⟩
    · exact ⟨_, .inr ⟨call, hcall, htargets ▸ mem_handles hs hruntime, rfl⟩⟩
  case unwatched =>
    rintro runtime flowID ⟨sink, hsink, hdiffers⟩ hzero
    rw [hsinks] at hsink
    simp only [hreaches]
    rcases hsame flowID with hsame | ⟨rfl, -, htargets, hholders⟩
    · rw [hsame] at hdiffers hzero
      obtain ⟨k, hreach, on, hold⟩ := hs.unwatched ⟨sink, hsink, hdiffers⟩ hzero
      exact ⟨k, hreach, on, hcomes hold⟩
    · have hmem : call.flowID ∈ sink.subscribed := by
        by_contra hmem
        exact hdiffers (iff_of_false hmem hzero)
      obtain ⟨k, hk, hreach⟩ := reaches_of_holdersAttached hs
        (hholders.resolve_left hzero) hsink hmem
      exact ⟨k, hreach, _, .inr ⟨call, hcall, htargets ▸ mem_handles hs hk, rfl⟩⟩

theorem sound_subscribe (hs : s.Sound) (flowID : String)
    (horderly : s.refCount flowID ≠ 0 ∨ s.quietAbout flowID = true) :
    (s.subscribe flowID).Sound := by
  refine hs.of_count rfl rfl rfl (List.mem_append_right _ (List.mem_singleton.mpr rfl)) rfl
    ?_ ?_ ?_ ?_ ?_
  · intro other hpos
    by_cases hne : other = flowID
    · exact List.mem_insert_iff.mpr (.inl hne)
    · exact List.mem_insert_iff.mpr (.inr (hs.known (by simpa [subscribe, hne] using hpos)))
  · intro other hother
    exact (List.mem_append.mp hother).symm.imp_left List.mem_singleton.mp
  · intro other hother _
    exact List.mem_append_left _ hother
  · intro htargets
    have hfirst : s.refCount flowID + 1 = 1 := by
      by_contra hmore
      exact htargets (if_neg hmore)
    exact iff_of_true rfl (by omega)
  · by_cases hcount : s.refCount flowID = 0
    · exact .inr ⟨horderly.resolve_left (not_not.mpr hcount), if_pos (by omega), .inl (by omega)⟩
    · left
      dsimp only
      omega

theorem sound_cancel (hs : s.Sound) (hcall : s.calls[index]? = some call)
    (htargets : call.targets = [])
    (horderly : s.refCount call.flowID ≠ 1 ∨
      (s.quietAbout call.flowID = true ∧ s.holdersAttached call.flowID = true)) :
    (s.unsubscribe index call).Sound := by
  refine hs.of_count rfl rfl rfl (mem_set_of_getElem? hcall _) rfl ?_ ?_ ?_ ?_ ?_
  · intro other hpos
    refine hs.known (lt_of_lt_of_le hpos ?_)
    simp only [unsubscribe, Function.update_apply]
    split
    next heq =>
      subst heq
      omega
    next => exact le_rfl
  · intro other hother
    exact (List.mem_or_eq_of_mem_set hother).symm
  · intro other hother hsome
    exact mem_set_of_ne hcall hother (fun heq => hsome (heq ▸ htargets)) _
  · intro hsome
    have hlast : s.refCount call.flowID - 1 = 0 := by
      by_contra hmore
      exact hsome (if_neg hmore)
    exact iff_of_false Bool.false_ne_true (by omega)
  · by_cases hcount : s.refCount call.flowID = 1
    · obtain ⟨hquiet, hholders⟩ := horderly.resolve_left (not_not.mpr hcount)
      exact .inr ⟨hquiet, if_pos (by omega), .inr hholders⟩
    · left
      dsimp only
      omega

/-! ## Runs -/

theorem detachRuntime_eq_some (hs : s.Sound) (hstream : s.streams[k]? = some stream) {r j : Nat}
    (h : s.detachRuntime k stream.runtime r = some j) : s.runtimes r = some j ∧ j ≠ k := by
  have hkept : s.runtimes r = some j ∧
      ¬ (r = stream.runtime ∧ s.runtimes stream.runtime = some k) := by
    rw [detachRuntime] at h
    split at h
    · rw [Function.update_apply] at h
      split at h
      · cases h
      next hne => exact ⟨h, fun hself => hne hself.1⟩
    next hnot => exact ⟨h, fun hself => hnot hself.2⟩
  refine ⟨hkept.1, ?_⟩
  rintro rfl
  obtain ⟨old, hold, hruntime, -⟩ := hs.attached hkept.1
  obtain rfl := Option.mem_unique hstream hold
  subst hruntime
  exact hkept.2 ⟨rfl, hkept.1⟩

theorem sound_step {a : HubAction} (hs : s.Sound) (horderly : s.Orderly a = true)
    (h : s.step a = some s') : s'.Sound := by
  revert h
  fun_cases step s a <;> rintro ⟨⟩
  next runtime _ => exact sound_connect hs runtime
  next hstream hwaiting => exact sound_serve hs hstream hwaiting.2
  next hstream _ hpc hflow => exact sound_announce hs hstream hpc hflow
  next hstream _ _ _ hsink hflight => exact sound_receive hs hstream hflight hsink
  next hstream => exact sound_fails hs hstream horderly
  next hstream _ hpc =>
    refine sound_ends hs hstream (by simp [hpc]) ?_
    intro r j hr
    refine ⟨hr, ?_⟩
    rintro rfl
    obtain ⟨old, hold, -, flows, hsending⟩ := hs.attached hr
    obtain rfl := Option.mem_unique hstream hold
    rw [hpc] at hsending
    cases hsending
  next hstream _ hpc =>
    exact sound_ends hs hstream (by simp [hpc]) (detachRuntime_eq_some hs hstream)
  next flowID => exact sound_subscribe hs flowID (by simpa [Orderly] using horderly)
  next hcall hreturned =>
    exact sound_cancel hs hcall hreturned.2 (by simpa [Orderly, hcall] using horderly)
  next hcall _ hstream hk => exact sound_send hs hcall hstream hk

end DebugHub

/--
In every run whose steps are orderly, every quiescent state agrees: an attached runtime has
subscribed exactly the flows with a positive count.
-/
theorem subscriptions_agree (runtimes : Nat) (acts : List HubAction) (s : DebugHub)
    (hmeets : Meets DebugHub.step (fun s a => s.Orderly a = true) (.start runtimes) acts)
    (hrun : run DebugHub.step (.start runtimes) acts = some s) (hquiet : s.Quiescent) : s.Agrees :=
  (run_invariant_of_meets DebugHub.sound_step (DebugHub.sound_start runtimes) hmeets
    hrun).agrees hquiet

def watchOneOfTwo : List HubAction :=
  [.connect 0, .serve 0, .subscribe "f", .send 0 0, .receive 0, .subscribe "g", .send 1 0,
    .receive 0, .cancel 0, .send 0 0, .receive 0]

theorem one_of_two_flows_watched :
    ∃ s, run DebugHub.step (.start 1) watchOneOfTwo = some s ∧ s.Quiescent ∧
      s.runtimes 0 = some 0 ∧ s.refCount "g" = 1 ∧ s.Agrees := by
  refine exists_some_imp (fun s => s.Quiescent ∧ s.runtimes 0 = some 0 ∧ s.refCount "g" = 1)
    (by decide +kernel) ?_
  rintro s hs ⟨hquiet, hattached, hcount⟩
  exact ⟨hquiet, hattached, hcount, subscriptions_agree 1 _ s (by decide +kernel) hs hquiet⟩

def cancelledWhileAway : List HubAction :=
  [.connect 0, .serve 0, .subscribe "f", .send 0 0, .receive 0, .fails 0, .ends 0, .cancel 0,
    .connect 0, .serve 1]

def overtaken : List HubAction :=
  [.connect 0, .serve 0, .subscribe "f", .send 0 0, .receive 0, .cancel 0, .subscribe "f",
    .send 1 0, .send 0 0, .receive 0, .receive 0]

theorem subscriptions_disagree :
    (∃ s, run DebugHub.step (.start 1) cancelledWhileAway = some s ∧ s.Quiescent ∧
      ¬ s.Agrees) ∧
    (∃ s, run DebugHub.step (.start 1) overtaken = some s ∧ s.Quiescent ∧ ¬ s.Agrees) := by
  constructor
  · refine exists_some_imp (fun s => s.Quiescent ∧ s.runtimes 0 = some 1 ∧
      (∃ sink : DebugSink, s.sinks[0]? = some sink ∧ "f" ∈ sink.subscribed) ∧ s.refCount "f" = 0)
      (by decide +kernel) ?_
    rintro s - ⟨hquiet, hattached, ⟨sink, hsink, hsubscribed⟩, hcount⟩
    refine ⟨hquiet, fun hagrees => ?_⟩
    have hpos := (hagrees 0 1 sink hattached hsink "f").mp hsubscribed
    exact hpos.ne' hcount
  · refine exists_some_imp (fun s => s.Quiescent ∧ s.runtimes 0 = some 0 ∧
      (∃ sink : DebugSink, s.sinks[0]? = some sink ∧ "f" ∉ sink.subscribed) ∧ 0 < s.refCount "f")
      (by decide +kernel) ?_
    rintro s - ⟨hquiet, hattached, ⟨sink, hsink, hsubscribed⟩, hcount⟩
    exact ⟨hquiet, fun hagrees =>
      hsubscribed ((hagrees 0 0 sink hattached hsink "f").mpr hcount)⟩

end DataPipe.ControlPlane
