import DataPipe.ControlPlane.Requests

/-!
# Deploy streams

`Register`, `DeployStream` and `DeployFlow` of `controlplane/internal/registry/registry.go`
beside the requests that call `DeployFlow`.  A stream publishes its channel, looks up its group,
lists the deployed flows, queues them and sends what is queued; `DeployFlow` takes a snapshot of
the published channels, filters it by group and pushes.  A section under the registry's mutex
is one step.
-/

set_option linter.dupNamespace false

namespace DataPipe.ControlPlane

open DataPipe.Foundation DataPipe.Flow

def deployChanBuffer : Nat := 8

structure Command where
  flowID : String
  version : Nat
  flowJSON : List Char
  defaultErrorFlow : String
  logLevel : String
  resolvedEnv : KeyMap String

def DeployFlowCall.command (call : DeployFlowCall) : Command where
  flowID := call.flowID
  version := call.version
  flowJSON := call.flowJSON
  defaultErrorFlow := call.defaultErrorFlow
  logLevel := call.logLevel
  resolvedEnv := call.resolvedEnv

def DeployedFlow.command (f : DeployedFlow) : Command where
  flowID := f.flowID
  version := f.version
  flowJSON := f.contentJSON
  defaultErrorFlow := f.defaultErrorFlow
  logLevel := f.logLevel
  resolvedEnv := f.resolvedEnv

structure Channel where
  runtimeID : String
  queue : List Command := []
  sent : List Command := []

def Channel.history (c : Channel) : List Command := c.sent ++ c.queue

structure RuntimeState where
  sessionToken : String
  deployCh : Option Nat := none

structure Hub where
  runtimes : AList (fun _ : String => RuntimeState) := ∅
  channels : List Channel := []

structure Fleet where
  deviceStore : Option (String → String)

namespace Fleet

variable (fleet : Fleet)

def group (runtimeID : String) : String :=
  match fleet.deviceStore with
  | none => ""
  | some groupOf => groupOf runtimeID

/-- The filter of `DeployFlow`; the lookup of the group may fail. -/
def accepts (ok : Bool) (targetGroup runtimeID : String) : Bool :=
  targetGroup = "" ||
    match fleet.deviceStore with
    | none => false
    | some groupOf => ok && groupOf runtimeID = targetGroup

end Fleet

namespace Hub

variable (hub : Hub)

def register (runtimeID sessionToken : String) : Hub :=
  { hub with runtimes := hub.runtimes.insert runtimeID { sessionToken } }

def publish (runtimeID : String) (rt : RuntimeState) : Hub where
  runtimes := hub.runtimes.insert runtimeID { rt with deployCh := some hub.channels.length }
  channels := hub.channels ++ [{ runtimeID }]

def unpublish (runtimeID : String) (ch : Nat) : Hub :=
  match hub.runtimes.lookup runtimeID with
  | none => hub
  | some rt =>
    if rt.deployCh = some ch then
      { hub with runtimes := hub.runtimes.insert runtimeID { rt with deployCh := none } }
    else hub

def candidates : List (String × Nat) :=
  hub.runtimes.entries.filterMap fun entry => entry.2.deployCh.map fun ch => (entry.1, ch)

def offer (ch : Nat) (cmd : Command) : Option Hub :=
  match hub.channels[ch]? with
  | none => none
  | some c =>
    if c.queue.length < deployChanBuffer then
      some { hub with channels := hub.channels.set ch { c with queue := c.queue ++ [cmd] } }
    else none

def send (ch : Nat) : Option Hub :=
  match hub.channels[ch]? with
  | none => none
  | some c =>
    match c.queue with
    | [] => none
    | cmd :: queue =>
      some { hub with
        channels := hub.channels.set ch { c with queue, sent := c.sent ++ [cmd] } }

end Hub

namespace Hub

variable {hub hub' : Hub} {ch other : Nat} {cmd : Command} (runtimeID : String) (rt : RuntimeState)

def historyOf (hub : Hub) (ch : Nat) : List Command :=
  match hub.channels[ch]? with
  | none => []
  | some c => c.history

def ownerOf (hub : Hub) (ch : Nat) : Option String := hub.channels[ch]?.map Channel.runtimeID

theorem offer_eq_some : hub.offer ch cmd = some hub' ↔
      ∃ c, hub.channels[ch]? = some c ∧ c.queue.length < deployChanBuffer ∧
        hub' = { hub with
          channels := hub.channels.set ch { c with queue := c.queue ++ [cmd] } } := by
  unfold offer
  cases hub.channels[ch]? with
  | none => simp
  | some c =>
    by_cases hroom : c.queue.length < deployChanBuffer
    · simp [eq_comm]
    · simp [hroom]

theorem send_eq_some :
    hub.send ch = some hub' ↔
      ∃ c cmd queue, hub.channels[ch]? = some c ∧ c.queue = cmd :: queue ∧
        hub' = { hub with
          channels := hub.channels.set ch { c with queue, sent := c.sent ++ [cmd] } } := by
  unfold send
  cases hub.channels[ch]? with
  | none => simp
  | some c =>
    cases hqueue : c.queue with
    | nil => simp [hqueue]
    | cons cmd queue => simp [hqueue, eq_comm]

theorem historyOf_offer (hoffer : hub.offer ch cmd = some hub') (other : Nat) :
    hub'.historyOf other = hub.historyOf other ++ if other = ch then [cmd] else [] := by
  obtain ⟨c, hc, -, rfl⟩ := offer_eq_some.mp hoffer
  unfold historyOf
  rw [getElem?_set_eq_ite hc]
  by_cases heq : other = ch
  · simp [heq, hc, Channel.history]
  · simp [heq]

theorem ownerOf_set {c c' : Channel} (hc : hub.channels[ch]? = some c)
    (hsame : c'.runtimeID = c.runtimeID) :
    ownerOf { hub with channels := hub.channels.set ch c' } = hub.ownerOf := by
  funext other
  rw [ownerOf, ownerOf, ← List.getElem?_map, map_set_of_eq hc hsame, List.getElem?_map]

theorem ownerOf_offer (hoffer : hub.offer ch cmd = some hub') : hub'.ownerOf = hub.ownerOf := by
  obtain ⟨c, hc, -, rfl⟩ := offer_eq_some.mp hoffer
  exact ownerOf_set hc rfl

theorem historyOf_send (hsend : hub.send ch = some hub') : hub'.historyOf = hub.historyOf := by
  obtain ⟨c, cmd, queue, hc, hqueue, rfl⟩ := send_eq_some.mp hsend
  funext other
  unfold historyOf
  rw [getElem?_set_eq_ite hc]
  by_cases heq : other = ch
  · simp [heq, hc, Channel.history, hqueue]
  · simp [heq]

theorem ownerOf_send (hsend : hub.send ch = some hub') : hub'.ownerOf = hub.ownerOf := by
  obtain ⟨c, cmd, queue, hc, hqueue, rfl⟩ := send_eq_some.mp hsend
  exact ownerOf_set hc rfl

theorem historyOf_publish : (hub.publish runtimeID rt).historyOf = hub.historyOf := by
  funext other
  unfold historyOf publish
  rw [getElem?_concat_eq_ite]
  by_cases heq : other = hub.channels.length
  · simp [heq, Channel.history]
  · simp [heq]

theorem ownerOf_publish (other : Nat) : (hub.publish runtimeID rt).ownerOf other =
      if other = hub.channels.length then some runtimeID else hub.ownerOf other := by
  unfold ownerOf publish
  rw [getElem?_concat_eq_ite]
  split <;> rfl

theorem channels_unpublish (ch : Nat) : (hub.unpublish runtimeID ch).channels = hub.channels := by
  unfold unpublish
  split
  · rfl
  · split <;> rfl

theorem ownerOf_lt {runtimeID : String} (h : hub.ownerOf ch = some runtimeID) :
    ch < hub.channels.length := by
  obtain ⟨c, hc, -⟩ := Option.map_eq_some_iff.mp h
  exact (List.getElem?_eq_some_iff.mp hc).1

structure Extends (hub hub' : Hub) : Prop where
  owner : ∀ {ch runtimeID}, hub.ownerOf ch = some runtimeID → hub'.ownerOf ch = some runtimeID
  history : ∀ ch, hub.historyOf ch <+: hub'.historyOf ch

theorem Extends.of_eq (howner : hub'.ownerOf = hub.ownerOf)
    (hhistory : hub'.historyOf = hub.historyOf) : Extends hub hub' where
  owner h := howner ▸ h
  history _ := hhistory.symm ▸ List.prefix_rfl

theorem Extends.rfl : Extends hub hub := .of_eq (Eq.refl _) (Eq.refl _)

theorem extends_of_offer (hoffer : hub.offer ch cmd = some hub') : Extends hub hub' where
  owner h := ownerOf_offer hoffer ▸ h
  history other := by
    rw [historyOf_offer hoffer]
    exact List.prefix_append _ _

theorem extends_of_channels (hchannels : hub'.channels = hub.channels) : Extends hub hub' :=
  .of_eq (by unfold ownerOf; rw [hchannels]) (by unfold historyOf; rw [hchannels])

theorem extends_publish : Extends hub (hub.publish runtimeID rt) where
  owner h := by
    rw [ownerOf_publish, if_neg (Nat.ne_of_lt (ownerOf_lt h))]
    exact h
  history _ := (historyOf_publish runtimeID rt).symm ▸ List.prefix_rfl

end Hub

inductive Stream where
  | opening (runtimeID sessionToken : String)
  | grouping (runtimeID : String) (ch : Nat)
  | listing (runtimeID : String) (ch : Nat) (myGroup : String)
  | repushing (runtimeID : String) (ch : Nat) (myGroup : String) (flows : List DeployedFlow)
  | sending (runtimeID : String) (ch : Nat)
  | closed

/-- `ListDeployedFlows` on the tables as they are. -/
def Tables.listDeployedFlows {floats : Float64Text} (sprint : GoValue floats → String)
    (t : Tables) : List DeployedFlow :=
  t.deployedRows.map fun row =>
    row.deployedFlow sprint ((row.activeProfileID.bind t.profile).bind ProfileRow.scan)

def DeployedFlow.isFor (f : DeployedFlow) (myGroup : String) : Bool :=
  f.targetGroup = "" || f.targetGroup = myGroup

def Stream.advance {floats : Float64Text} (h : Handlers floats) (fleet : Fleet) (t : Tables)
    (ok : Bool) (hub : Hub) : Stream → Option (Hub × Stream)
  | .opening runtimeID sessionToken =>
    match hub.runtimes.lookup runtimeID with
    | none => some (hub, .closed)
    | some rt =>
      if rt.sessionToken = sessionToken then
        some (hub.publish runtimeID rt, .grouping runtimeID hub.channels.length)
      else some (hub, .closed)
  | .grouping runtimeID ch =>
    some (hub, .listing runtimeID ch (if ok then fleet.group runtimeID else ""))
  | .listing runtimeID ch myGroup =>
    if ok then
      some (hub, .repushing runtimeID ch myGroup (t.listDeployedFlows h.sprint))
    else some (hub, .sending runtimeID ch)
  | .repushing runtimeID ch _ [] => some (hub, .sending runtimeID ch)
  | .repushing runtimeID ch myGroup (f :: flows) =>
    if f.isFor myGroup then
      some ((hub.offer ch f.command).getD hub, .repushing runtimeID ch myGroup flows)
    else some (hub, .repushing runtimeID ch myGroup flows)
  | .sending runtimeID ch =>
    if ok then (hub.send ch).map fun hub' => (hub', .sending runtimeID ch)
    else some (hub.unpublish runtimeID ch, .closed)
  | .closed => none

inductive DeployFlowError where
  | noRuntime
  | queueFull
  | cancelled
  deriving DecidableEq, Repr

inductive Delivery where
  | calling (call : DeployFlowCall)
  | filtering (call : DeployFlowCall) (candidates : List (String × Nat)) (channels : List Nat)
  | pushing (call : DeployFlowCall) (channels : List Nat)
  | returned (err : Option DeployFlowError)

/--
The next step of a call.  The snapshot comes in the order in which the map is iterated; a
lookup of a group may fail, and the context may be cancelled.
-/
def Delivery.advance (fleet : Fleet) (order : List (String × Nat)) (ok : Bool) (hub : Hub) :
    Delivery → Option (Hub × Delivery)
  | .calling call =>
    if order.isPerm hub.candidates then some (hub, .filtering call order []) else none
  | .filtering call [] channels =>
    if channels.isEmpty then some (hub, .returned (some .noRuntime))
    else some (hub, .pushing call channels)
  | .filtering call ((runtimeID, ch) :: candidates) channels =>
    if fleet.accepts ok call.targetGroup runtimeID then
      some (hub, .filtering call candidates (channels ++ [ch]))
    else some (hub, .filtering call candidates channels)
  | .pushing _ [] => some (hub, .returned none)
  | .pushing call (ch :: channels) =>
    if ok then
      match hub.offer ch call.command with
      | none => some (hub, .returned (some .queueFull))
      | some hub' => some (hub', .pushing call channels)
    else some (hub, .returned (some .cancelled))
  | .returned _ => none

structure Plane (floats : Float64Text) where
  service : Service floats
  hub : Hub := {}
  streams : List Stream := []
  deliveries : List Delivery := []

inductive PlaneAction (floats : Float64Text) where
  | request (a : ServiceAction floats)
  | register (runtimeID sessionToken : String)
  | connect (runtimeID sessionToken : String)
  | stream (index : Nat) (ok : Bool)
  | deliver (index : Nat) (order : List (String × Nat)) (ok : Bool)

namespace Plane

variable {floats : Float64Text}

def tables (s : Plane floats) : Tables := s.service.shared.tables

def newCalls (s : Plane floats) (service : Service floats) : List DeployFlowCall :=
  service.shared.calls.drop s.service.shared.calls.length

def step (h : Handlers floats) (fleet : Fleet) (s : Plane floats) :
    PlaneAction floats → Option (Plane floats)
  | .request a =>
    (s.service.step h a).map fun service =>
      { s with
        service
        deliveries := s.deliveries ++ (s.newCalls service).map .calling }
  | .register runtimeID sessionToken =>
    some { s with hub := s.hub.register runtimeID sessionToken }
  | .connect runtimeID sessionToken =>
    some { s with streams := s.streams ++ [.opening runtimeID sessionToken] }
  | .stream index ok =>
    (advanceAt (Stream.advance h fleet s.tables ok) s.hub s.streams index).map fun next =>
      { s with hub := next.1, streams := next.2 }
  | .deliver index order ok =>
    (advanceAt (Delivery.advance fleet order ok) s.hub s.deliveries index).map fun next =>
      { s with hub := next.1, deliveries := next.2 }

end Plane

section Moves

variable {floats : Float64Text} {h : Handlers floats} {fleet : Fleet} {t : Tables}
  {hub hub' : Hub} {ok : Bool}

inductive StreamMoves (h : Handlers floats) (fleet : Fleet) (t : Tables) (ok : Bool)
    (hub : Hub) : Stream → Hub → Stream → Prop
  | rejected {runtimeID sessionToken : String} :
      StreamMoves h fleet t ok hub (.opening runtimeID sessionToken) hub .closed
  | published {runtimeID sessionToken : String} {rt : RuntimeState}
      (hruntime : hub.runtimes.lookup runtimeID = some rt) :
      StreamMoves h fleet t ok hub (.opening runtimeID sessionToken)
        (hub.publish runtimeID rt) (.grouping runtimeID hub.channels.length)
  | grouped {runtimeID : String} {ch : Nat} :
      StreamMoves h fleet t ok hub (.grouping runtimeID ch) hub
        (.listing runtimeID ch (if ok then fleet.group runtimeID else ""))
  | listed {runtimeID myGroup : String} {ch : Nat} :
      StreamMoves h fleet t ok hub (.listing runtimeID ch myGroup) hub
        (.repushing runtimeID ch myGroup (t.listDeployedFlows h.sprint))
  | unlisted {runtimeID myGroup : String} {ch : Nat} (hfailed : ok = false) :
      StreamMoves h fleet t ok hub (.listing runtimeID ch myGroup) hub (.sending runtimeID ch)
  | settled {runtimeID myGroup : String} {ch : Nat} :
      StreamMoves h fleet t ok hub (.repushing runtimeID ch myGroup []) hub
        (.sending runtimeID ch)
  | skipped {runtimeID myGroup : String} {ch : Nat} {f : DeployedFlow}
      {flows : List DeployedFlow} (hgroup : f.isFor myGroup = false) :
      StreamMoves h fleet t ok hub (.repushing runtimeID ch myGroup (f :: flows)) hub
        (.repushing runtimeID ch myGroup flows)
  | requeued {runtimeID myGroup : String} {ch : Nat} {f : DeployedFlow}
      {flows : List DeployedFlow} {hub' : Hub} (hgroup : f.isFor myGroup = true)
      (hoffer : hub.offer ch f.command = some hub') :
      StreamMoves h fleet t ok hub (.repushing runtimeID ch myGroup (f :: flows)) hub'
        (.repushing runtimeID ch myGroup flows)
  | dropped {runtimeID myGroup : String} {ch : Nat} {f : DeployedFlow}
      {flows : List DeployedFlow} (hgroup : f.isFor myGroup = true)
      (hoffer : hub.offer ch f.command = none) :
      StreamMoves h fleet t ok hub (.repushing runtimeID ch myGroup (f :: flows)) hub
        (.repushing runtimeID ch myGroup flows)
  | sent {runtimeID : String} {ch : Nat} {hub' : Hub} (hsend : hub.send ch = some hub') :
      StreamMoves h fleet t ok hub (.sending runtimeID ch) hub' (.sending runtimeID ch)
  | ended {runtimeID : String} {ch : Nat} :
      StreamMoves h fleet t ok hub (.sending runtimeID ch) (hub.unpublish runtimeID ch) .closed

theorem streamMoves_of_advance {stream next : Stream}
    (hstep : stream.advance h fleet t ok hub = some (hub', next)) :
    StreamMoves h fleet t ok hub stream hub' next := by
  revert hstep
  fun_cases stream.advance h fleet t ok hub
  case case10 =>
    intro hstep
    obtain ⟨hub₁, hsend, ⟨⟩⟩ := Option.map_eq_some_iff.mp hstep
    exact .sent hsend
  all_goals rintro ⟨⟩
  next => exact .rejected
  next hruntime => exact .published hruntime
  next => exact .rejected
  next => exact .grouped
  next => exact .listed
  next hfailed => exact .unlisted (Bool.eq_false_iff.mpr hfailed)
  next => exact .settled
  next ch _ f _ hgroup =>
    cases hoffer : hub.offer ch f.command with
    | none => exact .dropped hgroup hoffer
    | some hub₁ => exact .requeued hgroup hoffer
  next hgroup => exact .skipped (Bool.eq_false_iff.mpr hgroup)
  next => exact .ended

/-- The steps of a call of `DeployFlow`. -/
inductive DeliveryMoves (fleet : Fleet) (ok : Bool) (hub : Hub) :
    Delivery → Hub → Delivery → Prop
  | snapshot {call : DeployFlowCall} {order : List (String × Nat)}
      (horder : order.Perm hub.candidates) :
      DeliveryMoves fleet ok hub (.calling call) hub (.filtering call order [])
  | nobody {call : DeployFlowCall} :
      DeliveryMoves fleet ok hub (.filtering call [] []) hub (.returned (some .noRuntime))
  | chosen {call : DeployFlowCall} {channels : List Nat} :
      DeliveryMoves fleet ok hub (.filtering call [] channels) hub (.pushing call channels)
  | accepted {call : DeployFlowCall} {runtimeID : String} {ch : Nat}
      {candidates : List (String × Nat)} {channels : List Nat}
      (haccepts : fleet.accepts ok call.targetGroup runtimeID = true) :
      DeliveryMoves fleet ok hub (.filtering call ((runtimeID, ch) :: candidates) channels) hub
        (.filtering call candidates (channels ++ [ch]))
  | refused {call : DeployFlowCall} {runtimeID : String} {ch : Nat}
      {candidates : List (String × Nat)} {channels : List Nat}
      (haccepts : fleet.accepts ok call.targetGroup runtimeID = false) :
      DeliveryMoves fleet ok hub (.filtering call ((runtimeID, ch) :: candidates) channels) hub
        (.filtering call candidates channels)
  | completed {call : DeployFlowCall} :
      DeliveryMoves fleet ok hub (.pushing call []) hub (.returned none)
  | pushed {call : DeployFlowCall} {ch : Nat} {channels : List Nat} {hub' : Hub}
      (hoffer : hub.offer ch call.command = some hub') :
      DeliveryMoves fleet ok hub (.pushing call (ch :: channels)) hub' (.pushing call channels)
  | full {call : DeployFlowCall} {ch : Nat} {channels : List Nat}
      (hoffer : hub.offer ch call.command = none) :
      DeliveryMoves fleet ok hub (.pushing call (ch :: channels)) hub
        (.returned (some .queueFull))
  | cancelled {call : DeployFlowCall} {ch : Nat} {channels : List Nat} (hfailed : ok = false) :
      DeliveryMoves fleet ok hub (.pushing call (ch :: channels)) hub
        (.returned (some .cancelled))

theorem deliveryMoves_of_advance {order : List (String × Nat)} {delivery next : Delivery}
    (hstep : delivery.advance fleet order ok hub = some (hub', next)) :
    DeliveryMoves fleet ok hub delivery hub' next := by
  revert hstep
  fun_cases delivery.advance fleet order ok hub <;> rintro ⟨⟩
  next horder => exact .snapshot (List.isPerm_iff.mp horder)
  next hempty =>
    obtain rfl := List.isEmpty_iff.mp hempty
    exact .nobody
  next => exact .chosen
  next haccepts => exact .accepted haccepts
  next haccepts => exact .refused (Bool.eq_false_iff.mpr haccepts)
  next => exact .completed
  next hoffer => exact .full hoffer
  next hoffer => exact .pushed hoffer
  next hfailed => exact .cancelled (Bool.eq_false_iff.mpr hfailed)

theorem StreamMoves.extends {stream next : Stream}
    (hmove : StreamMoves h fleet t ok hub stream hub' next) : hub.Extends hub' := by
  cases hmove with
  | published hruntime => exact Hub.extends_publish _ _
  | requeued hgroup hoffer => exact Hub.extends_of_offer hoffer
  | sent hsend => exact .of_eq (Hub.ownerOf_send hsend) (Hub.historyOf_send hsend)
  | ended => exact Hub.extends_of_channels (Hub.channels_unpublish _ _)
  | _ => exact .rfl

theorem DeliveryMoves.extends {delivery next : Delivery}
    (hmove : DeliveryMoves fleet ok hub delivery hub' next) : hub.Extends hub' := by
  cases hmove with
  | pushed hoffer => exact Hub.extends_of_offer hoffer
  | _ => exact .rfl

end Moves

namespace Plane

variable {floats : Float64Text} {h : Handlers floats} {fleet : Fleet} {s s' : Plane floats}

theorem mem_newCalls {service : Service floats} {a : ServiceAction floats}
    (hstep : s.service.step h a = some service) {call : DeployFlowCall}
    (hcall : call ∈ s.newCalls service) :
    ∃ job env defaultErrorFlow stored alone,
      .push job env defaultErrorFlow stored alone ∈ s.service.requests ∧
      call = Handlers.deployFlowCall job env defaultErrorFlow stored.version := by
  unfold newCalls at hcall
  rcases Service.calls_of_step hstep with hsame | ⟨job, env, defaultErrorFlow, stored, alone,
    hpush, hcalls⟩
  · rw [hsame, List.drop_length] at hcall
    cases hcall
  · rw [hcalls, List.drop_left] at hcall
    exact ⟨job, env, defaultErrorFlow, stored, alone, hpush, List.mem_singleton.mp hcall⟩

inductive Steps (h : Handlers floats) (fleet : Fleet) (s : Plane floats) :
    PlaneAction floats → Plane floats → Prop
  | request {a : ServiceAction floats} {service : Service floats}
      (hstep : s.service.step h a = some service) :
      Steps h fleet s (.request a)
        { s with
          service
          deliveries := s.deliveries ++ (s.newCalls service).map .calling }
  | register {runtimeID sessionToken : String} :
      Steps h fleet s (.register runtimeID sessionToken)
        { s with hub := s.hub.register runtimeID sessionToken }
  | connect {runtimeID sessionToken : String} :
      Steps h fleet s (.connect runtimeID sessionToken)
        { s with streams := s.streams ++ [.opening runtimeID sessionToken] }
  | stream {index : Nat} {ok : Bool} {stream next : Stream} {hub : Hub}
      (hstream : s.streams[index]? = some stream)
      (hmove : StreamMoves h fleet s.tables ok s.hub stream hub next) :
      Steps h fleet s (.stream index ok)
        { s with hub, streams := s.streams.set index next }
  | deliver {index : Nat} {order : List (String × Nat)} {ok : Bool} {delivery next : Delivery}
      {hub : Hub} (hdelivery : s.deliveries[index]? = some delivery)
      (hmove : DeliveryMoves fleet ok s.hub delivery hub next) :
      Steps h fleet s (.deliver index order ok)
        { s with hub, deliveries := s.deliveries.set index next }

variable {a : PlaneAction floats}

theorem steps_of_step (hstep : s.step h fleet a = some s') : Steps h fleet s a s' := by
  cases a with
  | request a =>
    obtain ⟨service, hservice, rfl⟩ := Option.map_eq_some_iff.mp hstep
    exact .request hservice
  | register runtimeID sessionToken =>
    cases hstep
    exact .register
  | connect runtimeID sessionToken =>
    cases hstep
    exact .connect
  | stream index ok =>
    obtain ⟨⟨hub, streams⟩, hadvance, rfl⟩ := Option.map_eq_some_iff.mp hstep
    obtain ⟨stream, next, hstream, hnext, rfl⟩ := advanceAt_eq_some.mp hadvance
    exact .stream hstream (streamMoves_of_advance hnext)
  | deliver index order ok =>
    obtain ⟨⟨hub, deliveries⟩, hadvance, rfl⟩ := Option.map_eq_some_iff.mp hstep
    obtain ⟨delivery, next, hdelivery, hnext, rfl⟩ := advanceAt_eq_some.mp hadvance
    exact .deliver hdelivery (deliveryMoves_of_advance hnext)

theorem Steps.extends (hstep : Steps h fleet s a s') : s.hub.Extends s'.hub := by
  cases hstep with
  | request | connect => exact .rfl
  | register => exact Hub.extends_of_channels rfl
  | stream hstream hmove | deliver hdelivery hmove => exact hmove.extends

end Plane

end DataPipe.ControlPlane
