import DataPipe.Flow.HotDeploy
import DataPipe.Flow.Tracker

/-!
# Re-run and re-inject commands

`sendExecutionCommand` of `controlplane/internal/registry/registry.go` puts a
command into the queue of every runtime with an open event channel;
`handleEventDownlink` of `engine/internal/runtimeclient/eventchannel.go` hands it
to `ReplayOutput`, `ReplayInput` or `ReinjectDeadLetter` of the deployment, which
look for the node and the port and not for the flow.
-/

set_option linter.dupNamespace false

namespace DataPipe.RuntimeClient

open DataPipe.Flow

structure RunExecution where
  flowID : String
  fromPoint : String
  nodeID : String
  port : String
  datagramJSON : String
  reRunOf : String

structure ReinjectDeadLetter where
  flowID : String
  nodeID : String
  port : String
  datagramJSON : String

inductive FlowCommand where
  | runExecution (re : RunExecution)
  | reinjectDeadLetter (rd : ReinjectDeadLetter)

def FlowCommand.flowID : FlowCommand → String
  | .runExecution re => re.flowID
  | .reinjectDeadLetter rd => rd.flowID

inductive EventCommand where
  | flow (command : FlowCommand)
  | cancelExecution (executionID : String)

structure FleetRuntime where
  /-- The commands in its queue, once its event channel is open. -/
  eventCh : Option (List EventCommand)
  target : Option Deployment

def eventChanBuffer : Nat := 8

inductive CommandError where
  | noRuntime
  | ctx
  | queueFull
  deriving DecidableEq, Repr

def FleetRuntime.isOpen (rt : FleetRuntime) : Bool := rt.eventCh.isSome

def FleetRuntime.hasRoom (rt : FleetRuntime) : Bool :=
  rt.eventCh.any fun queue => queue.length < eventChanBuffer

/--
What the surroundings do to one broadcast: the order in which the map of the
registry is iterated, the channels at which the context is found cancelled, the
streams that carry the command, and what `Start` of the tracker and `Send` of the
inboxes answer in each runtime.
-/
structure Surroundings where
  order : List Nat
  ctxDone : Nat → Bool
  arrives : Nat → Bool
  freshID : Nat → String
  now : Nat → Time
  starts : Nat → Bool
  sends : Nat → Nat → Bool

def pushAll (fleet : List FleetRuntime) (ctxDone : Nat → Bool) :
    List Nat → List Nat × Option CommandError
  | [] => ([], none)
  | index :: rest =>
    if ctxDone index then ([], some .ctx)
    else if fleet[index]?.any FleetRuntime.hasRoom then
      (index :: (pushAll fleet ctxDone rest).1, (pushAll fleet ctxDone rest).2)
    else ([], some .queueFull)

def sendExecutionCommand (fleet : List FleetRuntime) (around : Surroundings) :
    List Nat × Option CommandError :=
  match around.order.filter fun index => fleet[index]?.any FleetRuntime.isOpen with
  | [] => ([], some .noRuntime)
  | channels => pushAll fleet around.ctxDone channels

/-- What a command does in a runtime; `sent` are the inboxes that took the datagram. -/
structure Outcome where
  started : Option StartCall := none
  sent : List (Nat × Datagram) := []
  cancelled : Option (String × String) := none

def Outcome.acts (outcome : Outcome) : Bool := outcome.started.isSome || !outcome.sent.isEmpty

def freshRootFrom (id : String) (now : Time) (seed : Datagram) : Datagram :=
  let fresh := Datagram.new id now seed.header.source seed.payload
  { fresh with
    header :=
      { fresh.header with
        tags := seed.header.tags
        quality := seed.header.quality
        schemaRef := seed.header.schemaRef
        contentType := seed.header.contentType } }

section Deployment

variable (g : Deployment) (nodeID port : String)

/-- `Start` and then the sends, up to the first that fails. -/
def startAndSend (reRunOf : String) (fresh : Datagram) (starts : Bool) (sends : Nat → Bool)
    (wires : List Nat) : Outcome :=
  if starts then
    { started := some ⟨g.flowID, nodeID, "rerun", reRunOf, fresh⟩
      sent := (wires.takeWhile sends).map fun wire => (wire, fresh) }
  else {}

def replayOutput (fresh : Datagram) (reRunOf : String) (starts : Bool)
    (sends : Nat → Bool) : Outcome :=
  match g.inboxesForOutput ⟨nodeID, port⟩ with
  | [] => {}
  | wires => startAndSend g nodeID reRunOf fresh starts sends wires

def replayInput (fresh : Datagram) (reRunOf : String) (starts : Bool)
    (sends : Nat → Bool) : Outcome :=
  match g.inboxes.ref.lookup ⟨nodeID, port⟩ with
  | none => {}
  | some wire => startAndSend g nodeID reRunOf fresh starts sends [wire]

def reinjectDeadLetter (dgm : Datagram) (sends : Nat → Bool) : Outcome :=
  match g.inboxes.ref.lookup ⟨nodeID, port⟩ with
  | none => {}
  | some wire => { sent := ([wire].takeWhile sends).map fun wire => (wire, dgm) }

end Deployment

/-- `parse` reads the JSON of a datagram. -/
def handleEventDownlink (parse : String → Option Datagram) (around : Surroundings) (index : Nat) :
    Option Deployment → EventCommand → Outcome
  | none, _ => {}
  | some g, .flow (.runExecution re) =>
    match parse re.datagramJSON with
    | none => {}
    | some seed =>
      let fresh := freshRootFrom (around.freshID index) (around.now index) seed
      if re.fromPoint = "start" then
        replayOutput g re.nodeID re.port fresh re.reRunOf (around.starts index)
          (around.sends index)
      else if re.fromPoint = "node" then
        replayInput g re.nodeID re.port fresh re.reRunOf (around.starts index)
          (around.sends index)
      else {}
  | some g, .cancelExecution executionID => { cancelled := some (g.flowID, executionID) }
  | some g, .flow (.reinjectDeadLetter rd) =>
    match parse rd.datagramJSON with
    | none => {}
    | some dgm => reinjectDeadLetter g rd.nodeID rd.port dgm (around.sends index)

def ActsOn (parse : String → Option Datagram) (fleet : List FleetRuntime) (around : Surroundings)
    (command : FlowCommand) (index : Nat) : Prop :=
  index ∈ (sendExecutionCommand fleet around).1 ∧ around.arrives index = true ∧
    ∃ rt, fleet[index]? = some rt ∧
      (handleEventDownlink parse around index rt.target (.flow command)).acts = true

def Runs (fleet : List FleetRuntime) (flowID : String) (index : Nat) : Prop :=
  ∃ rt g, fleet[index]? = some rt ∧ rt.target = some g ∧ g.flowID = flowID

def FlowCommand.datagramJSON : FlowCommand → String
  | .runExecution re => re.datagramJSON
  | .reinjectDeadLetter rd => rd.datagramJSON

def hasPort (g : Deployment) : FlowCommand → Bool
  | .runExecution re =>
    if re.fromPoint = "start" then !(g.inboxesForOutput ⟨re.nodeID, re.port⟩).isEmpty
    else if re.fromPoint = "node" then (g.inboxes.ref.lookup ⟨re.nodeID, re.port⟩).isSome
    else false
  | .reinjectDeadLetter rd => (g.inboxes.ref.lookup ⟨rd.nodeID, rd.port⟩).isSome

def Reachable (parse : String → Option Datagram) (fleet : List FleetRuntime)
    (command : FlowCommand) (index : Nat) : Prop :=
  ∃ rt g, fleet[index]? = some rt ∧ rt.hasRoom = true ∧ rt.target = some g ∧
    hasPort g command = true ∧ (parse command.datagramJSON).isSome = true

section Runtime

variable {parse : String → Option Datagram} {around : Surroundings} {index : Nat}
  {g : Deployment} {command : FlowCommand}

attribute [local simp] Outcome.acts

theorem startAndSend_acts {nodeID reRunOf : String} {fresh : Datagram} {starts : Bool}
    {sends : Nat → Bool} {wires : List Nat} :
    (startAndSend g nodeID reRunOf fresh starts sends wires).acts = starts := by
  cases starts <;> simp [startAndSend]

theorem hasPort_of_acts
    (h : (handleEventDownlink parse around index (some g) (.flow command)).acts = true) :
    hasPort g command = true ∧ (parse command.datagramJSON).isSome = true := by
  cases command with
  | runExecution re =>
    simp only [handleEventDownlink, hasPort, FlowCommand.datagramJSON] at h ⊢
    cases hparse : parse re.datagramJSON with
    | none => simp [hparse] at h
    | some seed =>
      simp only [hparse] at h
      by_cases hstart : re.fromPoint = "start"
      · simp only [hstart, replayOutput] at h ⊢
        cases hwires : g.inboxesForOutput ⟨re.nodeID, re.port⟩ with
        | nil => simp [hwires] at h
        | cons wire wires => simp
      · by_cases hnode : re.fromPoint = "node"
        · simp only [hnode, replayInput] at h ⊢
          cases hwire : g.inboxes.ref.lookup ⟨re.nodeID, re.port⟩ with
          | none => simp [hwire] at h
          | some wire => simp
        · simp [hstart, hnode] at h
  | reinjectDeadLetter rd =>
    simp only [handleEventDownlink, hasPort, FlowCommand.datagramJSON] at h ⊢
    cases hparse : parse rd.datagramJSON with
    | none => simp [hparse] at h
    | some dgm =>
      simp only [hparse, reinjectDeadLetter] at h
      cases hwire : g.inboxes.ref.lookup ⟨rd.nodeID, rd.port⟩ with
      | none => simp [hwire] at h
      | some wire => simp

theorem acts_of_hasPort (hstarts : around.starts index = true)
    (hsends : ∀ wire, around.sends index wire = true) (hport : hasPort g command = true)
    (hparse : (parse command.datagramJSON).isSome = true) :
    (handleEventDownlink parse around index (some g) (.flow command)).acts = true := by
  obtain ⟨seed, hseed⟩ := Option.isSome_iff_exists.mp hparse
  cases command with
  | runExecution re =>
    simp only [handleEventDownlink, hasPort, FlowCommand.datagramJSON] at hseed hport ⊢
    simp only [hseed]
    split at hport
    next hstart =>
      simp only [hstart, replayOutput]
      cases hwires : g.inboxesForOutput ⟨re.nodeID, re.port⟩ with
      | nil => simp [hwires] at hport
      | cons wire wires => exact startAndSend_acts.trans hstarts
    · split at hport
      next hnode =>
        obtain ⟨wire, hwire⟩ := Option.isSome_iff_exists.mp hport
        simp only [hnode, replayInput, hwire]
        exact startAndSend_acts.trans hstarts
      · cases hport
  | reinjectDeadLetter rd =>
    simp only [FlowCommand.datagramJSON] at hseed hport
    obtain ⟨wire, hwire⟩ := Option.isSome_iff_exists.mp hport
    simp [handleEventDownlink, hseed, reinjectDeadLetter, hwire, hsends]

end Runtime

section Registry

variable {fleet : List FleetRuntime} {around : Surroundings} {index : Nat}

theorem sendExecutionCommand_fst :
    (sendExecutionCommand fleet around).1 =
      (pushAll fleet around.ctxDone
        (around.order.filter fun index => fleet[index]?.any FleetRuntime.isOpen)).1 := by
  rw [sendExecutionCommand]
  split
  next hnone =>
    rw [hnone]
    rfl
  · rfl

theorem hasRoom_of_mem_pushAll {ctxDone : Nat → Bool} {channels : List Nat}
    (h : index ∈ (pushAll fleet ctxDone channels).1) :
    fleet[index]?.any FleetRuntime.hasRoom = true := by
  induction channels with
  | nil => cases h
  | cons first channels ih =>
    rw [pushAll] at h
    split at h
    · cases h
    · split at h
      next hroom =>
        rcases List.mem_cons.mp h with rfl | h
        · exact hroom
        · exact ih h
      · cases h

variable {rest first : List Nat}

theorem mem_pushAll_append (hroom : ∀ index ∈ first, fleet[index]?.any FleetRuntime.hasRoom = true)
    (h : index ∈ first) : index ∈ (pushAll fleet (fun _ => false) (first ++ rest)).1 := by
  induction first with
  | nil => cases h
  | cons head first ih =>
    rw [List.forall_mem_cons] at hroom
    rw [List.cons_append, pushAll, if_pos hroom.1]
    rcases List.mem_cons.mp h with rfl | h
    · exact List.mem_cons_self
    · exact List.mem_cons_of_mem _ (ih hroom.2 h)

def unhindered (order : List Nat) : Surroundings where
  order
  ctxDone _ := false
  arrives _ := true
  freshID _ := ""
  now _ := 0
  starts _ := true
  sends _ _ := true

theorem FleetRuntime.isOpen_of_hasRoom {rt : FleetRuntime} (h : rt.hasRoom = true) :
    rt.isOpen = true := by
  obtain ⟨queue, hqueue, -⟩ := (Option.any_eq_true _ _).mp h
  rw [FleetRuntime.isOpen, hqueue, Option.isSome_some]

variable {parse : String → Option Datagram} {command : FlowCommand}

theorem actsOn_of_first (hfirst : ∀ index ∈ first, Reachable parse fleet command index)
    (h : index ∈ first) : ActsOn parse fleet (unhindered (first ++ rest)) command index := by
  have hroom : ∀ index ∈ first, fleet[index]?.any FleetRuntime.hasRoom = true := by
    intro index hindex
    obtain ⟨rt, g, hrt, hroom, -⟩ := hfirst index hindex
    rw [hrt, Option.any_some, hroom]
  have hopen : ∀ index ∈ first, fleet[index]?.any FleetRuntime.isOpen = true := by
    intro index hindex
    obtain ⟨rt, g, hrt, hroom, -⟩ := hfirst index hindex
    rw [hrt, Option.any_some, FleetRuntime.isOpen_of_hasRoom hroom]
  obtain ⟨rt, g, hrt, -, htarget, hport, hparse⟩ := hfirst index h
  refine ⟨?_, rfl, rt, hrt, ?_⟩
  · rw [sendExecutionCommand_fst, unhindered, List.filter_append, List.filter_eq_self.mpr hopen]
    exact mem_pushAll_append hroom h
  · rw [htarget]
    exact acts_of_hasPort rfl (fun _ => rfl) hport hparse

theorem reachable_of_actsOn (h : ActsOn parse fleet around command index) :
    Reachable parse fleet command index := by
  obtain ⟨hsent, -, rt, hrt, hacts⟩ := h
  rw [sendExecutionCommand_fst] at hsent
  have hroom := hasRoom_of_mem_pushAll hsent
  rw [hrt] at hroom
  cases htarget : rt.target with
  | none =>
    rw [htarget] at hacts
    cases hacts
  | some g =>
    rw [htarget] at hacts
    obtain ⟨hport, hparse⟩ := hasPort_of_acts hacts
    exact ⟨rt, g, hrt, hroom, htarget, hport, hparse⟩

end Registry

def HitsOnce (parse : String → Option Datagram) (fleet : List FleetRuntime)
    (command : FlowCommand) : Prop :=
  ∀ around : Surroundings, around.order.Perm (List.range fleet.length) →
    (∀ i j, ActsOn parse fleet around command i → ActsOn parse fleet around command j → i = j) ∧
    (∀ i, ActsOn parse fleet around command i → Runs fleet command.flowID i)

variable {fleet : List FleetRuntime} {command : FlowCommand} {index : Nat}

theorem Reachable.mem_range {parse : String → Option Datagram}
    (h : Reachable parse fleet command index) : index ∈ List.range fleet.length := by
  obtain ⟨rt, g, hrt, -⟩ := h
  exact List.mem_range.mpr (List.getElem?_eq_some_iff.mp hrt).1

/--
A command hits the right flow once exactly when at most one runtime is reachable for it,
and that one runs the flow.
-/
theorem hitsOnce_iff (parse : String → Option Datagram) (fleet : List FleetRuntime)
    (command : FlowCommand) :
    HitsOnce parse fleet command ↔
      (∀ i j, Reachable parse fleet command i → Reachable parse fleet command j → i = j) ∧
      (∀ i, Reachable parse fleet command i → Runs fleet command.flowID i) := by
  constructor
  · intro h
    constructor
    · intro i j hi hj
      by_contra hne
      -- iterated first, both get the command before any full queue ends the broadcast
      have hj' : j ∈ (List.range fleet.length).erase i :=
        (List.mem_erase_of_ne (Ne.symm hne)).mpr hj.mem_range
      have hperm : List.Perm ([i, j] ++ ((List.range fleet.length).erase i).erase j)
          (List.range fleet.length) :=
        ((List.perm_cons_erase hj').symm.cons i).trans (List.perm_cons_erase hi.mem_range).symm
      have hfirst : ∀ index ∈ [i, j], Reachable parse fleet command index := by simp [hi, hj]
      have hboth := (h (unhindered _) hperm).1 i j
        (actsOn_of_first hfirst (by simp)) (actsOn_of_first hfirst (by simp))
      exact hne hboth
    · intro i hi
      have hperm : List.Perm ([i] ++ (List.range fleet.length).erase i)
          (List.range fleet.length) := (List.perm_cons_erase hi.mem_range).symm
      have hfirst : ∀ index ∈ [i], Reachable parse fleet command index := by simp [hi]
      exact (h (unhindered _) hperm).2 i (actsOn_of_first hfirst (by simp))
  · rintro ⟨hone, hruns⟩ around -
    refine ⟨?_, ?_⟩
    · intro i j hi hj
      exact hone i j (reachable_of_actsOn hi) (reachable_of_actsOn hj)
    · intro i hi
      exact hruns i (reachable_of_actsOn hi)

def pipeRuntime (flowID : String) : FleetRuntime where
  eventCh := some []
  target := some (newDeployment.deploy smallRegistry plainDigest
    (deployOf 0 { pipeFile "" [] with id := flowID })).1

def anyDatagram : String → Option Datagram := fun _ => some default

def rerunPipe : FlowCommand := .runExecution ⟨"pipe", "start", "a", "out", "", "e"⟩

def reinjectPipe : FlowCommand := .reinjectDeadLetter ⟨"pipe", "b", "in", ""⟩

theorem reachable_pipeRuntime {flowID : String} (hrt : fleet[index]? = some (pipeRuntime flowID))
    (hport : (pipeRuntime flowID).target.any (hasPort · command) = true) :
    Reachable anyDatagram fleet command index := by
  obtain ⟨g, hg, hport⟩ := (Option.any_eq_true _ _).mp hport
  exact ⟨_, g, hrt, rfl, hg, hport, rfl⟩

/-- Two runtimes of the flow both re-run it, and a runtime of another flow takes the letter. -/
theorem commands_hit_copies_and_other_flows :
    ¬ HitsOnce anyDatagram [pipeRuntime "pipe", pipeRuntime "pipe"] rerunPipe ∧
      ¬ HitsOnce anyDatagram [pipeRuntime "other"] reinjectPipe := by
  constructor
  · intro h
    have hport : (pipeRuntime "pipe").target.any (hasPort · rerunPipe) = true := by decide +kernel
    have hfirst : ∀ index ∈ [0, 1], Reachable anyDatagram
        [pipeRuntime "pipe", pipeRuntime "pipe"] rerunPipe index := by
      rw [List.forall_mem_cons, List.forall_mem_singleton]
      exact ⟨reachable_pipeRuntime rfl hport, reachable_pipeRuntime rfl hport⟩
    have hboth := (h (unhindered ([0, 1] ++ [])) (.refl _)).1 0 1
      (actsOn_of_first hfirst (by simp)) (actsOn_of_first hfirst (by simp))
    cases hboth
  · intro h
    have hport : (pipeRuntime "other").target.any (hasPort · reinjectPipe) = true := by
      decide +kernel
    have hfirst : ∀ index ∈ [0], Reachable anyDatagram [pipeRuntime "other"] reinjectPipe
        index := by
      rw [List.forall_mem_singleton]
      exact reachable_pipeRuntime rfl hport
    obtain ⟨rt, g, hrt, hg, hflow⟩ := (h (unhindered ([0] ++ [])) (.refl _)).2 0
      (actsOn_of_first hfirst (by simp))
    cases hrt
    have hother : (pipeRuntime "other").target.any (·.flowID = "pipe") = false := by decide +kernel
    rw [hg, Option.any_some, decide_eq_false_iff_not] at hother
    exact hother hflow

end DataPipe.RuntimeClient
