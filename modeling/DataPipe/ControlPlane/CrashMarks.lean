import DataPipe.ControlPlane.Executions

/-!
# Crash marks on execution rows

`MarkRuntimeExecutionsCrashed` of `controlplane/internal/api/executions.go`,
the other statements that write an execution row, and the calls of
`EventChannel` of `controlplane/internal/registry/registry.go` whose deferred
cleanup makes the mark.  A crash mark spares the rows that have reached a
terminal status; the statements behind `RecordExecutionEvent` do not ask.
-/

namespace DataPipe.Flow

def ExecutionStatus.isTerminal : ExecutionStatus → Bool
  | .running | .waiting => false
  | .success | .failed | .cancelled | .crashed => true

end DataPipe.Flow

namespace DataPipe.ControlPlane

open DataPipe.Flow DataPipe.Foundation

namespace Store

def mapRows (s : Store) (f : Execution → Execution) : Store :=
  { s with
    executions :=
      ⟨s.executions.entries.map (.map id fun _ => f), .map₂ _ _ s.executions.nodupKeys⟩ }

def markCrashed (runtimeID : String) (now : Time) (row : Execution) : Execution :=
  if row.runtimeID = runtimeID ∧ (row.status = .running ∨ row.status = .waiting) then
    { row with status := .crashed, finishedAt := some now, reason := "runtime disconnected" }
  else row

def markRuntimeExecutionsCrashed (s : Store) (runtimeID : String) (now : Time) : Store :=
  s.mapRows (markCrashed runtimeID now)

def outcome (s : Store) (id : String) : Option (ExecutionStatus × Option Time × String) :=
  (s.executions.lookup id).map fun row => (row.status, row.finishedAt, row.reason)

end Store

theorem lookup_mapRows (s : Store) (f : Execution → Execution) (id : String) :
    (s.mapRows f).executions.lookup id = (s.executions.lookup id).map f :=
  List.dlookup_map₂ id

variable {id runtimeID : String} {s : Store} {ev : ExecutionEventInput}
  {ending : ExecutionStatus × Option Time × String}

variable {row : Execution}

theorem markCrashed_of_isTerminal {now : Time} (hterminal : row.status.isTerminal = true) :
    Store.markCrashed runtimeID now row = row := by
  rw [Store.markCrashed, if_neg]
  rintro ⟨_, hopen | hopen⟩ <;> simp [hopen, ExecutionStatus.isTerminal] at hterminal

theorem lookup_upsertExecution_ne (s : Store) (runtimeID : String)
    (triggerNodeID triggerKind reRunOf : String) (seed : Datagram) (status : ExecutionStatus)
    (hid : id ≠ ev.executionID) :
    (s.upsertExecution runtimeID ev triggerNodeID triggerKind reRunOf seed
      status).executions.lookup id = s.executions.lookup id := by
  cases hrow : s.executions.lookup ev.executionID with
  | none | some =>
    simp only [Store.upsertExecution, hrow]
    exact AList.lookup_insert_ne hid

theorem lookup_finishExecution_ne (s : Store) (status : ExecutionStatus) (reason : String)
    (hid : id ≠ ev.executionID) :
    (s.finishExecution ev status reason).executions.lookup id = s.executions.lookup id := by
  cases hrow : s.executions.lookup ev.executionID with
  | none => simp only [Store.finishExecution, hrow]
  | some row =>
    simp only [Store.finishExecution, hrow]
    exact AList.lookup_insert_ne hid

theorem lookup_recordExecutionEvent_ne (s : Store) (runtimeID : String)
    (hid : id ≠ ev.executionID) :
    (s.recordExecutionEvent runtimeID ev).executions.lookup id = s.executions.lookup id := by
  unfold Store.recordExecutionEvent
  cases ev.phase with
  | waiting triggerNodeID seed => exact lookup_upsertExecution_ne s _ _ _ _ _ _ hid
  | started triggerNodeID triggerKind reRunOf seed =>
    exact lookup_upsertExecution_ne s _ _ _ _ _ _ hid
  | node io => rfl
  | finished status reason => exact lookup_finishExecution_ne s _ _ hid

inductive HistoryCall where
  | record (runtimeID : String) (ev : ExecutionEventInput)
  -- an event of a phase outside the four, or a statement that fails
  | recordNothing
  | markCrashed (runtimeID : String) (now : Time)

def Store.apply (s : Store) : HistoryCall → Store
  | .record runtimeID ev => s.recordExecutionEvent runtimeID ev
  | .recordNothing => s
  | .markCrashed runtimeID now => s.markRuntimeExecutionsCrashed runtimeID now

def Phase.repeats (row : Execution) (atTime : Time) : Phase → Bool
  | .waiting _ _ | .started _ _ _ _ => false
  | .node _ => true
  | .finished status reason =>
    decide (status = row.status ∧ some atTime = row.finishedAt ∧ reason = row.reason)

def HistoryCall.sparesTerminal (s : Store) : HistoryCall → Bool
  | .record _ ev =>
    match s.executions.lookup ev.executionID with
    | some row => !row.status.isTerminal || ev.phase.repeats row ev.atTime
    | none => true
  | .recordNothing => true
  | .markCrashed _ _ => true

def Store.Ended (s : Store) (id : String)
    (ending : ExecutionStatus × Option Time × String) : Prop :=
  s.outcome id = some ending ∧ ending.1.isTerminal = true

theorem ended_iff :
    s.Ended id ending ↔ ∃ row, s.executions.lookup id = some row ∧
      row.status.isTerminal = true ∧ (row.status, row.finishedAt, row.reason) = ending := by
  rw [Store.Ended, Store.outcome, Option.map_eq_some_iff]
  constructor
  · rintro ⟨⟨row, hrow, rfl⟩, hterminal⟩
    exact ⟨row, hrow, hterminal, rfl⟩
  · rintro ⟨row, hrow, hterminal, rfl⟩
    exact ⟨⟨row, hrow, rfl⟩, hterminal⟩

theorem outcome_record_of_repeats (hrow : s.executions.lookup ev.executionID = some row)
    (hrepeats : ev.phase.repeats row ev.atTime = true) :
    (s.recordExecutionEvent runtimeID ev).outcome ev.executionID =
      s.outcome ev.executionID := by
  unfold Store.recordExecutionEvent
  cases hphase : ev.phase with
  | waiting triggerNodeID seed => simp [hphase, Phase.repeats] at hrepeats
  | started triggerNodeID triggerKind reRunOf seed => simp [hphase, Phase.repeats] at hrepeats
  | node io => rfl
  | finished status reason =>
    rw [hphase] at hrepeats
    obtain ⟨rfl, hat, rfl⟩ := of_decide_eq_true hrepeats
    simp [Store.finishExecution, Store.outcome, hrow, hat]

theorem outcome_apply_of_ended {call : HistoryCall} (hended : s.Ended id ending)
    (hspares : call.sparesTerminal s = true) : (s.apply call).outcome id = s.outcome id := by
  obtain ⟨row, hrow, hterminal, rfl⟩ := ended_iff.mp hended
  cases call with
  | recordNothing => rfl
  | markCrashed runtimeID now =>
    rw [Store.outcome, Store.apply, Store.markRuntimeExecutionsCrashed, lookup_mapRows, hrow,
      Option.map_some, markCrashed_of_isTerminal hterminal, Store.outcome, hrow]
  | record runtimeID ev =>
    by_cases hid : id = ev.executionID
    · subst hid
      simp only [HistoryCall.sparesTerminal, hrow, hterminal] at hspares
      exact outcome_record_of_repeats hrow hspares
    · exact congrArg _ (lookup_recordExecutionEvent_ne s runtimeID hid)

def Store.step (s : Store) (call : HistoryCall) : Option Store := some (s.apply call)

/--
Once a row has a terminal status, its status, finish time and reason stay, in every sequence
of calls in which no event reopens an ended row or ends it another time.
-/
theorem ended_rows_stay {s middle final : Store} {before after : List HistoryCall}
    (hmeets : Meets Store.step (fun s call => call.sparesTerminal s = true) s (before ++ after))
    (hbefore : run Store.step s before = some middle)
    (hafter : run Store.step middle after = some final) {id : String}
    {ending : ExecutionStatus × Option Time × String} (hended : middle.Ended id ending) :
    final.Ended id ending := by
  have hstep : ∀ {s call next}, s.Ended id ending → HistoryCall.sparesTerminal s call = true →
      Store.step s call = some next → next.Ended id ending := by
    intro s call next hended hspares hnext
    obtain rfl := Option.some.inj hnext
    exact ⟨(outcome_apply_of_ended hended hspares).trans hended.1, hended.2⟩
  exact run_invariant_of_meets hstep hended (hmeets.drop hbefore) hafter

/-- An event about the execution `e` of the flow `f`, at the given second. -/
def eventAt (atTime : Time) (phase : Phase) : ExecutionEventInput := ⟨"e", "f", atTime, phase⟩

def startedAt (atTime : Time) : ExecutionEventInput :=
  eventAt atTime (.started "n" "manual" "" { header := { id := "d", correlationID := "d" } })

def succeededAt (atTime : Time) : ExecutionEventInput := eventAt atTime (.finished .success "")

theorem ended_row_stays_when_repeated :
    ∃ s, run Store.step .empty [.record "r" (startedAt 1), .record "r" (succeededAt 2),
        .record "r" (succeededAt 2), .recordNothing, .markCrashed "r" 3] = some s ∧
      s.Ended "e" (.success, some 2, "") := by
  obtain ⟨middle, hbefore, hended⟩ : ∃ s, run Store.step .empty [.record "r" (startedAt 1),
      .record "r" (succeededAt 2)] = some s ∧ s.outcome "e" = some (.success, some 2, "") := by
    decide +kernel
  have hafter : run Store.step middle [.record "r" (succeededAt 2), .recordNothing,
      .markCrashed "r" 3] = some _ := rfl
  exact ⟨_, run_append_eq_some.mpr ⟨middle, hbefore, hafter⟩,
    ended_rows_stay (by decide +kernel) hbefore hafter ⟨hended, rfl⟩⟩

theorem not_ended_of_run {before after : List HistoryCall}
    {other : ExecutionStatus × Option Time × String}
    (hany : (run Store.step .empty before).any (fun middle =>
      decide (middle.outcome id = some ending ∧ ending.1.isTerminal = true) &&
        (run Store.step middle after).any (fun final =>
          decide (final.outcome id = some other ∧ other ≠ ending))) = true) :
    ∃ middle final, run Store.step .empty before = some middle ∧
      run Store.step middle after = some final ∧ middle.Ended id ending ∧
      final.outcome id = some other ∧ ¬ final.Ended id ending := by
  obtain ⟨middle, hbefore, hany⟩ := (Option.any_eq_true _ _).mp hany
  rw [Bool.and_eq_true] at hany
  obtain ⟨final, hafter, hother⟩ := (Option.any_eq_true _ _).mp hany.2
  obtain ⟨hother, hne⟩ := of_decide_eq_true hother
  obtain ⟨hended, hterminal⟩ := of_decide_eq_true hany.1
  refine ⟨middle, final, hbefore, hafter, ⟨hended, hterminal⟩, hother, fun hended => hne ?_⟩
  exact Option.mem_unique hother hended.1

/--
A `started` event that arrives after the `finished` one leaves a running row with a finish
time, and a `finished` event after the crash mark replaces the mark.
-/
theorem ended_rows_reopened_by_late_events :
    (∃ middle final,
      run Store.step .empty [.record "r" (startedAt 1), .record "r" (succeededAt 2)] =
        some middle ∧
      run Store.step middle [.record "r" (startedAt 1)] = some final ∧
      middle.Ended "e" (.success, some 2, "") ∧
      final.outcome "e" = some (.running, some 2, "") ∧
      ¬ final.Ended "e" (.success, some 2, "")) ∧
    ∃ middle final,
      run Store.step .empty [.record "r" (startedAt 1), .markCrashed "r" 2] = some middle ∧
      run Store.step middle [.record "r" (succeededAt 3)] = some final ∧
      middle.Ended "e" (.crashed, some 2, "runtime disconnected") ∧
      final.outcome "e" = some (.success, some 3, "") ∧
      ¬ final.Ended "e" (.crashed, some 2, "runtime disconnected") :=
  ⟨not_ended_of_run (by decide +kernel), not_ended_of_run (by decide +kernel)⟩

inductive ChannelPc where
  /-- The first message has passed `validSession`. -/
  | validated
  /-- The channel stands in the registry and messages are handled. -/
  | serving
  /-- The call returns: the stream broke or a send failed. -/
  | returned
  /-- The deferred function has taken its channel out of the registry. -/
  | unpublished
  /-- The crash mark has been made. -/
  | closed
  deriving DecidableEq, Repr

structure ChannelCall where
  runtimeID : String
  pc : ChannelPc

structure EventSession where
  sessionToken : String
  eventCh : Option Nat := none

inductive HistoryKind where
  | opened
  | crashed
  deriving DecidableEq, Repr

structure HistoryEntry where
  kind : HistoryKind
  channel : Nat
  runtimeID : String
  executionID : String
  deriving DecidableEq, Repr

structure EventRegistry where
  runtimes : AList fun _ : String => EventSession := ∅
  channels : List ChannelCall := []
  store : Store := .empty
  -- the starts reported and the crash marks made so far; the code keeps no such list
  history : List HistoryEntry := []

inductive RegistryAction where
  | register (runtimeID sessionToken : String)
  | hello (runtimeID sessionToken : String)
  | publish (channel : Nat)
  | uplink (channel : Nat) (ev : ExecutionEventInput)
  | returns (channel : Nat)
  | unpublish (channel : Nat)
  | mark (channel : Nat) (now : Time)

def Phase.opens : Phase → Bool
  | .waiting _ _ | .started _ _ _ _ => true
  | .node _ | .finished _ _ => false

def Store.openExecutions (s : Store) (runtimeID : String) : List String :=
  s.executions.keys.filter fun id =>
    (s.executions.lookup id).any fun row =>
      row.runtimeID = runtimeID ∧ (row.status = .running ∨ row.status = .waiting)

namespace EventRegistry

def channelAt (s : EventRegistry) (k : Nat) (pc : ChannelPc) : Option ChannelCall :=
  s.channels[k]?.filter fun call => call.pc = pc

def setPc (s : EventRegistry) (k : Nat) (call : ChannelCall) (pc : ChannelPc) : EventRegistry :=
  { s with channels := s.channels.set k { call with pc } }

/-- `cur.eventCh` becomes nil where it still is the channel of the call. -/
def clear (s : EventRegistry) (runtimeID : String) (k : Nat) : EventRegistry :=
  match s.runtimes.lookup runtimeID with
  | some rt =>
    if rt.eventCh = some k then
      { s with runtimes := s.runtimes.insert runtimeID { rt with eventCh := none } }
    else s
  | none => s

def handleEventUplink (s : EventRegistry) (k : Nat) (call : ChannelCall)
    (ev : ExecutionEventInput) : EventRegistry :=
  { s with
    store := s.store.recordExecutionEvent call.runtimeID ev
    history := s.history ++
      if ev.phase.opens then [⟨.opened, k, call.runtimeID, ev.executionID⟩] else [] }

def step (s : EventRegistry) : RegistryAction → Option EventRegistry
  | .register runtimeID sessionToken =>
    some { s with runtimes := s.runtimes.insert runtimeID { sessionToken } }
  | .hello runtimeID sessionToken =>
    match s.runtimes.lookup runtimeID with
    | some rt =>
      if rt.sessionToken = sessionToken then
        some { s with channels := s.channels ++ [⟨runtimeID, .validated⟩] }
      else none
    | none => none
  | .publish k =>
    (s.channelAt k .validated).map fun call =>
      match s.runtimes.lookup call.runtimeID with
      | some rt =>
        { s.setPc k call .serving with
          runtimes := s.runtimes.insert call.runtimeID { rt with eventCh := some k } }
      | none => s.setPc k call .closed
  -- the receiving goroutine is not waited for, so it may handle a message at any later point
  | .uplink k ev =>
    (s.channels[k]?.filter fun call => call.pc ≠ .validated).map fun call =>
      s.handleEventUplink k call ev
  | .returns k => (s.channelAt k .serving).map fun call => s.setPc k call .returned
  | .unpublish k =>
    (s.channelAt k .returned).map fun call =>
      (s.setPc k call .unpublished).clear call.runtimeID k
  | .mark k now =>
    (s.channelAt k .unpublished).map fun call =>
      { s.setPc k call .closed with
        store := s.store.markRuntimeExecutionsCrashed call.runtimeID now
        history := s.history ++
          (s.store.openExecutions call.runtimeID).map (⟨.crashed, k, call.runtimeID, ·⟩) }

def start : EventRegistry := {}

def MarksLive (earlier later : HistoryEntry) : Prop :=
  earlier.kind = .opened ∧ later.kind = .crashed ∧ later.executionID = earlier.executionID ∧
    later.runtimeID = earlier.runtimeID ∧ later.channel < earlier.channel

instance (earlier later : HistoryEntry) : Decidable (MarksLive earlier later) :=
  inferInstanceAs (Decidable (_ ∧ _ ∧ _ ∧ _ ∧ _))

/-- No execution that a newer channel reported was marked by the cleanup of an older one. -/
def SparesNewer (s : EventRegistry) : Prop :=
  s.history.Pairwise fun earlier later => ¬ MarksLive earlier later

def cleanedUpBefore (s : EventRegistry) (k : Nat) : Bool :=
  s.channels[k]?.all fun new =>
    (s.channels.take k).all fun old =>
      !decide (old.runtimeID = new.runtimeID) || decide (old.pc = .closed)

def reportsInTurn (s : EventRegistry) : RegistryAction → Bool
  | .uplink k ev => !ev.phase.opens || s.cleanedUpBefore k
  | _ => true

variable {s : EventRegistry} {k : Nat} {a : RegistryAction} {entries : List HistoryEntry}
  (channels : List ChannelCall)

variable {call : ChannelCall}

theorem channelAt_eq_some {pc : ChannelPc} :
    s.channelAt k pc = some call ↔ s.channels[k]? = some call ∧ call.pc = pc := by
  simp [channelAt]

@[simp] theorem clear_channels (s : EventRegistry) (runtimeID : String) (k : Nat) :
    (s.clear runtimeID k).channels = s.channels := by
  unfold clear
  split
  · split <;> rfl
  · rfl

@[simp] theorem clear_history (s : EventRegistry) (runtimeID : String) (k : Nat) :
    (s.clear runtimeID k).history = s.history := by
  unfold clear
  split
  · split <;> rfl
  · rfl

/-! ### One step -/

def Later (before after : List ChannelCall) : Prop :=
  ∀ (k : Nat) (call : ChannelCall), before[k]? = some call →
    ∃ call', after[k]? = some call' ∧ call'.runtimeID = call.runtimeID ∧
      (call.pc = .closed → call'.pc = .closed)

theorem Later.refl : Later channels channels :=
  fun _ call hcall => ⟨call, hcall, rfl, id⟩

theorem later_concat (call : ChannelCall) : Later channels (channels ++ [call]) := by
  intro k old hold
  refine ⟨old, ?_, rfl, id⟩
  rw [List.getElem?_append_left (List.getElem?_eq_some_iff.mp hold).1, hold]

theorem later_set {channels : List ChannelCall} (hcall : channels[k]? = some call)
    (hpc : call.pc ≠ .closed) (pc : ChannelPc) :
    Later channels (channels.set k { call with pc }) := by
  intro other old hold
  by_cases heq : other = k
  · subst heq
    obtain rfl := Option.mem_unique hcall hold
    exact ⟨_, getElem?_set_of_getElem? hold _, rfl, fun hclosed => absurd hclosed hpc⟩
  · exact ⟨old, by rw [List.getElem?_set_ne (Ne.symm heq), hold], rfl, id⟩

inductive Adds (s : EventRegistry) : RegistryAction → List HistoryEntry → Prop where
  | nothing (a : RegistryAction) : Adds s a []
  | opened (k : Nat) (call : ChannelCall) (ev : ExecutionEventInput)
      (hcall : s.channels[k]? = some call) (hopens : ev.phase.opens = true) :
      Adds s (.uplink k ev) [⟨.opened, k, call.runtimeID, ev.executionID⟩]
  | crashed (k : Nat) (call : ChannelCall) (now : Time) (ids : List String)
      (hcall : s.channels[k]? = some call) (hpc : call.pc = .unpublished) :
      Adds s (.mark k now) (ids.map (⟨.crashed, k, call.runtimeID, ·⟩))

variable {next : EventRegistry}

theorem adds_of_step (hstep : s.step a = some next) :
    Later s.channels next.channels ∧ ∃ entries, next.history = s.history ++ entries ∧
      s.Adds a entries := by
  have hquiet : ∀ {a}, next.history = s.history →
      ∃ entries, next.history = s.history ++ entries ∧ s.Adds a entries :=
    fun hsame => ⟨[], by rw [hsame, List.append_nil], .nothing _⟩
  cases a with
  | register runtimeID token =>
    obtain rfl := Option.some.inj hstep
    exact ⟨.refl _, hquiet rfl⟩
  | hello runtimeID token =>
    simp only [step] at hstep
    split at hstep
    · split at hstep
      · obtain rfl := Option.some.inj hstep
        exact ⟨later_concat _ _, hquiet rfl⟩
      · contradiction
    · contradiction
  | publish k =>
    obtain ⟨call, hat, rfl⟩ := Option.map_eq_some_iff.mp hstep
    obtain ⟨hcall, hpc⟩ := channelAt_eq_some.mp hat
    revert hquiet
    split
    · exact fun hquiet => ⟨later_set hcall (by simp [hpc]) _, hquiet rfl⟩
    · exact fun hquiet => ⟨later_set hcall (by simp [hpc]) _, hquiet rfl⟩
  | uplink k ev =>
    obtain ⟨call, hat, rfl⟩ := Option.map_eq_some_iff.mp hstep
    have hcall := (Option.filter_eq_some_iff.mp hat).1
    refine ⟨.refl _, ?_⟩
    by_cases hopens : ev.phase.opens = true
    · refine ⟨_, ?_, .opened k call ev hcall hopens⟩
      rw [handleEventUplink, if_pos hopens]
    · refine hquiet ?_
      rw [handleEventUplink, if_neg hopens, List.append_nil]
  | returns k =>
    obtain ⟨call, hat, rfl⟩ := Option.map_eq_some_iff.mp hstep
    obtain ⟨hcall, hpc⟩ := channelAt_eq_some.mp hat
    exact ⟨later_set hcall (by simp [hpc]) _, hquiet rfl⟩
  | unpublish k =>
    obtain ⟨call, hat, rfl⟩ := Option.map_eq_some_iff.mp hstep
    obtain ⟨hcall, hpc⟩ := channelAt_eq_some.mp hat
    refine ⟨?_, hquiet (clear_history _ _ _)⟩
    rw [clear_channels]
    exact later_set hcall (by simp [hpc]) _
  | mark k now =>
    obtain ⟨call, hat, rfl⟩ := Option.map_eq_some_iff.mp hstep
    obtain ⟨hcall, hpc⟩ := channelAt_eq_some.mp hat
    exact ⟨later_set hcall (by simp [hpc]) _, _, rfl, .crashed k call now _ hcall hpc⟩

/-! ### Starts reported in turn -/

def ClosedBefore (channels : List ChannelCall) (k : Nat) (runtimeID : String) : Prop :=
  k < channels.length ∧ ∀ (j : Nat) (old : ChannelCall), j < k → channels[j]? = some old →
    old.runtimeID = runtimeID → old.pc = .closed

theorem closedBefore_of_cleanedUpBefore {new : ChannelCall} (hclean : s.cleanedUpBefore k = true)
    (hnew : s.channels[k]? = some new) : ClosedBefore s.channels k new.runtimeID := by
  refine ⟨(List.getElem?_eq_some_iff.mp hnew).1, fun j old hlt hold hsame => ?_⟩
  rw [cleanedUpBefore, hnew, Option.all_some, List.all_eq_true] at hclean
  have hmem : old ∈ s.channels.take k := by
    refine List.mem_of_getElem? (i := j) ?_
    rw [List.getElem?_take_of_lt hlt, hold]
  simpa [hsame] using hclean old hmem

theorem ClosedBefore.later {before after : List ChannelCall}
    (hclosed : ClosedBefore before k runtimeID) (hlater : Later before after) :
    ClosedBefore after k runtimeID := by
  obtain ⟨hk, hclosed⟩ := hclosed
  obtain ⟨_, hnew, _⟩ := hlater k _ (List.getElem?_eq_getElem hk)
  refine ⟨(List.getElem?_eq_some_iff.mp hnew).1, fun j old hlt hold hsame => ?_⟩
  have hj := List.getElem?_eq_getElem (hlt.trans hk)
  obtain ⟨old', hold', hid, hstays⟩ := hlater j _ hj
  obtain rfl := Option.mem_unique hold' hold
  exact hstays (hclosed j _ hlt hj (hid.symm.trans hsame))

structure InTurn (s : EventRegistry) : Prop where
  closedBefore : ∀ entry ∈ s.history, entry.kind = .opened →
    ClosedBefore s.channels entry.channel entry.runtimeID
  sparesNewer : s.SparesNewer

theorem not_marksLive_of_adds (hinv : s.InTurn) (hadds : s.Adds a entries)
    {earlier later : HistoryEntry} (hearlier : earlier ∈ s.history) (hlater : later ∈ entries) :
    ¬ MarksLive earlier later := by
  rintro ⟨hopened, hcrashed, -, hid, hlt⟩
  cases hadds with
  | nothing => exact absurd hlater List.not_mem_nil
  | opened k call ev hcall hopens =>
    obtain rfl := List.mem_singleton.mp hlater
    contradiction
  | crashed k call now ids hcall hpc =>
    obtain ⟨id, -, rfl⟩ := List.mem_map.mp hlater
    have hclosed := (hinv.closedBefore earlier hearlier hopened).2 k call hlt hcall hid
    rw [hpc] at hclosed
    contradiction

theorem Adds.pairwise (hadds : s.Adds a entries) :
    entries.Pairwise fun earlier later => ¬ MarksLive earlier later := by
  cases hadds with
  | nothing => exact .nil
  | opened k call ev hcall hopens => exact List.pairwise_singleton _ _
  | crashed k call now ids hcall hpc =>
    rw [List.pairwise_map]
    refine List.pairwise_of_forall fun first second => ?_
    rintro ⟨hopened, -⟩
    contradiction

theorem inTurn_step (hinv : s.InTurn) (hok : s.reportsInTurn a = true)
    (hstep : s.step a = some next) : next.InTurn := by
  obtain ⟨hlater, entries, hhistory, hadds⟩ := adds_of_step hstep
  refine ⟨?_, ?_⟩
  · intro entry hmem hopened
    refine ClosedBefore.later ?_ hlater
    rw [hhistory, List.mem_append] at hmem
    rcases hmem with hmem | hmem
    · exact hinv.closedBefore entry hmem hopened
    · cases hadds with
      | nothing => exact absurd hmem List.not_mem_nil
      | opened k call ev hcall hopens =>
        obtain rfl := List.mem_singleton.mp hmem
        refine closedBefore_of_cleanedUpBefore ?_ hcall
        simpa [reportsInTurn, hopens] using hok
      | crashed k call now ids hcall hpc =>
        obtain ⟨id, -, rfl⟩ := List.mem_map.mp hmem
        contradiction
  · rw [SparesNewer, hhistory, List.pairwise_append]
    exact ⟨hinv.sparesNewer, hadds.pairwise, fun earlier hearlier later hmem =>
      not_marksLive_of_adds hinv hadds hearlier hmem⟩

/--
No cleanup of an old channel marks an execution whose start was received over a newer channel
of the same runtime id, in every state of every run in which starts are reported over a
channel only after the earlier channels of the runtime id have been cleaned up.
-/
theorem cleanup_spares_newer_channels {actions : List RegistryAction} {s : EventRegistry}
    (hmeets : Meets step (fun s a => s.reportsInTurn a = true) start actions)
    (hrun : run step start actions = some s) : s.SparesNewer :=
  (run_invariant_of_meets inTurn_step (⟨nofun, .nil⟩ : start.InTurn) hmeets hrun).sparesNewer

def connect (token : String) (k : Nat) : List RegistryAction :=
  [.register "r" token, .hello "r" token, .publish k]

def cleanUp (k : Nat) : List RegistryAction := [.returns k, .unpublish k, .mark k 9]

/-- The first channel is cleaned up before the second reports; both marks hit their own. -/
theorem cleanup_in_turn :
    ∃ s, run step start (connect "t" 0 ++ [RegistryAction.uplink 0 (startedAt 1)] ++
        connect "u" 1 ++ cleanUp 0 ++ [RegistryAction.uplink 1 (startedAt 2)] ++ cleanUp 1) =
          some s ∧
      s.SparesNewer ∧ s.history.map HistoryEntry.kind = [.opened, .crashed, .opened, .crashed] := by
  simp only [And.comm (a := SparesNewer _)]
  exact exists_run_and (by decide +kernel) fun hmeets _ hrun =>
    cleanup_spares_newer_channels hmeets hrun

/--
The old call notices the loss of its stream late: by then the runtime has reported over its
new channel that the execution runs, and the mark hits it.
-/
theorem late_cleanup_crashes_live_execution :
    ∃ s, run step start (connect "t" 0 ++ connect "u" 1 ++
        [RegistryAction.uplink 1 (startedAt 1)] ++ cleanUp 0) = some s ∧
      s.store.status "e" = some .crashed ∧
      s.history = [⟨.opened, 1, "r", "e"⟩, ⟨.crashed, 0, "r", "e"⟩] ∧ ¬ s.SparesNewer := by
  unfold SparesNewer
  decide +kernel

end EventRegistry

end DataPipe.ControlPlane
