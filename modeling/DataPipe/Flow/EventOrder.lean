import DataPipe.ControlPlane.Executions
import DataPipe.Flow.Slots

/-!
# The order of the events of an execution

The tracker calls its sink after it has released its mutex, so a call can be overtaken by what
another thread does meanwhile.  The calls about one execution come in the documented order in
every interleaving in which no section under the mutex accepts an event for an execution whose
`Started` is still to be sent, or removes one with a call of the sink still to be made.
-/

set_option linter.dupNamespace false

namespace DataPipe.Flow

open DataPipe.Foundation DataPipe.ControlPlane

/-! ## The documented order -/

/-- Optionally `Waiting`, then `Started`, then node events, then one `Finished`. -/
def OrderedCalls (calls : List SinkCall) : Prop :=
  ∃ queued nodes status, (queued = [] ∨ queued = [.waiting]) ∧
    (∀ call ∈ nodes, call = .nodeEvent) ∧
    calls <+: queued ++ SinkCall.started :: (nodes ++ [SinkCall.finished status])

inductive CallStage where
  | idle
  | waited
  | running
  | finished (status : ExecutionStatus)
  deriving DecidableEq, Repr

def CallStage.next : CallStage → SinkCall → Option CallStage
  | .idle, .waiting => some .waited
  | .idle, .started => some .running
  | .waited, .started => some .running
  | .running, .nodeEvent => some .running
  | .running, .finished status => some (.finished status)
  | _, _ => none

def CallStage.Shape : CallStage → List SinkCall → Prop
  | .idle, calls => calls = []
  | .waited, calls => calls = [.waiting]
  | .running, calls => ∃ queued nodes, (queued = [] ∨ queued = [.waiting]) ∧
      (∀ call ∈ nodes, call = .nodeEvent) ∧ calls = queued ++ .started :: nodes
  | .finished status, calls => ∃ queued nodes, (queued = [] ∨ queued = [.waiting]) ∧
      (∀ call ∈ nodes, call = .nodeEvent) ∧
      calls = queued ++ .started :: (nodes ++ [.finished status])

variable {stage : CallStage} {calls : List SinkCall} {s : System} {pc : Pc} {t' : Tracker}
  {nodes : List SinkCall}

theorem shape_next {stage' : CallStage} {call : SinkCall} (hshape : stage.Shape calls)
    (hnext : stage.next call = some stage') : stage'.Shape (calls ++ [call]) := by
  revert hnext
  fun_cases stage.next call <;> rintro ⟨⟩
  case case1 =>
    subst hshape
    rfl
  case case2 =>
    subst hshape
    exact ⟨[], [], .inl rfl, by simp, rfl⟩
  case case3 =>
    subst hshape
    exact ⟨[.waiting], [], .inr rfl, by simp, rfl⟩
  case case4 =>
    obtain ⟨queued, nodes, hqueued, hnodes, rfl⟩ := hshape
    exact ⟨queued, nodes ++ [.nodeEvent], hqueued, forall_mem_concat hnodes rfl, by simp⟩
  case case5 =>
    obtain ⟨queued, nodes, hqueued, hnodes, rfl⟩ := hshape
    exact ⟨queued, nodes, hqueued, hnodes, by simp⟩

theorem shape_of_run (h : run CallStage.next .idle calls = some stage) : stage.Shape calls := by
  induction calls using List.reverseRecOn generalizing stage with
  | nil =>
    cases h
    rfl
  | append_singleton calls call ih =>
    obtain ⟨last, hlast, hnext⟩ := run_concat_eq_some.mp h
    exact shape_next (ih hlast) hnext

theorem CallStage.Shape.orderedCalls (h : stage.Shape calls) : OrderedCalls calls := by
  cases stage with
  | idle =>
    subst h
    exact ⟨[], [], .success, .inl rfl, by simp, List.nil_prefix⟩
  | waited =>
    subst h
    exact ⟨[.waiting], [], .success, .inr rfl, by simp, by simp⟩
  | running =>
    obtain ⟨queued, nodes, hqueued, hnodes, rfl⟩ := h
    refine ⟨queued, nodes, .success, hqueued, hnodes, ⟨[.finished .success], ?_⟩⟩
    simp
  | finished status =>
    obtain ⟨queued, nodes, hqueued, hnodes, rfl⟩ := h
    exact ⟨queued, nodes, status, hqueued, hnodes, List.prefix_refl _⟩

theorem foldl_apply_nodes (h : ∀ call ∈ nodes, call = .nodeEvent)
    (status : Option ExecutionStatus) :
    nodes.foldl (fun status call => call.apply status) status = status := by
  induction nodes with
  | nil => rfl
  | cons call nodes ih =>
    rw [h call List.mem_cons_self]
    exact ih fun other hother => h other (List.mem_cons_of_mem _ hother)

theorem finished_notMem_nodes (h : ∀ call ∈ nodes, call = .nodeEvent) (status : ExecutionStatus) :
    .finished status ∉ nodes := by
  intro hmem
  have := h _ hmem
  contradiction

theorem CallStage.Shape.status {status : ExecutionStatus} (h : stage.Shape calls)
    (hmem : .finished status ∈ calls) :
    calls.foldl (fun status call => call.apply status) none = some status := by
  cases stage with
  | idle =>
    subst h
    contradiction
  | waited =>
    subst h
    simp at hmem
  | running =>
    obtain ⟨queued, nodes, hqueued, hnodes, rfl⟩ := h
    have hnot := finished_notMem_nodes hnodes status
    rcases hqueued with rfl | rfl <;> simp [hnot] at hmem
  | finished last =>
    obtain ⟨queued, nodes, hqueued, hnodes, rfl⟩ := h
    have hnot := finished_notMem_nodes hnodes status
    obtain rfl : status = last := by
      rcases hqueued with rfl | rfl <;> simpa [hnot] using hmem
    rw [List.foldl_append, List.foldl_cons, List.foldl_append, foldl_apply_nodes hnodes]
    rfl

def stageOf (id : String) (trace : List Event) : Option CallStage :=
  run CallStage.next .idle (sinkCalls id trace)

theorem stageOf_concat (id : String) (trace : List Event) (event : Event) :
    stageOf id (trace ++ [event]) =
      match sinkCall id event with
      | none => stageOf id trace
      | some call => (stageOf id trace).bind fun stage => stage.next call := by
  unfold stageOf
  rw [sinkCalls_concat]
  cases sinkCall id event with
  | none => simp
  | some call =>
    ext stage
    simp only [Option.bind_eq_some_iff]
    exact run_concat_eq_some

/-! ## Who is still to call the sink -/

namespace Pc

/-- A `Start` that may still report `Waiting`. -/
def unwaited : Pc → Option String
  | .startEnter call | .startEval call | .startTry call _ | .startFull call
  | .startWaiting call => some call.id
  | _ => none

/-- A `NodeEvent` that leaves its execution active, before its report. -/
def reporting : Pc → Option String
  | .eventSink call none => some call.id
  | _ => none

variable {id : String}

theorem starting_of_unwaited (h : pc.unwaited = some id) : pc.starting = some id := by
  cases pc <;> simp_all [unwaited, starting]

def subject : Pc → Option String
  | .startEnter call | .startEval call | .startTry call _ | .startFull call
  | .startWaiting call | .startEvalWait call | .startBlocked call _
  | .startInsert call _ | .startStarted call _ => some call.id
  | .eventEnter call | .eventSink call _ => some call.id
  | .cancelEnter _ id | .timeoutEnter _ id => some id
  | .release c | .releaseEval c | .releaseRecv c _ | .finish c => some c.id
  | .reconfIdle _ | .reconfSwap _ | .returned _ => none

def Owes (pc : Pc) (id : String) : Prop :=
  pc.starting = some id ∨ pc.announcing = some id ∨ pc.reporting = some id ∨ pc.finishing = some id

theorem Owes.subject (h : pc.Owes id) : pc.subject = some id := by
  cases pc with
  | eventSink call done =>
    cases done <;> simp_all [Owes, starting, announcing, reporting, finishing, releasing, subject]
  | _ => simp_all [Owes, starting, announcing, reporting, finishing, releasing, subject]

def Terminal : Pc → Prop
  | .release c | .releaseEval c | .releaseRecv c _ | .finish c => c.status ≠ .running
  | _ => True

end Pc

def Event.Terminal : Event → Prop
  | .finished _ _ status _ _ => status ≠ .running
  | _ => True

theorem completion_terminal (call : EventCall) (st : ExecState) :
    (call.completion st).status ≠ .running := by
  unfold EventCall.completion
  split <;> nofun

def Event.about : Event → String
  | .waiting _ id _ _ _ | .inserted id | .started _ id _ _ _ _ _ | .accepted id
  | .nodeEvent _ id _ | .finished _ id _ _ _ | .acquired id _ | .released id _ _ => id

theorem unrecorded_of_about_ne {id : String} {event : Event} (hne : event.about ≠ id) :
    sinkCall id event = none ∧ ownCount Event.insertedID id event = 0 ∧
      ownCount Event.finishedID id event = 0 := by
  cases event <;>
    simp_all [sinkCall, uplink, ownCount, Event.insertedID, Event.finishedID, Event.about]

namespace Tracker

/-- A step keeps to the execution of its thread and to the status it has settled on. -/
structure KeepsTo (t t' : Tracker) (pc pc' : Pc) : Prop where
  subject : pc'.subject = pc.subject ∨ pc'.subject = none
  trace : t'.trace = t.trace ∨ ∃ event, t'.trace = t.trace ++ [event] ∧
    pc.subject = some event.about ∧ (uplink event = none ∨ pc.Owes event.about) ∧
    (pc.Terminal → event.Terminal)
  terminal : pc.Terminal → pc'.Terminal

theorem keepsTo_advance {now : Time} {t : Tracker} {pc' : Pc}
    (hstep : t.advance now pc = some (t', pc')) : KeepsTo t t' pc pc' := by
  cases advances_of_advance hstep with
  | taken call ch hsend | unblocked call ch hsend =>
    obtain ⟨k, sem, sem', -, -, -, hsets⟩ := sendOn_spec hsend
    exact ⟨.inl rfl, .inr ⟨_, hsets.trace_eq, rfl, .inl rfl, fun _ => trivial⟩, id⟩
  | waiting call => exact ⟨.inl rfl, .inr ⟨_, rfl, rfl, .inr (.inl rfl), id⟩, id⟩
  | inserted call token => exact ⟨.inl rfl, .inr ⟨_, rfl, rfl, .inl rfl, id⟩, id⟩
  | started call atTime =>
    exact ⟨.inr rfl, .inr ⟨_, rfl, rfl, .inr (.inr (.inl rfl)), id⟩, fun _ => trivial⟩
  | accepted call done hlocked =>
    obtain ⟨-, -, -, -, htrace⟩ := nodeEventLocked_spec hlocked
    exact ⟨.inl rfl, .inr ⟨_, htrace, rfl, .inl rfl, id⟩, id⟩
  | reported call =>
    exact ⟨.inr rfl, .inr ⟨_, rfl, rfl, .inr (.inr (.inr (.inl rfl))), id⟩, fun _ => trivial⟩
  | completed call st =>
    exact ⟨.inl rfl, .inr ⟨_, rfl, rfl, .inr (.inr (.inr (.inr rfl))), id⟩,
      fun _ => completion_terminal call st⟩
  | cancelled flowID other hlocked | timedOut flowID other hlocked =>
    obtain ⟨-, -, -, -, htrace⟩ := removeLocked_spec hlocked
    exact ⟨.inl rfl, .inl htrace, fun _ => by simp [Pc.Terminal]⟩
  | released c ch hreceive =>
    obtain ⟨k, sem, owner, sem', -, -, -, hsets⟩ := receiveOn_spec hreceive
    exact ⟨.inl rfl, .inr ⟨_, hsets.trace_eq, rfl, .inl rfl, fun _ => trivial⟩, id⟩
  | finished c =>
    exact ⟨.inr rfl, .inr ⟨_, rfl, rfl, .inr (.inr (.inr (.inr rfl))), id⟩, fun _ => trivial⟩
  | rejected call | untracked call | notCancelled flowID other | notTimedOut flowID other =>
    exact ⟨.inr rfl, .inl rfl, fun _ => trivial⟩
  | _ => exact ⟨.inl rfl, .inl rfl, id⟩

end Tracker

structure Ledger where
  stage : Option CallStage
  unwaited : Nat
  starting : Nat
  announcing : Nat
  reporting : Nat
  finishing : Nat
  inserted : Nat
  finished : Nat

def System.ledger (s : System) (id : String) : Ledger where
  stage := stageOf id s.tracker.trace
  unwaited := tally Pc.unwaited s.threads id
  starting := tally Pc.starting s.threads id
  announcing := tally Pc.announcing s.threads id
  reporting := tally Pc.reporting s.threads id
  finishing := tally Pc.finishing s.threads id
  inserted := s.tracker.insertedCount id
  finished := s.tracker.finishedCount id

def Ledger.Fits (l : Ledger) : Prop :=
  match l.stage with
  | none => False
  | some .idle =>
    l.announcing = l.inserted ∧ l.reporting = 0 ∧ l.finishing = 0 ∧ l.finished = 0
  | some .waited =>
    l.unwaited = 0 ∧ l.announcing = l.inserted ∧ l.reporting = 0 ∧ l.finishing = 0 ∧ l.finished = 0
  | some .running =>
    l.starting = 0 ∧ l.announcing = 0 ∧ (l.finishing = 0 ∨ l.reporting = 0) ∧ l.finished = 0
  | some (.finished _) =>
    l.starting = 0 ∧ l.announcing = 0 ∧ l.reporting = 0 ∧ l.finishing = 0 ∧ l.finished = 1

variable {l : Ledger}

theorem Ledger.Fits.of_fewer {l' : Ledger} (h : l.Fits) (hstage : l'.stage = l.stage)
    (hunwaited : l'.unwaited ≤ l.unwaited) (hstarting : l'.starting ≤ l.starting)
    (hannouncing : l'.announcing = l.announcing) (hreporting : l'.reporting = l.reporting)
    (hfinishing : l'.finishing = l.finishing) (hinserted : l'.inserted = l.inserted)
    (hfinished : l'.finished = l.finished) : l'.Fits := by
  unfold Fits at h ⊢
  rw [hstage, hannouncing, hreporting, hfinishing, hinserted, hfinished]
  split at h
  case h_1 => exact h
  case h_2 => exact h
  case h_3 => exact ⟨by omega, h.2⟩
  case h_4 => exact ⟨by omega, h.2⟩
  case h_5 => exact ⟨by omega, h.2⟩

theorem Ledger.Fits.early (h : l.Fits) (hpos : 0 < l.starting + l.announcing) :
    (l.stage = some .idle ∨ l.stage = some .waited ∧ l.unwaited = 0) ∧
      l.announcing = l.inserted ∧ l.reporting = 0 ∧ l.finishing = 0 ∧ l.finished = 0 := by
  unfold Fits at h
  split at h
  case h_1 => contradiction
  case h_2 hstage => exact ⟨.inl hstage, h⟩
  case h_3 hstage => exact ⟨.inr ⟨hstage, h.1⟩, h.2⟩
  case h_4 => omega
  case h_5 => omega

theorem Ledger.Fits.running (h : l.Fits)
    (hpos : 0 < l.reporting + l.finishing ∨ l.announcing < l.inserted ∧ l.finished = 0) :
    l.stage = some .running ∧ l.starting = 0 ∧ l.announcing = 0 ∧
      (l.finishing = 0 ∨ l.reporting = 0) ∧ l.finished = 0 := by
  unfold Fits at h
  split at h
  case h_1 => contradiction
  case h_2 => omega
  case h_3 => omega
  case h_4 hstage => exact ⟨hstage, h⟩
  case h_5 => omega

theorem Ledger.fits_of_running (hstage : l.stage = some .running) (hstarting : l.starting = 0)
    (hannouncing : l.announcing = 0) (hpending : l.finishing = 0 ∨ l.reporting = 0)
    (hfinished : l.finished = 0) : l.Fits := by
  rw [Fits, hstage]
  exact ⟨hstarting, hannouncing, hpending, hfinished⟩

namespace System

def InOrder (s : System) : Prop := ∀ id, (s.ledger id).Fits

structure Shift (pc pc' : Pc) (id : String) (l l' : Ledger) : Prop where
  unwaited : l'.unwaited + ownCount Pc.unwaited id pc = l.unwaited + ownCount Pc.unwaited id pc'
  starting : l'.starting + ownCount Pc.starting id pc = l.starting + ownCount Pc.starting id pc'
  announcing : l'.announcing + ownCount Pc.announcing id pc =
    l.announcing + ownCount Pc.announcing id pc'
  reporting : l'.reporting + ownCount Pc.reporting id pc =
    l.reporting + ownCount Pc.reporting id pc'
  finishing : l'.finishing + ownCount Pc.finishing id pc =
    l.finishing + ownCount Pc.finishing id pc'

variable {index : Nat}

theorem shift_ledger (hpc : s.threads[index]? = some pc) (pc' : Pc) (t' : Tracker) (id : String) :
    Shift pc pc' id (s.ledger id)
      (ledger { s with tracker := t', threads := s.threads.set index pc' } id) where
  unwaited := tally_set Pc.unwaited hpc pc' id
  starting := tally_set Pc.starting hpc pc' id
  announcing := tally_set Pc.announcing hpc pc' id
  reporting := tally_set Pc.reporting hpc pc' id
  finishing := tally_set Pc.finishing hpc pc' id

theorem ledger_record {event : Event} (htrace : t'.trace = s.tracker.trace ++ [event])
    (threads : List Pc) (used : List String) (id : String) : (ledger ⟨t', threads, used⟩ id).stage =
        (match sinkCall id event with
        | none => (s.ledger id).stage
        | some call => (s.ledger id).stage.bind fun stage => stage.next call) ∧
      (ledger ⟨t', threads, used⟩ id).inserted =
        (s.ledger id).inserted + ownCount Event.insertedID id event ∧
      (ledger ⟨t', threads, used⟩ id).finished =
        (s.ledger id).finished + ownCount Event.finishedID id event := by
  refine ⟨?_, ?_, ?_⟩
  · simp only [ledger, htrace]
    exact stageOf_concat id _ event
  · simp only [ledger, Tracker.insertedCount, htrace]
    exact tally_concat _ _ _ _
  · simp only [ledger, Tracker.finishedCount, htrace]
    exact tally_concat _ _ _ _

variable {id : String}

theorem ledger_other {pc' : Pc} (hpc : s.threads[index]? = some pc)
    (hkeeps : s.tracker.KeepsTo t' pc pc') (hid : pc.subject ≠ some id) :
    ledger { s with tracker := t', threads := s.threads.set index pc' } id =
      s.ledger id := by
  have hid' : pc'.subject ≠ some id := by
    rcases hkeeps.subject with h | h
    · rwa [h]
    · simp [h]
  have hfields : stageOf id t'.trace = stageOf id s.tracker.trace ∧
      t'.insertedCount id = s.tracker.insertedCount id ∧
      t'.finishedCount id = s.tracker.finishedCount id := by
    rcases hkeeps.trace with htrace | ⟨event, htrace, habout, -, -⟩
    · simp [Tracker.insertedCount, Tracker.finishedCount, htrace]
    · have hne : event.about ≠ id := by
        rintro rfl
        exact hid habout
      obtain ⟨hcall, hinserted, hfinished⟩ := unrecorded_of_about_ne hne
      have hrecord := ledger_record htrace [] [] id
      rw [hcall, hinserted, hfinished] at hrecord
      exact hrecord
  have hkept {owned : Pc → Option String}
      (howned : ∀ {pc : Pc}, owned pc = some id → pc.Owes id) :
      tally owned (s.threads.set index pc') id = tally owned s.threads id := by
    have hset := tally_set owned hpc pc' id
    rwa [ownCount, ownCount, if_neg fun h => hid (howned h).subject,
      if_neg fun h => hid' (howned h).subject] at hset
  rw [Ledger.mk.injEq]
  exact ⟨hfields.1, hkept fun h => .inl (Pc.starting_of_unwaited h), hkept .inl,
    hkept fun h => .inr (.inl h), hkept fun h => .inr (.inr (.inl h)),
    hkept fun h => .inr (.inr (.inr h)), hfields.2⟩

/-! ## What each step does to its own execution -/

def Unheard (t t' : Tracker) : Prop :=
  t'.trace = t.trace ∨ ∃ event, t'.trace = t.trace ++ [event] ∧ uplink event = none ∧
    event.insertedID = none ∧ event.finishedID = none

variable {done : Option ExecState}

section Step

variable {index : Nat} {pc' : Pc} {id : String}

theorem ledger_unheard (hunheard : Unheard s.tracker t') (threads : List Pc)
    (used : List String) (id : String) :
    (ledger ⟨t', threads, used⟩ id).stage = (s.ledger id).stage ∧
      (ledger ⟨t', threads, used⟩ id).inserted = (s.ledger id).inserted ∧
      (ledger ⟨t', threads, used⟩ id).finished = (s.ledger id).finished := by
  rcases hunheard with htrace | ⟨event, htrace, hup, hins, hfin⟩
  · simp [ledger, Tracker.insertedCount, Tracker.finishedCount, htrace]
  · have hrecord := ledger_record htrace threads used id
    simpa [sinkCall, hup, ownCount, hins, hfin] using hrecord

theorem fits_unheard (hfits : (s.ledger id).Fits) (hpc : s.threads[index]? = some pc)
    (hunheard : Unheard s.tracker t') (hunwaited : pc'.unwaited = pc.unwaited ∨ pc'.unwaited = none)
    (hstarting : pc'.starting = pc.starting ∨ pc'.starting = none)
    (hannouncing : pc'.announcing = pc.announcing) (hreporting : pc'.reporting = pc.reporting)
    (hfinishing : pc'.finishing = pc.finishing) :
    (ledger { s with tracker := t', threads := s.threads.set index pc' } id).Fits := by
  obtain ⟨hsunwaited, hsstarting, hsannouncing, hsreporting, hsfinishing⟩ :=
    shift_ledger hpc pc' t' id
  have fewer {owned : Pc → Option String} (h : owned pc' = owned pc ∨ owned pc' = none) :
      ownCount owned id pc' ≤ ownCount owned id pc := by
    unfold ownCount
    rcases h with h | h
    · rw [h]
    · simp [h]
  have hunwaited' := fewer hunwaited
  have hstarting' := fewer hstarting
  simp only [ownCount, hannouncing, hreporting, hfinishing] at hsannouncing hsreporting hsfinishing
  obtain ⟨hstage, hinserted, hfinished⟩ :=
    ledger_unheard hunheard (s.threads.set index pc') s.used id
  exact hfits.of_fewer hstage (by omega) (by omega) (by omega) (by omega) (by omega)
    hinserted hfinished

theorem ledger_fresh (hlife : s.Lifecycle) (id : String) :
    (s.ledger id).inserted + (s.ledger id).starting ≤ 1 :=
  hlife.fresh id

theorem ledger_accounted (hlife : s.Lifecycle) (id : String) :
    (s.ledger id).finished + s.tracker.activeCount id + (s.ledger id).finishing =
      (s.ledger id).inserted :=
  hlife.accounted id

theorem ledger_unwaited (s : System) (id : String) :
    (s.ledger id).unwaited ≤ (s.ledger id).starting :=
  tally_le_tally (fun _ => Pc.starting_of_unwaited) s.threads

/-- What an event does to the ledger of an execution, recorded while a thread moves on. -/
structure Records (pc pc' : Pc) (event : Event) (id : String) (l l' : Ledger) : Prop
    extends Shift pc pc' id l l' where
  stage : l'.stage = match sinkCall id event with
    | none => l.stage
    | some call => l.stage.bind fun stage => stage.next call
  inserted : l'.inserted = l.inserted + ownCount Event.insertedID id event
  finished : l'.finished = l.finished + ownCount Event.finishedID id event

theorem records_ledger {event : Event} (hpc : s.threads[index]? = some pc)
    (htrace : t'.trace = s.tracker.trace ++ [event]) (pc' : Pc) (id : String) :
    Records pc pc' event id (s.ledger id)
      (ledger { s with tracker := t', threads := s.threads.set index pc' } id) := by
  obtain ⟨hstage, hinserted, hfinished⟩ :=
    ledger_record htrace (s.threads.set index pc') s.used id
  exact ⟨shift_ledger hpc pc' t' id, hstage, hinserted, hfinished⟩

variable {l l' : Ledger}

theorem fits_remove (hlife : s.Lifecycle) (hfits : (s.ledger id).Fits)
    (hpc : s.threads[index]? = some pc) (hactive : id ∈ s.tracker.active.keys)
    (hannounced : (s.ledger id).announcing = 0) (hreported : (s.ledger id).reporting = 0)
    (hunheard : Unheard s.tracker t') (hstarting' : pc'.starting = none)
    (hannouncing' : pc'.announcing = none) (hreporting' : pc'.reporting = none) :
    (ledger { s with tracker := t', threads := s.threads.set index pc' } id).Fits := by
  obtain ⟨-, hstarting, hannouncing, hreporting, hfinishing⟩ := shift_ledger hpc pc' t' id
  simp only [ownCount, hstarting', hannouncing', hreporting', reduceCtorEq, if_false]
    at hstarting hannouncing hreporting
  have hfresh := ledger_fresh hlife id
  have haccounted := ledger_accounted hlife id
  have hpos : 0 < s.tracker.activeCount id := List.count_pos_iff.mpr hactive
  obtain ⟨hrunning, hrest⟩ := hfits.running (by omega)
  obtain ⟨hstage, -, hfinished⟩ :=
    ledger_unheard hunheard (s.threads.set index pc') s.used id
  apply Ledger.fits_of_running (hstage.trans hrunning)
  · omega
  · omega
  · right
    omega
  · omega

theorem Records.fits_report {call : EventCall}
    (h : Records (.eventSink call done) pc' (.nodeEvent call.flowID call.id call.io) call.id l l')
    (hfits : l.Fits) (hpos : 0 < l.reporting + l.finishing)
    (hpc' : pc'.starting = none ∧ pc'.announcing = none ∧ pc'.reporting = none)
    (hdone : pc'.finishing = done.map fun _ => call.id) : l'.Fits := by
  obtain ⟨⟨-, hstarting, hannouncing, hreporting, hfinishing⟩, hstage, -, hfinished⟩ := h
  simp only [ownCount, hpc'.1, hpc'.2.1, hpc'.2.2, hdone, Event.finishedID, reduceCtorEq, if_false]
    at hstarting hannouncing hreporting hfinishing hfinished
  obtain ⟨hrunning, hrest⟩ := hfits.running (.inl hpos)
  have hstage' : l'.stage = some .running := by
    rw [hstage, hrunning]
    simp [sinkCall, uplink, Phase.sinkCall, CallStage.next]
  cases done <;>
    simp only [Pc.finishing, Pc.releasing, Option.map_none, Option.map_some, reduceCtorEq, if_true,
      if_false] at hreporting hfinishing <;>
    apply Ledger.fits_of_running hstage' <;> omega

attribute [local simp] ownCount Pc.unwaited Pc.starting Pc.announcing Pc.reporting Pc.finishing
  Pc.releasing Event.insertedID Event.finishedID sinkCall uplink Phase.sinkCall CallStage.next

variable {call : StartCall} {now : Time}

theorem Records.fits_waiting
    (h : Records (.startWaiting call) (.startEvalWait call)
      (.waiting call.flowID call.id call.triggerNodeID now call.seed) call.id l l')
    (hfits : l.Fits) (hfresh : l.inserted + l.starting ≤ 1) (hle : l.unwaited ≤ l.starting) :
    l'.Fits := by
  obtain ⟨⟨_, _, _, _, _⟩, hstage, _, _⟩ := h
  simp at *
  obtain ⟨hearly, hrest⟩ := hfits.early (by omega)
  have hidle : l.stage = some .idle := by
    rcases hearly with h | ⟨_, h⟩
    · exact h
    · omega
  rw [Ledger.Fits, hstage, hidle]
  dsimp only [Option.bind_some]
  omega

theorem Records.fits_insert {token : Option Nat}
    (h : Records (.startInsert call token) (.startStarted call now) (.inserted call.id) call.id
      l l') (hfits : l.Fits) : l'.Fits := by
  obtain ⟨⟨_, _, _, _, _⟩, hstage, _, _⟩ := h
  simp at *
  obtain ⟨hidle | ⟨hwaited, hnone⟩, hrest⟩ := hfits.early (by omega)
  · rw [Ledger.Fits, hstage, hidle]
    omega
  · rw [Ledger.Fits, hstage, hwaited]
    omega

variable {result : Result}

theorem Records.fits_started {atTime : Time}
    (h : Records (.startStarted call atTime) (.returned result) (.started call.flowID call.id
      call.triggerNodeID call.triggerKind call.reRunOf atTime call.seed) call.id l l')
    (hfits : l.Fits) (hfresh : l.inserted + l.starting ≤ 1) : l'.Fits := by
  obtain ⟨⟨_, _, _, _, _⟩, hstage, _, _⟩ := h
  simp at *
  obtain ⟨hearly, hrest⟩ := hfits.early (by omega)
  have hrunning : l'.stage = some .running := by
    rw [hstage]
    rcases hearly with h | ⟨h, _⟩ <;> simp [h]
  apply Ledger.fits_of_running hrunning <;> omega

theorem Records.fits_accept {call : EventCall}
    (h : Records (.eventEnter call) (.eventSink call none) (.accepted call.id) call.id l l')
    (hfits : l.Fits) (hfresh : l.inserted + l.starting ≤ 1)
    (haccounted : l.finished + l.finishing < l.inserted) (hzero : l.announcing = 0) : l'.Fits := by
  obtain ⟨⟨_, _, _, _, _⟩, hstage, _, _⟩ := h
  simp at *
  obtain ⟨hrunning, hrest⟩ := hfits.running (by omega)
  apply Ledger.fits_of_running (hstage.trans hrunning) <;> omega

theorem Records.fits_finish {c : Completion}
    (h : Records (.finish c) (.returned result) (.finished c.flowID c.id c.status now c.reason)
      c.id l l') (hfits : l.Fits) (hfresh : l.inserted + l.starting ≤ 1)
    (haccounted : l.finished + l.finishing ≤ l.inserted) : l'.Fits := by
  obtain ⟨⟨_, _, _, _, _⟩, hstage, _, _⟩ := h
  simp at *
  obtain ⟨hrunning, hrest⟩ := hfits.running (by omega)
  rw [Ledger.Fits, hstage, hrunning]
  dsimp only [Option.bind_some]
  omega

end Step

/-! ## The interleavings in which no call is overtaken -/

def announces (s : System) (id : String) : Bool :=
  s.threads.any fun pc => pc.announcing = some id

def reports (s : System) (id : String) : Bool :=
  s.threads.any fun pc => pc.reporting = some id

def heard (s : System) (id : String) : Bool := !s.announces id && !s.reports id

/--
A section that accepts an event finds `Started` sent, and a section that
removes an execution finds everything sent that was accepted for it.
-/
def calm (s : System) : Action → Bool
  | .proceed thread _ =>
    match s.threads[thread]? with
    | some (.eventEnter call) =>
      match s.tracker.active.lookup call.id with
      | some st =>
        if st.pending + call.io.outputs.length ≤ 1 then s.heard call.id
        else !s.announces call.id
      | none => true
    | some (.cancelEnter _ id) | some (.timeoutEnter _ id) =>
      !s.tracker.active.keys.contains id || s.heard id
    | _ => true
  | _ => true

theorem tally_of_any_eq_false {owned : Pc → Option String}
    (h : (s.threads.any fun pc => owned pc = some id) = false) : tally owned s.threads id = 0 := by
  refine Nat.eq_zero_of_not_pos fun hpos => ?_
  obtain ⟨pc, hpc, hid⟩ := tally_pos_iff.mp hpos
  exact absurd (decide_eq_true hid) (List.any_eq_false.mp h pc hpc)

theorem tally_of_heard (h : s.heard id = true) :
    tally Pc.announcing s.threads id = 0 ∧ tally Pc.reporting s.threads id = 0 := by
  simp only [heard, Bool.and_eq_true, Bool.not_eq_true'] at h
  exact ⟨tally_of_any_eq_false h.1, tally_of_any_eq_false h.2⟩

theorem nodeEventLocked_done {t : Tracker} {call : EventCall}
    (hlocked : t.nodeEventLocked call = some (t', done)) : ∃ st, t.active.lookup call.id = some st ∧
      (done.isSome ↔ st.pending + call.io.outputs.length ≤ 1) := by
  revert hlocked
  fun_cases t.nodeEventLocked call <;> rintro ⟨⟩
  next st hlookup next hle =>
    rw [Tracker.nextState_pending] at hle
    exact ⟨st, hlookup, by simp; omega⟩
  next st hlookup next hlt =>
    rw [Tracker.nextState_pending] at hlt
    exact ⟨st, hlookup, by simp; omega⟩

section Advance

variable {thread : Nat} {now : Time} {pc' : Pc}

theorem fits_event {call : EventCall} (hlife : s.Lifecycle) (horder : s.InOrder)
    (hcalm : s.calm (.proceed thread now) = true)
    (hpc : s.threads[thread]? = some (.eventEnter call))
    (hlocked : s.tracker.nodeEventLocked call = some (t', done)) :
    (ledger { s with tracker := t', threads := s.threads.set thread (.eventSink call done) }
      call.id).Fits := by
  obtain ⟨hactive, -, -, -, htrace⟩ := Tracker.nodeEventLocked_spec hlocked
  obtain ⟨st, hst, hdone⟩ := nodeEventLocked_done hlocked
  simp only [calm, hpc, hst] at hcalm
  cases done with
  | none =>
    rw [if_neg (fun hle => by simpa using hdone.mpr hle)] at hcalm
    have hannounced : s.announces call.id = false := by simpa using hcalm
    have hfresh := ledger_fresh hlife call.id
    have haccounted := ledger_accounted hlife call.id
    have hpos : 0 < s.tracker.activeCount call.id := List.count_pos_iff.mpr hactive
    exact (records_ledger hpc htrace _ _).fits_accept (horder _) hfresh (by omega)
      (tally_of_any_eq_false hannounced)
  | some final =>
    rw [if_pos (hdone.mp rfl)] at hcalm
    obtain ⟨hannounced, hreported⟩ := tally_of_heard hcalm
    exact fits_remove hlife (horder _) hpc hactive hannounced hreported
      (.inr ⟨_, htrace, rfl, rfl, rfl⟩) rfl rfl rfl

theorem fits_removed {id : String} (hlife : s.Lifecycle) (horder : s.InOrder)
    (hcalm : (!s.tracker.active.keys.contains id || s.heard id) = true)
    (hpc : s.threads[thread]? = some pc) (hlocked : s.tracker.removeLocked id = some t')
    (c : Completion) :
    (ledger { s with tracker := t', threads := s.threads.set thread (.release c) } id).Fits := by
  obtain ⟨hactive, -, -, -, htrace⟩ := Tracker.removeLocked_spec hlocked
  have hheard : s.heard id = true := by
    rw [List.contains_iff_mem.mpr hactive] at hcalm
    simpa using hcalm
  obtain ⟨hannounced, hreported⟩ := tally_of_heard hheard
  exact fits_remove hlife (horder _) hpc hactive hannounced hreported (.inl htrace) rfl rfl rfl

theorem inOrder_advance (hlife : s.Lifecycle) (horder : s.InOrder)
    (hcalm : s.calm (.proceed thread now) = true) (hpc : s.threads[thread]? = some pc)
    (hadvance : s.tracker.advance now pc = some (t', pc')) :
    InOrder { s with tracker := t', threads := s.threads.set thread pc' } := by
  intro id
  by_cases hid : pc.subject = some id
  case neg =>
    rw [ledger_other hpc (Tracker.keepsTo_advance hadvance) hid]
    exact horder id
  case pos =>
    cases Tracker.advances_of_advance hadvance with
    | unlimited call hsem =>
      exact fits_unheard (horder _) hpc (.inl rfl) (.inr rfl) (.inl rfl) rfl rfl rfl
    | taken call ch hsend | unblocked call ch hsend =>
      obtain ⟨k, sem, sem', -, -, -, hsets⟩ := Tracker.sendOn_spec hsend
      exact fits_unheard (horder _) hpc (.inr ⟨_, hsets.trace_eq, rfl, rfl, rfl⟩)
        (.inr rfl) (.inl rfl) rfl rfl rfl
    | rejected call =>
      exact fits_unheard (horder _) hpc (.inl rfl) (.inr rfl) (.inr rfl) rfl rfl rfl
    | waiting call =>
      cases hid
      exact (records_ledger hpc rfl _ _).fits_waiting (horder _) (ledger_fresh hlife _)
        (ledger_unwaited s _)
    | inserted call token =>
      cases hid
      exact (records_ledger hpc rfl _ _).fits_insert (horder _)
    | started call atTime =>
      cases hid
      exact (records_ledger hpc rfl _ _).fits_started (horder _) (ledger_fresh hlife _)
    | accepted call done hlocked =>
      cases hid
      exact fits_event hlife horder hcalm hpc hlocked
    | reported call =>
      cases hid
      have hpos : 0 < (s.ledger call.id).reporting :=
        tally_pos_iff.mpr ⟨_, List.mem_of_getElem? hpc, rfl⟩
      exact (records_ledger hpc rfl _ _).fits_report (horder _) (by omega) ⟨rfl, rfl, rfl⟩ rfl
    | completed call st =>
      cases hid
      have hpos : 0 < (s.ledger call.id).finishing :=
        tally_pos_iff.mpr ⟨_, List.mem_of_getElem? hpc, rfl⟩
      exact (records_ledger hpc rfl _ _).fits_report (horder _) (by omega) ⟨rfl, rfl, rfl⟩ rfl
    | cancelled flowID other hlocked | timedOut flowID other hlocked =>
      cases hid
      simp only [calm, hpc] at hcalm
      exact fits_removed hlife horder hcalm hpc hlocked _
    | released c ch hreceive =>
      obtain ⟨k, sem, owner, sem', -, -, -, hsets⟩ := Tracker.receiveOn_spec hreceive
      exact fits_unheard (horder _) hpc (.inr ⟨_, hsets.trace_eq, rfl, rfl, rfl⟩)
        (.inl rfl) (.inl rfl) rfl rfl rfl
    | finished c =>
      cases hid
      have haccounted := ledger_accounted hlife c.id
      exact (records_ledger hpc rfl _ _).fits_finish (horder _) (ledger_fresh hlife _) (by omega)
    | busy settings | idle settings | swapped r => cases hid
    | _ => exact fits_unheard (horder _) hpc (.inl rfl) (.inl rfl) (.inl rfl) rfl rfl rfl

end Advance

/-! ## Whole runs -/

structure Orderly (s : System) : Prop where
  life : s.Lifecycle
  order : s.InOrder
  unsaid : ∀ id, id ∉ s.used → (s.ledger id).stage = some .idle
  threads : ∀ pc ∈ s.threads, pc.Terminal
  trace : ∀ event ∈ s.tracker.trace, event.Terminal

section Orderly

variable {id : String}

theorem Orderly.unused (horderly : s.Orderly) (hunused : id ∉ s.used) :
    (s.ledger id).starting = 0 ∧ (s.ledger id).announcing = 0 ∧
      (s.ledger id).reporting = 0 ∧ (s.ledger id).finishing = 0 := by
  have hnone : ¬ 0 < (s.ledger id).inserted + (s.ledger id).starting :=
    fun hpos => hunused (horderly.life.known id hpos)
  have hfits := horderly.order id
  rw [Ledger.Fits, horderly.unsaid id hunused] at hfits
  omega

theorem Orderly.not_owes (horderly : s.Orderly) (hunused : id ∉ s.used) (hpc : pc ∈ s.threads) :
    ¬ pc.Owes id := by
  obtain ⟨hstarting, hannouncing, hreporting, hfinishing⟩ := horderly.unused hunused
  have hpos {owned : Pc → Option String} (h : owned pc = some id) : tally owned s.threads id ≠ 0 :=
    (tally_pos_iff.mpr ⟨pc, hpc, h⟩).ne'
  rintro (h | h | h | h)
  · exact hpos h hstarting
  · exact hpos h hannouncing
  · exact hpos h hreporting
  · exact hpos h hfinishing

theorem orderly_advance {thread : Nat} {now : Time} {pc' : Pc} (horderly : s.Orderly)
    (hcalm : s.calm (.proceed thread now) = true) (hpc : s.threads[thread]? = some pc)
    (hadvance : s.tracker.advance now pc = some (t', pc'))
    (hlife : Lifecycle { s with tracker := t', threads := s.threads.set thread pc' }) :
    Orderly { s with tracker := t', threads := s.threads.set thread pc' } := by
  have hkeeps := Tracker.keepsTo_advance hadvance
  have hmem := List.mem_of_getElem? hpc
  refine ⟨hlife, inOrder_advance horderly.life horderly.order hcalm hpc hadvance, ?_,
    forall_mem_set horderly.threads (hkeeps.terminal (horderly.threads pc hmem)), ?_⟩
  · intro id hunused
    refine Eq.trans ?_ (horderly.unsaid id hunused)
    rcases hkeeps.trace with htrace | ⟨event, htrace, -, howes, -⟩
    · simp only [ledger, htrace]
    · have hsilent : sinkCall id event = none := by
        by_contra hcall
        rcases howes with hup | howes
        · simp [sinkCall, hup] at hcall
        · obtain rfl : event.about = id :=
            by_contra fun hne => hcall (unrecorded_of_about_ne hne).1
          exact horderly.not_owes hunused hmem howes
      have hstage := (ledger_record htrace (s.threads.set thread pc') s.used id).1
      rw [hsilent] at hstage
      exact hstage
  · rcases hkeeps.trace with htrace | ⟨event, htrace, -, -, hterminal⟩
    · rw [htrace]
      exact horderly.trace
    · rw [htrace]
      exact forall_mem_concat horderly.trace (hterminal (horderly.threads pc hmem))

theorem ledger_spawn (hentering : pc.Entering) (timers : AList fun _ : String => Timer)
    (id : String) : ledger { s with
      tracker := { s.tracker with timers := timers }
      threads := s.threads ++ [pc] } id = s.ledger id := by
  have hzero {owned : Pc → Option String} (h : owned pc = none) :
      tally owned (s.threads ++ [pc]) id = tally owned s.threads id := by
    rw [tally_concat, ownCount, h]
    rfl
  cases hentering <;>
    (simp only [ledger, hzero (rfl : Pc.unwaited _ = _), hzero (rfl : Pc.starting _ = _),
      hzero (rfl : Pc.announcing _ = _), hzero (rfl : Pc.reporting _ = _),
      hzero (rfl : Pc.finishing _ = _)]; rfl)

theorem orderly_spawn (horderly : s.Orderly) (hentering : pc.Entering)
    (timers : AList fun _ : String => Timer) : Orderly { s with
      tracker := { s.tracker with timers := timers }
      threads := s.threads ++ [pc] } := by
  have hterminal : pc.Terminal := by cases hentering <;> trivial
  refine ⟨horderly.life.spawn hentering timers, ?_, ?_,
    forall_mem_concat horderly.threads hterminal, horderly.trace⟩
  · intro id
    rw [ledger_spawn hentering]
    exact horderly.order id
  · intro id hunused
    exact horderly.unsaid id hunused

theorem orderly_start {call : StartCall} (horderly : s.Orderly) (hunused : call.id ∉ s.used) :
    Orderly { s with
      threads := s.threads ++ [.startEnter call]
      used := call.id :: s.used } := by
  refine ⟨horderly.life.spawn_start hunused, ?_, ?_,
    forall_mem_concat horderly.threads trivial, horderly.trace⟩
  · intro id
    have hfits := horderly.order id
    by_cases hid : call.id = id
    · subst hid
      have hidle := horderly.unsaid call.id hunused
      rw [Ledger.Fits, hidle] at hfits
      have hstage : (ledger { s with
          threads := s.threads ++ [.startEnter call]
          used := call.id :: s.used } call.id).stage = some .idle := hidle
      rw [Ledger.Fits, hstage]
      simpa only [ledger, tally_concat, ownCount, Pc.announcing, Pc.reporting, Pc.finishing,
        Pc.releasing, reduceCtorEq, if_false, Nat.add_zero] using hfits
    · simpa [ledger, tally_concat, ownCount, Pc.unwaited, Pc.starting, Pc.announcing,
        Pc.reporting, Pc.finishing, Pc.releasing, hid] using hfits
  · intro id hunused'
    exact horderly.unsaid id fun hmem => hunused' (List.mem_cons_of_mem _ hmem)

end Orderly

theorem orderly_step {s' : System} {action : Action} (horderly : s.Orderly)
    (hcalm : s.calm action = true) (hstep : s.step action = some s') : s'.Orderly := by
  have hlife := lifecycle_step horderly.life hstep
  cases steps_of_step hstep with
  | spawn _ hentering => exact orderly_spawn horderly hentering s.tracker.timers
  | start hunused => exact orderly_start horderly hunused
  | proceed hpc hadvance => exact orderly_advance horderly hcalm hpc hadvance hlife
  | abort hpc =>
    refine ⟨hlife, fun id => ?_, horderly.unsaid, forall_mem_set horderly.threads trivial,
      horderly.trace⟩
    exact fits_unheard (horderly.order id) hpc (.inl rfl) (.inl rfl) (.inr rfl) rfl rfl rfl
  | fire => exact orderly_spawn horderly (.timeout _ _) _

theorem orderly_initial (maxConcurrency : Int) (reject : Bool) (timeout : Int) :
    (start (.newTracker maxConcurrency reject timeout)).Orderly where
  life := lifecycle_start maxConcurrency reject timeout
  order _ := ⟨rfl, rfl, rfl, rfl⟩
  unsaid _ _ := rfl
  threads := by simp [start]
  trace := by simp [start, Tracker.newTracker]

end System

def ReportedInOrder (trace : List Event) : Prop :=
  ∀ runtimeID id, OrderedCalls (sinkCalls id trace) ∧
    ∀ status, .finished status ∈ sinkCalls id trace →
      (recordTrace runtimeID trace).status id = some status ∧ status ≠ .running

theorem System.Orderly.reportedInOrder (horderly : s.Orderly) :
    ReportedInOrder s.tracker.trace := by
  intro runtimeID id
  have hfits := horderly.order id
  cases hstage : stageOf id s.tracker.trace with
  | none =>
    have hnone : (s.ledger id).stage = none := hstage
    rw [Ledger.Fits, hnone] at hfits
    exact hfits.elim
  | some stage =>
    have hshape : stage.Shape (sinkCalls id s.tracker.trace) := shape_of_run hstage
    refine ⟨hshape.orderedCalls, ?_⟩
    intro status hmem
    rw [status_recordTrace]
    have hterminal : status ≠ .running := by
      obtain ⟨event, hevent, hcall⟩ := List.mem_filterMap.mp hmem
      have hfinal := horderly.trace event hevent
      cases event <;> simp_all [sinkCall, uplink, Phase.sinkCall, Event.Terminal]
    exact ⟨hshape.status hmem, hterminal⟩

/--
In every run in which no section under the mutex overtakes a call of the sink
that it has to come after, the calls about every execution are in order.
-/
theorem sinkCalls_inOrder (maxConcurrency : Int) (reject : Bool) (timeout : Int)
    (actions : List Action) (hcalm : Meets System.step (fun s action => s.calm action = true)
      (.start (.newTracker maxConcurrency reject timeout)) actions)
    {s : System}
    (hrun : run System.step (.start (.newTracker maxConcurrency reject timeout)) actions =
      some s) : ReportedInOrder s.tracker.trace := by
  have hinv : s.Orderly := run_invariant_of_meets System.orderly_step
    (System.orderly_initial maxConcurrency reject timeout) hcalm hrun
  exact hinv.reportedInOrder

theorem sinkCalls_inOrder_startThenCancel :
    ∃ s, run System.step (.start (.newTracker 1 false 0)) startThenCancel = some s ∧
      sinkCalls "a" s.tracker.trace = [.started, .finished .cancelled] ∧
      ReportedInOrder s.tracker.trace := by
  refine ⟨_, rfl, by decide, ?_⟩
  exact sinkCalls_inOrder 1 false 0 startThenCancel (by decide) rfl

def cancelUnderStart : List Action :=
  [Action.call (.start (webhookStart "a"))] ++ List.replicate 2 (Action.proceed 0 0) ++
    [Action.call (.cancel "flow" "a")] ++ List.replicate 3 (Action.proceed 1 0) ++
    [Action.proceed 0 0]

theorem cancelUnderStart_reports_late_start :
    ¬ ∀ (maxConcurrency : Int) (reject : Bool) (timeout : Int) (actions : List Action)
      (s : System),
      run System.step (.start (.newTracker maxConcurrency reject timeout)) actions = some s →
        ReportedInOrder s.tracker.trace := by
  intro hall
  have hordered := hall 0 false 0 cancelUnderStart _ rfl
  obtain ⟨-, hrow⟩ := hordered "runtime" "a"
  have hkept := (hrow .cancelled (by decide)).1
  rw [status_recordTrace] at hkept
  exact absurd hkept (by decide)

end DataPipe.Flow
