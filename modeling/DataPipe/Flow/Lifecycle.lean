import DataPipe.Flow.Tracker

/-!
# The stages of a tracked execution

Every execution that was inserted is active, being finished by exactly one
thread, or reported finished exactly once, in every interleaving of the
tracker's calls.
-/

namespace DataPipe.Flow

open DataPipe.Foundation

namespace Semaphore

variable {id : String} {sem : Semaphore}

theorem send_spec {sem' : Semaphore} (hsend : sem.send id = some sem') :
    sem'.tokens = id :: sem.tokens ∧ sem'.cap = sem.cap := by
  revert hsend
  fun_cases sem.send id <;> rintro ⟨⟩
  exact ⟨rfl, rfl⟩

theorem receive_own (hmem : id ∈ sem.tokens) :
    ∃ sem', sem.receive id = some (id, sem') ∧
      sem'.tokens = sem.tokens.erase id ∧ sem'.cap = sem.cap := by
  unfold receive
  rw [if_pos hmem]
  exact ⟨_, rfl, rfl, rfl⟩

end Semaphore

namespace Tracker

variable {t t' : Tracker} {ch : Option Nat} {id : String}

/-- The effect of a channel operation on the `k`-th semaphore. -/
structure Sets (t t' : Tracker) (k : Nat) (sem : Semaphore) (event : Event) : Prop where
  sem_eq : t'.sem = t.sem
  sems_eq : t'.sems = t.sems.set k sem
  active_eq : t'.active = t.active
  trace_eq : t'.trace = t.trace ++ [event]

theorem sendOn_spec (hsend : t.sendOn ch id = some t') :
    ∃ k sem sem', ch = some k ∧ t.sems[k]? = some sem ∧
      (sem'.tokens = id :: sem.tokens ∧ sem'.cap = sem.cap) ∧
      t.Sets t' k sem' (.acquired id k) := by
  revert hsend
  fun_cases t.sendOn ch id <;> rintro ⟨⟩
  next k sem hsem sem' hnext =>
    exact ⟨k, sem, sem', rfl, hsem, Semaphore.send_spec hnext, ⟨rfl, rfl, rfl, rfl⟩⟩

theorem receiveOn_spec (hreceive : t.receiveOn ch id = some t') :
    ∃ k sem owner sem', ch = some k ∧ t.sems[k]? = some sem ∧
      sem.receive id = some (owner, sem') ∧
      t.Sets t' k sem' (.released id k owner) := by
  revert hreceive
  fun_cases t.receiveOn ch id <;> rintro ⟨⟩
  next k sem hsem owner sem' hnext =>
    exact ⟨k, sem, owner, sem', rfl, hsem, hnext, ⟨rfl, rfl, rfl, rfl⟩⟩

/-- The keys that a section of `NodeEvent` leaves active. -/
def keysAfter (t : Tracker) (id : String) : Option ExecState → List String
  | none => t.active.keys
  | some _ => t.active.keys.erase id

theorem nodeEventLocked_spec {call : EventCall} {done : Option ExecState}
    (hlocked : t.nodeEventLocked call = some (t', done)) :
    call.id ∈ t.active.keys ∧ t'.active.keys = t.keysAfter call.id done ∧
      t'.sem = t.sem ∧ t'.sems = t.sems ∧
      t'.trace = t.trace ++ [.accepted call.id] := by
  have hmem {st : ExecState} (hlookup : t.active.lookup call.id = some st) :
      call.id ∈ t.active.keys := AList.mem_keys.mp (AList.lookup_isSome.mp (by simp [hlookup]))
  revert hlocked
  fun_cases t.nodeEventLocked call <;> rintro ⟨⟩
  next hlookup _ _ => exact ⟨hmem hlookup, AList.keys_erase _ _, rfl, rfl, rfl⟩
  next hlookup _ _ => exact ⟨hmem hlookup, AList.keys_replace _ _ _, rfl, rfl, rfl⟩

theorem removeLocked_spec (hlocked : t.removeLocked id = some t') :
    id ∈ t.active.keys ∧ t'.active.keys = t.active.keys.erase id ∧
      t'.sem = t.sem ∧ t'.sems = t.sems ∧ t'.trace = t.trace := by
  revert hlocked
  fun_cases t.removeLocked id <;> rintro ⟨⟩
  next hlookup =>
    have hmem : id ∈ t.active.keys :=
      AList.mem_keys.mp (AList.lookup_isSome.mp (by simp [hlookup]))
    exact ⟨hmem, AList.keys_erase _ _, rfl, rfl, rfl⟩

theorem keys_startLocked (call : StartCall) (hfresh : call.id ∉ t.active.keys) :
    (t.startLocked call).active.keys = call.id :: t.active.keys := by
  rw [startLocked, AList.keys_insert, List.erase_of_not_mem hfresh]

end Tracker

namespace Tracker

inductive Advances (now : Time) (t : Tracker) : Pc → Tracker → Pc → Prop
  | unlimited (call : StartCall) (hsem : t.sem = none) :
      Advances now t (.startEnter call) t (.startInsert call none)
  | limited (call : StartCall) : Advances now t (.startEnter call) t (.startEval call)
  | evaluated (call : StartCall) : Advances now t (.startEval call) t (.startTry call t.sem)
  | taken {t' : Tracker} (call : StartCall) (ch : Option Nat)
      (hsend : t.sendOn ch call.id = some t') :
      Advances now t (.startTry call ch) t' (.startInsert call ch)
  | full (call : StartCall) (ch : Option Nat) :
      Advances now t (.startTry call ch) t (.startFull call)
  | rejected (call : StartCall) :
      Advances now t (.startFull call) t (.returned .concurrencyRejected)
  | queued (call : StartCall) : Advances now t (.startFull call) t (.startWaiting call)
  | waiting (call : StartCall) :
      Advances now t (.startWaiting call)
        (t.record (.waiting call.flowID call.id call.triggerNodeID now call.seed))
        (.startEvalWait call)
  | reevaluated (call : StartCall) :
      Advances now t (.startEvalWait call) t (.startBlocked call t.sem)
  | unblocked {t' : Tracker} (call : StartCall) (ch : Option Nat)
      (hsend : t.sendOn ch call.id = some t') :
      Advances now t (.startBlocked call ch) t' (.startInsert call ch)
  | inserted (call : StartCall) (token : Option Nat) :
      Advances now t (.startInsert call token) (t.startLocked call) (.startStarted call now)
  | started (call : StartCall) (atTime : Time) :
      Advances now t (.startStarted call atTime)
        (t.record (.started call.flowID call.id call.triggerNodeID call.triggerKind
          call.reRunOf atTime call.seed))
        (.returned (.execution call.id))
  | untracked (call : EventCall) : Advances now t (.eventEnter call) t (.returned .done)
  | accepted {t' : Tracker} (call : EventCall) (done : Option ExecState)
      (hlocked : t.nodeEventLocked call = some (t', done)) :
      Advances now t (.eventEnter call) t' (.eventSink call done)
  | reported (call : EventCall) :
      Advances now t (.eventSink call none)
        (t.record (.nodeEvent call.flowID call.id call.io)) (.returned .done)
  | completed (call : EventCall) (st : ExecState) :
      Advances now t (.eventSink call (some st))
        (t.record (.nodeEvent call.flowID call.id call.io)) (.release (call.completion st))
  | notCancelled (flowID id : String) :
      Advances now t (.cancelEnter flowID id) t (.returned (.cancelled false))
  | cancelled {t' : Tracker} (flowID id : String) (hlocked : t.removeLocked id = some t') :
      Advances now t (.cancelEnter flowID id) t'
        (.release ⟨flowID, id, .cancelled, "cancelled"⟩)
  | notTimedOut (flowID id : String) (hlocked : t.removeLocked id = none) :
      Advances now t (.timeoutEnter flowID id) t (.returned .done)
  | timedOut {t' : Tracker} (flowID id : String) (hlocked : t.removeLocked id = some t') :
      Advances now t (.timeoutEnter flowID id) t' (.release ⟨flowID, id, .failed, "timeout"⟩)
  | slotless (c : Completion) (hsem : t.sem = none) : Advances now t (.release c) t (.finish c)
  | slotted (c : Completion) (hsem : t.sem ≠ none) : Advances now t (.release c) t (.releaseEval c)
  | slotEvaluated (c : Completion) : Advances now t (.releaseEval c) t (.releaseRecv c t.sem)
  | released {t' : Tracker} (c : Completion) (ch : Option Nat)
      (hreceive : t.receiveOn ch c.id = some t') :
      Advances now t (.releaseRecv c ch) t' (.finish c)
  | finished (c : Completion) :
      Advances now t (.finish c)
        (t.record (.finished c.flowID c.id c.status now c.reason)) (.returned c.result)
  | busy (settings : Settings) : Advances now t (.reconfIdle settings) t (.returned .done)
  | idle (settings : Settings) :
      Advances now t (.reconfIdle settings) t (.reconfSwap settings.reconfiguration)
  | swapped (r : Reconfiguration) :
      Advances now t (.reconfSwap r) (t.reconfigure r) (.returned .done)

theorem advances_of_advance {now : Time} {t t' : Tracker} {pc pc' : Pc}
    (hstep : t.advance now pc = some (t', pc')) : t.Advances now pc t' pc' := by
  revert hstep
  fun_cases t.advance now pc
  case case16 reported | case17 reported _ =>
    intro hstep
    simp only [reported] at hstep
    cases hstep
    constructor
  all_goals rintro ⟨⟩
  case case23 hsem => exact .slotted _ (by simp [hsem])
  all_goals
    constructor
    try assumption

end Tracker

namespace Pc

/-- A `Start` that has not inserted its execution yet. -/
def starting : Pc → Option String
  | .startEnter call | .startEval call | .startTry call _ | .startFull call
  | .startWaiting call | .startEvalWait call | .startBlocked call _
  | .startInsert call _ => some call.id
  | _ => none

/-- A `Start` between its acquire and its insert. -/
def acquired : Pc → Option String
  | .startInsert call _ => some call.id
  | _ => none

/-- A `Start` between its insert and its report. -/
def announcing : Pc → Option String
  | .startStarted call _ => some call.id
  | _ => none

def releasing : Pc → Option String
  | .eventSink call (some _) => some call.id
  | .release c | .releaseEval c | .releaseRecv c _ => some c.id
  | _ => none

def finishing : Pc → Option String
  | .finish c => some c.id
  | pc => pc.releasing

/-- A call at its beginning, other than a `Start`. -/
inductive Entering : Pc → Prop where
  | event (call : EventCall) : Entering (.eventEnter call)
  | cancel (flowID id : String) : Entering (.cancelEnter flowID id)
  | timeout (flowID id : String) : Entering (.timeoutEnter flowID id)
  | reconfigure (settings : Settings) : Entering (.reconfIdle settings)

end Pc

namespace Tracker

def insertedCount (t : Tracker) (id : String) : Nat :=
  tally Event.insertedID t.trace id

def finishedCount (t : Tracker) (id : String) : Nat :=
  tally Event.finishedID t.trace id

def activeCount (t : Tracker) (id : String) : Nat := t.active.keys.count id

variable {t t' : Tracker} {id : String} {pc pc' : Pc}

@[simp] theorem insertedCount_record (t : Tracker) (event : Event) (id : String) :
    (t.record event).insertedCount id =
      t.insertedCount id + ownCount Event.insertedID id event :=
  tally_concat _ _ _ _

@[simp] theorem finishedCount_record (t : Tracker) (event : Event) (id : String) :
    (t.record event).finishedCount id =
      t.finishedCount id + ownCount Event.finishedID id event :=
  tally_concat _ _ _ _

@[simp] theorem activeCount_record (t : Tracker) (event : Event)
    (id : String) : (t.record event).activeCount id = t.activeCount id := rfl

theorem activeCount_of_erase (hmem : id ∈ t.active.keys)
    (hkeys : t'.active.keys = t.active.keys.erase id) (other : String) :
    t'.activeCount other + (if some id = some other then 1 else 0) =
      t.activeCount other := by
  unfold activeCount
  rw [hkeys]
  have hperm := (List.perm_cons_erase hmem).count_eq other
  rw [List.count_cons] at hperm
  simp only [beq_iff_eq] at hperm
  simp only [Option.some.injEq]
  omega

structure Moves (t t' : Tracker) (pc pc' : Pc) : Prop where
  accounted : ∀ id,
    t'.finishedCount id + t'.activeCount id +
        ownCount Pc.finishing id pc' + t.insertedCount id =
      t.finishedCount id + t.activeCount id +
        ownCount Pc.finishing id pc + t'.insertedCount id
  fresh : ∀ id,
    t'.insertedCount id + ownCount Pc.starting id pc' ≤
      t.insertedCount id + ownCount Pc.starting id pc
  recorded : t'.trace = t.trace ∨ ∃ event : Event, t'.trace = t.trace ++ [event] ∧
    ∀ id, event.acceptedID = some id → id ∈ t.active.keys

def Silent (t t' : Tracker) : Prop :=
  t'.trace = t.trace ∨ ∃ event : Event, t'.trace = t.trace ++ [event] ∧
    event.insertedID = none ∧ event.finishedID = none ∧
    ∀ id, event.acceptedID = some id → id ∈ t.active.keys

theorem Silent.counts_eq (hsilent : t.Silent t') (id : String) :
    t'.insertedCount id = t.insertedCount id ∧ t'.finishedCount id = t.finishedCount id := by
  unfold insertedCount finishedCount
  rcases hsilent with hsame | ⟨event, hnext, hinserted, hfinished, -⟩
  · simp [hsame]
  · simp [hnext, tally_concat, ownCount, hinserted, hfinished]

theorem Silent.recorded (hsilent : t.Silent t') :
    t'.trace = t.trace ∨ ∃ event : Event, t'.trace = t.trace ++ [event] ∧
      ∀ id, event.acceptedID = some id → id ∈ t.active.keys :=
  hsilent.imp_right fun ⟨event, hnext, _, _, haccepted⟩ => ⟨event, hnext, haccepted⟩

theorem Moves.of_silent (hsilent : t.Silent t') (hkeys : t'.active.keys = t.active.keys)
    (hfinishing : pc'.finishing = pc.finishing)
    (hstarting : pc'.starting = pc.starting ∨ pc'.starting = none) : Moves t t' pc pc' := by
  refine ⟨?_, ?_, hsilent.recorded⟩
  · intro id
    simp only [hsilent.counts_eq, activeCount, hkeys, ownCount, hfinishing]
  · rcases hstarting with hsame | hnone <;> simp [hsilent.counts_eq, ownCount, *]

theorem Moves.of_remove (hsilent : t.Silent t') (hmem : id ∈ t.active.keys)
    (hkeys : t'.active.keys = t.active.keys.erase id) (hbefore : pc.finishing = none)
    (hafter : pc'.finishing = some id) (hstarting : pc'.starting = none) : Moves t t' pc pc' := by
  refine ⟨?_, ?_, hsilent.recorded⟩
  · intro other
    have hcount := activeCount_of_erase hmem hkeys other
    simp only [hsilent.counts_eq, ownCount, hbefore, hafter, reduceCtorEq, if_false]
    omega
  · simp [hsilent.counts_eq, ownCount, hstarting]

theorem Moves.of_insert {call : StartCall} (hfresh : call.id ∉ t.active.keys) (token : Option Nat)
    (now : Time) :
    Moves t (t.startLocked call) (.startInsert call token)
      (.startStarted call now) := by
  have hinserted : ∀ id, (t.startLocked call).insertedCount id =
      t.insertedCount id + ownCount Event.insertedID id (.inserted call.id) :=
    fun id => tally_concat _ _ _ _
  have hfinished : ∀ id, (t.startLocked call).finishedCount id =
      t.finishedCount id + ownCount Event.finishedID id (.inserted call.id) :=
    fun id => tally_concat _ _ _ _
  refine ⟨?_, ?_, .inr ⟨.inserted call.id, rfl, nofun⟩⟩
  · simp [hinserted, hfinished, activeCount, keys_startLocked call hfresh, List.count_cons,
      ownCount, Event.insertedID, Event.finishedID, Pc.finishing, Pc.releasing]
    omega
  · simp [hinserted, ownCount, Event.insertedID, Pc.starting]

theorem Moves.of_finish (t : Tracker) (c : Completion) (now : Time) :
    Moves t (t.record (.finished c.flowID c.id c.status now c.reason))
      (.finish c) (.returned c.result) := by
  refine ⟨?_, ?_, .inr ⟨_, rfl, nofun⟩⟩
  · simp [ownCount, Event.insertedID, Event.finishedID, Pc.finishing, Pc.releasing]
    omega
  · simp [ownCount, Event.insertedID, Pc.starting]

theorem moves_advance {now : Time} (hfresh : ∀ id, pc.starting = some id → id ∉ t.active.keys)
    (hstep : t.advance now pc = some (t', pc')) : Moves t t' pc pc' := by
  cases advances_of_advance hstep with
  | taken call ch hsend | unblocked call ch hsend =>
    obtain ⟨k, sem, sem', -, -, -, hsets⟩ := sendOn_spec hsend
    exact .of_silent (.inr ⟨_, hsets.trace_eq, rfl, rfl, nofun⟩) (congrArg _ hsets.active_eq) rfl
      (.inl rfl)
  | rejected call => exact .of_silent (.inl rfl) rfl rfl (.inr rfl)
  | waiting call | started call atTime | reported call | completed call st =>
    exact .of_silent (.inr ⟨_, rfl, rfl, rfl, nofun⟩) rfl rfl (.inl rfl)
  | inserted call token => exact .of_insert (hfresh call.id rfl) token now
  | accepted call done hlocked =>
    obtain ⟨hmem, hkeys, -, -, htrace⟩ := nodeEventLocked_spec hlocked
    have hsilent : t.Silent t' := by
      refine .inr ⟨_, htrace, rfl, rfl, ?_⟩
      rintro id ⟨⟩
      exact hmem
    cases done with
    | none => exact .of_silent hsilent hkeys rfl (.inl rfl)
    | some st => exact .of_remove hsilent hmem hkeys rfl rfl rfl
  | cancelled flowID id hlocked | timedOut flowID id hlocked =>
    obtain ⟨hmem, hkeys, -, -, htrace⟩ := removeLocked_spec hlocked
    exact .of_remove (.inl htrace) hmem hkeys rfl rfl rfl
  | released c ch hreceive =>
    obtain ⟨k, sem, owner, sem', -, -, -, hsets⟩ := receiveOn_spec hreceive
    exact .of_silent (.inr ⟨_, hsets.trace_eq, rfl, rfl, nofun⟩) (congrArg _ hsets.active_eq) rfl
      (.inl rfl)
  | finished c => exact .of_finish t c now
  | _ => exact .of_silent (.inl rfl) rfl rfl (.inl rfl)

end Tracker

def NoLateAccept (trace : List Event) : Prop :=
  trace.Pairwise fun before after =>
    ∀ id, before.finishedID = some id → after.acceptedID ≠ some id

namespace System

structure Lifecycle (s : System) : Prop where
  accounted : ∀ id,
    s.tracker.finishedCount id + s.tracker.activeCount id +
      tally Pc.finishing s.threads id = s.tracker.insertedCount id
  fresh : ∀ id, s.tracker.insertedCount id + tally Pc.starting s.threads id ≤ 1
  known : ∀ id,
    0 < s.tracker.insertedCount id + tally Pc.starting s.threads id →
      id ∈ s.used
  noLateAccept : NoLateAccept s.tracker.trace

variable {s : System} {pc : Pc} {action : Action} {s' : System}

theorem Lifecycle.not_active_of_starting (hlife : s.Lifecycle) (hpc : pc ∈ s.threads) {id : String}
    (hstarting : pc.starting = some id) : id ∉ s.tracker.active.keys := by
  intro hmem
  have hactive : 0 < s.tracker.activeCount id := List.count_pos_iff.mpr hmem
  have hown := ownCount_le_tally Pc.starting hpc id
  rw [ownCount, if_pos hstarting] at hown
  have haccounted := hlife.accounted id
  have hfresh := hlife.fresh id
  omega

theorem lifecycle_start (maxConcurrency : Int) (reject : Bool) (timeout : Int) :
    (start (.newTracker maxConcurrency reject timeout)).Lifecycle where
  accounted _ := rfl
  fresh _ := Nat.zero_le 1
  known _ hpos := absurd hpos (Nat.lt_irrefl 0)
  noLateAccept := List.Pairwise.nil

theorem Lifecycle.noLateAccept_concat (hlife : s.Lifecycle) {event : Event}
    (haccepted : ∀ id, event.acceptedID = some id → id ∈ s.tracker.active.keys) :
    NoLateAccept (s.tracker.trace ++ [event]) := by
  refine List.pairwise_append.mpr
    ⟨hlife.noLateAccept, List.pairwise_singleton _ _, ?_⟩
  intro before hbefore after hafter id hfinished hid
  rw [List.mem_singleton] at hafter
  subst hafter
  have hactive : 0 < s.tracker.activeCount id :=
    List.count_pos_iff.mpr (haccepted id hid)
  have hdone : 0 < s.tracker.finishedCount id :=
    List.count_pos_iff.mpr (List.mem_filterMap.mpr ⟨before, hbefore, hfinished⟩)
  have haccounted := hlife.accounted id
  have hfresh := hlife.fresh id
  omega

theorem Lifecycle.of_moves (hlife : s.Lifecycle) {index : Nat} {pc' : Pc} {t' : Tracker}
    (hpc : s.threads[index]? = some pc) (hmoves : Tracker.Moves s.tracker t' pc pc') :
    Lifecycle { s with tracker := t', threads := s.threads.set index pc' } := by
  refine ⟨?_, ?_, ?_, ?_⟩
  · intro id
    have hmoved := hmoves.accounted id
    have hset := tally_set Pc.finishing hpc pc' id
    have haccounted := hlife.accounted id
    dsimp only
    omega
  · intro id
    have hmoved := hmoves.fresh id
    have hset := tally_set Pc.starting hpc pc' id
    have hfresh := hlife.fresh id
    dsimp only
    omega
  · intro id hpos
    have hmoved := hmoves.fresh id
    have hset := tally_set Pc.starting hpc pc' id
    dsimp only at hpos
    apply hlife.known
    omega
  · rcases hmoves.recorded with hsame | ⟨event, hnext, haccepted⟩
    · rw [hsame]
      exact hlife.noLateAccept
    · rw [hnext]
      exact hlife.noLateAccept_concat haccepted

theorem Lifecycle.spawn (hlife : s.Lifecycle) (hentering : pc.Entering)
    (timers : AList fun _ : String => Timer) :
    Lifecycle { s with
      tracker := { s.tracker with timers := timers }
      threads := s.threads ++ [pc] } := by
  have hstarting (id : String) : ownCount Pc.starting id pc = 0 := by cases hentering <;> rfl
  have hfinishing (id : String) : ownCount Pc.finishing id pc = 0 := by cases hentering <;> rfl
  refine ⟨?_, ?_, ?_, hlife.noLateAccept⟩ <;> simp only [tally_concat, hstarting, hfinishing]
  · exact hlife.accounted
  · exact hlife.fresh
  · exact hlife.known

theorem Lifecycle.spawn_start (hlife : s.Lifecycle) {call : StartCall}
    (hunused : call.id ∉ s.used) :
    Lifecycle { s with
      threads := s.threads ++ [.startEnter call]
      used := call.id :: s.used } := by
  have hzero : s.tracker.insertedCount call.id + tally Pc.starting s.threads call.id = 0 := by
    by_contra hpos
    exact hunused (hlife.known call.id (Nat.pos_of_ne_zero hpos))
  have hfinishing : ∀ id, ownCount Pc.finishing id (.startEnter call) = 0 := fun id => rfl
  refine ⟨?_, fun id => ?_, fun id hpos => ?_, hlife.noLateAccept⟩
  · simpa [tally_concat, hfinishing] using hlife.accounted
  all_goals
    have hfresh := hlife.fresh id
    have hknown := hlife.known id
    simp only [tally_concat, ownCount, Pc.starting] at *
    by_cases heq : call.id = id
  · subst heq
    simp
    omega
  · simpa [heq] using hfresh
  · simp [heq]
  · exact List.mem_cons_of_mem _ (hknown (by simpa [heq] using hpos))

/-- What a step does. -/
inductive Steps (s : System) : Action → System → Prop where
  | spawn {c : Call} {pc : Pc} (hentry : c.entry = pc) (hentering : pc.Entering) :
      Steps s (.call c) { s with threads := s.threads ++ [pc] }
  | start {call : StartCall} (hunused : call.id ∉ s.used) :
      Steps s (.call (.start call))
        { s with threads := s.threads ++ [.startEnter call], used := call.id :: s.used }
  | proceed {thread : Nat} {now : Time} {pc pc' : Pc} {t' : Tracker}
      (hpc : s.threads[thread]? = some pc)
      (hadvance : s.tracker.advance now pc = some (t', pc')) :
      Steps s (.proceed thread now) { s with tracker := t', threads := s.threads.set thread pc' }
  | abort {thread : Nat} {call : StartCall} {ch : Option Nat}
      (hpc : s.threads[thread]? = some (.startBlocked call ch)) :
      Steps s (.abort thread) { s with threads := s.threads.set thread (.returned .ctxErr) }
  | fire {id flowID : String} (hlookup : s.tracker.timers.lookup id = some ⟨flowID, true⟩) :
      Steps s (.fire id)
        { s with
          tracker := { s.tracker with timers := s.tracker.timers.replace id ⟨flowID, false⟩ }
          threads := s.threads ++ [.timeoutEnter flowID id] }

theorem steps_of_step (hstep : s.step action = some s') : Steps s action s' := by
  revert hstep
  fun_cases s.step action
  case case1 c =>
    fun_cases s.call c <;> rintro ⟨⟩
    case case1 hfresh =>
      cases c with
      | start call => contradiction
      | nodeEvent call => exact .spawn rfl (.event call)
      | cancel flowID id => exact .spawn rfl (.cancel flowID id)
      | reconfigure settings => exact .spawn rfl (.reconfigure settings)
    case case3 id hfresh hunused =>
      cases c <;> cases hfresh
      exact .start hunused
  case case3 thread now t' threads hadvance =>
    rintro ⟨⟩
    obtain ⟨pc, pc', hpc, hpcStep, rfl⟩ := advanceAt_eq_some.mp hadvance
    exact .proceed hpc hpcStep
  case case5 thread t' threads hadvance =>
    rintro ⟨⟩
    obtain ⟨pc, pc', hpc, hpcStep, rfl⟩ := advanceAt_eq_some.mp hadvance
    cases pc <;> cases hpcStep
    exact .abort hpc
  case case6 id =>
    fun_cases s.fire id <;> rintro ⟨⟩
    next hlookup => exact .fire hlookup
  all_goals rintro ⟨⟩

theorem lifecycle_step (hlife : s.Lifecycle) (hstep : s.step action = some s') : s'.Lifecycle := by
  cases steps_of_step hstep with
  | spawn _ hentering => exact hlife.spawn hentering s.tracker.timers
  | start hunused => exact hlife.spawn_start hunused
  | proceed hpc hadvance =>
    apply hlife.of_moves hpc
    apply Tracker.moves_advance ?_ hadvance
    intro id
    exact hlife.not_active_of_starting (List.mem_of_getElem? hpc)
  | abort hpc => exact hlife.of_moves hpc (.of_silent (.inl rfl) rfl rfl (.inr rfl))
  | fire hlookup => exact hlife.spawn (.timeout _ _) _

end System

end DataPipe.Flow
