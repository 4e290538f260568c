import DataPipe.Bus.Wire
import DataPipe.Flow.Quiescence

/-!
# The entry paths of executions

The model of the emit function of a trigger in `engine/flow/runner.go` and of
`ReplayOutput` and `ReplayInput` in `engine/flow/graph.go`.  Each of them calls
`Start` of the tracker and then sends the seed to its targets; it returns the
error of the first that fails.
-/

set_option linter.dupNamespace false

namespace DataPipe.Flow

open DataPipe.Foundation DataPipe.Bus

inductive EntryCall where
  | emit (flowID nodeID triggerKind : String) (dgm : Datagram) (targets : List Nat)
  | replayOutput (flowID nodeID reRunOf : String) (fresh : Datagram) (targets : List Nat)
  | replayInput (flowID nodeID reRunOf : String) (fresh : Datagram) (target : Nat)

namespace EntryCall

/-- The call of `Start`; `none` for a call that starts no execution. -/
def start : EntryCall → Option StartCall
  | .emit flowID nodeID triggerKind dgm _ =>
    if dgm.header.correlationID = dgm.header.id then
      some ⟨flowID, nodeID, triggerKind, "", dgm⟩
    else none
  | .replayOutput flowID nodeID reRunOf fresh targets =>
    if targets.isEmpty then none else some ⟨flowID, nodeID, "rerun", reRunOf, fresh⟩
  | .replayInput flowID nodeID reRunOf fresh _ =>
    some ⟨flowID, nodeID, "rerun", reRunOf, fresh⟩

def targets : EntryCall → List Nat
  | .emit _ _ _ _ targets | .replayOutput _ _ _ _ targets => targets
  | .replayInput _ _ _ _ target => [target]

end EntryCall

inductive EntryError where
  | concurrencyRejected
  | ctx
  | send (err : WireError)
  deriving DecidableEq, Repr

inductive EntryPhase where
  | starting
  | sending
  | returned (err : Option EntryError)
  deriving DecidableEq, Repr

/-- An entry path in progress; `thread` runs its call of `Start`. -/
structure Entry where
  call : StartCall
  thread : Nat
  targets : List Nat
  ctxDone : Bool
  phase : EntryPhase

structure EntrySystem where
  tracker : System
  wires : List (Bus.Wire Datagram)
  entries : List Entry

/--
`tracker` stands for the steps of the calls in progress, for timers and for the
calls that are no entry; `giveUp` is the branch of `Start` that sees the context
cancelled, `resume` its return and `send` the next send of the seed.
-/
inductive EntryAction where
  | enter (call : EntryCall)
  | tracker (action : Action)
  | cancelCtx (entry : Nat)
  | giveUp (entry : Nat)
  | resume (entry : Nat)
  | send (entry : Nat)
  | close (wire : Nat)
  | receive (wire : Nat)

/-- Every `Start` belongs to an entry, and so does giving up one. -/
def Action.foreign : Action → Bool
  | .call (.start _) | .abort _ => false
  | _ => true

namespace EntrySystem

def start (tracker : Tracker) (wires : List (Bus.Wire Datagram)) : EntrySystem :=
  ⟨.start tracker, wires, []⟩

def enter (s : EntrySystem) (c : EntryCall) : Option EntrySystem :=
  match c.start with
  | none => none
  | some call =>
    match s.tracker.step (.call (.start call)) with
    | none => none
    | some tracker =>
      some { s with
        tracker
        entries := s.entries ++ [⟨call, s.tracker.threads.length, c.targets, false, .starting⟩] }

def giveUp (s : EntrySystem) (e : Entry) : Option EntrySystem :=
  if e.phase = .starting ∧ e.ctxDone = true then
    match s.tracker.step (.abort e.thread) with
    | none => none
    | some tracker => some { s with tracker }
  else none

/-- What an entry path does when its `Start` returns. -/
def afterStart : Result → Option EntryPhase
  | .execution _ => some .sending
  | .concurrencyRejected => some (.returned (some .concurrencyRejected))
  | .ctxErr => some (.returned (some .ctx))
  | _ => none

def resume (s : EntrySystem) (k : Nat) (e : Entry) : Option EntrySystem :=
  match e.phase, s.tracker.threads[e.thread]? with
  | .starting, some (.returned result) =>
    match afterStart result with
    | none => none
    | some phase => some { s with entries := s.entries.set k { e with phase } }
  | _, _ => none

/-- The next send of `FanOut.Send`, which ends with the first error. -/
def send (s : EntrySystem) (k : Nat) (e : Entry) : Option EntrySystem :=
  match e.phase, e.targets with
  | .sending, [] => some { s with entries := s.entries.set k { e with phase := .returned none } }
  | .sending, target :: targets =>
    match s.wires[target]? with
    | none => none
    | some wire =>
      match wire.send e.ctxDone e.call.seed with
      | none => none
      | some (wire, .ok _) =>
        some { s with
          wires := s.wires.set target wire
          entries := s.entries.set k { e with targets } }
      | some (wire, .error err) =>
        some { s with
          wires := s.wires.set target wire
          entries := s.entries.set k { e with phase := .returned (some (.send err)) } }
  | _, _ => none

def step (s : EntrySystem) : EntryAction → Option EntrySystem
  | .enter c => s.enter c
  | .tracker action =>
    if action.foreign then
      match s.tracker.step action with
      | none => none
      | some tracker => some { s with tracker }
    else none
  | .cancelCtx k =>
    match s.entries[k]? with
    | none => none
    | some e => some { s with entries := s.entries.set k { e with ctxDone := true } }
  | .giveUp k => s.entries[k]?.bind s.giveUp
  | .resume k => s.entries[k]?.bind (s.resume k)
  | .send k => s.entries[k]?.bind (s.send k)
  | .close w =>
    match s.wires[w]? with
    | none => none
    | some wire => some { s with wires := s.wires.set w wire.close }
  | .receive w =>
    match s.wires[w]? with
    | none => none
    | some wire =>
      match wire.receive false with
      | none => none
      | some (wire, _) => some { s with wires := s.wires.set w wire }

end EntrySystem

/-! ## What the sink has been told -/

/-- The execution that a call of `Waiting` or `Started` is about. -/
def Event.announcedID : Event → Option String
  | .waiting _ id _ _ _ | .started _ id _ _ _ _ _ => some id
  | _ => none

def Tracker.Announced (t : Tracker) (id : String) : Prop :=
  ∃ event ∈ t.trace, event.announcedID = some id

/-- A `Start` that has a slot or waits for one. -/
def Pc.queued : Pc → Option String
  | .startEvalWait call | .startBlocked call _ | .startInsert call _ => some call.id
  | _ => none

variable {now : Time} {pc : Pc} {t' : Tracker} {id : String}

theorem Pc.starting_of_queued (h : pc.queued = some id) : pc.starting = some id := by
  cases pc <;> simp_all [queued, starting]

namespace Tracker

structure Voices (t t' : Tracker) (pc pc' : Pc) : Prop where
  recorded : t'.trace = t.trace ∨ ∃ event : Event, t'.trace = t.trace ++ [event] ∧
    ∀ id, event.announcedID = some id → pc'.queued = some id ∨ pc.announcing = some id
  queued : ∀ id, t.insertedCount id + ownCount Pc.queued id pc ≤
    t'.insertedCount id + ownCount Pc.queued id pc'
  announcing : ∀ id, ownCount Pc.announcing id pc' + t.insertedCount id ≤
    ownCount Pc.announcing id pc + t'.insertedCount id

variable {t : Tracker} {pc' : Pc}

theorem insertedCount_le {id : String}
    (h : t'.trace = t.trace ∨ ∃ event, t'.trace = t.trace ++ [event]) :
    t.insertedCount id ≤ t'.insertedCount id := by
  unfold insertedCount
  rcases h with hsame | ⟨event, hnext⟩
  · rw [hsame]
  · rw [hnext, tally_concat]
    omega

theorem Voices.insertedCount_le (h : Voices t t' pc pc')
    (id : String) : t.insertedCount id ≤ t'.insertedCount id :=
  Tracker.insertedCount_le (h.recorded.imp_right fun ⟨event, hnext, _⟩ => ⟨event, hnext⟩)

theorem Voices.of_unvoiced
    (hrecorded : t'.trace = t.trace ∨ ∃ event : Event, t'.trace = t.trace ++ [event] ∧
      event.announcedID = none) (hqueued : pc.queued = none ∨ pc'.queued = pc.queued)
    (hannouncing : pc'.announcing = none) : Voices t t' pc pc' := by
  have hle : ∀ id, t.insertedCount id ≤ t'.insertedCount id := fun id =>
    Tracker.insertedCount_le (hrecorded.imp_right fun ⟨event, hnext, _⟩ => ⟨event, hnext⟩)
  refine ⟨?_, ?_, ?_⟩
  · exact hrecorded.imp_right fun ⟨event, hnext, hnone⟩ => ⟨event, hnext, by simp [hnone]⟩
  · intro id
    have := hle id
    rcases hqueued with h | h <;> simp only [ownCount, h, reduceCtorEq, if_false] <;> omega
  · intro id
    have := hle id
    simp only [ownCount, hannouncing, reduceCtorEq, if_false]
    omega

attribute [local simp] Event.insertedID Pc.announcing ownCount Pc.queued

theorem Voices.of_insert (t : Tracker) (call : StartCall) (token : Option Nat) (now : Time) :
    Voices t (t.startLocked call) (.startInsert call token) (.startStarted call now) := by
  have hinserted : ∀ id, (t.startLocked call).insertedCount id =
      t.insertedCount id + ownCount Event.insertedID id (.inserted call.id) :=
    fun id => tally_concat _ _ _ _
  refine ⟨.inr ⟨_, rfl, nofun⟩, ?_, ?_⟩
  · simp [hinserted]
  · simp [hinserted]
    omega

theorem voices_advance (hstep : t.advance now pc = some (t', pc')) : Voices t t' pc pc' := by
  cases advances_of_advance hstep with
  | taken call ch hsend =>
    obtain ⟨k, sem, sem', -, -, -, hsets⟩ := sendOn_spec hsend
    exact .of_unvoiced (.inr ⟨_, hsets.trace_eq, rfl⟩) (.inl rfl) rfl
  | waiting call =>
    refine ⟨.inr ⟨_, rfl, fun id hid => .inl hid⟩, ?_, ?_⟩ <;> intro id <;>
      simp
  | reevaluated call => exact .of_unvoiced (.inl rfl) (.inr rfl) rfl
  | unblocked call ch hsend =>
    obtain ⟨k, sem, sem', -, -, -, hsets⟩ := sendOn_spec hsend
    exact .of_unvoiced (.inr ⟨_, hsets.trace_eq, rfl⟩) (.inr rfl) rfl
  | inserted call token => exact .of_insert t call token now
  | started call atTime =>
    refine ⟨.inr ⟨_, rfl, fun id hid => .inr hid⟩, ?_, ?_⟩ <;> intro id <;>
      simp
  | accepted call done hlocked =>
    obtain ⟨-, -, -, -, htrace⟩ := nodeEventLocked_spec hlocked
    exact .of_unvoiced (.inr ⟨_, htrace, rfl⟩) (.inl rfl) rfl
  | reported call | completed call st | finished c =>
    exact .of_unvoiced (.inr ⟨_, rfl, rfl⟩) (.inl rfl) rfl
  | cancelled flowID id hlocked | timedOut flowID id hlocked =>
    obtain ⟨-, -, -, -, htrace⟩ := removeLocked_spec hlocked
    exact .of_unvoiced (.inl htrace) (.inl rfl) rfl
  | released c ch hreceive =>
    obtain ⟨k, sem, owner, sem', -, -, -, hsets⟩ := receiveOn_spec hreceive
    exact .of_unvoiced (.inr ⟨_, hsets.trace_eq, rfl⟩) (.inl rfl) rfl
  | _ => exact .of_unvoiced (.inl rfl) (.inl rfl) rfl

end Tracker

namespace System

variable {pc' : Pc}

/-- Only an execution that is inserted, or whose `Start` is queued, was announced. -/
structure Voiced (s : System) : Prop where
  announcing : ∀ id, tally Pc.announcing s.threads id ≤ s.tracker.insertedCount id
  announced : ∀ id, s.tracker.Announced id →
    0 < s.tracker.insertedCount id + tally Pc.queued s.threads id

section Voiced

variable {s s' : System} {action : Action} {id : String}

theorem voiced_advance {index : Nat} {pc' : Pc} (hvoiced : s.Voiced)
    (hpc : s.threads[index]? = some pc) (hadvance : s.tracker.advance now pc = some (t', pc')) :
    Voiced { s with tracker := t', threads := s.threads.set index pc' } := by
  have hvoices := Tracker.voices_advance hadvance
  have hqueued := fun id => tally_set Pc.queued hpc pc' id
  have hannouncing := fun id => tally_set Pc.announcing hpc pc' id
  refine ⟨?_, ?_⟩
  · intro id
    have := hvoiced.announcing id
    have := hvoices.announcing id
    have := hannouncing id
    dsimp only
    omega
  · rintro id ⟨event, hevent, hid⟩
    have hcarried : s.tracker.Announced id →
        0 < t'.insertedCount id + tally Pc.queued (s.threads.set index pc') id := by
      intro hold
      have := hvoiced.announced id hold
      have := hvoices.queued id
      have := hqueued id
      omega
    dsimp only at hevent ⊢
    rcases hvoices.recorded with hsame | ⟨last, hnext, hlast⟩
    · rw [hsame] at hevent
      exact hcarried ⟨event, hevent, hid⟩
    · rw [hnext, List.mem_append, List.mem_singleton] at hevent
      rcases hevent with hold | rfl
      · exact hcarried ⟨event, hold, hid⟩
      · rcases hlast id hid with hnew | howner
        · have hmem : pc' ∈ s.threads.set index pc' :=
            List.mem_set (List.getElem?_eq_some_iff.mp hpc).1 pc'
          have := tally_pos_iff.mpr ⟨pc', hmem, hnew⟩
          omega
        · have := tally_pos_iff.mpr ⟨pc, List.mem_of_getElem? hpc, howner⟩
          have := hvoiced.announcing id
          have := hvoices.insertedCount_le id
          omega

theorem voiced_spawn (hvoiced : s.Voiced) (hqueued : pc.queued = none)
    (hannouncing : pc.announcing = none) (timers : AList fun _ : String => Timer)
    (used : List String) :
    Voiced ⟨{ s.tracker with timers := timers }, s.threads ++ [pc], used⟩ := by
  refine ⟨?_, ?_⟩ <;> simp only [tally_concat, ownCount, hannouncing, hqueued]
  · exact hvoiced.announcing
  · exact hvoiced.announced

theorem voiced_step (hvoiced : s.Voiced) (hkept : ∀ thread, action ≠ .abort thread)
    (hstep : s.step action = some s') : s'.Voiced := by
  cases steps_of_step hstep with
  | spawn _ hentering => cases hentering <;> exact voiced_spawn hvoiced rfl rfl _ _
  | start | fire => exact voiced_spawn hvoiced rfl rfl _ _
  | proceed hpc hadvance => exact voiced_advance hvoiced hpc hadvance
  | abort => exact absurd rfl (hkept _)

end Voiced

/-! ## How far an execution has come -/

def Gone (s : System) (id : String) : Prop :=
  s.tracker.insertedCount id + tally Pc.starting s.threads id = 0 ∧ id ∈ s.used

def Entered (s : System) (id : String) : Prop := s.tracker.insertedCount id = 1

def Guarded (s : System) (id : String) : Prop :=
  s.Entered id ∧ (id ∈ s.tracker.active.keys → id ∈ s.tracker.timers)

section Steps

variable {s s' : System} {action : Action} {id : String}

theorem starts_step (hlife : s.Lifecycle) (hused : id ∈ s.used) (hstep : s.step action = some s') :
    s'.tracker.insertedCount id + tally Pc.starting s'.threads id ≤
        s.tracker.insertedCount id + tally Pc.starting s.threads id ∧
      s.tracker.insertedCount id ≤ s'.tracker.insertedCount id ∧ id ∈ s'.used := by
  have hspawn {pc : Pc} (hnone : pc.starting ≠ some id) :
      tally Pc.starting (s.threads ++ [pc]) id = tally Pc.starting s.threads id := by
    rw [tally_concat, ownCount, if_neg hnone]
    rfl
  cases steps_of_step hstep with
  | @spawn _ pc _ hentering =>
    have hnone : pc.starting ≠ some id := by
      cases hentering <;> simp [Pc.starting]
    exact ⟨(congrArg _ (hspawn hnone)).le, le_rfl, hused⟩
  | @start call hunused =>
    have hne : (Pc.startEnter call).starting ≠ some id := by
      rintro ⟨⟩
      exact hunused hused
    exact ⟨(congrArg _ (hspawn hne)).le, le_rfl, List.mem_cons_of_mem _ hused⟩
  | @proceed _ _ _ pc' _ hpc hadvance =>
    have hmoves := Tracker.moves_advance
      (fun id => hlife.not_active_of_starting (List.mem_of_getElem? hpc)) hadvance
    have hset := tally_set Pc.starting hpc pc' id
    have hfresh := hmoves.fresh id
    refine ⟨?_, (Tracker.voices_advance hadvance).insertedCount_le id, hused⟩
    dsimp only
    omega
  | abort hpc =>
    have hset := tally_set Pc.starting hpc (.returned .ctxErr) id
    have hnone : ownCount Pc.starting id (.returned .ctxErr) = 0 := rfl
    refine ⟨?_, le_rfl, hused⟩
    dsimp only
    omega
  | fire => exact ⟨(congrArg _ (hspawn (by simp [Pc.starting]))).le, le_rfl, hused⟩

theorem Gone.step (hgone : s.Gone id) (hlife : s.Lifecycle)
    (hstep : s.step action = some s') : s'.Gone id := by
  obtain ⟨hle, -, hused⟩ := starts_step hlife hgone.2 hstep
  have := hgone.1
  exact ⟨by omega, hused⟩

theorem Entered.step (hentered : s.Entered id) (hlife : s.Lifecycle)
    (hstep : s.step action = some s') : s'.Entered id := by
  have hone : s.tracker.insertedCount id = 1 := hentered
  have hused : id ∈ s.used := hlife.known id (by omega)
  obtain ⟨-, hle, -⟩ := starts_step hlife hused hstep
  have hfresh := (lifecycle_step hlife hstep).fresh id
  unfold Entered
  omega

theorem Guarded.step (hguarded : s.Guarded id) (hlife : s.Lifecycle)
    (hstep : s.step action = some s') : s'.Guarded id := by
  obtain ⟨hentered, htimer⟩ := hguarded
  refine ⟨hentered.step hlife hstep, ?_⟩
  cases steps_of_step hstep with
  | spawn | start | abort => exact htimer
  | fire => exact fun hmem => AList.mem_replace.mpr (htimer hmem)
  | proceed hpc hadvance =>
    cases Tracker.tables_advance hadvance with
    | same hactive htimers _ =>
      rw [hactive, htimers]
      exact htimer
    | insert call token hinsert ht' =>
      subst hinsert ht'
      have hne : id ≠ call.id := by
        rintro rfl
        have hpos := tally_pos_iff.mpr
          ⟨Pc.startInsert call token, List.mem_of_getElem? hpc, (rfl : Pc.starting _ = _)⟩
        have hfresh := hlife.fresh call.id
        have hone : s.tracker.insertedCount call.id = 1 := hentered
        omega
      intro hmem
      simp only [Tracker.startLocked, ← AList.mem_keys, AList.mem_insert, hne, false_or] at hmem ⊢
      have hold := htimer (AList.mem_keys.mp hmem)
      split
      · exact (AList.mem_insert _).mpr (.inr hold)
      · exact hold
    | remove removed hactive htimers _ =>
      intro hmem
      rw [hactive] at hmem
      have hne : id ≠ removed := by
        rintro rfl
        exact (AList.keys_nodup _).not_mem_erase hmem
      rw [htimers, AList.mem_erase]
      exact ⟨hne, htimer ((List.mem_erase_of_ne hne).mp hmem)⟩

end Steps

end System

/-! ## What an entry path relies on -/

theorem Tracker.advance_starting {t : Tracker} (hstarting : pc.starting = some id)
    (hstep : t.advance now pc = some (t', pc')) :
    pc'.starting = some id ∨ pc'.announcing = some id ∨
      pc' = .returned .concurrencyRejected ∧ t'.trace = t.trace := by
  cases pc <;> simp only [Tracker.advance] at hstep <;>
    grind [Pc.starting, Pc.announcing]

theorem Tracker.advance_announcing {t : Tracker} (hannouncing : pc.announcing = some id)
    (hstep : t.advance now pc = some (t', pc')) : pc' = .returned (.execution id) := by
  cases pc <;> cases hannouncing
  cases hstep
  rfl

/-- Where the `Start` of an entry path stands. -/
def Pc.Starts (s : System) (id : String) (pc : Pc) : Prop :=
  pc.starting = some id ∨ pc.announcing = some id ∨
    pc = .returned (.execution id) ∧ s.Entered id ∨
    pc = .returned .concurrencyRejected ∧ s.Gone id

def Entry.Fits (s : System) (e : Entry) : Prop :=
  match e.phase with
  | .starting => ∃ pc, s.threads[e.thread]? = some pc ∧ pc.Starts s e.call.id
  | .sending | .returned none => s.Entered e.call.id
  | .returned (some .concurrencyRejected) => s.Gone e.call.id
  | .returned (some .ctx) => False
  | .returned (some (.send _)) => s.Guarded e.call.id

section Fits

variable {s s' : System} {action : Action} {id : String}

theorem Pc.Starts.keep (h : pc.Starts s id) (hlife : s.Lifecycle)
    (hstep : s.step action = some s') : pc.Starts s' id := by
  rcases h with h | h | ⟨h, hentered⟩ | ⟨h, hgone⟩
  · exact .inl h
  · exact .inr (.inl h)
  · exact .inr (.inr (.inl ⟨h, hentered.step hlife hstep⟩))
  · exact .inr (.inr (.inr ⟨h, hgone.step hlife hstep⟩))

theorem Pc.Starts.advance {index : Nat} {pc' : Pc} (h : pc.Starts s id) (hlife : s.Lifecycle)
    (hvoiced : s.Voiced) (hpc : s.threads[index]? = some pc)
    (hadvance : s.tracker.advance now pc = some (t', pc')) :
    pc'.Starts { s with tracker := t', threads := s.threads.set index pc' } id := by
  have hmem := List.mem_of_getElem? hpc
  rcases h with hstarting | hannouncing | ⟨rfl, _⟩ | ⟨rfl, _⟩
  · rcases Tracker.advance_starting hstarting hadvance with h | h | ⟨rfl, htrace⟩
    · exact .inl h
    · exact .inr (.inl h)
    · have hfresh := hlife.fresh id
      have hset := tally_set Pc.starting hpc (.returned .concurrencyRejected) id
      have hown : ownCount Pc.starting id pc = 1 := if_pos hstarting
      have hnone : ownCount Pc.starting id (.returned .concurrencyRejected) = 0 := rfl
      have hcount : t'.insertedCount id = s.tracker.insertedCount id := by
        rw [Tracker.insertedCount, htrace, ← Tracker.insertedCount]
      refine .inr (.inr (.inr ⟨rfl, ?_, hlife.known id (by omega)⟩))
      dsimp only
      omega
  · obtain rfl := Tracker.advance_announcing hannouncing hadvance
    have hpos := tally_pos_iff.mpr ⟨pc, hmem, hannouncing⟩
    have hle := hvoiced.announcing id
    have hmono := (Tracker.voices_advance hadvance).insertedCount_le id
    have hmoves := Tracker.moves_advance
      (fun id => hlife.not_active_of_starting hmem) hadvance
    have hfresh := ((hlife.of_moves hpc hmoves).fresh id)
    dsimp only at hfresh
    refine .inr (.inr (.inl ⟨rfl, ?_⟩))
    unfold System.Entered
    dsimp only
    omega
  · contradiction
  · contradiction

theorem Entry.Fits.step {e : Entry} (h : e.Fits s) (hlife : s.Lifecycle) (hvoiced : s.Voiced)
    (hkept : ∀ thread, action ≠ .abort thread) (hstep : s.step action = some s') : e.Fits s' := by
  unfold Fits at h ⊢
  split at h
  case h_1 =>
    obtain ⟨pc, hpc, hstarts⟩ := h
    have hlt : e.thread < s.threads.length := (List.getElem?_eq_some_iff.mp hpc).1
    have hstays : ∀ last, (s.threads ++ [last])[e.thread]? = some pc :=
      fun last => (List.getElem?_append_left hlt).trans hpc
    have hkeep := hstarts.keep hlife hstep
    cases System.steps_of_step hstep with
    | spawn | start | fire => exact ⟨pc, hstays _, hkeep⟩
    | abort => exact absurd rfl (hkept _)
    | @proceed thread _ pc₁ pc₁' _ hpc₁ hadvance =>
      by_cases hthread : thread = e.thread
      · subst hthread
        obtain rfl := Option.mem_unique hpc₁ hpc
        exact ⟨pc₁', List.getElem?_set_self hlt, hstarts.advance hlife hvoiced hpc hadvance⟩
      · exact ⟨pc, (List.getElem?_set_ne hthread).trans hpc, hkeep⟩
  case h_2 => exact System.Entered.step h hlife hstep
  case h_3 => exact System.Entered.step h hlife hstep
  case h_4 => exact System.Gone.step h hlife hstep
  case h_5 => exact h
  case h_6 => exact System.Guarded.step h hlife hstep

end Fits

/-! ## Entry paths that cannot leave an execution behind -/

theorem send_ne_error {wire wire' : Bus.Wire Datagram} {dgm : Datagram} {err : WireError}
    (hopen : wire.closed = false) : wire.send false dgm ≠ some (wire', .error err) := by
  unfold Wire.send Wire.sendBlocked
  grind

namespace EntrySystem

def reachable (s : EntrySystem) (e : Entry) : Bool :=
  !e.ctxDone && match e.targets with
    | [] => true
    | target :: _ => (s.wires[target]?).all fun wire => !wire.closed

/--
No `Start` gives up, a send that can fail is one for an execution that has
ended or has a timer, and a swap of the semaphore is one no thread can notice.
-/
def secure (s : EntrySystem) : EntryAction → Bool
  | .giveUp _ => false
  | .tracker action => s.tracker.swapSafe action
  | .send k =>
    match s.entries[k]? with
    | none => true
    | some e =>
      s.reachable e || !s.tracker.tracker.active.keys.contains e.call.id ||
        s.tracker.tracker.timers.keys.contains e.call.id
  | _ => true

structure Sound (s : EntrySystem) : Prop where
  accounted : s.tracker.Accounted
  watched : s.tracker.Watched
  voiced : s.tracker.Voiced
  entries : ∀ e ∈ s.entries, e.Fits s.tracker

theorem sound_start (maxConcurrency : Int) (reject : Bool) (timeout : Int)
    (wires : List (Bus.Wire Datagram)) :
    (start (.newTracker maxConcurrency reject timeout) wires).Sound where
  accounted := ⟨System.lifecycle_start _ _ _, System.slots_start _ _ _⟩
  watched := System.watched_start _ _ _
  voiced := ⟨fun _ => Nat.le_refl 0, fun _ ⟨_, hmem, _⟩ => absurd hmem List.not_mem_nil⟩
  entries := by simp [start]

section Step

variable {s s' : EntrySystem} {k : Nat} {e : Entry}

theorem Sound.tracker (hsound : s.Sound) {action : Action} {tracker : System}
    (hkept : ∀ thread, action ≠ .abort thread) (hsafe : s.tracker.swapSafe action = true)
    (hstep : s.tracker.step action = some tracker) : Sound { s with tracker } where
  accounted := System.accounted_step hsound.accounted hsafe hstep
  watched := System.watched_step hsound.watched hstep
  voiced := System.voiced_step hsound.voiced hkept hstep
  entries := fun e he => (hsound.entries e he).step hsound.accounted.1 hsound.voiced hkept hstep

theorem Sound.entry (hsound : s.Sound) (e' : Entry) (hfits : e'.Fits s.tracker)
    (wires : List (Bus.Wire Datagram)) :
    Sound { s with wires := wires, entries := s.entries.set k e' } where
  accounted := hsound.accounted
  watched := hsound.watched
  voiced := hsound.voiced
  entries := forall_mem_set hsound.entries hfits

theorem sound_enter {c : EntryCall} (hsound : s.Sound) (hstep : s.enter c = some s') :
    s'.Sound := by
  revert hstep
  fun_cases s.enter c <;> rintro ⟨⟩
  next call hstart tracker htracker =>
    have hnext := hsound.tracker (by simp) rfl htracker
    refine ⟨hnext.accounted, hnext.watched, hnext.voiced, forall_mem_concat hnext.entries ?_⟩
    refine ⟨.startEnter call, ?_, .inl rfl⟩
    simp only [System.step, System.call, Call.fresh] at htracker
    split at htracker
    · contradiction
    · cases htracker
      simp [Call.entry]

theorem sound_resume (hsound : s.Sound) (he : e ∈ s.entries)
    (hstep : s.resume k e = some s') : s'.Sound := by
  have hfits := hsound.entries e he
  revert hstep
  fun_cases s.resume k e <;> rintro ⟨⟩
  next result hphase hthread phase hafter =>
    simp only [Entry.Fits, hphase, hthread, Option.some.injEq, exists_eq_left'] at hfits
    rcases hfits with h | h | ⟨h, hentered⟩ | ⟨h, hgone⟩ <;> cases h <;> cases hafter
    · exact hsound.entry { e with phase := .sending } hentered s.wires
    · exact hsound.entry { e with phase := .returned (some .concurrencyRejected) } hgone s.wires

theorem sound_send (hsound : s.Sound) (he : s.entries[k]? = some e)
    (hsecure : s.secure (.send k) = true) (hstep : s.send k e = some s') : s'.Sound := by
  have hfits := hsound.entries e (List.mem_of_getElem? he)
  simp only [secure, he] at hsecure
  revert hstep
  fun_cases s.send k e <;> rintro ⟨⟩
  next htargets hphase =>
    simp only [Entry.Fits, hphase] at hfits
    exact hsound.entry { e with phase := .returned none } hfits s.wires
  next targets _ hphase _ _ _ _ _ =>
    refine hsound.entry { e with targets } ?_ _
    simpa only [Entry.Fits] using hfits
  next htargets hphase wire hwire wire' err hsend =>
    have hentered : s.tracker.Entered e.call.id := by simpa only [Entry.Fits, hphase] using hfits
    refine hsound.entry { e with phase := .returned (some (.send err)) } ⟨hentered, ?_⟩ _
    -- the send failed, so it was not reachable
    have hfailed : s.reachable e = false := by
      rw [Bool.eq_false_iff]
      intro hreach
      simp only [reachable, htargets, hwire, Option.all_some, Bool.and_eq_true,
        Bool.not_eq_true'] at hreach
      rw [hreach.1] at hsend
      exact send_ne_error hreach.2 hsend
    intro hmem
    rw [hfailed, List.contains_iff_mem.mpr hmem] at hsecure
    exact AList.mem_keys.mpr (List.contains_iff_mem.mp (by simpa using hsecure))

end Step

theorem sound_step {s s' : EntrySystem} {action : EntryAction} (hsound : s.Sound)
    (hsecure : s.secure action = true) (hstep : s.step action = some s') : s'.Sound := by
  revert hstep
  fun_cases s.step action
  case case1 => exact sound_enter hsound
  case case7 => contradiction
  case case8 k =>
    intro hstep
    obtain ⟨e, he, hresume⟩ := Option.bind_eq_some_iff.mp hstep
    exact sound_resume hsound (List.mem_of_getElem? he) hresume
  case case9 k =>
    intro hstep
    obtain ⟨e, he, hsend⟩ := Option.bind_eq_some_iff.mp hstep
    exact sound_send hsound he hsecure hsend
  all_goals rintro ⟨⟩
  next hforeign _ htracker =>
    refine hsound.tracker ?_ hsecure htracker
    rintro thread rfl
    contradiction
  next e he =>
    exact hsound.entry { e with ctxDone := true }
      (hsound.entries e (List.mem_of_getElem? he)) s.wires
  all_goals exact ⟨hsound.accounted, hsound.watched, hsound.voiced, hsound.entries⟩

end EntrySystem

def System.Concludes (s : System) (id : String) : Prop :=
  ∀ actions final, (∀ action ∈ actions, action.internal = true) →
    Meets System.step (fun s action => s.swapSafe action = true) s actions →
    run System.step s actions = some final →
      actions.length ≤ s.rank ∧ (final.Quiescent → final.Resolved id)

def EntrySystem.NoneDangling (s : EntrySystem) : Prop :=
  ∀ e ∈ s.entries, ∀ err, e.phase = .returned (some err) →
    s.tracker.tracker.Announced e.call.id → s.tracker.Concludes e.call.id

structure System.Concluding (id : String) (s : System) : Prop where
  accounted : s.Accounted
  watched : s.Watched
  guarded : s.Guarded id

theorem System.Concluding.concludes {s : System} (h : s.Concluding id) : s.Concludes id := by
  intro actions final hinternal hsafe hrun
  constructor
  · have hbound : actions.length + final.rank ≤ s.rank :=
      length_add_rank_le System.rank_step hinternal hrun
    omega
  · intro hquiet
    have hfinal := run_invariant_of_meets (fun h hsafe hstep =>
      ⟨System.accounted_step h.accounted hsafe hstep, System.watched_step h.watched hstep,
        h.guarded.step h.accounted.1 hstep⟩) h hsafe hrun
    exact hquiet.resolved hfinal.accounted hfinal.watched hfinal.guarded.1 hfinal.guarded.2

theorem EntrySystem.Sound.noneDangling {s : EntrySystem} (hsound : s.Sound) : s.NoneDangling := by
  intro e he err hphase hannounced
  have hfits := hsound.entries e he
  simp only [Entry.Fits, hphase] at hfits
  cases err with
  | concurrencyRejected =>
    -- a rejected execution was never announced
    have hvoiced := hsound.voiced.announced e.call.id hannounced
    have hqueued : tally Pc.queued s.tracker.threads e.call.id ≤
        tally Pc.starting s.tracker.threads e.call.id :=
      tally_le_tally (fun _ => Pc.starting_of_queued) s.tracker.threads
    have hnone := hfits.1
    omega
  | ctx => exact hfits.elim
  | send err => exact System.Concluding.concludes ⟨hsound.accounted, hsound.watched, hfits⟩

/--
In every run whose steps are all secure, no execution is left dangling by a
failed entry.
-/
theorem failedEntries_conclude (maxConcurrency : Int) (reject : Bool) (timeout : Int)
    (wires : List (Bus.Wire Datagram)) (actions : List EntryAction)
    (hsecure : Meets EntrySystem.step (fun s action => s.secure action = true)
      (.start (.newTracker maxConcurrency reject timeout) wires) actions)
    {s : EntrySystem}
    (hrun : run EntrySystem.step (.start (.newTracker maxConcurrency reject timeout) wires)
      actions = some s) : s.NoneDangling := by
  have hinv : s.Sound := run_invariant_of_meets EntrySystem.sound_step
    (EntrySystem.sound_start maxConcurrency reject timeout wires) hsecure hrun
  exact hinv.noneDangling

def entryWires : List (Bus.Wire Datagram) := [.newWire ⟨1, .block, 0⟩]

def webhookEntry (id : String) : EntryCall :=
  .emit "flow" "in" "webhook" { header := { id := id, correlationID := id } } [0]

def trackerSteps (thread steps : Nat) : List EntryAction :=
  List.replicate steps (.tracker (.proceed thread 0))

def closedUnderSend : List EntryAction :=
  [EntryAction.enter (webhookEntry "a")] ++ trackerSteps 0 5 ++
    [EntryAction.resume 0, .close 0, .send 0]

theorem failedEntries_conclude_closedUnderSend :
    ∃ s, run EntrySystem.step (.start (.newTracker 1 false 1000) entryWires)
        closedUnderSend = some s ∧
      s.entries.map Entry.phase = [.returned (some (.send .closed))] ∧
      s.tracker.Concludes "a" := by
  refine exists_some_imp (fun s => s.entries.map Entry.phase = [.returned (some (.send .closed))] ∧
    (∃ e ∈ s.entries, e.call.id = "a" ∧ e.phase = .returned (some (.send .closed))) ∧
    ∃ event ∈ s.tracker.tracker.trace, event.announcedID = some "a") (by decide +kernel) ?_
  rintro s hrun ⟨hphases, ⟨e, he, hid, hphase⟩, event, hevent, hannounced⟩
  refine ⟨hphases, ?_⟩
  have hnone := failedEntries_conclude 1 false 1000 entryWires closedUnderSend (by decide +kernel)
    hrun
  rw [← hid]
  exact hnone e he _ hphase ⟨event, hevent, hid ▸ hannounced⟩

def givesUpInQueue : List EntryAction :=
  [EntryAction.enter (webhookEntry "a")] ++ trackerSteps 0 5 ++ [EntryAction.resume 0] ++
    [EntryAction.enter (webhookEntry "b")] ++ trackerSteps 1 6 ++
    [EntryAction.cancelCtx 1, .giveUp 1, .resume 1]

theorem givesUpInQueue_leaves_waiting :
    ¬ ∀ (maxConcurrency : Int) (reject : Bool) (timeout : Int)
      (wires : List (Bus.Wire Datagram)) (actions : List EntryAction) (s : EntrySystem),
      run EntrySystem.step (.start (.newTracker maxConcurrency reject timeout) wires)
        actions = some s → s.NoneDangling := by
  intro hall
  obtain ⟨s, hrun, hrank, hfinished, ⟨e, he, hid, hphase⟩, event, hevent, hannounced⟩ :
      ∃ s, run EntrySystem.step (.start (.newTracker 1 false 0) entryWires) givesUpInQueue =
          some s ∧ s.tracker.rank = 0 ∧ s.tracker.tracker.finishedCount "b" = 0 ∧
        (∃ e ∈ s.entries, e.call.id = "b" ∧ e.phase = .returned (some .ctx)) ∧
        ∃ event ∈ s.tracker.tracker.trace, event.announcedID = some "b" := by
    decide +kernel
  have hconcludes := hall 1 false 0 entryWires givesUpInQueue s hrun e he _ hphase
    ⟨event, hevent, hid ▸ hannounced⟩
  have hresolved := (hconcludes [] s.tracker (by simp) trivial rfl).2
    (System.quiescent_of_rank_eq_zero hrank)
  rw [hid] at hresolved
  exact absurd hresolved.finished (by omega)

end DataPipe.Flow
