import DataPipe.Flow.Standing

/-!
# Exact completion

In a run of regular steps every execution has a standing in every state, so
that it is reported finished exactly when nothing of it is outstanding.  An
output that is wired to two inboxes breaks this.
-/

set_option linter.dupNamespace false

namespace DataPipe.Flow

open DataPipe.Foundation

/-! ## What the sink is told -/

variable {t : Tracker} {now : Time} {events : List Event} {st : ExecState} {s' : Pipeline}
variable {t' : Tracker}

theorem Tracker.hasStarted_of_trace (h : t'.trace = t.trace ++ events) (id : String) :
    t'.hasStarted id = (t.hasStarted id || events.any fun event => event.insertedID = some id) := by
  rw [Tracker.hasStarted, h, List.any_append]
  rfl

theorem Tracker.hasFinished_of_trace (h : t'.trace = t.trace ++ events) (id : String) :
    t'.hasFinished id =
      (t.hasFinished id || events.any fun event => event.finishedID = some id) := by
  rw [Tracker.hasFinished, h, List.any_append]
  rfl

variable {call : EventCall}

theorem Tracker.nodeEventLocked_of_active (hactive : t.active.lookup call.id = some st) :
    ∃ (t' : Tracker) (done after : Option ExecState),
      t.nodeEventLocked call = some (t', done) ∧
      t'.trace = t.trace ++ [.accepted call.id] ∧
      (∀ id, t'.active.lookup id = if id = call.id then after else t.active.lookup id) ∧
      (((nextState st call).pending ≤ 0 ∧ done = some (nextState st call) ∧ after = none) ∨
        (0 < (nextState st call).pending ∧ done = none ∧
          after = some (nextState st call))) := by
  have hmem : call.id ∈ t.active := AList.lookup_isSome.mp (by simp [hactive])
  unfold nodeEventLocked
  rw [hactive]
  by_cases hpending : (nextState st call).pending ≤ 0
  · refine ⟨_, _, none, if_pos hpending, rfl, ?_, .inl ⟨hpending, rfl, rfl⟩⟩
    intro id
    by_cases hid : id = call.id
    · rw [if_pos hid, hid, AList.lookup_erase]
    · rw [if_neg hid, AList.lookup_erase_ne hid]
  · refine ⟨_, _, some (nextState st call), if_neg hpending, rfl, ?_,
      .inr ⟨by omega, rfl, rfl⟩⟩
    exact lookup_replace hmem (nextState st call)

def Ordered (trace : List Event) : Prop :=
  trace.Pairwise fun earlier later =>
    ∀ id, earlier.finishedID = some id → later.nodeEventID ≠ some id

variable {event : Event}

theorem Ordered.concat (h : Ordered t.trace)
    (hevent : ∀ id, event.nodeEventID = some id → t.hasFinished id = false) :
    Ordered (t.trace ++ [event]) := by
  refine List.pairwise_append.mpr ⟨h, List.pairwise_singleton _ _, ?_⟩
  intro earlier hearlier later hlater id hfinished hlaterId
  cases List.mem_singleton.mp hlater
  have hnot := hevent id hlaterId
  rw [Tracker.hasFinished, List.any_eq_false] at hnot
  exact hnot earlier hearlier (by simpa using hfinished)

theorem Ordered.concat_of_none (h : Ordered t.trace) (hevent : event.nodeEventID = none) :
    Ordered (t.trace ++ [event]) := by
  refine h.concat ?_
  intro id hid
  rw [hevent] at hid
  contradiction

/-! ## The invariant -/

/-- The state after the section of `NodeEvent` under the mutex. -/
def Pipeline.reported (s : Pipeline) (index : Nat) (item : Item) (call : EventCall)
    (done : Option ExecState) (tracker : Tracker) : Pipeline :=
  { s with
    tracker := tracker
    items := (s.items.set index { item with stage := .notifying call done [] }).map
      (Item.settle index) }

structure Exact (s : Pipeline) : Prop where
  wellformed : Wellformed s
  standing : ∀ id, Standing (s.execution id)
  ordered : Ordered s.tracker.trace

theorem exact_start : Exact .start where
  wellformed := by
    refine ⟨?_, ?_, rfl⟩
    · intro i item hitem
      simp [Pipeline.start] at hitem
    · intro i item j hitem
      simp [Pipeline.start] at hitem
  standing id := .fresh rfl rfl rfl rfl rfl rfl
  ordered := List.Pairwise.nil

namespace Exact

variable {s : Pipeline} {i : Nat} {item : Item}

theorem of_own (h : Exact s) (hwellformed : Wellformed s') (own : String)
    (htracker : ∀ id, own ≠ id → s'.tracker.active.lookup id = s.tracker.active.lookup id ∧
      s'.tracker.hasStarted id = s.tracker.hasStarted id ∧
      s'.tracker.hasFinished id = s.tracker.hasFinished id)
    (hcounted : ∀ id, own ≠ id → counted s'.items id = counted s.items id)
    (hstages : ∀ p id, own ≠ id → stageCount p s'.items id = stageCount p s.items id)
    (hown : Standing (s'.execution own)) (hordered : Ordered s'.tracker.trace) :
    Exact s' := by
  refine ⟨hwellformed, ?_, hordered⟩
  intro id
  by_cases heq : own = id
  · exact heq ▸ hown
  · obtain ⟨hactive, hstarted, hfinished⟩ := htracker id heq
    have hsame : s'.execution id = s.execution id := by
      simp only [Pipeline.execution, hactive, hstarted, hfinished, hcounted id heq,
        hstages _ id heq]
    rw [hsame]
    exact h.standing id

theorem running_of_working (h : Exact s) (hitem : s.items[i]? = some item)
    (hworking : item.stage.working = true) : ∃ st, Running (s.execution item.corr) st :=
  (h.standing item.corr).running_of_working
    ((stageCount_pos_iff _).mpr ⟨item, List.mem_of_getElem? hitem, rfl, hworking⟩)

theorem setStage (h : Exact s) (hitem : s.items[i]? = some item) (stage : Stage)
    (hlive : stage.live = item.stage.live) (hproducing : item.producing = false)
    (hshape : Item.Shape { item with stage := stage } 0) (tracker : Tracker)
    (events : List Event) (hactive : tracker.active = s.tracker.active)
    (htrace : tracker.trace = s.tracker.trace ++ events)
    (hinserted : ∀ event ∈ events, event.insertedID = none)
    (hfinished : ∀ event ∈ events, ∀ id, event.finishedID = some id → item.corr = id)
    (hordered : Ordered tracker.trace)
    (hown : ∀ working completing : Nat,
      working + item.stage.working.toNat =
        (s.execution item.corr).working + stage.working.toNat →
      completing + item.stage.completing.toNat =
        (s.execution item.corr).completing + stage.completing.toNat →
      Standing { s.execution item.corr with
        finished := tracker.hasFinished item.corr, working, completing }) :
    Exact (Pipeline.setStage { s with tracker := tracker } i item stage) := by
  have hcounted : ∀ id, counted (s.items.set i { item with stage := stage }) id =
      counted s.items id := by
    intro id
    have hset := counted_set hitem { item with stage := stage } id
    have htoken : Item.token { item with stage := stage } = item.token := by
      rw [Item.token, hlive]
      rfl
    rw [htoken, Nat.add_right_cancel_iff] at hset
    exact hset
  have hstarted : ∀ id, tracker.hasStarted id = s.tracker.hasStarted id := by
    intro id
    rw [Tracker.hasStarted_of_trace htrace]
    simpa using fun event hevent => by simp [hinserted event hevent]
  refine h.of_own (h.wellformed.setStage hitem stage hproducing (.inl hlive) hshape rfl rfl)
    item.corr ?_ (fun id _ => hcounted id) ?_ ?_ hordered
  · refine fun id hne => ⟨congrArg (AList.lookup id) hactive, hstarted id,
      (Tracker.hasFinished_of_trace htrace id).trans ?_⟩
    simpa using fun event hevent hid => absurd (hfinished event hevent id hid) hne
  · intro p id hne
    have hset := stageCount_set p hitem stage id
    rw [if_neg hne, if_neg hne] at hset
    exact hset
  · have hworking := stageCount_set Stage.working hitem stage item.corr
    have hcompleting := stageCount_set Stage.completing hitem stage item.corr
    rw [if_pos rfl, if_pos rfl] at hworking hcompleting
    have hstanding := hown _ _ hworking hcompleting
    simp only [Pipeline.execution, ← hactive, ← hstarted, ← hcounted] at hstanding
    exact hstanding

theorem proceed (h : Exact s) (hitem : s.items[i]? = some item) {stage : Stage}
    (hlive : item.stage.live = true) (hnext : stage.live = true)
    (hproducing : item.producing = false) (hshape : Item.Shape { item with stage := stage } 0) :
    Exact (s.setStage i item stage) := by
  obtain ⟨st, hrunning⟩ := h.running_of_working hitem (Stage.working_of_live hlive).1
  refine h.setStage hitem stage (hnext.trans hlive.symm) hproducing hshape s.tracker [] rfl
    (List.append_nil _).symm (by simp) (by simp) h.ordered ?_
  intro working completing hworking hcompleting
  rw [hrunning.completing, (Stage.working_of_live hlive).2, (Stage.working_of_live hnext).2]
    at hcompleting
  exact .running st ⟨hrunning.active, hrunning.started, hrunning.finished, hrunning.pending,
    hrunning.pos, hcompleting⟩

attribute [local simp] Item.producing Stage.live Token.counted Item.token ownCount

theorem receive (h : Exact s) (hitem : s.items[i]? = some item)
    (hstage : item.stage = .queued) : Exact (s.setStage i item .invoking) := by
  have hshape := h.wellformed.shape i item hitem
  unfold Item.Shape at hshape
  rw [hstage] at hshape
  exact h.proceed hitem (by rw [hstage]; rfl) rfl (by simp [hstage]) hshape

variable {ops : List Op} {key : Endpoint} {datagram : Datagram}

theorem handle (h : Exact s) (hitem : s.items[i]? = some item) (hstage : item.stage = .invoking)
    (hbalanced : balanced item.corr 0 ops = true) : Exact (s.setStage i item (.running ops)) := by
  have hshape := h.wellformed.shape i item hitem
  unfold Item.Shape at hshape
  rw [hstage] at hshape
  cases ops with
  | nil => contradiction
  | cons op ops =>
    exact h.proceed hitem (by rw [hstage]; rfl) rfl (by simp [hstage])
      ((Item.shape_running rfl).mpr (.inr ⟨hshape, hbalanced⟩))

theorem deliver (h : Exact s) (hitem : s.items[i]? = some item) (hlive : item.stage.live = true)
    (hcorr : datagram.correlationID = item.corr)
    (hwellformed : Wellformed (s.deliver i item key datagram ops))
    (hcounted : ∀ id, counted (s.deliver i item key datagram ops).items id = counted s.items id) :
    Exact (s.deliver i item key datagram ops) := by
  obtain ⟨st, hrunning⟩ := h.running_of_working hitem (Stage.working_of_live hlive).1
  have hstages : ∀ p id, stageCount p (s.deliver i item key datagram ops).items id =
      stageCount p (s.items.set i { item with stage := .running ops }) id +
        if item.corr = id then (p .queued).toNat else 0 := by
    intro p id
    rw [← hcorr]
    exact stageCount_concat ..
  refine h.of_own hwellformed item.corr (fun _ _ => ⟨rfl, rfl, rfl⟩) (fun id _ => hcounted id) ?_
    ?_ h.ordered
  · intro p id hne
    have hset := stageCount_set p hitem (.running ops) id
    simp only [hne, if_false] at hset
    simp [hstages, hset, hne]
  · have hset := stageCount_set Stage.completing hitem (.running ops) item.corr
    have hnone : stageCount Stage.completing s.items item.corr = 0 := hrunning.completing
    rw [if_pos rfl, if_pos rfl, (Stage.working_of_live hlive).2, hnone] at hset
    refine .running st ⟨hrunning.active, hrunning.started, hrunning.finished,
      hrunning.pending.trans (congrArg Nat.cast (hcounted item.corr).symm),
      hrunning.pos.trans_eq (hcounted item.corr).symm, ?_⟩
    exact (hstages Stage.completing item.corr).trans ((congrArg _ (if_pos rfl)).trans hset)

theorem deliver_seed (h : Exact s) (hitem : s.items[i]? = some item)
    (hstage : item.stage = .running [.deliver key item.datagram]) (htrigger : item.trigger = true)
    (hproducer : item.producer = none) : Exact (s.deliver i item key item.datagram []) := by
  have hlive : item.stage.live = true := by simp [hstage]
  refine h.deliver hitem hlive rfl ?_ ?_
  · have hspent : Wellformed (s.setStage i item (.running [])) := by
      refine h.wellformed.setStage hitem (.running []) ?_ (.inr ⟨hproducer, rfl⟩) trivial rfl rfl
      simp [hstage, htrigger]
    refine hspent.concat ?_ ?_ rfl rfl
    · simp [htrigger]
    · intro n
      rfl
  · intro id
    refine counted_deliver hitem ?_
    simp [Item.corr, hstage, htrigger, hproducer]

theorem deliver_output (h : Exact s) (hitem : s.items[i]? = some item)
    (hstage : item.stage = .running (.deliver key datagram :: ops))
    (htrigger : item.trigger = false) (hcorr : datagram.correlationID = item.corr)
    (hops : balanced item.corr (produced s.items i + 1) ops = true) (hne : ops ≠ []) :
    Exact (s.deliver i item key datagram ops) := by
  have hlive : item.stage.live = true := by simp [hstage]
  refine h.deliver hitem hlive hcorr
    (h.wellformed.deliver hitem htrigger hstage hcorr hops hne) ?_
  intro id
  obtain ⟨op, ops, rfl⟩ := List.exists_cons_of_ne_nil hne
  refine counted_deliver hitem ?_
  simp [Item.corr, hstage, htrigger]

theorem spent_of_counted_eq_zero (hwellformed : Wellformed s)
    (hzero : counted s.items item.corr = 0) (hmem : item ∈ s.items) : item.stage.live = false := by
  obtain ⟨k, hitem⟩ := List.mem_iff_getElem?.mp hmem
  exact hwellformed.traced.rooted.spent_of_tally_eq_zero hzero
    (getElem?_tokens.mpr ⟨item, hitem, rfl⟩) rfl

section Report

variable {call : EventCall} {done : Option ExecState} {t' : Tracker}

theorem stageCount_reported (p : Stage → Bool) (hitem : s.items[i]? = some item) (id : String) :
    stageCount p (s.reported i item call done t').items id +
        (if item.corr = id then (p item.stage).toNat else 0) =
      stageCount p s.items id +
        if item.corr = id then (p (.notifying call done [])).toNat else 0 := by
  rw [Pipeline.reported, stageCount_settle]
  exact stageCount_set p hitem _ id

/-- No counted datagram is left, so none is live: the others are gone. -/
theorem working_reported (hwellformed : Wellformed (s.reported i item call (some st) t'))
    (hzero : counted (s.reported i item call (some st) t').items item.corr = 0)
    (hquiet : ∀ other ∈ s.items, other.corr = item.corr → other.stage.reporting = false) :
    stageCount Stage.working (s.reported i item call (some st) t').items item.corr = 0 := by
  refine Nat.eq_zero_of_not_pos fun hpos => ?_
  obtain ⟨other, hother, hcorr, hworking⟩ := (stageCount_pos_iff _).mp hpos
  have hspent := spent_of_counted_eq_zero hwellformed (hcorr ▸ hzero) hother
  obtain ⟨old, hold, rfl⟩ := List.mem_map.mp hother
  rw [Item.stage_settle] at hworking hspent
  rw [Item.corr_settle] at hcorr
  rcases List.mem_or_eq_of_mem_set hold with hmem | rfl
  · rcases Stage.live_or_reporting hworking with hlive | hreporting
    · rw [hspent] at hlive
      contradiction
    · rw [hquiet old hmem hcorr] at hreporting
      contradiction
  · contradiction

theorem report (h : Exact s) (hitem : s.items[i]? = some item) (hlive : item.stage.live = true)
    (hproducer : item.producer = none) (hcall : call.id = item.corr)
    (houtputs : call.io.outputs.length = produced s.items i)
    (hquiet : ∀ t' st, s.tracker.nodeEventLocked call = some (t', some st) →
      ∀ other ∈ s.items, other.corr = item.corr → other.stage.reporting = false) :
    Exact (s.report i item call []) := by
  obtain ⟨hworking, hnot⟩ := Stage.working_of_live hlive
  obtain ⟨st, hrunning⟩ := h.running_of_working hitem hworking
  have hactive : s.tracker.active.lookup call.id = some st := hcall ▸ hrunning.active
  obtain ⟨t', done, after, hlocked, htrace, hlookup, hdone⟩ :=
    Tracker.nodeEventLocked_of_active hactive
  have hreport : s.report i item call [] = s.reported i item call done t' := by
    unfold Pipeline.report
    rw [hlocked]
    rfl
  have hwellformed : Wellformed (s.reported i item call done t') :=
    h.wellformed.report hitem hproducer hcall rfl rfl
  have hcounted : ∀ id, counted (s.reported i item call done t').items id +
      (if item.corr = id then 1 else 0) =
        counted s.items id + if item.corr = id then produced s.items i else 0 :=
    h.wellformed.traced.counted_report hitem hlive hproducer rfl
  have hstarted : ∀ id, t'.hasStarted id = s.tracker.hasStarted id := by
    intro id
    rw [Tracker.hasStarted_of_trace htrace]
    simp [Event.insertedID]
  have hfinished : ∀ id, t'.hasFinished id = s.tracker.hasFinished id := by
    intro id
    rw [Tracker.hasFinished_of_trace htrace]
    simp [Event.finishedID]
  have hstages := fun p => @stageCount_reported s i item call done t' p hitem
  rw [hreport]
  refine h.of_own hwellformed item.corr ?_ ?_ ?_ ?_ ?_
  · intro id hne
    exact ⟨(hlookup id).trans (if_neg fun heq => hne (heq.trans hcall).symm), hstarted id,
      hfinished id⟩
  · intro id hne
    simpa [hne] using hcounted id
  · intro p id hne
    simpa [hne] using hstages p id
  · have hcount := hcounted item.corr
    rw [if_pos rfl, if_pos rfl] at hcount
    have hpending : (Tracker.nextState st call).pending =
        counted (s.reported i item call done t').items item.corr := by
      have hbefore : st.pending = counted s.items item.corr := hrunning.pending
      rw [Tracker.nextState_pending]
      omega
    have hafter : t'.active.lookup item.corr = after := (hlookup _).trans (if_pos hcall.symm)
    have hnone : stageCount Stage.completing s.items item.corr = 0 := hrunning.completing
    have hcompleting := hstages Stage.completing item.corr
    rw [if_pos rfl, if_pos rfl, hnot, hnone] at hcompleting
    have hstarted' := (hstarted item.corr).trans hrunning.started
    have hfinished' := (hfinished item.corr).trans hrunning.finished
    rcases hdone with ⟨hnext, rfl, rfl⟩ | ⟨hnext, rfl, rfl⟩
    · exact .ending hafter hstarted' hfinished'
        (working_reported hwellformed (by omega) (hquiet t' _ hlocked)) hcompleting
    · refine .running _ ⟨hafter, hstarted', hfinished', hpending, ?_, hcompleting⟩
      change 0 < counted (s.reported i item call none t').items item.corr
      omega
  · change Ordered t'.trace
    rw [htrace]
    exact h.ordered.concat_of_none rfl

end Report

theorem notify (h : Exact s) (hitem : s.items[i]? = some item) {call : EventCall}
    {done : Option ExecState} (hstage : item.stage = .notifying call done [])
    (hcall : call.id = item.corr) : Exact (s.notify i item call done []) := by
  have hproducing : item.producing = false := by simp [hstage]
  set event : Event := .nodeEvent call.flowID call.id call.io with hevent
  have hfinished : (s.tracker.record event).hasFinished item.corr =
      s.tracker.hasFinished item.corr := by
    rw [Tracker.hasFinished_of_trace rfl]
    simp [Event.finishedID]
  have hordered : s.tracker.hasFinished item.corr = false →
      Ordered (s.tracker.record event).trace := by
    intro hnot
    refine h.ordered.concat ?_
    intro id hid
    rw [← Option.some.inj hid, hcall]
    exact hnot
  cases done with
  | none =>
    obtain ⟨st, hrunning⟩ := h.running_of_working hitem (by rw [hstage]; rfl)
    refine h.setStage hitem (.running []) (by rw [hstage]; rfl) hproducing trivial _ [event] rfl
      rfl (by simp [Event.insertedID]) (by simp [Event.finishedID])
      (hordered hrunning.finished) ?_
    intro working completing hworking hcompleting
    rw [hstage, hrunning.completing] at hcompleting
    rw [hfinished]
    exact .running st ⟨hrunning.active, hrunning.started, hrunning.finished, hrunning.pending,
      hrunning.pos, hcompleting⟩
  | some st =>
    obtain ⟨hactive, hbegun, hrunning, hidle, hone⟩ :=
      (h.standing item.corr).ending_of_completing
        ((stageCount_pos_iff _).mpr ⟨item, List.mem_of_getElem? hitem, rfl, by rw [hstage]; rfl⟩)
    refine h.setStage hitem (.finishing (call.completion st) []) (by rw [hstage]; rfl)
      hproducing ⟨hcall, rfl⟩ _ [event] rfl rfl (by simp [Event.insertedID])
      (by simp [Event.finishedID]) (hordered hrunning) ?_
    intro working completing hworking hcompleting
    rw [hstage, hone] at hcompleting
    rw [hstage, hidle] at hworking
    rw [hfinished]
    exact .ending hactive hbegun hrunning hworking (Nat.add_right_cancel hcompleting)

theorem finish (h : Exact s) (hitem : s.items[i]? = some item) {c : Completion}
    (hstage : item.stage = .finishing c []) (hc : c.id = item.corr) (now : Time) :
    Exact (s.finish i item c [] now) := by
  obtain ⟨hactive, hstarted, -, hidle, hone⟩ := (h.standing item.corr).ending_of_completing
    ((stageCount_pos_iff _).mpr ⟨item, List.mem_of_getElem? hitem, rfl, by rw [hstage]; rfl⟩)
  have hproducing : item.producing = false := by simp [hstage]
  refine h.setStage hitem (.running []) (by rw [hstage]; rfl) hproducing trivial _ [_] rfl rfl
    (by simp [Event.insertedID]) (by simp [Event.finishedID, hc]) (h.ordered.concat_of_none rfl) ?_
  intro working completing hworking hcompleting
  rw [hstage, hone] at hcompleting
  rw [hstage, hidle] at hworking
  refine .ended hactive hstarted ?_ hworking (Nat.add_right_cancel hcompleting)
  rw [Tracker.hasFinished_of_trace rfl]
  simp [Event.finishedID, hc]

theorem emit (h : Exact s) {wires : List Wire} {call : StartCall} {port : String}
    (htargets : (outputTargets wires ⟨call.triggerNodeID, port⟩).length = 1)
    (hemit : s.emit wires call port now = some s') : Exact s' := by
  obtain ⟨key, hkey⟩ := List.length_eq_one_iff.mp htargets
  unfold Pipeline.emit at hemit
  rw [hkey] at hemit
  split at hemit
  case isTrue => contradiction
  case isFalse hstarted =>
    cases hemit
    set new : Item := ⟨⟨call.triggerNodeID, port⟩, call.seed, none, true,
      .running [.deliver key call.seed]⟩ with hnew
    set tracker := (s.tracker.startLocked call).record (.started call.flowID call.id
      call.triggerNodeID call.triggerKind call.reRunOf now call.seed) with htracker
    have htrace : tracker.trace = s.tracker.trace ++ [.inserted call.id, .started call.flowID
        call.id call.triggerNodeID call.triggerKind call.reRunOf now call.seed] :=
      List.append_assoc ..
    have hfinished : ∀ id, tracker.hasFinished id = s.tracker.hasFinished id := by
      intro id
      rw [Tracker.hasFinished_of_trace htrace]
      simp [Event.finishedID]
    have hcounted := counted_concat s.items new
    have hshape : ∀ n, new.Shape n := fun n =>
      (Item.shape_running rfl).mpr (.inl ⟨rfl, rfl, ⟨key, rfl⟩, rfl⟩)
    refine h.of_own (h.wellformed.concat rfl hshape rfl rfl) call.id ?_ ?_ ?_ ?_ ?_
    · intro id hne
      refine ⟨AList.lookup_insert_ne (Ne.symm hne), ?_, hfinished id⟩
      refine (Tracker.hasStarted_of_trace htrace id).trans ?_
      simp [Event.insertedID, hne]
    · intro id hne
      refine (hcounted id).trans ?_
      rw [ownCount_counted_of_ne (show new.corr ≠ id from hne)]
      rfl
    · intro p id hne
      refine (stageCount_concat p s.items new id).trans ?_
      rw [if_neg (show new.corr ≠ id from hne)]
      rfl
    · cases h.standing call.id with
      | fresh _ _ hnot hzero _ hnone =>
        have hzero : counted s.items call.id = 0 := hzero
        have hzero' : stageCount Stage.completing s.items call.id = 0 := hnone
        have hone : counted (s.items ++ [new]) call.id = 1 := by
          rw [hcounted, hzero]
          simp [Item.corr, StartCall.id, hnew]
        refine .running ⟨1, false, ""⟩ ⟨AList.lookup_insert _, ?_, (hfinished _).trans hnot, ?_, ?_,
          ?_⟩
        · exact (Tracker.hasStarted_of_trace htrace _).trans (by simp [Event.insertedID])
        · exact (congrArg Nat.cast hone).symm
        · exact Nat.one_pos.trans_eq hone.symm
        · exact (stageCount_concat _ s.items new _).trans (by simp [hzero', Stage.completing])
      | running st hrunning => exact absurd hrunning.started hstarted
      | ending _ hbegun | ended _ hbegun => exact absurd hbegun hstarted
    · have hordered : Ordered (s.tracker.startLocked call).trace := h.ordered.concat_of_none rfl
      exact hordered.concat_of_none rfl

end Exact

/-! ## Every regular step -/

variable {s : Pipeline} {wires : List Wire} {item : Item} {i : Nat}

theorem regular_report (hregular : regular wires s (.advance i now) = true)
    (hitem : s.items[i]? = some item) {ops : List Op}
    (hstage : item.stage = .running (.report call :: ops)) : item.producer = none ∧
      ∀ t' st, s.tracker.nodeEventLocked call = some (t', some st) →
        ∀ other ∈ s.items, other.corr = item.corr → other.stage.reporting = false := by
  obtain ⟨key, datagram, producer, trigger, stage⟩ := item
  subst hstage
  simp only [regular, hitem, Bool.and_eq_true, decide_eq_true_eq] at hregular
  refine ⟨hregular.1, ?_⟩
  intro t' st hlocked other hother hcorr
  have hquiet := hregular.2
  rw [hlocked] at hquiet
  have hnot := List.all_eq_true.mp hquiet other hother
  have hsame : other.corr = datagram.correlationID := hcorr
  have hnotifying : other.notifying = false := by simpa [hsame] using hnot
  exact hnotifying

theorem exact_advance (h : Exact s) (hregular : regular wires s (.advance i now) = true)
    (hitem : s.items[i]? = some item) (hstep : s.advanceItem i item now = some s') : Exact s' := by
  have hshape := h.wellformed.shape i item hitem
  revert hstep
  fun_cases s.advanceItem i item now <;> rintro ⟨⟩
  next key datagram ops hstage =>
    rcases (Item.shape_running hstage).mp hshape with
      ⟨htrigger, hproducer, ⟨key, hop⟩, rfl⟩ | ⟨htrigger, hbalanced⟩
    · cases hop
      exact h.deliver_seed hitem hstage htrigger hproducer
    · rcases balanced_cons hbalanced with ⟨_, _, hop, hcorr, hops, hne⟩ | ⟨_, hop, _⟩
      · cases hop
        exact h.deliver_output hitem hstage htrigger hcorr hops hne
      · contradiction
  next call ops hstage =>
    obtain ⟨hproducer, hquiet⟩ := regular_report hregular hitem hstage
    rcases (Item.shape_running hstage).mp hshape with
      ⟨_, _, ⟨_, hop⟩, _⟩ | ⟨htrigger, hbalanced⟩
    · contradiction
    · rcases balanced_cons hbalanced with ⟨_, _, hop, _⟩ | ⟨_, hop, rfl, hcall, houtputs⟩
      · contradiction
      · cases hop
        exact h.report hitem (by rw [hstage]; rfl) hproducer hcall houtputs hquiet
  next ops hstage =>
    rcases (Item.shape_running hstage).mp hshape with
      ⟨_, _, ⟨_, hop⟩, _⟩ | ⟨_, hbalanced⟩
    · contradiction
    · rcases balanced_cons hbalanced with ⟨_, _, hop, _⟩ | ⟨_, hop, _⟩
      · contradiction
      · contradiction
  next call done ops hstage =>
    unfold Item.Shape at hshape
    rw [hstage] at hshape
    obtain ⟨hcall, rfl⟩ := hshape
    exact h.notify hitem hstage hcall
  next c ops hstage =>
    unfold Item.Shape at hshape
    rw [hstage] at hshape
    obtain ⟨hc, rfl⟩ := hshape
    exact h.finish hitem hstage hc now

theorem exact_step {action : PipelineAction} (h : Exact s)
    (hregular : regular wires s action = true) (hstep : s.step wires action = some s') :
    Exact s' := by
  revert hstep
  fun_cases s.step wires action
  case case1 call port now => exact h.emit (of_decide_eq_true hregular)
  case case3 index item hitem hstage =>
    rintro ⟨⟩
    exact h.receive hitem hstage
  case case7 index runner world item hitem hstage ops hops =>
    rintro ⟨⟩
    simp only [regular, hitem, hops] at hregular
    exact h.handle hitem hstage hregular
  case case10 index now item hitem => exact exact_advance h hregular hitem
  case case13 hparked _ _ => simp [h.wellformed.parked] at hparked
  all_goals exact nofun

theorem Exact.settled_iff (h : Exact s) (id : String) :
    s.Settled id ↔ (s.execution id).working = 0 ∧ (s.execution id).completing = 0 := by
  have hnone : ∀ p : Stage → Bool, stageCount p s.items id = 0 ↔
      ∀ item ∈ s.items, item.corr = id → p item.stage = false := by
    intro p
    have hpos : 0 < stageCount p s.items id ↔ _ := stageCount_pos_iff p
    simpa using not_congr hpos
  have hgone : ∀ item : Item, item.gone = item.stage.gone := fun _ => rfl
  simp only [Pipeline.Settled, h.wellformed.parked, Pipeline.execution, hnone, hgone,
    Stage.gone_iff, forall_and, List.not_mem_nil, false_implies, implies_true, and_true]

theorem Exact.completesExactly (h : Exact s) : CompletesExactly s := by
  refine ⟨?_, h.ordered⟩
  intro id hstarted
  rw [h.settled_iff]
  cases h.standing id with
  | fresh _ hnot => exact absurd hstarted (Bool.eq_false_iff.mp hnot)
  | running st hrunning =>
    -- a counted datagram is still there
    obtain ⟨t, ht, hcounted⟩ := tally_pos_iff.mp hrunning.pos
    obtain ⟨item, hmem, rfl⟩ := List.mem_map.mp ht
    unfold Token.counted at hcounted
    split at hcounted
    case isTrue hlive =>
      have hpos : 0 < (s.execution id).working := (stageCount_pos_iff _).mpr
        ⟨item, hmem, Option.some.inj hcounted, (Stage.working_of_live hlive.1).1⟩
      exact iff_of_false (Bool.eq_false_iff.mp hrunning.finished) (by omega)
    case isFalse => contradiction
  | ending _ _ hfinished _ hcompleting =>
    refine iff_of_false (Bool.eq_false_iff.mp hfinished) ?_
    omega
  | ended _ _ hfinished hworking hcompleting => exact iff_of_true hfinished ⟨hworking, hcompleting⟩

/-- Every run of regular steps completes its executions exactly. -/
theorem completion_exact (wires : List Wire) (actions : List PipelineAction) (s : Pipeline)
    (hmeets : Meets (Pipeline.step wires) (fun s action => regular wires s action = true)
      .start actions)
    (hrun : run (Pipeline.step wires) .start actions = some s) :
    CompletesExactly s := by
  have hexact : Exact s := run_invariant_of_meets exact_step exact_start hmeets hrun
  exact hexact.completesExactly

/-! ## A chain and a fork -/

def nodeNamed (id : String) : NodeRunner where
  id := id
  flowID := "flow"
  errorPolicy := none
  outputs := ["out"]

def answering (results : List PortDatagram) : World where
  received := 0
  started _ := 0
  durationUs _ := 0
  invoke _ := .ok results
  cancelled _ := false
  send _ := .ok ()
  sfQueue := none
  marshal _ _ := none
  enqueuedAt := 0
  diskAnswer := .ok
  errorFlowTarget := none
  newID := "n"
  encode _ := .null

def firing : StartCall where
  flowID := "flow"
  triggerNodeID := "t"
  triggerKind := "webhook"
  reRunOf := ""
  seed := .new "x" 0 {} {}

def chainWires : List Wire :=
  [⟨"w1", ⟨"t", "out"⟩, ⟨"a", "in"⟩⟩, ⟨"w2", ⟨"a", "out"⟩, ⟨"b", "in"⟩⟩]

def forkWires : List Wire := chainWires ++ [⟨"w3", ⟨"a", "out"⟩, ⟨"c", "in"⟩⟩]

/-- The node `a` hands its input on to what it is wired to and reports. -/
def passedOn (deliveries : Nat) : List PipelineAction :=
  [PipelineAction.emit firing "out" 0, .advance 0 0, .receive 1,
    .handle 1 (nodeNamed "a") (answering [⟨"out", firing.seed⟩])] ++
  List.replicate deliveries (PipelineAction.advance 1 0) ++
  [PipelineAction.advance 1 0, .advance 1 0]

def consumed : List PipelineAction :=
  [.receive 2, .handle 2 (nodeNamed "b") (answering []), .advance 2 0, .advance 2 0, .advance 2 0]

theorem completion_exact_chain :
    ∃ s, run (Pipeline.step chainWires) .start (passedOn 1 ++ consumed) = some s ∧
      s.tracker.hasFinished "x" = true ∧ CompletesExactly s :=
  exists_run_and (by decide +kernel) fun hmeets s hrun => completion_exact _ _ s hmeets hrun

/-- The execution is reported finished while a datagram waits in the inbox of `c`. -/
theorem fork_finishes_early :
    ∃ s, run (Pipeline.step forkWires) .start (passedOn 2 ++ consumed) = some s ∧
      s.tracker.hasFinished "x" = true ∧
      (∃ item ∈ s.items, item.key = ⟨"c", "in"⟩ ∧ item.corr = "x" ∧ item.gone = false) ∧
      ¬ CompletesExactly s := by
  refine exists_some_imp (fun s => s.tracker.hasStarted "x" ∧ s.tracker.hasFinished "x" ∧
    ∃ item ∈ s.items, item.key = ⟨"c", "in"⟩ ∧ item.corr = "x" ∧ item.gone = false)
    (by decide +kernel) ?_
  rintro s - ⟨hstarted, hfinished, item, hitem, hkey, hcorr, hgone⟩
  refine ⟨hfinished, ⟨item, hitem, hkey, hcorr, hgone⟩, fun hexact => ?_⟩
  have hsettled := (hexact.finished_iff "x" hstarted).mp hfinished
  rw [hsettled.1 item hitem hcorr] at hgone
  contradiction

end DataPipe.Flow
