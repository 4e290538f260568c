import DataPipe.ControlPlane.Versions

/-!
# Checked content

`deployFlow` and `rollbackFlow` parse and validate one content, and
`CreateDeployedVersion` reads the draft again before it stores it.  As long as every
second read finds the content that was checked, what is stored and what is pushed are that
content; a draft that is written in between is stored unchecked.
-/

namespace DataPipe.ControlPlane

open DataPipe.Foundation DataPipe.Flow

variable {floats : Float64Text} {h : Handlers floats} {s s' : Shared}
  {request next : Request floats}

def DraftUnchanged (s : Shared) : Request floats → Prop
  | .readDraft job _ => ∀ row ∈ s.tables.flow job.flow.id, row.draftContent = job.content
  | _ => True

instance (s : Shared) (request : Request floats) : Decidable (DraftUnchanged s request) := by
  cases request <;> unfold DraftUnchanged <;> infer_instance

def Job.Checked (h : Handlers floats) (job : Job floats) : Prop :=
  h.check job.content = some job.file

def Request.Checked (h : Handlers floats) (s : Shared) : Request floats → Prop
  | .selectProfile job _ | .resolveEnv job | .readDraft job _ => job.Checked h
  | .commit job _ draft _ => job.Checked h ∧ draft.draftContent = job.content
  | .readProject job _ stored _ | .push job _ _ stored _ | .deployed job stored _ =>
    job.Checked h ∧ stored.content = job.content ∧
      s.tables.version job.flow.id stored.version = some stored
  | _ => True

/-- Every version is valid, and every call pushes the canonical text of its version. -/
structure Recorded (h : Handlers floats) (s : Shared) : Prop where
  valid : ∀ stored ∈ s.tables.versions, ∃ file, h.check stored.content = some file
  pushed : ∀ call ∈ s.calls, ∃ stored file,
    s.tables.version call.flowID call.version = some stored ∧
      h.check stored.content = some file ∧ call.flowJSON = file.marshalCanonical ∧
      call.targetGroup = targetGroup file

theorem Moves.checked_self (hmove : Moves h s request s' next)
    (hunchanged : DraftUnchanged s request) (hrequest : request.Checked h s) :
    next.Checked h s' := by
  cases hmove with
  | checked hflow hfile hnext => obtain rfl | ⟨profileID, rfl⟩ := hnext <;> exact hfile
  | selected | resolved | projectRead | pushed => exact hrequest
  | restored hfile => exact hfile
  | reread hflow => exact ⟨hrequest, hunchanged _ hflow⟩
  | committed hstored hcommit =>
    subst hstored
    exact ⟨hrequest.1, hrequest.2, Tables.version_commitVersion hcommit⟩
  | _ => trivial

theorem Request.Checked.kept {other : Request floats} (hother : other.Checked h s)
    (hmove : Moves h s request s' next) : other.Checked h s' := by
  have hversion : ∀ {id : String} {k : Nat} {row : VersionRow},
      s.tables.version id k = some row → s'.tables.version id k = some row :=
    fun hrow => Tables.version_of_append hmove.versions_grow hrow
  cases other with
  | readProject | push | deployed => exact ⟨hother.1, hother.2.1, hversion hother.2.2⟩
  | _ => exact hother

theorem Recorded.kept (hrecorded : Recorded h s) (hmove : Moves h s request s' next)
    (hrequest : request.Checked h s) : Recorded h s' := by
  have hcalls : ∀ call ∈ s.calls, ∃ stored file,
      s'.tables.version call.flowID call.version = some stored ∧
        h.check stored.content = some file ∧ call.flowJSON = file.marshalCanonical ∧
        call.targetGroup = targetGroup file := by
    intro call hcall
    obtain ⟨stored, file, hstored, hfile⟩ := hrecorded.pushed call hcall
    exact ⟨stored, file, Tables.version_of_append hmove.versions_grow hstored, hfile⟩
  cases hmove with
  | created hinsert =>
    obtain ⟨-, rfl⟩ := Tables.insertFlow_eq_some.mp hinsert
    exact ⟨hrecorded.valid, hcalls⟩
  | @committed job _ _ _ _ _ _ hstored hcommit =>
    refine ⟨?_, hcalls⟩
    obtain ⟨-, rfl⟩ := Tables.commitVersion_eq_some.mp hcommit
    obtain ⟨hchecked, hcontent⟩ := hrequest
    have hsame : _ = job.content := (congrArg VersionRow.content hstored).trans hcontent
    exact forall_mem_concat hrecorded.valid ⟨_, (congrArg h.check hsame).trans hchecked⟩
  | pushed =>
    refine ⟨hrecorded.valid, forall_mem_concat hcalls ?_⟩
    obtain ⟨hchecked, hcontent, hstored⟩ := hrequest
    exact ⟨_, _, hstored, (congrArg h.check hcontent).trans hchecked, rfl, rfl⟩
  | _ => exact ⟨hrecorded.valid, hcalls⟩

theorem Request.Checked.of_created {job : Job floats} {stored : VersionRow} {alone : Bool}
    (hrequest : request.Checked h s) (hcreated : request.created = some (job, stored, alone)) :
    job.Checked h ∧ stored.content = job.content ∧
      s.tables.version job.flow.id stored.version = some stored := by
  cases request with
  | readProject | push | deployed => cases hcreated; exact hrequest
  | _ => cases hcreated

theorem keeps_recorded (h : Handlers floats) :
    Keeps (Moves h) DraftUnchanged (Recorded h) (fun s request => request.Checked h s) where
  shared hmove _ hrecorded hown := hrecorded.kept hmove hown
  self hmove hunchanged _ hown := hmove.checked_self hunchanged hown
  other hmove _ _ _ hother := hother.kept hmove

namespace Service

variable {s₀ s : Service floats} {actions : List (ServiceAction floats)}

theorem step_recorded {s' : Service floats} {a : ServiceAction floats}
    (hinv : Recorded h s.shared ∧ ∀ request ∈ s.requests, request.Checked h s.shared)
    (hok : s.Meeting DraftUnchanged a) (hstep : s.step h a = some s') :
    Recorded h s'.shared ∧ ∀ request ∈ s'.requests, request.Checked h s'.shared := by
  refine step_keeps (keeps_recorded h) ?_ hinv hok hstep
  intro shared request hnew
  cases request <;> trivial

theorem Fresh.recorded (hfresh : s.Fresh) : Recorded h s.shared where
  valid := by
    rw [hfresh.versions]
    exact List.forall_mem_nil _
  pushed := by
    rw [hfresh.calls]
    exact List.forall_mem_nil _

theorem run_recorded (hfresh : s₀.Fresh)
    (hmeets : Meets (step h) (Meeting DraftUnchanged) s₀ actions)
    (hrun : run (step h) s₀ actions = some s) :
    Recorded h s.shared ∧ ∀ request ∈ s.requests, request.Checked h s.shared := by
  exact @run_invariant_of_meets _ _ _ (fun s : Service floats => Recorded h s.shared ∧
    ∀ request ∈ s.requests, request.Checked h s.shared) _ step_recorded _ _ _
    ⟨hfresh.recorded, hfresh.forall_requests⟩ hmeets hrun

end Service

/--
In a run in which every second read finds the content that was checked, every version that
a request has created holds the content that the request has parsed and validated, every
call of `DeployFlow` pushes the canonical text of the version it names, and no version is
stored that does not pass `Validate`.
-/
theorem stored_is_checked (h : Handlers floats) {s₀ s : Service floats}
    {actions : List (ServiceAction floats)} (hfresh : s₀.Fresh)
    (hmeets : Meets (Service.step h) (Service.Meeting DraftUnchanged) s₀ actions)
    (hrun : run (Service.step h) s₀ actions = some s) :
    (∀ request ∈ s.requests, ∀ job stored alone, request.created = some (job, stored, alone) →
      s.shared.tables.version job.flow.id stored.version = some stored ∧
        stored.content = job.content ∧ Format.parse floats job.content = some job.file ∧
        h.registry.validate job.file.view = []) ∧
    (∀ call ∈ s.shared.calls, ∃ stored file,
      s.shared.tables.version call.flowID call.version = some stored ∧
        Format.parse floats stored.content = some file ∧
        call.flowJSON = file.marshalCanonical) ∧
    (∀ stored ∈ s.shared.tables.versions, ∃ file,
      Format.parse floats stored.content = some file ∧
        h.registry.validate file.view = []) := by
  obtain ⟨hrecorded, hrequests⟩ := Service.run_recorded hfresh hmeets hrun
  refine ⟨?_, ?_, ?_⟩
  · intro request hrequest job stored alone hcreated
    obtain ⟨hchecked, hcontent, hstored⟩ := (hrequests request hrequest).of_created hcreated
    exact ⟨hstored, hcontent, Handlers.check_eq_some.mp hchecked⟩
  · intro call hcall
    obtain ⟨stored, file, hstored, hfile, htext, -⟩ := hrecorded.pushed call hcall
    exact ⟨stored, file, hstored, (Handlers.check_eq_some.mp hfile).1, htext⟩
  · intro stored hstored
    obtain ⟨file, hfile⟩ := hrecorded.valid stored hstored
    exact ⟨file, Handlers.check_eq_some.mp hfile⟩

theorem stored_is_checked_of_rollback :
    ∃ s, run (Service.step smallHandlers) freshService rollbackActions = some s ∧
      s.shared.tables.versions.length = 3 ∧
      ∀ stored ∈ s.shared.tables.versions, ∃ file,
        Format.parse Format.exactFloats stored.content = some file ∧
          smallRegistry.validate file.view = [] :=
  exists_run_and (by decide +kernel) fun hmeets _ hrun =>
    (stored_is_checked smallHandlers freshService_fresh hmeets hrun).2.2

def overwriteActions : List (ServiceAction Format.exactFloats) :=
  [ServiceAction.arrive (.createFlow "f" "p" "flow" (injectContent "a"))] ++ steps 0 1 ++
    [ServiceAction.arrive (.deployFlow "f" "ann" "" none)] ++ steps 1 2 ++
    [ServiceAction.arrive (.updateFlow "f" none (some "[]".toList))] ++ steps 2 3 ++ steps 1 4

theorem unchecked_draft_deployed :
    ∃ s job stored alone row call,
      run (Service.step smallHandlers) freshService overwriteActions = some s ∧
      .deployed job stored alone ∈ s.requests ∧
      s.shared.tables.flow "f" = some row ∧ row.deployedVersion = some stored.version ∧
      s.shared.tables.version "f" stored.version = some stored ∧
      Format.parse Format.exactFloats stored.content = none ∧
      call ∈ s.shared.calls ∧ call.version = stored.version ∧
      call.flowJSON = job.file.marshalCanonical := by
  have hany : (run (Service.step smallHandlers) freshService overwriteActions).any (fun s =>
      s.requests.any fun request =>
        match request with
        | .deployed job stored _ =>
          decide (s.shared.tables.version "f" stored.version = some stored) &&
          decide (Format.parse Format.exactFloats stored.content).isNone &&
          (s.shared.tables.flow "f").any fun row =>
            decide (row.deployedVersion = some stored.version) &&
            s.shared.calls.any fun call =>
              decide (call.version = stored.version ∧ call.flowJSON = job.file.marshalCanonical)
        | _ => false) = true := by
    decide +kernel
  obtain ⟨s, hrun, hany⟩ := (Option.any_eq_true _ _).mp hany
  obtain ⟨request, hrequest, htest⟩ := List.any_eq_true.mp hany
  split at htest
  next job stored alone =>
    simp only [Bool.and_eq_true, decide_eq_true_eq, Option.isNone_iff_eq_none,
      Option.any_eq_true, List.any_eq_true] at htest
    obtain ⟨⟨hstored, hparse⟩, row, hrow, hdeployed, call, hcall, hversion, htext⟩ := htest
    exact ⟨s, job, stored, alone, row, call, hrun, hrequest, hrow, hdeployed, hstored, hparse,
      hcall, hversion, htext⟩
  · cases htest

end DataPipe.ControlPlane
