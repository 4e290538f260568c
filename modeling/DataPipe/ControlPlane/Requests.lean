import DataPipe.ControlPlane.FlowStore
import DataPipe.Flow.Repush
import DataPipe.Foundation.Threads

/-!
# Requests on flows

The handlers `createFlow`, `updateFlow`, `deployFlow` and `rollbackFlow` of
`controlplane/internal/api/flows.go` as threads over the tables.  Every statement of a
handler is a step of its own, the transaction of `CreateDeployedVersion` is one step, and
the steps of any number of requests interleave.  A step may find the database failing.
The calls of `DeployFlow` are collected; what becomes of them is the registry's part.
-/

namespace DataPipe.ControlPlane

open DataPipe.Foundation DataPipe.Flow

/-- What the handlers use from outside: the node types, `time.Parse` and `fmt.Sprint`. -/
structure Handlers (floats : Float64Text) where
  registry : Registry
  validTime : String → Bool
  sprint : GoValue floats → String

structure DeployFlowCall where
  flowID : String
  version : Nat
  flowJSON : List Char
  defaultErrorFlow : String
  targetGroup : String
  logLevel : String
  resolvedEnv : KeyMap String

/--
What a deploy or rollback request holds once it has parsed and validated a content.  A
rollback has a target version; `mark` counts the draft writes up to its own.
-/
structure Job (floats : Float64Text) where
  flow : FlowRow
  content : List Char
  file : Format.FlowFile floats
  author : String
  comment : String
  target : Option Nat := none
  mark : Nat := 0

inductive Request (floats : Float64Text) where
  | createFlow (id projectID name : String) (content : List Char)
  | updateFlow (id : String) (name : Option String) (content : Option (List Char))
  | readForUpdate (id : String) (name : Option String) (content : Option (List Char))
  | writeDraft (row : FlowRow)
  | deployFlow (id author comment : String) (profileID : Option String)
  | selectProfile (job : Job floats) (profileID : String)
  | rollbackFlow (id author : String) (version : Nat)
  | readVersion (f : FlowRow) (author : String) (version : Nat)
  | readForRestore (f : FlowRow) (author : String) (old : VersionRow)
  | restoreDraft (f : FlowRow) (author : String) (old : VersionRow) (row : FlowRow)
  | resolveEnv (job : Job floats)
  | readDraft (job : Job floats) (env : KeyMap String)
  | commit (job : Job floats) (env : KeyMap String) (draft : FlowRow) (alone : Bool)
  | readProject (job : Job floats) (env : KeyMap String) (stored : VersionRow) (alone : Bool)
  | push (job : Job floats) (env : KeyMap String) (defaultErrorFlow : String)
      (stored : VersionRow) (alone : Bool)
  | deployed (job : Job floats) (stored : VersionRow) (alone : Bool)
  | done
  | failed (status : Nat)

def Request.isNew {floats : Float64Text} : Request floats → Bool
  | .createFlow .. | .updateFlow .. | .deployFlow .. | .rollbackFlow .. => true
  | _ => false

/-- The tables, the flows whose drafts were written, and the calls of `DeployFlow`. -/
structure Shared where
  tables : Tables := {}
  writes : List String := []
  calls : List DeployFlowCall := []

/-- The last statement of `UpdateFlowDraft`. -/
def Shared.writeDraft (s : Shared) (row : FlowRow) : Shared :=
  { s with
    tables := s.tables.updateDraft row.id row.name row.draftContent row.updatedAt
    writes := s.writes ++ [row.id] }

def StoreError.status : StoreError → Nat
  | .noRows _ => 404
  | .failed _ => 500

namespace Handlers

variable {floats : Float64Text} (h : Handlers floats)

def getFlow (ok : Bool) (t : Tables) (id : String) : Except StoreError FlowRow :=
  FlowStore.scanFlow h.validTime (if ok then some (t.flow id) else none)

def getFlowVersion (ok : Bool) (t : Tables) (id : String) (version : Nat) :
    Except StoreError VersionRow :=
  FlowStore.scanFlowVersion h.validTime (if ok then some (t.version id version) else none)

/-- `Parse` and `Validate`. -/
def check (content : List Char) : Option (Format.FlowFile floats) :=
  (Format.parse floats content).filter fun file => (h.registry.validate file.view).isEmpty

def activeProfile (t : Tables) (f : FlowRow) : Option (Option EnvironmentProfile) :=
  match f.activeProfileID with
  | none => some none
  | some profileID =>
    if profileID = "" then some none
    else
      match t.profile profileID with
      | none => some none
      | some row => row.scan.map some

def resolveEnvForDeploy (t : Tables) (f : FlowRow) (file : Format.FlowFile floats) :
    Option (KeyMap String) :=
  (activeProfile t f).bind fun profile =>
    let resolved := ControlPlane.resolveEnv h.sprint file profile
    if resolved.2.isEmpty then some resolved.1 else none

def deployFlowCall (job : Job floats) (env : KeyMap String) (defaultErrorFlow : String)
    (version : Nat) : DeployFlowCall where
  flowID := job.flow.id
  version
  flowJSON := job.file.marshalCanonical
  defaultErrorFlow
  targetGroup := targetGroup job.file
  logLevel := job.flow.logLevel
  resolvedEnv := env

/-- The next statement of a request at the time `now`. -/
def advance (now : String) (ok : Bool) (s : Shared) :
    Request floats → Option (Shared × Request floats)
  | .createFlow id projectID name content =>
    if name = "" ∨ content = [] then some (s, .failed 400)
    else
      let row : FlowRow :=
        { id, projectID, name, draftContent := content, createdAt := now, updatedAt := now }
      match if ok then s.tables.insertFlow row else none with
      | none => some (s, .failed 500)
      | some tables => some ({ s with tables }, .done)
  | .updateFlow id name content =>
    match h.getFlow ok s.tables id with
    | .error e => some (s, .failed e.status)
    | .ok f => some (s, .readForUpdate f.id name content)
  | .readForUpdate id name content =>
    match h.getFlow ok s.tables id with
    | .error _ => some (s, .failed 500)
    | .ok f => some (s, .writeDraft (FlowStore.drafted f name content now))
  | .writeDraft row =>
    if ok then some (s.writeDraft row, .done) else some (s, .failed 500)
  | .deployFlow id author comment profileID =>
    match h.getFlow ok s.tables id with
    | .error e => some (s, .failed e.status)
    | .ok f =>
      match h.check f.draftContent with
      | none => some (s, .failed 400)
      | some file =>
        let job : Job floats :=
          { flow := f, content := f.draftContent, file, author, comment }
        match profileID with
        | none => some (s, .resolveEnv job)
        | some profileID => some (s, .selectProfile job profileID)
  | .selectProfile job profileID =>
    if ok then
      some ({ s with
        tables := s.tables.setActiveProfile job.flow.id (FlowStore.nullableString profileID) },
        .resolveEnv { job with flow := { job.flow with activeProfileID := some profileID } })
    else some (s, .failed 500)
  | .rollbackFlow id author version =>
    match h.getFlow ok s.tables id with
    | .error e => some (s, .failed e.status)
    | .ok f => some (s, .readVersion f author version)
  | .readVersion f author version =>
    match h.getFlowVersion ok s.tables f.id version with
    | .error e => some (s, .failed e.status)
    | .ok old => some (s, .readForRestore f author old)
  | .readForRestore f author old =>
    match h.getFlow ok s.tables f.id with
    | .error _ => some (s, .failed 500)
    | .ok row =>
      some (s, .restoreDraft f author old (FlowStore.drafted row none (some old.content) now))
  | .restoreDraft f author old row =>
    if ok then
      match h.check old.content with
      | none => some (s.writeDraft row, .failed 400)
      | some file =>
        some (s.writeDraft row, .resolveEnv
          { flow := f
            content := old.content
            file
            author
            comment := "rollback to version " ++ toString old.version
            target := some old.version
            mark := (s.writeDraft row).writes.length })
    else some (s, .failed 500)
  | .resolveEnv job =>
    match if ok then h.resolveEnvForDeploy s.tables job.flow job.file else none with
    | none => some (s, .failed 400)
    | some env => some (s, .readDraft job env)
  | .readDraft job env =>
    match h.getFlow ok s.tables job.flow.id with
    | .error _ => some (s, .failed 500)
    | .ok draft =>
      some (s, .commit job env draft (!(s.writes.drop job.mark).contains job.flow.id))
  | .commit job env draft alone =>
    let row := s.tables.nextVersion job.flow.id draft.draftContent job.author job.comment now
    match if ok then s.tables.commitVersion row now else none with
    | none => some (s, .failed 500)
    | some tables => some ({ s with tables }, .readProject job env row alone)
  | .readProject job env stored alone =>
    match if ok then s.tables.project job.flow.projectID else none with
    | none => some (s, .failed 500)
    | some project =>
      some (s, .push job env (project.defaultErrorFlow.getD "") stored alone)
  | .push job env defaultErrorFlow stored alone =>
    some ({ s with
      calls := s.calls ++ [deployFlowCall job env defaultErrorFlow stored.version] },
      .deployed job stored alone)
  | .deployed .. | .done | .failed _ => none

end Handlers

section Moves

variable {floats : Float64Text} {h : Handlers floats} {ok : Bool} {id : String} {t : Tables}

theorem Handlers.getFlow_eq_ok {f : FlowRow} (hget : h.getFlow ok t id = .ok f) :
    t.flow id = some f := by
  unfold getFlow at hget
  generalize hread : (if ok = true then some (t.flow id) else none) = read at hget
  revert hget
  fun_cases FlowStore.scanFlow h.validTime read <;> rintro ⟨⟩
  exact Option.some.inj (Option.ite_none_right_eq_some.mp hread).2

theorem Handlers.getFlowVersion_eq_ok {version : Nat} {row : VersionRow}
    (hget : h.getFlowVersion ok t id version = .ok row) : t.version id version = some row := by
  unfold getFlowVersion at hget
  generalize hread : (if ok = true then some (t.version id version) else none) = read at hget
  revert hget
  fun_cases FlowStore.scanFlowVersion h.validTime read <;> rintro ⟨⟩
  exact Option.some.inj (Option.ite_none_right_eq_some.mp hread).2

theorem Handlers.check_eq_some {content : List Char} {file : Format.FlowFile floats} :
    h.check content = some file ↔
      Format.parse floats content = some file ∧ h.registry.validate file.view = [] := by
  rw [check, Option.filter_eq_some_iff, List.isEmpty_iff]

inductive Moves (h : Handlers floats) (s : Shared) :
    Request floats → Shared → Request floats → Prop
  | failed {request : Request floats} (status : Nat) : Moves h s request s (.failed status)
  | created {id projectID name now : String} {content : List Char} {tables : Tables}
      (hinsert : s.tables.insertFlow
        { id, projectID, name, draftContent := content, createdAt := now, updatedAt := now } =
          some tables) :
      Moves h s (.createFlow id projectID name content) { s with tables } .done
  | found {id : String} {name : Option String} {content : Option (List Char)} {f : FlowRow} :
      Moves h s (.updateFlow id name content) s (.readForUpdate f.id name content)
  | drafted {id now : String} {name : Option String} {content : Option (List Char)}
      {f : FlowRow} (hflow : s.tables.flow id = some f) :
      Moves h s (.readForUpdate id name content) s
        (.writeDraft (FlowStore.drafted f name content now))
  | updated {row : FlowRow} : Moves h s (.writeDraft row) (s.writeDraft row) .done
  | checked {id author comment : String} {profileID : Option String} {f : FlowRow}
      {file : Format.FlowFile floats} {next : Request floats}
      (hflow : s.tables.flow id = some f) (hfile : h.check f.draftContent = some file)
      (hnext : next = .resolveEnv { flow := f, content := f.draftContent, file, author, comment } ∨
        ∃ profileID, next = .selectProfile
          { flow := f, content := f.draftContent, file, author, comment } profileID) :
      Moves h s (.deployFlow id author comment profileID) s next
  | selected {job : Job floats} {profileID : String} :
      Moves h s (.selectProfile job profileID)
        { s with
          tables := s.tables.setActiveProfile job.flow.id (FlowStore.nullableString profileID) }
        (.resolveEnv { job with flow := { job.flow with activeProfileID := some profileID } })
  | rollback {id author : String} {version : Nat} {f : FlowRow}
      (hflow : s.tables.flow id = some f) :
      Moves h s (.rollbackFlow id author version) s (.readVersion f author version)
  | versionRead {f : FlowRow} {author : String} {version : Nat} {old : VersionRow}
      (hold : s.tables.version f.id version = some old) :
      Moves h s (.readVersion f author version) s (.readForRestore f author old)
  | restoring {f row : FlowRow} {author now : String} {old : VersionRow}
      (hflow : s.tables.flow f.id = some row) :
      Moves h s (.readForRestore f author old) s
        (.restoreDraft f author old (FlowStore.drafted row none (some old.content) now))
  | restoreRejected {f row : FlowRow} {author : String} {old : VersionRow} (status : Nat) :
      Moves h s (.restoreDraft f author old row) (s.writeDraft row) (.failed status)
  | restored {f row : FlowRow} {author comment : String} {old : VersionRow}
      {file : Format.FlowFile floats} (hfile : h.check old.content = some file) :
      Moves h s (.restoreDraft f author old row) (s.writeDraft row)
        (.resolveEnv
          { flow := f
            content := old.content
            file
            author
            comment
            target := some old.version
            mark := (s.writeDraft row).writes.length })
  | resolved {job : Job floats} {env : KeyMap String} :
      Moves h s (.resolveEnv job) s (.readDraft job env)
  | reread {job : Job floats} {env : KeyMap String} {draft : FlowRow}
      (hflow : s.tables.flow job.flow.id = some draft) :
      Moves h s (.readDraft job env) s
        (.commit job env draft (!(s.writes.drop job.mark).contains job.flow.id))
  | committed {job : Job floats} {env : KeyMap String} {draft : FlowRow} {alone : Bool}
      {now : String} {stored : VersionRow} {tables : Tables}
      (hstored : stored =
        s.tables.nextVersion job.flow.id draft.draftContent job.author job.comment now)
      (hcommit : s.tables.commitVersion stored now = some tables) :
      Moves h s (.commit job env draft alone) { s with tables }
        (.readProject job env stored alone)
  | projectRead {job : Job floats} {env : KeyMap String} {stored : VersionRow} {alone : Bool}
      {defaultErrorFlow : String} :
      Moves h s (.readProject job env stored alone) s (.push job env defaultErrorFlow stored alone)
  | pushed {job : Job floats} {env : KeyMap String} {stored : VersionRow} {alone : Bool}
      {defaultErrorFlow : String} :
      Moves h s (.push job env defaultErrorFlow stored alone)
        { s with
          calls := s.calls ++ [Handlers.deployFlowCall job env defaultErrorFlow stored.version] }
        (.deployed job stored alone)

variable {next request : Request floats} {s s' : Shared}

theorem moves_of_advance {now : String} (hstep : h.advance now ok s request = some (s', next)) :
    Moves h s request s' next := by
  revert hstep
  fun_cases h.advance now ok s request <;> rintro ⟨⟩
  any_goals exact .failed _
  next hinsert => exact .created (Option.ite_none_right_eq_some.mp hinsert).2
  next => exact .found
  next hget => exact .drafted (Handlers.getFlow_eq_ok hget)
  next => exact .updated
  next hget _ hfile _ => exact .checked (Handlers.getFlow_eq_ok hget) hfile (.inl rfl)
  next hget _ hfile _ _ => exact .checked (Handlers.getFlow_eq_ok hget) hfile (.inr ⟨_, rfl⟩)
  next => exact .selected
  next hget => exact .rollback (Handlers.getFlow_eq_ok hget)
  next hget => exact .versionRead (Handlers.getFlowVersion_eq_ok hget)
  next hget => exact .restoring (Handlers.getFlow_eq_ok hget)
  next => exact .restoreRejected 400
  next hfile => exact .restored hfile
  next => exact .resolved
  next hget => exact .reread (Handlers.getFlow_eq_ok hget)
  next hcommit => exact .committed rfl (Option.ite_none_right_eq_some.mp hcommit).2
  next => exact .projectRead
  next => exact .pushed

theorem Moves.calls (hmove : Moves h s request s' next) :
    s'.calls = s.calls ∨
      ∃ job env defaultErrorFlow stored alone,
        request = .push job env defaultErrorFlow stored alone ∧
        s'.calls = s.calls ++
          [Handlers.deployFlowCall job env defaultErrorFlow stored.version] := by
  cases hmove with
  | pushed => exact .inr ⟨_, _, _, _, _, rfl, rfl⟩
  | _ => exact .inl rfl

end Moves

structure Service (floats : Float64Text) where
  shared : Shared := {}
  requests : List (Request floats) := []

inductive ServiceAction (floats : Float64Text) where
  | arrive (request : Request floats)
  | advance (index : Nat) (now : String) (ok : Bool)

namespace Service

variable {floats : Float64Text}

def step (h : Handlers floats) (s : Service floats) :
    ServiceAction floats → Option (Service floats)
  | .arrive request =>
    if request.isNew then some { s with requests := s.requests ++ [request] } else none
  | .advance index now ok =>
    (advanceAt (h.advance now ok) s.shared s.requests index).map fun next => ⟨next.1, next.2⟩

def Meeting (Cond : Shared → Request floats → Prop) (s : Service floats) :
    ServiceAction floats → Prop
  | .arrive _ => True
  | .advance index _ _ => ∀ request ∈ s.requests[index]?, Cond s.shared request

instance (Cond : Shared → Request floats → Prop) [∀ s request, Decidable (Cond s request)]
    (s : Service floats) (a : ServiceAction floats) : Decidable (s.Meeting Cond a) := by
  cases a <;> unfold Meeting <;> infer_instance

variable {h : Handlers floats} {s s' : Service floats} {a : ServiceAction floats}

theorem step_cases (hstep : s.step h a = some s') :
    (∃ request, a = .arrive request ∧ request.isNew ∧
      s' = { s with requests := s.requests ++ [request] }) ∨
    (∃ index now ok request next, a = .advance index now ok ∧
      s.requests[index]? = some request ∧
      h.advance now ok s.shared request = some (s'.shared, next) ∧
      s'.requests = s.requests.set index next) := by
  cases a with
  | arrive request =>
    simp only [step] at hstep
    split at hstep
    next hnew =>
      cases hstep
      exact .inl ⟨request, rfl, hnew, rfl⟩
    · cases hstep
  | advance index now ok =>
    obtain ⟨⟨shared, requests⟩, hadvance, rfl⟩ := Option.map_eq_some_iff.mp hstep
    obtain ⟨request, next, hrequest, hnext, rfl⟩ := advanceAt_eq_some.mp hadvance
    exact .inr ⟨index, now, ok, request, next, rfl, hrequest, hnext, rfl⟩

theorem calls_of_step (hstep : s.step h a = some s') :
    s'.shared.calls = s.shared.calls ∨
      ∃ job env defaultErrorFlow stored alone,
        .push job env defaultErrorFlow stored alone ∈ s.requests ∧
        s'.shared.calls = s.shared.calls ++
          [Handlers.deployFlowCall job env defaultErrorFlow stored.version] := by
  obtain ⟨request, rfl, -, rfl⟩ | ⟨index, now, ok, request, next, rfl, hrequest, hadvance, -⟩ :=
    step_cases hstep
  · exact .inl rfl
  · rcases (moves_of_advance hadvance).calls with hsame | ⟨job, env, defaultErrorFlow, stored,
      alone, rfl, hcalls⟩
    · exact .inl hsame
    · exact .inr ⟨job, env, defaultErrorFlow, stored, alone, List.mem_of_getElem? hrequest, hcalls⟩

theorem step_keeps {Cond : Shared → Request floats → Prop} {Inv : Shared → Prop}
    {Own : Shared → Request floats → Prop} (hkeeps : Keeps (Moves h) Cond Inv Own)
    (hnew : ∀ shared request, request.isNew = true → Own shared request)
    (hinv : Inv s.shared ∧ ∀ request ∈ s.requests, Own s.shared request) (hcond : s.Meeting Cond a)
    (hstep : s.step h a = some s') :
    Inv s'.shared ∧ ∀ request ∈ s'.requests, Own s'.shared request := by
  obtain ⟨request, rfl, harrived, rfl⟩ | ⟨index, now, ok, request, next, rfl, hrequest, hadvance,
    hrequests⟩ := step_cases hstep
  · exact ⟨hinv.1, forall_mem_concat hinv.2 (hnew _ request harrived)⟩
  · rw [hrequests]
    exact hkeeps.set hrequest (moves_of_advance hadvance) (hcond request hrequest) hinv.1 hinv.2

end Service

def smallHandlers : Handlers Format.exactFloats where
  registry := smallRegistry
  validTime _ := true
  sprint _ := ""

end DataPipe.ControlPlane
