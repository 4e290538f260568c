import DataPipe.Flow.Canonical

/-!
# Tables of the control plane

The tables that `controlplane/internal/api/flows.go` and `envprofiles.go` work on, one
function for each SQL statement of the two files, and `resolveEnv`.  The columns are those
of `controlplane/internal/db/migrations`; a statement that breaks a primary key has no
result.
-/

namespace DataPipe.ControlPlane

open DataPipe.Foundation DataPipe.Flow

structure FlowRow where
  id : String
  projectID : String
  name : String
  draftContent : List Char
  deployedVersion : Option Nat := none
  logLevel : String := "info"
  activeProfileID : Option String := none
  createdAt : String
  updatedAt : String
  deriving DecidableEq

structure VersionRow where
  flowID : String
  version : Nat
  content : List Char
  author : String
  comment : String
  createdAt : String
  deployedAt : Option String
  deriving DecidableEq

structure ProjectRow where
  id : String
  defaultErrorFlow : Option String := none
  deriving DecidableEq

structure ProfileRow where
  id : String
  projectID : String
  name : String
  valuesJSON : List Char
  createdAt : String
  deriving DecidableEq

structure Tables where
  flows : List FlowRow := []
  versions : List VersionRow := []
  projects : List ProjectRow := []
  profiles : List ProfileRow := []
  deriving DecidableEq

structure DeployedRow where
  flowID : String
  version : Nat
  content : List Char
  defaultErrorFlow : Option String
  logLevel : String
  activeProfileID : Option String
  deriving DecidableEq

namespace Tables

variable (t : Tables)

def flow (id : String) : Option FlowRow := t.flows.find? (·.id = id)

def flowsOf (projectID : String) : List FlowRow :=
  sortByKey FlowRow.name (t.flows.filter (·.projectID = projectID))

def insertFlow (row : FlowRow) : Option Tables :=
  if (t.flow row.id).isSome then none else some { t with flows := t.flows ++ [row] }

def updateFlow (id : String) (change : FlowRow → FlowRow) : Tables :=
  { t with flows := t.flows.map fun row => if row.id = id then change row else row }

def updateDraft (id name : String) (content : List Char) (updatedAt : String) : Tables :=
  t.updateFlow id fun row => { row with name, draftContent := content, updatedAt }

def setDeployedVersion (id : String) (version : Nat) (updatedAt : String) : Tables :=
  t.updateFlow id fun row => { row with deployedVersion := some version, updatedAt }

def setLogLevel (id level : String) : Tables :=
  t.updateFlow id fun row => { row with logLevel := level }

def setActiveProfile (id : String) (profileID : Option String) : Tables :=
  t.updateFlow id fun row => { row with activeProfileID := profileID }

def deleteFlow (id : String) : Tables := { t with flows := t.flows.filter (·.id ≠ id) }

def versionsOf (flowID : String) : List VersionRow := t.versions.filter (·.flowID = flowID)

def version (flowID : String) (version : Nat) : Option VersionRow :=
  t.versions.find? fun row => row.flowID = flowID ∧ row.version = version

def maxVersion (flowID : String) : Option Nat := ((t.versionsOf flowID).map VersionRow.version).max?

def insertVersion (row : VersionRow) : Option Tables :=
  if (t.version row.flowID row.version).isSome then none
  else some { t with versions := t.versions ++ [row] }

def newestFirst (flowID : String) : List VersionRow :=
  (t.versionsOf flowID).mergeSort fun v w => w.version ≤ v.version

/-- The row that `CreateDeployedVersion` builds of what its transaction reads. -/
def nextVersion (flowID : String) (content : List Char) (author comment now : String) :
    VersionRow where
  flowID
  version :=
    match t.maxVersion flowID with
    | none => 1
    | some version => version + 1
  content
  author
  comment
  createdAt := now
  deployedAt := some now

/-- The two writes of the transaction of `CreateDeployedVersion`. -/
def commitVersion (row : VersionRow) (now : String) : Option Tables :=
  (t.insertVersion row).map fun t' => t'.setDeployedVersion row.flowID row.version now

def project (id : String) : Option ProjectRow := t.projects.find? (·.id = id)

def deployedRow (row : FlowRow) : Option DeployedRow :=
  row.deployedVersion.bind fun number =>
    (t.version row.id number).bind fun stored =>
      (t.project row.projectID).map fun project =>
        { flowID := row.id
          version := stored.version
          content := stored.content
          defaultErrorFlow := project.defaultErrorFlow
          logLevel := row.logLevel
          activeProfileID := row.activeProfileID }

def deployedRows : List DeployedRow := t.flows.filterMap t.deployedRow

def profile (id : String) : Option ProfileRow := t.profiles.find? (·.id = id)

def profilesOf (projectID : String) : List ProfileRow :=
  sortByKey ProfileRow.name (t.profiles.filter (·.projectID = projectID))

def insertProfile (row : ProfileRow) : Option Tables :=
  if (t.profile row.id).isSome then none else some { t with profiles := t.profiles ++ [row] }

def updateProfile (id : String) (valuesJSON : List Char) : Tables :=
  { t with
    profiles := t.profiles.map fun row => if row.id = id then { row with valuesJSON } else row }

def deleteProfile (id : String) : Tables :=
  { t with profiles := t.profiles.filter (·.id ≠ id) }

end Tables

namespace Tables

variable {t t' : Tables} {id other : String} {row : FlowRow}

theorem id_of_flow (h : t.flow id = some row) : row.id = id := by
  have hid := List.find?_some h
  exact of_decide_eq_true hid

theorem mem_of_flow (h : t.flow id = some row) : row ∈ t.flows :=
  List.mem_of_find?_eq_some h

variable {change : FlowRow → FlowRow} {now : String} {number : Nat}

theorem flow_updateFlow (hid : ∀ row, (change row).id = row.id) :
    (t.updateFlow id change).flow other =
      (t.flow other).map fun row => if row.id = id then change row else row := by
  unfold flow updateFlow
  rw [List.find?_map]
  congr 2
  funext row
  simp only [Function.comp_apply]
  split
  · rw [hid]
  · rfl

theorem flow_updateFlow_of_flow (hid : ∀ row, (change row).id = row.id)
    (h : t.flow other = some row) :
    (t.updateFlow id change).flow other = some (if row.id = id then change row else row) := by
  rw [flow_updateFlow hid, h]
  rfl

theorem flow_of_mem (h : ∃ row ∈ t.flows, row.id = id) : ∃ row, t.flow id = some row := by
  obtain ⟨row, hrow, hid⟩ := h
  exact Option.isSome_iff_exists.mp
    (List.find?_isSome.mpr ⟨row, hrow, decide_eq_true hid⟩)

theorem mem_updateFlow :
    row ∈ (t.updateFlow id change).flows ↔
      ∃ old ∈ t.flows, row = if old.id = id then change old else old := by
  simp only [updateFlow, List.mem_map, eq_comm]

theorem insertFlow_eq_some :
    t.insertFlow row = some t' ↔
      t.flow row.id = none ∧ t' = { t with flows := t.flows ++ [row] } := by
  unfold insertFlow
  cases hflow : t.flow row.id with
  | none => simp [eq_comm]
  | some old => simp

variable {row : VersionRow}

theorem insertVersion_eq_some :
    t.insertVersion row = some t' ↔
      t.version row.flowID row.version = none ∧
        t' = { t with versions := t.versions ++ [row] } := by
  unfold insertVersion
  cases hversion : t.version row.flowID row.version with
  | none => simp [eq_comm]
  | some old => simp

theorem commitVersion_eq_some : t.commitVersion row now = some t' ↔
      t.version row.flowID row.version = none ∧
        t' = setDeployedVersion { t with versions := t.versions ++ [row] }
          row.flowID row.version now := by
  unfold commitVersion
  rw [Option.map_eq_some_iff]
  constructor
  · rintro ⟨inserted, hinsert, rfl⟩
    obtain ⟨hnone, rfl⟩ := insertVersion_eq_some.mp hinsert
    exact ⟨hnone, rfl⟩
  · rintro ⟨hnone, rfl⟩
    exact ⟨_, insertVersion_eq_some.mpr ⟨hnone, rfl⟩, rfl⟩

theorem version_eq_some (h : t.version id number = some row) :
    row ∈ t.versions ∧ row.flowID = id ∧ row.version = number := by
  have hkey := List.find?_some h
  exact ⟨List.mem_of_find?_eq_some h, of_decide_eq_true hkey⟩

theorem version_commitVersion (h : t.commitVersion row now = some t') :
    t'.version row.flowID row.version = some row := by
  obtain ⟨hnone, rfl⟩ := commitVersion_eq_some.mp h
  change List.find? _ (t.versions ++ [row]) = some row
  rw [List.find?_append]
  change (t.version row.flowID row.version).or _ = some row
  rw [hnone]
  simp

theorem version_of_append (happend : t.versions <+: t'.versions)
    (h : t.version id number = some row) : t'.version id number = some row := by
  obtain ⟨added, hadded⟩ := happend
  unfold version at h ⊢
  rw [← hadded, List.find?_append, h]
  rfl

end Tables

structure EnvironmentProfile where
  id : String
  projectID : String
  name : String
  values : KeyMap String
  createdAt : String

def ProfileRow.scan (row : ProfileRow) : Option EnvironmentProfile :=
  (RawJson.read row.valuesJSON).bind fun document =>
    (decodeMap decodeString "" .empty document).map fun values =>
      { id := row.id
        projectID := row.projectID
        name := row.name
        values
        createdAt := row.createdAt }

/-- The text of a map of strings, whose keys `json.Marshal` writes in order. -/
def marshalValues (values : KeyMap String) : List Char :=
  (Json.obj (values.entries.map (Prod.map id Json.str))).render

section ResolveEnv

variable {floats : Float64Text} (sprint : GoValue floats → String)

def envValue (profile : Option EnvironmentProfile) (v : Format.EnvVar floats) : Option String :=
  match profile.bind fun p => p.values.entries.lookup v.name with
  | some value => some value
  | none =>
    match v.defaultValue.json with
    | .null => none
    | _ => some (sprint v.defaultValue)

def resolveEnv (file : Format.FlowFile floats) (profile : Option EnvironmentProfile) :
    KeyMap String × List String :=
  (file.env.foldl (fun resolved v =>
      match envValue sprint profile v with
      | some value => resolved.insert v.name value
      | none => resolved) .empty,
    sortStrings ((file.env.filter fun v => (envValue sprint profile v).isNone).map
      Format.EnvVar.name))

end ResolveEnv

def targetGroup {floats : Float64Text} (file : Format.FlowFile floats) : String :=
  match file.runtimeAssignment with
  | none => ""
  | some assignment => assignment.group

def contentGroup (floats : Float64Text) (content : List Char) : String :=
  match Format.parse floats content with
  | none => ""
  | some file => targetGroup file

theorem contentGroup_of_parse {floats : Float64Text} {content : List Char}
    {file : Format.FlowFile floats} (hfile : Format.parse floats content = some file) :
    contentGroup floats content = targetGroup file := by
  rw [contentGroup, hfile]

structure DeployedFlow where
  flowID : String
  version : Nat
  contentJSON : List Char
  defaultErrorFlow : String
  targetGroup : String
  logLevel : String
  resolvedEnv : KeyMap String

/-- What `ListDeployedFlows` makes of a row and the profile it has looked up. -/
def DeployedRow.deployedFlow {floats : Float64Text} (sprint : GoValue floats → String)
    (row : DeployedRow) (profile : Option EnvironmentProfile) : DeployedFlow where
  flowID := row.flowID
  version := row.version
  contentJSON := row.content
  defaultErrorFlow := row.defaultErrorFlow.getD ""
  targetGroup := contentGroup floats row.content
  logLevel := row.logLevel
  resolvedEnv :=
    match Format.parse floats row.content with
    | none => .empty
    | some file => (resolveEnv sprint file profile).1

end DataPipe.ControlPlane
