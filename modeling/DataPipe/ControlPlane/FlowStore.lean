import DataPipe.ControlPlane.Database
import DataPipe.Foundation.Pool

/-!
# Store methods on the connection pool

The methods of `Store` in `controlplane/internal/api/flows.go` and `envprofiles.go` as
calls on the pool that `db.Open` caps at one connection for SQLite.  Open rows and open
transactions hold the connection; every other statement asks for one.
-/

set_option linter.dupNamespace false

namespace DataPipe.ControlPlane

open DataPipe.Foundation DataPipe.Flow

/-- The size of the pool that `Open` sets for SQLite. -/
def maxOpenConns : Nat := 1

inductive StoreError where
  | noRows (context : String)
  | failed (context : String)
  deriving DecidableEq, Repr

namespace FlowStore

section Scan

variable (validTime : String → Bool)

/-- A `none` inside is an empty result, a `none` outside a failed query. -/
def scanFlow : Option (Option FlowRow) → Except StoreError FlowRow
  | none => .error (.failed "api: scanning flow")
  | some none => .error (.noRows "")
  | some (some row) =>
    if !validTime row.createdAt then .error (.failed "api: parsing created_at")
    else if !validTime row.updatedAt then .error (.failed "api: parsing updated_at")
    else .ok row

def scanFlowVersion : Option (Option VersionRow) → Except StoreError VersionRow
  | none => .error (.failed "api: scanning flow version")
  | some none => .error (.noRows "")
  | some (some row) =>
    if !validTime row.createdAt then .error (.failed "api: parsing created_at")
    else if row.deployedAt.any fun deployedAt => !validTime deployedAt then
      .error (.failed "api: parsing deployed_at")
    else .ok row

end Scan

def scanEnvironmentProfile : Option (Option ProfileRow) → Except StoreError EnvironmentProfile
  | none => .error (.failed "api: scanning environment profile")
  | some none => .error (.noRows "api: scanning environment profile")
  | some (some row) =>
    match row.scan with
    | none => .error (.failed "api: decoding profile values")
    | some profile => .ok profile

def selectRow (select : Tables → α) : Call Tables (Option α) := .query fun t => (select t, t)

def execContext (context : String) (write : Tables → Option Tables) (result : α) :
    Call Tables (Except StoreError α) :=
  (Call.query fun t => ((write t).isSome, (write t).getD t)).bind fun
    | some true => .done (.ok result)
    | _ => .done (.error (.failed context))

def listRows (context : String) (select : Tables → List ρ)
    (body : ρ → Call Tables (Except StoreError β)) : Call Tables (Except StoreError (List β)) :=
  .queryRows (.failed context) (.failed "") select body

section Methods

variable (validTime : String → Bool)

def createFlow (id now projectID name : String) (content : List Char) :
    Call Tables (Except StoreError FlowRow) :=
  let f : FlowRow :=
    { id, projectID, name, draftContent := content, createdAt := now, updatedAt := now }
  execContext "api: creating flow" (fun t => t.insertFlow f) f

def getFlow (id : String) : Call Tables (Except StoreError FlowRow) :=
  (selectRow fun t => t.flow id).bind fun answer => .done (scanFlow validTime answer)

def listFlows (projectID : String) : Call Tables (Except StoreError (List FlowRow)) :=
  listRows "api: listing flows" (fun t => t.flowsOf projectID) fun row =>
    .done (scanFlow validTime (some (some row)))

def drafted (f : FlowRow) (name : Option String) (content : Option (List Char))
    (now : String) : FlowRow :=
  { f with
    name := name.getD f.name
    draftContent := content.getD f.draftContent
    updatedAt := now }

def updateFlowDraft (id now : String) (name : Option String) (content : Option (List Char)) :
    Call Tables (Except StoreError FlowRow) :=
  (getFlow validTime id).bind fun
    | .error e => .done (.error e)
    | .ok f =>
      let f := drafted f name content now
      execContext "api: updating flow draft"
        (fun t => some (t.updateDraft f.id f.name f.draftContent f.updatedAt)) f

def deleteFlow (id : String) : Call Tables (Except StoreError Unit) :=
  execContext "" (fun t => some (t.deleteFlow id)) ()

def setFlowLogLevel (id level : String) : Call Tables (Except StoreError Unit) :=
  (Call.query fun t => ((t.flow id).isSome, t.setLogLevel id level)).bind fun
    | none => .done (.error (.failed "api: setting flow log level"))
    | some false => .done (.error (.noRows ""))
    | some true => .done (.ok ())

def createDeployedVersion (flowID author comment now : String) :
    Call Tables (Except StoreError VersionRow) :=
  (getFlow validTime flowID).bind fun
    | .error e => .done (.error e)
    | .ok f =>
      .beginTx (.failed "api: begin deploy tx") <|
      .inTx (.failed "api: finding next version")
        (fun t => some (t.nextVersion flowID f.draftContent author comment now)) fun v =>
      .inTx (.failed "api: inserting flow version") (fun t => t.insertVersion v) fun _ =>
      .inTx (.failed "api: updating flow deployed_version") some fun _ =>
      .commit (.failed "api: committing deploy") (fun t => t.commitVersion v now) v

def listFlowVersions (flowID : String) : Call Tables (Except StoreError (List VersionRow)) :=
  listRows "api: listing flow versions" (fun t => t.newestFirst flowID) fun row =>
    .done (scanFlowVersion validTime (some (some row)))

def getFlowVersion (flowID : String) (version : Nat) : Call Tables (Except StoreError VersionRow) :=
  (selectRow fun t => t.version flowID version).bind fun answer =>
    .done (scanFlowVersion validTime answer)

end Methods

def createEnvironmentProfile (id now projectID name : String) (values : KeyMap String) :
    Call Tables (Except StoreError EnvironmentProfile) :=
  execContext "api: creating environment profile"
    (fun t => t.insertProfile
      { id, projectID, name, valuesJSON := marshalValues values, createdAt := now })
    { id, projectID, name, values, createdAt := now }

def listEnvironmentProfiles (projectID : String) :
    Call Tables (Except StoreError (List EnvironmentProfile)) :=
  listRows "api: listing environment profiles" (fun t => t.profilesOf projectID) fun row =>
    .done (scanEnvironmentProfile (some (some row)))

def getEnvironmentProfile (id : String) : Call Tables (Except StoreError EnvironmentProfile) :=
  (selectRow fun t => t.profile id).bind fun answer => .done (scanEnvironmentProfile answer)

def updateEnvironmentProfileValues (id : String) (values : KeyMap String) :
    Call Tables (Except StoreError EnvironmentProfile) :=
  (getEnvironmentProfile id).bind fun
    | .error e => .done (.error e)
    | .ok p =>
      execContext "api: updating environment profile"
        (fun t => some (t.updateProfile id (marshalValues values))) { p with values }

def deleteEnvironmentProfile (id : String) : Call Tables (Except StoreError Unit) :=
  execContext "" (fun t => some (t.deleteProfile id)) ()

def nullableString (s : String) : Option String := if s = "" then none else some s

def setFlowActiveProfile (flowID profileID : String) : Call Tables (Except StoreError Unit) :=
  execContext "api: setting flow active profile"
    (fun t => some (t.setActiveProfile flowID (nullableString profileID))) ()

section Deployed

variable {floats : Float64Text} (sprint : GoValue floats → String)

def scanDeployedFlow (row : DeployedRow) : Call Tables (Except StoreError DeployedFlow) :=
  match Format.parse floats row.content, row.activeProfileID with
  | some _, some profileID =>
    (getEnvironmentProfile profileID).bind fun profile =>
      .done (.ok (row.deployedFlow sprint profile.toOption))
  | _, _ => .done (.ok (row.deployedFlow sprint none))

def listDeployedFlows : Call Tables (Except StoreError (List DeployedFlow)) :=
  listRows "api: listing deployed flows" Tables.deployedRows (scanDeployedFlow sprint)

end Deployed

theorem orderly_selectRow (select : Tables → α) : Call.Orderly 0 (selectRow select) :=
  Call.orderly_query _

variable (validTime : String → Bool) (context : String)

theorem orderly_execContext (write : Tables → Option Tables) (result : α) :
    Call.Orderly 0 (execContext context write result) := by
  refine Call.orderly_bind (Call.orderly_query _) fun answer => ?_
  rcases answer with _ | _ | _ <;> rfl

theorem orderly_listRows (select : Tables → List ρ) (item : ρ → Except StoreError β) :
    Call.Orderly 0 (listRows context select fun row => .done (item row)) :=
  Call.orderly_queryRows _ _ select fun row => ⟨item row, rfl⟩

theorem orderly_getFlow (id : String) : Call.Orderly 0 (getFlow validTime id) :=
  Call.orderly_bind (orderly_selectRow _) fun _ => rfl

theorem orderly_getEnvironmentProfile (id : String) : Call.Orderly 0 (getEnvironmentProfile id) :=
  Call.orderly_bind (orderly_selectRow _) fun _ => rfl

theorem orderly_updateFlowDraft (id now : String) (name : Option String)
    (content : Option (List Char)) :
    Call.Orderly 0 (updateFlowDraft validTime id now name content) := by
  refine Call.orderly_bind (orderly_getFlow validTime id) fun answer => ?_
  cases answer with
  | error e => rfl
  | ok f => exact orderly_execContext _ _ _

theorem orderly_setFlowLogLevel (id level : String) :
    Call.Orderly 0 (setFlowLogLevel id level) := by
  refine Call.orderly_bind (Call.orderly_query _) fun answer => ?_
  rcases answer with _ | _ | _ <;> rfl

theorem orderly_createDeployedVersion (flowID author comment now : String) :
    Call.Orderly 0 (createDeployedVersion validTime flowID author comment now) := by
  refine Call.orderly_bind (orderly_getFlow validTime flowID) fun answer => ?_
  cases answer with
  | error e => rfl
  | ok f =>
    refine Call.orderly_beginTx _ (Call.orderly_inTx _ _ fun v => ?_)
    refine Call.orderly_inTx _ _ fun _ => Call.orderly_inTx _ _ fun _ => ?_
    exact Call.orderly_commit _ _ v

theorem orderly_updateEnvironmentProfileValues (id : String) (values : KeyMap String) :
    Call.Orderly 0 (updateEnvironmentProfileValues id values) := by
  refine Call.orderly_bind (orderly_getEnvironmentProfile id) fun answer => ?_
  cases answer with
  | error e => rfl
  | ok p => exact orderly_execContext _ _ _

def LooksUpProfile (floats : Float64Text) (row : DeployedRow) : Prop :=
  (Format.parse floats row.content).isSome ∧ row.activeProfileID.isSome

section Listing

variable {floats : Float64Text} (sprint : GoValue floats → String) {script : Script Tables}
variable {row : DeployedRow}

theorem scanDeployedFlow_of_not_looksUp (h : ¬ LooksUpProfile floats row) :
    ∃ item, scanDeployedFlow sprint row = .done (.ok item) := by
  unfold scanDeployedFlow
  split
  next file profileID hfile hprofile => exact absurd ⟨by simp [hfile], by simp [hprofile]⟩ h
  · exact ⟨_, rfl⟩

theorem exec_scanDeployedFlow_of_looksUp {p : Progress Tables} (h : LooksUpProfile floats row)
    (hheld : p.held = 1) : (scanDeployedFlow sprint row).exec 1 script p = none := by
  obtain ⟨file, hfile⟩ := Option.isSome_iff_exists.mp h.1
  obtain ⟨profileID, hprofile⟩ := Option.isSome_iff_exists.mp h.2
  unfold scanDeployedFlow getEnvironmentProfile selectRow
  simp only [hfile, hprofile]
  rw [Call.exec_bind, Call.exec_bind, Call.exec_query_of_held _ hheld]
  rfl

end Listing

inductive Method where
  | createFlow (id now projectID name : String) (content : List Char)
  | getFlow (id : String)
  | listFlows (projectID : String)
  | updateFlowDraft (id now : String) (name : Option String) (content : Option (List Char))
  | deleteFlow (id : String)
  | setFlowLogLevel (id level : String)
  | listDeployedFlows
  | createDeployedVersion (flowID author comment now : String)
  | listFlowVersions (flowID : String)
  | getFlowVersion (flowID : String) (version : Nat)
  | createEnvironmentProfile (id now projectID name : String) (values : KeyMap String)
  | listEnvironmentProfiles (projectID : String)
  | getEnvironmentProfile (id : String)
  | updateEnvironmentProfileValues (id : String) (values : KeyMap String)
  | deleteEnvironmentProfile (id : String)
  | setFlowActiveProfile (flowID profileID : String)

def Method.Result : Method → Type
  | .createFlow .. | .getFlow .. | .updateFlowDraft .. => FlowRow
  | .listFlows .. => List FlowRow
  | .listDeployedFlows => List DeployedFlow
  | .createDeployedVersion .. | .getFlowVersion .. => VersionRow
  | .listFlowVersions .. => List VersionRow
  | .createEnvironmentProfile .. | .getEnvironmentProfile .. => EnvironmentProfile
  | .updateEnvironmentProfileValues .. => EnvironmentProfile
  | .listEnvironmentProfiles .. => List EnvironmentProfile
  | .deleteFlow .. | .setFlowLogLevel .. => Unit
  | .deleteEnvironmentProfile .. | .setFlowActiveProfile .. => Unit

section Methods

variable {floats : Float64Text} (sprint : GoValue floats → String)

def Method.call : (m : Method) → Call Tables (Except StoreError m.Result)
  | .createFlow id now projectID name content =>
    FlowStore.createFlow id now projectID name content
  | .getFlow id => FlowStore.getFlow validTime id
  | .listFlows projectID => FlowStore.listFlows validTime projectID
  | .updateFlowDraft id now name content =>
    FlowStore.updateFlowDraft validTime id now name content
  | .deleteFlow id => FlowStore.deleteFlow id
  | .setFlowLogLevel id level => FlowStore.setFlowLogLevel id level
  | .listDeployedFlows => FlowStore.listDeployedFlows sprint
  | .createDeployedVersion flowID author comment now =>
    FlowStore.createDeployedVersion validTime flowID author comment now
  | .listFlowVersions flowID => FlowStore.listFlowVersions validTime flowID
  | .getFlowVersion flowID version => FlowStore.getFlowVersion validTime flowID version
  | .createEnvironmentProfile id now projectID name values =>
    FlowStore.createEnvironmentProfile id now projectID name values
  | .listEnvironmentProfiles projectID => FlowStore.listEnvironmentProfiles projectID
  | .getEnvironmentProfile id => FlowStore.getEnvironmentProfile id
  | .updateEnvironmentProfileValues id values =>
    FlowStore.updateEnvironmentProfileValues id values
  | .deleteEnvironmentProfile id => FlowStore.deleteEnvironmentProfile id
  | .setFlowActiveProfile flowID profileID => FlowStore.setFlowActiveProfile flowID profileID

theorem orderly_call (m : Method) (h : m ≠ .listDeployedFlows) :
    Call.Orderly 0 (m.call validTime sprint) := by
  cases m with
  | createFlow | deleteFlow | createEnvironmentProfile | deleteEnvironmentProfile
  | setFlowActiveProfile => exact orderly_execContext _ _ _
  | getFlow => exact orderly_getFlow validTime _
  | listFlows | listFlowVersions | listEnvironmentProfiles => exact orderly_listRows _ _ _
  | updateFlowDraft => exact orderly_updateFlowDraft validTime _ _ _ _
  | setFlowLogLevel => exact orderly_setFlowLogLevel _ _
  | listDeployedFlows => exact absurd rfl h
  | createDeployedVersion => exact orderly_createDeployedVersion validTime _ _ _ _
  | getFlowVersion => exact Call.orderly_bind (orderly_selectRow _) fun _ => rfl
  | getEnvironmentProfile => exact orderly_getEnvironmentProfile _
  | updateEnvironmentProfileValues => exact orderly_updateEnvironmentProfileValues _ _

/--
A method comes to its end on the pool of one connection, whatever the database holds, the
others do and the database fails at, unless it is `ListDeployedFlows` and its loop
gets to a deployed flow that can be parsed and has an active profile.
-/
theorem method_returns_iff (script : Script Tables) (db : Tables) (m : Method) :
    ((m.call validTime sprint).exec maxOpenConns script { db }).isSome ↔
      (m = .listDeployedFlows → ∀ i row, (script.others 0 db).deployedRows[i]? = some row →
        script.Reaches 0 (i + 1) → ¬ LooksUpProfile floats row) := by
  by_cases hm : m = .listDeployedFlows
  · subst hm
    rw [forall_prop_of_true rfl]
    exact Call.exec_queryRows_isSome_iff
      (fun _ hrow => scanDeployedFlow_of_not_looksUp sprint hrow)
      (fun _ _ hrow hheld => exec_scanDeployedFlow_of_looksUp sprint hrow hheld) rfl
  · obtain ⟨a, p', hexec, -⟩ :=
      @Call.exec_of_orderly _ _ _ script { db } (orderly_call validTime sprint m hm)
    simp only [hm, false_imp_iff, iff_true]
    exact hexec ▸ rfl

end Methods

def profiledTables : Tables where
  flows :=
    [{ id := "f"
       projectID := "p"
       name := "flow"
       draftContent := "\x7b\x7d".toList
       deployedVersion := some 1
       activeProfileID := some "dev"
       createdAt := ""
       updatedAt := "" }]
  versions :=
    [{ flowID := "f"
       version := 1
       content := "\x7b\x7d".toList
       author := ""
       comment := ""
       createdAt := ""
       deployedAt := none }]
  projects := [{ id := "p" }]

theorem listing_of_profiled_flow_waits :
    ¬ ((Method.listDeployedFlows.call (fun _ => true) fun _ : GoValue Format.exactFloats => "").exec
      maxOpenConns ⟨fun _ => false, fun _ db => db⟩ { db := profiledTables }).isSome := by
  decide +kernel

end FlowStore

end DataPipe.ControlPlane
