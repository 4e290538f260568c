import DataPipe.ControlPlane.Connections
import DataPipe.ControlPlane.Database
import DataPipe.Foundation.Relational

/-!
# Schema of the control plane

The tables of `controlplane/internal/db/migrations`, with a row type for each.  A
column that is `NOT NULL` has a plain type and the others an `Option`; the columns of
the operational tables that no constraint mentions are left out.
-/

namespace DataPipe.ControlPlane.Backup

open DataPipe.Foundation

inductive Table where
  | users
  | sessions
  | projects
  | projectMembers
  | flows
  | flowVersions
  | connections
  | credentials
  | debugPins
  | executions
  | executionNodeIo
  | deadLetters
  | runtimeGroups
  | runtimeEnrollTokens
  | devices
  | alertRules
  | alerts
  | environmentProfiles
  deriving DecidableEq, Repr

structure UserRow where
  id : String
  username : String
  passwordHash : String
  systemRole : String := "none"
  createdAt : String
  deriving DecidableEq

structure SessionRow where
  tokenHash : String
  userID : String
  deriving DecidableEq

structure ProjectRow where
  id : String
  name : String
  description : String := ""
  createdAt : String
  defaultErrorFlow : Option String := none
  deriving DecidableEq

structure MemberRow where
  projectID : String
  userID : String
  role : String
  deriving DecidableEq

structure CredentialRow where
  id : String
  projectID : String
  name : String
  keyVersion : Int
  wrappedDEK : String
  wrappedDEKNonce : String
  ciphertext : String
  nonce : String
  createdAt : String
  deriving DecidableEq

structure DebugPinRow where
  flowID : String
  nodeID : String
  port : String
  deriving DecidableEq

structure ExecutionRow where
  id : String
  flowID : String
  deriving DecidableEq

structure ExecutionNodeIoRow where
  id : String
  executionID : String
  deriving DecidableEq

structure DeadLetterRow where
  id : String
  flowID : String
  deriving DecidableEq

structure GroupRow where
  name : String
  description : String := ""
  createdAt : String
  deriving DecidableEq

structure EnrollTokenRow where
  id : String
  tokenHash : String
  displayName : String := ""
  groupName : Option String := none
  createdBy : String
  createdAt : String
  usedByRuntimeID : Option String := none
  revokedAt : Option String := none
  deriving DecidableEq

structure DeviceRow where
  runtimeID : String
  kind : String := "server"
  displayName : String := ""
  groupName : Option String := none
  enrollTokenID : Option String := none
  enrolledAt : String
  deriving DecidableEq

structure AlertRuleRow where
  id : String
  name : String
  metric : String
  targetRuntimeID : String := ""
  webhookURL : String := ""
  enabled : Int := 1
  createdAt : String
  deriving DecidableEq

structure AlertRow where
  id : String
  ruleID : String
  deriving DecidableEq

@[reducible] def Row : Table → Type
  | .users => UserRow
  | .sessions => SessionRow
  | .projects => ProjectRow
  | .projectMembers => MemberRow
  | .flows => FlowRow
  | .flowVersions => VersionRow
  | .connections => ConnectionRow
  | .credentials => CredentialRow
  | .debugPins => DebugPinRow
  | .executions => ExecutionRow
  | .executionNodeIo => ExecutionNodeIoRow
  | .deadLetters => DeadLetterRow
  | .runtimeGroups => GroupRow
  | .runtimeEnrollTokens => EnrollTokenRow
  | .devices => DeviceRow
  | .alertRules => AlertRuleRow
  | .alerts => AlertRow
  | .environmentProfiles => ProfileRow

inductive Cell where
  | text (value : String)
  | int (value : Nat)
  deriving DecidableEq

abbrev Key := List Cell

def textKey (value : String) : Key := [.text value]

def primaryKey : (t : Table) → Row t → Key
  | .users, row => textKey row.id
  | .sessions, row => textKey row.tokenHash
  | .projects, row => textKey row.id
  | .projectMembers, row => [.text row.projectID, .text row.userID]
  | .flows, row => textKey row.id
  | .flowVersions, row => [.text row.flowID, .int row.version]
  | .connections, row => textKey row.id
  | .credentials, row => textKey row.id
  | .debugPins, row => [.text row.flowID, .text row.nodeID, .text row.port]
  | .executions, row => textKey row.id
  | .executionNodeIo, row => textKey row.id
  | .deadLetters, row => textKey row.id
  | .runtimeGroups, row => textKey row.name
  | .runtimeEnrollTokens, row => textKey row.id
  | .devices, row => textKey row.runtimeID
  | .alertRules, row => textKey row.id
  | .alerts, row => textKey row.id
  | .environmentProfiles, row => textKey row.id

def tables : List Table :=
  [.users, .sessions, .projects, .projectMembers, .flows, .flowVersions, .connections,
    .credentials, .debugPins, .executions, .executionNodeIo, .deadLetters, .runtimeGroups,
    .runtimeEnrollTokens, .devices, .alertRules, .alerts, .environmentProfiles]

def refersTo (child : Table) (column : Row child → Option String) (parent : Table) :
    Reference Row Key where
  child
  column row := (column row).map textKey
  parent
  key := primaryKey parent

def schema : Schema Row Key where
  unique :=
    tables.map (fun t => ⟨t, primaryKey t⟩) ++
      [⟨.users, fun row : UserRow => textKey row.username⟩,
        ⟨.runtimeEnrollTokens, fun row : EnrollTokenRow => textKey row.tokenHash⟩]
  references :=
    [refersTo .sessions (fun row : SessionRow => some row.userID) .users,
      refersTo .projectMembers (fun row : MemberRow => some row.projectID) .projects,
      refersTo .projectMembers (fun row : MemberRow => some row.userID) .users,
      refersTo .flows (fun row : FlowRow => some row.projectID) .projects,
      refersTo .flows (fun row : FlowRow => row.activeProfileID) .environmentProfiles,
      refersTo .flowVersions (fun row : VersionRow => some row.flowID) .flows,
      refersTo .connections (fun row : ConnectionRow => some row.projectID) .projects,
      refersTo .credentials (fun row : CredentialRow => some row.projectID) .projects,
      refersTo .debugPins (fun row : DebugPinRow => some row.flowID) .flows,
      refersTo .executions (fun row : ExecutionRow => some row.flowID) .flows,
      refersTo .executionNodeIo (fun row : ExecutionNodeIoRow => some row.executionID) .executions,
      refersTo .deadLetters (fun row : DeadLetterRow => some row.flowID) .flows,
      refersTo .runtimeEnrollTokens (fun row : EnrollTokenRow => row.groupName) .runtimeGroups,
      refersTo .devices (fun row : DeviceRow => row.groupName) .runtimeGroups,
      refersTo .devices (fun row : DeviceRow => row.enrollTokenID) .runtimeEnrollTokens,
      refersTo .alerts (fun row : AlertRow => some row.ruleID) .alertRules,
      refersTo .environmentProfiles (fun row : ProfileRow => some row.projectID) .projects]

/--
The statements of the store.  Every table is written freely, but a rule is stored with `enabled`
as one or, by a restore, as zero or one, and never changed.
-/
def Issued : Statement Row → Prop
  | .insert .alertRules row => row.enabled = 0 ∨ row.enabled = 1
  | .update .alertRules _ => False
  | _ => True

def Reachable (s : Contents Row) : Prop :=
  ∃ writes, (∀ w ∈ writes, Issued w) ∧ run schema.exec (fun _ => []) writes = some s

variable {s : Contents Row}

theorem meets_of_reachable (h : Reachable s) : schema.Meets s := by
  obtain ⟨writes, -, hrun⟩ := h
  exact run_invariant (fun _ hexec => (Schema.exec_eq_some.mp hexec).1) Schema.meets_empty hrun

def RulesStored (s : Contents Row) : Prop :=
  ∀ row ∈ s .alertRules, row.enabled = 0 ∨ row.enabled = 1

theorem rulesStored_effect {w : Statement Row} (h : RulesStored s) (hw : Issued w) :
    RulesStored (w.effect s) := by
  cases w with
  | insert t row =>
    by_cases ht : t = .alertRules
    · subst ht
      exact List.forall_mem_append.mpr ⟨h, List.forall_mem_singleton.mpr hw⟩
    · rw [RulesStored, Statement.effect, Function.update_of_ne (Ne.symm ht)]
      exact h
  | update t change =>
    by_cases ht : t = .alertRules
    · subst ht
      exact absurd hw id
    · rw [RulesStored, Statement.effect, Function.update_of_ne (Ne.symm ht)]
      exact h
  | delete t doomed =>
    by_cases ht : t = .alertRules
    · subst ht
      exact fun row hrow => h row (List.mem_of_mem_filter hrow)
    · rw [RulesStored, Statement.effect, Function.update_of_ne (Ne.symm ht)]
      exact h

theorem rulesStored_of_reachable (h : Reachable s) : RulesStored s := by
  obtain ⟨writes, hissued, hrun⟩ := h
  have hmeets : Meets schema.exec (fun _ w => Issued w) (fun _ => []) writes :=
    meets_of_forall hissued _
  refine run_invariant_of_meets ?_ (fun row hrow => absurd hrow List.not_mem_nil) hmeets hrun
  intro d w d' hd hw hexec
  rw [← (Schema.exec_eq_some.mp hexec).2]
  exact rulesStored_effect hd hw

end DataPipe.ControlPlane.Backup
