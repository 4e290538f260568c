import DataPipe.ControlPlane.Schema
import DataPipe.Foundation.Fallible

/-!
# Backup and restore

`ExportBackup` and `RestoreBackup` of `controlplane/internal/api/backup.go`.  A restore
clears and reloads its tables in one transaction.  It knows nothing of the
environment profiles of `0007_env_profiles.sql`: they are not in the bundle, and the
projects that they refer to cannot be deleted.
-/

namespace DataPipe.ControlPlane.Backup

open DataPipe.Foundation

structure BackupFlow where
  id : String
  projectID : String
  name : String
  draftContent : List Char
  deployedVersion : Option Nat
  createdAt : String
  updatedAt : String
  logLevel : String
  deriving DecidableEq

structure BackupAlertRule where
  id : String
  name : String
  metric : String
  targetRuntimeID : String
  webhookURL : String
  enabled : Bool
  createdAt : String
  deriving DecidableEq

structure Bundle where
  formatVersion : Nat
  exportedAt : String
  users : List UserRow
  projects : List ProjectRow
  projectMembers : List MemberRow
  flows : List BackupFlow
  flowVersions : List VersionRow
  connections : List ConnectionRow
  credentials : List CredentialRow
  runtimeGroups : List GroupRow
  runtimeEnrollTokens : List EnrollTokenRow
  devices : List DeviceRow
  alertRules : List BackupAlertRule

def backupFormatVersion : Nat := 1

def BackupFlow.scan (row : FlowRow) : BackupFlow where
  id := row.id
  projectID := row.projectID
  name := row.name
  draftContent := row.draftContent
  deployedVersion := row.deployedVersion
  createdAt := row.createdAt
  updatedAt := row.updatedAt
  logLevel := row.logLevel

def BackupAlertRule.scan (row : AlertRuleRow) : BackupAlertRule where
  id := row.id
  name := row.name
  metric := row.metric
  targetRuntimeID := row.targetRuntimeID
  webhookURL := row.webhookURL
  enabled := row.enabled ≠ 0
  createdAt := row.createdAt

def exportBackup (now : String) (s : Contents Row) : Bundle where
  formatVersion := backupFormatVersion
  exportedAt := now
  users := sortByKey UserRow.id (s .users)
  projects := sortByKey ProjectRow.id (s .projects)
  projectMembers := (s .projectMembers).insertionSort fun m n =>
    m.projectID < n.projectID ∨ m.projectID = n.projectID ∧ m.userID ≤ n.userID
  flows := (sortByKey FlowRow.id (s .flows)).map BackupFlow.scan
  flowVersions := (s .flowVersions).insertionSort fun v w =>
    v.flowID < w.flowID ∨ v.flowID = w.flowID ∧ v.version ≤ w.version
  connections := sortByKey ConnectionRow.id (s .connections)
  credentials := sortByKey CredentialRow.id (s .credentials)
  runtimeGroups := sortByKey GroupRow.name (s .runtimeGroups)
  runtimeEnrollTokens := sortByKey EnrollTokenRow.id (s .runtimeEnrollTokens)
  devices := sortByKey DeviceRow.runtimeID (s .devices)
  alertRules := (sortByKey AlertRuleRow.id (s .alertRules)).map BackupAlertRule.scan

/-- The `INSERT` of a flow, which leaves `active_profile_id` null. -/
def BackupFlow.row (f : BackupFlow) : FlowRow where
  id := f.id
  projectID := f.projectID
  name := f.name
  draftContent := f.draftContent
  deployedVersion := f.deployedVersion
  createdAt := f.createdAt
  updatedAt := f.updatedAt
  logLevel := f.logLevel

def BackupAlertRule.row (r : BackupAlertRule) : AlertRuleRow where
  id := r.id
  name := r.name
  metric := r.metric
  targetRuntimeID := r.targetRuntimeID
  webhookURL := r.webhookURL
  enabled := if r.enabled then 1 else 0
  createdAt := r.createdAt

def Bundle.rows (b : Bundle) : Contents Row
  | .users => b.users
  | .projects => b.projects
  | .projectMembers => b.projectMembers
  | .flows => b.flows.map BackupFlow.row
  | .flowVersions => b.flowVersions
  | .connections => b.connections
  | .credentials => b.credentials
  | .runtimeGroups => b.runtimeGroups
  | .runtimeEnrollTokens => b.runtimeEnrollTokens
  | .devices => b.devices
  | .alertRules => b.alertRules.map BackupAlertRule.row
  | .sessions | .debugPins | .executions | .executionNodeIo | .deadLetters | .alerts
  | .environmentProfiles => []

def deleteOrder : List Table :=
  [.debugPins, .executionNodeIo, .executions, .deadLetters, .alerts, .projectMembers,
    .flowVersions, .flows, .connections, .credentials, .devices, .runtimeEnrollTokens,
    .runtimeGroups, .alertRules, .sessions, .projects, .users]

def insertOrder : List Table :=
  [.users, .projects, .projectMembers, .flows, .flowVersions, .connections, .credentials,
    .runtimeGroups, .runtimeEnrollTokens, .devices, .alertRules]

inductive RestoreError where
  | beginning
  | clearing (t : Table)
  | restoring (t : Table) (key : Key)
  | committing
  deriving DecidableEq

def restoreStatements (b : Bundle) : List (RestoreError × Statement Row) :=
  deleteOrder.map (fun t => (RestoreError.clearing t, Statement.clear t)) ++
    insertOrder.flatMap fun t =>
      (b.rows t).map fun row =>
        (RestoreError.restoring t (primaryKey t row), Statement.insert t row)

/-- The `i`th statement of the transaction may also fail for a reason outside the schema. -/
def restoreStep (faults : Nat → Bool) (d : Contents Row)
    (attempt : (RestoreError × Statement Row) × Nat) : Except RestoreError (Contents Row) :=
  if faults attempt.2 then .error attempt.1.1
  else
    match schema.exec d attempt.1.2 with
    | none => .error attempt.1.1
    | some d' => .ok d'

def restoreBackup (faults : Nat → Bool) (b : Bundle) (t : Contents Row) :
    Except RestoreError Unit × Contents Row :=
  if faults 0 then (.error .beginning, t)
  else
    match ((restoreStatements b).zipIdx 1).foldlM (restoreStep faults) t with
    -- the deferred rollback
    | .error e => (.error e, t)
    | .ok d =>
      if faults ((restoreStatements b).length + 1) then (.error .committing, t) else (.ok (), d)

def configuration : List Table :=
  [.users, .projects, .projectMembers, .flows, .flowVersions, .connections, .credentials,
    .environmentProfiles, .runtimeGroups, .runtimeEnrollTokens, .devices, .alertRules]

section Transaction

variable {faults : Nat → Bool} {b : Bundle} {t u : Contents Row}

theorem restoreBackup_error {e : RestoreError} (h : restoreBackup faults b t = (.error e, u)) :
    u = t := by
  rw [restoreBackup] at h
  split at h
  · exact (Prod.mk.inj h).2.symm
  · split at h
    · exact (Prod.mk.inj h).2.symm
    · split at h
      · exact (Prod.mk.inj h).2.symm
      · nomatch (Prod.mk.inj h).1

theorem restoreStep_eq_ok {attempt : (RestoreError × Statement Row) × Nat} :
    restoreStep (fun _ => false) t attempt = .ok u ↔ schema.exec t attempt.1.2 = some u := by
  rw [restoreStep]
  cases schema.exec t attempt.1.2 with
  | none | some => simp

theorem foldlM_restoreStep {attempts : List (RestoreError × Statement Row)} {n : Nat} :
    (attempts.zipIdx n).foldlM (restoreStep fun _ => false) t = .ok u ↔
      run schema.exec t (attempts.map Prod.snd) = some u := by
  induction attempts generalizing n t with
  | nil => exact foldlM_nil_eq_ok.trans (Option.some.injEq t u).symm.to_iff
  | cons attempt attempts ih =>
    rw [List.zipIdx_cons, foldlM_cons_eq_ok, List.map_cons, run_cons_eq_some]
    simp only [restoreStep_eq_ok, ih]

theorem map_restoreStatements (b : Bundle) :
    (restoreStatements b).map Prod.snd = deleteOrder.map Statement.clear ++
      insertOrder.flatMap fun t => (b.rows t).map (.insert t) := by
  rw [restoreStatements, List.map_append, List.map_flatMap]
  simp only [List.map_map]
  rfl

theorem restoreBackup_eq_ok :
    restoreBackup (fun _ => false) b t = (.ok (), u) ↔
      run schema.exec t (deleteOrder.map Statement.clear ++
        insertOrder.flatMap fun t => (b.rows t).map (.insert t)) = some u := by
  rw [← map_restoreStatements, ← foldlM_restoreStep (n := 1), restoreBackup]
  cases ((restoreStatements b).zipIdx 1).foldlM (restoreStep fun _ => false) t with
  | error | ok => simp

end Transaction

def normalized : (t : Table) → Row t → Row t
  | .flows, row => { row with activeProfileID := none }
  | .alertRules, row => { row with enabled := if row.enabled ≠ 0 then 1 else 0 }
  | _, row => row

theorem primaryKey_normalized (t : Table) (row : Row t) :
    primaryKey t (normalized t row) = primaryKey t row := by
  cases t <;> rfl

variable {t : Table}

theorem rows_exportBackup_perm (now : String) (s : Contents Row) (ht : t ∈ insertOrder) :
    ((exportBackup now s).rows t).Perm ((s t).map (normalized t)) := by
  have hkept : ∀ {α : Type} {rows sorted : List α}, sorted.Perm rows →
      sorted.Perm (rows.map fun row => row) := by
    intro α rows sorted hperm
    rw [List.map_id']
    exact hperm
  cases t with
  | users | projects | connections | credentials | runtimeGroups | runtimeEnrollTokens | devices =>
    exact hkept (perm_sortByKey _ _)
  | projectMembers | flowVersions => exact hkept (List.perm_insertionSort _ _)
  | flows =>
    have hrow : BackupFlow.row ∘ BackupFlow.scan = normalized .flows := rfl
    have hrows : (exportBackup now s).rows .flows =
        (sortByKey FlowRow.id (s .flows)).map (normalized .flows) := by
      rw [← hrow, ← List.map_map]
      rfl
    rw [hrows]
    exact (perm_sortByKey _ _).map _
  | alertRules =>
    have hrow : BackupAlertRule.row ∘ BackupAlertRule.scan = normalized .alertRules := by
      funext row
      simp [BackupAlertRule.row, BackupAlertRule.scan, normalized]
    have hrows : (exportBackup now s).rows .alertRules =
        (sortByKey AlertRuleRow.id (s .alertRules)).map (normalized .alertRules) := by
      rw [← hrow, ← List.map_map]
      rfl
    rw [hrows]
    exact (perm_sortByKey _ _).map _
  | sessions | debugPins | executions | executionNodeIo | deadLetters | alerts
  | environmentProfiles => simp [insertOrder] at ht

theorem rows_eq_nil (b : Bundle) (ht : t ∉ insertOrder) : b.rows t = [] := by
  cases t with
  | sessions | debugPins | executions | executionNodeIo | deadLetters | alerts
  | environmentProfiles => rfl
  | users | projects | projectMembers | flows | flowVersions | connections | credentials
  | runtimeGroups | runtimeEnrollTokens | devices | alertRules => simp [insertOrder] at ht

theorem meets_normalized {s : Contents Row} (h : schema.Meets s) :
    schema.Meets fun t => (s t).map (normalized t) := by
  refine h.map ?_ ?_ ?_
  · intro u hu row
    rcases List.mem_append.mp hu with hprimary | hunique
    · obtain ⟨t, -, rfl⟩ := List.mem_map.mp hprimary
      exact primaryKey_normalized t row
    · simp only [List.mem_cons, List.not_mem_nil, or_false] at hunique
      rcases hunique with rfl | rfl
      · rfl
      · rfl
  · intro r hr row
    have hkey : ∀ r ∈ schema.references, r.key = primaryKey r.parent := by
      simp only [schema, refersTo, List.forall_mem_cons, List.not_mem_nil, false_implies,
        implies_true, and_self]
    rw [hkey r hr]
    exact primaryKey_normalized r.parent row
  · simp only [schema, refersTo, normalized, List.forall_mem_cons, List.not_mem_nil, false_implies,
      implies_true, and_self, imp_self, Option.map_none, Option.not_mem_none]

theorem deleteOrder_children_first : ∀ cleared ∈ deleteOrder.inits, ∀ r ∈ schema.references,
    r.child ∉ cleared → r.parent ∉ cleared ∨ r.child = .environmentProfiles := by
  decide +kernel

theorem insertOrder_parents_first : ∀ loaded ∈ insertOrder.inits, ∀ r ∈ schema.references,
    r.child ∈ loaded → r.parent ∈ loaded ∨ r.parent = .environmentProfiles := by
  decide +kernel

theorem mem_deleteOrder (ht : t ≠ .environmentProfiles) : t ∈ deleteOrder := by
  cases t with
  | environmentProfiles => exact absurd rfl ht
  | _ => decide

section Restore

variable {s t u : Contents Row} {now : String}

theorem meets_rows_exportBackup (h : schema.Meets s) : schema.Meets (exportBackup now s).rows := by
  have hclosed : schema.Closed (· ∈ insertOrder) fun t => (s t).map (normalized t) := by
    intro r hr hchild
    have hall := (List.mem_inits _ _).mpr (List.prefix_refl insertOrder)
    rcases insertOrder_parents_first insertOrder hall r hr (of_decide_eq_true hchild)
      with hparent | hprofiles
    · exact .inl (decide_eq_true hparent)
    · have hnone : ∀ r ∈ schema.references, r.parent = .environmentProfiles →
          ∀ row, r.column (normalized r.child row) = none := by
        simp only [schema, refersTo, normalized, List.forall_mem_cons, List.not_mem_nil,
          false_implies, implies_true, and_self, Option.map_none, reduceCtorEq]
      refine .inr fun row hrow => ?_
      obtain ⟨old, -, rfl⟩ := List.mem_map.mp hrow
      exact hnone r hr hprofiles old
  refine ((meets_normalized h).restrict hclosed).perm fun t => ?_
  rw [Contents.restrict]
  by_cases ht : t ∈ insertOrder
  · rw [if_pos (decide_eq_true ht)]
    exact rows_exportBackup_perm now s ht
  · rw [if_neg (by simpa using ht), rows_eq_nil _ ht]

theorem run_clear_deleteOrder (h : schema.Meets t) (hprofiles : t .environmentProfiles = []) :
    run schema.exec t (deleteOrder.map Statement.clear) = some fun _ => [] := by
  have hclosed : ∀ cleared, cleared <+: deleteOrder → schema.Closed (· ∉ cleared) t := by
    intro cleared hprefix r hr hchild
    have hcleared := (List.mem_inits _ _).mpr hprefix
    rcases deleteOrder_children_first cleared hcleared r hr (of_decide_eq_true hchild)
      with hparent | hchild
    · exact .inl (decide_eq_true hparent)
    · have hempty : t r.child = [] := by rw [hchild, hprofiles]
      refine .inr fun row hrow => ?_
      rw [hempty] at hrow
      exact absurd hrow List.not_mem_nil
  have hnothing : t.restrict (· ∉ deleteOrder) = fun _ => [] := by
    funext u
    by_cases hu : u = .environmentProfiles
    · subst hu
      rw [Contents.restrict, hprofiles, ite_self]
    · simp [Contents.restrict, mem_deleteOrder hu]
  rw [h.run_clear hclosed, hnothing]

variable {b : Bundle}

theorem run_load_insertOrder (h : schema.Meets b.rows) :
    run schema.exec (fun _ => []) (insertOrder.flatMap fun t => (b.rows t).map (.insert t)) =
      some b.rows := by
  have hself : ∀ r ∈ schema.references, r.child ≠ r.parent := by decide
  have hclosed : ∀ loaded, loaded <+: insertOrder → schema.Closed (· ∈ loaded) b.rows := by
    intro loaded hprefix r hr hchild
    have hloaded := (List.mem_inits _ _).mpr hprefix
    rcases insertOrder_parents_first loaded hloaded r hr (of_decide_eq_true hchild)
      with hparent | hprofiles
    · exact .inl (decide_eq_true hparent)
    · exact .inr (h.column_eq_none hr (by rw [hprofiles]; rfl))
  have hall : b.rows.restrict (· ∈ insertOrder) = b.rows := by
    funext u
    by_cases hu : u ∈ insertOrder
    · simp [Contents.restrict, hu]
    · simp [Contents.restrict, hu, rows_eq_nil]
  rw [h.run_load hself (by decide) hclosed, hall]

theorem restoreBackup_ok (hs : schema.Meets s) (ht : schema.Meets t)
    (hprofiles : t .environmentProfiles = []) :
    restoreBackup (fun _ => false) (exportBackup now s) t =
      (.ok (), (exportBackup now s).rows) :=
  restoreBackup_eq_ok.mpr (run_append_eq_some.mpr
    ⟨_, run_clear_deleteOrder ht hprofiles, run_load_insertOrder (meets_rows_exportBackup hs)⟩)

theorem profiles_eq_nil_of_ok (ht : schema.Meets t)
    (h : restoreBackup (fun _ => false) b t = (.ok (), u)) : t .environmentProfiles = [] := by
  obtain ⟨cleared, hclear, -⟩ := run_append_eq_some.mp (restoreBackup_eq_ok.mp h)
  have hmeets : schema.Meets cleared :=
    run_invariant (fun _ hexec => (Schema.exec_eq_some.mp hexec).1) ht hclear
  obtain rfl := Schema.run_clear_eq hclear
  refine List.eq_nil_iff_forall_not_mem.mpr fun row hrow => ?_
  have hreference : refersTo .environmentProfiles (fun row : ProfileRow => some row.projectID)
      .projects ∈ schema.references := by
    simp [schema]
  have hproject := hmeets.2 _ hreference row hrow (textKey row.projectID) rfl
  exact absurd hproject List.not_mem_nil

theorem map_normalized_eq (hs : Reachable s) (hprofiles : s .environmentProfiles = [])
    (t : Table) : (s t).map (normalized t) = s t := by
  have hsame : ∀ row ∈ s t, normalized t row = row := by
    intro row hrow
    cases t with
    | flows =>
      have hreference : refersTo .flows (fun row : FlowRow => row.activeProfileID)
          .environmentProfiles ∈ schema.references := by
        simp [schema]
      have hnone := (meets_of_reachable hs).column_eq_none hreference hprofiles row hrow
      have hactive : row.activeProfileID = none := Option.map_eq_none_iff.mp hnone
      rw [normalized, ← hactive]
    | alertRules =>
      have henabled : (if row.enabled ≠ 0 then 1 else 0) = row.enabled := by
        rcases rulesStored_of_reachable hs row hrow with hzero | hone
        · simp [hzero]
        · simp [hone]
      rw [normalized, henabled]
    | _ => rfl
  rw [List.map_congr_left hsame, List.map_id']

end Restore

/--
A restore that fails leaves the database as it was.  It succeeds and brings every configuration
table back exactly when neither the exported nor the current database has environment profiles.
-/
theorem restore_backup_iff {s t : Contents Row} (hs : Reachable s) (ht : schema.Meets t)
    (now : String) :
    (∀ faults e u, restoreBackup faults (exportBackup now s) t = (.error e, u) → u = t) ∧
    ((∃ u, restoreBackup (fun _ => false) (exportBackup now s) t = (.ok (), u) ∧
        ∀ table ∈ configuration, (u table).Perm (s table)) ↔
      s .environmentProfiles = [] ∧ t .environmentProfiles = []) := by
  refine ⟨fun faults e u h => restoreBackup_error h, ?_, ?_⟩
  · rintro ⟨u, hok, hsame⟩
    have hprofiles := profiles_eq_nil_of_ok ht hok
    rw [restoreBackup_ok (meets_of_reachable hs) ht hprofiles] at hok
    obtain ⟨-, rfl⟩ := Prod.mk.inj hok
    have hperm := hsame .environmentProfiles (by decide)
    exact ⟨hperm.symm.eq_nil, hprofiles⟩
  · rintro ⟨hprofiles, hprofiles'⟩
    refine ⟨_, restoreBackup_ok (meets_of_reachable hs) ht hprofiles', fun table htable => ?_⟩
    by_cases hexported : table ∈ insertOrder
    · have hperm := rows_exportBackup_perm now s hexported
      rw [map_normalized_eq hs hprofiles] at hperm
      exact hperm
    · have hlast : ∀ table ∈ configuration, table ∉ insertOrder → table = .environmentProfiles := by
        decide
      obtain rfl := hlast table htable hexported
      rw [hprofiles]
      exact .nil

/-- A project with a flow, then a profile of the project, which the flow is deployed with. -/
def projectWithFlow : List (Statement Row) :=
  [.insert .projects { id := "p", name := "line", createdAt := "" },
    .insert .flows
      { id := "f", projectID := "p", name := "pipe", draftContent := [], createdAt := ""
        updatedAt := "" }]

def activeProfile : List (Statement Row) :=
  [.insert .environmentProfiles
      { id := "e", projectID := "p", name := "prod", valuesJSON := "\x7b\x7d".toList
        createdAt := "" },
    .update .flows fun row => { row with activeProfileID := some "e" }]

theorem issued_projectWithFlow : ∀ w ∈ projectWithFlow, Issued w := by
  simp [projectWithFlow, Issued]

theorem project_restored :
    ∃ s u, run schema.exec (fun _ => []) projectWithFlow = some s ∧
      restoreBackup (fun _ => false) (exportBackup "now" s) (fun _ => []) = (.ok (), u) ∧
      ∀ table ∈ configuration, (u table).Perm (s table) := by
  obtain ⟨s, hrun, hprofiles⟩ : ∃ s, run schema.exec (fun _ => []) projectWithFlow = some s ∧
      (s .environmentProfiles).isEmpty := by
    decide +kernel
  have hreachable : Reachable s := ⟨projectWithFlow, issued_projectWithFlow, hrun⟩
  obtain ⟨u, hok, hsame⟩ := (restore_backup_iff hreachable Schema.meets_empty "now").2.mpr
    ⟨List.isEmpty_iff.mp hprofiles, rfl⟩
  exact ⟨s, u, hrun, hok, hsame⟩

/--
With a profile in use, a restore into the same database fails, and one into an empty database
loses the profile and the flow's choice of it.
-/
theorem profile_not_restored :
    ∃ s u, Reachable s ∧
      restoreBackup (fun _ => false) (exportBackup "now" s) s =
        (.error (.clearing .projects), s) ∧
      restoreBackup (fun _ => false) (exportBackup "now" s) (fun _ => []) = (.ok (), u) ∧
      (s .environmentProfiles).map ProfileRow.id = ["e"] ∧ u .environmentProfiles = [] ∧
      (s .flows).map FlowRow.activeProfileID = [some "e"] ∧
      (u .flows).map FlowRow.activeProfileID = [none] := by
  obtain ⟨s, hrun, herror, hprofile, hactive, hlost⟩ :
      ∃ s, run schema.exec (fun _ => []) (projectWithFlow ++ activeProfile) = some s ∧
        (restoreBackup (fun _ => false) (exportBackup "now" s) s).1 = .error (.clearing .projects) ∧
        (s .environmentProfiles).map ProfileRow.id = ["e"] ∧
        (s .flows).map FlowRow.activeProfileID = [some "e"] ∧
        ((exportBackup "now" s).rows .flows).map FlowRow.activeProfileID = [none] := by
    decide +kernel
  have hissued : ∀ w ∈ projectWithFlow ++ activeProfile, Issued w :=
    List.forall_mem_append.mpr ⟨issued_projectWithFlow, by simp [activeProfile, Issued]⟩
  have hreachable : Reachable s := ⟨_, hissued, hrun⟩
  have hfailed : restoreBackup (fun _ => false) (exportBackup "now" s) s =
      (.error (.clearing .projects), s) := by
    cases hrestore : restoreBackup (fun _ => false) (exportBackup "now" s) s with
    | mk outcome u =>
      rw [hrestore] at herror
      obtain rfl : outcome = .error (.clearing .projects) := herror
      rw [restoreBackup_error hrestore]
  exact ⟨s, _, hreachable, hfailed,
    restoreBackup_ok (meets_of_reachable hreachable) Schema.meets_empty rfl, hprofile, rfl,
    hactive, hlost⟩

end DataPipe.ControlPlane.Backup
