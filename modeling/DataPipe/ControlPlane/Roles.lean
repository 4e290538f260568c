import DataPipe.ControlPlane.Connections
import Mathlib.Data.List.AList

/-!
# Roles of project members

The table `project_members` and its two writers, `setProjectMember` and `removeProjectMember` of
`api/projects.go`.  A row's role is text, which `RequireProjectRole` ranks as `auth/roles.go` does.
-/

namespace DataPipe.ControlPlane

def ProjectRole.ofString : String → ProjectRole
  | "viewer" => .viewer
  | "operator" => .operator
  | "editor" => .editor
  | "project_admin" => .projectAdmin
  | _ => .other

/-- A member's role by the primary key, `(project_id, user_id)`. -/
abbrev ProjectMembers := AList fun _ : String × String => String

namespace ProjectMembers

def memberships (members : ProjectMembers) : List Membership :=
  members.entries.map fun row => ⟨row.1.1, row.1.2, .ofString row.2⟩

def setProjectRole (members : ProjectMembers) (projectID userID role : String) : ProjectMembers :=
  members.insert (projectID, userID) role

def projectRoleOf (members : ProjectMembers) (userID projectID : String) : Option String :=
  members.lookup (projectID, userID)

/-- The status and the table afterwards.  `body` is the decoded role, and `stored` says whether the
database takes the row. -/
def setProjectMember (members : ProjectMembers) (user : User) (projectID targetUserID : String)
    (body : Option String) (stored : Bool) : Nat × ProjectMembers :=
  if requireProjectRole members.memberships user projectID .projectAdmin then
    match body with
    | none => (400, members)
    | some role =>
      if role = "" then (400, members)
      else if stored then (200, members.setProjectRole projectID targetUserID role)
      else (500, members)
  else (403, members)

def removeProjectMember (members : ProjectMembers) (user : User) (projectID targetUserID : String)
    (deleted : Bool) : Nat × ProjectMembers :=
  if requireProjectRole members.memberships user projectID .projectAdmin then
    if deleted then (204, members.erase (projectID, targetUserID))
    else (500, members)
  else (403, members)

variable {members : ProjectMembers} {user : User} {projectID : String}

theorem find?_memberships (members : ProjectMembers) (projectID userID : String) :
    (members.memberships.find? fun m => m.projectID = projectID ∧ m.userID = userID) =
      (members.projectRoleOf userID projectID).map fun role =>
        ⟨projectID, userID, .ofString role⟩ := by
  rw [memberships, projectRoleOf, AList.lookup]
  induction members.entries with
  | nil => rfl
  | cons row rows ih =>
    obtain ⟨⟨project, user⟩, role⟩ := row
    by_cases hkey : project = projectID ∧ user = userID
    · obtain ⟨rfl, rfl⟩ := hkey
      simp
    · rw [List.dlookup_cons_ne]
      · simpa [hkey] using ih
      · simpa [eq_comm] using hkey

end ProjectMembers

theorem ProjectRole.atLeast_other_iff {least : ProjectRole} (h : least ≠ .other) :
    ProjectRole.other.atLeast least = true ↔ least = .viewer := by
  revert h
  cases least <;> decide

/-- A member's role is checked exactly, unless it is a text that names no role and only a viewer is
asked for: such a text ranks as a viewer. -/
theorem project_role_check_exact_iff (members : ProjectMembers) (user : User)
    (projectID : String) {least : ProjectRole} (hleast : least ≠ .other) :
    (requireProjectRole members.memberships user projectID least = true ↔
      user.systemAdmin = true ∨ ∃ role ∈ members.projectRoleOf user.id projectID,
        ProjectRole.ofString role ≠ .other ∧ (ProjectRole.ofString role).atLeast least = true) ↔
    user.systemAdmin = true ∨ least ≠ .viewer ∨
      ∀ role ∈ members.projectRoleOf user.id projectID, ProjectRole.ofString role ≠ .other := by
  rw [requireProjectRole, ProjectMembers.find?_memberships]
  cases hrole : members.projectRoleOf user.id projectID with
  | none => simp
  | some role =>
    by_cases hother : ProjectRole.ofString role = .other
    · simp [hother, ProjectRole.atLeast_other_iff hleast]
      tauto
    · simp [hother]

theorem project_role_check_exact_iff_editor :
    requireProjectRole (ProjectMembers.setProjectRole ∅ "p" "u" "operator").memberships
      ⟨"u", false⟩ "p" .editor = false := by
  have hexact := (project_role_check_exact_iff (ProjectMembers.setProjectRole ∅ "p" "u" "operator")
    ⟨"u", false⟩ "p" (nofun : ProjectRole.editor ≠ .other)).mpr (.inr (.inl nofun))
  rw [Bool.eq_false_iff, Ne, hexact]
  decide

theorem unknown_role_passes_viewer :
    let members := ((ProjectMembers.setProjectRole ∅ "p" "admin" "project_admin").setProjectMember
      ⟨"admin", false⟩ "p" "u" (some "none") true).2
    members.projectRoleOf "u" "p" = some "none" ∧ ProjectRole.ofString "none" = .other ∧
      requireProjectRole members.memberships ⟨"u", false⟩ "p" .viewer = true := by
  decide

end DataPipe.ControlPlane
