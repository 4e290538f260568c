import DataPipe.Foundation.Keyed
import DataPipe.Foundation.Run

/-!
# Fleet enrollment

The tables and calls of `controlplane/internal/api/fleet.go`.  Every call is a
sequence of SQL statements, each of which can fail by a constraint of
`0004_fleet.sql` or for a reason outside the model.
-/

namespace DataPipe.ControlPlane.Enrollment

open DataPipe.Foundation

/-- An id made by `uuid.NewString`, so that the empty string stands for no id. -/
structure Uuid where
  text : String
  nonempty : text ≠ ""
  deriving DecidableEq

structure GroupRow where
  name : String
  description : String
  createdAt : String
  deriving DecidableEq

structure EnrollTokenRow where
  id : Uuid
  tokenHash : String
  displayName : String
  groupName : Option String
  createdBy : String
  createdAt : String
  usedByRuntimeID : Option String := none
  revokedAt : Option String := none
  deriving DecidableEq

structure DeviceRow where
  runtimeID : String
  kind : String
  displayName : String := ""
  groupName : Option String := none
  enrollTokenID : Option Uuid := none
  enrolledAt : String
  deriving DecidableEq

structure Fleet where
  groups : List GroupRow := []
  tokens : List EnrollTokenRow := []
  devices : List DeviceRow := []
  deriving DecidableEq

/-- Only Postgres checks the foreign keys: the SQLite connection does not turn them on. -/
inductive Dialect where
  | sqlite
  | postgres
  deriving DecidableEq

def Dialect.admits (d : Dialect) (present : Bool) : Bool :=
  match d with
  | .sqlite => true
  | .postgres => present

namespace Fleet

variable (db : Fleet)

def deviceRow (runtimeID : String) : Option DeviceRow :=
  db.devices.find? (·.runtimeID = runtimeID)

def findEnrollTokenByHash (hash : String) : Option EnrollTokenRow :=
  db.tokens.find? (·.tokenHash = hash)

def hasGroup (name : Option String) : Bool :=
  match name with
  | none => true
  | some name => db.groups.any (·.name = name)

def hasToken (id : Option Uuid) : Bool :=
  match id with
  | none => true
  | some id => db.tokens.any (·.id = id)

def bindings : List (String × Option Uuid) :=
  db.devices.map fun row => (row.runtimeID, row.enrollTokenID)

def hashes : List (Uuid × String) := db.tokens.map fun row => (row.id, row.tokenHash)

end Fleet

def Bound (db : Fleet) (runtimeID : String) (id : Uuid) : Prop := (runtimeID, some id) ∈ db.bindings

instance (db : Fleet) (runtimeID : String) (id : Uuid) : Decidable (Bound db runtimeID id) :=
  inferInstanceAs (Decidable ((runtimeID, some id) ∈ db.bindings))

inductive Statement where
  | insertGroup (row : GroupRow)
  | insertToken (row : EnrollTokenRow)
  | insertDevice (row : DeviceRow)
  | revokeToken (id now : String)
  | markUsed (id : Uuid) (runtimeID : String)
  | renameDevice (runtimeID displayName : String)
  | assignGroup (runtimeID : String) (group : Option String)
  | unassignDevices (group : String)
  | unassignTokens (group : String)
  | deleteGroup (name : String)

namespace Statement

def permitted (d : Dialect) (db : Fleet) : Statement → Bool
  | .insertGroup row => row.name ∉ db.groups.map GroupRow.name
  | .insertToken row =>
    row.id ∉ db.tokens.map EnrollTokenRow.id &&
      row.tokenHash ∉ db.tokens.map EnrollTokenRow.tokenHash &&
      d.admits (db.hasGroup row.groupName)
  | .insertDevice row =>
    row.runtimeID ∉ db.devices.map DeviceRow.runtimeID &&
      d.admits (db.hasGroup row.groupName && db.hasToken row.enrollTokenID)
  | .assignGroup runtimeID group =>
    d.admits (db.hasGroup group || (db.deviceRow runtimeID).isNone)
  | .deleteGroup name =>
    d.admits (!(db.devices.any (·.groupName = some name) ||
      db.tokens.any (·.groupName = some name)))
  | .revokeToken .. | .markUsed .. | .renameDevice .. | .unassignDevices _ | .unassignTokens _ =>
    true

def apply (db : Fleet) : Statement → Fleet
  | .insertGroup row => { db with groups := db.groups ++ [row] }
  | .insertToken row => { db with tokens := db.tokens ++ [row] }
  | .insertDevice row => { db with devices := db.devices ++ [row] }
  | .revokeToken id now =>
    { db with tokens := updateRows (·.id.text = id) ({ · with revokedAt := some now }) db.tokens }
  | .markUsed id runtimeID =>
    { db with
      tokens := updateRows (·.id = id) ({ · with usedByRuntimeID := some runtimeID }) db.tokens }
  | .renameDevice runtimeID displayName =>
    { db with
      devices := updateRows (·.runtimeID = runtimeID) ({ · with displayName }) db.devices }
  | .assignGroup runtimeID group =>
    { db with
      devices := updateRows (·.runtimeID = runtimeID) ({ · with groupName := group }) db.devices }
  | .unassignDevices group =>
    { db with
      devices :=
        updateRows (·.groupName = some group) ({ · with groupName := none }) db.devices }
  | .unassignTokens group =>
    { db with
      tokens := updateRows (·.groupName = some group) ({ · with groupName := none }) db.tokens }
  | .deleteGroup name => { db with groups := db.groups.filter (·.name ≠ name) }

end Statement

def attempt (d : Dialect) (fails : Bool) (db : Fleet) (statement : Statement) : Option Fleet :=
  if !fails && statement.permitted d db then some (statement.apply db) else none

def execAll (d : Dialect) : List Statement → List Bool → Fleet → Fleet
  | [], _, db => db
  | statement :: statements, faults, db =>
    match attempt d (faults.headD false) db statement with
    | none => db
    | some db => execAll d statements faults.tail db

def groupArg (group : String) : Option String := if group = "" then none else some group

/-- What `CreateEnrollToken` stores of the token it generated. -/
def issuedToken (hash : String → String) (id : Uuid) (plaintext displayName group createdBy
    now : String) : EnrollTokenRow where
  id
  tokenHash := hash plaintext
  displayName
  groupName := groupArg group
  createdBy
  createdAt := now

def deleteRuntimeGroup (name : String) : List Statement :=
  [.unassignDevices name, .unassignTokens name, .deleteGroup name]

def assignRuntimeGroup (db : Fleet) (runtimeID displayName : String) (group : Option String)
    (now : String) : List Statement :=
  (match db.deviceRow runtimeID with
    | none => [Statement.insertDevice { runtimeID, kind := "server", enrolledAt := now }]
    | some _ => []) ++
  (if displayName ≠ "" then [Statement.renameDevice runtimeID displayName] else []) ++
  match group with
  | none => []
  | some group => [Statement.assignGroup runtimeID (groupArg group)]

structure Registration where
  runtimeID : String
  kind : String
  enrollmentToken : String
  now : String
  deriving DecidableEq

inductive AuthError where
  | database
  | tokenRequired (runtimeID : String)
  | invalidToken
  | revokedToken
  | differentToken (runtimeID : String)
  | enrolling
  deriving DecidableEq

inductive Verdict where
  | accepted
  | rejected (error : AuthError)
  deriving DecidableEq

def Registration.unenrolled (call : Registration) : DeviceRow where
  runtimeID := call.runtimeID
  kind := call.kind
  enrolledAt := call.now

def Registration.enrolled (call : Registration) (id : Uuid) (group : String) : DeviceRow where
  runtimeID := call.runtimeID
  kind := call.kind
  groupName := groupArg group
  enrollTokenID := some id
  enrolledAt := call.now

/-- Where a call of `Authenticate` stands: before each of its statements, or at its end. -/
inductive AuthPc where
  | readDevice
  | insertUnenrolled
  | findToken (existing : Option DeviceRow)
  | enroll (id : Uuid) (group : String)
  | markUsed (id : Uuid)
  | done (verdict : Verdict)
  deriving DecidableEq

section Authenticate

variable (d : Dialect) (hash : String → String)

/-- One statement of `Authenticate` and what the call does until the next one. -/
def advance (fails : Bool) (db : Fleet) (call : Registration) : AuthPc → Option (Fleet × AuthPc)
  | .readDevice =>
    if fails then some (db, .done (.rejected .database))
    else
      let existing := db.deviceRow call.runtimeID
      if call.enrollmentToken = "" then
        match existing with
        | some row =>
          if row.enrollTokenID.isSome then
            some (db, .done (.rejected (.tokenRequired call.runtimeID)))
          else some (db, .done .accepted)
        | none => some (db, .insertUnenrolled)
      else some (db, .findToken existing)
  | .insertUnenrolled =>
    match attempt d fails db (.insertDevice call.unenrolled) with
    | none => some (db, .done (.rejected .database))
    | some db => some (db, .done .accepted)
  | .findToken existing =>
    match if fails then none else db.findEnrollTokenByHash (hash call.enrollmentToken) with
    | none => some (db, .done (.rejected .invalidToken))
    | some tok =>
      if tok.revokedAt.isSome then some (db, .done (.rejected .revokedToken))
      else
        match existing with
        | some row =>
          if row.enrollTokenID ≠ some tok.id then
            some (db, .done (.rejected (.differentToken call.runtimeID)))
          else some (db, .done .accepted)
        | none => some (db, .enroll tok.id (tok.groupName.getD ""))
  | .enroll id group =>
    match attempt d fails db (.insertDevice (call.enrolled id group)) with
    | none => some (db, .done (.rejected .enrolling))
    | some db => some (db, .markUsed id)
  -- the result of the last statement is ignored
  | .markUsed id =>
    some ((attempt d fails db (.markUsed id call.runtimeID)).getD db, .done .accepted)
  | .done _ => none

/-- The statements of a call that no other call interrupts; none of them fails beyond the list. -/
def finish (call : Registration) : Nat → List Bool → Fleet → AuthPc → Fleet × AuthPc
  | 0, _, db, pc => (db, pc)
  | fuel + 1, faults, db, pc =>
    match advance d hash (faults.headD false) db call pc with
    | none => (db, pc)
    | some (db, pc) => finish call fuel faults.tail db pc

def authenticate (faults : List Bool) (db : Fleet) (call : Registration) : Fleet × AuthPc :=
  finish d hash call 4 faults db .readDevice

end Authenticate

namespace Statement

def newBindings : Statement → List (String × Option Uuid)
  | .insertDevice row => [(row.runtimeID, row.enrollTokenID)]
  | _ => []

def newHashes : Statement → List (Uuid × String)
  | .insertToken row => [(row.id, row.tokenHash)]
  | _ => []

end Statement

section Frame

variable (statement : Statement) (db : Fleet)

theorem bindings_apply : (statement.apply db).bindings = db.bindings ++ statement.newBindings := by
  cases statement with
  | insertDevice row => exact List.map_append
  | renameDevice | assignGroup | unassignDevices =>
    refine Eq.trans ?_ (List.append_nil _).symm
    refine map_updateRows ?_ db.devices
    exact fun _ => rfl
  | _ => exact (List.append_nil _).symm

theorem hashes_apply : (statement.apply db).hashes = db.hashes ++ statement.newHashes := by
  cases statement with
  | insertToken row => exact List.map_append
  | revokeToken | markUsed | unassignTokens =>
    refine Eq.trans ?_ (List.append_nil _).symm
    refine map_updateRows ?_ db.tokens
    exact fun _ => rfl
  | _ => exact (List.append_nil _).symm

end Frame

structure Fleet.Unique (db : Fleet) : Prop where
  runtimes : (db.bindings.map Prod.fst).Nodup
  tokens : (db.hashes.map Prod.fst).Nodup
  digests : (db.hashes.map Prod.snd).Nodup

variable {runtimeID : String} {db : Fleet}

theorem eq_of_mem_bindings (hunique : db.Unique) {id id' : Option Uuid}
    (h : (runtimeID, id) ∈ db.bindings) (h' : (runtimeID, id') ∈ db.bindings) : id = id' :=
  congrArg Prod.snd (List.inj_on_of_nodup_map hunique.runtimes h h' rfl)

theorem Fleet.unique_empty : Fleet.Unique {} := ⟨List.nodup_nil, List.nodup_nil, List.nodup_nil⟩

section Attempt

variable {d : Dialect} {fails : Bool} {db db' : Fleet} {statement : Statement}

theorem attempt_eq_some (h : attempt d fails db statement = some db') :
    statement.permitted d db = true ∧ statement.apply db = db' := by
  obtain ⟨hguard, hdb⟩ := Option.ite_none_right_eq_some.mp h
  exact ⟨(Bool.and_eq_true _ _ ▸ hguard).2, Option.some.inj hdb⟩

theorem map_fst_bindings : db.bindings.map Prod.fst = db.devices.map DeviceRow.runtimeID := by
  rw [Fleet.bindings, List.map_map]
  rfl

theorem map_fst_hashes : db.hashes.map Prod.fst = db.tokens.map EnrollTokenRow.id := by
  rw [Fleet.hashes, List.map_map]
  rfl

theorem Fleet.Unique.apply (hunique : db.Unique) (hpermitted : statement.permitted d db = true) :
    (statement.apply db).Unique where
  runtimes := by
    rw [bindings_apply]
    cases statement with
    | insertDevice row =>
      obtain ⟨hfresh, -⟩ := (Bool.and_eq_true _ _).mp hpermitted
      rw [List.map_append]
      refine nodup_concat_of_notMem hunique.runtimes ?_
      rw [map_fst_bindings]
      exact of_decide_eq_true hfresh
    | _ => exact (List.append_nil db.bindings).symm ▸ hunique.runtimes
  tokens := by
    rw [hashes_apply]
    cases statement with
    | insertToken row =>
      obtain ⟨hkeys, -⟩ := (Bool.and_eq_true _ _).mp hpermitted
      obtain ⟨hfresh, -⟩ := (Bool.and_eq_true _ _).mp hkeys
      rw [List.map_append]
      refine nodup_concat_of_notMem hunique.tokens ?_
      rw [map_fst_hashes]
      exact of_decide_eq_true hfresh
    | _ => exact (List.append_nil db.hashes).symm ▸ hunique.tokens
  digests := by
    rw [hashes_apply]
    cases statement with
    | insertToken row =>
      obtain ⟨hkeys, -⟩ := (Bool.and_eq_true _ _).mp hpermitted
      obtain ⟨-, hfresh⟩ := (Bool.and_eq_true _ _).mp hkeys
      rw [List.map_append]
      refine nodup_concat_of_notMem hunique.digests ?_
      rw [Fleet.hashes, List.map_map]
      exact of_decide_eq_true hfresh
    | _ => exact (List.append_nil db.hashes).symm ▸ hunique.digests

end Attempt

section Moves

variable (d : Dialect) (hash : String → String) (db : Fleet) (call : Registration)

structure Usable (tok : EnrollTokenRow) : Prop where
  found : db.findEnrollTokenByHash (hash call.enrollmentToken) = some tok
  valid : tok.revokedAt = none

inductive Moves : AuthPc → Fleet → AuthPc → Prop where
  | rejects {pc : AuthPc} (error : AuthError) : Moves pc db (.done (.rejected error))
  | known {row : DeviceRow} (hdevice : db.deviceRow call.runtimeID = some row)
      (hunbound : row.enrollTokenID = none) (htoken : call.enrollmentToken = "") :
      Moves .readDevice db (.done .accepted)
  | unknown (hdevice : db.deviceRow call.runtimeID = none) (htoken : call.enrollmentToken = "") :
      Moves .readDevice db .insertUnenrolled
  | presents (htoken : call.enrollmentToken ≠ "") :
      Moves .readDevice db (.findToken (db.deviceRow call.runtimeID))
  | recorded (hinsert : (Statement.insertDevice call.unenrolled).permitted d db = true) :
      Moves .insertUnenrolled ((Statement.insertDevice call.unenrolled).apply db) (.done .accepted)
  | recognised {row : DeviceRow} {tok : EnrollTokenRow} (husable : Usable hash db call tok)
      (hbound : row.enrollTokenID = some tok.id) :
      Moves (.findToken (some row)) db (.done .accepted)
  | finds {tok : EnrollTokenRow} (husable : Usable hash db call tok) :
      Moves (.findToken none) db (.enroll tok.id (tok.groupName.getD ""))
  | enrolls {id : Uuid} {group : String}
      (hinsert : (Statement.insertDevice (call.enrolled id group)).permitted d db = true) :
      Moves (.enroll id group) ((Statement.insertDevice (call.enrolled id group)).apply db)
        (.markUsed id)
  | marks (id : Uuid) :
      Moves (.markUsed id) ((Statement.markUsed id call.runtimeID).apply db) (.done .accepted)
  | unmarked (id : Uuid) : Moves (.markUsed id) db (.done .accepted)

variable {fails : Bool} {db' : Fleet} {pc' : AuthPc} {d hash db call}

theorem moves_of_advance {pc : AuthPc} (h : advance d hash fails db call pc = some (db', pc')) :
    Moves d hash db call pc db' pc' := by
  have husable {tok : EnrollTokenRow} (hvalid : ¬ tok.revokedAt.isSome = true)
      (hfind : (if fails = true then none
        else db.findEnrollTokenByHash (hash call.enrollmentToken)) = some tok) :
      Usable hash db call tok :=
    ⟨(Option.ite_none_left_eq_some.mp hfind).2, Option.not_isSome_iff_eq_none.mp hvalid⟩
  revert h
  fun_cases advance d hash fails db call pc <;> rintro ⟨⟩
  any_goals exact .rejects _
  next htoken row hdevice hunbound =>
    exact .known hdevice (Option.not_isSome_iff_eq_none.mp hunbound) htoken
  next htoken hdevice => exact .unknown hdevice htoken
  next htoken => exact .presents htoken
  next hattempt =>
    obtain ⟨hinsert, rfl⟩ := attempt_eq_some hattempt
    exact .recorded hinsert
  next hfind hvalid row hbound =>
    exact .recognised (husable hvalid hfind) (Decidable.not_not.mp hbound)
  next hfind hvalid => exact .finds (husable hvalid hfind)
  next hattempt =>
    obtain ⟨hinsert, rfl⟩ := attempt_eq_some hattempt
    exact .enrolls hinsert
  next id =>
    cases hattempt : attempt d fails db (.markUsed id call.runtimeID) with
    | none => exact .unmarked id
    | some marked =>
      obtain ⟨-, rfl⟩ := attempt_eq_some hattempt
      exact .marks id

end Moves

structure Grown (db db' : Fleet) : Prop where
  bindings : db.bindings <+: db'.bindings
  hashes : db'.hashes = db.hashes
  unique : db.Unique → db'.Unique

namespace Grown

variable {d : Dialect} {hash : String → String} {db db' db'' : Fleet}

theorem refl (db : Fleet) : Grown db db := ⟨List.prefix_refl _, rfl, id⟩

theorem trans (h : Grown db db') (h' : Grown db' db'') : Grown db db'' where
  bindings := h.bindings.trans h'.bindings
  hashes := h'.hashes.trans h.hashes
  unique hunique := h'.unique (h.unique hunique)

theorem of_permitted {statement : Statement} (hpermitted : statement.permitted d db = true)
    (hhashes : statement.newHashes = []) : Grown db (statement.apply db) where
  bindings := by
    rw [bindings_apply]
    exact List.prefix_append _ _
  hashes := by rw [hashes_apply, hhashes, List.append_nil]
  unique hunique := hunique.apply hpermitted

theorem execAll {statements : List Statement}
    (hhashes : ∀ statement ∈ statements, statement.newHashes = []) (faults : List Bool)
    (db : Fleet) : Grown db (execAll d statements faults db) := by
  induction statements generalizing faults db with
  | nil => exact refl db
  | cons statement statements ih =>
    obtain ⟨hhead, htail⟩ := List.forall_mem_cons.mp hhashes
    rw [Enrollment.execAll]
    split
    · exact refl db
    next next hattempt =>
      obtain ⟨hpermitted, rfl⟩ := attempt_eq_some hattempt
      exact (of_permitted hpermitted hhead).trans (ih htail _ _)

theorem of_moves {call : Registration} {pc pc' : AuthPc}
    (hmoves : Moves d hash db call pc db' pc') : Grown db db' := by
  cases hmoves with
  | recorded hinsert | enrolls hinsert => exact of_permitted hinsert rfl
  | marks id => exact of_permitted (d := d) rfl rfl
  | _ => exact refl _

theorem mem_keys (h : Grown db db') {runtimeID : String}
    (hmem : runtimeID ∈ db.bindings.map Prod.fst) : runtimeID ∈ db'.bindings.map Prod.fst :=
  (h.bindings.map Prod.fst).subset hmem

end Grown

theorem mem_bindings_of_deviceRow {row : DeviceRow} (hdevice : db.deviceRow runtimeID = some row) :
    (runtimeID, row.enrollTokenID) ∈ db.bindings := by
  have hid := List.find?_some hdevice
  refine List.mem_map.mpr ⟨row, List.mem_of_find?_eq_some hdevice, ?_⟩
  rw [of_decide_eq_true hid]

end DataPipe.ControlPlane.Enrollment
