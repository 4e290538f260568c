import DataPipe.Foundation.Json
import DataPipe.Foundation.Keyed
import DataPipe.Foundation.Run

/-!
# Connections and credentials

The two tables of `controlplane/internal/api/connections.go` and `credentials.go`,
the handlers that write them, the role check of `controlplane/internal/auth`, and
`ResolveConnection` of `connresolve.go`.  A handler checks the role of the user on
the project of the connection; the credential id of a connection is stored and
looked up as it stands.
-/

namespace DataPipe.ControlPlane

open DataPipe.Foundation

/-- The project roles; `other` is any other text of the column. -/
inductive ProjectRole where
  | viewer
  | operator
  | editor
  | projectAdmin
  | other
  deriving DecidableEq, Repr

def ProjectRole.rank : ProjectRole → Nat
  | .viewer => 0
  | .operator => 1
  | .editor => 2
  | .projectAdmin => 3
  | .other => 0

def ProjectRole.atLeast (role least : ProjectRole) : Bool := least.rank ≤ role.rank

structure User where
  id : String
  systemAdmin : Bool := false
  deriving DecidableEq, Repr

structure Membership where
  projectID : String
  userID : String
  role : ProjectRole
  deriving DecidableEq, Repr

def requireProjectRole (members : List Membership) (user : User) (projectID : String)
    (least : ProjectRole) : Bool :=
  user.systemAdmin ||
    (members.find? fun m => m.projectID = projectID ∧ m.userID = user.id).any fun m =>
      m.role.atLeast least

/-- `crypto.Vault`, with the random keys and nonces of a call drawn from a number. -/
structure Vault where
  Sealed : Type
  sealText : List Char → Nat → Sealed
  openSealed : Sealed → Option (List Char)
  openSealed_sealText : ∀ plaintext nonces, openSealed (sealText plaintext nonces) = some plaintext

structure ConnectionRow where
  id : String
  projectID : String
  name : String
  typeName : String
  config : List Char
  credentialID : Option String
  deriving DecidableEq

structure CredentialRow (vault : Vault) where
  id : String
  projectID : String
  name : String
  sealedValue : vault.Sealed
  createdAt : String

structure ConnectionTables (vault : Vault) where
  connections : List ConnectionRow := []
  credentials : List (CredentialRow vault) := []

namespace ConnectionTables

variable {vault : Vault} (t : ConnectionTables vault)

def connection (id : String) : Option ConnectionRow := t.connections.find? (·.id = id)

def credential (id : String) : Option (CredentialRow vault) := t.credentials.find? (·.id = id)

def insertConnection (row : ConnectionRow) : Option (ConnectionTables vault) :=
  if (t.connection row.id).isSome then none
  else some { t with connections := t.connections ++ [row] }

def insertCredential (row : CredentialRow vault) : Option (ConnectionTables vault) :=
  if (t.credential row.id).isSome then none
  else some { t with credentials := t.credentials ++ [row] }

/-- An update of the columns `name`, `config` and `credential_id`. -/
def writeConnection (row : ConnectionRow) : ConnectionTables vault :=
  { t with
    connections := t.connections.map fun old =>
      if old.id = row.id then
        { old with name := row.name, config := row.config, credentialID := row.credentialID }
      else old }

end ConnectionTables

/-- The body of `createCredential`; a value that is absent is null. -/
structure CreateCredentialBody where
  name : String
  value : Json := .null

structure CreateConnectionBody where
  name : String
  typeName : String
  config : Option (List Char) := none
  credentialID : Option String := none

structure UpdateConnectionBody where
  name : Option String := none
  config : Option (List Char) := none
  credentialID : Option String := none

/--
The requests, with the body as `readJSON` decodes it (`none` where that fails) and the id,
time and number that the handler draws.
-/
inductive ConnectionRequest where
  | createCredential (user : User) (projectID : String) (body : Option CreateCredentialBody)
      (id now : String) (nonces : Nat)
  | createConnection (user : User) (projectID : String) (body : Option CreateConnectionBody)
      (id : String)
  | updateConnection (user : User) (connectionID : String) (body : Option UpdateConnectionBody)

def ConnectionRow.updated (c : ConnectionRow) (req : UpdateConnectionBody) : ConnectionRow :=
  { c with
    name := req.name.getD c.name
    config := req.config.getD c.config
    credentialID := req.credentialID.or c.credentialID }

namespace ConnectionTables

variable {vault : Vault} (members : List Membership) (t : ConnectionTables vault)

def handle : ConnectionRequest → Nat × ConnectionTables vault
  | .createCredential user projectID body id now nonces =>
    if requireProjectRole members user projectID .editor then
      match body with
      | none => (400, t)
      | some req =>
        if req.name = "" ∨ req.value = .null then (400, t)
        else
          match t.insertCredential
            { id, projectID, name := req.name,
              sealedValue := vault.sealText req.value.render nonces, createdAt := now } with
          | none => (500, t)
          | some t' => (201, t')
    else (403, t)
  | .createConnection user projectID body id =>
    if requireProjectRole members user projectID .editor then
      match body with
      | none => (400, t)
      | some req =>
        if req.name = "" ∨ req.typeName = "" then (400, t)
        else
          match t.insertConnection
            { id, projectID, name := req.name, typeName := req.typeName,
              config := req.config.getD [], credentialID := req.credentialID } with
          | none => (500, t)
          | some t' => (201, t')
    else (403, t)
  | .updateConnection user connectionID body =>
    match t.connection connectionID with
    | none => (404, t)
    | some c =>
      if requireProjectRole members user c.projectID .editor then
        match body with
        | none => (400, t)
        | some req => (200, t.writeConnection (c.updated req))
      else (403, t)

def step (t : ConnectionTables vault) (req : ConnectionRequest) :
    Option (ConnectionTables vault) := some (t.handle members req).2

def start (vault : Vault) : ConnectionTables vault := {}

end ConnectionTables

structure ConnectionInfo where
  typeName : String
  configJSON : List Char
  credentialJSON : Option (List Char)
  deriving DecidableEq

inductive ResolveError where
  | connectionNotFound
  | loadingCredential
  | decryptingCredential
  deriving DecidableEq, Repr

namespace ConnectionTables

variable {vault : Vault} (t : ConnectionTables vault)

def resolveConnection (connectionID : String) : Except ResolveError ConnectionInfo :=
  match t.connection connectionID with
  | none => .error .connectionNotFound
  | some conn =>
    match conn.credentialID with
    | none => .ok ⟨conn.typeName, conn.config, none⟩
    | some credentialID =>
      match t.credential credentialID with
      | none => .error .loadingCredential
      | some credential =>
        match vault.openSealed credential.sealedValue with
        | none => .error .decryptingCredential
        | some plaintext => .ok ⟨conn.typeName, conn.config, some plaintext⟩

def ResolvesOwn : Prop :=
  ∀ connectionID conn info, t.connection connectionID = some conn →
    t.resolveConnection connectionID = .ok info →
    info.credentialJSON = none ∨
      ∃ credential ∈ t.credentials, conn.credentialID = some credential.id ∧
        credential.projectID = conn.projectID ∧
        info.credentialJSON = vault.openSealed credential.sealedValue

def ownCredential (projectID : String) (credentialID : Option String) : Bool :=
  credentialID.all fun id => (t.credential id).all fun row => row.projectID = projectID

/--
The credential id of a body names no credential of another project, and a new credential
does not get an id that a connection names already.
-/
def refersToOwn (t : ConnectionTables vault) : ConnectionRequest → Bool
  | .createCredential _ _ _ id _ _ => t.connections.all fun conn => conn.credentialID ≠ some id
  | .createConnection _ projectID body _ =>
    body.all fun req => t.ownCredential projectID req.credentialID
  | .updateConnection _ connectionID body =>
    (t.connection connectionID).all fun conn =>
      body.all fun req => t.ownCredential conn.projectID req.credentialID

def Scoped : Prop := ∀ conn ∈ t.connections, t.ownCredential conn.projectID conn.credentialID = true

end ConnectionTables

namespace ConnectionTables

variable {vault : Vault} {members : List Membership} {t t' : ConnectionTables vault}

theorem ownCredential_eq_true {projectID : String} {credentialID : Option String} :
    t.ownCredential projectID credentialID = true ↔
      ∀ id row, credentialID = some id → t.credential id = some row →
        row.projectID = projectID := by
  rw [ownCredential]
  cases credentialID with
  | none => simp
  | some id =>
    cases hrow : t.credential id with
    | none =>
      simp only [Option.all_some, hrow, Option.all_none, true_iff]
      rintro _ row ⟨rfl⟩ hrow'
      rw [hrow] at hrow'
      contradiction
    | some row =>
      simp only [Option.all_some, hrow, decide_eq_true_eq]
      constructor
      · rintro hproject _ row' ⟨rfl⟩ hrow'
        rw [← Option.mem_unique hrow hrow', hproject]
      · exact fun h => h id row rfl hrow

variable {row : ConnectionRow}

theorem insertConnection_eq_some (h : t.insertConnection row = some t') :
    t.connection row.id = none ∧ t' = { t with connections := t.connections ++ [row] } := by
  rw [insertConnection] at h
  split at h
  · contradiction
  next hnew => exact ⟨Option.not_isSome_iff_eq_none.mp hnew, (Option.some.inj h).symm⟩

theorem insertCredential_eq_some {row : CredentialRow vault}
    (h : t.insertCredential row = some t') :
    t' = { t with credentials := t.credentials ++ [row] } := by
  rw [insertCredential] at h
  split at h
  · contradiction
  · exact (Option.some.inj h).symm

inductive Writes (t : ConnectionTables vault) :
    ConnectionRequest → ConnectionTables vault → Prop where
  | nothing (req : ConnectionRequest) : Writes t req t
  | credential {user : User} {body : Option CreateCredentialBody} {now : String} {nonces : Nat}
      (row : CredentialRow vault) :
      Writes t (.createCredential user row.projectID body row.id now nonces)
        { t with credentials := t.credentials ++ [row] }
  | connection {user : User} {req : CreateConnectionBody} (row : ConnectionRow)
      (hcredential : row.credentialID = req.credentialID)
      (hnew : t.connection row.id = none) :
      Writes t (.createConnection user row.projectID (some req) row.id)
        { t with connections := t.connections ++ [row] }
  | update {user : User} {connectionID : String} {c : ConnectionRow}
      {req : UpdateConnectionBody} (hc : t.connection connectionID = some c) :
      Writes t (.updateConnection user connectionID (some req)) (t.writeConnection (c.updated req))

theorem writes_of_handle (req : ConnectionRequest) : Writes t req (t.handle members req).2 := by
  fun_cases t.handle members req
  any_goals exact .nothing _
  next id now _ _ _ _ t' hinsert =>
    rw [insertCredential_eq_some hinsert]
    exact .credential { id, projectID := _, name := _, sealedValue := _, createdAt := now }
  next id _ _ _ t' hinsert =>
    obtain ⟨hnew, rfl⟩ := insertConnection_eq_some hinsert
    exact .connection
      { id, projectID := _, name := _, typeName := _, config := _, credentialID := _ } rfl hnew
  next hc _ _ => exact .update hc

theorem credential_concat_ne {row : CredentialRow vault} {id : String} (hid : row.id ≠ id) :
    ({ t with credentials := t.credentials ++ [row] } : ConnectionTables vault).credential id =
      t.credential id := by
  simp [credential, hid]

theorem mem_writeConnection {conn : ConnectionRow}
    (hmem : conn ∈ (t.writeConnection row).connections) :
    conn ∈ t.connections ∨ ∃ old ∈ t.connections, old.id = row.id ∧
      conn.projectID = old.projectID ∧ conn.credentialID = row.credentialID := by
  obtain ⟨old, hold, rfl⟩ := List.mem_map.mp hmem
  split
  next hid => exact .inr ⟨old, hold, hid, rfl, rfl⟩
  · exact .inl hold

structure Sound (t : ConnectionTables vault) : Prop where
  unique : (t.connections.map ConnectionRow.id).Nodup
  own : t.Scoped

theorem sound_start : (start vault).Sound where
  unique := List.nodup_nil
  own := fun _ hmem => absurd hmem List.not_mem_nil

theorem unique_concat (hunique : (t.connections.map ConnectionRow.id).Nodup)
    (hnew : t.connection row.id = none) :
    ((t.connections ++ [row]).map ConnectionRow.id).Nodup := by
  rw [List.map_append, List.nodup_append]
  refine ⟨hunique, List.nodup_singleton _, fun id hid other hother => ?_⟩
  rintro rfl
  exact find?_key_eq_none.mp hnew (List.mem_singleton.mp hother ▸ hid)

theorem ids_writeConnection (row : ConnectionRow) :
    (t.writeConnection row).connections.map ConnectionRow.id =
      t.connections.map ConnectionRow.id := by
  rw [writeConnection, List.map_map]
  refine List.map_congr_left fun old _ => ?_
  simp only [Function.comp_apply]
  split <;> rfl

theorem sound_of_writes {req : ConnectionRequest} (hsound : t.Sound)
    (hrefers : t.refersToOwn req = true) (hwrites : Writes t req t') : t'.Sound := by
  cases hwrites with
  | nothing => exact hsound
  | credential row =>
    refine ⟨hsound.unique, fun conn hconn => ?_⟩
    have hfresh : conn.credentialID ≠ some row.id :=
      of_decide_eq_true (List.all_eq_true.mp hrefers conn hconn)
    refine ownCredential_eq_true.mpr fun id found hid hfound => ?_
    have hne : row.id ≠ id := fun heq => hfresh (heq ▸ hid)
    rw [credential_concat_ne hne] at hfound
    exact ownCredential_eq_true.mp (hsound.own conn hconn) id found hid hfound
  | connection row hcredential hnew =>
    refine ⟨unique_concat hsound.unique hnew, fun conn hconn => ?_⟩
    rcases List.mem_append.mp hconn with hconn | hconn
    · exact hsound.own conn hconn
    · obtain rfl := List.mem_singleton.mp hconn
      rw [hcredential]
      exact hrefers
  | @update user connectionID c req hc =>
    refine ⟨(ids_writeConnection _).symm ▸ hsound.unique, fun conn hconn => ?_⟩
    rcases mem_writeConnection hconn with hconn | ⟨old, hold, hid, hproject, hcredential⟩
    · exact hsound.own conn hconn
    · obtain ⟨hmem, -⟩ := (find?_key_eq_some hsound.unique).mp hc
      obtain rfl : old = c := List.inj_on_of_nodup_map hsound.unique hold hmem hid
      rw [refersToOwn, hc] at hrefers
      rw [hproject, hcredential]
      -- a body without a credential id leaves the one that is stored
      cases hbody : req.credentialID with
      | none =>
        rw [ConnectionRow.updated, hbody]
        exact hsound.own old hold
      | some credentialID =>
        rw [ConnectionRow.updated, hbody, Option.some_or, ← hbody]
        exact hrefers

theorem resolvesOwn_of_sound (hsound : t.Sound) : t.ResolvesOwn := by
  intro connectionID conn info hconn hinfo
  have hmem := List.mem_of_find?_eq_some hconn
  have hscoped := ownCredential_eq_true.mp (hsound.own conn hmem)
  revert hinfo
  fun_cases t.resolveConnection connectionID <;> rintro ⟨⟩
  next => exact .inl rfl
  next hconn' id hid row hrow plaintext hplain =>
    obtain rfl := Option.mem_unique hconn hconn'
    have hrowID : row.id = id := of_decide_eq_true (List.find?_some hrow :)
    exact .inr ⟨row, List.mem_of_find?_eq_some hrow, hrowID ▸ hid, hscoped id row hid hrow,
      hplain.symm⟩

/--
`ResolveConnection` returns no credential or one of the project of the connection, after every
sequence of requests in which no body names a credential of another project.
-/
theorem resolves_own_credentials (vault : Vault) (members : List Membership)
    {requests : List ConnectionRequest} {t : ConnectionTables vault}
    (hmeets : Meets (step members) (fun t req => t.refersToOwn req = true) (start vault) requests)
    (hrun : run (step members) (start vault) requests = some t) : t.ResolvesOwn := by
  refine resolvesOwn_of_sound (run_invariant_of_meets ?_ sound_start hmeets hrun)
  intro t req next hsound hrefers hnext
  obtain rfl := Option.some.inj hnext
  exact sound_of_writes hsound hrefers (writes_of_handle req)

end ConnectionTables

def plainVault : Vault where
  Sealed := List Char
  sealText plaintext _ := plaintext
  openSealed sealedText := some sealedText
  openSealed_sealText _ _ := rfl

def twoEditors : List Membership := [⟨"p", "ann", .editor⟩, ⟨"q", "bob", .editor⟩]

def secretOf (user projectID id : String) : ConnectionRequest :=
  .createCredential ⟨user, false⟩ projectID (some { name := "s", value := .str id }) id "now" 0

def connectionTo (user projectID id credentialID : String) : ConnectionRequest :=
  .createConnection ⟨user, false⟩ projectID
    (some { name := "c", typeName := "http", credentialID := some credentialID }) id

namespace ConnectionTables

theorem own_credential_resolved :
    ∃ t, run (step twoEditors) (start plainVault) [secretOf "ann" "p" "a", secretOf "bob" "q" "b",
        connectionTo "ann" "p" "x" "a"] = some t ∧ t.ResolvesOwn ∧
      (t.resolveConnection "x").toOption = some ⟨"http", [], some "\"a\"".toList⟩ := by
  simp only [And.comm (a := ResolvesOwn _)]
  exact exists_run_and (by decide +kernel) fun hmeets _ hrun =>
    resolves_own_credentials _ _ hmeets hrun

/--
An editor of the project `p` alone makes a connection that names the credential of the project
`q`, and the connection resolves to its value.
-/
theorem foreign_credential_resolved :
    requireProjectRole twoEditors ⟨"ann", false⟩ "q" .viewer = false ∧
    ∃ t, run (step twoEditors) (start plainVault) [secretOf "bob" "q" "b",
        connectionTo "ann" "p" "x" "b"] = some t ∧
      (t.resolveConnection "x").toOption = some ⟨"http", [], some "\"b\"".toList⟩ ∧
      ¬ t.ResolvesOwn := by
  refine ⟨by decide, ?_⟩
  refine exists_some_imp (fun t =>
    (t.resolveConnection "x").toOption = some ⟨"http", [], some "\"b\"".toList⟩ ∧
    (∃ conn, t.connection "x" = some conn ∧ conn.projectID = "p") ∧
    t.credentials.map CredentialRow.projectID = ["q"]) (by decide +kernel) ?_
  rintro t - ⟨hresolved, ⟨conn, hconn, hproject⟩, hprojects⟩
  refine ⟨hresolved, fun hown => ?_⟩
  cases hinfo : t.resolveConnection "x" with
  | error e =>
    rw [hinfo] at hresolved
    contradiction
  | ok info =>
    rw [hinfo] at hresolved
    obtain rfl := Option.some.inj hresolved
    rcases hown "x" conn _ hconn hinfo with hnone | ⟨row, hrow, -, hsame, -⟩
    · contradiction
    · have hq : row.projectID ∈ ["q"] := hprojects ▸ List.mem_map_of_mem hrow
      rw [hsame, hproject] at hq
      exact absurd hq (by decide)

end ConnectionTables

end DataPipe.ControlPlane
