import DataPipe.ControlPlane.Export
import DataPipe.Flow.Renaming
import DataPipe.Foundation.Dict
import DataPipe.Foundation.Fallible

/-!
# Import bundles

`importBundle` and `importProject` of `controlplane/internal/api/vcs_export.go`.  A
connection of the bundle is matched by name and type with one of the project or
created; a node whose connection field is one of the bundle's references gets the
id, and any other field is stored as it stands.  The statements are not one
transaction: what was created before an error stays.
-/

set_option linter.dupNamespace false

namespace DataPipe.ControlPlane

open DataPipe.Foundation DataPipe.Flow

structure ImportTables where
  connections : List ConnectionRow := []
  flows : List FlowRow := []
  deriving DecidableEq

structure ImportResult where
  flows : List FlowRow := []
  connectionsCreated : List ConnectionRow := []
  connectionsMatched : List ConnectionRow := []
  deriving DecidableEq

/-- The errors of `importBundle`, with the name of the connection or flow. -/
inductive ImportError where
  | listing
  | creatingConnection (name : String)
  | parsing (name : String)
  | creatingFlow (name : String)
  deriving DecidableEq

structure Draw where
  id : String
  now : String
  deriving DecidableEq

namespace ImportTables

variable (t : ImportTables)

def ids : List String := t.connections.map ConnectionRow.id ++ t.flows.map FlowRow.id

def createConnection (draw : Option Draw) (projectID name typeName : String)
    (config : List Char) : Option (ConnectionRow × ImportTables) := do
  let draw ← draw
  let c : ConnectionRow :=
    { id := draw.id, projectID, name, typeName, config, credentialID := none }
  if c.id ∈ t.connections.map ConnectionRow.id then none
  else some (c, { t with connections := t.connections ++ [c] })

def createFlow (draw : Option Draw) (projectID name : String) (content : List Char) :
    Option (FlowRow × ImportTables) := do
  let draw ← draw
  let f : FlowRow :=
    { id := draw.id, projectID, name, draftContent := content
      createdAt := draw.now, updatedAt := draw.now }
  if f.id ∈ t.flows.map FlowRow.id then none
  else some (f, { t with flows := t.flows ++ [f] })

end ImportTables

def byNameType (existing : List ConnectionRow) (name typeName : String) : Option ConnectionRow :=
  existing.reverse.find? fun c => c.name = name ∧ c.typeName = typeName

/-- The variables of `importBundle`, with the tables and the draws that are left. -/
structure Importing where
  tables : ImportTables
  draws : List (Option Draw)
  idByRef : AList fun _ : String => String := ∅
  result : ImportResult := {}

def Importing.remap (s : Importing) (connection : String) : String :=
  (s.idByRef.lookup connection).getD connection

section Import

variable (floats : Float64Text) (existing : List ConnectionRow) (projectID : String)

def importConnection (s : Importing) (ec : ExportedConnection) :
    Except (ImportError × ImportTables) Importing :=
  match byNameType existing ec.name ec.typeName with
  | some c =>
    .ok
      { s with
        idByRef := s.idByRef.insert ec.ref c.id
        result :=
          { s.result with connectionsMatched := s.result.connectionsMatched ++ [c] } }
  | none =>
    match s.tables.createConnection s.draws.head?.join projectID ec.name ec.typeName
        ec.config with
    | none => .error (.creatingConnection ec.name, s.tables)
    | some (c, tables) =>
      .ok
        { tables
          draws := s.draws.tail
          idByRef := s.idByRef.insert ec.ref c.id
          result :=
            { s.result with connectionsCreated := s.result.connectionsCreated ++ [c] } }

def importFlow (s : Importing) (ef : ExportedFlow) :
    Except (ImportError × ImportTables) Importing :=
  match Format.parse floats ef.content with
  | none => .error (.parsing ef.name, s.tables)
  | some file =>
    match s.tables.createFlow s.draws.head?.join projectID ef.name
        (file.renamed s.remap).marshalCanonical with
    | none => .error (.creatingFlow ef.name, s.tables)
    | some (f, tables) =>
      .ok
        { s with
          tables
          draws := s.draws.tail
          result := { s.result with flows := s.result.flows ++ [f] } }

/-- The import into the project whose connections are listed; `none` where that fails. -/
def importBundle (listed : Option (List ConnectionRow)) (draws : List (Option Draw))
    (bundle : FlowExportBundle) (tables : ImportTables) :
    Except ImportError ImportResult × ImportTables :=
  match listed with
  | none => (.error .listing, tables)
  | some existing =>
    match bundle.connections.foldlM (importConnection existing projectID) { tables, draws } with
    | .error (e, tables) => (.error e, tables)
    | .ok s =>
      match bundle.flows.foldlM (importFlow floats projectID) s with
      | .error (e, tables) => (.error e, tables)
      | .ok s => (.ok s.result, s.tables)

def importProject (members : List Membership) (user : User) (body : Option FlowExportBundle)
    (listed : Option (List ConnectionRow)) (draws : List (Option Draw)) (tables : ImportTables) :
    Nat × Option ImportResult × ImportTables :=
  if requireProjectRole members user projectID .editor then
    match body with
    | none => (400, none, tables)
    | some bundle =>
      if bundle.flows = [] then (400, none, tables)
      else
        match importBundle floats projectID listed draws bundle tables with
        | (.error _, tables) => (500, none, tables)
        | (.ok result, tables) => (201, some result, tables)
  else (403, none, tables)

end Import

/-- `ListConnections`; the order of rows of one name is left open. -/
def Listed (t : ImportTables) (projectID : String) (existing : List ConnectionRow) : Prop :=
  existing.Perm (t.connections.filter (·.projectID = projectID))

def bundleFields (floats : Float64Text) (flows : List ExportedFlow) : List String :=
  flows.flatMap fun f =>
    match Format.parse floats f.content with
    | none => []
    | some file => file.connections

inductive Resolved (existing : List ConnectionRow) (projectID : String) (draw : Option Draw)
    (ec : ExportedConnection) (t : ImportTables) : ConnectionRow → ImportTables → Prop
  | matched {c : ConnectionRow} (hlisted : byNameType existing ec.name ec.typeName = some c) :
      Resolved existing projectID draw ec t c t
  | created {c : ConnectionRow} (hnone : byNameType existing ec.name ec.typeName = none)
      (hdraw : draw.map Draw.id = some c.id)
      (hunused : c.id ∉ t.connections.map ConnectionRow.id) (hproject : c.projectID = projectID)
      (hname : c.name = ec.name) (htype : c.typeName = ec.typeName)
      (hconfig : c.config = ec.config) :
      Resolved existing projectID draw ec t c { t with connections := t.connections ++ [c] }

def CreatedOf (floats : Float64Text) (projectID : String) (name : String → String)
    (ef : ExportedFlow) (f : FlowRow) : Prop :=
  f.projectID = projectID ∧ f.name = ef.name ∧
    ∃ file, Format.parse floats ef.content = some file ∧
      f.draftContent = (file.renamed name).marshalCanonical

section Steps

variable {c : ConnectionRow} {ec : ExportedConnection} {draws : List (Option Draw)}
  {bundle : FlowExportBundle}

variable {floats : Float64Text} {existing : List ConnectionRow} {projectID : String}
  {t t' : ImportTables} {s s' : Importing} {flows : List ExportedFlow}
  {seen : List ExportedConnection} {file : Format.FlowFile floats} {draw : Option Draw}
  {ef : ExportedFlow}

theorem mem_of_byNameType {name typeName : String}
    (h : byNameType existing name typeName = some c) :
    c ∈ existing ∧ c.name = name ∧ c.typeName = typeName := by
  have hmem := List.mem_reverse.mp (List.mem_of_find?_eq_some h)
  have hkind := List.find?_some h
  exact ⟨hmem, of_decide_eq_true hkind⟩

theorem importConnection_eq_ok (h : importConnection existing projectID s ec = .ok s') :
    ∃ c, Resolved existing projectID s.draws.head?.join ec s.tables c s'.tables ∧
      s'.idByRef = s.idByRef.insert ec.ref c.id ∧ s'.draws ⊆ s.draws ∧
      s'.result.flows = s.result.flows := by
  revert h
  fun_cases importConnection existing projectID s ec <;> rintro ⟨⟩
  next c hlisted => exact ⟨c, .matched hlisted, rfl, List.Subset.refl _, rfl⟩
  next hnone c tables hcreate =>
    obtain ⟨draw, hdraw, hcreate⟩ := Option.bind_eq_some_iff.mp hcreate
    obtain ⟨hunused, ⟨⟩⟩ := Option.ite_none_left_eq_some.mp hcreate
    exact ⟨_, .created hnone (congrArg (Option.map Draw.id) hdraw) hunused rfl rfl rfl rfl, rfl,
      (List.tail_sublist _).subset, rfl⟩

theorem importFlow_eq_ok (h : importFlow floats projectID s ef = .ok s') :
    ∃ f, CreatedOf floats projectID s.remap ef f ∧
      s'.tables = ⟨s.tables.connections, s.tables.flows ++ [f]⟩ ∧
      s'.idByRef = s.idByRef ∧ s'.result.flows = s.result.flows ++ [f] := by
  revert h
  fun_cases importFlow floats projectID s ef <;> rintro ⟨⟩
  next file hfile f tables hcreate =>
    obtain ⟨draw, -, hcreate⟩ := Option.bind_eq_some_iff.mp hcreate
    obtain ⟨-, ⟨⟩⟩ := Option.ite_none_left_eq_some.mp hcreate
    exact ⟨_, ⟨rfl, rfl, file, hfile, rfl⟩, rfl, rfl, rfl⟩

theorem importFlows_eq_ok (h : flows.foldlM (importFlow floats projectID) s = .ok s') :
    ∃ created, List.Forall₂ (CreatedOf floats projectID s.remap) flows created ∧
      s'.tables = ⟨s.tables.connections, s.tables.flows ++ created⟩ ∧
      s'.result.flows = s.result.flows ++ created := by
  induction flows generalizing s with
  | nil =>
    obtain rfl := foldlM_nil_eq_ok.mp h
    exact ⟨[], .nil, by rw [List.append_nil], by rw [List.append_nil]⟩
  | cons ef flows ih =>
    obtain ⟨next, hnext, hrest⟩ := foldlM_cons_eq_ok.mp h
    obtain ⟨f, hf, htables, hrefs, hresult⟩ := importFlow_eq_ok hnext
    obtain ⟨created, hcreated, htables', hresult'⟩ := ih hrest
    have hremap : next.remap = s.remap := by
      funext x
      rw [Importing.remap, Importing.remap, hrefs]
    rw [hremap] at hcreated
    refine ⟨f :: created, .cons hf hcreated, ?_, ?_⟩
    · rw [htables', htables, List.append_assoc, List.singleton_append]
    · rw [hresult', hresult, List.append_assoc, List.singleton_append]

/-- After the connections `seen`: every reference stands for a connection of the project. -/
structure Remapped (projectID : String) (t : ImportTables) (seen : List ExportedConnection)
    (s : Importing) : Prop where
  refs : ∀ ref, ref ∈ s.idByRef ↔ ref ∈ seen.map ExportedConnection.ref
  own : ∀ ref id, s.idByRef.lookup ref = some id →
    ∃ c ∈ s.tables.connections, c.id = id ∧ c.projectID = projectID
  unique : (s.tables.connections.map ConnectionRow.id).Nodup
  kept : ∀ c ∈ t.connections, c ∈ s.tables.connections
  flows : s.tables.flows = t.flows
  result : s.result.flows = []

theorem remapped_start (hunique : (t.connections.map ConnectionRow.id).Nodup) :
    Remapped projectID t [] { tables := t, draws } where
  refs := by simp
  own := by simp
  unique := hunique
  kept := fun _ hc => hc
  flows := rfl
  result := rfl

theorem Listed.mem (h : Listed t projectID existing) :
    c ∈ existing ↔ c ∈ t.connections ∧ c.projectID = projectID := by
  rw [List.Perm.mem_iff h, List.mem_filter, decide_eq_true_iff]

theorem Resolved.subset (h : Resolved existing projectID draw ec t c t') :
    t.connections ⊆ t'.connections := by
  cases h with
  | matched _ => exact List.Subset.refl _
  | created => exact List.subset_append_left _ _

theorem Resolved.own (h : Resolved existing projectID draw ec t c t')
    (hlisted : ∀ c ∈ existing, c ∈ t.connections ∧ c.projectID = projectID)
    (hunique : (t.connections.map ConnectionRow.id).Nodup) :
    (c ∈ t'.connections ∧ c.projectID = projectID) ∧
      (t'.connections.map ConnectionRow.id).Nodup ∧ t'.flows = t.flows := by
  cases h with
  | matched hc => exact ⟨hlisted c (mem_of_byNameType hc).1, hunique, rfl⟩
  | created hnone hdraw hunused hproject hname htype hconfig =>
    refine ⟨⟨List.mem_append_right _ List.mem_cons_self, hproject⟩, ?_, rfl⟩
    rw [List.map_append]
    exact nodup_concat_of_notMem hunique hunused

theorem Remapped.step (hlisting : Listed t projectID existing) (hinv : Remapped projectID t seen s)
    (h : importConnection existing projectID s ec = .ok s') :
    Remapped projectID t (seen ++ [ec]) s' := by
  obtain ⟨c, hresolved, hrefs, -, hresult⟩ := importConnection_eq_ok h
  have hlisted : ∀ c ∈ existing, c ∈ s.tables.connections ∧ c.projectID = projectID :=
    fun c hc => ⟨hinv.kept c (hlisting.mem.mp hc).1, (hlisting.mem.mp hc).2⟩
  have hsubset := hresolved.subset
  obtain ⟨⟨hmem, hproject⟩, hunique, hflows⟩ := hresolved.own hlisted hinv.unique
  constructor
  case refs =>
    intro ref
    rw [hrefs, AList.mem_insert, hinv.refs, List.map_append, List.mem_append, or_comm]
    exact or_congr_right List.mem_singleton.symm
  case own =>
    intro ref id hlookup
    rw [hrefs] at hlookup
    rcases lookup_insert_eq_some hlookup with ⟨-, hid⟩ | hold
    · exact ⟨c, hmem, hid, hproject⟩
    · obtain ⟨row, hrow, hid⟩ := hinv.own ref id hold
      exact ⟨row, hsubset hrow, hid⟩
  case unique => exact hunique
  case kept => exact fun c hc => hsubset (hinv.kept c hc)
  case flows => rw [hflows, hinv.flows]
  case result => rw [hresult, hinv.result]

variable {result : ImportResult}

theorem importBundle_eq_ok
    (h : importBundle floats projectID (some existing) draws bundle t = (.ok result, t')) :
    ∃ s s', bundle.connections.foldlM (importConnection existing projectID)
        { tables := t, draws } = .ok s ∧
      bundle.flows.foldlM (importFlow floats projectID) s = .ok s' ∧
      s'.result = result ∧ s'.tables = t' := by
  dsimp only [importBundle] at h
  split at h
  · simp at h
  next s hconnections =>
    split at h
    · simp at h
    next s' hflows =>
      cases h
      exact ⟨s, s', hconnections, hflows, rfl, rfl⟩

theorem importProject_eq_created {members : List Membership} {user : User}
    {listed : Option (List ConnectionRow)}
    (h : (importProject floats projectID members user (some bundle) listed draws t).1 = 201) :
    ∃ result t', importProject floats projectID members user (some bundle) listed draws t =
        (201, some result, t') ∧
      importBundle floats projectID listed draws bundle t = (.ok result, t') := by
  rw [importProject] at h ⊢
  split at h
  next hrole =>
    rw [if_pos hrole]
    split at h
    · simp at h
    next hflows =>
      rw [if_neg hflows]
      cases himport : importBundle floats projectID listed draws bundle t with
      | mk outcome t' =>
        cases outcome with
        | error e => simp [himport] at h
        | ok result => exact ⟨result, t', rfl, rfl⟩
  · simp at h

theorem connectionFields_cons {f : FlowRow} {flows : List FlowRow}
    (hfile : Format.parse floats f.draftContent = some file) :
    connectionFields floats (f :: flows) = file.connections ++ connectionFields floats flows := by
  rw [connectionFields, List.flatMap_cons, hfile]
  rfl

theorem bundleFields_cons (hfile : Format.parse floats ef.content = some file) :
    bundleFields floats (ef :: flows) = file.connections ++ bundleFields floats flows := by
  rw [bundleFields, List.flatMap_cons, hfile]
  rfl

theorem mem_connectionFields_created {name : String → String} {created : List FlowRow}
    (h : List.Forall₂ (CreatedOf floats projectID name) flows created) {x : String} :
    x ∈ connectionFields floats created ↔ x ∈ (bundleFields floats flows).map name := by
  induction h with
  | nil => exact Iff.rfl
  | @cons ef f flows created hf hrest ih =>
    obtain ⟨-, -, file, hfile, hcontent⟩ := hf
    have hparse : Format.parse floats f.draftContent =
        some (file.renamed name).sorted.canonicalized := by
      rw [hcontent, Format.parse_marshalCanonical]
    have hhead : x ∈ (file.renamed name).sorted.canonicalized.connections ↔
        x ∈ file.connections.map name := by
      rw [Format.FlowFile.connections_canonicalized,
        (Format.FlowFile.perm_connections_sorted _).mem_iff,
        Format.FlowFile.connections_renamed]
    rw [connectionFields_cons hparse, bundleFields_cons hfile, List.map_append,
      List.mem_append, List.mem_append, hhead, ih]

theorem exists_remapped (hunique : (t.connections.map ConnectionRow.id).Nodup)
    (hlisting : Listed t projectID existing)
    (himport : importBundle floats projectID (some existing) draws bundle t = (.ok result, t')) :
    ∃ s, Remapped projectID t bundle.connections s ∧ t'.connections = s.tables.connections ∧
      t'.flows = t.flows ++ result.flows ∧
      ∀ x, x ∈ connectionFields floats result.flows ↔
        x ∈ (bundleFields floats bundle.flows).map s.remap := by
  obtain ⟨s, s', hconnections, hflows, rfl, rfl⟩ := importBundle_eq_ok himport
  have hremapped : Remapped projectID t bundle.connections s :=
    foldlM_invariant (fun hinv h => hinv.step hlisting h) (remapped_start hunique) hconnections
  obtain ⟨created, hcreated, htables, hresult⟩ := importFlows_eq_ok hflows
  rw [hremapped.result, List.nil_append] at hresult
  refine ⟨s, hremapped, by rw [htables], ?_, fun x => ?_⟩
  · rw [htables, hresult, hremapped.flows]
  · rw [hresult]
    exact mem_connectionFields_created hcreated

theorem Remapped.own_remap_iff (h : Remapped projectID t seen s) (x : String) :
    OwnConnection s.tables.connections projectID (s.remap x) ↔
      x ∈ seen.map ExportedConnection.ref ∨ OwnConnection s.tables.connections projectID x := by
  rw [← h.refs, Importing.remap]
  cases hlookup : s.idByRef.lookup x with
  | none =>
    have hnot : x ∉ s.idByRef := AList.lookup_eq_none.mp hlookup
    simp [hnot]
  | some id =>
    have hmem : x ∈ s.idByRef := AList.lookup_isSome.mp (hlookup ▸ rfl)
    obtain ⟨c, hc, hid, hproject⟩ := h.own x id hlookup
    have hfind := (find?_key_eq_some h.unique).mpr ⟨hc, hid⟩
    exact iff_of_true (.inr ⟨c, hfind, hproject⟩) (.inl hmem)

end Steps

def bundleNaming (connection : String) (connections : List ExportedConnection) :
    FlowExportBundle where
  formatVersion := exportFormatVersion
  exportedAt := ""
  projectName := ""
  flows := [⟨"flow", "\x7b\"graph\":\x7b\"nodes\":[\x7b\"connection\":\"".toList ++
    connection.toList ++ "\"\x7d]\x7d\x7d".toList⟩]
  connections

def ImportTables.ofProject (t : ImportTables) (projectID : String) : ImportTables where
  connections := t.connections.filter (·.projectID = projectID)
  flows := t.flows.filter (·.projectID = projectID)

/-- A connection or a flow of a bundle, in the order of the import. -/
def FlowExportBundle.items (bundle : FlowExportBundle) : List (ExportedConnection ⊕ ExportedFlow) :=
  bundle.connections.map .inl ++ bundle.flows.map .inr

def needsRow (existing : List ConnectionRow) : ExportedConnection ⊕ ExportedFlow → Bool
  | .inl ec => (byNameType existing ec.name ec.typeName).isNone
  | .inr _ => true

/-- The flow does not parse, or the insert fails. -/
def Refused (floats : Float64Text) (t : ImportTables) (draw : Option Draw) :
    ExportedConnection ⊕ ExportedFlow → Prop
  | .inl _ => ∀ d ∈ draw, d.id ∈ t.connections.map ConnectionRow.id
  | .inr ef => (Format.parse floats ef.content).isSome → ∀ d ∈ draw, d.id ∈ t.flows.map FlowRow.id

section Failed

variable (floats : Float64Text) (existing : List ConnectionRow) (projectID : String)

def importItem (s : Importing) :
    ExportedConnection ⊕ ExportedFlow → Except (ImportError × ImportTables) Importing
  | .inl ec => importConnection existing projectID s ec
  | .inr ef => importFlow floats projectID s ef

def ImportTables.rows (t : ImportTables) : Nat :=
  (t.ofProject projectID).connections.length + (t.ofProject projectID).flows.length

def ImportTables.after : Except (ImportError × ImportTables) Importing → ImportTables
  | .error (_, t) => t
  | .ok s => s.tables

/-- How a part of the import ends whose first new row is that of `item`, if it has any. -/
def Ends (item : Option (ExportedConnection ⊕ ExportedFlow)) (s : Importing)
    (outcome : Except (ImportError × ImportTables) Importing) : Prop :=
  match item with
  | none => ∃ s', outcome = .ok s' ∧ s'.tables = s.tables ∧ s'.draws = s.draws
  | some item =>
    (Refused floats s.tables s.draws.head?.join item ∧ ∃ e, outcome = .error (e, s.tables)) ∨
      ¬ Refused floats s.tables s.draws.head?.join item ∧
        s.tables.rows projectID < (ImportTables.after outcome).rows projectID

variable {floats existing projectID} {s : Importing}

theorem importItem_ends (s : Importing) (item : ExportedConnection ⊕ ExportedFlow) :
    Ends floats projectID ([item].find? (needsRow existing)) s
      (importItem floats existing projectID s item) := by
  cases item with
  | inl ec =>
    rw [importItem, List.find?_singleton, needsRow]
    fun_cases importConnection existing projectID s ec
    next c hc => simp [hc, Ends]
    next hc hcreate =>
      simp only [hc, Option.isNone_none]
      refine .inl ⟨fun d hd => ?_, _, rfl⟩
      simpa [ImportTables.createConnection, Option.mem_def.mp hd] using hcreate
    next hc c t' hcreate =>
      obtain ⟨d, hd, hcreate⟩ := Option.bind_eq_some_iff.mp hcreate
      obtain ⟨hunused, ⟨⟩⟩ := Option.ite_none_left_eq_some.mp hcreate
      simp only [hc, Option.isNone_none]
      refine .inr ⟨fun hused => hunused (hused d hd), ?_⟩
      simp [ImportTables.after, ImportTables.rows, ImportTables.ofProject]
  | inr ef =>
    rw [importItem, List.find?_singleton, needsRow]
    fun_cases importFlow floats projectID s ef
    next hparse => exact .inl ⟨by simp [Refused, hparse], _, rfl⟩
    next file hparse hcreate =>
      refine .inl ⟨fun _ d hd => ?_, _, rfl⟩
      simpa [ImportTables.createFlow, Option.mem_def.mp hd] using hcreate
    next file hparse f t' hcreate =>
      obtain ⟨d, hd, hcreate⟩ := Option.bind_eq_some_iff.mp hcreate
      obtain ⟨hunused, ⟨⟩⟩ := Option.ite_none_left_eq_some.mp hcreate
      refine .inr ⟨fun hused => hunused (hused (hparse ▸ rfl) d hd), ?_⟩
      simp [ImportTables.after, ImportTables.rows, ImportTables.ofProject]

theorem Ends.rows_le {item : Option (ExportedConnection ⊕ ExportedFlow)}
    {outcome : Except (ImportError × ImportTables) Importing}
    (h : Ends floats projectID item s outcome) :
    s.tables.rows projectID ≤ (ImportTables.after outcome).rows projectID := by
  cases item with
  | none =>
    obtain ⟨s', rfl, htables, -⟩ := h
    rw [ImportTables.after, htables]
  | some item =>
    rcases h with ⟨-, e, rfl⟩ | ⟨-, hless⟩
    · exact le_refl _
    · exact hless.le

theorem importItems_ends (items : List (ExportedConnection ⊕ ExportedFlow)) (s : Importing) :
    Ends floats projectID (items.find? (needsRow existing)) s
      (items.foldlM (importItem floats existing projectID) s) := by
  induction items generalizing s with
  | nil => exact ⟨s, rfl, rfl, rfl⟩
  | cons item items ih =>
    have hfirst := @importItem_ends floats existing projectID s item
    rw [List.foldlM_cons]
    by_cases hneeds : needsRow existing item
    · rw [List.find?_cons_of_pos hneeds] at hfirst ⊢
      rcases hfirst with ⟨hrefused, e, he⟩ | ⟨hnot, hless⟩
      · exact .inl ⟨hrefused, e, by rw [he]; rfl⟩
      · refine .inr ⟨hnot, ?_⟩
        cases hnext : importItem floats existing projectID s item with
        | error failure =>
          rw [hnext] at hless
          exact hless
        | ok next =>
          rw [hnext] at hless
          exact hless.trans_le (ih next).rows_le
    · rw [List.find?_cons_of_neg hneeds] at hfirst ⊢
      obtain ⟨s', hs', htables, hdraws⟩ := hfirst
      have hrest := ih s'
      unfold Ends at hrest ⊢
      rw [htables, hdraws] at hrest
      rw [hs']
      exact hrest

theorem importBundle_eq_error {draws : List (Option Draw)} {bundle : FlowExportBundle}
    {t t' : ImportTables} {e : ImportError}
    (h : importBundle floats projectID (some existing) draws bundle t = (.error e, t')) :
    bundle.items.foldlM (importItem floats existing projectID) { tables := t, draws } =
      .error (e, t') := by
  simp only [FlowExportBundle.items, List.foldlM_append, List.foldlM_map]
  change (bundle.connections.foldlM (importConnection existing projectID) _ >>=
    fun s => bundle.flows.foldlM (importFlow floats projectID) s) = _
  dsimp only [importBundle] at h
  split at h
  next hfold =>
    cases h
    rw [hfold]
    rfl
  next s hfold =>
    rw [hfold, ok_bind]
    split at h <;> cases h
    assumption

end Failed

def unreadable (connections : List ExportedConnection) : FlowExportBundle :=
  { bundleNaming "" connections with flows := [⟨"flow", []⟩] }

end DataPipe.ControlPlane
