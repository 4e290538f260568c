import DataPipe.ControlPlane.Connections
import DataPipe.ControlPlane.Database
import Mathlib.Data.List.AList

/-!
# Export bundles

`buildExportBundle` of `controlplane/internal/api/vcs_export.go`.  Every node's
connection id becomes a reference into the bundle, and the connections that are
found are copied into it.  The lookup goes by the id alone, so the bundle of a
project depends on the connections of others exactly where a node names an id
that is not one of the project's own connections.
-/

namespace DataPipe.ControlPlane

open DataPipe.Foundation DataPipe.Flow

structure ExportedConnection where
  ref : String
  name : String
  typeName : String
  config : List Char
  hasCredential : Bool
  deriving DecidableEq

structure ExportedFlow where
  name : String
  content : List Char
  deriving DecidableEq

structure FlowExportBundle where
  formatVersion : Nat
  exportedAt : String
  projectName : String
  flows : List ExportedFlow
  connections : List ExportedConnection
  deriving DecidableEq

def exportFormatVersion : Nat := 1

/-- `refByConnectionID` and the connections of the bundle so far. -/
structure ExportRefs where
  refByConnectionID : AList fun _ : String => String := ∅
  connections : List ExportedConnection := []

def ConnectionRow.exported (conn : ConnectionRow) (ref : String) : ExportedConnection where
  ref
  name := conn.name
  typeName := conn.typeName
  config := conn.config
  hasCredential := conn.credentialID.isSome

section Build

variable (getConnection : String → Option ConnectionRow)

def exportConnection (refs : ExportRefs) (connection : String) : ExportRefs × String :=
  if connection = "" then (refs, "")
  else
    match refs.refByConnectionID.lookup connection with
    | some ref => (refs, ref)
    | none =>
      match getConnection connection with
      -- a connection that cannot be read leaves the field empty
      | none => (refs, "")
      | some conn =>
        let ref := "ref:" ++ toString refs.connections.length
        ({ refByConnectionID := refs.refByConnectionID.insert connection ref
           connections := refs.connections ++ [conn.exported ref] }, ref)

def exportNodes : ExportRefs → List Format.Node → ExportRefs × List Format.Node
  | refs, [] => (refs, [])
  | refs, n :: nodes =>
    let (refs, connection) := exportConnection getConnection refs n.connection
    let (refs, rest) := exportNodes refs nodes
    (refs, { n with connection } :: rest)

def exportFlows (floats : Float64Text) :
    ExportRefs → List FlowRow → Except String (ExportRefs × List ExportedFlow)
  | refs, [] => .ok (refs, [])
  | refs, f :: flows =>
    match Format.parse floats f.draftContent with
    | none => .error f.name
    | some file =>
      let (refs, nodes) := exportNodes getConnection refs file.graph.nodes
      let content :=
        Format.FlowFile.marshalCanonical { file with graph := { file.graph with nodes } }
      match exportFlows floats refs flows with
      | .error name => .error name
      | .ok (refs, rest) => .ok (refs, ⟨f.name, content⟩ :: rest)

end Build

def buildExportBundle (floats : Float64Text) (connections : List ConnectionRow)
    (now projectName : String) (flows : List FlowRow) : Except String FlowExportBundle :=
  match exportFlows (fun id => connections.find? (·.id = id)) floats {} flows with
  | .error name => .error name
  | .ok (refs, exported) =>
    .ok
      { formatVersion := exportFormatVersion
        exportedAt := now
        projectName
        flows := exported
        connections := refs.connections }

def connectionFields (floats : Float64Text) (flows : List FlowRow) : List String :=
  flows.flatMap fun f =>
    match Format.parse floats f.draftContent with
    | none => []
    | some file => file.graph.nodes.map Format.Node.connection

variable {flows : List FlowRow} {floats : Float64Text}

section Reads

variable {refs : ExportRefs} {getConnection getConnection' : String → Option ConnectionRow}

theorem exportConnection_congr {connection : String}
    (hsame : connection ≠ "" → getConnection connection = getConnection' connection) :
    exportConnection getConnection refs connection =
      exportConnection getConnection' refs connection := by
  by_cases hempty : connection = ""
  · simp [exportConnection, hempty]
  · simp only [exportConnection, hsame hempty]

theorem exportNodes_congr {nodes : List Format.Node}
    (hsame : ∀ x ∈ nodes.map Format.Node.connection, x ≠ "" → getConnection x = getConnection' x) :
    exportNodes getConnection refs nodes = exportNodes getConnection' refs nodes := by
  induction nodes generalizing refs with
  | nil => rfl
  | cons n nodes ih =>
    have hhead := hsame n.connection List.mem_cons_self
    have htail : ∀ x ∈ nodes.map Format.Node.connection, x ≠ "" →
        getConnection x = getConnection' x :=
      fun x hx => hsame x (List.mem_cons_of_mem _ hx)
    simp only [exportNodes, exportConnection_congr hhead, ih htail]

theorem exportFlows_congr
    (hsame : ∀ x ∈ connectionFields floats flows, x ≠ "" → getConnection x = getConnection' x) :
    exportFlows getConnection floats refs flows =
      exportFlows getConnection' floats refs flows := by
  induction flows generalizing refs with
  | nil => rfl
  | cons f flows ih =>
    have htail : ∀ x ∈ connectionFields floats flows, x ≠ "" → getConnection x = getConnection' x :=
      fun x hx => hsame x (List.mem_append_right _ hx)
    cases hfile : Format.parse floats f.draftContent with
    | none => simp only [exportFlows, hfile]
    | some file =>
      have hnodes : ∀ x ∈ file.graph.nodes.map Format.Node.connection, x ≠ "" →
          getConnection x = getConnection' x := by
        intro x hx
        refine hsame x ?_
        rw [connectionFields, List.flatMap_cons, hfile]
        exact List.mem_append_left _ hx
      simp only [exportFlows, hfile, exportNodes_congr hnodes, ih htail]

theorem exportFlows_error (hflow : ∃ f ∈ flows, Format.parse floats f.draftContent = none) :
    ∃ name, ∀ getConnection refs, exportFlows getConnection floats refs flows = .error name := by
  induction flows with
  | nil =>
    obtain ⟨f, hf, -⟩ := hflow
    exact absurd hf List.not_mem_nil
  | cons f flows ih =>
    cases hfile : Format.parse floats f.draftContent with
    | none => exact ⟨f.name, fun getConnection refs => by simp only [exportFlows, hfile]⟩
    | some file =>
      obtain ⟨g, hg, hnone⟩ := hflow
      have hrest : g ∈ flows := by
        rcases List.mem_cons.mp hg with rfl | hg
        · rw [hfile] at hnone
          contradiction
        · exact hg
      obtain ⟨name, hname⟩ := ih ⟨g, hrest, hnone⟩
      exact ⟨name, fun getConnection refs => by simp only [exportFlows, hfile, hname]⟩

end Reads

structure Collected (getConnection : String → Option ConnectionRow) (seen : List String)
    (refs : ExportRefs) : Prop where
  mem : ∀ x, x ∈ refs.refByConnectionID ↔ x ∈ seen ∧ x ≠ "" ∧ (getConnection x).isSome
  length : refs.connections.length = refs.refByConnectionID.keys.length

section Collect

variable {getConnection getConnection' : String → Option ConnectionRow}

theorem collected_nil : Collected getConnection [] {} where
  mem := by simp
  length := rfl

variable {seen : List String} {refs : ExportRefs} {x : String} {refs' : ExportRefs}

theorem Collected.same (h : Collected getConnection seen refs)
    (hx : x ≠ "" → (getConnection x).isSome → x ∈ seen) :
    Collected getConnection (seen ++ [x]) refs where
  mem := by
    intro y
    rw [h.mem, List.mem_append, List.mem_singleton]
    constructor
    · exact fun ⟨hseen, hrest⟩ => ⟨.inl hseen, hrest⟩
    · rintro ⟨hseen | rfl, hne, hfound⟩
      · exact ⟨hseen, hne, hfound⟩
      · exact ⟨hx hne hfound, hne, hfound⟩
  length := h.length

theorem Collected.insert (h : Collected getConnection seen refs) {ref : String}
    {connection : ExportedConnection} (hne : x ≠ "") (hfound : (getConnection x).isSome)
    (hnew : x ∉ refs.refByConnectionID) :
    Collected getConnection (seen ++ [x])
      { refByConnectionID := refs.refByConnectionID.insert x ref
        connections := refs.connections ++ [connection] } where
  mem := by
    intro y
    rw [AList.mem_insert, h.mem, List.mem_append, List.mem_singleton]
    constructor
    · rintro (rfl | ⟨hseen, hrest⟩)
      · exact ⟨.inr rfl, hne, hfound⟩
      · exact ⟨.inl hseen, hrest⟩
    · rintro ⟨hseen | rfl, hrest⟩
      · exact .inr ⟨hseen, hrest⟩
      · exact .inl rfl
  length := by
    have hkeys : x ∉ refs.refByConnectionID.keys := hnew
    rw [AList.keys_insert, List.erase_of_not_mem hkeys]
    simp [h.length]

theorem Collected.exportConnection (h : Collected getConnection seen refs) (x : String) :
    Collected getConnection (seen ++ [x])
      (ControlPlane.exportConnection getConnection refs x).1 := by
  by_cases hempty : x = ""
  · rw [ControlPlane.exportConnection, if_pos hempty]
    exact h.same fun hne => absurd hempty hne
  · rw [ControlPlane.exportConnection, if_neg hempty]
    cases href : refs.refByConnectionID.lookup x with
    | some ref =>
      have hkey : x ∈ refs.refByConnectionID := AList.lookup_isSome.mp (href ▸ rfl)
      exact h.same fun _ _ => ((h.mem x).mp hkey).1
    | none =>
      cases hconn : getConnection x with
      | none => exact h.same fun _ hfound => absurd hfound (by simp [hconn])
      | some conn => exact h.insert hempty (hconn ▸ rfl) (AList.lookup_eq_none.mp href)

theorem Collected.exportNodes (h : Collected getConnection seen refs) (nodes : List Format.Node) :
    Collected getConnection (seen ++ nodes.map Format.Node.connection)
      (ControlPlane.exportNodes getConnection refs nodes).1 := by
  induction nodes generalizing seen refs with
  | nil =>
    rw [List.map_nil, List.append_nil]
    exact h
  | cons n nodes ih =>
    rw [List.map_cons, List.append_cons]
    exact ih (h.exportConnection n.connection)

theorem Collected.exportFlows (h : Collected getConnection seen refs) {exported : List ExportedFlow}
    (hexport : ControlPlane.exportFlows getConnection floats refs flows = .ok (refs', exported)) :
    Collected getConnection (seen ++ connectionFields floats flows) refs' := by
  induction flows generalizing seen refs exported with
  | nil =>
    cases hexport
    rw [connectionFields, List.flatMap_nil, List.append_nil]
    exact h
  | cons f flows ih =>
    cases hfile : Format.parse floats f.draftContent with
    | none => simp only [ControlPlane.exportFlows, hfile, reduceCtorEq] at hexport
    | some file =>
      simp only [ControlPlane.exportFlows, hfile] at hexport
      have hnodes := h.exportNodes file.graph.nodes
      rw [connectionFields, List.flatMap_cons, hfile, ← List.append_assoc]
      split at hexport
      · contradiction
      next last rest hrest =>
        cases hexport
        exact ih hnodes hrest

theorem exportFlows_ok (getConnection : String → Option ConnectionRow) (refs : ExportRefs)
    (hparse : ∀ f ∈ flows, Format.parse floats f.draftContent ≠ none) :
    ∃ refs' exported, ControlPlane.exportFlows getConnection floats refs flows =
      .ok (refs', exported) := by
  induction flows generalizing refs with
  | nil => exact ⟨refs, [], rfl⟩
  | cons f flows ih =>
    obtain ⟨file, hfile⟩ := Option.ne_none_iff_exists'.mp (hparse f List.mem_cons_self)
    have htail := fun g hg => hparse g (List.mem_cons_of_mem _ hg)
    obtain ⟨last, rest, hrest⟩ := ih (exportNodes getConnection refs file.graph.nodes).1 htail
    simp only [ControlPlane.exportFlows, hfile, hrest]
    exact ⟨_, _, rfl⟩

theorem Collected.length_lt (h : Collected getConnection seen refs)
    (h' : Collected getConnection' seen refs') (hx : x ∈ seen) (hne : x ≠ "")
    (hfound : (getConnection x).isSome) (hlost : getConnection' x = none)
    (hothers : ∀ other ≠ x, getConnection' other = getConnection other) :
    refs'.connections.length < refs.connections.length := by
  rw [h.length, h'.length]
  have hnot : x ∉ refs'.refByConnectionID.keys := by
    intro hmem
    have := ((h'.mem x).mp hmem).2.2
    rw [hlost] at this
    contradiction
  have hsubset : x :: refs'.refByConnectionID.keys ⊆ refs.refByConnectionID.keys := by
    intro y hy
    rcases List.mem_cons.mp hy with rfl | hy
    · exact (h.mem y).mpr ⟨hx, hne, hfound⟩
    · have hyx : y ≠ x := fun heq => hnot (heq ▸ hy)
      obtain ⟨hseen, hyne, hyfound⟩ := (h'.mem y).mp hy
      exact (h.mem y).mpr ⟨hseen, hyne, hothers y hyx ▸ hyfound⟩
  have hnodup : (x :: refs'.refByConnectionID.keys).Nodup :=
    List.nodup_cons.mpr ⟨hnot, refs'.refByConnectionID.keys_nodup⟩
  exact (List.subperm_of_subset hnodup hsubset).length_le

end Collect

def OwnConnection (connections : List ConnectionRow) (projectID connection : String) : Prop :=
  connection = "" ∨
    ∃ row, connections.find? (·.id = connection) = some row ∧ row.projectID = projectID

variable {connections connections' : List ConnectionRow} {projectName : String}

theorem buildExportBundle_of_own {projectID now : String}
    (hagree : AgreeOn ConnectionRow.id ConnectionRow.projectID projectID connections connections')
    (hown : ∀ x ∈ connectionFields floats flows, OwnConnection connections projectID x) :
    buildExportBundle floats connections' now projectName flows =
      buildExportBundle floats connections now projectName flows := by
  have hsame : ∀ x ∈ connectionFields floats flows, x ≠ "" →
      connections'.find? (·.id = x) = connections.find? (·.id = x) := by
    intro x hx hne
    obtain ⟨row, hrow, hproject⟩ := (hown x hx).resolve_left hne
    rw [hagree.find?_eq hrow hproject, hrow]
  rw [buildExportBundle, exportFlows_congr hsame, buildExportBundle]

theorem buildExportBundle_ne {now x : String}
    (hparse : ∀ f ∈ flows, Format.parse floats f.draftContent ≠ none)
    (hx : x ∈ connectionFields floats flows) (hne : x ≠ "")
    (hfound : (connections'.find? (·.id = x)).isSome ≠ (connections.find? (·.id = x)).isSome)
    (hothers : ∀ other ≠ x, connections'.find? (·.id = other) = connections.find? (·.id = other)) :
    buildExportBundle floats connections' now projectName flows ≠
      buildExportBundle floats connections now projectName flows := by
  obtain ⟨refs, exported, hexport⟩ :=
    exportFlows_ok (fun id => connections.find? (·.id = id)) {} hparse
  obtain ⟨refs', exported', hexport'⟩ :=
    exportFlows_ok (fun id => connections'.find? (·.id = id)) {} hparse
  have hcollected := collected_nil.exportFlows hexport
  have hcollected' := collected_nil.exportFlows hexport'
  have hlength : refs'.connections.length ≠ refs.connections.length := by
    cases hfind : connections.find? (·.id = x) with
    | some row =>
      rw [hfind] at hfound
      have hnone : connections'.find? (·.id = x) = none := by simpa using hfound
      exact (hcollected.length_lt hcollected' hx hne (by simp [hfind]) hnone hothers).ne
    | none =>
      rw [hfind] at hfound
      have hsome : (connections'.find? (·.id = x)).isSome := by simpa using hfound
      exact (hcollected'.length_lt hcollected hx hne hsome hfind
        fun other hother => (hothers other hother).symm).ne'
  intro heq
  rw [buildExportBundle, buildExportBundle, hexport, hexport'] at heq
  have hbundle := Except.ok.inj heq
  exact hlength (congrArg (fun bundle => bundle.connections.length) hbundle)

/--
The bundle is the same for all tables that agree on the project exactly when every connection
field of its flows is empty or names a connection of the project; or when a flow cannot be
parsed, and the export is refused.
-/
theorem export_depends_on_own_project_iff {floats : Float64Text} {connections : List ConnectionRow}
    (hunique : (connections.map ConnectionRow.id).Nodup) (projectID now projectName : String)
    (flows : List FlowRow) :
    (∀ connections',
      AgreeOn ConnectionRow.id ConnectionRow.projectID projectID connections connections' →
      buildExportBundle floats connections' now projectName flows =
        buildExportBundle floats connections now projectName flows) ↔
    (∃ f ∈ flows, Format.parse floats f.draftContent = none) ∨
      ∀ x ∈ connectionFields floats flows, OwnConnection connections projectID x := by
  constructor
  · intro hsame
    by_contra hnot
    simp only [not_or, not_exists, not_and, not_forall] at hnot
    obtain ⟨hparse, x, hx, hforeign⟩ := hnot
    obtain ⟨hne, hforeign⟩ := not_or.mp hforeign
    -- the project `q` is not the one that is exported
    let q := projectID ++ "'"
    have hq : q ≠ projectID := by
      intro heq
      have hlength := congrArg String.length heq
      simp [q, String.length_append] at hlength
    have hrow : ∃ row : ConnectionRow, row.id = x ∧ row.projectID ≠ projectID :=
      ⟨{ id := x, projectID := q, name := "", typeName := "", config := [],
         credentialID := none }, rfl, hq⟩
    obtain ⟨connections', hagree, hfound, hothers⟩ := exists_agreeOn_isSome_ne hunique
      (fun row hrow hproject => hforeign ⟨row, hrow, hproject⟩) hrow
    exact buildExportBundle_ne hparse hx hne hfound hothers (hsame connections' hagree)
  · rintro (hflow | hown) connections' hagree
    · obtain ⟨name, hname⟩ := exportFlows_error hflow
      rw [buildExportBundle, buildExportBundle, hname, hname]
    · exact buildExportBundle_of_own hagree hown

def exportedFlow : FlowRow where
  id := "f"
  projectID := "p"
  name := "flow"
  draftContent :=
    "\x7b\"graph\":\x7b\"nodes\":[\x7b\"connection\":\"x\"\x7d]\x7d\x7d".toList
  createdAt := ""
  updatedAt := ""

def connectionOf (projectID name : String) : ConnectionRow where
  id := "x"
  projectID
  name
  typeName := "http"
  config := []
  credentialID := none

theorem fields_exportedFlow : connectionFields Format.exactFloats [exportedFlow] = ["x"] := by
  decide +kernel

theorem own_connection_exported :
    ([connectionOf "p" "n"].map ConnectionRow.id).Nodup ∧
      ∀ connections', AgreeOn ConnectionRow.id ConnectionRow.projectID "p" [connectionOf "p" "n"]
          connections' →
        buildExportBundle Format.exactFloats connections' "now" "" [exportedFlow] =
          buildExportBundle Format.exactFloats [connectionOf "p" "n"] "now" "" [exportedFlow] := by
  have hunique : ([connectionOf "p" "n"].map ConnectionRow.id).Nodup := by decide
  refine ⟨hunique,
    (export_depends_on_own_project_iff hunique "p" "now" "" [exportedFlow]).mpr (.inr ?_)⟩
  rw [fields_exportedFlow]
  intro x hx
  obtain rfl := List.mem_singleton.mp hx
  exact .inr ⟨connectionOf "p" "n", rfl, rfl⟩

/--
Two tables that differ in the name of a connection of the project `q`: both agree on `p`, and
the bundle of the flow of `p` carries the name.
-/
theorem foreign_connection_exported :
    AgreeOn ConnectionRow.id ConnectionRow.projectID "p" [connectionOf "q" "a"]
      [connectionOf "q" "b"] ∧
    (buildExportBundle Format.exactFloats [connectionOf "q" "a"] "now" ""
      [exportedFlow]).toOption.map FlowExportBundle.connections =
        some [⟨"ref:0", "a", "http", [], false⟩] ∧
    (buildExportBundle Format.exactFloats [connectionOf "q" "b"] "now" ""
      [exportedFlow]).toOption.map FlowExportBundle.connections =
        some [⟨"ref:0", "b", "http", [], false⟩] ∧
    buildExportBundle Format.exactFloats [connectionOf "q" "b"] "now" "" [exportedFlow] ≠
      buildExportBundle Format.exactFloats [connectionOf "q" "a"] "now" "" [exportedFlow] := by
  refine ⟨⟨by decide, by decide, by decide⟩, by decide +kernel, by decide +kernel, fun heq => ?_⟩
  have hsame := congrArg (fun r => r.toOption.map FlowExportBundle.connections) heq
  exact absurd hsame (by decide +kernel)

end DataPipe.ControlPlane
