import DataPipe.Flow.File
import Mathlib.Data.List.Nodup

/-!
# Node types and validation

The registry of `engine/flow/registry.go` and `Validate` of
`engine/flow/validate.go`.  A registry is a parameter of the model: which types
are installed, how a factory reads a configuration and what the schema library
answers are not fixed here.  An instance is known by the interfaces it
implements.
-/

namespace DataPipe.Flow

open DataPipe.Foundation

inductive NodeKind where
  | source
  | processor
  deriving DecidableEq, Repr

structure NodeTypeInfo where
  kind : NodeKind
  inputs : List String
  outputs : List String
  trigger : Bool := false
  configSchema : Option Json := none

structure Instance where
  /-- `DynamicOutputs.OutputPorts`, where the instance implements it. -/
  outputPorts : Option (List String) := none
  isSource : Bool := false
  isProcessor : Bool := false
  isMultiInput : Bool := false
  deriving DecidableEq, Repr

structure Registration where
  info : NodeTypeInfo
  factory : Option Json → Except String Instance

structure Registry where
  lookup : String → Option Registration
  /-- The schema library: the complaint about a document, if there is one. -/
  schemaComplaint : Json → Json → Option String

def modeStreaming : String := "streaming"

def modeTriggered : String := "triggered"

inductive Side where
  | fromSide
  | toSide
  deriving DecidableEq, Repr

inductive Problem where
  | duplicateNode (id : String)
  | unknownType (id typeName : String)
  | schemaMismatch (id complaint : String)
  | invalidConfig (id complaint : String)
  | wireWithoutId
  | duplicateWire (id : String)
  | missingNode (wire : String) (side : Side) (node : String)
  | missingPort (wire : String) (side : Side) (port node : String)
  | modeRequired
  | mixedEntries
  | sourceMode (mode : String)
  | triggerMode (mode : String)
  | noTrigger
  deriving DecidableEq, Repr

def FlowFile.nodeByID (f : FlowFile) (id : String) : Option Node :=
  f.graph.nodes.find? (·.id = id)

def Node.hasErrorPort (n : Node) : Bool :=
  match n.errorPolicy with
  | some policy => policy.onError = "errorPort"
  | none => false

def Registry.info (reg : Registry) (n : Node) : Option NodeTypeInfo :=
  (reg.lookup n.typeName).map Registration.info

def Registry.inputs (reg : Registry) (n : Node) : List String :=
  match reg.info n with
  | some info => info.inputs
  | none => []

def Registry.validateConfigSchema (reg : Registry) (schema config : Option Json) : Option String :=
  match schema with
  | none => none
  | some schema => reg.schemaComplaint schema (config.getD (.obj []))

def Instance.outputs (inst : Instance) (info : NodeTypeInfo) : List String :=
  inst.outputPorts.getD info.outputs

def Registry.nodeOutputs (reg : Registry) (n : Node) : Option (List String) :=
  (reg.lookup n.typeName).map fun r =>
    match reg.validateConfigSchema r.info.configSchema n.config with
    | some _ => r.info.outputs
    | none =>
      match r.factory n.config with
      | .error _ => r.info.outputs
      | .ok inst => inst.outputs r.info

def duplicateNodes : List String → List Node → List Problem
  | _, [] => []
  | seen, n :: nodes =>
    if n.id ∈ seen then .duplicateNode n.id :: duplicateNodes seen nodes
    else duplicateNodes (n.id :: seen) nodes

def Registry.nodeProblems (reg : Registry) (n : Node) : List Problem :=
  match reg.lookup n.typeName with
  | none => [.unknownType n.id n.typeName]
  | some r =>
    match reg.validateConfigSchema r.info.configSchema n.config with
    | some complaint => [.schemaMismatch n.id complaint]
    | none =>
      match r.factory n.config with
      | .error complaint => [.invalidConfig n.id complaint]
      | .ok _ => []

/-! ## Wires

The maps filled in the node loop are keyed by id, so for a repeated id the last
known entry counts, while `nodeByID` keeps the first node. -/

def Registry.infoByID (reg : Registry) (f : FlowFile) (id : String) : Option NodeTypeInfo :=
  ((f.graph.nodes.filter (·.id = id)).filterMap reg.info).getLast?

def Registry.outputsByID (reg : Registry) (f : FlowFile) (id : String) : List String :=
  (((f.graph.nodes.filter (·.id = id)).filterMap reg.nodeOutputs).getLast?).getD []

def outputPortExists (outputs : List String) (n : Option Node) (port : String) : Bool :=
  port ∈ outputs ∨ (port = "error" ∧ n.any Node.hasErrorPort)

def Registry.validateEndpoint (reg : Registry) (f : FlowFile) (wire : String) (side : Side)
    (ep : Endpoint) (portOK : NodeTypeInfo → String → Bool) : List Problem :=
  match f.nodeByID ep.node with
  | none => [.missingNode wire side ep.node]
  | some _ =>
    match reg.infoByID f ep.node with
    | none => []
    | some info =>
      if portOK info ep.port then []
      else [.missingPort wire side ep.port ep.node]

def wireIdProblems (seen : List String) (w : Wire) : List Problem :=
  if w.id = "" then [.wireWithoutId]
  else if w.id ∈ seen then [.duplicateWire w.id]
  else []

def Registry.wireProblems (reg : Registry) (f : FlowFile) :
    List String → List Wire → List Problem
  | _, [] => []
  | seen, w :: wires =>
    wireIdProblems seen w ++
    reg.validateEndpoint f w.id .fromSide w.fromEnd (fun _ port =>
      outputPortExists (reg.outputsByID f w.fromEnd.node)
        (f.nodeByID w.fromEnd.node) port) ++
    reg.validateEndpoint f w.id .toSide w.toEnd (fun info port =>
      port ∈ info.inputs) ++
    reg.wireProblems f (w.id :: seen) wires

def Registry.hasEntry (reg : Registry) (f : FlowFile) (trigger : Bool) : Bool :=
  f.graph.nodes.any fun n =>
    match reg.info n with
    | some info => info.kind = .source ∧ info.trigger = trigger
    | none => false

def Registry.modeProblems (reg : Registry) (f : FlowFile) : List Problem :=
  let hasSource := reg.hasEntry f false
  let hasTrigger := reg.hasEntry f true
  if f.mode = "" then [.modeRequired]
  else if hasSource ∧ hasTrigger then [.mixedEntries]
  else if hasSource ∧ f.mode ≠ modeStreaming then [.sourceMode f.mode]
  else if hasTrigger ∧ f.mode ≠ modeTriggered then [.triggerMode f.mode]
  else if f.mode = modeTriggered ∧ ¬ hasTrigger then [.noTrigger]
  else []

def Registry.validate (reg : Registry) (f : FlowFile) : List Problem :=
  duplicateNodes [] f.graph.nodes ++
  f.graph.nodes.flatMap reg.nodeProblems ++
  reg.wireProblems f [] f.graph.wires ++
  reg.modeProblems f

/-- The ports `startNode` builds a fan-out for. -/
def Instance.effectiveOutputs (inst : Instance) (info : NodeTypeInfo) (n : Node) : List String :=
  inst.outputs info ++ (if n.hasErrorPort then ["error"] else [])

structure Registry.Accepts (reg : Registry) (f : FlowFile) : Prop where
  nodes_nodup : (f.graph.nodes.map Node.id).Nodup
  configured : ∀ n ∈ f.graph.nodes, ∃ r inst,
    reg.lookup n.typeName = some r ∧ r.factory n.config = .ok inst
  wires_nodup : (f.graph.wires.map Wire.id).Nodup
  wire_id_ne : ∀ w ∈ f.graph.wires, w.id ≠ ""
  from_port : ∀ w ∈ f.graph.wires, ∃ n ∈ f.graph.nodes, n.id = w.fromEnd.node ∧
    ∃ r inst, reg.lookup n.typeName = some r ∧ r.factory n.config = .ok inst ∧
      w.fromEnd.port ∈ inst.effectiveOutputs r.info n
  to_port : ∀ w ∈ f.graph.wires, ∃ n ∈ f.graph.nodes, n.id = w.toEnd.node ∧
    w.toEnd.port ∈ reg.inputs n

theorem nodup_of_duplicateNodes (seen : List String) (nodes : List Node)
    (h : duplicateNodes seen nodes = []) :
    (nodes.map Node.id).Nodup ∧ ∀ n ∈ nodes, n.id ∉ seen := by
  induction nodes generalizing seen with
  | nil => simp
  | cons n nodes ih =>
    rw [duplicateNodes] at h
    split at h
    case isTrue => simp at h
    case isFalse hseen =>
      obtain ⟨hnodup, hfresh⟩ := ih _ h
      simp only [List.mem_cons, not_or] at hfresh
      constructor
      · rw [List.map_cons, List.nodup_cons]
        refine ⟨?_, hnodup⟩
        intro hmem
        obtain ⟨m, hm, hid⟩ := List.mem_map.mp hmem
        exact (hfresh m hm).1 hid
      · intro m hm
        rcases List.mem_cons.mp hm with rfl | hm
        · exact hseen
        · exact (hfresh m hm).2

variable {f : FlowFile} {reg : Registry} {n : Node}

theorem configured_of_nodeProblems (h : reg.nodeProblems n = []) :
    ∃ r inst, reg.lookup n.typeName = some r ∧ r.factory n.config = .ok inst ∧
      reg.nodeOutputs n = some (inst.outputs r.info) := by
  unfold Registry.nodeProblems at h
  split at h
  case h_1 => simp at h
  case h_2 r hlookup =>
    split at h
    case h_1 => simp at h
    case h_2 hschema =>
      split at h
      case h_1 => simp at h
      case h_2 inst hinst =>
        refine ⟨r, inst, hlookup, hinst, ?_⟩
        simp [Registry.nodeOutputs, hlookup, hschema, hinst]

theorem filter_id_eq_singleton {nodes : List Node} (hnodup : (nodes.map Node.id).Nodup)
    (hn : n ∈ nodes) : nodes.filter (·.id = n.id) = [n] := by
  induction nodes with
  | nil => simp at hn
  | cons m nodes ih =>
    rw [List.map_cons, List.nodup_cons] at hnodup
    rcases List.mem_cons.mp hn with rfl | hn
    · have hrest : nodes.filter (·.id = n.id) = [] := by
        rw [List.filter_eq_nil_iff]
        intro m hm hid
        apply hnodup.1
        rw [← of_decide_eq_true hid]
        exact List.mem_map_of_mem hm
      rw [List.filter_cons_of_pos (by simp), hrest]
    · have hne : m.id ≠ n.id := by
        intro hid
        apply hnodup.1
        rw [hid]
        exact List.mem_map_of_mem hn
      rw [List.filter_cons_of_neg (by simpa using hne)]
      exact ih hnodup.2 hn

theorem nodeByID_eq_some {id : String}
    (h : f.nodeByID id = some n) : n ∈ f.graph.nodes ∧ n.id = id := by
  have hid := List.find?_some h
  exact ⟨List.mem_of_find?_eq_some h, of_decide_eq_true hid⟩

theorem nodeByID_of_mem (hnodup : (f.graph.nodes.map Node.id).Nodup) (hn : n ∈ f.graph.nodes) :
    f.nodeByID n.id = some n := by
  rw [FlowFile.nodeByID, ← List.head?_filter, filter_id_eq_singleton hnodup hn]
  rfl

theorem validateEndpoint_eq_nil {wire : String} {side : Side} {ep : Endpoint}
    {portOK : NodeTypeInfo → String → Bool} (hnodup : (f.graph.nodes.map Node.id).Nodup)
    (hconf : ∀ n ∈ f.graph.nodes, reg.nodeProblems n = [])
    (h : reg.validateEndpoint f wire side ep portOK = []) :
    ∃ n ∈ f.graph.nodes, n.id = ep.node ∧ f.nodeByID ep.node = some n ∧
      ∃ r, reg.lookup n.typeName = some r ∧ portOK r.info ep.port := by
  unfold Registry.validateEndpoint at h
  split at h
  case h_1 => simp at h
  case h_2 n hfind =>
    obtain ⟨hn, hid⟩ := nodeByID_eq_some hfind
    obtain ⟨r, inst, hlookup, _, _⟩ := configured_of_nodeProblems (hconf n hn)
    have hinfo : reg.infoByID f ep.node = some r.info := by
      rw [Registry.infoByID, ← hid, filter_id_eq_singleton hnodup hn]
      simp [Registry.info, hlookup]
    rw [hinfo] at h
    refine ⟨n, hn, hid, hfind, r, hlookup, ?_⟩
    by_contra hport
    simp [hport] at h

theorem wireProblems_eq_nil (seen : List String) (wires : List Wire)
    (hnodup : (f.graph.nodes.map Node.id).Nodup)
    (hconf : ∀ n ∈ f.graph.nodes, reg.nodeProblems n = [])
    (h : reg.wireProblems f seen wires = []) :
    (wires.map Wire.id).Nodup ∧ ∀ w ∈ wires, w.id ∉ seen ∧ w.id ≠ "" ∧
      (∃ n ∈ f.graph.nodes, n.id = w.fromEnd.node ∧
        ∃ r inst, reg.lookup n.typeName = some r ∧ r.factory n.config = .ok inst ∧
          w.fromEnd.port ∈ inst.effectiveOutputs r.info n) ∧
      ∃ n ∈ f.graph.nodes, n.id = w.toEnd.node ∧ w.toEnd.port ∈ reg.inputs n := by
  induction wires generalizing seen with
  | nil => simp
  | cons w wires ih =>
    rw [Registry.wireProblems] at h
    simp only [List.append_eq_nil_iff] at h
    obtain ⟨⟨⟨hid, hfrom⟩, hto⟩, hrest⟩ := h
    obtain ⟨hwires, hall⟩ := ih _ hrest
    have hidw : w.id ∉ seen ∧ w.id ≠ "" := by
      unfold wireIdProblems at hid
      split at hid
      case isTrue => simp at hid
      case isFalse hne =>
        split at hid
        case isTrue => simp at hid
        case isFalse hseen => exact ⟨hseen, hne⟩
    constructor
    · rw [List.map_cons, List.nodup_cons]
      refine ⟨?_, hwires⟩
      intro hmem
      obtain ⟨v, hv, hvid⟩ := List.mem_map.mp hmem
      have := (hall v hv).1
      simp [hvid] at this
    · intro v hv
      rcases List.mem_cons.mp hv with rfl | hv
      · refine ⟨hidw.1, hidw.2, ?_, ?_⟩
        · obtain ⟨n, hn, hnid, hfind, _, _, hport⟩ :=
            validateEndpoint_eq_nil hnodup hconf hfrom
          obtain ⟨r, inst, hlookup, hinst, houtputs⟩ :=
            configured_of_nodeProblems (hconf n hn)
          refine ⟨n, hn, hnid, r, inst, hlookup, hinst, ?_⟩
          rw [Registry.outputsByID, ← hnid, filter_id_eq_singleton hnodup hn, hnid, hfind] at hport
          simp only [List.filterMap_cons, houtputs, outputPortExists, Option.any_some,
            decide_eq_true_eq] at hport
          rw [Instance.effectiveOutputs, List.mem_append]
          rcases hport with hport | ⟨hport, herr⟩
          · exact .inl hport
          · right
            simp [herr, hport]
        · obtain ⟨n, hn, hnid, _, r, hlookup, hport⟩ :=
            validateEndpoint_eq_nil hnodup hconf hto
          refine ⟨n, hn, hnid, ?_⟩
          simpa [Registry.inputs, Registry.info, hlookup] using hport
      · obtain ⟨hseen, hne, hends⟩ := hall v hv
        exact ⟨fun h => hseen (List.mem_cons_of_mem _ h), hne, hends⟩

theorem accepts_of_validate (h : reg.validate f = []) : reg.Accepts f := by
  unfold Registry.validate at h
  simp only [List.append_eq_nil_iff, List.flatMap_eq_nil_iff] at h
  obtain ⟨⟨⟨hdup, hconf⟩, hwires⟩, _⟩ := h
  have hnodup := (nodup_of_duplicateNodes [] _ hdup).1
  obtain ⟨hwnodup, hw⟩ := wireProblems_eq_nil [] _ hnodup hconf hwires
  refine ⟨hnodup, ?_, hwnodup, ?_, ?_, ?_⟩
  · intro n hn
    obtain ⟨r, inst, hlookup, hinst, _⟩ := configured_of_nodeProblems (hconf n hn)
    exact ⟨r, inst, hlookup, hinst⟩
  · exact fun w hmem => (hw w hmem).2.1
  · exact fun w hmem => (hw w hmem).2.2.1
  · exact fun w hmem => (hw w hmem).2.2.2

end DataPipe.Flow
