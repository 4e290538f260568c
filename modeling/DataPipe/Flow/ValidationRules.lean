import DataPipe.Flow.Validate

/-!
# What Validate decides

The validation rules of section 7 of `docs/Flow-File-Format.md` that `engine/flow/validate.go`
implements, and how far an empty list of problems says that they hold.  Those about nodes and
wires are decided exactly.  The mode is only compared with the entry nodes that are found, so a
file without any is accepted in every mode but `triggered`.
-/

namespace DataPipe.Flow

open DataPipe.Foundation

/-- The type of the node is registered, and its schema and its factory accept the config. -/
def Registry.Configures (reg : Registry) (n : Node) : Prop :=
  ∃ r inst, reg.lookup n.typeName = some r ∧
    reg.validateConfigSchema r.info.configSchema n.config = none ∧
    r.factory n.config = .ok inst

def Registry.OutputOf (reg : Registry) (n : Node) (port : String) : Prop :=
  ∃ r inst, reg.lookup n.typeName = some r ∧ r.factory n.config = .ok inst ∧
    (port ∈ inst.outputs r.info ∨ port = "error" ∧ n.hasErrorPort = true)

structure Registry.GraphRules (reg : Registry) (f : FlowFile) : Prop where
  nodes_nodup : (f.graph.nodes.map Node.id).Nodup
  configured : ∀ n ∈ f.graph.nodes, reg.Configures n
  wires_nodup : (f.graph.wires.map Wire.id).Nodup
  wire_id_ne : ∀ w ∈ f.graph.wires, w.id ≠ ""
  from_port : ∀ w ∈ f.graph.wires, ∃ n ∈ f.graph.nodes, n.id = w.fromEnd.node ∧
    reg.OutputOf n w.fromEnd.port
  to_port : ∀ w ∈ f.graph.wires, ∃ n ∈ f.graph.nodes, n.id = w.toEnd.node ∧
    w.toEnd.port ∈ reg.inputs n

def Registry.Entry (reg : Registry) (f : FlowFile) (trigger : Bool) : Prop :=
  ∃ n ∈ f.graph.nodes, ∃ info, reg.info n = some info ∧ info.kind = .source ∧ info.trigger = trigger

structure Registry.ModeRules (reg : Registry) (f : FlowFile) : Prop where
  known : f.mode = modeStreaming ∨ f.mode = modeTriggered
  streaming : f.mode = modeStreaming → reg.Entry f false ∧ ¬ reg.Entry f true
  triggered : f.mode = modeTriggered → reg.Entry f true ∧ ¬ reg.Entry f false

theorem duplicateNodes_eq_nil (seen : List String) (nodes : List Node)
    (hnodup : (nodes.map Node.id).Nodup) (hfresh : ∀ n ∈ nodes, n.id ∉ seen) :
    duplicateNodes seen nodes = [] := by
  induction nodes generalizing seen with
  | nil => rfl
  | cons n nodes ih =>
    rw [List.map_cons, List.nodup_cons] at hnodup
    rw [duplicateNodes, if_neg (hfresh n (by simp))]
    apply ih _ hnodup.2
    intro m hm hseen
    rcases List.mem_cons.mp hseen with hid | hseen
    · exact hnodup.1 (hid ▸ List.mem_map_of_mem hm)
    · exact hfresh m (List.mem_cons_of_mem _ hm) hseen

variable {n : Node} {port : String} (nodes : List Node)

theorem duplicateNodes_eq_nil_iff : duplicateNodes [] nodes = [] ↔ (nodes.map Node.id).Nodup := by
  constructor
  · exact fun h => (nodup_of_duplicateNodes [] nodes h).1
  · exact fun h => duplicateNodes_eq_nil [] nodes h (by simp)

theorem nodeProblems_eq_nil_iff (reg : Registry) (n : Node) :
    reg.nodeProblems n = [] ↔ reg.Configures n := by
  unfold Registry.nodeProblems Registry.Configures
  cases hlookup : reg.lookup n.typeName with
  | none => simp
  | some r =>
    cases hschema : reg.validateConfigSchema r.info.configSchema n.config with
    | some complaint => simp [hschema]
    | none => cases hinst : r.factory n.config <;> simp [hschema, hinst]

section Wires

variable {reg : Registry} {f : FlowFile}

theorem infoByID_of_mem (hnodup : (f.graph.nodes.map Node.id).Nodup) (hn : n ∈ f.graph.nodes) :
    reg.infoByID f n.id = reg.info n := by
  rw [Registry.infoByID, filter_id_eq_singleton hnodup hn]
  cases hinfo : reg.info n <;> simp [hinfo]

theorem outputsByID_of_mem (hnodup : (f.graph.nodes.map Node.id).Nodup) (hn : n ∈ f.graph.nodes) :
    reg.outputsByID f n.id = (reg.nodeOutputs n).getD [] := by
  rw [Registry.outputsByID, filter_id_eq_singleton hnodup hn]
  cases houtputs : reg.nodeOutputs n <;> simp [houtputs]

theorem outputPortExists_of_outputOf (hnodup : (f.graph.nodes.map Node.id).Nodup)
    (hn : n ∈ f.graph.nodes) (hconf : reg.Configures n) (hport : reg.OutputOf n port) :
    outputPortExists (reg.outputsByID f n.id) (f.nodeByID n.id) port = true := by
  obtain ⟨r, inst, hlookup, hschema, hinst⟩ := hconf
  obtain ⟨r', inst', hlookup', hinst', hport⟩ := hport
  cases hlookup.symm.trans hlookup'
  cases hinst.symm.trans hinst'
  rw [outputsByID_of_mem hnodup hn, nodeByID_of_mem hnodup hn]
  simpa [outputPortExists, Registry.nodeOutputs, hlookup, hschema, hinst] using hport

theorem validateEndpoint_of_portOK (hnodup : (f.graph.nodes.map Node.id).Nodup)
    (hn : n ∈ f.graph.nodes) {wire : String} {side : Side} {ep : Endpoint}
    {portOK : NodeTypeInfo → String → Bool} (hid : n.id = ep.node)
    (hport : ∀ info, reg.info n = some info → portOK info ep.port = true) :
    reg.validateEndpoint f wire side ep portOK = [] := by
  rw [Registry.validateEndpoint, ← hid, nodeByID_of_mem hnodup hn, infoByID_of_mem hnodup hn]
  cases hinfo : reg.info n with
  | none => rfl
  | some info => exact if_pos (hport info hinfo)

theorem wireProblems_of_rules (hrules : reg.GraphRules f) (seen : List String) (wires : List Wire)
    (hsub : ∀ w ∈ wires, w ∈ f.graph.wires) (hwires : (wires.map Wire.id).Nodup)
    (hfresh : ∀ w ∈ wires, w.id ∉ seen) : reg.wireProblems f seen wires = [] := by
  induction wires generalizing seen with
  | nil => rfl
  | cons w wires ih =>
    rw [List.map_cons, List.nodup_cons] at hwires
    have hw := hsub w (by simp)
    have hid : wireIdProblems seen w = [] := by
      rw [wireIdProblems, if_neg (hrules.wire_id_ne w hw), if_neg (hfresh w (by simp))]
    obtain ⟨source, hsource, hsourceId, houtput⟩ := hrules.from_port w hw
    obtain ⟨target, htarget, htargetId, hinput⟩ := hrules.to_port w hw
    have hrest : reg.wireProblems f (w.id :: seen) wires = [] := by
      apply ih _ (fun v hv => hsub v (List.mem_cons_of_mem _ hv)) hwires.2
      intro v hv hseen
      rcases List.mem_cons.mp hseen with heq | hseen
      · exact hwires.1 (heq ▸ List.mem_map_of_mem hv)
      · exact hfresh v (List.mem_cons_of_mem _ hv) hseen
    rw [Registry.wireProblems, hid, hrest]
    rw [validateEndpoint_of_portOK hrules.nodes_nodup hsource hsourceId,
      validateEndpoint_of_portOK hrules.nodes_nodup htarget htargetId]
    · rfl
    · intro info hinfo
      simpa [Registry.inputs, hinfo] using hinput
    · intro info _
      rw [← hsourceId]
      exact outputPortExists_of_outputOf hrules.nodes_nodup hsource
        (hrules.configured source hsource) houtput

end Wires

theorem outputOf_of_mem_effectiveOutputs {reg : Registry} {r : Registration} {inst : Instance}
    (hlookup : reg.lookup n.typeName = some r) (hinst : r.factory n.config = .ok inst)
    (hport : port ∈ inst.effectiveOutputs r.info n) : reg.OutputOf n port := by
  refine ⟨r, inst, hlookup, hinst, ?_⟩
  rw [Instance.effectiveOutputs, List.mem_append] at hport
  rcases hport with hport | hport
  · exact .inl hport
  · split at hport
    next herror => exact .inr ⟨List.mem_singleton.mp hport, herror⟩
    · cases hport

theorem graph_problems_eq_nil_iff (reg : Registry) (f : FlowFile) :
    (duplicateNodes [] f.graph.nodes = [] ∧ f.graph.nodes.flatMap reg.nodeProblems = [] ∧
      reg.wireProblems f [] f.graph.wires = []) ↔ reg.GraphRules f := by
  rw [duplicateNodes_eq_nil_iff, List.flatMap_eq_nil_iff]
  constructor
  · rintro ⟨hnodup, hnodes, hwires⟩
    obtain ⟨hwnodup, hends⟩ := wireProblems_eq_nil [] _ hnodup hnodes hwires
    refine ⟨hnodup, fun n hn => (nodeProblems_eq_nil_iff reg n).mp (hnodes n hn), hwnodup,
      fun w hw => (hends w hw).2.1, ?_, fun w hw => (hends w hw).2.2.2⟩
    intro w hw
    obtain ⟨n, hn, hid, r, inst, hlookup, hinst, hport⟩ := (hends w hw).2.2.1
    exact ⟨n, hn, hid, outputOf_of_mem_effectiveOutputs hlookup hinst hport⟩
  · intro hrules
    refine ⟨hrules.nodes_nodup, ?_, ?_⟩
    · exact fun n hn => (nodeProblems_eq_nil_iff reg n).mpr (hrules.configured n hn)
    · exact wireProblems_of_rules hrules [] _ (fun w hw => hw) hrules.wires_nodup (by simp)

theorem hasEntry_iff (reg : Registry) (f : FlowFile) (trigger : Bool) :
    reg.hasEntry f trigger = true ↔ reg.Entry f trigger := by
  unfold Registry.hasEntry Registry.Entry
  rw [List.any_eq_true]
  refine exists_congr fun n => and_congr_right fun _ => ?_
  cases hinfo : reg.info n <;> simp

theorem modeProblems_eq_nil_iff (reg : Registry) (f : FlowFile) :
    reg.modeProblems f = [] ↔ reg.ModeRules f ∨
      ¬ reg.Entry f false ∧ ¬ reg.Entry f true ∧ f.mode ≠ "" ∧ f.mode ≠ modeTriggered := by
  have hne : modeStreaming ≠ modeTriggered := by decide
  have hstreaming : modeStreaming ≠ "" := by decide
  have htriggered : modeTriggered ≠ "" := by decide
  have hrules : reg.ModeRules f ↔
      f.mode = modeStreaming ∧ reg.Entry f false ∧ ¬ reg.Entry f true ∨
        f.mode = modeTriggered ∧ reg.Entry f true ∧ ¬ reg.Entry f false := by
    constructor
    · rintro ⟨hmode | hmode, hs, ht⟩
      · exact .inl ⟨hmode, hs hmode⟩
      · exact .inr ⟨hmode, ht hmode⟩
    · rintro (⟨hmode, hentry⟩ | ⟨hmode, hentry⟩)
      · exact ⟨.inl hmode, fun _ => hentry, fun h => absurd (hmode.symm.trans h) hne⟩
      · exact ⟨.inr hmode, fun h => absurd (h.symm.trans hmode) hne, fun _ => hentry⟩
  rw [hrules, ← hasEntry_iff, ← hasEntry_iff]
  unfold Registry.modeProblems
  grind

theorem validate_eq_nil_iff (reg : Registry) (f : FlowFile) :
    reg.validate f = [] ↔ reg.GraphRules f ∧ reg.modeProblems f = [] := by
  rw [← graph_problems_eq_nil_iff]
  simp only [Registry.validate, List.append_eq_nil_iff, and_assoc]

/--
`Validate` decides the rules exactly on the files that have an entry node, that have no
mode or the mode `triggered`, or that break a rule about nodes and wires.
-/
theorem validate_decides_rules_iff (reg : Registry) (f : FlowFile) :
    (reg.validate f = [] ↔ reg.GraphRules f ∧ reg.ModeRules f) ↔
      reg.Entry f false ∨ reg.Entry f true ∨ f.mode = "" ∨ f.mode = modeTriggered ∨
        ¬ reg.GraphRules f := by
  rw [validate_eq_nil_iff, modeProblems_eq_nil_iff]
  have hclash : ¬ reg.Entry f false → ¬ reg.Entry f true → ¬ reg.ModeRules f := by
    intro hsource htrigger hrules
    rcases hrules.known with hmode | hmode
    · exact hsource (hrules.streaming hmode).1
    · exact htrigger (hrules.triggered hmode).1
  grind

/-! A streaming flow without a source is accepted. -/

def sinkOnlyRegistry : Registry where
  lookup := fun _ => some
    { info := { kind := .processor, inputs := ["in"], outputs := [] }
      factory := fun _ => .ok { isProcessor := true } }
  schemaComplaint := fun _ _ => none

def sinkOnlyFlow : FlowFile where
  id := "flow"
  mode := modeStreaming
  graph := { nodes := [{ id := "log", typeName := "log", typeVersion := 1 }], wires := [] }

theorem sourceless_streaming_flow_accepted :
    ¬ (sinkOnlyRegistry.validate sinkOnlyFlow = [] ↔
      sinkOnlyRegistry.GraphRules sinkOnlyFlow ∧ sinkOnlyRegistry.ModeRules sinkOnlyFlow) := by
  intro h
  have hsource : sinkOnlyRegistry.Entry sinkOnlyFlow false :=
    ((h.mp (by decide)).2.streaming rfl).1
  exact absurd ((hasEntry_iff _ _ _).mpr hsource) (by decide)

end DataPipe.Flow
