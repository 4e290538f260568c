import DataPipe.Flow.Format

/-!
# The canonical round trip

Every part of a flow file is decoded from the canonical form of what it is
encoded to, so `Parse` of the canonical text gives the sorted file back, with its
configurations in canonical form.
-/

set_option linter.dupNamespace false

namespace DataPipe.Flow.Format

open DataPipe.Foundation

section Omitted

variable {floats : Float64Text}

@[simp] theorem readBack_nonEmpty (s : String) :
    readBack decodeString "" (nonEmpty s) = some s := by
  unfold nonEmpty
  split
  next h => rw [h, readBack_none]
  · exact readBack_string "" s

@[simp] theorem readBack_nonFalse (b : Bool) : readBack decodeBool false (nonFalse b) = some b := by
  cases b <;> rfl

@[simp] theorem readBack_intJson (old n : Int64) :
    readBack decodeInt old (some (intJson n)) = some n := readBack_int old n

@[simp] theorem readBack_nonZero (n : Int64) : readBack decodeInt 0 (nonZero n.toInt) = some n := by
  unfold nonZero
  split
  next h =>
    have hzero : n = 0 := Int64.toInt_inj.mp h
    rw [hzero, readBack_none]
  · exact readBack_int 0 n

@[simp] theorem readBack_optionalInt (n : Option Int64) :
    readBack (decodePointer decodeInt 0) none (n.map intJson) = some n := by
  cases n with
  | none => rfl
  | some n =>
    change (parseInt (intLit n.toInt)).map some = _
    rw [parseInt_intLit]
    rfl

@[simp] theorem readBack_nonNil (v : GoValue floats) :
    readBack (decodeAny floats) (.nil floats) (nonNil v) = some v := by
  unfold nonNil
  split
  next h =>
    cases v
    cases h
    rfl
  · exact readBack_any _ v

variable {α : Type} {decode : Decoder α} {zero : α} {encode : α → Json} (xs : List α)

theorem readBack_nonEmptyItems (hread : ∀ x, readBack decode zero (some (encode x)) = some x) :
    readBack (decodeSlice decode zero) [] (nonEmptyItems (xs.map encode)) = some xs := by
  cases xs with
  | nil => rfl
  | cons x xs =>
    have hslice := readBack_slice (f := id) (x :: xs) fun y _ => hread y
    rwa [List.map_id] at hslice

theorem readBack_sliceJson {f : α → α}
    (hread : ∀ x, readBack decode zero (some (encode x)) = some (f x)) :
    readBack (decodeSlice decode zero) [] (some (sliceJson (xs.map encode))) =
      some (xs.map f) := by
  cases xs with
  | nil => rfl
  | cons x xs => exact readBack_slice (x :: xs) fun y _ => hread y

theorem readBack_nonEmptyMap (m : KeyMap α)
    (hread : ∀ x, readBack decode zero (some (encode x)) = some x) :
    readBack (decodeMap decode zero) .empty
      (nonEmptyMap (m.entries.map (Prod.map id encode))) = some m := by
  obtain ⟨entries, hascending⟩ := m
  cases entries with
  | nil => rfl
  | cons entry entries => exact readBack_map ⟨entry :: entries, hascending⟩ fun e _ => hread e.2

end Omitted

section Structs

variable {floats : Float64Text} (f : FlowFile floats) (n : Node)

attribute [local simp] lookup_field_cons readBack_nonEmptyItems readBack_nonEmptyMap
  readBack_pointer

@[simp] theorem readBack_runtimeAssignment (a : RuntimeAssignment) :
    readBack RuntimeAssignment.decode {} (some (object a.fields)) = some a :=
  readBack_object rfl rfl (by decide) (by simp [RuntimeAssignment.fields])

@[simp] theorem readBack_settings (s : Settings) :
    readBack Settings.decode {} (some (object s.fields)) = some s :=
  readBack_object rfl rfl (by decide) (by simp [Settings.fields])

@[simp] theorem readBack_envVar (v : EnvVar floats) :
    readBack EnvVar.decode {} (some (object v.fields)) = some v :=
  readBack_object rfl rfl (by simp [EnvVar.fields]) (by simp [EnvVar.fields])

@[simp] theorem readBack_retryPolicy (p : RetryPolicy) :
    readBack RetryPolicy.decode {} (some (object p.fields)) = some p :=
  readBack_object rfl rfl (by decide) (by simp [RetryPolicy.fields])

@[simp] theorem readBack_storeForwardPolicy (p : StoreForwardPolicy) :
    readBack StoreForwardPolicy.decode {} (some (object p.fields)) = some p :=
  readBack_object rfl rfl (by decide) (by simp [StoreForwardPolicy.fields])

@[simp] theorem readBack_errorPolicy (p : ErrorPolicy) :
    readBack ErrorPolicy.decode {} (some (object p.fields)) = some p :=
  readBack_object rfl rfl (by decide) (by simp [ErrorPolicy.fields])

@[simp] theorem readBack_endpoint (old e : Endpoint) :
    readBack decodeEndpoint old (some (object (endpointFields e))) = some e :=
  readBack_object rfl rfl (by decide) (by simp [endpointFields])

@[simp] theorem readBack_wire (old w : Wire) :
    readBack decodeWire old (some (object (wireFields w))) = some w :=
  readBack_object rfl rfl (by decide) (by simp [wireFields])

@[simp] theorem readBack_nodePosition (p : NodePosition floats) :
    readBack NodePosition.decode {} (some (object p.fields)) = some p :=
  readBack_object rfl rfl (by simp [NodePosition.fields]) (by simp [NodePosition.fields])

@[simp] theorem readBack_group (g : Group) :
    readBack Group.decode {} (some (object g.fields)) = some g :=
  readBack_object rfl rfl (by decide) (by simp [Group.fields])

@[simp] theorem readBack_note (n : Note floats) :
    readBack Note.decode {} (some (object n.fields)) = some n :=
  readBack_object rfl rfl (by simp [Note.fields]) (by simp [Note.fields])

@[simp] theorem readBack_layout (l : Layout floats) :
    readBack Layout.decode {} (some (object l.fields)) = some l :=
  readBack_object rfl rfl (by simp [Layout.fields]) (by simp [Layout.fields])

@[simp] theorem readBack_port (p : Port) :
    readBack Port.decode {} (some (object p.fields)) = some p :=
  readBack_object rfl rfl (by decide) (by simp [Port.fields])

@[simp] theorem readBack_subflowParam (p : SubflowParam floats) :
    readBack SubflowParam.decode {} (some (object p.fields)) = some p :=
  readBack_object rfl rfl (by simp [SubflowParam.fields]) (by simp [SubflowParam.fields])

@[simp] theorem readBack_subflowInterface (i : SubflowInterface floats) :
    readBack SubflowInterface.decode {} (some (object i.fields)) = some i :=
  readBack_object rfl rfl (by simp [SubflowInterface.fields]) (by simp [SubflowInterface.fields])

def canonicalConfig (config : RawJson) : RawJson := .ofJson config.value.canonical

def Node.canonicalized (n : Node) : Node := { n with config := n.config.map canonicalConfig }

def Graph.canonicalized (g : Graph) : Graph := { g with nodes := g.nodes.map Node.canonicalized }

def FlowFile.canonicalized (f : FlowFile floats) : FlowFile floats :=
  { f with graph := f.graph.canonicalized }

@[simp] theorem readBack_config (config : Option RawJson) :
    readBack decodeRaw none (config.map RawJson.value) = some (config.map canonicalConfig) := by
  cases config <;> rfl

@[simp] theorem readBack_node :
    readBack Node.decode {} (some (object n.fields)) = some n.canonicalized :=
  readBack_object rfl rfl (by decide) (by simp [Node.fields, Node.canonicalized])

@[simp] theorem readBack_graph (g : Graph) :
    readBack Graph.decode {} (some (object g.fields)) = some g.canonicalized := by
  rw [readBack, Graph.decode, decodeStruct_object]
  · have hwires := readBack_sliceJson (f := id) g.wires fun w => readBack_wire zeroWire w
    simp [Graph.fields, readBack_sliceJson g.nodes readBack_node, hwires,
      Graph.canonicalized]
  · rfl
  · decide

theorem decode_ofJson_canonical :
    FlowFile.decode {} (.ofJson (object f.fields).canonical) = some f.canonicalized := by
  rw [FlowFile.decode, decodeStruct_object]
  · simp [FlowFile.fields, FlowFile.canonicalized]
  · rfl
  · simp [FlowFile.fields]

theorem parse_marshalCanonical : parse floats f.marshalCanonical = some f.sorted.canonicalized := by
  rw [parse, FlowFile.marshalCanonical, canonicalizeJSON, RawJson.read_print, Option.bind_some,
    decode_ofJson_canonical]

/-- The same node, configurations being compared as JSON values with their number literals. -/
structure Node.Agrees (n m : Node) : Prop where
  rest : { n with config := none } = { m with config := none }
  config : n.config.map (fun raw => raw.value.canonical) =
    m.config.map fun raw => raw.value.canonical

structure FlowFile.Agrees (f g : FlowFile floats) : Prop where
  rest : { f with graph := { f.graph with nodes := [] } } =
    { g with graph := { g.graph with nodes := [] } }
  nodes : List.Forall₂ Node.Agrees f.graph.nodes g.graph.nodes

theorem value_canonicalConfig (config : RawJson) :
    (canonicalConfig config).value = config.value.canonical := RawJson.value_ofJson _

theorem Node.canonicalized_agrees : n.canonicalized.Agrees n where
  rest := rfl
  config := by
    cases hconfig : n.config <;> simp [Node.canonicalized, hconfig, value_canonicalConfig]

theorem FlowFile.canonicalized_agrees : f.canonicalized.Agrees f where
  rest := rfl
  nodes := List.forall₂_map_left_iff.mpr
    (List.forall₂_same.mpr fun n _ => n.canonicalized_agrees)

theorem sorted_canonicalized_sorted : f.sorted.canonicalized.sorted = f.sorted.canonicalized := by
  have hid : ∀ n : Node, n.canonicalized.id = n.id := fun _ => rfl
  simp only [FlowFile.sorted, FlowFile.canonicalized, Graph.canonicalized, sortByKey_sortByKey,
    sortByKey_map hid]

private theorem canonical_sliceJson (items : List Json) :
    (sliceJson items).canonical = sliceJson (items.map Json.canonical) := by
  cases items with
  | nil => rfl
  | cons item items =>
    rw [sliceJson, Json.canonical, Json.canonicalItems_eq, List.map_cons, sliceJson]

theorem canonical_node_canonicalized :
    (object n.canonicalized.fields).canonical = (object n.fields).canonical := by
  apply canonical_object_congr
  cases hconfig : n.config <;>
    simp [Node.fields, Node.canonicalized, hconfig, value_canonicalConfig]

theorem canonical_graph_canonicalized (g : Graph) :
    (object g.canonicalized.fields).canonical = (object g.fields).canonical := by
  apply canonical_object_congr
  simp [Graph.fields, Graph.canonicalized, canonical_sliceJson, canonical_node_canonicalized,
    Function.comp_def]

theorem canonical_canonicalized :
    (object f.canonicalized.fields).canonical = (object f.fields).canonical := by
  apply canonical_object_congr
  simp [FlowFile.fields, FlowFile.canonicalized, canonical_graph_canonicalized]

theorem marshalCanonical_canonicalized_sorted :
    f.sorted.canonicalized.marshalCanonical = f.marshalCanonical := by
  rw [FlowFile.marshalCanonical, FlowFile.marshalCanonical, canonicalizeJSON, canonicalizeJSON,
    sorted_canonicalized_sorted, canonical_canonicalized]

/--
Parsing the canonical text of a file gives the file with its nodes, wires and variables in
ascending order, and writing it again gives the same text.
-/
theorem canonical_roundtrip (f : FlowFile floats) (hnodes : (f.graph.nodes.map Node.id).Nodup)
    (hwires : (f.graph.wires.map Wire.id).Nodup) (henv : (f.env.map EnvVar.name).Nodup) :
    ∃ g, parse floats f.marshalCanonical = some g ∧ g.Agrees f.sorted ∧
      (g.graph.nodes.map Node.id).Pairwise (· < ·) ∧
      (g.graph.wires.map Wire.id).Pairwise (· < ·) ∧
      (g.env.map EnvVar.name).Pairwise (· < ·) ∧
      g.marshalCanonical = f.marshalCanonical := by
  refine ⟨f.sorted.canonicalized, parse_marshalCanonical f, f.sorted.canonicalized_agrees,
    ?_, ascending_sortByKey hwires, ascending_sortByKey henv,
    marshalCanonical_canonicalized_sorted f⟩
  have hids : f.sorted.canonicalized.graph.nodes.map Node.id =
      (sortByKey Node.id f.graph.nodes).map Node.id := by
    simp [FlowFile.sorted, FlowFile.canonicalized, Graph.canonicalized, Node.canonicalized,
      Function.comp_def]
  rw [hids]
  exact ascending_sortByKey hnodes

end Structs

def exactFloats : Float64Text where
  nearest := some
  nearest_nearest := fun _ => rfl
  nearest_zero := rfl

def twoNodes : FlowFile exactFloats where
  id := "flow"
  graph :=
    { nodes := [{ id := "b", config := some (.obj [(Literal.encode "z", .num (intLit 1)),
        (Literal.encode "a", .null)]) }, { id := "a" }] }

theorem canonical_roundtrip_twoNodes :
    ∃ g, parse exactFloats twoNodes.marshalCanonical = some g ∧ g.Agrees twoNodes.sorted ∧
      (g.graph.nodes.map Node.id).Pairwise (· < ·) ∧
      (g.graph.wires.map Wire.id).Pairwise (· < ·) ∧
      (g.env.map EnvVar.name).Pairwise (· < ·) ∧
      g.marshalCanonical = twoNodes.marshalCanonical :=
  canonical_roundtrip twoNodes (by decide) (by decide) (by decide)

section Reordering

variable {floats : Float64Text}

def FlowFile.groups (f : FlowFile floats) : List Group := (f.layout.map Layout.groups).getD []

def FlowFile.notes (f : FlowFile floats) : List (Note floats) :=
  (f.layout.map Layout.notes).getD []

def FlowFile.withoutArrays (f : FlowFile floats) : FlowFile floats :=
  { f with
    env := []
    graph := {}
    layout := f.layout.map fun l => { l with groups := [], notes := [] } }

structure Reordered (f g : FlowFile floats) : Prop where
  rest : f.withoutArrays = g.withoutArrays
  nodes : f.graph.nodes.Perm g.graph.nodes
  wires : f.graph.wires.Perm g.graph.wires
  env : f.env.Perm g.env
  groups : f.groups.Perm g.groups
  notes : f.notes.Perm g.notes

theorem Reordered.sorted_eq {f g : FlowFile floats} (h : Reordered f g)
    (hnodes : (f.graph.nodes.map Node.id).Nodup) (hwires : (f.graph.wires.map Wire.id).Nodup)
    (henv : (f.env.map EnvVar.name).Nodup) (hgroups : f.groups = g.groups)
    (hnotes : f.notes = g.notes) : f.sorted = g.sorted := by
  have hn := sortByKey_eq_of_perm h.nodes hnodes
  have hw := sortByKey_eq_of_perm h.wires hwires
  have he := sortByKey_eq_of_perm h.env henv
  have hrest := h.rest
  obtain ⟨_, _, _, _, _, _, _, _, _, _, _, layout, _⟩ := f
  obtain ⟨_, _, _, _, _, _, _, _, _, _, _, layout', _⟩ := g
  simp only [FlowFile.withoutArrays, FlowFile.mk.injEq] at hrest
  obtain ⟨rfl, rfl, rfl, rfl, rfl, rfl, rfl, rfl, rfl, -, -, hlayout, rfl⟩ := hrest
  have hsame : layout = layout' := by
    cases layout with
    | none =>
      cases layout' with
      | none => rfl
      | some _ => simp at hlayout
    | some l =>
      cases layout' with
      | none => simp at hlayout
      | some l' =>
        obtain ⟨_, _, _⟩ := l
        simp only [FlowFile.groups, FlowFile.notes] at hgroups hnotes
        simp_all
  simp only [FlowFile.sorted, hn, hw, he, hsame]

theorem groups_eq_of_marshalCanonical {f g : FlowFile floats}
    (h : f.marshalCanonical = g.marshalCanonical) : f.groups = g.groups ∧ f.notes = g.notes := by
  have hparse := parse_marshalCanonical f
  rw [h, parse_marshalCanonical, Option.some.injEq] at hparse
  have hlayout := congrArg FlowFile.layout hparse
  change g.layout = f.layout at hlayout
  rw [FlowFile.groups, FlowFile.groups, FlowFile.notes, FlowFile.notes, hlayout]
  exact ⟨rfl, rfl⟩

/--
Two files that differ in the order of their arrays have the same canonical text exactly when
the groups and the notes of their layouts stand in the same order.
-/
theorem marshalCanonical_eq_iff_of_reordered {f g : FlowFile floats} (h : Reordered f g)
    (hnodes : (f.graph.nodes.map Node.id).Nodup) (hwires : (f.graph.wires.map Wire.id).Nodup)
    (henv : (f.env.map EnvVar.name).Nodup) :
    f.marshalCanonical = g.marshalCanonical ↔ f.groups = g.groups ∧ f.notes = g.notes := by
  constructor
  · exact groups_eq_of_marshalCanonical
  · rintro ⟨hgroups, hnotes⟩
    rw [FlowFile.marshalCanonical, FlowFile.marshalCanonical,
      h.sorted_eq hnodes hwires henv hgroups hnotes]

end Reordering

def groupedAs (groups : List Group) : FlowFile exactFloats where
  id := "flow"
  graph := { nodes := [{ id := "a" }, { id := "b" }] }
  layout := some { groups }

def groupsInOrder : FlowFile exactFloats := groupedAs [{ id := "g" }, { id := "h" }]

def groupsSwapped : FlowFile exactFloats := groupedAs [{ id := "h" }, { id := "g" }]

theorem groups_swapped_same_text_iff :
    groupsInOrder.marshalCanonical = groupsSwapped.marshalCanonical ↔
      groupsInOrder.groups = groupsSwapped.groups ∧ groupsInOrder.notes = groupsSwapped.notes :=
  marshalCanonical_eq_iff_of_reordered
    ⟨rfl, .refl _, .refl _, .refl _, .swap _ _ _, .refl _⟩ (by decide) (by decide) (by decide)

theorem groups_swapped_change_text :
    Reordered groupsInOrder groupsSwapped ∧ (groupsInOrder.groups.map Group.id).Nodup ∧
      groupsInOrder.marshalCanonical ≠ groupsSwapped.marshalCanonical := by
  refine ⟨⟨rfl, .refl _, .refl _, .refl _, .swap _ _ _, .refl _⟩, by decide, ?_⟩
  intro h
  exact absurd (groups_eq_of_marshalCanonical h).1 (by decide)

end DataPipe.Flow.Format
