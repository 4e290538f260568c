import DataPipe.Flow.Canonical

/-!
# Renaming the connections of a flow

A renaming acts on the connection field of every node.  It commutes with the
canonical serializer, whose text it changes exactly where it changes a field.
-/

namespace DataPipe.Flow.Format

open DataPipe.Foundation

def Node.renamed (name : String → String) (n : Node) : Node :=
  { n with connection := name n.connection }

namespace FlowFile

variable {floats : Float64Text} (f : FlowFile floats) (name : String → String)

def renamed : FlowFile floats :=
  { f with graph := { f.graph with nodes := f.graph.nodes.map (Node.renamed name) } }

def connections : List String := f.graph.nodes.map Node.connection

@[simp] theorem connections_renamed : (f.renamed name).connections = f.connections.map name := by
  simp [connections, renamed, Node.renamed]

@[simp] theorem connections_canonicalized : f.canonicalized.connections = f.connections := by
  simp [connections, canonicalized, Graph.canonicalized, Node.canonicalized]

theorem perm_connections_sorted : f.sorted.connections.Perm f.connections :=
  (perm_sortByKey Node.id f.graph.nodes).map Node.connection

theorem renamed_renamed (other : String → String) :
    (f.renamed name).renamed other = f.renamed (other ∘ name) := by
  simp only [renamed, List.map_map]
  rfl

theorem sorted_renamed : (f.renamed name).sorted = f.sorted.renamed name := by
  have hid : ∀ n : Node, (n.renamed name).id = n.id := fun _ => rfl
  simp only [sorted, renamed, sortByKey_map hid]

theorem canonicalized_renamed : (f.renamed name).canonicalized = f.canonicalized.renamed name := by
  simp only [canonicalized, Graph.canonicalized, renamed, List.map_map]
  rfl

variable {f name}

theorem renamed_congr {other : String → String} (h : ∀ x ∈ f.connections, name x = other x) :
    f.renamed name = f.renamed other := by
  have hnodes : f.graph.nodes.map (Node.renamed name) = f.graph.nodes.map (Node.renamed other) := by
    refine List.map_congr_left fun n hn => ?_
    rw [Node.renamed, Node.renamed, h _ (List.mem_map_of_mem hn)]
  rw [renamed, renamed, hnodes]

@[simp] theorem renamed_id : f.renamed (fun x => x) = f := by
  have hnode : Node.renamed (fun x => x) = fun n => n := rfl
  rw [renamed, hnode, List.map_id']

theorem marshalCanonical_renamed_canonicalized :
    (f.sorted.canonicalized.renamed name).marshalCanonical = (f.renamed name).marshalCanonical := by
  rw [← canonicalized_renamed, ← sorted_renamed, marshalCanonical_canonicalized_sorted]

theorem marshalCanonical_renamed_eq_iff :
    (f.renamed name).marshalCanonical = f.marshalCanonical ↔ ∀ x ∈ f.connections, name x = x := by
  constructor
  · intro htext x hx
    have hfile := (parse_marshalCanonical (f.renamed name)).symm.trans
      ((congrArg (parse floats) htext).trans (parse_marshalCanonical f))
    rw [sorted_renamed, canonicalized_renamed] at hfile
    have hfields := congrArg connections (Option.some.inj hfile)
    rw [connections_renamed, connections_canonicalized] at hfields
    have hx' : x ∈ f.sorted.connections := f.perm_connections_sorted.mem_iff.mpr hx
    exact List.map_inj_left.mp (hfields.trans (List.map_id' _).symm) x hx'
  · intro h
    rw [renamed_congr h, renamed_id]

end FlowFile

end DataPipe.Flow.Format
