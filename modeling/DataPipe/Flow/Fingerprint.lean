import DataPipe.Flow.Validate
import Mathlib.Data.List.Sort
import Mathlib.Data.List.Count
import Mathlib.Data.String.Basic

/-!
# Fingerprints

`computeInboxFingerprints` and `nodeFingerprint` of `engine/flow/graph.go`.
Both hash a text; the hash is a parameter that is assumed collision free, so
equal fingerprints mean equal texts, and the text of a node's fingerprint is
the JSON encoding of its definition and of the wires that touch it.
-/

namespace DataPipe.Flow

open DataPipe.Foundation

structure Digest where
  hex : List Char → String
  hex_injective : Function.Injective hex
  hex_ne_empty : ∀ text, hex text ≠ ""

def optionalField (key : String) : Option Json → List (String × Json)
  | none => []
  | some value => [(key, value)]

theorem lookup_optionalField_append (key name : String) (value : Option Json)
    (rest : List (String × Json)) :
    (optionalField key value ++ rest).lookup name =
      if name = key then value.or (rest.lookup name) else rest.lookup name := by
  cases value with
  | none => simp [optionalField]
  | some value =>
    by_cases h : name = key
    · simp [optionalField, h]
    · have hne : (name == key) = false := by simpa using h
      simp [optionalField, List.lookup_cons, h, hne]

def nonEmpty (text : String) : Option Json :=
  if text = "" then none else some (.str text)

def nonZero (n : Int) : Option Json :=
  if n = 0 then none else some (.num (intLit n))

def nonFalse (b : Bool) : Option Json :=
  if b then some (.bool true) else none

theorem nonEmpty_injective : Function.Injective nonEmpty := by
  intro a b h
  unfold nonEmpty at h
  split at h <;> split at h <;> simp_all

theorem nonZero_injective : Function.Injective nonZero := by
  intro a b h
  unfold nonZero at h
  split at h <;> split at h
  case isTrue.isTrue ha hb => rw [ha, hb]
  case isFalse.isFalse =>
    apply intLit_injective
    simpa using h
  all_goals simp at h

theorem nonFalse_injective : Function.Injective nonFalse := by
  intro a b h
  cases a <;> cases b <;> simp_all [nonFalse]

def RetryPolicy.toJson (p : RetryPolicy) : Json :=
  .obj (optionalField "max" (nonZero p.max) ++
    (optionalField "backoffMs" (nonZero p.backoffMs) ++
      (optionalField "maxBackoffMs" (nonZero p.maxBackoffMs) ++
        (optionalField "jitter" (nonFalse p.jitter) ++ []))))

theorem RetryPolicy.toJson_injective : Function.Injective RetryPolicy.toJson := by
  intro p q h
  simp only [RetryPolicy.toJson, Json.obj.injEq] at h
  have field (key : String) := congrArg (List.lookup key) h
  simp only [lookup_optionalField_append] at field
  have hmax := nonZero_injective (by simpa using field "max")
  have hbackoff := nonZero_injective (by simpa using field "backoffMs")
  have hmaxBackoff := nonZero_injective (by simpa using field "maxBackoffMs")
  have hjitter := nonFalse_injective (by simpa using field "jitter")
  cases p
  simp_all

def StoreForwardPolicy.toJson (p : StoreForwardPolicy) : Json :=
  .obj (optionalField "maxSizeMb" (nonZero p.maxSizeMb) ++
    (optionalField "maxAgeSec" (nonZero p.maxAgeSec) ++ []))

theorem StoreForwardPolicy.toJson_injective : Function.Injective StoreForwardPolicy.toJson := by
  intro p q h
  simp only [StoreForwardPolicy.toJson, Json.obj.injEq] at h
  have field (key : String) := congrArg (List.lookup key) h
  simp only [lookup_optionalField_append] at field
  have hsize := nonZero_injective (by simpa using field "maxSizeMb")
  have hage := nonZero_injective (by simpa using field "maxAgeSec")
  cases p
  simp_all

def ErrorPolicy.toJson (p : ErrorPolicy) : Json :=
  .obj (optionalField "onError" (nonEmpty p.onError) ++
    (optionalField "retry" (p.retry.map RetryPolicy.toJson) ++
      (optionalField "storeForward" (p.storeForward.map StoreForwardPolicy.toJson) ++
        [])))

theorem ErrorPolicy.toJson_injective : Function.Injective ErrorPolicy.toJson := by
  intro p q h
  simp only [ErrorPolicy.toJson, Json.obj.injEq] at h
  have field (key : String) := congrArg (List.lookup key) h
  simp only [lookup_optionalField_append] at field
  have honError := nonEmpty_injective (by simpa using field "onError")
  have hretry := Option.map_injective RetryPolicy.toJson_injective
    (by simpa using field "retry")
  have hforward := Option.map_injective StoreForwardPolicy.toJson_injective
    (by simpa using field "storeForward")
  cases p
  simp_all

def policyJson : Option ErrorPolicy → Json
  | none => .null
  | some policy => policy.toJson

theorem policyJson_injective : Function.Injective policyJson := by
  intro p q h
  cases p with
  | none =>
    cases q with
    | none => rfl
    | some q => simp [policyJson, ErrorPolicy.toJson] at h
  | some p =>
    cases q with
    | none => simp [policyJson, ErrorPolicy.toJson] at h
    | some q => rw [ErrorPolicy.toJson_injective h]

def Endpoint.toJson (e : Endpoint) : Json :=
  .obj [("node", .str e.node), ("port", .str e.port)]

def Wire.toJson (w : Wire) : Json :=
  .obj [("id", .str w.id), ("from", w.fromEnd.toJson), ("to", w.toEnd.toJson)]

theorem Endpoint.toJson_injective : Function.Injective Endpoint.toJson := by
  rintro ⟨node, port⟩ ⟨node', port'⟩ h
  simpa [Endpoint.toJson] using h

theorem Wire.toJson_injective : Function.Injective Wire.toJson := by
  rintro ⟨id, fromEnd, toEnd⟩ ⟨id', fromEnd', toEnd'⟩ h
  simp only [Wire.toJson, Json.obj.injEq, List.cons.injEq, Prod.mk.injEq, true_and,
    Json.str.injEq, and_true] at h
  obtain ⟨hid, hfrom, hto⟩ := h
  rw [hid, Endpoint.toJson_injective hfrom, Endpoint.toJson_injective hto]

def wiresJson : List Wire → Json
  | [] => .null
  | w :: wires => .arr ((w :: wires).map Wire.toJson)

theorem wiresJson_injective : Function.Injective wiresJson := by
  intro ws vs h
  cases ws with
  | nil =>
    cases vs with
    | nil => rfl
    | cons v vs => simp [wiresJson] at h
  | cons w ws =>
    cases vs with
    | nil => simp [wiresJson] at h
    | cons v vs =>
      simp only [wiresJson, Json.arr.injEq] at h
      exact List.map_injective_iff.mpr Wire.toJson_injective h

/-- The wires at a node in the order of the file; a wire from a node to itself
is listed for both of its ends. -/
def touching (wires : List Wire) (id : String) : List Wire :=
  wires.flatMap fun w =>
    (if w.fromEnd.node = id then [w] else []) ++ (if w.toEnd.node = id then [w] else [])

def sortedById (wires : List Wire) : List Wire :=
  wires.insertionSort fun a b => a.id ≤ b.id

def fingerprintJson (n : Node) (wires : List Wire) : Json :=
  .obj [("Type", .str n.typeName),
    ("TypeVersion", .num (intLit n.typeVersion)),
    ("Config", n.config.getD .null),
    ("ErrorPolicy", policyJson n.errorPolicy),
    ("Overflow", .str n.overflow),
    ("Connection", .str n.connection),
    ("Disabled", .bool n.disabled),
    ("Wires", wiresJson (sortedById wires))]

def nodeFingerprint (d : Digest) (n : Node) (wires : List Wire) : String :=
  d.hex ((fingerprintJson n wires).render ++ ['\n'])

def FlowFile.fingerprint (f : FlowFile) (d : Digest) (n : Node) : String :=
  nodeFingerprint d n (touching f.graph.wires n.id)

structure SameNode (n m : Node) (ws vs : List Wire) : Prop where
  typeName : n.typeName = m.typeName
  config : n.config.getD .null = m.config.getD .null
  errorPolicy : n.errorPolicy = m.errorPolicy
  overflow : n.overflow = m.overflow
  wires : ws.Perm vs

variable {m n : Node} {vs ws : List Wire} {d : Digest}

theorem sameNode_of_nodeFingerprint (h : nodeFingerprint d n ws = nodeFingerprint d m vs) :
    SameNode n m ws vs := by
  have hjson := Json.render_injective (List.append_cancel_right (d.hex_injective h))
  simp only [fingerprintJson, Json.obj.injEq, List.cons.injEq, Prod.mk.injEq, true_and,
    Json.str.injEq, and_true] at hjson
  obtain ⟨htype, _, hconfig, hpolicy, hoverflow, _, _, hwires⟩ := hjson
  have hsorted := wiresJson_injective hwires
  refine ⟨htype, hconfig, policyJson_injective hpolicy, hoverflow, ?_⟩
  calc ws.Perm (sortedById ws) := (List.perm_insertionSort _ ws).symm
    _ = sortedById vs := hsorted
    List.Perm _ vs := List.perm_insertionSort _ vs

theorem SameNode.hasErrorPort (h : SameNode n m ws vs) : n.hasErrorPort = m.hasErrorPort := by
  rw [Node.hasErrorPort, Node.hasErrorPort, h.errorPolicy]

theorem SameNode.config_eq (h : SameNode n m ws vs)
    (hnone : n.config.isNone = m.config.isNone) : n.config = m.config := by
  have hvalue := h.config
  cases hnc : n.config with
  | none =>
    rw [hnc] at hnone
    exact (Option.isNone_iff_eq_none.mp hnone.symm).symm
  | some value =>
    cases hmc : m.config with
    | none => simp [hnc, hmc] at hnone
    | some value' => simpa [hnc, hmc] using hvalue

def endsAt (w : Wire) (id : String) : Nat :=
  (decide (w.fromEnd.node = id)).toNat + (decide (w.toEnd.node = id)).toNat

theorem count_touching (wires : List Wire) (id : String) (w : Wire) :
    (touching wires id).count w = wires.count w * endsAt w id := by
  induction wires with
  | nil => simp [touching]
  | cons v wires ih =>
    have hhead : ((if v.fromEnd.node = id then [v] else []) ++
        (if v.toEnd.node = id then [v] else [])).count w =
          (if v = w then endsAt w id else 0) := by
      by_cases hvw : v = w
      · subst hvw
        by_cases hfrom : v.fromEnd.node = id <;> by_cases hto : v.toEnd.node = id <;>
          simp [endsAt, hfrom, hto]
      · by_cases hfrom : v.fromEnd.node = id <;> by_cases hto : v.toEnd.node = id <;>
          simp [hfrom, hto, hvw]
    rw [touching, List.flatMap_cons, List.count_append, hhead, ← touching, ih]
    by_cases hvw : v = w
    · simp [hvw, Nat.add_mul, Nat.add_comm]
    · simp [hvw]

variable {id : String}

theorem endsAt_pos {w : Wire} (h : w.fromEnd.node = id ∨ w.toEnd.node = id) : 0 < endsAt w id := by
  rcases h with h | h
  · simp only [endsAt, h, decide_true, Bool.toNat_true]
    omega
  · simp [endsAt, h]

theorem filter_perm_of_touching (h : (touching ws id).Perm (touching vs id)) (p : Wire → Bool)
    (hp : ∀ w, p w → w.fromEnd.node = id ∨ w.toEnd.node = id) :
    (ws.filter p).Perm (vs.filter p) := by
  rw [List.perm_iff_count]
  intro w
  by_cases hw : p w
  · rw [List.count_filter hw, List.count_filter hw]
    have hcount := h.count_eq w
    rw [count_touching, count_touching] at hcount
    exact Nat.eq_of_mul_eq_mul_right (endsAt_pos (hp w hw)) hcount
  · rw [List.count_eq_zero_of_not_mem, List.count_eq_zero_of_not_mem]
    · simp [hw]
    · simp [hw]

def FlowFile.sources (f : FlowFile) (key : Endpoint) : List String :=
  (f.graph.wires.filter (·.toEnd = key)).map fun w =>
    w.fromEnd.node ++ ":" ++ w.fromEnd.port

def sortStrings (texts : List String) : List String :=
  texts.insertionSort (· ≤ ·)

theorem sortStrings_eq_of_perm {xs ys : List String} (h : xs.Perm ys) :
    sortStrings xs = sortStrings ys := by
  apply List.Perm.eq_of_pairwise (fun a b _ _ => le_antisymm)
  · exact List.pairwise_insertionSort _ xs
  · exact List.pairwise_insertionSort _ ys
  · calc (sortStrings xs).Perm xs := List.perm_insertionSort _ xs
      List.Perm _ ys := h
      List.Perm _ (sortStrings ys) := (List.perm_insertionSort _ ys).symm

def FlowFile.inboxFingerprint (f : FlowFile) (d : Digest) (n : Node) (port : String) : String :=
  d.hex (n.overflow ++ ",".intercalate (sortStrings (f.sources ⟨n.id, port⟩))).toList

def computeInboxFingerprints (reg : Registry) (d : Digest) (f : FlowFile) :
    List (Endpoint × String) :=
  f.graph.nodes.flatMap fun n =>
    (reg.inputs n).map fun port => (⟨n.id, port⟩, f.inboxFingerprint d n port)

theorem inboxFingerprint_eq_of_fingerprint {f g : FlowFile} (hid : n.id = m.id)
    (h : f.fingerprint d n = g.fingerprint d m) (port : String) :
    f.inboxFingerprint d n port = g.inboxFingerprint d m port := by
  have hsame := sameNode_of_nodeFingerprint h
  have hwires := hsame.wires
  rw [← hid] at hwires
  have hperm := filter_perm_of_touching hwires (·.toEnd = ⟨n.id, port⟩) (by
    intro w hw
    right
    rw [of_decide_eq_true hw])
  have hsources : sortStrings (f.sources ⟨n.id, port⟩) = sortStrings (g.sources ⟨n.id, port⟩) :=
    sortStrings_eq_of_perm (hperm.map _)
  rw [FlowFile.inboxFingerprint, FlowFile.inboxFingerprint, hsame.overflow, ← hid, hsources]

end DataPipe.Flow
