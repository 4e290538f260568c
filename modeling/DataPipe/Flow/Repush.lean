import DataPipe.Flow.Canonical
import DataPipe.Flow.HotDeploy

/-!
# Pushing stored content again

`deployFlow` of the control plane pushes the canonical text of a flow, while
`setFlowLogLevel` and the re-push of `DeployStream` send the text as it is stored.
What the engine reads of the two files is the same but for the configurations,
whose fingerprint is taken of their text.
-/

namespace DataPipe.Flow

open DataPipe.Foundation

namespace Format

def ErrorPolicy.view (p : ErrorPolicy) : Flow.ErrorPolicy where
  onError := p.onError
  retry := p.retry.map fun r =>
    { max := r.max.toInt
      backoffMs := r.backoffMs.toInt
      maxBackoffMs := r.maxBackoffMs.toInt
      jitter := r.jitter }
  storeForward := p.storeForward.map fun policy =>
    { maxSizeMb := policy.maxSizeMb.toInt, maxAgeSec := policy.maxAgeSec.toInt }

def Node.view (n : Node) : Flow.Node where
  id := n.id
  typeName := n.typeName
  typeVersion := n.typeVersion.toInt
  disabled := n.disabled
  connection := n.connection
  config := n.config.map RawJson.asWritten
  errorPolicy := n.errorPolicy.map ErrorPolicy.view
  overflow := n.overflow

def Settings.view (s : Settings) : Flow.Settings where
  errorFlow := s.errorFlow
  maxConcurrency := s.maxConcurrency.map Int64.toInt
  concurrencyPolicy := s.concurrencyPolicy
  executionTimeoutMs := s.executionTimeoutMs

variable {floats : Float64Text}

def FlowFile.view (f : FlowFile floats) : Flow.FlowFile where
  id := f.id
  mode := f.mode
  disabled := f.disabled
  settings := f.settings.view
  graph := { nodes := f.graph.nodes.map Node.view, wires := f.graph.wires }

def FlowFile.ConfigsCanonical (f : FlowFile floats) : Prop :=
  ∀ n ∈ f.graph.nodes, ∀ config ∈ n.config, config.IsCanonical

theorem nodeByID_view (f : FlowFile floats) (id : String) :
    f.view.nodeByID id = (f.graph.nodes.find? (·.id = id)).map Node.view := by
  rw [Flow.FlowFile.nodeByID, FlowFile.view, List.find?_map]
  rfl

end Format

variable {ws : List Wire}

theorem mem_of_mem_touching {id : String} {w : Wire} (h : w ∈ touching ws id) : w ∈ ws := by
  obtain ⟨v, hv, hw⟩ := List.mem_flatMap.mp h
  rcases List.mem_append.mp hw with hw | hw
  all_goals
    split at hw
    · exact List.mem_singleton.mp hw ▸ hv
    · cases hw

theorem sortedById_touching_eq {vs : List Wire} (h : ws.Perm vs) (hnodup : (ws.map Wire.id).Nodup)
    (id : String) : sortedById (touching ws id) = sortedById (touching vs id) := by
  refine @sortByKey_eq_of_injOn _ Wire.id _ _ (h.flatMap_right _) ?_
  intro a ha b hb heq
  exact List.inj_on_of_nodup_map hnodup (mem_of_mem_touching ha) (mem_of_mem_touching hb) heq

namespace Format

variable {floats : Float64Text} {f : FlowFile floats} {d : Digest}

theorem config_view_canonicalized_iff (n : Node) :
    n.canonicalized.view.config.getD .null = n.view.config.getD .null ↔
      ∀ config ∈ n.config, config.IsCanonical := by
  cases hconfig : n.config with
  | none => simp [Node.view, Node.canonicalized, hconfig]
  | some config =>
    simp only [Node.view, Node.canonicalized, hconfig, Option.mem_some_iff, forall_eq']
    rw [← RawJson.asWritten_eq_canonical_iff]
    exact eq_comm

theorem fingerprint_canonicalized_iff (hwires : (f.graph.wires.map Wire.id).Nodup) (n : Node) :
    f.sorted.canonicalized.view.fingerprint d n.canonicalized.view =
        f.view.fingerprint d n.view ↔ ∀ config ∈ n.config, config.IsCanonical := by
  have hsorted : sortedById (touching f.sorted.canonicalized.view.graph.wires n.id) =
      sortedById (touching f.view.graph.wires n.id) :=
    (sortedById_touching_eq (perm_sortByKey Wire.id f.graph.wires).symm hwires n.id).symm
  rw [← config_view_canonicalized_iff, FlowFile.fingerprint, FlowFile.fingerprint,
    nodeFingerprint, nodeFingerprint, d.hex_injective.eq_iff, List.append_left_inj,
    Json.render_injective.eq_iff]
  simp only [fingerprintJson, Json.obj.injEq, List.cons.injEq, Prod.mk.injEq, true_and, and_true]
  constructor
  · rintro ⟨-, -, hconfig, -⟩
    exact hconfig
  · exact fun hconfig => ⟨rfl, rfl, hconfig, rfl, rfl, rfl, rfl, congrArg wiresJson hsorted⟩

theorem inboxFingerprint_canonicalized (n : Node) (port : String) :
    f.sorted.canonicalized.view.inboxFingerprint d n.canonicalized.view port =
      f.view.inboxFingerprint d n.view port := by
  have hsources : sortStrings (f.sorted.canonicalized.view.sources ⟨n.id, port⟩) =
      sortStrings (f.view.sources ⟨n.id, port⟩) :=
    sortStrings_eq_of_perm (((perm_sortByKey Wire.id f.graph.wires).filter _).map _)
  exact congrArg (fun sources => d.hex (n.overflow ++ ",".intercalate sources).toList) hsources

theorem nodeByID_canonicalized (hnodes : (f.graph.nodes.map Node.id).Nodup) (id : String) :
    f.sorted.canonicalized.view.nodeByID id =
      (f.graph.nodes.find? (·.id = id)).map fun n => n.canonicalized.view := by
  have hfind := find?_key_eq_of_perm (perm_sortByKey Node.id f.graph.nodes)
    (((perm_sortByKey Node.id f.graph.nodes).map Node.id).nodup_iff.mpr hnodes) id
  rw [nodeByID_view, ← hfind]
  change (List.find? _ ((sortByKey Node.id f.graph.nodes).map Node.canonicalized)).map _ = _
  rw [List.find?_map, Option.map_map]
  rfl

theorem inboxStamp_canonicalized (hnodes : (f.graph.nodes.map Node.id).Nodup) (key : Endpoint) :
    f.sorted.canonicalized.view.inboxStamp d key = f.view.inboxStamp d key := by
  rw [FlowFile.inboxStamp, FlowFile.inboxStamp, nodeByID_canonicalized hnodes, nodeByID_view,
    Option.map_map, Option.map_map]
  congr 1
  funext n
  exact inboxFingerprint_canonicalized n key.port

theorem newNodeFP_canonicalized_iff (hnodes : (f.graph.nodes.map Node.id).Nodup)
    (hwires : (f.graph.wires.map Wire.id).Nodup) :
    (∀ id, f.sorted.canonicalized.view.newNodeFP d id = f.view.newNodeFP d id) ↔
      f.ConfigsCanonical := by
  have hfp (id : String) : f.sorted.canonicalized.view.newNodeFP d id = f.view.newNodeFP d id ↔
      ∀ n, f.graph.nodes.find? (·.id = id) = some n →
        ∀ config ∈ n.config, config.IsCanonical := by
    rw [FlowFile.newNodeFP, FlowFile.newNodeFP, nodeByID_canonicalized hnodes, nodeByID_view]
    cases hfind : f.graph.nodes.find? (·.id = id) with
    | none => simp
    | some n => simpa using fingerprint_canonicalized_iff hwires n
  constructor
  · intro h n hn
    exact (hfp n.id).mp (h n.id) n ((find?_key_eq_some_iff hnodes).mpr ⟨hn, rfl⟩)
  · intro h id
    refine (hfp id).mpr fun n hfind => h n ?_
    exact ((find?_key_eq_some_iff hnodes).mp hfind).1

end Format

section Deploy

variable {reg : Registry} {d : Digest} {s s' : Live} {call : DeployCall}

theorem DeployResult.newNodeFP (h : DeployResult reg d s call s') {id : String}
    {rn : RunningNode} (hrn : s'.deployment.nodes.lookup id = some rn) :
    call.file.newNodeFP d id = rn.fingerprint := by
  rcases h.starts.started hrn with hold | ⟨-, n, r, inst, hn, -, -, rfl⟩
  · exact of_decide_eq_true (lookup_retain.mp hold).2
  · rw [FlowFile.newNodeFP, hn]
    rfl

variable {g : Deployment}

theorem startAll_of_running {prior : String → Nat} {ids : List String}
    (h : ∀ id ∈ ids, id ∈ g.nodes) : startAll reg d call prior ids g = (g, none) := by
  induction ids with
  | nil => rfl
  | cons id ids ih =>
    rw [startAll, if_pos (h id List.mem_cons_self)]
    exact ih fun other hother => h other (List.mem_cons_of_mem _ hother)

theorem stopNodes_eq_self {f : FlowFile}
    (h : ∀ id rn, g.nodes.lookup id = some rn → f.newNodeFP d id = rn.fingerprint) :
    g.stopNodes d f = g := by
  have hnodes : (g.stopNodes d f).nodes = g.nodes := by
    apply AList.ext
    refine List.filter_eq_self.mpr ?_
    rintro ⟨id, rn⟩ hmem
    exact decide_eq_true (h id rn (AList.mem_lookup_iff.mpr hmem))
  rw [Deployment.stopNodes] at hnodes ⊢
  simp only at hnodes
  rw [hnodes]

theorem deploy_nodes_eq_iff (hvalid : reg.validate call.file = [])
    (hrunning : ∀ n ∈ call.file.graph.nodes, n.id ∈ g.nodes) :
    (g.deploy reg d call).1.nodes = g.nodes ↔
      ∀ id rn, g.nodes.lookup id = some rn → call.file.newNodeFP d id = rn.fingerprint := by
  rw [deploy_of_valid hvalid]
  constructor
  · intro hnodes id rn hrn
    have hnew := hnodes ▸ hrn
    rcases (starts_startAll reg d call g.priorStartCount call.order _).started hnew with
      hold | ⟨-, n, r, inst, -, -, -, heq⟩
    · exact of_decide_eq_true (lookup_retain.mp hold).2
    · -- A node that was started again has one more start than the one that was stopped.
      have hcount := congrArg RunningNode.startCount heq
      simp [Deployment.runningNode, Deployment.priorStartCount, hrn] at hcount
  · intro hkept
    rw [stopNodes_eq_self (g := g.reconciled reg d call.file) hkept, startAll_of_running]
    · rfl
    · intro id hid
      obtain ⟨n, hn, rfl⟩ := List.mem_map.mp (call.order_perm.mem_iff.mp hid)
      exact hrunning n hn

/--
A runtime that has applied the canonical text of a file keeps all nodes when it applies the
file as it is stored, and all fingerprints are the same, exactly when every configuration is
stored in canonical form.
-/
theorem repush_restarts_nothing_iff {floats : Float64Text} {f f' : Format.FlowFile floats}
    (reg : Registry) (d : Digest) (hparse : Format.parse floats f.marshalCanonical = some f')
    (hvalid : reg.validate f.view = []) :
    ((∀ id, f'.view.newNodeFP d id = f.view.newNodeFP d id) ∧
        (∀ key, f'.view.inboxStamp d key = f.view.inboxStamp d key) ↔ f.ConfigsCanonical) ∧
      ∀ (s s' : Live) (call call' : DeployCall), call.file = f'.view →
        s.deploy reg d call = some s' → call'.file = f.view →
        ((s'.deployment.deploy reg d call').1.nodes = s'.deployment.nodes ↔
          f.ConfigsCanonical) := by
  rw [Format.parse_marshalCanonical, Option.some.injEq] at hparse
  subst hparse
  have haccepts := accepts_of_validate hvalid
  have hnodes : (f.graph.nodes.map Format.Node.id).Nodup := by
    have hview := haccepts.nodes_nodup
    rwa [Format.FlowFile.view, List.map_map] at hview
  have hwires : (f.graph.wires.map Wire.id).Nodup := haccepts.wires_nodup
  have hfps := Format.newNodeFP_canonicalized_iff (d := d) hnodes hwires
  have hstamps := fun key => Format.inboxStamp_canonicalized (d := d) hnodes key
  refine ⟨⟨fun h => hfps.mp h.1, fun h => ⟨hfps.mpr h, hstamps⟩⟩, ?_⟩
  intro s s' call call' hcall hdeploy hcall'
  have hresult := deployResult_of_deploy hdeploy
  have hrunning : ∀ n ∈ call'.file.graph.nodes, n.id ∈ s'.deployment.nodes := by
    intro n hn
    rw [hcall'] at hn
    obtain ⟨m, hm, rfl⟩ := List.mem_map.mp hn
    refine hresult.running m.canonicalized.view ?_
    rw [hcall]
    refine List.mem_map_of_mem (List.mem_map_of_mem ?_)
    exact (perm_sortByKey Format.Node.id f.graph.nodes).mem_iff.mpr hm
  rw [deploy_nodes_eq_iff (hcall' ▸ hvalid) hrunning, ← hfps, hcall']
  constructor
  · intro hkept id
    cases hrn : s'.deployment.nodes.lookup id with
    | some rn => rw [hkept id rn hrn, ← hcall, hresult.newNodeFP hrn]
    | none =>
      have hnone : f.graph.nodes.find? (·.id = id) = none := by
        rw [List.find?_eq_none]
        intro n hn hid
        have hmem := hrunning n.view (hcall' ▸ List.mem_map_of_mem hn)
        rw [← AList.lookup_isSome, Format.Node.view, of_decide_eq_true hid, hrn] at hmem
        cases hmem
      rw [FlowFile.newNodeFP, FlowFile.newNodeFP, Format.nodeByID_canonicalized hnodes,
        Format.nodeByID_view, hnone]
      rfl
  · intro hsame id rn hrn
    rw [← hsame id, ← hcall]
    exact hresult.newNodeFP hrn

end Deploy

open Format (exactFloats)

def sortedConfig : Format.FlowFile exactFloats where
  id := "flow"
  mode := "streaming"
  graph :=
    { nodes := [{ id := "a", typeName := "inject", config := some (.obj
        [(.encode "rate", .num (intLit 1)), (.encode "topic", .str (.encode "t"))]) }] }

theorem repush_restarts_nothing_sorted :
    ((∀ id, sortedConfig.sorted.canonicalized.view.newNodeFP plainDigest id =
          sortedConfig.view.newNodeFP plainDigest id) ∧
        (∀ key, sortedConfig.sorted.canonicalized.view.inboxStamp plainDigest key =
          sortedConfig.view.inboxStamp plainDigest key) ↔ sortedConfig.ConfigsCanonical) ∧
      ∀ (s s' : Live) (call call' : DeployCall),
        call.file = sortedConfig.sorted.canonicalized.view →
        s.deploy smallRegistry plainDigest call = some s' → call'.file = sortedConfig.view →
        ((s'.deployment.deploy smallRegistry plainDigest call').1.nodes =
          s'.deployment.nodes ↔ sortedConfig.ConfigsCanonical) :=
  repush_restarts_nothing_iff smallRegistry plainDigest
    (Format.parse_marshalCanonical sortedConfig) (by decide)

def unsortedContent : List Char :=
  ("\x7b\"mode\":\"streaming\",\"graph\":\x7b\"nodes\":[\x7b\"id\":\"a\",\"type\":\"inject\"," ++
    "\"config\":\x7b\"topic\":\"t\",\"rate\":1\x7d\x7d]\x7d\x7d").toList

theorem unsorted_config_restarts_node :
    ∃ f f' s, Format.parse exactFloats unsortedContent = some f ∧
      Format.parse exactFloats f.marshalCanonical = some f' ∧
      smallRegistry.validate f.view = [] ∧
      Live.start.deploy smallRegistry plainDigest (deployOf 0 f'.view) = some s ∧
      (s.deployment.deploy smallRegistry plainDigest (deployOf 0 f.view)).1.nodes ≠
        s.deployment.nodes := by
  obtain ⟨f, hf, f', hf', hvalid, s, hs, hagain, honce⟩ :
      ∃ f, Format.parse exactFloats unsortedContent = some f ∧
        ∃ f', Format.parse exactFloats f.marshalCanonical = some f' ∧
          smallRegistry.validate f.view = [] ∧
          ∃ s, Live.start.deploy smallRegistry plainDigest (deployOf 0 f'.view) = some s ∧
            ((s.deployment.deploy smallRegistry plainDigest
              (deployOf 0 f.view)).1.nodes.lookup "a").map RunningNode.startCount = some 2 ∧
            (s.deployment.nodes.lookup "a").map RunningNode.startCount = some 1 := by
    rw [plainDigest_eq]
    decide +kernel
  refine ⟨f, f', s, hf, hf', hvalid, hs, ?_⟩
  intro hsame
  rw [hsame, honce] at hagain
  cases hagain

end DataPipe.Flow
