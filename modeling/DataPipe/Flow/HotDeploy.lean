import DataPipe.Flow.Deployment
import DataPipe.Foundation.Run

/-!
# Hot deploys

Which wires the running nodes hold after a sequence of deploys.  A node that is
kept over a deploy holds the references it was started with, so the wiring
follows the file only if no inbox downstream of a kept node is replaced and
its targets are listed in the order in which it was started.
-/

namespace DataPipe.Flow

open DataPipe.Foundation

structure Live where
  deployment : Deployment
  file : FlowFile

def Live.start : Live := ⟨newDeployment, { id := "", mode := "" }⟩

def Live.fresh (dataDir : String) (env : List (String × String)) : Live :=
  ⟨{ newDeployment with dataDir := dataDir, resolvedEnv := env }, Live.start.file⟩

def Live.deploy (reg : Registry) (d : Digest) (s : Live) (call : DeployCall) : Option Live :=
  match s.deployment.deploy reg d call with
  | (g, none) => some ⟨g, call.file⟩
  | (_, some _) => none

variable {reg : Registry} {d : Digest} {f : FlowFile} {key : Endpoint} {stamp : String} {s : Live}

theorem Live.deploy_eq_some {s' : Live} {call : DeployCall} (h : s.deploy reg d call = some s') :
    s.deployment.deploy reg d call = (s'.deployment, none) ∧ s'.file = call.file := by
  unfold Live.deploy at h
  split at h
  case h_1 g heq =>
    cases h
    exact ⟨heq, rfl⟩
  case h_2 => contradiction

def Live.attempt (reg : Registry) (d : Digest) (s : Live) (call : DeployCall) : Option Live :=
  if reg.validate call.file = [] then
    some ⟨(s.deployment.deploy reg d call).1, call.file⟩
  else none

def Deployment.OpenRef (g : Deployment) (ref : Nat) : Prop :=
  ∃ w, g.inboxes.pool[ref]? = some w ∧ IsOpen w

structure FollowsFile (g : Deployment) (f : FlowFile) (n : Node) (r : Registration)
    (inst : Instance) (rn : RunningNode) : Prop where
  ports : rn.outputs.map Prod.fst = inst.effectiveOutputs r.info n
  targets : ∀ port refs, (port, refs) ∈ rn.outputs →
    refs.map some =
        (outputTargets f.graph.wires ⟨n.id, port⟩).map (g.inboxes.ref.lookup ·) ∧
      ∀ ref ∈ refs, g.OpenRef ref
  loops : rn.readers.map Prod.fst = inst.readPorts r.info
  reads : ∀ port ref, (port, ref) ∈ rn.readers →
    g.inboxes.ref.lookup ⟨n.id, port⟩ = some ref ∧ g.OpenRef ref

structure WellWired (reg : Registry) (s : Live) : Prop where
  running : ∀ id, id ∈ s.deployment.nodes ↔ id ∈ s.file.graph.nodes.map Node.id
  follows : ∀ n ∈ s.file.graph.nodes, ∃ rn r inst,
    s.deployment.nodes.lookup n.id = some rn ∧
      reg.lookup n.typeName = some r ∧ r.factory n.config = .ok inst ∧
      FollowsFile s.deployment s.file n r inst rn

def FlowFile.inboxStamp (f : FlowFile) (d : Digest) (key : Endpoint) : Option String :=
  (f.nodeByID key.node).map fun n => f.inboxFingerprint d n key.port

/--
For every node that keeps its fingerprint: its configuration is not switched
between absent and null, and for each of its wires in the new file the targets
of that output are listed as before and the inbox at the other end keeps its
fingerprint.
-/
def Steady (d : Digest) (s : Live) (call : DeployCall) : Prop :=
  ∀ n ∈ call.file.graph.nodes, ∀ m ∈ s.file.graph.nodes,
    n.id = m.id → call.file.fingerprint d n = s.file.fingerprint d m →
      n.config.isNone = m.config.isNone ∧
      ∀ w ∈ call.file.graph.wires, w.fromEnd.node = n.id →
        outputTargets call.file.graph.wires w.fromEnd =
            outputTargets s.file.graph.wires w.fromEnd ∧
          call.file.inboxStamp d w.toEnd = s.file.inboxStamp d w.toEnd

instance (d : Digest) (s : Live) (call : DeployCall) : Decidable (Steady d s call) := by
  unfold Steady
  refine @List.decidableBAll _ _ (fun n => @List.decidableBAll _ _ (fun m => ?_) _) _
  refine @instDecidableForall _ _ inferInstance (@instDecidableForall _ _ inferInstance ?_)
  refine @instDecidableAnd _ _ inferInstance (@List.decidableBAll _ _ (fun w => ?_) _)
  exact @instDecidableForall _ _ inferInstance inferInstance

theorem mem_computeInboxFingerprints : (key, stamp) ∈ computeInboxFingerprints reg d f ↔
      ∃ n ∈ f.graph.nodes, n.id = key.node ∧ key.port ∈ reg.inputs n ∧
        stamp = f.inboxFingerprint d n key.port := by
  simp only [computeInboxFingerprints, List.mem_flatMap, List.mem_map]
  constructor
  · rintro ⟨n, hn, port, hport, heq⟩
    cases heq
    exact ⟨n, hn, rfl, hport, rfl⟩
  · rintro ⟨n, hn, hid, hport, rfl⟩
    refine ⟨n, hn, key.port, hport, ?_⟩
    rw [hid]

theorem eq_of_id_eq {n m : Node} (hnodup : (f.graph.nodes.map Node.id).Nodup)
    (hn : n ∈ f.graph.nodes) (hm : m ∈ f.graph.nodes) (hid : n.id = m.id) : n = m := by
  have hfind := nodeByID_of_mem hnodup hn
  rw [hid, nodeByID_of_mem hnodup hm] at hfind
  exact (Option.some.inj hfind).symm

theorem consistent_computeInboxFingerprints (hnodup : (f.graph.nodes.map Node.id).Nodup) :
    ResourceTable.Consistent (computeInboxFingerprints reg d f) := by
  intro key a b ha hb
  obtain ⟨n, hn, hnid, _, rfl⟩ := mem_computeInboxFingerprints.mp ha
  obtain ⟨m, hm, hmid, _, rfl⟩ := mem_computeInboxFingerprints.mp hb
  rw [eq_of_id_eq hnodup hn hm (hnid.trans hmid.symm)]

theorem mem_of_inboxStamp {n : Node} (hn : f.nodeByID key.node = some n)
    (hport : key.port ∈ reg.inputs n) :
    ∃ stamp, f.inboxStamp d key = some stamp ∧
      (key, stamp) ∈ computeInboxFingerprints reg d f := by
  obtain ⟨hmem, hid⟩ := nodeByID_eq_some hn
  refine ⟨f.inboxFingerprint d n key.port, ?_, ?_⟩
  · rw [FlowFile.inboxStamp, hn]
    rfl
  · exact mem_computeInboxFingerprints.mpr ⟨n, hmem, hid, hport, rfl⟩

theorem mem_of_wire (hf : reg.Accepts f) {w : Wire} (hw : w ∈ f.graph.wires) :
    ∃ stamp, f.inboxStamp d w.toEnd = some stamp ∧
      (w.toEnd, stamp) ∈ computeInboxFingerprints reg d f := by
  obtain ⟨n, hn, hid, hport⟩ := hf.to_port w hw
  apply mem_of_inboxStamp _ hport
  rw [← hid]
  exact nodeByID_of_mem hf.nodes_nodup hn

theorem mem_outputTargets {wires : List Wire} {source : Endpoint} :
    key ∈ outputTargets wires source ↔
      ∃ w ∈ wires, w.fromEnd = source ∧ w.toEnd = key := by
  simp only [outputTargets, List.mem_map, List.mem_filter, decide_eq_true_eq]
  constructor
  · rintro ⟨w, ⟨hw, hfrom⟩, hto⟩
    exact ⟨w, hw, hfrom, hto⟩
  · rintro ⟨w, hw, hfrom, hto⟩
    exact ⟨w, ⟨hw, hfrom⟩, hto⟩

/--
The deployment and the file agree, apart from the fan-outs of the running
nodes: the inboxes are those of the file, every node of the file runs under its
own fingerprint, and the receive loops read the current inboxes.
-/
structure Synced (reg : Registry) (d : Digest) (s : Live) : Prop where
  accepts : reg.Accepts s.file
  wires : s.deployment.wires = s.file.graph.wires
  stamps : ∀ key stamp, s.deployment.inboxes.stamp.lookup key = some stamp ↔
    (key, stamp) ∈ computeInboxFingerprints reg d s.file
  running : ∀ n ∈ s.file.graph.nodes, n.id ∈ s.deployment.nodes
  nodes : ∀ {id rn}, s.deployment.nodes.lookup id = some rn →
    ∃ n, s.file.nodeByID id = some n ∧ rn.fingerprint = s.file.fingerprint d n
  reads : ∀ {id rn}, s.deployment.nodes.lookup id = some rn →
    ∀ port ref, (port, ref) ∈ rn.readers →
      s.deployment.inboxes.ref.lookup ⟨id, port⟩ = some ref

attribute [local simp] Live.start newDeployment

theorem synced_start (reg : Registry) (d : Digest) : Synced reg d .start where
  accepts := by constructor <;> simp
  wires := rfl
  stamps := by simp [ResourceTable.empty, computeInboxFingerprints]
  running := by simp
  nodes := by
    intro id rn h
    simp at h
  reads := by
    intro id rn h
    simp at h

theorem synced_fresh (reg : Registry) (d : Digest) (dataDir : String)
    (env : List (String × String)) : Synced reg d (.fresh dataDir env) :=
  have h := synced_start reg d
  ⟨h.accepts, h.wires, h.stamps, h.running, h.nodes, h.reads⟩

section Deploy

variable {s s' : Live} {call : DeployCall} {inst : Instance}

def Live.stopped (reg : Registry) (d : Digest) (s : Live) (call : DeployCall) : Deployment :=
  (s.deployment.reconciled reg d call.file).stopNodes d call.file

structure DeployResult (reg : Registry) (d : Digest) (s : Live) (call : DeployCall)
    (s' : Live) : Prop where
  file : s'.file = call.file
  accepts : reg.Accepts call.file
  starts : Starts reg d call s.deployment.priorStartCount (s.stopped reg d call)
    s'.deployment
  running : ∀ n ∈ call.file.graph.nodes, n.id ∈ s'.deployment.nodes

theorem deployResult_of_deploy (h : s.deploy reg d call = some s') :
    DeployResult reg d s call s' := by
  obtain ⟨hdeploy, hfile⟩ := Live.deploy_eq_some h
  have hvalid := validate_of_deploy hdeploy
  have haccepts := accepts_of_validate hvalid
  rw [deploy_of_valid hvalid] at hdeploy
  have hstarts := starts_startAll reg d call s.deployment.priorStartCount call.order
    (s.stopped reg d call)
  rw [Live.stopped, hdeploy] at hstarts
  refine ⟨hfile, haccepts, hstarts, ?_⟩
  intro n hn
  have hrunning := mem_nodes_startAll (congrArg Prod.snd hdeploy)
    (call.order_perm.mem_iff.mpr (List.mem_map_of_mem hn)) (by
      rw [nodeByID_of_mem haccepts.nodes_nodup hn]
      rfl)
  rw [hdeploy] at hrunning
  exact hrunning

structure AttemptResult (reg : Registry) (d : Digest) (s : Live) (call : DeployCall)
    (s' : Live) : Prop where
  file : s'.file = call.file
  accepts : reg.Accepts call.file
  starts : Starts reg d call s.deployment.priorStartCount (s.stopped reg d call)
    s'.deployment

theorem attemptResult_of_attempt (h : s.attempt reg d call = some s') :
    AttemptResult reg d s call s' := by
  unfold Live.attempt at h
  split at h
  case isTrue hvalid =>
    cases h
    refine ⟨rfl, accepts_of_validate hvalid, ?_⟩
    rw [deploy_of_valid hvalid]
    exact starts_startAll reg d call s.deployment.priorStartCount call.order
      (s.stopped reg d call)
  case isFalse => contradiction

theorem AttemptResult.inboxes (h : AttemptResult reg d s call s') :
    s'.deployment.inboxes = reconcileInboxes reg d call.file s.deployment.inboxes := by
  rw [h.starts.frame]
  rfl

theorem DeployResult.inboxes (h : DeployResult reg d s call s') :
    s'.deployment.inboxes = reconcileInboxes reg d call.file s.deployment.inboxes := by
  rw [h.starts.frame]
  rfl

theorem DeployResult.wires (h : DeployResult reg d s call s') :
    s'.deployment.wires = call.file.graph.wires := by
  rw [h.starts.frame]
  rfl

theorem DeployResult.stamps (h : DeployResult reg d s call s') (key : Endpoint) (stamp : String) :
    s'.deployment.inboxes.stamp.lookup key = some stamp ↔
      (key, stamp) ∈ computeInboxFingerprints reg d call.file := by
  rw [h.inboxes]
  exact ResourceTable.stamp_reconcile _ _
    (consistent_computeInboxFingerprints h.accepts.nodes_nodup) key stamp

theorem Synced.keeps (hs : Synced reg d s) (h : DeployResult reg d s call s')
    (hold : (key, stamp) ∈ computeInboxFingerprints reg d s.file)
    (hnew : (key, stamp) ∈ computeInboxFingerprints reg d call.file) :
    s.deployment.inboxes.Keeps s'.deployment.inboxes key := by
  rw [h.inboxes]
  exact ResourceTable.keeps_reconcile _ _
    (consistent_computeInboxFingerprints h.accepts.nodes_nodup) hnew
    ((hs.stamps key stamp).mpr hold)

structure KeptNode (d : Digest) (s : Live) (call : DeployCall) (id : String)
    (rn : RunningNode) (n m : Node) : Prop where
  lookup : s.deployment.nodes.lookup id = some rn
  new : call.file.nodeByID id = some n
  old : s.file.nodeByID id = some m
  fingerprint : rn.fingerprint = call.file.fingerprint d n
  same : call.file.fingerprint d n = s.file.fingerprint d m

def NodesFiled (d : Digest) (s : Live) : Prop :=
  ∀ id rn, s.deployment.nodes.lookup id = some rn →
    ∃ n, s.file.nodeByID id = some n ∧ rn.fingerprint = s.file.fingerprint d n

variable {id port : String} {rn : RunningNode} {m n : Node}

theorem NodesFiled.keptNode (hs : NodesFiled d s)
    (h : (s.stopped reg d call).nodes.lookup id = some rn) :
    ∃ n m, KeptNode d s call id rn n m := by
  obtain ⟨hold, hkeep⟩ := lookup_retain.mp h
  have hkeep := of_decide_eq_true hkeep
  obtain ⟨m, hm, hfp⟩ := hs id rn hold
  unfold FlowFile.newNodeFP at hkeep
  cases hn : call.file.nodeByID id with
  | none =>
    rw [hn, hfp] at hkeep
    exact absurd hkeep.symm (d.hex_ne_empty _)
  | some n =>
    rw [hn] at hkeep
    exact ⟨n, m, hold, hn, hm, hkeep.symm, hkeep.trans hfp⟩

theorem Synced.keptNode (hs : Synced reg d s)
    (h : (s.stopped reg d call).nodes.lookup id = some rn) :
    ∃ n m, KeptNode d s call id rn n m :=
  NodesFiled.keptNode (fun _ _ => hs.nodes) h

theorem AttemptResult.nodesFiled (h : AttemptResult reg d s call s')
    (hs : NodesFiled d s) : NodesFiled d s' := by
  intro id rn hrn
  rw [h.file]
  rcases h.starts.started hrn with hkept | ⟨_, n, r, inst, hn, _, _, rfl⟩
  · obtain ⟨n, m, hkept⟩ := hs.keptNode hkept
    exact ⟨n, hkept.new, hkept.fingerprint⟩
  · exact ⟨n, hn, rfl⟩

theorem KeptNode.id_eq (h : KeptNode d s call id rn n m) : n.id = id ∧ m.id = id :=
  ⟨(nodeByID_eq_some h.new).2, (nodeByID_eq_some h.old).2⟩

theorem KeptNode.sameNode (h : KeptNode d s call id rn n m) :
    SameNode n m (touching call.file.graph.wires id)
      (touching s.file.graph.wires id) := by
  have hsame := sameNode_of_nodeFingerprint h.same
  rw [h.id_eq.1, h.id_eq.2] at hsame
  exact hsame

theorem KeptNode.inputs (h : KeptNode d s call id rn n m) : reg.inputs n = reg.inputs m := by
  rw [Registry.inputs, Registry.inputs, Registry.info, Registry.info, h.sameNode.typeName]

theorem KeptNode.keeps (hs : Synced reg d s) (hr : DeployResult reg d s call s')
    (h : KeptNode d s call id rn n m) {ref : Nat}
    (href : s.deployment.inboxes.ref.lookup ⟨id, port⟩ = some ref) :
    s.deployment.inboxes.Keeps s'.deployment.inboxes ⟨id, port⟩ := by
  have hmem : (⟨id, port⟩ : Endpoint) ∈ s.deployment.inboxes.stamp := by
    rw [← s.deployment.inboxes.mem_iff, ← AList.lookup_isSome, href]
    rfl
  rw [← AList.lookup_isSome, Option.isSome_iff_exists] at hmem
  obtain ⟨stamp, hstamp⟩ := hmem
  have hold := (hs.stamps _ _).mp hstamp
  obtain ⟨m', hm', hid', hport, rfl⟩ := mem_computeInboxFingerprints.mp hold
  obtain ⟨hm, hmid⟩ := nodeByID_eq_some h.old
  obtain ⟨hn, hnid⟩ := nodeByID_eq_some h.new
  have heq : m' = m := eq_of_id_eq hs.accepts.nodes_nodup hm' hm (hid'.trans hmid.symm)
  subst heq
  apply hs.keeps hr hold
  refine mem_computeInboxFingerprints.mpr ⟨n, hn, hnid, ?_, ?_⟩
  · rw [h.inputs]
    exact hport
  · exact (inboxFingerprint_eq_of_fingerprint (hnid.trans hmid.symm) h.same port).symm

theorem synced_step (hs : Synced reg d s) (h : s.deploy reg d call = some s') :
    Synced reg d s' := by
  have hr := deployResult_of_deploy h
  refine ⟨hr.file ▸ hr.accepts, hr.file ▸ hr.wires, hr.file ▸ hr.stamps,
    hr.file ▸ hr.running, ?_, ?_⟩
  · intro id rn hrn
    have hattempt : AttemptResult reg d s call s' := ⟨hr.file, hr.accepts, hr.starts⟩
    exact hattempt.nodesFiled (fun _ _ => hs.nodes) id rn hrn
  · intro id rn hrn port ref hmem
    rcases hr.starts.started hrn with hkept | ⟨_, n, r, inst, hn, _, _, rfl⟩
    · obtain ⟨n, m, hkept⟩ := hs.keptNode hkept
      have href := hs.reads hkept.lookup port ref hmem
      rw [(hkept.keeps hs hr href).ref]
      exact href
    · simp only [Deployment.runningNode, List.mem_filterMap, Option.map_eq_some_iff] at hmem
      obtain ⟨port', _, ref', href, rfl, rfl⟩ := hmem
      rw [(nodeByID_eq_some hn).2] at href
      rw [hr.starts.frame]
      exact href

def Captures (reg : Registry) (s : Live) : Prop :=
  ∀ id rn n, s.deployment.nodes.lookup id = some rn → s.file.nodeByID id = some n →
    ∃ r inst, reg.lookup n.typeName = some r ∧ r.factory n.config = .ok inst ∧
      rn.outputs = (inst.effectiveOutputs r.info n).map (fun port =>
        (port, s.deployment.inboxesForOutput ⟨id, port⟩)) ∧
      rn.readers.map Prod.fst = inst.readPorts r.info

theorem captures_start (reg : Registry) : Captures reg .start := by
  intro id rn n h
  simp at h

theorem KeptNode.targets_perm (h : KeptNode d s call id rn n m) (port : String) :
    (outputTargets call.file.graph.wires ⟨id, port⟩).Perm
      (outputTargets s.file.graph.wires ⟨id, port⟩) := by
  apply List.Perm.map
  apply filter_perm_of_touching h.sameNode.wires
  intro w hw
  left
  rw [of_decide_eq_true hw]

theorem KeptNode.targets_eq (hsteady : Steady d s call) (h : KeptNode d s call id rn n m)
    (port : String) :
    outputTargets call.file.graph.wires ⟨id, port⟩ =
      outputTargets s.file.graph.wires ⟨id, port⟩ := by
  obtain ⟨hn, hnid⟩ := nodeByID_eq_some h.new
  obtain ⟨hm, hmid⟩ := nodeByID_eq_some h.old
  cases htargets : outputTargets call.file.graph.wires ⟨id, port⟩ with
  | nil =>
    have hperm := h.targets_perm port
    rw [htargets] at hperm
    exact hperm.nil_eq
  | cons key keys =>
    have hmem : key ∈ outputTargets call.file.graph.wires ⟨id, port⟩ := by
      rw [htargets]
      exact List.mem_cons_self
    obtain ⟨w, hw, hfrom, _⟩ := mem_outputTargets.mp hmem
    have hsame := (hsteady n hn m hm (hnid.trans hmid.symm) h.same).2 w hw (by
      rw [hfrom, hnid])
    rw [hfrom, htargets] at hsame
    exact hsame.1

theorem KeptNode.target_keeps (hs : Synced reg d s) (hr : DeployResult reg d s call s')
    (hsteady : Steady d s call) (h : KeptNode d s call id rn n m)
    (hkey : key ∈ outputTargets call.file.graph.wires ⟨id, port⟩) :
    s.deployment.inboxes.Keeps s'.deployment.inboxes key := by
  obtain ⟨hn, hnid⟩ := nodeByID_eq_some h.new
  obtain ⟨hm, hmid⟩ := nodeByID_eq_some h.old
  have hkeyOld := hkey
  rw [h.targets_eq hsteady] at hkeyOld
  obtain ⟨w, hw, hfrom, rfl⟩ := mem_outputTargets.mp hkey
  obtain ⟨v, hv, _, hto⟩ := mem_outputTargets.mp hkeyOld
  obtain ⟨stamp, hstamp, hnew⟩ := mem_of_wire (d := d) hr.accepts hw
  obtain ⟨stamp', hstamp', hold⟩ := mem_of_wire (d := d) hs.accepts hv
  rw [hto] at hstamp' hold
  have hsame := (hsteady n hn m hm (hnid.trans hmid.symm) h.same).2 w hw (by
    rw [hfrom, hnid])
  rw [hstamp, hstamp'] at hsame
  cases hsame.2
  exact hs.keeps hr hold hnew

theorem KeptNode.inboxesForOutput (hs : Synced reg d s) (hr : DeployResult reg d s call s')
    (hsteady : Steady d s call) (h : KeptNode d s call id rn n m) (port : String) :
    s'.deployment.inboxesForOutput ⟨id, port⟩ =
      s.deployment.inboxesForOutput ⟨id, port⟩ := by
  rw [Deployment.inboxesForOutput, Deployment.inboxesForOutput, hr.wires, hs.wires,
    ← h.targets_eq hsteady]
  apply List.filterMap_congr
  intro key hkey
  exact (h.target_keeps hs hr hsteady hkey).ref

theorem KeptNode.config_eq (hsteady : Steady d s call) (h : KeptNode d s call id rn n m) :
    n.config = m.config := by
  obtain ⟨hn, hnid⟩ := nodeByID_eq_some h.new
  obtain ⟨hm, hmid⟩ := nodeByID_eq_some h.old
  exact h.sameNode.config_eq (hsteady n hn m hm (hnid.trans hmid.symm) h.same).1

theorem mem_inputs_of_mem_readPorts {info : NodeTypeInfo} (h : port ∈ inst.readPorts info) :
    port ∈ info.inputs := by
  unfold Instance.readPorts at h
  split at h
  case h_1 => contradiction
  case h_2 =>
    split at h
    case isTrue => exact h
    case isFalse => exact List.mem_of_mem_take h

theorem map_fst_filterMap_of_isSome {ports : List String} {lookup : String → Option Nat}
    (h : ∀ port ∈ ports, (lookup port).isSome) :
    (ports.filterMap fun port => (lookup port).map fun ref => (port, ref)).map Prod.fst =
      ports := by
  induction ports with
  | nil => rfl
  | cons port ports ih =>
    obtain ⟨ref, href⟩ := Option.isSome_iff_exists.mp (h port List.mem_cons_self)
    have hrest := ih fun other hother => h other (List.mem_cons_of_mem _ hother)
    simp [href, hrest]

theorem DeployResult.inbox_isSome (h : DeployResult reg d s call s')
    (hn : n ∈ call.file.graph.nodes) (hport : port ∈ reg.inputs n) :
    (s'.deployment.inboxes.ref.lookup ⟨n.id, port⟩).isSome := by
  have hstamp := (h.stamps ⟨n.id, port⟩ (call.file.inboxFingerprint d n port)).mpr
    (mem_computeInboxFingerprints.mpr ⟨n, hn, rfl, hport, rfl⟩)
  rw [AList.lookup_isSome, s'.deployment.inboxes.mem_iff, ← AList.lookup_isSome, hstamp]
  rfl

theorem DeployResult.readers_started (h : DeployResult reg d s call s') {r : Registration}
    (hn : n ∈ call.file.graph.nodes) (hlookup : reg.lookup n.typeName = some r) (prior : Nat) :
    ((s.stopped reg d call).runningNode call.ctx n r.info inst
      (call.file.fingerprint d n) prior).readers.map Prod.fst = inst.readPorts r.info := by
  apply map_fst_filterMap_of_isSome
  intro port hport
  have hinput : port ∈ reg.inputs n := by
    rw [Registry.inputs, Registry.info, hlookup]
    exact mem_inputs_of_mem_readPorts hport
  have hsome := h.inbox_isSome hn hinput
  rw [h.starts.frame] at hsome
  exact hsome

theorem captures_step (hs : Synced reg d s) (hcap : Captures reg s) (hsteady : Steady d s call)
    (h : s.deploy reg d call = some s') : Captures reg s' := by
  have hr := deployResult_of_deploy h
  intro id rn n hrn hn
  rw [hr.file] at hn
  rcases hr.starts.started hrn with hkept | ⟨_, n', r, inst, hn', hlookup, hinst, rfl⟩
  · obtain ⟨n', m, hkept⟩ := hs.keptNode hkept
    have heq : n' = n := Option.mem_unique hkept.new hn
    subst heq
    obtain ⟨r, inst, hlookup, hinst, houtputs, hreaders⟩ :=
      hcap id rn m hkept.lookup hkept.old
    have hports : inst.effectiveOutputs r.info n' = inst.effectiveOutputs r.info m := by
      rw [Instance.effectiveOutputs, Instance.effectiveOutputs, hkept.sameNode.hasErrorPort]
    refine ⟨r, inst, ?_, ?_, ?_, hreaders⟩
    · rw [hkept.sameNode.typeName]
      exact hlookup
    · rw [hkept.config_eq hsteady]
      exact hinst
    · rw [houtputs, hports]
      apply List.map_congr_left
      intro port _
      rw [hkept.inboxesForOutput hs hr hsteady]
  · have heq : n' = n := Option.mem_unique hn' hn
    subst heq
    obtain ⟨hmem, hid⟩ := nodeByID_eq_some hn
    refine ⟨r, inst, hlookup, hinst, ?_, ?_⟩
    · rw [hr.starts.frame, ← hid]
      rfl
    · exact hr.readers_started hmem hlookup _

end Deploy

theorem map_some_filterMap_of_isSome {keys : List Endpoint}
    {lookup : Endpoint → Option Nat} (h : ∀ key ∈ keys, (lookup key).isSome) :
    (keys.filterMap lookup).map some = keys.map lookup := by
  induction keys with
  | nil => rfl
  | cons key keys ih =>
    obtain ⟨ref, href⟩ := Option.isSome_iff_exists.mp (h key List.mem_cons_self)
    have hrest := ih fun other hother => h other (List.mem_cons_of_mem _ hother)
    simp [href, hrest]

structure Current (reg : Registry) (d : Digest) (s : Live) : Prop where
  synced : Synced reg d s
  captures : Captures reg s

theorem Current.wellWired (h : Current reg d s) : WellWired reg s := by
  obtain ⟨hs, hcap⟩ := h
  have hopen {key : Endpoint} {ref : Nat}
      (h : s.deployment.inboxes.ref.lookup key = some ref) : s.deployment.OpenRef ref :=
    s.deployment.inboxes.live h
  have hinbox {w : Wire} (hw : w ∈ s.file.graph.wires) :
      (s.deployment.inboxes.ref.lookup w.toEnd).isSome := by
    obtain ⟨stamp, _, hmem⟩ := mem_of_wire (d := d) hs.accepts hw
    rw [AList.lookup_isSome, s.deployment.inboxes.mem_iff, ← AList.lookup_isSome,
      (hs.stamps _ _).mpr hmem]
    rfl
  constructor
  · intro id
    constructor
    · intro hmem
      rw [← AList.lookup_isSome, Option.isSome_iff_exists] at hmem
      obtain ⟨rn, hrn⟩ := hmem
      obtain ⟨n, hn, _⟩ := hs.nodes hrn
      obtain ⟨hmem, rfl⟩ := nodeByID_eq_some hn
      exact List.mem_map_of_mem hmem
    · intro hmem
      obtain ⟨n, hn, rfl⟩ := List.mem_map.mp hmem
      exact hs.running n hn
  · intro n hn
    have hmem := hs.running n hn
    rw [← AList.lookup_isSome, Option.isSome_iff_exists] at hmem
    obtain ⟨rn, hrn⟩ := hmem
    obtain ⟨r, inst, hlookup, hinst, houtputs, hreaders⟩ :=
      hcap n.id rn n hrn (nodeByID_of_mem hs.accepts.nodes_nodup hn)
    refine ⟨rn, r, inst, hrn, hlookup, hinst, ?_, ?_, hreaders, ?_⟩
    · rw [houtputs, List.map_map]
      exact List.map_id _
    · intro port refs hport
      rw [houtputs] at hport
      obtain ⟨port', _, heq⟩ := List.mem_map.mp hport
      cases heq
      rw [Deployment.inboxesForOutput, hs.wires]
      constructor
      · apply map_some_filterMap_of_isSome
        intro key hkey
        obtain ⟨w, hw, _, rfl⟩ := mem_outputTargets.mp hkey
        exact hinbox hw
      · intro ref href
        obtain ⟨key, _, hkey⟩ := List.mem_filterMap.mp href
        exact hopen hkey
    · intro port ref hread
      have href := hs.reads hrn port ref hread
      exact ⟨href, hopen href⟩

/--
After any sequence of deploys that are all steady and report no error, exactly
the nodes of the last file run, and the fan-outs and receive loops of each are
the open inboxes that its wires name.
-/
theorem hotDeploy_wellWired (reg : Registry) (d : Digest) (calls : List DeployCall)
    (s : Live) (hmeets : Meets (Live.deploy reg d) (Steady d) .start calls)
    (hrun : run (Live.deploy reg d) .start calls = some s) : WellWired reg s := by
  have hinit : Current reg d .start := ⟨synced_start reg d, captures_start reg⟩
  have hcurrent := run_invariant_of_meets (fun hs hsteady h =>
    ⟨synced_step hs.synced h, captures_step hs.synced hs.captures hsteady h⟩) hinit hmeets hrun
  exact hcurrent.wellWired

/-- Steady or not, the deploys leave nothing but the fan-outs behind the file. -/
theorem hotDeploy_synced (reg : Registry) (d : Digest) (calls : List DeployCall) (s : Live)
    (hrun : run (Live.deploy reg d) .start calls = some s) : Synced reg d s :=
  run_invariant synced_step (synced_start reg d) hrun

def plainDigest : Digest where
  hex text := String.ofList ('#' :: text)
  hex_injective := by
    intro a b h
    simpa using congrArg String.toList h
  hex_ne_empty := by
    intro text h
    simpa using congrArg String.toList h

theorem ofList_eq_bytes (l : List Char) :
    ∃ h, String.ofList l = ⟨⟨(l.flatMap String.utf8EncodeChar).toArray⟩, h⟩ := by
  have hbytes : l.utf8Encode = ⟨(l.flatMap String.utf8EncodeChar).toArray⟩ := by
    apply ByteArray.ext
    simp [List.utf8Encode]
  exact ⟨.intro l hbytes.symm, String.toByteArray_inj.1 hbytes⟩

/-- `plainDigest`, evaluated in linear time. -/
def directDigest : Digest where
  hex text := ⟨⟨(('#' :: text).flatMap String.utf8EncodeChar).toArray⟩, (ofList_eq_bytes _).1⟩
  hex_injective _ _ h := plainDigest.hex_injective
    ((ofList_eq_bytes _).2.trans (h.trans (ofList_eq_bytes _).2.symm))
  hex_ne_empty text h := plainDigest.hex_ne_empty text ((ofList_eq_bytes _).2.trans h)

theorem plainDigest_eq : plainDigest = directDigest := by
  have hhex : plainDigest.hex = directDigest.hex := funext fun _ => (ofList_eq_bytes _).2
  simp only [plainDigest, directDigest] at hhex ⊢
  congr

def smallRegistry : Registry where
  lookup typeName :=
    if typeName = "inject" then
      some ⟨{ kind := .source, inputs := [], outputs := ["out"] },
        fun _ => .ok { isSource := true }⟩
    else if typeName = "debug-log" then
      some ⟨{ kind := .processor, inputs := ["in"], outputs := [] },
        fun _ => .ok { isProcessor := true }⟩
    else none
  schemaComplaint _ _ := none

/-- `a` feeds `b`; the overflow policy of `b` and further nodes may vary. -/
def pipeFile (overflow : String) (extra : List Node) : FlowFile where
  id := "pipe"
  mode := "streaming"
  graph :=
    { nodes := { id := "a", typeName := "inject" } ::
        { id := "b", typeName := "debug-log", overflow := overflow } :: extra
      wires := [⟨"w", ⟨"a", "out"⟩, ⟨"b", "in"⟩⟩] }

def deployOf (ctx : Nat) (file : FlowFile) : DeployCall where
  ctx := ctx
  file := file
  order := file.graph.nodes.map Node.id
  queueOpens _ := true
  order_perm := .refl _

theorem hotDeploy_wellWired_addNode :
    ∃ s, run (Live.deploy smallRegistry plainDigest) .start
        [deployOf 0 (pipeFile "" []),
          deployOf 0 (pipeFile "" [⟨"c", "inject", 1, false, "", none, none, ""⟩])] =
        some s ∧
      WellWired smallRegistry s := by
  refine exists_some_imp (fun _ => True) (by rw [plainDigest_eq]; decide +kernel) ?_
  intro s hs _
  exact hotDeploy_wellWired _ plainDigest _ s (by rw [plainDigest_eq]; decide +kernel) hs

theorem sampled_after_pipe :
    ∃ s, run (Live.attempt smallRegistry plainDigest) (.fresh "" [])
        [deployOf 0 (pipeFile "" [])] = some s ∧ s.file = pipeFile "" [] ∧
      ∃ s', s.attempt smallRegistry plainDigest (deployOf 0 (pipeFile "sample:5" [])) = some s' ∧
        (s'.deployment.nodes.lookup "b").isSome := by
  refine exists_some_imp (fun s => ∃ s', s.attempt smallRegistry plainDigest
    (deployOf 0 (pipeFile "sample:5" [])) = some s' ∧ (s'.deployment.nodes.lookup "b").isSome)
    (by rw [plainDigest_eq]; decide +kernel) ?_
  intro s hrun hnext
  obtain ⟨_, hfirst, ⟨⟩⟩ := run_cons_eq_some.mp hrun
  exact ⟨(attemptResult_of_attempt hfirst).file, hnext⟩

/-- Only the overflow policy of `b` changes, so `a` is kept. -/
def overflowChange : List DeployCall :=
  [deployOf 0 (pipeFile "block" []), deployOf 0 (pipeFile "dropOldest" [])]

/-- `a` goes on sending to the inbox that the second deploy closed. -/
theorem overflowChange_leaves_closed_target :
    ∃ s, run (Live.deploy smallRegistry plainDigest) .start overflowChange = some s ∧
      ¬ WellWired smallRegistry s := by
  refine exists_some_imp (fun s => (∃ n ∈ s.file.graph.nodes, n.id = "a") ∧
    (∃ rn, s.deployment.nodes.lookup "a" = some rn ∧ rn.outputs = [("out", [0])]) ∧
    ∃ w, s.deployment.inboxes.pool[0]? = some w ∧ w.closed = true)
    (by rw [plainDigest_eq]; decide +kernel) ?_
  rintro s - ⟨⟨n, hn, hid⟩, ⟨rn, hrn, houtputs⟩, w, hw, hclosed⟩ hwired
  obtain ⟨rn', r, inst, hrn', _, _, hfollows⟩ := hwired.follows n hn
  rw [hid, hrn] at hrn'
  cases hrn'
  obtain ⟨w', hw', hopen⟩ := (hfollows.targets "out" [0] (by simp [houtputs])).2 0
    List.mem_cons_self
  rw [hw] at hw'
  cases hw'
  exact absurd (hopen.symm.trans hclosed) (by decide)

theorem overflowChange_synced :
    ∃ s, run (Live.deploy smallRegistry plainDigest) .start overflowChange = some s ∧
      Synced smallRegistry plainDigest s :=
  exists_some_imp (fun _ => True) (by rw [plainDigest_eq]; decide +kernel)
    fun s hs _ => hotDeploy_synced _ _ _ s hs

end DataPipe.Flow
