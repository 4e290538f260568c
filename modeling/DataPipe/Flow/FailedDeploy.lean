import DataPipe.Flow.HotDeploy

/-!
# Deploys that fail

`Deploy` has written the flow id, the settings, the wires and the inboxes, and has stopped the
nodes that changed, when it starts the first node.  The error of a node that does not start
undoes none of it.
-/

namespace DataPipe.Flow

open DataPipe.Foundation

structure SameDeployment (g g' : Deployment) : Prop where
  flowID : g'.flowID = g.flowID
  flowSettings : g'.flowSettings = g.flowSettings
  wires : g'.wires = g.wires
  outputTargets : ∀ source, outputTargets g'.wires source = outputTargets g.wires source
  nodes : ∀ id, g'.nodes.lookup id = g.nodes.lookup id
  inboxes : ∀ key, g.inboxes.Keeps g'.inboxes key

/-- The first node in the order of the loop that does not run yet does not start either. -/
def FirstFails (reg : Registry) (d : Digest) (call : DeployCall) (prior : String → Nat)
    (ids : List String) (g : Deployment) : Prop :=
  ∀ id ∈ ids.find? (· ∉ g.nodes), ∀ n ∈ call.file.nodeByID id,
    (g.startNode reg call.ctx call.queueOpens n (call.file.fingerprint d n) (prior id)).isOk = false

/-- The file agrees with what runs, but for nodes that do not run yet and of which none starts. -/
structure StartsNothing (reg : Registry) (d : Digest) (g : Deployment) (call : DeployCall) :
    Prop where
  flowID : call.file.id = g.flowID
  flowSettings : call.file.settings = g.flowSettings
  wires : call.file.graph.wires = g.wires
  inboxes : ∀ key stamp, g.inboxes.stamp.lookup key = some stamp ↔
    (key, stamp) ∈ computeInboxFingerprints reg d call.file
  nodes : ∀ id rn, g.nodes.lookup id = some rn → call.file.newNodeFP d id = rn.fingerprint
  first : FirstFails reg d call g.priorStartCount call.order g

variable {reg : Registry} {d : Digest} {call : DeployCall} {g g' : Deployment}
  {prior : String → Nat} {ids : List String}

theorem isOk_startNode_congr (hdir : g'.dataDir = g.dataDir) (ctx : Nat)
    (queueOpens : String → Bool) (n : Node) (fingerprint : String) (count : Nat) :
    (g'.startNode reg ctx queueOpens n fingerprint count).isOk =
      (g.startNode reg ctx queueOpens n fingerprint count).isOk := by
  unfold Deployment.startNode
  rw [hdir]
  split
  · rfl
  · split
    · rfl
    · split
      · rfl
      · split <;> rfl

theorem firstFails_congr (hnodes : ∀ id, g'.nodes.lookup id = g.nodes.lookup id)
    (hdir : g'.dataDir = g.dataDir) :
    FirstFails reg d call prior ids g' ↔ FirstFails reg d call prior ids g := by
  have hmem : ∀ id, id ∈ g'.nodes ↔ id ∈ g.nodes := by
    intro id
    rw [← AList.lookup_isSome, hnodes, AList.lookup_isSome]
  simp only [FirstFails, hmem, isOk_startNode_congr hdir]

theorem lookup_startAll_iff (hids : ∀ id ∈ ids, (call.file.nodeByID id).isSome) :
    (∀ id, (startAll reg d call prior ids g).1.nodes.lookup id = g.nodes.lookup id) ↔
      FirstFails reg d call prior ids g := by
  unfold FirstFails
  fun_induction startAll reg d call prior ids g
  next => simp
  next hmem ih =>
    rw [List.find?_cons_of_neg (by simpa using hmem)]
    exact ih fun id hid => hids id (List.mem_cons_of_mem _ hid)
  next hnone _ => simpa [hnone] using hids _ List.mem_cons_self
  next hfresh n hn err hstart => simp [hfresh, hn, hstart, Except.toBool]
  next id ids g hfresh n hn next hstart ih =>
    have hstarted : id ∈ (startAll reg d call prior ids next).1.nodes :=
      (starts_startAll reg d call prior ids next).mem_nodes (starts_startNode hfresh hn hstart).2
    constructor
    · intro hsame
      rw [← AList.lookup_isSome, hsame, AList.lookup_isSome] at hstarted
      exact absurd hstarted hfresh
    · intro hfirst
      have hfails := hfirst id (by simp [hfresh]) n hn
      simp [hstart, Except.toBool] at hfails

theorem lookup_stopNodes {f : FlowFile}
    (hkeep : ∀ id rn, g.nodes.lookup id = some rn → f.newNodeFP d id = rn.fingerprint)
    (id : String) : (g.stopNodes d f).nodes.lookup id = g.nodes.lookup id := by
  refine Option.ext fun rn => ?_
  rw [Deployment.stopNodes, lookup_retain]
  exact ⟨And.left, fun hrn => ⟨hrn, decide_eq_true (hkeep id rn hrn)⟩⟩

/-- A node that was stopped and runs again has been counted as started once more. -/
theorem newNodeFP_of_same
    (hstarts : Starts reg d call g.priorStartCount
      ((g.reconciled reg d call.file).stopNodes d call.file) g')
    (hsame : ∀ id, g'.nodes.lookup id = g.nodes.lookup id) (id : String) (rn : RunningNode)
    (hrn : g.nodes.lookup id = some rn) : call.file.newNodeFP d id = rn.fingerprint := by
  rcases hstarts.started ((hsame id).trans hrn) with hkept | ⟨-, n, r, inst, -, -, -, hnew⟩
  · exact of_decide_eq_true (lookup_retain.mp hkept).2
  · have hcount : rn.startCount = g.priorStartCount id + 1 := congrArg RunningNode.startCount hnew
    rw [Deployment.priorStartCount, hrn] at hcount
    exact absurd hcount (Nat.ne_of_lt (Nat.lt_succ_self _))

theorem sameDeployment_iff_startsNothing (haccepts : reg.Accepts call.file) :
    SameDeployment g (startAll reg d call g.priorStartCount call.order
        ((g.reconciled reg d call.file).stopNodes d call.file)).1 ↔
      StartsNothing reg d g call := by
  have hcons : ResourceTable.Consistent (computeInboxFingerprints reg d call.file) :=
    consistent_computeInboxFingerprints haccepts.nodes_nodup
  have hkeeps := ResourceTable.keeps_reconcile_iff Bus.Wire.close (freshInbox call.file)
    (t := g.inboxes) hcons
  have hids : ∀ id ∈ call.order, (call.file.nodeByID id).isSome := by
    intro id hid
    obtain ⟨n, hn, rfl⟩ := List.mem_map.mp (call.order_perm.mem_iff.mp hid)
    rw [nodeByID_of_mem haccepts.nodes_nodup hn]
    rfl
  have hstarts := starts_startAll reg d call g.priorStartCount call.order
    ((g.reconciled reg d call.file).stopNodes d call.file)
  have hloop : _ ↔ FirstFails reg d call g.priorStartCount call.order
    ((g.reconciled reg d call.file).stopNodes d call.file) := lookup_startAll_iff hids
  generalize (startAll reg d call g.priorStartCount call.order
    ((g.reconciled reg d call.file).stopNodes d call.file)).1 = g' at hstarts hloop
  have hstopped (hkeep : ∀ id rn, g.nodes.lookup id = some rn →
      call.file.newNodeFP d id = rn.fingerprint) :
      (∀ id, g'.nodes.lookup id = g.nodes.lookup id) ↔
        FirstFails reg d call g.priorStartCount call.order g := by
    have hlookup : ∀ id, ((g.reconciled reg d call.file).stopNodes d call.file).nodes.lookup id =
      g.nodes.lookup id := lookup_stopNodes hkeep
    rw [← firstFails_congr hlookup rfl, ← hloop]
    exact forall_congr' fun id => by rw [hlookup]
  obtain ⟨nodes, rfl⟩ : ∃ nodes, g' =
      { (g.reconciled reg d call.file).stopNodes d call.file with nodes } := ⟨_, hstarts.frame⟩
  constructor
  · intro hsame
    have hkeep := fun id rn => newNodeFP_of_same hstarts hsame.nodes id rn
    exact ⟨hsame.flowID, hsame.flowSettings, hsame.wires, hkeeps.mp hsame.inboxes, hkeep,
      (hstopped hkeep).mp hsame.nodes⟩
  · intro h
    refine ⟨h.flowID, h.flowSettings, h.wires, fun source => ?_, (hstopped h.nodes).mpr h.first,
      hkeeps.mpr h.inboxes⟩
    exact congrArg (outputTargets · source) h.wires

/-- A flow whose second node wants a queue. -/
def queuedFile : FlowFile :=
  pipeFile "" [⟨"c", "debug-log", 1, false, "", none, some { onError := "storeForward" }, ""⟩]

end DataPipe.Flow
