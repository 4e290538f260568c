import DataPipe.Flow.InboxIdentity

/-!
# Hot deploys and fresh deploys

What a running node shows of itself after any sequence of `SetResolvedEnv` and `Deploy`,
compared with the node that a new deployment would run after the last `Deploy` alone.  A node
captures the flow id and the resolved environment when it is started; neither is part of its
fingerprint, so a node that is kept goes on with the old ones.
-/

namespace DataPipe.Flow

open DataPipe.Foundation

@[ext] structure NodeView where
  typeName : String
  config : Option Json
  errorPolicy : Option ErrorPolicy
  flowID : String
  resolvedEnv : List (String × String)
  outputPorts : List String
  /-- The input ports that are read, with the configuration of the inbox. -/
  inputs : List (String × Option Bus.WireConfig)

def Deployment.viewOf (g : Deployment) (rn : RunningNode) : NodeView where
  typeName := rn.typeName
  config := rn.config
  errorPolicy := rn.errorPolicy
  flowID := rn.flowID
  resolvedEnv := rn.resolvedEnv
  outputPorts := rn.outputs.map Prod.fst
  inputs := rn.readers.map fun (port, ref) =>
    (port, g.inboxes.pool[ref]?.map Bus.Wire.cfg)

def Deployment.view (g : Deployment) (id : String) : Option NodeView :=
  (g.nodes.lookup id).map g.viewOf

def wantedView (f : FlowFile) (env : List (String × String)) (n : Node)
    (r : Registration) (inst : Instance) : NodeView where
  typeName := n.typeName
  config := n.config
  errorPolicy := n.errorPolicy
  flowID := f.id
  resolvedEnv := env
  outputPorts := inst.effectiveOutputs r.info n
  inputs := (inst.readPorts r.info).map fun port =>
    (port, some (newInbox n.overflow).cfg)

structure Hot where
  live : Live
  env : List (String × String)

inductive HotAction where
  | setResolvedEnv (env : List (String × String))
  | deploy (call : DeployCall)

def Hot.start (dataDir : String) (env : List (String × String)) : Hot :=
  ⟨.fresh dataDir env, env⟩

def Deployment.setResolvedEnv (g : Deployment) (env : List (String × String)) : Deployment :=
  { g with resolvedEnv := env }

def Hot.step (reg : Registry) (d : Digest) (s : Hot) : HotAction → Option Hot
  | .setResolvedEnv env =>
    some { s with live := { s.live with deployment := s.live.deployment.setResolvedEnv env } }
  | .deploy call =>
    match s.live.deploy reg d call with
    | some live => some ⟨live, s.live.deployment.resolvedEnv⟩
    | none => none

/--
For every node that keeps its fingerprint: its configuration is not switched
between absent and null, and the flow id and the resolved environment are those
of the previous deploy.  The inboxes of the two files can be told apart.
-/
def Covered (reg : Registry) (d : Digest) (s : Hot) : HotAction → Prop
  | .setResolvedEnv _ => True
  | .deploy call =>
    Separable reg s.live.file call.file ∧
      ∀ n ∈ call.file.graph.nodes, ∀ m ∈ s.live.file.graph.nodes,
        n.id = m.id → call.file.fingerprint d n = s.live.file.fingerprint d m →
          n.config.isNone = m.config.isNone ∧ call.file.id = s.live.file.id ∧
            s.live.deployment.resolvedEnv = s.env

instance (reg : Registry) (d : Digest) (s : Hot) (action : HotAction) :
    Decidable (Covered reg d s action) := by
  cases action with
  | setResolvedEnv env => exact instDecidableTrue
  | deploy call =>
    refine @instDecidableAnd _ _ inferInstance
      (@List.decidableBAll _ _ (fun n => @List.decidableBAll _ _ (fun m => ?_) _) _)
    exact @instDecidableForall _ _ inferInstance
      (@instDecidableForall _ _ inferInstance inferInstance)

structure Bears (f : FlowFile) (env : List (String × String)) (n : Node)
    (r : Registration) (inst : Instance) (rn : RunningNode) : Prop where
  typeName : rn.typeName = n.typeName
  config : rn.config = n.config
  errorPolicy : rn.errorPolicy = n.errorPolicy
  flowID : rn.flowID = f.id
  resolvedEnv : rn.resolvedEnv = env
  outputs : rn.outputs.map Prod.fst = inst.effectiveOutputs r.info n
  readers : rn.readers.map Prod.fst = inst.readPorts r.info

structure UpToDate (reg : Registry) (d : Digest) (s : Hot) : Prop where
  synced : Synced reg d s.live
  inboxes : InboxesOf reg d s.live.file s.live.deployment.inboxes
  bears : ∀ {id rn n}, s.live.deployment.nodes.lookup id = some rn →
    s.live.file.nodeByID id = some n →
    ∃ r inst, reg.lookup n.typeName = some r ∧ r.factory n.config = .ok inst ∧
      Bears s.live.file s.env n r inst rn

theorem upToDate_start (reg : Registry) (d : Digest) (dataDir : String)
    (env : List (String × String)) : UpToDate reg d (.start dataDir env) where
  synced := synced_fresh reg d dataDir env
  inboxes := (filed_fresh reg d dataDir env).inboxes
  bears := by
    intro id rn n h
    simp [Hot.start, Live.fresh, newDeployment] at h

variable {n : Node} {rn : RunningNode}

section Deploy

variable {reg : Registry} {d : Digest} {s : Hot} {call : DeployCall} {live : Live}
  {r : Registration} {inst : Instance}

theorem bears_started (hr : DeployResult reg d s.live call live) (hn : n ∈ call.file.graph.nodes)
    (hlookup : reg.lookup n.typeName = some r) (prior : Nat) :
    Bears call.file s.live.deployment.resolvedEnv n r inst
      ((s.live.stopped reg d call).runningNode call.ctx n r.info inst
        (call.file.fingerprint d n) prior) where
  typeName := rfl
  config := rfl
  errorPolicy := rfl
  flowID := rfl
  resolvedEnv := rfl
  outputs := by
    rw [Deployment.runningNode, List.map_map]
    exact List.map_id _
  readers := hr.readers_started hn hlookup prior

theorem bears_kept (hcovered : Covered reg d s (.deploy call)) {id : String} {m : Node}
    (h : KeptNode d s.live call id rn n m) (hinst : r.factory m.config = .ok inst)
    (hbears : Bears s.live.file s.env m r inst rn) : r.factory n.config = .ok inst ∧
      Bears call.file s.live.deployment.resolvedEnv n r inst rn := by
  obtain ⟨hn, hnid⟩ := nodeByID_eq_some h.new
  obtain ⟨hm, hmid⟩ := nodeByID_eq_some h.old
  obtain ⟨hnone, hflow, henv⟩ := hcovered.2 n hn m hm (hnid.trans hmid.symm) h.same
  have hsame := h.sameNode
  have hconfig := hsame.config_eq hnone
  refine ⟨hconfig ▸ hinst, ?_⟩
  constructor
  case typeName => exact hbears.typeName.trans hsame.typeName.symm
  case config => exact hbears.config.trans hconfig.symm
  case errorPolicy => exact hbears.errorPolicy.trans hsame.errorPolicy.symm
  case flowID => exact hbears.flowID.trans hflow.symm
  case resolvedEnv => exact hbears.resolvedEnv.trans henv.symm
  case outputs =>
    rw [hbears.outputs, Instance.effectiveOutputs, Instance.effectiveOutputs, hsame.hasErrorPort]
  case readers => exact hbears.readers

theorem upToDate_deploy (hs : UpToDate reg d s) (hcovered : Covered reg d s (.deploy call))
    (h : s.live.deploy reg d call = some live) :
    UpToDate reg d ⟨live, s.live.deployment.resolvedEnv⟩ := by
  have hr := deployResult_of_deploy h
  refine ⟨synced_step hs.synced h, ?_, ?_⟩
  · rw [hr.file, hr.inboxes]
    exact inboxesOf_reconcile hr.accepts hcovered.1 hs.synced.accepts.nodes_nodup hs.inboxes
  · intro id rn n hrn hn
    rw [hr.file] at hn ⊢
    rcases hr.starts.started hrn with hkept | ⟨_, n', r, inst, hn', hlookup, hinst, rfl⟩
    · obtain ⟨n', m, hkept⟩ := hs.synced.keptNode hkept
      have heq : n' = n := Option.mem_unique hkept.new hn
      subst heq
      obtain ⟨r, inst, hlookup, hinst, hbears⟩ := hs.bears hkept.lookup hkept.old
      obtain ⟨hinst', hbears'⟩ := bears_kept hcovered hkept hinst hbears
      exact ⟨r, inst, hkept.sameNode.typeName ▸ hlookup, hinst', hbears'⟩
    · have heq : n' = n := Option.mem_unique hn' hn
      subst heq
      exact ⟨r, inst, hlookup, hinst, bears_started hr (nodeByID_eq_some hn).1 hlookup _⟩

end Deploy

variable {reg : Registry} {d : Digest} {s : Hot} {id : String}

theorem upToDate_step {action : HotAction} {s' : Hot} (hs : UpToDate reg d s)
    (hcovered : Covered reg d s action)
    (h : s.step reg d action = some s') : UpToDate reg d s' := by
  cases action with
  | setResolvedEnv env =>
    cases h
    have hsynced := hs.synced
    exact ⟨⟨hsynced.accepts, hsynced.wires, hsynced.stamps, hsynced.running,
      hsynced.nodes, hsynced.reads⟩, ⟨hs.inboxes.stamps, hs.inboxes.created⟩, hs.bears⟩
  | deploy call =>
    simp only [Hot.step] at h
    split at h
    case h_1 live hlive =>
      cases h
      exact upToDate_deploy hs hcovered hlive
    case h_2 => contradiction

theorem UpToDate.inputs (hs : UpToDate reg d s) (hrn : s.live.deployment.nodes.lookup id = some rn)
    (hn : s.live.file.nodeByID id = some n) : (s.live.deployment.viewOf rn).inputs =
      (rn.readers.map Prod.fst).map fun port => (port, some (newInbox n.overflow).cfg) := by
  rw [List.map_map]
  apply List.map_congr_left
  rintro ⟨port, ref⟩ hmem
  have href := hs.synced.reads hrn port ref hmem
  obtain ⟨n', w, hn', hw, hcfg⟩ := hs.inboxes.created href
  have heq : n' = n := Option.mem_unique hn' hn
  subst heq
  simp [hw, hcfg]

theorem UpToDate.view (hs : UpToDate reg d s) (hn : s.live.file.nodeByID id = some n) :
    ∃ r inst, reg.lookup n.typeName = some r ∧ r.factory n.config = .ok inst ∧
      s.live.deployment.view id = some (wantedView s.live.file s.env n r inst) := by
  obtain ⟨hmem, hid⟩ := nodeByID_eq_some hn
  have hrunning := hs.synced.running n hmem
  rw [hid, ← AList.lookup_isSome, Option.isSome_iff_exists] at hrunning
  obtain ⟨rn, hrn⟩ := hrunning
  obtain ⟨r, inst, hlookup, hinst, hbears⟩ := hs.bears hrn hn
  refine ⟨r, inst, hlookup, hinst, ?_⟩
  rw [Deployment.view, hrn, Option.map_some, Option.some.injEq]
  ext1
  case typeName => exact hbears.typeName
  case config => exact hbears.config
  case errorPolicy => exact hbears.errorPolicy
  case flowID => exact hbears.flowID
  case resolvedEnv => exact hbears.resolvedEnv
  case outputPorts => exact hbears.outputs
  case inputs =>
    rw [hs.inputs hrn hn, hbears.readers]
    rfl

theorem UpToDate.view_none (hs : UpToDate reg d s) (hn : s.live.file.nodeByID id = none) :
    s.live.deployment.view id = none := by
  rw [Deployment.view]
  cases hrn : s.live.deployment.nodes.lookup id with
  | none => rfl
  | some rn =>
    obtain ⟨n, hsome, _⟩ := hs.synced.nodes hrn
    rw [hn] at hsome
    contradiction

theorem UpToDate.view_eq {t : Hot} (hs : UpToDate reg d s) (ht : UpToDate reg d t)
    (hfile : s.live.file = t.live.file) (henv : s.env = t.env) (id : String) :
    s.live.deployment.view id = t.live.deployment.view id := by
  cases hn : s.live.file.nodeByID id with
  | none => rw [hs.view_none hn, ht.view_none (hfile ▸ hn)]
  | some n =>
    obtain ⟨r, inst, hr, hinst, hview⟩ := hs.view hn
    obtain ⟨r', inst', hr', hinst', hview'⟩ := ht.view (hfile ▸ hn)
    rw [hr, Option.some.injEq] at hr'
    subst hr'
    rw [hinst, Except.ok.injEq] at hinst'
    subst hinst'
    rw [hview, hview', hfile, henv]

/--
After any covered sequence of `SetResolvedEnv` and `Deploy` calls that ends in
a `Deploy`, every id shows what it shows in a new deployment with the same
environment after that `Deploy` alone.
-/
theorem hotDeploy_eq_freshDeploy (reg : Registry) (d : Digest) (dataDir : String)
    (actions : List HotAction) (call : DeployCall) (s s' : Hot)
    (hmeets : Meets (Hot.step reg d) (Covered reg d) (.start dataDir []) actions)
    (hrun : run (Hot.step reg d) (.start dataDir []) actions = some s)
    (hcovered : Covered reg d s (.deploy call)) (hlast : s.step reg d (.deploy call) = some s')
    (once : DeployCall) (honce : once.file = call.file) (fresh : Live)
    (hfresh : (Live.fresh dataDir s.live.deployment.resolvedEnv).deploy reg d once = some fresh)
    (id : String) : s'.live.deployment.view id = fresh.deployment.view id := by
  have hs := run_invariant_of_meets upToDate_step (upToDate_start reg d dataDir []) hmeets hrun
  have hs' := upToDate_step hs hcovered hlast
  -- the single deploy is covered because no node is kept
  have hnew : Covered reg d (.start dataDir s.live.deployment.resolvedEnv) (.deploy once) := by
    constructor <;> simp [Hot.start, Live.fresh, Live.start, Separable]
  have ht := upToDate_deploy (upToDate_start reg d dataDir s.live.deployment.resolvedEnv)
    hnew hfresh
  simp only [Hot.step] at hlast
  split at hlast
  case h_1 live hlive =>
    cases hlast
    refine hs'.view_eq ht ?_ rfl id
    rw [(deployResult_of_deploy hlive).file, (deployResult_of_deploy hfresh).file, honce]
  case h_2 => contradiction

def pipeAndSource : FlowFile :=
  pipeFile "" [⟨"c", "inject", 1, false, "", none, none, ""⟩]

theorem hotDeploy_eq_freshDeploy_addSource :
    ∃ s s' : Hot, ∃ fresh : Live,
      s.step smallRegistry plainDigest (.deploy (deployOf 0 pipeAndSource)) = some s' ∧
      (Live.fresh "" s.live.deployment.resolvedEnv).deploy smallRegistry plainDigest
        (deployOf 1 pipeAndSource) = some fresh ∧
      s'.live.deployment.view "a" ≠ none ∧
      s'.live.deployment.view "a" = fresh.deployment.view "a" := by
  obtain ⟨s, hrun, hcovered, ⟨fresh, hfresh, -⟩, s', hlast, hshown⟩ :
      ∃ s, run (Hot.step smallRegistry plainDigest) (.start "" [])
          [.setResolvedEnv [("HOST", "plant")], .deploy (deployOf 0 (pipeFile "" []))] = some s ∧
        Covered smallRegistry plainDigest s (.deploy (deployOf 0 pipeAndSource)) ∧
        (∃ fresh, (Live.fresh "" s.live.deployment.resolvedEnv).deploy smallRegistry plainDigest
          (deployOf 1 pipeAndSource) = some fresh ∧ True) ∧
        ∃ s', s.step smallRegistry plainDigest (.deploy (deployOf 0 pipeAndSource)) = some s' ∧
          (s'.live.deployment.view "a").isSome := by
    rw [plainDigest_eq]
    decide +kernel
  refine ⟨s, s', fresh, hlast, hfresh, Option.isSome_iff_ne_none.mp hshown, ?_⟩
  exact hotDeploy_eq_freshDeploy smallRegistry plainDigest "" _ _ s s'
    (by rw [plainDigest_eq]; decide +kernel) hrun hcovered hlast (deployOf 1 pipeAndSource) rfl
    fresh hfresh "a"

def profileChange : List HotAction :=
  [.deploy (deployOf 0 (pipeFile "" [])), .setResolvedEnv [("HOST", "plant")]]

/-- `a` is kept, so it goes on without the environment that a fresh start would have. -/
theorem profileChange_keeps_environment :
    ∃ s s' fresh,
      run (Hot.step smallRegistry plainDigest) (.start "" []) profileChange = some s ∧
      s.step smallRegistry plainDigest (.deploy (deployOf 0 (pipeFile "" []))) = some s' ∧
      (Live.fresh "" s.live.deployment.resolvedEnv).deploy smallRegistry plainDigest
        (deployOf 0 (pipeFile "" [])) = some fresh ∧
      s'.live.deployment.view "a" ≠ fresh.deployment.view "a" := by
  obtain ⟨s, hrun, ⟨fresh, hfresh, hfreshEnv⟩, s', hlast, hkeptEnv⟩ :
      ∃ s, run (Hot.step smallRegistry plainDigest) (.start "" []) profileChange = some s ∧
        (∃ fresh, (Live.fresh "" s.live.deployment.resolvedEnv).deploy smallRegistry plainDigest
            (deployOf 0 (pipeFile "" [])) = some fresh ∧
          (fresh.deployment.view "a").map NodeView.resolvedEnv = some [("HOST", "plant")]) ∧
        ∃ s', s.step smallRegistry plainDigest (.deploy (deployOf 0 (pipeFile "" []))) =
            some s' ∧ (s'.live.deployment.view "a").map NodeView.resolvedEnv = some [] := by
    rw [plainDigest_eq]
    decide +kernel
  refine ⟨s, s', fresh, hrun, hlast, hfresh, ?_⟩
  intro hsame
  rw [← hsame, hkeptEnv] at hfreshEnv
  simp at hfreshEnv

end DataPipe.Flow
