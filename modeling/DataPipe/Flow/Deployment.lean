import DataPipe.Bus.Wire
import DataPipe.Flow.Datagram
import DataPipe.Flow.Fingerprint
import DataPipe.Foundation.ResourceTable

/-!
# Deployments

`Deploy` of `engine/flow/graph.go`: the inboxes are reconciled with their new fingerprints, the
nodes whose fingerprint changed are stopped, and every node that is not running is started
against the inboxes of that moment.  The wires ever allocated are the pool of the inbox table,
so a reference to a wire stays valid when the wire is replaced; a running node holds the
references it was started with.
-/

namespace DataPipe.Flow

open DataPipe.Foundation

/-- `DefaultWireCapacity` -/
def defaultWireCapacity : Int := 1024

def maxInt : Int := 2 ^ 63 - 1

/-- `strconv.Atoi`, which refuses what does not fit an `int`. -/
def atoi (text : List Char) : Option Int :=
  (signedDecimalValue text).filter fun n => -maxInt - 1 ≤ n ∧ n ≤ maxInt

def parseOverflow (spec : String) : Bus.OverflowPolicy × Int :=
  match "sample:".toList.isPrefixOf? spec.toList with
  | some rest =>
    match atoi rest with
    | some n => (.sample, if n < 1 then 1 else n)
    | none => (.sample, 1)
  | none =>
    if spec = "dropOldest" then (.dropOldest, 0)
    else if spec = "dropNewest" then (.dropNewest, 0)
    else (.block, 0)

def newInbox (overflow : String) : Bus.Wire Datagram :=
  let policy := parseOverflow overflow
  .newWire ⟨defaultWireCapacity, policy.1, policy.2⟩

def IsOpen (w : Bus.Wire Datagram) : Prop := w.closed = false

abbrev Inboxes := ResourceTable Endpoint String (Bus.Wire Datagram) IsOpen

/--
A started node: the context it was started under, what the deployment records
of it, and what its runner captured.  `typeName` and `config` are what its
instance was made from, `outputs` are the fan-outs per port and `readers` the
inboxes its receive loops read.
-/
structure RunningNode where
  ctx : Nat
  typeName : String
  config : Option Json
  fingerprint : String
  startCount : Nat
  flowID : String
  errorPolicy : Option ErrorPolicy
  connection : String
  resolvedEnv : List (String × String)
  outputs : List (String × List Nat)
  readers : List (String × Nat)
  deriving DecidableEq, Inhabited

structure Deployment where
  nodes : AList fun _ : String => RunningNode
  inboxes : Inboxes
  wires : List Wire
  flowID : String
  flowSettings : Settings
  defaultErrorFlow : String
  resolvedEnv : List (String × String)
  dataDir : String

def newDeployment : Deployment where
  nodes := ∅
  inboxes := .empty []
  wires := []
  flowID := ""
  flowSettings := {}
  defaultErrorFlow := ""
  resolvedEnv := []
  dataDir := ""

def outputTargets (wires : List Wire) (source : Endpoint) : List Endpoint :=
  (wires.filter (·.fromEnd = source)).map Wire.toEnd

def Deployment.inboxesForOutput (g : Deployment) (source : Endpoint) : List Nat :=
  (outputTargets g.wires source).filterMap fun key => g.inboxes.ref.lookup key

def freshInbox (f : FlowFile) (key : Endpoint) : { w : Bus.Wire Datagram // IsOpen w } :=
  ⟨newInbox (((f.nodeByID key.node).map Node.overflow).getD ""), rfl⟩

def reconcileInboxes (reg : Registry) (d : Digest) (f : FlowFile) (inboxes : Inboxes) : Inboxes :=
  inboxes.reconcile Bus.Wire.close (freshInbox f) (computeInboxFingerprints reg d f)

inductive StartError where
  | unknownType
  | configuring (complaint : String)
  | openingQueue
  | notSource
  | noInputs
  | notProcessor
  deriving DecidableEq, Repr

def Instance.readPorts (inst : Instance) (info : NodeTypeInfo) : List String :=
  match info.kind with
  | .source => []
  | .processor => if inst.isMultiInput then info.inputs else info.inputs.take 1

def Instance.kindError (inst : Instance) (info : NodeTypeInfo) : Option StartError :=
  match info.kind with
  | .source => if inst.isSource then none else some .notSource
  | .processor =>
    if info.inputs = [] then some .noInputs
    else if inst.isMultiInput ∨ inst.isProcessor then none
    else some .notProcessor

def Node.wantsQueue (n : Node) : Bool :=
  match n.errorPolicy with
  | some policy => policy.onError = "storeForward"
  | none => false

def Deployment.runningNode (g : Deployment) (ctx : Nat) (n : Node) (info : NodeTypeInfo)
    (inst : Instance) (fingerprint : String) (prior : Nat) : RunningNode where
  ctx := ctx
  typeName := n.typeName
  config := n.config
  fingerprint := fingerprint
  startCount := prior + 1
  flowID := g.flowID
  errorPolicy := n.errorPolicy
  connection := n.connection
  resolvedEnv := g.resolvedEnv
  outputs := (inst.effectiveOutputs info n).map fun port =>
    (port, g.inboxesForOutput ⟨n.id, port⟩)
  readers := (inst.readPorts info).filterMap fun port =>
    (g.inboxes.ref.lookup ⟨n.id, port⟩).map fun ref => (port, ref)

def Deployment.startNode (g : Deployment) (reg : Registry) (ctx : Nat) (queueOpens : String → Bool)
    (n : Node) (fingerprint : String) (prior : Nat) : Except StartError Deployment :=
  match reg.lookup n.typeName with
  | none => .error .unknownType
  | some r =>
    match r.factory n.config with
    | .error complaint => .error (.configuring complaint)
    | .ok inst =>
      if n.wantsQueue ∧ g.dataDir ≠ "" ∧ ¬ queueOpens n.id then
        .error .openingQueue
      else
        match inst.kindError r.info with
        | some err => .error err
        | none =>
          .ok { g with
            nodes := g.nodes.insert n.id
              (g.runningNode ctx n r.info inst fingerprint prior) }

/-- The entry of `newNodeFP`; the empty string for an id that is not in the file. -/
def FlowFile.newNodeFP (f : FlowFile) (d : Digest) (id : String) : String :=
  ((f.nodeByID id).map (f.fingerprint d)).getD ""

def Deployment.stopNodes (g : Deployment) (d : Digest) (f : FlowFile) : Deployment :=
  { g with
    nodes := retain (fun id rn => f.newNodeFP d id = rn.fingerprint) g.nodes }

/-- The entry of `priorStartCount`; zero for a node that was not stopped. -/
def Deployment.priorStartCount (g : Deployment) (id : String) : Nat :=
  ((g.nodes.lookup id).map RunningNode.startCount).getD 0

/--
One call of `Deploy`.  `order` is the order in which the runtime iterates over
the node map, and `queueOpens` tells for which nodes the store-and-forward
queue can be opened.
-/
structure DeployCall where
  ctx : Nat
  file : FlowFile
  order : List String
  queueOpens : String → Bool
  order_perm : order.Perm (file.graph.nodes.map Node.id)

inductive DeployError where
  | invalid (problems : List Problem)
  | starting (id : String) (err : StartError)
  deriving DecidableEq, Repr

def startAll (reg : Registry) (d : Digest) (call : DeployCall) (prior : String → Nat) :
    List String → Deployment → Deployment × Option DeployError
  | [], g => (g, none)
  | id :: ids, g =>
    if id ∈ g.nodes then startAll reg d call prior ids g
    else
      match call.file.nodeByID id with
      | none => startAll reg d call prior ids g
      | some n =>
        match g.startNode reg call.ctx call.queueOpens n
            (call.file.fingerprint d n) (prior id) with
        | .error err => (g, some (.starting id err))
        | .ok g => startAll reg d call prior ids g

/-- `Deploy` up to and including the new inboxes. -/
def Deployment.reconciled (g : Deployment) (reg : Registry) (d : Digest)
    (f : FlowFile) : Deployment :=
  { g with
    flowID := f.id
    wires := f.graph.wires
    flowSettings := f.settings
    inboxes := reconcileInboxes reg d f g.inboxes }

def Deployment.deploy (g : Deployment) (reg : Registry) (d : Digest)
    (call : DeployCall) : Deployment × Option DeployError :=
  let problems := reg.validate call.file
  if problems ≠ [] then (g, some (.invalid problems))
  else
    startAll reg d call g.priorStartCount call.order
      ((g.reconciled reg d call.file).stopNodes d call.file)

variable {reg : Registry} {d : Digest} {call : DeployCall} {g g' : Deployment} {n : Node}

theorem startNode_eq_ok {ctx : Nat} {queueOpens : String → Bool} {fingerprint : String}
    {prior : Nat} (h : g.startNode reg ctx queueOpens n fingerprint prior = .ok g') :
    ∃ r inst, reg.lookup n.typeName = some r ∧ r.factory n.config = .ok inst ∧
      g' = { g with
        nodes := g.nodes.insert n.id
          (g.runningNode ctx n r.info inst fingerprint prior) } := by
  revert h
  fun_cases g.startNode reg ctx queueOpens n fingerprint prior <;> rintro ⟨⟩
  next r hlookup inst hinst _ _ => exact ⟨r, inst, hlookup, hinst, rfl⟩

/--
What the loop over the nodes does to the deployment it starts from, whether it
ends early or not: the running nodes stay, and each further one is a node of
the file, started against the inboxes of the deployment.
-/
structure Starts (reg : Registry) (d : Digest) (call : DeployCall)
    (prior : String → Nat) (g g' : Deployment) : Prop where
  frame : g' = { g with nodes := g'.nodes }
  kept : ∀ {id rn}, g.nodes.lookup id = some rn → g'.nodes.lookup id = some rn
  started : ∀ {id rn}, g'.nodes.lookup id = some rn →
    g.nodes.lookup id = some rn ∨
      g.nodes.lookup id = none ∧
        ∃ n r inst, call.file.nodeByID id = some n ∧
          reg.lookup n.typeName = some r ∧ r.factory n.config = .ok inst ∧
          rn = g.runningNode call.ctx n r.info inst (call.file.fingerprint d n)
            (prior id)

variable {prior : String → Nat}

theorem Starts.refl (g : Deployment) : Starts reg d call prior g g :=
  ⟨rfl, id, .inl⟩

variable {id : String}

theorem Starts.mem_nodes (h : Starts reg d call prior g g') (hmem : id ∈ g.nodes) :
    id ∈ g'.nodes := by
  rw [← AList.lookup_isSome, Option.isSome_iff_exists] at hmem ⊢
  obtain ⟨rn, hrn⟩ := hmem
  exact ⟨rn, h.kept hrn⟩

theorem Starts.trans {g₁ g₂ g₃ : Deployment} (h₁ : Starts reg d call prior g₁ g₂)
    (h₂ : Starts reg d call prior g₂ g₃) : Starts reg d call prior g₁ g₃ where
  frame := by rw [h₂.frame, h₁.frame]
  kept := fun h => h₂.kept (h₁.kept h)
  started := by
    intro id rn h
    rcases h₂.started h with h | ⟨hnone, n, r, inst, hn, hr, hinst, hrn⟩
    · exact h₁.started h
    · right
      refine ⟨?_, n, r, inst, hn, hr, hinst, ?_⟩
      · cases hold : g₁.nodes.lookup id with
        | none => rfl
        | some old =>
          rw [h₁.kept hold] at hnone
          contradiction
      · rw [hrn, h₁.frame]
        rfl

theorem starts_startNode (hfresh : id ∉ g.nodes) (hn : call.file.nodeByID id = some n)
    (h : g.startNode reg call.ctx call.queueOpens n (call.file.fingerprint d n) (prior id) =
      .ok g') : Starts reg d call prior g g' ∧ id ∈ g'.nodes := by
  obtain ⟨r, inst, hr, hinst, rfl⟩ := startNode_eq_ok h
  have hid := (nodeByID_eq_some hn).2
  rw [hid]
  refine ⟨⟨rfl, ?_, ?_⟩, AList.mem_insert _ |>.mpr (.inl rfl)⟩
  · intro other rn hold
    have hne : other ≠ id := by
      rintro rfl
      apply hfresh
      rw [← AList.lookup_isSome, hold]
      rfl
    exact (AList.lookup_insert_ne hne).trans hold
  · intro other rn hnew
    rcases lookup_insert_eq_some hnew with ⟨rfl, rfl⟩ | hold
    · exact .inr ⟨AList.lookup_eq_none.mpr hfresh, n, r, inst, hn, hr, hinst, rfl⟩
    · exact .inl hold

theorem starts_startAll (reg : Registry) (d : Digest) (call : DeployCall)
    (prior : String → Nat) (ids : List String) (g : Deployment) :
    Starts reg d call prior g (startAll reg d call prior ids g).1 := by
  fun_induction startAll reg d call prior ids g
  next => exact .refl _
  next ih => exact ih
  next ih => exact ih
  next => exact .refl _
  next hfresh _ hn _ hstart ih => exact (starts_startNode hfresh hn hstart).1.trans ih

theorem mem_nodes_startAll {ids : List String} (hok : (startAll reg d call prior ids g).2 = none)
    (hid : id ∈ ids) (hnode : (call.file.nodeByID id).isSome) :
    id ∈ (startAll reg d call prior ids g).1.nodes := by
  fun_induction startAll reg d call prior ids g
  next => contradiction
  next ids _ hmem ih =>
    rcases List.mem_cons.mp hid with rfl | hid
    · exact (starts_startAll reg d call prior ids _).mem_nodes hmem
    · exact ih hok hid
  next hnone ih =>
    rcases List.mem_cons.mp hid with rfl | hid
    · simp [hnone] at hnode
    · exact ih hok hid
  next => contradiction
  next ids head hfresh n hn next hstart ih =>
    rcases List.mem_cons.mp hid with rfl | hid
    · exact (starts_startAll reg d call prior ids next).mem_nodes
        (starts_startNode hfresh hn hstart).2
    · exact ih hok hid

theorem deploy_of_valid (h : reg.validate call.file = []) :
    g.deploy reg d call =
      startAll reg d call g.priorStartCount call.order
        ((g.reconciled reg d call.file).stopNodes d call.file) := by
  simp [Deployment.deploy, h]

theorem validate_of_deploy (h : g.deploy reg d call = (g', none)) :
    reg.validate call.file = [] := by
  by_contra hproblems
  simp [Deployment.deploy, hproblems] at h

end DataPipe.Flow
