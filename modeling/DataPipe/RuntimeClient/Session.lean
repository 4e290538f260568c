import DataPipe.Flow.HotDeploy

/-!
# Runtime sessions

`Run` of `engine/internal/runtimeclient/client.go` with `applyDeploy` of the runtime's main
program.  Each registration opens a session with a context of its own, under which its deploy
stream hands commands to the deployment; a failed heartbeat cancels that context and the loop
registers again.  The nodes a command starts live under the context of its session.
-/

namespace DataPipe.RuntimeClient

open DataPipe.Foundation DataPipe.Flow

/-- A deploy command; `flow` is what parsing its flow text gives. -/
structure DeployCommand where
  flowID : String
  flow : Option FlowFile
  defaultErrorFlow : String
  resolvedEnv : List (String × String)

structure Environment where
  order : FlowFile → List String
  queueOpens : String → Bool
  order_perm : ∀ f, (order f).Perm (f.graph.nodes.map Node.id)

def Environment.call (env : Environment) (ctx : Nat) (f : FlowFile) : DeployCall where
  ctx := ctx
  file := f
  order := env.order f
  queueOpens := env.queueOpens
  order_perm := env.order_perm f

/-- `applyDeploy`: the deployment after the command and the file it deployed. -/
def applyDeploy (reg : Registry) (d : Digest) (env : Environment) (g : Deployment)
    (ctx : Nat) (cmd : DeployCommand) : Deployment × Option FlowFile :=
  match cmd.flow with
  | none => (g, none)
  | some flow =>
    let file := { flow with id := cmd.flowID }
    let g :=
      { g with
        defaultErrorFlow := cmd.defaultErrorFlow
        resolvedEnv := cmd.resolvedEnv }
    match g.deploy reg d (env.call ctx file) with
    | (g, none) => (g, some file)
    | (g, some _) => (g, none)

/--
The client: how many sessions were opened, whether the last one is alive, the
cancelled ones, the commands its stream loops have received and not yet
applied, the deployment and the last file that was deployed.
-/
structure Client where
  sessions : Nat
  registered : Bool
  cancelled : List Nat
  received : List (Nat × DeployCommand)
  deployment : Deployment
  deployed : Option FlowFile

def Client.start : Client where
  sessions := 0
  registered := false
  cancelled := []
  received := []
  deployment := newDeployment
  deployed := none

inductive ClientAction where
  | register
  | registerFails
  | heartbeatFails
  | receive (session : Nat) (cmd : DeployCommand)
  | apply (session : Nat) (env : Environment)

def Client.busy (c : Client) (session : Nat) : Bool :=
  c.received.any (·.1 = session)

def Client.step (reg : Registry) (d : Digest) (c : Client) :
    ClientAction → Option Client
  | .register =>
    if c.registered then none
    else some { c with sessions := c.sessions + 1, registered := true }
  | .registerFails => if c.registered then none else some c
  | .heartbeatFails =>
    if c.registered then
      some { c with registered := false, cancelled := (c.sessions - 1) :: c.cancelled }
    else none
  | .receive session cmd =>
    if session < c.sessions ∧ session ∉ c.cancelled ∧ ¬ c.busy session then
      some { c with received := (session, cmd) :: c.received }
    else none
  | .apply session env =>
    -- a command that was received before the cancellation is still applied
    match c.received.find? (·.1 = session) with
    | none => none
    | some (_, cmd) =>
      let result := applyDeploy reg d env c.deployment session cmd
      some { c with
        received := c.received.filter (·.1 ≠ session)
        deployment := result.1
        deployed := result.2.orElse fun _ => c.deployed }

def Autonomous (c : Client) : Prop :=
  ∀ f, c.deployed = some f → ∀ n ∈ f.graph.nodes, ∀ rn,
    c.deployment.nodes.lookup n.id = some rn → rn.ctx ∉ c.cancelled

/--
A heartbeat fails only in a session under which no running node was started,
and a command of a cancelled session is applied only if it starts no node.
-/
def SparesNodes (reg : Registry) (d : Digest) (c : Client) : ClientAction → Prop
  | .heartbeatFails =>
    ∀ id ∈ c.deployment.nodes.keys,
      (c.deployment.nodes.lookup id).map RunningNode.ctx ≠ some (c.sessions - 1)
  | .apply session env =>
    session ∈ c.cancelled → ∀ entry ∈ c.received, entry.1 = session →
      ∀ id ∈ (applyDeploy reg d env c.deployment session entry.2).1.nodes.keys,
        (applyDeploy reg d env c.deployment session entry.2).1.nodes.lookup id =
          c.deployment.nodes.lookup id
  | _ => True

instance (reg : Registry) (d : Digest) (c : Client) (action : ClientAction) :
    Decidable (SparesNodes reg d c action) := by
  cases action <;> unfold SparesNodes <;> infer_instance

def AllAlive (c : Client) : Prop :=
  ∀ id rn, c.deployment.nodes.lookup id = some rn → rn.ctx ∉ c.cancelled

variable {reg : Registry} {d : Digest} {rn : RunningNode} {g : Deployment} {id : String}

theorem ctx_of_deploy {call : DeployCall} (h : (g.deploy reg d call).1.nodes.lookup id = some rn) :
    g.nodes.lookup id = some rn ∨ rn.ctx = call.ctx := by
  by_cases hvalid : reg.validate call.file = []
  · rw [deploy_of_valid hvalid] at h
    rcases (starts_startAll reg d call _ _ _).started h with hold |
      ⟨_, n, r, inst, _, _, _, rfl⟩
    · exact .inl (lookup_retain.mp hold).1
    · exact .inr rfl
  · left
    simpa [Deployment.deploy, hvalid] using h

theorem ctx_of_applyDeploy {env : Environment} {ctx : Nat} {cmd : DeployCommand}
    (h : (applyDeploy reg d env g ctx cmd).1.nodes.lookup id = some rn) :
    g.nodes.lookup id = some rn ∨ rn.ctx = ctx := by
  revert h
  fun_cases applyDeploy reg d env g ctx cmd
  case case1 => exact .inl
  all_goals
    rename_i hdeploy
    have hresult := congrArg Prod.fst hdeploy
    exact fun h => ctx_of_deploy (hresult ▸ h)

theorem allAlive_step {c : Client} {action : ClientAction} {c' : Client} (h : AllAlive c)
    (hspares : SparesNodes reg d c action) (hstep : c.step reg d action = some c') :
    AllAlive c' := by
  revert hstep
  fun_cases c.step reg d action <;> rintro ⟨⟩
  any_goals exact h
  next =>
    intro id rn hrn hmem
    rcases List.mem_cons.mp hmem with hctx | hmem
    · apply hspares id
      · rw [← AList.mem_keys, ← AList.lookup_isSome, hrn]
        rfl
      · rw [hrn, Option.map_some, hctx]
    · exact h id rn hrn hmem
  next key cmd hfind _ =>
    intro id rn hrn hmem
    rcases ctx_of_applyDeploy hrn with hold | hctx
    · exact h id rn hold hmem
    · subst hctx
      have hkey := List.find?_some hfind
      have hsame := hspares hmem (key, cmd) (List.mem_of_find?_eq_some hfind)
        (of_decide_eq_true hkey) id (by
          rw [← AList.mem_keys, ← AList.lookup_isSome, hrn]
          rfl)
      exact h id rn (hsame.symm.trans hrn) hmem

theorem autonomous_of_sparing (reg : Registry) (d : Digest) (actions : List ClientAction)
    (c : Client) (hmeets : Meets (Client.step reg d) (SparesNodes reg d) .start actions)
    (hrun : run (Client.step reg d) .start actions = some c) : Autonomous c := by
  have hstart : AllAlive .start := by
    intro id rn h
    simp [Client.start, newDeployment] at h
  have halive := run_invariant_of_meets allAlive_step hstart hmeets hrun
  intro f _ n _ rn hrn
  exact halive n.id rn hrn

def fileOrder : Environment where
  order f := (deployOf 0 f).order
  queueOpens _ := true
  order_perm f := (deployOf 0 f).order_perm

def pushPipe : DeployCommand where
  flowID := "pipe"
  flow := some (pipeFile "" [])
  defaultErrorFlow := ""
  resolvedEnv := []

def lostBeforeDeploy : List ClientAction :=
  [.register, .heartbeatFails, .register, .receive 1 pushPipe, .apply 1 fileOrder]

theorem autonomous_of_sparing_lostBeforeDeploy :
    ∃ c, run (Client.step smallRegistry plainDigest) .start lostBeforeDeploy = some c ∧
      Autonomous c := by
  obtain ⟨c, hc⟩ := Option.isSome_iff_exists.mp (by rw [plainDigest_eq]; decide +kernel :
    (run (Client.step smallRegistry plainDigest) .start lostBeforeDeploy).isSome)
  exact ⟨c, hc, autonomous_of_sparing _ _ _ c (by decide +kernel) hc⟩

def lostAfterDeploy : List ClientAction :=
  [.register, .receive 0 pushPipe, .apply 0 fileOrder, .heartbeatFails, .register,
    .receive 1 pushPipe, .apply 1 fileOrder]

/-- The second push keeps `a`, whose context died with the first session. -/
theorem lostAfterDeploy_leaves_cancelled_node :
    ∃ c, run (Client.step smallRegistry plainDigest) .start lostAfterDeploy = some c ∧
      ¬ Autonomous c := by
  refine exists_some_imp (fun c =>
    (∃ f, c.deployed = some f ∧ ∃ n ∈ f.graph.nodes, n.id = "a") ∧
    (∃ rn, c.deployment.nodes.lookup "a" = some rn ∧ rn.ctx = 0) ∧ 0 ∈ c.cancelled)
    (by rw [plainDigest_eq]; decide +kernel) ?_
  rintro c - ⟨⟨f, hf, n, hn, hid⟩, ⟨rn, hrn, hctx⟩, hcancelled⟩ hauto
  exact hauto f hf n hn rn (hid ▸ hrn) (hctx ▸ hcancelled)

end DataPipe.RuntimeClient
