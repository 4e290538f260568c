import DataPipe.Flow.HotDeploy
import DataPipe.StoreForward.Tenancy

/-!
# Owners of the store-and-forward directories

A node with the policy `storeForward` opens a queue over a directory named after the flow and
the node.  `Deploy` stops and starts nodes under its lock, and waits for a stopped node only up
to a timeout.  `Deploy` is taken apart into the steps between which the goroutines of the nodes
run, and every queue that was ever opened is kept with the goroutines that use it.
-/

set_option linter.dupNamespace false

namespace DataPipe.Flow

open DataPipe.Foundation DataPipe.StoreForward

deriving instance DecidableEq for Dir

/-! ## Directories -/

def pathParts (text : String) : List Name := text.toList.splitOn '/'

/-- `filepath.Join(g.dataDir, "storeforward", g.flowID, n.ID)` -/
def queueDir (dataDir flowID nodeID : String) : Dir :=
  let rooted : Bool := dataDir.toList.head? = some '/'
  ⟨rooted, (clean rooted [] (pathParts dataDir ++ pathParts "storeforward" ++
    pathParts flowID ++ pathParts nodeID)).reverse⟩

def plainID (id : String) : Bool :=
  !([[], ['.'], ['.', '.']].contains id.toList) && !id.toList.contains '/'

theorem clean_append (rooted : Bool) (parts more stack : List Name) :
    clean rooted stack (parts ++ more) = clean rooted (clean rooted stack parts) more := by
  induction parts generalizing stack with
  | nil => rw [List.nil_append, clean.eq_def rooted stack []]
  | cons part parts ih =>
    rw [List.cons_append, clean.eq_def, clean.eq_def rooted stack (part :: parts)]
    dsimp only
    split
    · exact ih stack
    · split
      · split
        · exact ih _
        · split
          · exact ih _
          · exact ih _
      · exact ih _

theorem getLast_queueDir (dataDir flowID : String) {nodeID : String} (h : plainID nodeID = true) :
    (queueDir dataDir flowID nodeID).parts.getLast? = some nodeID.toList := by
  simp only [plainID, Bool.and_eq_true, Bool.not_eq_true', ← Bool.not_eq_true,
    List.contains_iff_mem, List.mem_cons, List.not_mem_nil, or_false, not_or] at h
  obtain ⟨⟨hempty, hdot, hdots⟩, hslash⟩ := h
  rw [queueDir, pathParts, pathParts, pathParts, pathParts, splitOn_slash hslash]
  rw [clean_append, clean_singleton _ _ (by simp [hempty, hdot]) hdots]
  simp

example : queueDir "/data" "f" "./a" = queueDir "/data" "f" "a" := by decide

/-! ## The deployment with its queues -/

structure QueueOwner where
  node : String
  dir : Dir
  loops : Nat
  drain : DrainState

def QueueOwner.live (o : QueueOwner) : Bool := o.loops ≠ 0 ∨ o.drain.pc ≠ .stopped

/-- What a call of `Deploy` does next; it holds the lock unless it is idle. -/
inductive DeployPhase where
  | idle
  | stopping (call : DeployCall) (prior : String → Nat)
  | starting (call : DeployCall) (prior : String → Nat) (ids : List String)

structure Host where
  deployment : Deployment
  phase : DeployPhase
  owners : List QueueOwner
  directories : Dir → Directory

/--
`deploy` begins a call: it cancels the nodes it stops.  `stopped` is the end of
`stopWg.Wait`, by the exit of the nodes or by their timeouts, and `start` one
turn of the loop that starts nodes.  The others are steps of the goroutines of
one queue; `cancel` is the end of the context that was given to `Deploy`.
-/
inductive HostAction where
  | deploy (call : DeployCall)
  | stopped
  | start
  | enqueue (index : Nat) (payload : List UInt8) (enqueuedAt : Int) (fault : Fault)
  | exit (index : Nat)
  | drain (index : Nat) (answer : Bool)
  | cancel (index : Nat)

def QueueOwner.cancelled (o : QueueOwner) : QueueOwner :=
  { o with drain := { o.drain with ctxDone := true } }

/-- The bounds of the queue in bytes and nanoseconds, with the wrap-around of `int64`. -/
def StoreForwardPolicy.bounds (policy : Option StoreForwardPolicy) : Int × Int :=
  match policy with
  | none => (0, 0)
  | some sf =>
    ((Int64.ofInt (sf.maxSizeMb * 1024 * 1024)).toInt,
      (Int64.ofInt (sf.maxAgeSec * 1000000000)).toInt)

namespace Host

def start (dataDir : String) (env : List (String × String)) (disks : Dir → Disk) : Host where
  deployment := (Live.fresh dataDir env).deployment
  phase := .idle
  owners := []
  directories := fun dir => ⟨disks dir, fun _ => 0, []⟩

def openedBy (reg : Registry) (h : Host) (n : Node) (rn : RunningNode) : Option QueueOwner :=
  if n.wantsQueue ∧ h.deployment.dataDir ≠ "" ∧
      (reg.lookup n.typeName).any (fun r => r.info.kind = .processor) then
    let dir := queueDir h.deployment.dataDir h.deployment.flowID n.id
    let disk := (h.directories dir).disk
    let bounds := StoreForwardPolicy.bounds (n.errorPolicy.bind ErrorPolicy.storeForward)
    some ⟨n.id, dir, rn.readers.length, .start (openQueue disk bounds.1 bounds.2) disk⟩
  else none

def beginDeploy (reg : Registry) (d : Digest) (h : Host) (call : DeployCall) : Host :=
  if reg.validate call.file ≠ [] then h
  else
    let stopped := (h.deployment.reconciled reg d call.file).stopNodes d call.file
    { h with
      deployment := stopped
      phase := .stopping call h.deployment.priorStartCount
      owners := h.owners.map fun o =>
        if o.node ∈ h.deployment.nodes ∧ o.node ∉ stopped.nodes then o.cancelled else o }

def startNext (reg : Registry) (d : Digest) (h : Host) (call : DeployCall)
    (prior : String → Nat) : List String → Host
  | [] => { h with phase := .idle }
  | id :: ids =>
    let next := { h with phase := .starting call prior ids }
    if id ∈ h.deployment.nodes then next
    else
      match call.file.nodeByID id with
      | none => next
      | some n =>
        match h.deployment.startNode reg call.ctx call.queueOpens n
            (call.file.fingerprint d n) (prior id) with
        | .error _ => { h with phase := .idle }
        | .ok g =>
          { next with
            deployment := g
            owners := h.owners ++ ((g.nodes.lookup id).bind (h.openedBy reg n)).toList }

def onOwner (h : Host) (index : Nat)
    (act : QueueOwner → Directory → Option (Directory × QueueOwner)) : Option Host :=
  match h.owners[index]? with
  | none => none
  | some o =>
    match act o (h.directories o.dir) with
    | none => none
    | some (directory, o') =>
      some { h with
        owners := h.owners.set index o'
        directories := Function.update h.directories o.dir directory }

def step (reg : Registry) (d : Digest) (h : Host) : HostAction → Option Host
  | .deploy call =>
    match h.phase with
    | .idle => some (h.beginDeploy reg d call)
    | _ => none
  | .stopped =>
    match h.phase with
    | .stopping call prior => some { h with phase := .starting call prior call.order }
    | _ => none
  | .start =>
    match h.phase with
    | .starting call prior ids => some (h.startNext reg d call prior ids)
    | _ => none
  | .enqueue index payload enqueuedAt fault =>
    h.onOwner index fun o directory =>
      if o.loops = 0 then none
      else (directory.enqueue o.dir o.drain payload enqueuedAt fault).map
        fun (directory, drain) => (directory, { o with drain })
  | .exit index =>
    h.onOwner index fun o directory =>
      if o.loops = 0 then none else some (directory, { o with loops := o.loops - 1 })
  | .drain index answer =>
    h.onOwner index fun o directory =>
      (directory.drain o.dir o.drain answer).map
        fun (directory, drain) => (directory, { o with drain })
  | .cancel index => h.onOwner index fun o directory => some (directory, o.cancelled)

/-! ## What one owner at a time means -/

variable {call : DeployCall}

/--
No two queues over one directory have running goroutines, no entry is delivered
twice, and the number of the next entry is above that of every entry that is on
disk or in delivery.
-/
structure OneOwner (h : Host) : Prop where
  exclusive : ∀ (i j : Nat) (o o' : QueueOwner), h.owners[i]? = some o →
    h.owners[j]? = some o' → o.live = true → o'.live = true → o.dir = o'.dir → i = j
  once : ∀ dir, (h.directories dir).delivered.Nodup
  fresh : ∀ o ∈ h.owners, o.live = true →
    (∀ seq, entryName seq ∈ (h.directories o.dir).disk → seq < o.drain.queue.nextSeq) ∧
      ∀ id, o.drain.held = some id → seqOf id < o.drain.queue.nextSeq

end Host

def FlowFile.PlainQueues (f : FlowFile) : Prop :=
  ∀ n ∈ f.graph.nodes, n.wantsQueue = true → plainID n.id = true

instance (f : FlowFile) : Decidable f.PlainQueues :=
  @List.decidableBAll _ _ (fun _ => inferInstance) _

namespace Host

def orderly (h : Host) : HostAction → Bool
  | .deploy call => decide call.file.PlainQueues
  | .stopped => h.owners.all fun o => !o.live || decide (o.node ∈ h.deployment.nodes)
  | _ => true

end Host

def DeployPhase.call : DeployPhase → Option DeployCall
  | .idle => none
  | .stopping call _ => some call
  | .starting call _ _ => some call

namespace Host

structure Sound (h : Host) : Prop where
  apart : ∀ (i j : Nat) (o o' : QueueOwner), h.owners[i]? = some o →
    h.owners[j]? = some o' → o.live = true → o'.live = true → o.node = o'.node → i = j
  named : ∀ o ∈ h.owners, o.dir.parts.getLast? = some o.node.toList
  running : (∀ call prior, h.phase ≠ .stopping call prior) → ∀ o ∈ h.owners,
    o.live = true → o.node ∈ h.deployment.nodes
  plain : ∀ call, h.phase.call = some call → call.file.PlainQueues
  kept : ∀ o ∈ h.owners, o.live = true → (h.directories o.dir).Kept (some o.drain)
  vacant : ∀ dir, (∀ o ∈ h.owners, o.live = true → o.dir ≠ dir) → (h.directories dir).Kept none

variable {o o' : QueueOwner} {reg : Registry} {directory directory' : Directory} {d : Digest}
variable {h h' : Host} {phase : DeployPhase} {rn : RunningNode}

theorem Sound.node_eq (hs : h.Sound) (ho : o ∈ h.owners) (ho' : o' ∈ h.owners)
    (hdir : o.dir = o'.dir) : o.node = o'.node := by
  have hlast := hs.named o ho
  rw [hdir, hs.named o' ho', Option.some.injEq] at hlast
  exact (String.toList_injective hlast).symm

theorem Sound.exclusive (hs : h.Sound) {i j : Nat} (ho : h.owners[i]? = some o)
    (ho' : h.owners[j]? = some o') (hlive : o.live = true) (hlive' : o'.live = true)
    (hdir : o.dir = o'.dir) : i = j :=
  hs.apart i j o o' ho ho' hlive hlive'
    (hs.node_eq (List.mem_of_getElem? ho) (List.mem_of_getElem? ho') hdir)

theorem Sound.oneOwner (hs : h.Sound) : h.OneOwner where
  exclusive := fun _ _ _ _ ho ho' hlive hlive' hdir => hs.exclusive ho ho' hlive hlive' hdir
  once := by
    intro dir
    by_cases hvacant : ∀ o ∈ h.owners, o.live = true → o.dir ≠ dir
    · exact (hs.vacant dir hvacant).once
    · simp only [not_forall, not_not] at hvacant
      obtain ⟨o, ho, hlive, rfl⟩ := hvacant
      exact (hs.kept o ho hlive).once
  fresh := fun o ho hlive => (hs.kept o ho hlive).fresh

attribute [local simp] DeployPhase.call start

theorem sound_start (dataDir : String) (env : List (String × String)) {disks : Dir → Disk}
    (hdisks : ∀ dir, ∃ log, DiskOk (disks dir) log) : (start dataDir env disks).Sound where
  apart := by simp
  named := by simp
  running := by simp
  plain := by simp
  kept := by simp
  vacant := fun dir _ => ⟨hdisks dir, List.nodup_nil, by simp, by simp, nofun⟩

/-! ## Steps of the goroutines -/

structure OwnerStep (o : QueueOwner) (directory : Directory) (o' : QueueOwner)
    (directory' : Directory) : Prop where
  node : o'.node = o.node
  dir : o'.dir = o.dir
  live : o'.live = true → o.live = true
  dead : o.live = false → directory' = directory
  kept : o.live = true → directory.Kept (some o.drain) → directory'.Kept (some o'.drain)

theorem stopped_of_not_live (h : o.live = false) : o.drain.pc = .stopped := by
  simp only [QueueOwner.live, decide_eq_false_iff_not, not_or, not_not] at h
  exact h.2

theorem Sound.onOwner (hs : h.Sound) {index : Nat}
    {act : QueueOwner → Directory → Option (Directory × QueueOwner)}
    (hact : ∀ o directory directory' o', act o directory = some (directory', o') →
      OwnerStep o directory o' directory')
    (hstep : h.onOwner index act = some h') : h'.Sound := by
  revert hstep
  fun_cases h.onOwner index act <;> rintro ⟨⟩
  next o ho directory' o' hnext =>
  have hown := hact _ _ _ _ hnext
  have hmem := List.mem_of_getElem? ho
  -- an owner of the new list is the one that stepped or one of the others
  have hcases : ∀ {i : Nat} {p : QueueOwner}, (h.owners.set index o')[i]? = some p →
      (i = index ∧ p = o') ∨ (i ≠ index ∧ h.owners[i]? = some p) := getElem?_set_eq_some
  have hbefore : ∀ {i : Nat} {p : QueueOwner}, (h.owners.set index o')[i]? = some p →
      ∃ q, h.owners[i]? = some q ∧ p.node = q.node ∧ p.dir = q.dir ∧
        (p.live = true → q.live = true) := by
    intro i p hp
    rcases hcases hp with ⟨rfl, rfl⟩ | ⟨-, hq⟩
    · exact ⟨o, ho, hown.node, hown.dir, hown.live⟩
    · exact ⟨p, hq, rfl, rfl, id⟩
  have hold : ∀ p ∈ h.owners.set index o', ∃ q ∈ h.owners,
      p.node = q.node ∧ p.dir = q.dir ∧ (p.live = true → q.live = true) := by
    intro p hp
    obtain ⟨i, hi⟩ := List.mem_iff_getElem?.mp hp
    obtain ⟨q, hq, hfacts⟩ := hbefore hi
    exact ⟨q, List.mem_of_getElem? hq, hfacts⟩
  refine ⟨?_, ?_, ?_, hs.plain, ?_, ?_⟩
  · intro i j p p' hp hp' hlive hlive' hnode
    obtain ⟨q, hq, hqnode, -, hqlive⟩ := hbefore hp
    obtain ⟨q', hq', hqnode', -, hqlive'⟩ := hbefore hp'
    exact hs.apart i j q q' hq hq' (hqlive hlive) (hqlive' hlive')
      (by rw [← hqnode, ← hqnode', hnode])
  · intro p hp
    obtain ⟨q, hq, hnode, hdir, -⟩ := hold p hp
    rw [hnode, hdir]
    exact hs.named q hq
  · intro hphase p hp hlive
    obtain ⟨q, hq, hnode, -, hqlive⟩ := hold p hp
    rw [hnode]
    exact hs.running hphase q hq (hqlive hlive)
  · intro p hp hlive
    obtain ⟨i, hi⟩ := List.mem_iff_getElem?.mp hp
    dsimp only
    rcases hcases hi with ⟨rfl, rfl⟩ | ⟨hne, hother⟩
    · rw [hown.dir, Function.update_self]
      exact hown.kept (hown.live hlive) (hs.kept o hmem (hown.live hlive))
    · rw [Function.update_apply]
      split
      next hdir =>
        have hdead : o.live = false := by
          by_contra hlive'
          exact hne (hs.exclusive hother ho hlive (Bool.not_eq_false _ ▸ hlive') hdir)
        rw [hown.dead hdead, ← hdir]
        exact hs.kept p (List.mem_of_getElem? hother) hlive
      · exact hs.kept p (List.mem_of_getElem? hother) hlive
  · intro dir hvacant
    dsimp only at hvacant ⊢
    have hothers : ∀ p ∈ h.owners, (p = o → p.live = true → p.dir ≠ dir) →
        p.live = true → p.dir ≠ dir := by
      intro p hp hsame
      by_cases heq : p = o
      · exact hsame heq
      · exact hvacant p (mem_set_of_ne ho hp heq o')
    rw [Function.update_apply]
    split
    next hdir =>
      subst hdir
      cases hlive : o.live with
      | true =>
        have hdead : o'.live = false := by
          rw [← Bool.not_eq_true]
          exact fun hlive' => hvacant o' (mem_set_of_getElem? ho o') hlive' hown.dir
        exact (hown.kept hlive (hs.kept o hmem hlive)).left (stopped_of_not_live hdead)
      | false =>
        rw [hown.dead hlive]
        exact hs.vacant o.dir fun p hp => hothers p hp (by rintro rfl; simp [hlive])
    next hdir => exact hs.vacant dir fun p hp => hothers p hp (by rintro rfl _; exact Ne.symm hdir)

theorem live_of_drain (h : o.drain.pc ≠ .stopped) : o.live = true := by
  simp [QueueOwner.live, h]

theorem live_of_loops (h : o.loops ≠ 0) : o.live = true := by
  simp [QueueOwner.live, h]

theorem ownerStep_enqueue {payload : List UInt8} {enqueuedAt : Int} {fault : Fault}
    (hstep : (if o.loops = 0 then none
      else (directory.enqueue o.dir o.drain payload enqueuedAt fault).map
        fun (directory, drain) => (directory, { o with drain })) = some (directory', o')) :
    OwnerStep o directory o' directory' := by
  split at hstep
  · contradiction
  next hloops =>
    obtain ⟨⟨next, drain⟩, hnext, heq⟩ := Option.map_eq_some_iff.mp hstep
    cases heq
    have hlive := live_of_loops hloops
    exact ⟨rfl, rfl, fun _ => hlive, by simp [hlive], fun _ hkept => hkept.enqueued hnext⟩

theorem ownerStep_drain {answer : Bool}
    (hstep : (directory.drain o.dir o.drain answer).map
      (fun (directory, drain) => (directory, { o with drain })) = some (directory', o')) :
    OwnerStep o directory o' directory' := by
  obtain ⟨⟨next, drain⟩, hnext, heq⟩ := Option.map_eq_some_iff.mp hstep
  cases heq
  have hlive : o.live = true := by
    apply live_of_drain
    intro hpc
    simp [Directory.drain, DrainState.drain, hpc] at hnext
  exact ⟨rfl, rfl, fun _ => hlive, by simp [hlive], fun _ hkept => hkept.drained hnext⟩

theorem ownerStep_exit
    (hstep : (if o.loops = 0 then none
      else some (directory, { o with loops := o.loops - 1 })) = some (directory', o')) :
    OwnerStep o directory o' directory' := by
  split at hstep
  · contradiction
  rename_i hloops
  cases hstep
  exact ⟨rfl, rfl, fun _ => live_of_loops hloops, fun _ => rfl, fun _ hkept => hkept⟩

/-! ## Steps of `Deploy` -/

theorem sound_beginDeploy (hs : h.Sound) (hplain : call.file.PlainQueues) :
    (h.beginDeploy reg d call).Sound := by
  unfold beginDeploy
  split
  · exact hs
  dsimp only
  set stopped := (h.deployment.reconciled reg d call.file).stopNodes d call.file
  set stop : QueueOwner → QueueOwner := fun o =>
    if o.node ∈ h.deployment.nodes ∧ o.node ∉ stopped.nodes then o.cancelled else o
  have hsame : ∀ o, (stop o).node = o.node ∧ (stop o).dir = o.dir ∧ (stop o).live = o.live := by
    intro o
    dsimp only [stop]
    split <;> exact ⟨rfl, rfl, rfl⟩
  refine ⟨?_, ?_, ?_, ?_, ?_, ?_⟩
  · intro i j p p' hp hp' hplive hplive' hnode
    rw [List.getElem?_map] at hp hp'
    obtain ⟨o, ho, rfl⟩ := Option.map_eq_some_iff.mp hp
    obtain ⟨o', ho', rfl⟩ := Option.map_eq_some_iff.mp hp'
    simp only [hsame] at hplive hplive' hnode
    exact hs.apart i j o o' ho ho' hplive hplive' hnode
  · intro p hp
    obtain ⟨o, ho, rfl⟩ := List.mem_map.mp hp
    simp only [hsame]
    exact hs.named o ho
  · intro hphase
    exact absurd rfl (hphase call _)
  · rintro _ ⟨⟩
    exact hplain
  · intro p hp hplive
    obtain ⟨o, ho, rfl⟩ := List.mem_map.mp hp
    rw [(hsame o).2.2] at hplive
    have hkept := hs.kept o ho hplive
    dsimp only [stop]
    split
    · exact hkept.cancelled
    · exact hkept
  · intro dir hvacant
    refine hs.vacant dir fun o ho holive => ?_
    have hother := hvacant (stop o) (List.mem_map_of_mem ho)
    simp only [hsame] at hother
    exact hother holive

theorem Sound.withPhase (hs : h.Sound)
    (hrunning : ∀ o ∈ h.owners, o.live = true → o.node ∈ h.deployment.nodes)
    (hplain : ∀ call, phase.call = some call → call.file.PlainQueues) : Sound { h with phase } :=
  ⟨hs.apart, hs.named, fun _ => hrunning, hplain, hs.kept, hs.vacant⟩

variable {n : Node}

theorem openedBy_eq_some (hopened : h.openedBy reg n rn = some o) :
    n.wantsQueue = true ∧ o.node = n.id ∧
      o.dir = queueDir h.deployment.dataDir h.deployment.flowID n.id ∧
      ∃ maxSizeBytes maxAge, o.drain =
        .start (openQueue (h.directories o.dir).disk maxSizeBytes maxAge)
          (h.directories o.dir).disk := by
  unfold openedBy at hopened
  split at hopened
  next hwants =>
    cases hopened
    exact ⟨hwants.1, rfl, rfl, _, _, rfl⟩
  · contradiction

theorem Sound.opens (hs : h.Sound)
    (hrunning : ∀ o ∈ h.owners, o.live = true → o.node ∈ h.deployment.nodes)
    (hfresh : n.id ∉ h.deployment.nodes) (hplain : n.wantsQueue = true → plainID n.id = true)
    (hopened : h.openedBy reg n rn = some o) {g : Deployment}
    (hnodes : ∀ id, id = n.id ∨ id ∈ h.deployment.nodes → id ∈ g.nodes)
    (hcall : ∀ call, phase.call = some call → call.file.PlainQueues) :
    Sound { h with deployment := g, phase, owners := h.owners ++ [o] } := by
  obtain ⟨hwants, hnode, hdir, maxSizeBytes, maxAge, hdrain⟩ := openedBy_eq_some hopened
  have hlast : o.dir.parts.getLast? = some o.node.toList := by
    rw [hdir, hnode]
    exact getLast_queueDir _ _ (hplain hwants)
  have hother : ∀ p ∈ h.owners, p.live = true → p.node ≠ o.node := by
    intro p hp hlive heq
    rw [hnode] at heq
    exact hfresh (heq ▸ hrunning p hp hlive)
  have hnobody : ∀ p ∈ h.owners, p.live = true → p.dir ≠ o.dir := by
    intro p hp hlive heq
    have hsame := hs.named p hp
    rw [heq, hlast, Option.some.injEq] at hsame
    exact hother p hp hlive (String.toList_injective hsame).symm
  refine ⟨?_, ?_, ?_, hcall, ?_, ?_⟩
  · intro i j p p' hp hp' hlive hlive' hsame
    rcases getElem?_concat_eq_some hp with hold | ⟨hi, rfl⟩
    · rcases getElem?_concat_eq_some hp' with hold' | ⟨hj, rfl⟩
      · exact hs.apart i j p p' hold hold' hlive hlive' hsame
      · exact absurd hsame (hother p (List.mem_of_getElem? hold) hlive)
    · rcases getElem?_concat_eq_some hp' with hold' | ⟨hj, rfl⟩
      · exact absurd hsame.symm (hother p' (List.mem_of_getElem? hold') hlive')
      · rw [hi, hj]
  · exact forall_mem_concat hs.named hlast
  · intro _
    refine forall_mem_concat (fun p hp hlive => hnodes _ (.inr (hrunning p hp hlive))) ?_
    intro _
    exact hnodes _ (.inl hnode)
  · refine forall_mem_concat hs.kept ?_
    intro _
    rw [hdrain]
    exact (hs.vacant o.dir hnobody).opened maxSizeBytes maxAge
  · intro dir hvacant
    exact hs.vacant dir fun p hp => hvacant p (List.mem_append_left _ hp)

theorem sound_startNext {prior : String → Nat} {ids : List String} (hs : h.Sound)
    (hphase : h.phase = .starting call prior ids) : (h.startNext reg d call prior ids).Sound := by
  have hrunning := hs.running (by simp [hphase])
  have hplain := hs.plain call (by simp [hphase])
  have hcall : ∀ {rest : List String} (other : DeployCall),
      (DeployPhase.starting call prior rest).call = some other → other.file.PlainQueues := by
    rintro rest _ ⟨⟩
    exact hplain
  have hidle : Sound { h with phase := .idle } := hs.withPhase hrunning nofun
  cases ids with
  | nil => exact hidle
  | cons id ids =>
    simp only [startNext]
    split
    · exact hs.withPhase hrunning hcall
    rename_i hfresh
    split
    · exact hs.withPhase hrunning hcall
    rename_i n hn
    split
    · exact hidle
    rename_i g hstart
    obtain ⟨hmem, hid⟩ := nodeByID_eq_some hn
    subst hid
    obtain ⟨r, inst, -, -, rfl⟩ := startNode_eq_ok hstart
    have hnodes : ∀ id, id = n.id ∨ id ∈ h.deployment.nodes →
        id ∈ (h.deployment.nodes.insert n.id (h.deployment.runningNode call.ctx n r.info inst
          (call.file.fingerprint d n) (prior n.id))) :=
      fun id hid => (AList.mem_insert _).mpr hid
    rw [AList.lookup_insert, Option.bind_some]
    cases hopened : h.openedBy reg n (h.deployment.runningNode call.ctx n r.info inst
        (call.file.fingerprint d n) (prior n.id)) with
    | none =>
      rw [Option.toList_none, List.append_nil]
      exact ⟨hs.apart, hs.named, fun _ p hp hlive => hnodes _ (.inr (hrunning p hp hlive)),
        hcall, hs.kept, hs.vacant⟩
    | some o => exact hs.opens hrunning hfresh (hplain n hmem) hopened hnodes hcall

theorem sound_step {action : HostAction} (hs : h.Sound) (hok : h.orderly action = true)
    (hstep : h.step reg d action = some h') : h'.Sound := by
  revert hstep
  fun_cases h.step reg d action
  case case1 call hphase =>
    rintro ⟨⟩
    exact sound_beginDeploy hs (of_decide_eq_true hok)
  case case3 call prior hphase =>
    rintro ⟨⟩
    refine hs.withPhase ?_ ?_
    · intro o ho hlive
      have hexited := List.all_eq_true.mp hok o ho
      simpa [hlive] using hexited
    · rintro _ ⟨⟩
      exact hs.plain call (by simp [hphase])
  case case5 call prior ids hphase =>
    rintro ⟨⟩
    exact sound_startNext hs hphase
  case case7 => exact hs.onOwner fun _ _ _ _ hact => ownerStep_enqueue hact
  case case8 => exact hs.onOwner fun _ _ _ _ hact => ownerStep_exit hact
  case case9 => exact hs.onOwner fun _ _ _ _ hact => ownerStep_drain hact
  case case10 =>
    refine hs.onOwner ?_
    rintro o directory _ _ ⟨⟩
    exact ⟨rfl, rfl, id, fun _ => rfl, fun _ hkept => hkept.cancelled⟩
  all_goals exact nofun

end Host

/-! ## The steps of a call add up to the call -/

/-- The deployment when the call at work, if there is one, has returned. -/
def Host.target (reg : Registry) (d : Digest) (h : Host) : Deployment :=
  match h.phase with
  | .idle => h.deployment
  | .stopping call prior => (startAll reg d call prior call.order h.deployment).1
  | .starting call prior ids => (startAll reg d call prior ids h.deployment).1

/-- `Deploy` in one step; the goroutines of the queues leave the deployment alone. -/
def HostAction.carryOut (reg : Registry) (d : Digest) (g : Deployment) : HostAction → Deployment
  | .deploy call => (g.deploy reg d call).1
  | _ => g

section Refinement

variable {reg : Registry} {d : Digest} {h h' : Host}

theorem Host.target_step {action : HostAction} (hstep : h.step reg d action = some h') :
    h'.target reg d = action.carryOut reg d (h.target reg d) := by
  revert hstep
  fun_cases h.step reg d action
  case case1 call hphase =>
    rintro ⟨⟩
    by_cases hvalid : reg.validate call.file = [] <;>
      simp [HostAction.carryOut, target, hphase, beginDeploy, Deployment.deploy, hvalid]
  case case3 call prior hphase =>
    rintro ⟨⟩
    simp [HostAction.carryOut, target, hphase]
  case case5 call prior ids hphase =>
    rintro ⟨⟩
    simp only [HostAction.carryOut, target, hphase]
    -- a turn that starts a node or skips it leaves the rest of the loop to come
    cases ids with
    | nil => rfl
    | cons id ids => grind [startNext, startAll]
  case case7 | case8 | case9 | case10 =>
    fun_cases onOwner <;> rintro ⟨⟩
    rfl
  all_goals rintro ⟨⟩

/-- However `Deploy` interleaves with the goroutines, the calls of a run have the effect of
sequential ones in the order in which they begin. -/
theorem deploys_are_atomic {actions : List HostAction}
    (hrun : run (Host.step reg d) h actions = some h') :
    h'.target reg d = actions.foldl (HostAction.carryOut reg d) (h.target reg d) := by
  induction actions generalizing h with
  | nil =>
    cases hrun
    rfl
  | cons action actions ih =>
    obtain ⟨next, hnext, hrest⟩ := run_cons_eq_some.mp hrun
    rw [ih hrest, Host.target_step hnext, List.foldl_cons]

end Refinement

/-! ## Runs -/

/--
As long as the goroutines of a stopped node have exited before the wait for them
ends, every directory has one owner at a time.
-/
theorem one_owner_per_directory (reg : Registry) (d : Digest) (dataDir : String)
    (env : List (String × String)) (disks : Dir → Disk)
    (hdisks : ∀ dir, ∃ log, DiskOk (disks dir) log) (actions : List HostAction) {h : Host}
    (hmeets : Meets (Host.step reg d) (fun h action => h.orderly action = true)
      (.start dataDir env disks) actions)
    (hrun : run (Host.step reg d) (.start dataDir env disks) actions = some h) :
    h.OneOwner :=
  (run_invariant_of_meets Host.sound_step (Host.sound_start dataDir env hdisks) hmeets
    hrun).oneOwner

def edgeFile (maxAgeSec : Int) : FlowFile where
  id := "edge"
  mode := "streaming"
  graph :=
    { nodes := [{
        id := "b"
        typeName := "debug-log"
        errorPolicy := some
          { onError := "storeForward", storeForward := some ⟨0, maxAgeSec⟩ } }]
      wires := [] }

def storeOne : List HostAction :=
  [.deploy (deployOf 0 (edgeFile 0)), .stopped, .start, .start, .enqueue 0 [1] 0 .none]

theorem storeOne_is_atomic :
    ∃ h, run (Host.step smallRegistry plainDigest) (.start "/data" [] fun _ => ∅) storeOne =
        some h ∧ h.owners.length = 1 ∧
      h.target smallRegistry plainDigest =
        storeOne.foldl (HostAction.carryOut smallRegistry plainDigest)
          (Host.target smallRegistry plainDigest (.start "/data" [] fun _ => ∅)) :=
  exists_some_and (by rw [plainDigest_eq]; decide +kernel) fun _ hrun _ => deploys_are_atomic hrun

def restartOrderly : List HostAction :=
  storeOne ++ [HostAction.deploy (deployOf 0 (edgeFile 60)), .exit 0, .drain 0 true, .stopped,
    .start, .drain 1 true, .drain 1 true, .drain 1 true]

theorem one_owner_per_directory_restart :
    ∃ h, run (Host.step smallRegistry plainDigest) (.start "/data" [] fun _ => ∅)
        restartOrderly = some h ∧
      h.owners.map QueueOwner.live = [false, true] ∧
      (h.directories (queueDir "/data" "edge" "b")).delivered = [(seqName 0, 1)] ∧
      h.OneOwner := by
  refine exists_some_imp (fun h => h.owners.map QueueOwner.live = [false, true] ∧
    (h.directories (queueDir "/data" "edge" "b")).delivered = [(seqName 0, 1)])
    (by rw [plainDigest_eq]; decide +kernel) ?_
  rintro h hrun ⟨hlive, hdelivered⟩
  exact ⟨hlive, hdelivered, one_owner_per_directory smallRegistry plainDigest "/data" []
    (fun _ => ∅) (fun _ => ⟨∅, diskOk_empty⟩) restartOrderly
    (by rw [plainDigest_eq]; decide +kernel) hrun⟩

def restartUnderDelivery : List HostAction :=
  storeOne ++ [HostAction.drain 0 true, .drain 0 true, .deploy (deployOf 0 (edgeFile 60)), .stopped,
    .start, .drain 1 true, .drain 1 true, .drain 1 true, .drain 0 true]

/-- Two queues are live over one directory, and both have delivered the entry. -/
theorem timeout_opens_second_queue :
    ¬ ∀ (reg : Registry) (d : Digest) (dataDir : String) (env : List (String × String))
      (disks : Dir → Disk), (∀ dir, ∃ log, DiskOk (disks dir) log) →
      ∀ (actions : List HostAction) (h : Host),
        run (Host.step reg d) (.start dataDir env disks) actions = some h → h.OneOwner := by
  intro hall
  obtain ⟨h, hrun, howners, -⟩ : ∃ h, run (Host.step smallRegistry plainDigest)
      (.start "/data" [] fun _ => ∅) restartUnderDelivery = some h ∧
        h.owners.map (fun o => (o.live, o.dir)) =
          [(true, queueDir "/data" "edge" "b"), (true, queueDir "/data" "edge" "b")] ∧
        (h.directories (queueDir "/data" "edge" "b")).delivered =
          [(seqName 0, 1), (seqName 0, 1)] := by
    rw [plainDigest_eq]
    decide +kernel
  have hone := hall smallRegistry plainDigest "/data" [] (fun _ => ∅)
    (fun _ => ⟨∅, diskOk_empty⟩) restartUnderDelivery h hrun
  obtain ⟨first, rest, hfirst, heq, hrest⟩ := List.map_eq_cons_iff.mp howners
  obtain ⟨second, rest', hsecond, heq', -⟩ := List.map_eq_cons_iff.mp hrest
  rw [Prod.mk.injEq] at heq heq'
  have hsame := hone.exclusive 0 1 first second (by simp [hfirst]) (by simp [hfirst, hsecond])
    heq.1 heq'.1 (heq.2.trans heq'.2.symm)
  exact absurd hsame (by decide)

end DataPipe.Flow
