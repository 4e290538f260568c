import DataPipe.Bus.Conservation
import DataPipe.Flow.HotDeploy

/-!
# Queued datagrams over a hot deploy

One call of `Deploy` on a running deployment, phase by phase, while the receive loops go on
taking from the inboxes and senders filling free places.  Stopping a node does not end its
loops at once; they may still take while the call waits for them.  A send that finds its inbox
full is not a step here: what it evicts is the overflow policy's doing.
-/

namespace DataPipe.Flow

open DataPipe.Foundation

inductive Phase where
  | called
  | reconciled
  | stopped
  | returned
  deriving DecidableEq, Repr

/-- A deployment with a call in progress; `takes` logs what the loops took. -/
structure Swap where
  deployment : Deployment
  phase : Phase
  draining : List (String × RunningNode)
  prior : String → Nat
  takes : List (Endpoint × Datagram)

def Swap.call (g : Deployment) : Swap where
  deployment := g
  phase := .called
  draining := []
  prior := g.priorStartCount
  takes := []

inductive SwapAction where
  | take (id port : String) (ref : Nat)
  | send (ref : Nat) (datagram : Datagram)
  | advance

def RunningNode.reads (rn : RunningNode) (port : String) (ref : Nat) : Bool :=
  (port, ref) ∈ rn.readers

def Swap.reads (s : Swap) (id port : String) (ref : Nat) : Bool :=
  (s.deployment.nodes.lookup id).any (·.reads port ref) ||
    s.draining.any fun entry => entry.1 = id ∧ entry.2.reads port ref

def Swap.updateWire (s : Swap) (ref : Nat) (change : Bus.Wire Datagram → Bus.Wire Datagram)
    (hchange : ∀ w, IsOpen w → IsOpen (change w)) : Swap :=
  { s with
    deployment :=
      { s.deployment with inboxes := s.deployment.inboxes.update ref change hchange } }

def Swap.take (s : Swap) (key : Endpoint) (ref : Nat) : Option Swap :=
  match s.deployment.inboxes.pool[ref]? with
  | none => none
  | some w =>
    match w.receive false with
    | some (_, .ok datagram) =>
      some { s.updateWire ref Bus.Wire.popOldestLocked (fun _ h => h) with
        takes := s.takes ++ [(key, datagram)] }
    | _ => none

def deliverRoom (w : Bus.Wire Datagram) (datagram : Datagram) : Bus.Wire Datagram :=
  if h : w.full = true then w else w.deliver datagram (Bus.Wire.room_of_not_full h)

theorem isOpen_deliverRoom {w : Bus.Wire Datagram} (datagram : Datagram)
    (h : IsOpen w) : IsOpen (deliverRoom w datagram) := by
  unfold deliverRoom
  split
  · exact h
  · exact h

def Swap.send (s : Swap) (ref : Nat) (datagram : Datagram) : Option Swap :=
  match s.deployment.inboxes.pool[ref]? with
  | none => none
  | some w =>
    if w.closed ∨ w.full then none
    else
      some (s.updateWire ref (deliverRoom · datagram)
        (fun _ => isOpen_deliverRoom datagram))

def Deployment.stopping (g : Deployment) (d : Digest) (f : FlowFile) :
    List (String × RunningNode) :=
  (g.nodes.entries.filter fun entry =>
    f.newNodeFP d entry.1 ≠ entry.2.fingerprint).map fun entry => (entry.1, entry.2)

def Swap.advance (reg : Registry) (d : Digest) (call : DeployCall) (s : Swap) : Option Swap :=
  match s.phase with
  | .called =>
    if reg.validate call.file = [] then
      some { s with
        phase := .reconciled
        deployment := s.deployment.reconciled reg d call.file }
    else none
  | .reconciled =>
    some { s with
      phase := .stopped
      deployment := s.deployment.stopNodes d call.file
      draining := s.deployment.stopping d call.file }
  | .stopped =>
    match startAll reg d call s.prior call.order s.deployment with
    | (g, none) => some { s with phase := .returned, deployment := g }
    | (_, some _) => none
  | .returned => none

def Swap.step (reg : Registry) (d : Digest) (call : DeployCall) (s : Swap) :
    SwapAction → Option Swap
  | .take id port ref => if s.reads id port ref then s.take ⟨id, port⟩ ref else none
  | .send ref datagram => s.send ref datagram
  | .advance => s.advance reg d call

def Swap.takesAt (s : Swap) (key : Endpoint) : List Datagram :=
  (s.takes.filter (·.1 = key)).map Prod.snd

/--
The datagrams queued in an inbox when the call began are, in their order, those
its node's loops have taken followed by those the inbox of that name holds, and
the running node reads that inbox.
-/
def Survives (before : Deployment) (s : Swap) (key : Endpoint) : Prop :=
  ∀ r₀ w₀, before.inboxes.ref.lookup key = some r₀ →
    before.inboxes.pool[r₀]? = some w₀ → w₀.queue ≠ [] →
      ∃ ref w rn, s.deployment.inboxes.ref.lookup key = some ref ∧
        s.deployment.inboxes.pool[ref]? = some w ∧
        w₀.queue <+: s.takesAt key ++ w.queue ∧
        s.deployment.nodes.lookup key.node = some rn ∧
        ∀ read, rn.reads key.port read → read = ref

def Common (reg : Registry) (d : Digest) (f₁ f₂ : FlowFile) (key : Endpoint) : Prop :=
  key ∈ (computeInboxFingerprints reg d f₁).map Prod.fst ∧
    key ∈ (computeInboxFingerprints reg d f₂).map Prod.fst

def Lossless (reg : Registry) (d : Digest) (s : Live) (call : DeployCall) : Prop :=
  ∀ actions final,
    run (Swap.step reg d call) (Swap.call s.deployment) actions = some final →
      final.phase = .returned →
      ∀ key, Common reg d s.file call.file key → Survives s.deployment final key

def KeepsQueuedStamps (reg : Registry) (d : Digest) (s : Live) (call : DeployCall) : Prop :=
  ∀ key, Common reg d s.file call.file key →
    ∀ r w, s.deployment.inboxes.ref.lookup key = some r →
      s.deployment.inboxes.pool[r]? = some w → w.queue ≠ [] →
      s.file.inboxStamp d key = call.file.inboxStamp d key

/-- The inbox `key`, found under `r₀` with `queued` in it when the call began. -/
structure Tracks (key : Endpoint) (stamp : String) (r₀ : Nat) (queued : List Datagram)
    (s : Swap) : Prop where
  ref : s.deployment.inboxes.ref.lookup key = some r₀
  stamp : s.deployment.inboxes.stamp.lookup key = some stamp
  queue : ∃ w, s.deployment.inboxes.pool[r₀]? = some w ∧ queued <+: s.takesAt key ++ w.queue
  loops : ∀ id port ref, s.reads id port ref → ((⟨id, port⟩ : Endpoint) = key ↔ ref = r₀)
  running : s.phase = .returned → key.node ∈ s.deployment.nodes

variable {g : Deployment}

section Tracks

variable {ref : Nat} {id port : String}

variable {reg : Registry} {d : Digest} {call : DeployCall} {key : Endpoint}
  {stamp : String} {r₀ : Nat} {queued : List Datagram} {s s' : Swap}

variable {change : Bus.Wire Datagram → Bus.Wire Datagram}
  {hchange : ∀ w, IsOpen w → IsOpen (change w)}

theorem pool_updateWire_ne (hne : ref ≠ r₀) :
    (s.updateWire ref change hchange).deployment.inboxes.pool[r₀]? =
      s.deployment.inboxes.pool[r₀]? := by
  simp [Swap.updateWire, ResourceTable.update, hne]

theorem pool_updateWire_self :
    (s.updateWire ref change hchange).deployment.inboxes.pool[ref]? =
      s.deployment.inboxes.pool[ref]?.map change := by
  simp [Swap.updateWire, ResourceTable.update]

theorem tracks_take (h : Tracks key stamp r₀ queued s) (hreads : s.reads id port ref)
    (htake : s.take ⟨id, port⟩ ref = some s') : Tracks key stamp r₀ queued s' := by
  have howner := h.loops id port ref hreads
  revert htake
  fun_cases s.take ⟨id, port⟩ ref <;> rintro ⟨⟩
  next w hw next datagram hreceive =>
  refine ⟨h.ref, h.stamp, ?_, h.loops, h.running⟩
  obtain ⟨w₀, hw₀, hprefix⟩ := h.queue
  by_cases href : ref = r₀
  · -- the loop of the tracked inbox moves the head of its queue into the log
    subst href
    obtain rfl : w = w₀ := Option.mem_unique hw hw₀
    refine ⟨w.popOldestLocked, ?_, ?_⟩
    · exact pool_updateWire_self.trans (by rw [hw₀]; rfl)
    · obtain ⟨-, ⟨⟩⟩ | ⟨_, ⟨⟩, hqueue, -⟩ := Bus.Wire.receive_spec hreceive
      rw [hqueue] at hprefix
      rw [Bus.Wire.queue_popOldestLocked, hqueue]
      simpa [Swap.takesAt, howner.mpr rfl] using hprefix
  · refine ⟨w₀, (pool_updateWire_ne href).trans hw₀, ?_⟩
    have hkey : (⟨id, port⟩ : Endpoint) ≠ key := fun heq => href (howner.mp heq)
    simpa [Swap.takesAt, hkey] using hprefix

theorem tracks_send {datagram : Datagram} (h : Tracks key stamp r₀ queued s)
    (hsend : s.send ref datagram = some s') : Tracks key stamp r₀ queued s' := by
  revert hsend
  fun_cases s.send ref datagram <;> rintro ⟨⟩
  next w hw hroom =>
  refine ⟨h.ref, h.stamp, ?_, h.loops, h.running⟩
  obtain ⟨w₀, hw₀, hprefix⟩ := h.queue
  by_cases href : ref = r₀
  · subst href
    obtain rfl : w = w₀ := Option.mem_unique hw hw₀
    have hfull : ¬ w.full = true := fun hfull => hroom (.inr hfull)
    refine ⟨deliverRoom w datagram, ?_, ?_⟩
    · exact pool_updateWire_self.trans (by rw [hw₀]; rfl)
    · rw [deliverRoom, dif_neg hfull, Bus.Wire.queue_deliver, ← List.append_assoc]
      exact hprefix.trans (List.prefix_append _ _)
  · exact ⟨w₀, (pool_updateWire_ne href).trans hw₀, hprefix⟩

theorem reads_of_stopNodes
    (h : Swap.reads { s with
      phase := .stopped
      deployment := s.deployment.stopNodes d call.file
      draining := s.deployment.stopping d call.file } id port ref) :
    s.reads id port ref := by
  unfold Swap.reads at h ⊢
  rw [Bool.or_eq_true, Option.any_eq_true, List.any_eq_true] at h
  rw [Bool.or_eq_true, Option.any_eq_true]
  left
  rcases h with ⟨rn, hrn, hread⟩ | ⟨⟨other, rn⟩, hmem, hread⟩
  · exact ⟨rn, (lookup_retain.mp hrn).1, hread⟩
  · obtain ⟨entry, hentry, heq⟩ := List.mem_map.mp hmem
    cases heq
    obtain ⟨hid, hread⟩ := of_decide_eq_true hread
    refine ⟨entry.2, ?_, hread⟩
    rw [← hid]
    exact AList.mem_lookup_iff.mpr (List.mem_filter.mp hentry).1

theorem reads_of_starts (hstarts : Starts reg d call s.prior s.deployment g)
    (h : Swap.reads { s with phase := .returned, deployment := g } id port ref) :
    s.reads id port ref ∨ s.deployment.inboxes.ref.lookup ⟨id, port⟩ = some ref := by
  unfold Swap.reads at h ⊢
  rw [Bool.or_eq_true, Option.any_eq_true] at h
  rw [Bool.or_eq_true, Option.any_eq_true]
  rcases h with ⟨rn, hrn, hread⟩ | hdrain
  · rcases hstarts.started hrn with hold | ⟨_, n, r, inst, hn, _, _, rfl⟩
    · exact .inl (.inl ⟨rn, hold, hread⟩)
    · right
      have hmem := of_decide_eq_true hread
      simp only [Deployment.runningNode, List.mem_filterMap, Option.map_eq_some_iff] at hmem
      obtain ⟨port', _, ref', href, rfl, rfl⟩ := hmem
      rw [(nodeByID_eq_some hn).2] at href
      exact href
  · exact .inl (.inr hdrain)

theorem inbox_eq_iff {other : Endpoint} (hother : g.inboxes.ref.lookup other = some ref)
    (hkey : g.inboxes.ref.lookup key = some r₀) : other = key ↔ ref = r₀ := by
  constructor
  · rintro rfl
    exact Option.mem_unique hother hkey
  · rintro rfl
    exact g.inboxes.unshared hother hkey

theorem tracks_advance (h : Tracks key stamp r₀ queued s)
    (hnew : (key, stamp) ∈ computeInboxFingerprints reg d call.file)
    (hadvance : s.advance reg d call = some s') : Tracks key stamp r₀ queued s' := by
  revert hadvance
  fun_cases s.advance reg d call <;> rintro ⟨⟩
  next hvalid =>
    have hnodup := (accepts_of_validate hvalid).nodes_nodup
    have hkeeps : s.deployment.inboxes.Keeps
        (reconcileInboxes reg d call.file s.deployment.inboxes) key :=
      ResourceTable.keeps_reconcile _ _ (consistent_computeInboxFingerprints hnodup)
        hnew h.stamp
    refine ⟨hkeeps.ref.trans h.ref, hkeeps.stamp.trans h.stamp, ?_, h.loops, nofun⟩
    obtain ⟨w, hw, hprefix⟩ := h.queue
    exact ⟨w, (hkeeps.pool r₀ h.ref).trans hw, hprefix⟩
  next =>
    refine ⟨h.ref, h.stamp, h.queue, ?_, nofun⟩
    intro id port ref hreads
    exact h.loops id port ref (reads_of_stopNodes hreads)
  next g hstart =>
    have hstarts := starts_startAll reg d call s.prior call.order s.deployment
    rw [hstart] at hstarts
    have hframe : (g, (none : Option DeployError)).1.inboxes = s.deployment.inboxes := by
      rw [hstarts.frame]
    refine ⟨hframe ▸ h.ref, hframe ▸ h.stamp, hframe ▸ h.queue, ?_, ?_⟩
    · intro id port ref hreads
      rcases reads_of_starts hstarts hreads with hreads | hlookup
      · exact h.loops id port ref hreads
      · exact inbox_eq_iff hlookup h.ref
    · intro _
      obtain ⟨n, hn, hid, _, _⟩ := mem_computeInboxFingerprints.mp hnew
      have hfind : (call.file.nodeByID key.node).isSome := by
        rw [FlowFile.nodeByID, List.find?_isSome]
        exact ⟨n, hn, decide_eq_true hid⟩
      have horder : key.node ∈ call.order := by
        rw [call.order_perm.mem_iff, ← hid]
        exact List.mem_map_of_mem hn
      have hmem := mem_nodes_startAll (congrArg Prod.snd hstart) horder hfind
      rw [hstart] at hmem
      exact hmem

theorem tracks_step {action : SwapAction} (h : Tracks key stamp r₀ queued s)
    (hnew : (key, stamp) ∈ computeInboxFingerprints reg d call.file)
    (hstep : s.step reg d call action = some s') : Tracks key stamp r₀ queued s' := by
  revert hstep
  fun_cases s.step reg d call action
  case case1 id port ref hreads => exact tracks_take h hreads
  case case2 => exact nofun
  case case3 ref datagram => exact tracks_send h
  case case4 => exact tracks_advance h hnew

end Tracks

section Survival

variable {reg : Registry} {d : Digest} {s : Live} {call : DeployCall}

theorem Synced.reads_call (hs : Synced reg d s) {id port : String} {ref : Nat}
    (h : (Swap.call s.deployment).reads id port ref) :
    s.deployment.inboxes.ref.lookup ⟨id, port⟩ = some ref := by
  unfold Swap.reads at h
  rw [Bool.or_eq_true, Option.any_eq_true] at h
  rcases h with ⟨rn, hrn, hread⟩ | hdrain
  · exact hs.reads hrn port ref (of_decide_eq_true hread)
  · simp [Swap.call] at hdrain

variable {key : Endpoint} {stamp : String}

theorem tracks_call (hs : Synced reg d s) {r₀ : Nat} {w₀ : Bus.Wire Datagram}
    (href : s.deployment.inboxes.ref.lookup key = some r₀)
    (hw₀ : s.deployment.inboxes.pool[r₀]? = some w₀)
    (hold : (key, stamp) ∈ computeInboxFingerprints reg d s.file) :
    Tracks key stamp r₀ w₀.queue (Swap.call s.deployment) where
  ref := href
  stamp := (hs.stamps key stamp).mpr hold
  queue := ⟨w₀, hw₀, List.prefix_refl _⟩
  loops _ _ _ hreads := inbox_eq_iff (hs.reads_call hreads) href
  running := by
    intro hphase
    contradiction

theorem survives_of_stamp (hs : Synced reg d s)
    (hold : (key, stamp) ∈ computeInboxFingerprints reg d s.file)
    (hnew : (key, stamp) ∈ computeInboxFingerprints reg d call.file) {actions : List SwapAction}
    {final : Swap} (hrun : run (Swap.step reg d call) (Swap.call s.deployment) actions = some final)
    (hreturned : final.phase = .returned) : Survives s.deployment final key := by
  intro r₀ w₀ href hw₀ _
  have htracks : Tracks key stamp r₀ w₀.queue final :=
    run_invariant (fun h hstep => tracks_step h hnew hstep)
      (tracks_call hs href hw₀ hold) hrun
  obtain ⟨w, hw, hprefix⟩ := htracks.queue
  have hrunning := htracks.running hreturned
  rw [← AList.lookup_isSome, Option.isSome_iff_exists] at hrunning
  obtain ⟨rn, hrn⟩ := hrunning
  refine ⟨r₀, w, rn, htracks.ref, hw, hprefix, hrn, ?_⟩
  intro read hread
  refine (htracks.loops key.node key.port read ?_).mp rfl
  rw [Swap.reads, Bool.or_eq_true, Option.any_eq_true]
  exact .inl ⟨rn, hrn, hread⟩

theorem run_advance (h : s.deployment.deploy reg d call = (g, none)) :
    ∃ final, run (Swap.step reg d call) (Swap.call s.deployment)
        [.advance, .advance, .advance] = some final ∧
      final.phase = .returned ∧ final.deployment = g ∧ final.takes = [] := by
  have hvalid := validate_of_deploy h
  rw [deploy_of_valid hvalid] at h
  let between : Swap :=
    { Swap.call s.deployment with
      phase := .stopped
      deployment := (s.deployment.reconciled reg d call.file).stopNodes d call.file
      draining := (s.deployment.reconciled reg d call.file).stopping d call.file }
  refine ⟨{ between with phase := .returned, deployment := g }, ?_, rfl, rfl, rfl⟩
  rw [run_cons_eq_some]
  refine ⟨{ Swap.call s.deployment with
    phase := .reconciled
    deployment := s.deployment.reconciled reg d call.file }, ?_, ?_⟩
  · simp [Swap.step, Swap.advance, Swap.call, hvalid]
  · rw [run_cons_eq_some]
    refine ⟨between, rfl, ?_⟩
    rw [run_cons_eq_some]
    refine ⟨_, ?_, rfl⟩
    simp only [Swap.step, Swap.advance, between, Swap.call, h]

theorem fresh_of_stamp_ne (hs : Synced reg d s) (h : s.deployment.deploy reg d call = (g, none))
    (hnew : (key, stamp) ∈ computeInboxFingerprints reg d call.file)
    (hne : (key, stamp) ∉ computeInboxFingerprints reg d s.file) :
    ∃ ref w, g.inboxes.ref.lookup key = some ref ∧ g.inboxes.pool[ref]? = some w ∧
      w.queue = [] := by
  have hlive : s.deploy reg d call = some ⟨g, call.file⟩ := by rw [Live.deploy, h]
  have hr := deployResult_of_deploy hlive
  have hstamp : s.deployment.inboxes.stamp.lookup key ≠ some stamp :=
    fun heq => hne ((hs.stamps key stamp).mp heq)
  obtain ⟨ref, href, _, hpool⟩ := ResourceTable.fresh_reconcile Bus.Wire.close
    (freshInbox call.file) (consistent_computeInboxFingerprints hr.accepts.nodes_nodup)
    hnew hstamp
  have hinboxes : g.inboxes = _ := hr.inboxes
  refine ⟨ref, (freshInbox call.file key).1, ?_, ?_, rfl⟩
  · rw [hinboxes]
    exact href
  · rw [hinboxes]
    exact hpool

theorem inboxStamp_of_mem {f : FlowFile} (hf : reg.Accepts f)
    (h : (key, stamp) ∈ computeInboxFingerprints reg d f) : f.inboxStamp d key = some stamp := by
  obtain ⟨n, hn, hid, _, rfl⟩ := mem_computeInboxFingerprints.mp h
  rw [FlowFile.inboxStamp, ← hid, nodeByID_of_mem hf.nodes_nodup hn]
  rfl

theorem Common.stamps {f₁ f₂ : FlowFile} (h : Common reg d f₁ f₂ key) (hf₁ : reg.Accepts f₁)
    (hf₂ : reg.Accepts f₂) :
    ∃ stamp₁ stamp₂, (key, stamp₁) ∈ computeInboxFingerprints reg d f₁ ∧
      (key, stamp₂) ∈ computeInboxFingerprints reg d f₂ ∧
      (f₁.inboxStamp d key = f₂.inboxStamp d key ↔ stamp₁ = stamp₂) := by
  obtain ⟨⟨_, stamp₁⟩, h₁, rfl⟩ := List.mem_map.mp h.1
  obtain ⟨⟨_, stamp₂⟩, h₂, heq⟩ := List.mem_map.mp h.2
  cases heq
  refine ⟨stamp₁, stamp₂, h₁, h₂, ?_⟩
  rw [inboxStamp_of_mem hf₁ h₁, inboxStamp_of_mem hf₂ h₂, Option.some.injEq]

def Live.refilled (s : Live) (contents : Inboxes) : Live :=
  { s with deployment := { s.deployment with inboxes := contents } }

theorem synced_refilled (hs : Synced reg d s) {contents : Inboxes}
    (href : contents.ref = s.deployment.inboxes.ref)
    (hstamp : contents.stamp = s.deployment.inboxes.stamp) :
    Synced reg d (s.refilled contents) where
  accepts := hs.accepts
  wires := hs.wires
  stamps := by
    intro key stamp
    have hold := hs.stamps key stamp
    rw [← hstamp] at hold
    exact hold
  running := hs.running
  nodes := hs.nodes
  reads := by
    intro id rn hrn port ref hmem
    have hlookup := hs.reads hrn port ref hmem
    rw [← href] at hlookup
    exact hlookup

end Survival

/--
Take any deployed file, any contents of its inboxes and any next file whose
deploy reports no error.  The call loses nothing queued exactly if every common
port with a datagram queued keeps its inbox fingerprint.
-/
theorem hotDeploy_lossless_iff (reg : Registry) (d : Digest) (calls : List DeployCall)
    (s : Live) (hrun : run (Live.deploy reg d) .start calls = some s)
    (contents : Inboxes) (href : contents.ref = s.deployment.inboxes.ref)
    (hstamp : contents.stamp = s.deployment.inboxes.stamp) (call : DeployCall)
    (hdeploy : ((s.refilled contents).deployment.deploy reg d call).2 = none) :
    Lossless reg d (s.refilled contents) call ↔
      KeepsQueuedStamps reg d (s.refilled contents) call := by
  have hsynced : Synced reg d s :=
    run_invariant (fun h hstep => synced_step h hstep) (synced_start reg d) hrun
  have hfilled := synced_refilled hsynced href hstamp
  obtain ⟨g, hg⟩ : ∃ g, (s.refilled contents).deployment.deploy reg d call = (g, none) :=
    ⟨_, Prod.ext rfl hdeploy⟩
  have haccepts := accepts_of_validate (validate_of_deploy hg)
  constructor
  · intro hall key hcommon r w hr hw hqueue
    obtain ⟨stamp₁, stamp₂, h₁, h₂, hstamps⟩ := hcommon.stamps hsynced.accepts haccepts
    rw [hstamps]
    by_contra hne
    -- with nothing in between, the call itself already empties the inbox
    obtain ⟨final, hfinal, hphase, rfl, htakes⟩ := run_advance hg
    have hnotMem : (key, stamp₂) ∉ computeInboxFingerprints reg d s.file := fun hmem =>
      hne (consistent_computeInboxFingerprints hsynced.accepts.nodes_nodup key _ _ h₁ hmem)
    obtain ⟨fresh, v, hfresh, hv, hempty⟩ := fresh_of_stamp_ne hfilled hg h₂ hnotMem
    obtain ⟨ref, u, _, hlookup, hu, hprefix, _⟩ :=
      hall _ final hfinal hphase key hcommon r w hr hw hqueue
    rw [hfresh] at hlookup
    cases hlookup
    rw [hv] at hu
    cases hu
    rw [Swap.takesAt, htakes, hempty] at hprefix
    exact hqueue (List.prefix_nil.mp hprefix)
  · intro hkept actions final hfinal hphase key hcommon r₀ w₀ hr₀ hw₀ hqueue
    obtain ⟨stamp₁, stamp₂, h₁, h₂, hstamps⟩ := hcommon.stamps hsynced.accepts haccepts
    have heq := hstamps.mp (hkept key hcommon r₀ w₀ hr₀ hw₀ hqueue)
    subst heq
    exact survives_of_stamp hfilled h₁ h₂ hfinal hphase r₀ w₀ hr₀ hw₀ hqueue

def Live.withQueued (s : Live) : Inboxes :=
  s.deployment.inboxes.update 0 (deliverRoom · default)
    (fun _ => isOpen_deliverRoom default)

def addInject : DeployCall :=
  deployOf 0 (pipeFile "" [⟨"c", "inject", 1, false, "", none, none, ""⟩])

theorem hotDeploy_lossless_iff_addInject :
    ∃ s, run (Live.deploy smallRegistry plainDigest) .start
        [deployOf 0 (pipeFile "" [])] = some s ∧
      (Lossless smallRegistry plainDigest (s.refilled s.withQueued) addInject ↔
        KeepsQueuedStamps smallRegistry plainDigest (s.refilled s.withQueued)
          addInject) := by
  refine exists_some_imp (fun s => ((s.refilled s.withQueued).deployment.deploy smallRegistry
    plainDigest addInject).2 = none) (by rw [plainDigest_eq]; decide +kernel) ?_
  intro s hs hdeploy
  exact hotDeploy_lossless_iff smallRegistry plainDigest _ s hs s.withQueued rfl rfl addInject
    hdeploy

/-- The datagram queued at `b` is neither taken nor in the inbox `b` then reads. -/
theorem overflowChange_loses_queued :
    ∃ s, run (Live.deploy smallRegistry plainDigest) .start
        [deployOf 0 (pipeFile "block" [])] = some s ∧
      ¬ Lossless smallRegistry plainDigest (s.refilled s.withQueued)
        (deployOf 0 (pipeFile "dropOldest" [])) := by
  refine exists_some_imp (fun s =>
    s.deployment.inboxes.ref.lookup ⟨"b", "in"⟩ = some 0 ∧
    (∃ w, s.withQueued.pool[0]? = some w ∧ w.queue.length = 1) ∧
    ⟨"b", "in"⟩ ∈ (computeInboxFingerprints smallRegistry plainDigest s.file).map Prod.fst ∧
    ∃ final, run (Swap.step smallRegistry plainDigest (deployOf 0 (pipeFile "dropOldest" [])))
        (Swap.call (s.refilled s.withQueued).deployment) [.advance, .advance, .advance] =
          some final ∧
      final.phase = .returned ∧ final.takes.length = 0 ∧
      final.deployment.inboxes.ref.lookup ⟨"b", "in"⟩ = some 1 ∧
      ∃ w, final.deployment.inboxes.pool[1]? = some w ∧ w.queue.length = 0)
    (by rw [plainDigest_eq]; decide +kernel) ?_
  rintro s - ⟨href, ⟨w₀, hw₀, hdepth⟩, hold, final, hfinal, hphase, htakes, hnew, w, hw, hempty⟩
  intro hlossless
  have hqueue : w₀.queue ≠ [] := List.ne_nil_of_length_pos (by omega)
  obtain ⟨ref, w', _, hlookup, hw', hprefix, _⟩ := hlossless _ final hfinal hphase
    ⟨"b", "in"⟩ ⟨hold, by decide +kernel⟩ 0 w₀ href hw₀ hqueue
  rw [hnew] at hlookup
  cases hlookup
  rw [hw] at hw'
  cases hw'
  rw [Swap.takesAt, List.eq_nil_of_length_eq_zero htakes,
    List.eq_nil_of_length_eq_zero hempty] at hprefix
  exact hqueue (List.prefix_nil.mp hprefix)

end DataPipe.Flow
