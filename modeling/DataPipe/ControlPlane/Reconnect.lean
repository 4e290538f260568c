import DataPipe.ControlPlane.DeployStream

/-!
# What a runtime gets when it connects

`DeployStream` queues every deployed flow of the runtime's group before it begins to send.
The channel has room for eight commands, and a command that finds it full is dropped
without a trace; so is the whole list when the lookup of the flows fails.
-/

set_option linter.dupNamespace false

namespace DataPipe.ControlPlane

open DataPipe.Foundation DataPipe.Flow

variable {floats : Float64Text} {h : Handlers floats} {fleet : Fleet} {runtimeID : String}

/-! ## Commands stay in their group -/

def Command.IsFor (floats : Float64Text) (fleet : Fleet) (runtimeID : String) (cmd : Command) :
    Prop :=
  contentGroup floats cmd.flowJSON = "" ∨ contentGroup floats cmd.flowJSON = fleet.group runtimeID

theorem Fleet.group_of_accepts {ok : Bool} {targetGroup : String}
    (haccepts : fleet.accepts ok targetGroup runtimeID = true) :
    targetGroup = "" ∨ targetGroup = fleet.group runtimeID := by
  unfold accepts at haccepts
  rw [Bool.or_eq_true, decide_eq_true_eq] at haccepts
  rcases haccepts with hnone | hgroup
  · exact .inl hnone
  · right
    unfold group
    cases hstore : fleet.deviceStore with
    | none => simp [hstore] at hgroup
    | some groupOf =>
      simp only [hstore, Bool.and_eq_true, decide_eq_true_eq] at hgroup
      exact hgroup.2.symm

def Hub.Takes (fleet : Fleet) (hub : Hub) (targetGroup : String) (ch : Nat) : Prop :=
  ∃ runtimeID, hub.ownerOf ch = some runtimeID ∧
    (targetGroup = "" ∨ targetGroup = fleet.group runtimeID)

def Stream.Placed (floats : Float64Text) (fleet : Fleet) (hub : Hub) : Stream → Prop
  | .grouping runtimeID ch | .sending runtimeID ch => hub.ownerOf ch = some runtimeID
  | .listing runtimeID ch myGroup => hub.ownerOf ch = some runtimeID ∧
      (myGroup = "" ∨ myGroup = fleet.group runtimeID)
  | .repushing runtimeID ch myGroup flows => hub.ownerOf ch = some runtimeID ∧
      (myGroup = "" ∨ myGroup = fleet.group runtimeID) ∧
      ∀ f ∈ flows, f.targetGroup = contentGroup floats f.contentJSON
  | _ => True

def Delivery.Placed (floats : Float64Text) (fleet : Fleet) (hub : Hub) : Delivery → Prop
  | .calling call => call.targetGroup = contentGroup floats call.flowJSON
  | .filtering call candidates channels =>
    call.targetGroup = contentGroup floats call.flowJSON ∧
    (∀ candidate ∈ candidates, hub.ownerOf candidate.2 = some candidate.1) ∧
    ∀ ch ∈ channels, hub.Takes fleet call.targetGroup ch
  | .pushing call channels =>
    call.targetGroup = contentGroup floats call.flowJSON ∧
    ∀ ch ∈ channels, hub.Takes fleet call.targetGroup ch
  | .returned _ => True

def Hub.Publishes (hub : Hub) (runtimeID : String) (ch : Nat) : Prop :=
  ∃ rt, hub.runtimes.lookup runtimeID = some rt ∧ rt.deployCh = some ch

structure Hub.Grouped (floats : Float64Text) (fleet : Fleet) (hub : Hub) : Prop where
  history : ∀ {ch runtimeID}, hub.ownerOf ch = some runtimeID →
    ∀ cmd ∈ hub.historyOf ch, cmd.IsFor floats fleet runtimeID
  published : ∀ {runtimeID ch}, hub.Publishes runtimeID ch → hub.ownerOf ch = some runtimeID

section Steps

variable {ch : Nat} {other : String}
variable {t : Tables} {hub hub' : Hub} {ok : Bool} {f : DeployedFlow} {delivery : Delivery}

theorem Hub.Takes.kept {targetGroup : String} (htakes : hub.Takes fleet targetGroup ch)
    (hextends : hub.Extends hub') : hub'.Takes fleet targetGroup ch := by
  obtain ⟨runtimeID, howner, hgroup⟩ := htakes
  exact ⟨runtimeID, hextends.owner howner, hgroup⟩

variable {stream : Stream}

theorem Stream.Placed.kept (hplaced : stream.Placed floats fleet hub)
    (hextends : hub.Extends hub') : stream.Placed floats fleet hub' := by
  cases stream with
  | grouping | sending => exact hextends.owner hplaced
  | listing | repushing => exact ⟨hextends.owner hplaced.1, hplaced.2⟩
  | opening | closed => trivial

theorem Delivery.Placed.kept (hplaced : delivery.Placed floats fleet hub)
    (hextends : hub.Extends hub') : delivery.Placed floats fleet hub' := by
  cases delivery with
  | calling call => exact hplaced
  | filtering call candidates channels =>
    obtain ⟨hcall, hcandidates, hchannels⟩ := hplaced
    exact ⟨hcall, fun candidate hmem => hextends.owner (hcandidates candidate hmem),
      fun ch hmem => (hchannels ch hmem).kept hextends⟩
  | pushing call channels =>
    obtain ⟨hcall, hchannels⟩ := hplaced
    exact ⟨hcall, fun ch hmem => (hchannels ch hmem).kept hextends⟩
  | returned err => trivial

theorem Tables.targetGroup_of_mem_listDeployedFlows {sprint : GoValue floats → String}
    (hf : f ∈ t.listDeployedFlows sprint) : f.targetGroup = contentGroup floats f.contentJSON := by
  obtain ⟨row, -, rfl⟩ := List.mem_map.mp hf
  rfl

theorem StreamMoves.placed {next : Stream} (hmove : StreamMoves h fleet t ok hub stream hub' next)
    (hplaced : stream.Placed floats fleet hub) : next.Placed floats fleet hub' := by
  cases hmove with
  | published hruntime =>
    change (hub.publish _ _).ownerOf _ = _
    rw [Hub.ownerOf_publish, if_pos rfl]
  | grouped =>
    refine ⟨hplaced, ?_⟩
    split
    · exact .inr rfl
    · exact .inl rfl
  | listed =>
    exact ⟨hplaced.1, hplaced.2, fun _ hf => Tables.targetGroup_of_mem_listDeployedFlows hf⟩
  | unlisted | settled => exact hplaced.1
  | skipped | dropped => exact ⟨hplaced.1, hplaced.2.1, fun f hf => hplaced.2.2 f (.tail _ hf)⟩
  | requeued hgroup hoffer =>
    exact ⟨(Hub.extends_of_offer hoffer).owner hplaced.1, hplaced.2.1,
      fun f hf => hplaced.2.2 f (.tail _ hf)⟩
  | sent hsend =>
    exact (Hub.Extends.of_eq (Hub.ownerOf_send hsend) (Hub.historyOf_send hsend)).owner hplaced
  | rejected | ended => trivial

theorem Hub.mem_candidates : (runtimeID, ch) ∈ hub.candidates ↔ hub.Publishes runtimeID ch := by
  unfold candidates
  rw [List.mem_filterMap]
  constructor
  · rintro ⟨⟨id, rt⟩, hentry, hch⟩
    obtain ⟨ch', hch', heq⟩ := Option.map_eq_some_iff.mp hch
    cases heq
    exact ⟨rt, AList.mem_lookup_iff.mpr hentry, hch'⟩
  · rintro ⟨rt, hruntime, hch⟩
    exact ⟨⟨runtimeID, rt⟩, AList.mem_lookup_iff.mp hruntime, by simp [hch]⟩

variable {next : Delivery}

theorem DeliveryMoves.placed (hmove : DeliveryMoves fleet ok hub delivery hub' next)
    (hgrouped : hub.Grouped floats fleet) (hplaced : delivery.Placed floats fleet hub) :
    next.Placed floats fleet hub' := by
  cases hmove with
  | snapshot horder =>
    refine ⟨hplaced, ?_, List.forall_mem_nil _⟩
    intro candidate hmem
    exact hgrouped.published (Hub.mem_candidates.mp (horder.mem_iff.mp hmem))
  | nobody | completed | full | cancelled => trivial
  | chosen => exact ⟨hplaced.1, hplaced.2.2⟩
  | accepted haccepts =>
    obtain ⟨hcall, hcandidates, hchannels⟩ := hplaced
    refine ⟨hcall, fun candidate hmem => hcandidates candidate (.tail _ hmem), ?_⟩
    exact forall_mem_concat hchannels
      ⟨_, hcandidates _ List.mem_cons_self, Fleet.group_of_accepts haccepts⟩
  | refused haccepts =>
    obtain ⟨hcall, hcandidates, hchannels⟩ := hplaced
    exact ⟨hcall, fun candidate hmem => hcandidates candidate (.tail _ hmem), hchannels⟩
  | pushed hoffer =>
    refine ⟨hplaced.1, fun ch hmem => ?_⟩
    exact (hplaced.2 ch (.tail _ hmem)).kept (Hub.extends_of_offer hoffer)

/-! ## Groups along a run -/

theorem Hub.publishes_of_insert {rt : RuntimeState} (hnone : rt.deployCh = none)
    (hpublishes : Publishes { hub with runtimes := hub.runtimes.insert runtimeID rt } other ch) :
    hub.Publishes other ch := by
  obtain ⟨rt', hruntime, hch⟩ := hpublishes
  rcases lookup_insert_eq_some hruntime with ⟨-, rfl⟩ | hold
  · rw [hnone] at hch
    cases hch
  · exact ⟨rt', hold, hch⟩

theorem Hub.publishes_of_unpublish {ch' : Nat}
    (hpublishes : (hub.unpublish runtimeID ch').Publishes other ch) : hub.Publishes other ch := by
  unfold unpublish at hpublishes
  split at hpublishes
  · exact hpublishes
  · split at hpublishes
    · exact Hub.publishes_of_insert rfl hpublishes
    · exact hpublishes

namespace Hub.Grouped

theorem offer (hgrouped : hub.Grouped floats fleet) {cmd : Command}
    (hoffer : hub.offer ch cmd = some hub')
    (hcmd : ∀ runtimeID, hub.ownerOf ch = some runtimeID → cmd.IsFor floats fleet runtimeID) :
    hub'.Grouped floats fleet := by
  refine ⟨?_, ?_⟩
  · intro other runtimeID howner cmd' hmem
    rw [Hub.ownerOf_offer hoffer] at howner
    rw [Hub.historyOf_offer hoffer] at hmem
    rcases List.mem_append.mp hmem with hold | hnew
    · exact hgrouped.history howner cmd' hold
    · split at hnew
      next heq =>
        subst heq
        obtain rfl := List.mem_singleton.mp hnew
        exact hcmd runtimeID howner
      · cases hnew
  · intro runtimeID other hpublishes
    rw [Hub.ownerOf_offer hoffer]
    obtain ⟨c, -, -, rfl⟩ := Hub.offer_eq_some.mp hoffer
    exact hgrouped.published hpublishes

theorem of_runtimes (hgrouped : hub.Grouped floats fleet)
    (howner : hub'.ownerOf = hub.ownerOf) (hhistory : hub'.historyOf = hub.historyOf)
    (hpublishes : ∀ {runtimeID ch}, hub'.Publishes runtimeID ch → hub.Publishes runtimeID ch) :
    hub'.Grouped floats fleet := by
  refine ⟨?_, ?_⟩
  · rw [howner, hhistory]
    exact hgrouped.history
  · rw [howner]
    exact fun h => hgrouped.published (hpublishes h)

theorem publish (hgrouped : hub.Grouped floats fleet) (runtimeID : String) (rt : RuntimeState) :
    (hub.publish runtimeID rt).Grouped floats fleet := by
  refine ⟨?_, ?_⟩
  · intro ch owner howner cmd hmem
    rw [Hub.historyOf_publish] at hmem
    rw [Hub.ownerOf_publish] at howner
    split at howner
    next heq =>
      subst heq
      unfold Hub.historyOf at hmem
      rw [List.getElem?_eq_none (Nat.le_refl _)] at hmem
      cases hmem
    · exact hgrouped.history howner cmd hmem
  · rintro other ch ⟨rt', hruntime, hch⟩
    rw [Hub.ownerOf_publish]
    rcases lookup_insert_eq_some hruntime with ⟨rfl, rfl⟩ | hold
    · cases hch
      rw [if_pos rfl]
    · have howner := hgrouped.published ⟨_, hold, hch⟩
      rw [if_neg (Nat.ne_of_lt (Hub.ownerOf_lt howner))]
      exact howner

theorem register (hgrouped : hub.Grouped floats fleet) (runtimeID sessionToken : String) :
    (hub.register runtimeID sessionToken).Grouped floats fleet :=
  hgrouped.of_runtimes rfl rfl (Hub.publishes_of_insert rfl)

theorem unpublish (hgrouped : hub.Grouped floats fleet) (runtimeID : String) (ch : Nat) :
    (hub.unpublish runtimeID ch).Grouped floats fleet := by
  refine hgrouped.of_runtimes ?_ ?_ Hub.publishes_of_unpublish
  · unfold Hub.ownerOf
    rw [Hub.channels_unpublish]
  · unfold Hub.historyOf
    rw [Hub.channels_unpublish]

end Hub.Grouped

theorem isFor_of_repush {myGroup : String}
    (htarget : f.targetGroup = contentGroup floats f.contentJSON)
    (hmine : myGroup = "" ∨ myGroup = fleet.group runtimeID) (hgroup : f.isFor myGroup = true) :
    f.command.IsFor floats fleet runtimeID := by
  unfold DeployedFlow.isFor at hgroup
  rw [Bool.or_eq_true, decide_eq_true_eq, decide_eq_true_eq, htarget] at hgroup
  rcases hgroup with hnone | hsame
  · exact .inl hnone
  · rcases hmine with hnone | hown
    · exact .inl (hsame.trans hnone)
    · exact .inr (hsame.trans hown)

theorem StreamMoves.grouped_kept {next : Stream}
    (hmove : StreamMoves h fleet t ok hub stream hub' next)
    (hplaced : stream.Placed floats fleet hub) (hgrouped : hub.Grouped floats fleet) :
    hub'.Grouped floats fleet := by
  cases hmove with
  | published hruntime => exact hgrouped.publish _ _
  | requeued hgroup hoffer =>
    refine hgrouped.offer hoffer fun runtimeID howner => ?_
    obtain ⟨howner', hmine, hflows⟩ := hplaced
    obtain rfl := Option.mem_unique howner howner'
    exact isFor_of_repush (hflows _ List.mem_cons_self) hmine hgroup
  | sent hsend =>
    obtain ⟨c, cmd, queue, -, -, rfl⟩ := Hub.send_eq_some.mp hsend
    exact hgrouped.of_runtimes (Hub.ownerOf_send hsend) (Hub.historyOf_send hsend) id
  | ended => exact hgrouped.unpublish _ _
  | _ => exact hgrouped

theorem DeliveryMoves.grouped_kept (hmove : DeliveryMoves fleet ok hub delivery hub' next)
    (hplaced : delivery.Placed floats fleet hub) (hgrouped : hub.Grouped floats fleet) :
    hub'.Grouped floats fleet := by
  cases hmove with
  | pushed hoffer =>
    refine hgrouped.offer hoffer fun runtimeID howner => ?_
    obtain ⟨hcall, hchannels⟩ := hplaced
    obtain ⟨runtimeID', howner', hgroup⟩ := hchannels _ List.mem_cons_self
    obtain rfl := Option.mem_unique howner howner'
    rw [hcall] at hgroup
    exact hgroup
  | _ => exact hgrouped

end Steps

namespace Plane

variable {s s' : Plane floats}

structure Grouped (fleet : Fleet) (s : Plane floats) : Prop where
  hub : s.hub.Grouped floats fleet
  streams : ∀ stream ∈ s.streams, stream.Placed floats fleet s.hub
  deliveries : ∀ delivery ∈ s.deliveries, delivery.Placed floats fleet s.hub

theorem Steps.grouped {a : PlaneAction floats} (hstep : Steps h fleet s a s')
    (hgrouped : s.Grouped fleet) : s'.Grouped fleet := by
  obtain ⟨hhub, hstreams, hdeliveries⟩ := hgrouped
  have hextends := hstep.extends
  have hstreams' : ∀ stream ∈ s.streams, stream.Placed floats fleet s'.hub :=
    fun stream hmem => (hstreams stream hmem).kept hextends
  have hdeliveries' : ∀ delivery ∈ s.deliveries, delivery.Placed floats fleet s'.hub :=
    fun delivery hmem => (hdeliveries delivery hmem).kept hextends
  cases hstep with
  | request hservice =>
    refine ⟨hhub, hstreams, ?_⟩
    intro delivery hmem
    rcases List.mem_append.mp hmem with hold | hnew
    · exact hdeliveries delivery hold
    · obtain ⟨call, hcall, rfl⟩ := List.mem_map.mp hnew
      obtain ⟨job, env, defaultErrorFlow, stored, alone, -, rfl⟩ := mem_newCalls hservice hcall
      exact (contentGroup_of_parse (Format.parse_marshalCanonical job.file)).symm
  | register => exact ⟨hhub.register _ _, hstreams', hdeliveries'⟩
  | connect => exact ⟨hhub, forall_mem_concat hstreams trivial, hdeliveries⟩
  | stream hstream hmove =>
    have hplaced := hstreams _ (List.mem_of_getElem? hstream)
    exact ⟨hmove.grouped_kept hplaced hhub, forall_mem_set hstreams' (hmove.placed hplaced),
      hdeliveries'⟩
  | deliver hdelivery hmove =>
    have hplaced := hdeliveries _ (List.mem_of_getElem? hdelivery)
    exact ⟨hmove.grouped_kept hplaced hhub, hstreams',
      forall_mem_set hdeliveries' (hmove.placed hhub hplaced)⟩

structure Quiet (s : Plane floats) : Prop where
  channels : s.hub.channels = []
  runtimes : s.hub.runtimes = ∅
  streams : s.streams = []
  deliveries : s.deliveries = []

theorem Quiet.grouped (hquiet : s.Quiet) : s.Grouped fleet := by
  refine ⟨⟨?_, ?_⟩, ?_, ?_⟩
  · intro ch runtimeID howner
    have hlt := Hub.ownerOf_lt howner
    rw [hquiet.channels] at hlt
    exact absurd hlt (Nat.not_lt_zero ch)
  · rintro runtimeID ch ⟨rt, hruntime, -⟩
    rw [hquiet.runtimes] at hruntime
    cases hruntime
  · rw [hquiet.streams]
    exact List.forall_mem_nil _
  · rw [hquiet.deliveries]
    exact List.forall_mem_nil _

end Plane

/-! ## What a stream queues before it sends -/

def Tables.Referenced (t : Tables) : Prop :=
  ∀ row ∈ t.flows, ∀ version ∈ row.deployedVersion,
    (t.version row.id version).isSome ∧ (t.project row.projectID).isSome

instance (t : Tables) : Decidable t.Referenced := by
  unfold Tables.Referenced
  infer_instance

theorem Tables.mem_listDeployedFlows {t : Tables} (hreferenced : t.Referenced)
    (sprint : GoValue floats → String) {row : FlowRow} (hrow : row ∈ t.flows) {version : Nat}
    (hdeployed : row.deployedVersion = some version) {stored : VersionRow}
    (hstored : t.version row.id version = some stored) :
    ∃ f ∈ t.listDeployedFlows sprint, f.flowID = row.id ∧ f.version = version ∧
      f.contentJSON = stored.content ∧ f.targetGroup = contentGroup floats stored.content := by
  obtain ⟨-, hproject⟩ := hreferenced row hrow version hdeployed
  obtain ⟨project, hproject⟩ := Option.isSome_iff_exists.mp hproject
  obtain ⟨-, -, hversion⟩ := Tables.version_eq_some hstored
  have hlisted : t.deployedRow row = some
      { flowID := row.id
        version := stored.version
        content := stored.content
        defaultErrorFlow := project.defaultErrorFlow
        logLevel := row.logLevel
        activeProfileID := row.activeProfileID } := by
    simp only [Tables.deployedRow, hdeployed, Option.bind_some, hstored, hproject, Option.map_some]
  exact ⟨_, List.mem_map_of_mem (List.mem_filterMap.mpr ⟨row, hrow, hlisted⟩), rfl, hversion,
    rfl, rfl⟩

namespace Plane

variable {s s' : Plane floats}

/--
The lookups of a stream succeed on tables whose references hold, and the channel has room
for every flow that is queued again.
-/
def Unhindered (s : Plane floats) : PlaneAction floats → Prop
  | .stream index ok =>
    match s.streams[index]? with
    | some (.grouping _ _) => ok = true
    | some (.listing _ _ _) => ok = true ∧ s.tables.Referenced
    | some (.repushing _ ch myGroup (f :: _)) =>
      f.isFor myGroup = true → (s.hub.offer ch f.command).isSome
    | _ => True
  | _ => True

instance (s : Plane floats) (a : PlaneAction floats) : Decidable (s.Unhindered a) := by
  cases a with
  | stream index ok =>
    unfold Unhindered
    dsimp only
    split <;> infer_instance
  | _ => exact instDecidableTrue

/-- Of the flows that were listed, those of the group are in the channel or still to come. -/
def Restoring (listed : List DeployedFlow) (ch : Nat) (myGroup : String) (hub : Hub) :
    Stream → Prop
  | .repushing _ ch' myGroup' flows => ch' = ch ∧ myGroup' = myGroup ∧
      ∀ f ∈ listed, f.isFor myGroup = true → f ∈ flows ∨ f.command ∈ hub.historyOf ch
  | .sending _ ch' => ch' = ch ∧ ∀ f ∈ listed, f.isFor myGroup = true → f.command ∈ hub.historyOf ch
  | .closed => True
  | _ => False

variable {ch index : Nat} {myGroup : String} {stream : Stream} {listed : List DeployedFlow}
  {hub hub' : Hub} {ok : Bool} {actions : List (PlaneAction floats)}

theorem Restoring.kept (hrestoring : Restoring listed ch myGroup hub stream)
    (hextends : hub.Extends hub') : Restoring listed ch myGroup hub' stream := by
  have hkept : ∀ cmd ∈ hub.historyOf ch, cmd ∈ hub'.historyOf ch :=
    fun cmd hcmd => (hextends.history ch).subset hcmd
  cases stream with
  | repushing runtimeID ch' myGroup' flows =>
    obtain ⟨hch, hgroup, hflows⟩ := hrestoring
    exact ⟨hch, hgroup, fun f hf hfor => (hflows f hf hfor).imp id (hkept _)⟩
  | sending runtimeID ch' =>
    obtain ⟨hch, hflows⟩ := hrestoring
    exact ⟨hch, fun f hf hfor => hkept _ (hflows f hf hfor)⟩
  | closed => trivial
  | opening | grouping | listing => exact hrestoring

variable {next : Stream} {t : Tables}

theorem Restoring.step (hrestoring : Restoring listed ch myGroup hub stream)
    (hroom : ∀ runtimeID ch' myGroup' f flows,
      stream = .repushing runtimeID ch' myGroup' (f :: flows) →
      f.isFor myGroup' = true → (hub.offer ch' f.command).isSome)
    (hmove : StreamMoves h fleet t ok hub stream hub' next) :
    Restoring listed ch myGroup hub' next := by
  have hkept := hrestoring.kept hmove.extends
  cases hmove with
  | settled =>
    obtain ⟨rfl, rfl, hflows⟩ := hrestoring
    exact ⟨rfl, fun f hf hfor => (hflows f hf hfor).resolve_left (List.not_mem_nil)⟩
  | skipped hgroup =>
    obtain ⟨rfl, rfl, hflows⟩ := hrestoring
    refine ⟨rfl, rfl, fun f hf hfor => (hflows f hf hfor).imp (fun hmem => ?_) id⟩
    rcases List.mem_cons.mp hmem with rfl | hrest
    · rw [hgroup] at hfor
      cases hfor
    · exact hrest
  | requeued hgroup hoffer =>
    obtain ⟨rfl, rfl, hflows⟩ := hkept
    refine ⟨rfl, rfl, fun f hf hfor => ?_⟩
    rcases hflows f hf hfor with hmem | hqueued
    · rcases List.mem_cons.mp hmem with rfl | hrest
      · right
        rw [Hub.historyOf_offer hoffer, if_pos rfl]
        exact List.mem_append_right _ List.mem_cons_self
      · exact .inl hrest
    · exact .inr hqueued
  | dropped hgroup hoffer =>
    have hsome := hroom _ _ _ _ _ rfl hgroup
    rw [hoffer] at hsome
    cases hsome
  | sent => exact hkept
  | ended => trivial
  | rejected | published | grouped | listed | unlisted => exact hrestoring.elim

theorem Unhindered.room (hok : s.Unhindered (.stream index ok))
    (hstream : s.streams[index]? = some stream) :
    ∀ runtimeID ch myGroup f flows, stream = .repushing runtimeID ch myGroup (f :: flows) →
      f.isFor myGroup = true → (s.hub.offer ch f.command).isSome := by
  rintro runtimeID ch myGroup f flows rfl
  simp only [Unhindered, hstream] at hok
  exact hok

theorem run_restoring
    (hinit : ∃ stream, s.streams[index]? = some stream ∧ Restoring listed ch myGroup s.hub stream)
    (hmeets : Meets (step h fleet) Unhindered s actions)
    (hrun : run (step h fleet) s actions = some s') : ∃ stream, s'.streams[index]? = some stream ∧
      Restoring listed ch myGroup s'.hub stream := by
  refine @run_invariant_of_meets _ _ _ (fun s : Plane floats => ∃ stream,
    s.streams[index]? = some stream ∧ Restoring listed ch myGroup s.hub stream) _ ?_ _ _ _
    hinit hmeets hrun
  rintro s a s' ⟨stream, hstream, hrestoring⟩ hok hstep
  have hextends := (steps_of_step hstep).extends
  cases steps_of_step hstep with
  | request => exact ⟨stream, hstream, hrestoring⟩
  | register | deliver => exact ⟨stream, hstream, hrestoring.kept hextends⟩
  | connect =>
    refine ⟨stream, ?_, hrestoring⟩
    rw [List.getElem?_append_left (List.getElem?_eq_some_iff.mp hstream).1]
    exact hstream
  | @stream i _ moved next _ hmoved hmove =>
    by_cases heq : i = index
    · subst heq
      obtain rfl := Option.mem_unique hmoved hstream
      exact ⟨next, getElem?_set_of_getElem? hmoved next, hrestoring.step (hok.room hmoved) hmove⟩
    · refine ⟨stream, ?_, hrestoring.kept hextends⟩
      rw [List.getElem?_set_ne heq]
      exact hstream

theorem restoring_of_listing (hlisting : s.streams[index]? = some (.listing runtimeID ch myGroup))
    (hstep : s.step h fleet (.stream index true) = some s') :
    ∃ stream, s'.streams[index]? = some stream ∧
      Restoring (s.tables.listDeployedFlows h.sprint) ch myGroup s'.hub stream := by
  simp only [step, advanceAt, hlisting, Stream.advance, if_true, Option.map_some,
    Option.some.injEq] at hstep
  subst hstep
  exact ⟨.repushing runtimeID ch myGroup (s.tables.listDeployedFlows h.sprint),
    getElem?_set_of_getElem? hlisting _, rfl, rfl, fun f hf _ => .inl hf⟩

/-! ## The group of the runtime, and sending -/

def Knows (fleet : Fleet) : Stream → Prop
  | .listing runtimeID _ myGroup => myGroup = fleet.group runtimeID
  | .repushing runtimeID _ myGroup _ => myGroup = fleet.group runtimeID
  | _ => True

theorem knows_of_move (hknows : Knows fleet stream)
    (hok : ∀ runtimeID ch, stream = .grouping runtimeID ch → ok = true)
    (hmove : StreamMoves h fleet t ok hub stream hub' next) : Knows fleet next := by
  cases hmove with
  | grouped => exact if_pos (hok _ _ rfl)
  | listed | skipped | requeued | dropped => exact hknows
  | _ => trivial

def GroupsKnown (s : Plane floats) : PlaneAction floats → Prop
  | .stream index ok =>
    ∀ runtimeID ch, s.streams[index]? = some (.grouping runtimeID ch) → ok = true
  | _ => True

theorem Unhindered.groupsKnown {a : PlaneAction floats} (hok : s.Unhindered a) :
    s.GroupsKnown a := by
  cases a with
  | stream index ok =>
    intro runtimeID ch hstream
    simp only [Unhindered, hstream] at hok
    exact hok
  | _ => trivial

theorem run_knows {s₀ : Plane floats} (hquiet : s₀.Quiet)
    (hmeets : Meets (step h fleet) GroupsKnown s₀ actions)
    (hrun : run (step h fleet) s₀ actions = some s) : ∀ stream ∈ s.streams, Knows fleet stream := by
  refine @run_invariant_of_meets _ _ _
    (fun s : Plane floats => ∀ stream ∈ s.streams, Knows fleet stream) _ ?_ _ _ _ ?_ hmeets hrun
  · intro s a s' hknows hok hstep
    cases steps_of_step hstep with
    | connect => exact forall_mem_concat hknows trivial
    | stream hstream hmove =>
      have hthis := hknows _ (List.mem_of_getElem? hstream)
      refine forall_mem_set hknows (knows_of_move hthis ?_ hmove)
      rintro runtimeID ch rfl
      exact hok runtimeID ch hstream
    | _ => exact hknows
  · rw [hquiet.streams]
    exact List.forall_mem_nil _

theorem drain {c : Channel} (hstream : s.streams[index]? = some (.sending runtimeID ch))
    (hc : s.hub.channels[ch]? = some c) :
    ∃ s' c', run (step h fleet) s (List.replicate c.queue.length (.stream index true)) = some s' ∧
      s'.hub.channels[ch]? = some c' ∧ c'.sent = c.history := by
  generalize hqueue : c.queue = queue
  induction queue generalizing s c with
  | nil => exact ⟨s, c, rfl, hc, by rw [Channel.history, hqueue, List.append_nil]⟩
  | cons cmd queue ih =>
    have hset := getElem?_set_of_getElem? hc { c with queue, sent := c.sent ++ [cmd] }
    have hstep : s.step h fleet (.stream index true) = some { s with
        hub := { s.hub with
          channels := s.hub.channels.set ch { c with queue, sent := c.sent ++ [cmd] } }
        streams := s.streams.set index (.sending runtimeID ch) } := by
      simp [step, advanceAt, hstream, Stream.advance, Hub.send, hc, hqueue]
    have hstream' := getElem?_set_of_getElem? hstream (.sending runtimeID ch)
    obtain ⟨s', c', hrun, hc', hsent⟩ := ih
      (s := { s with
        hub := { s.hub with
          channels := s.hub.channels.set ch { c with queue, sent := c.sent ++ [cmd] } }
        streams := s.streams.set index (.sending runtimeID ch) }) hstream' hset rfl
    refine ⟨s', c', run_cons_eq_some.mpr ⟨_, hstep, hrun⟩, hc', ?_⟩
    rw [hsent, Channel.history, Channel.history, hqueue, List.append_assoc]
    rfl

end Plane

/--
In a run in which no stream is hindered, let a stream list the deployed flows in the state
`s₁` and be sending in the state `s₂`.  Every flow that had a deployed version in `s₁` and is
for every runtime or for the group of this one is sent when the stream goes on, and what
it has sent is for this runtime.
-/
theorem reconnect_restores (h : Handlers floats) (fleet : Fleet) {s₀ s₁ s₂ : Plane floats}
    {actions more : List (PlaneAction floats)} {index : Nat} {ok : Bool}
    {runtimeID myGroup : String} {ch : Nat} (hquiet : s₀.Quiet)
    (hmeets : Meets (Plane.step h fleet) Plane.Unhindered s₀ (actions ++ .stream index ok :: more))
    (hbefore : run (Plane.step h fleet) s₀ actions = some s₁)
    (hlisting : s₁.streams[index]? = some (.listing runtimeID ch myGroup))
    (hafter : run (Plane.step h fleet) s₁ (.stream index ok :: more) = some s₂)
    (hsending : s₂.streams[index]? = some (.sending runtimeID ch)) :
    (∀ row ∈ s₁.tables.flows, ∀ version stored, row.deployedVersion = some version →
      s₁.tables.version row.id version = some stored →
      (contentGroup floats stored.content = "" ∨
        contentGroup floats stored.content = fleet.group runtimeID) →
      ∃ n s₃ c cmd, run (Plane.step h fleet) s₂ (List.replicate n (.stream index true)) = some s₃ ∧
        s₃.hub.channels[ch]? = some c ∧ cmd ∈ c.sent ∧ cmd.flowID = row.id ∧
        cmd.version = version ∧ cmd.flowJSON = stored.content) ∧
    (∀ c, s₂.hub.channels[ch]? = some c → ∀ cmd ∈ c.sent,
      contentGroup floats cmd.flowJSON = "" ∨
        contentGroup floats cmd.flowJSON = fleet.group runtimeID) := by
  have hgrouped : s₂.Grouped fleet :=
    run_invariant (fun hgrouped hstep => (Plane.steps_of_step hstep).grouped hgrouped)
      hquiet.grouped (run_append_eq_some.mpr ⟨s₁, hbefore, hafter⟩)
  have howner : s₂.hub.ownerOf ch = some runtimeID :=
    hgrouped.streams _ (List.mem_of_getElem? hsending)
  obtain ⟨c, hc, -⟩ := Option.map_eq_some_iff.mp howner
  refine ⟨?_, ?_⟩
  · intro row hrow version stored hdeployed hstored hgroup
    obtain ⟨hok, hrest⟩ := hmeets.drop hbefore
    obtain ⟨s₁', hstep, hmore⟩ := run_cons_eq_some.mp hafter
    simp only [Plane.Unhindered, hlisting] at hok
    obtain ⟨rfl, hreferenced⟩ := hok
    -- the stream knows the group of its runtime
    have hmine : myGroup = fleet.group runtimeID := by
      refine Plane.run_knows hquiet (Meets.imp ?_ hmeets.take) hbefore _
        (List.mem_of_getElem? hlisting)
      exact fun _ _ hunhindered => hunhindered.groupsKnown
    obtain ⟨stream, hstream, hrestored⟩ :=
      Plane.run_restoring (Plane.restoring_of_listing hlisting hstep) (hrest _ hstep) hmore
    obtain rfl := Option.mem_unique hstream hsending
    obtain ⟨f, hf, hid, hversion, hcontent, htarget⟩ :=
      Tables.mem_listDeployedFlows hreferenced h.sprint hrow hdeployed hstored
    have hfor : f.isFor myGroup = true := by
      rw [DeployedFlow.isFor, Bool.or_eq_true, decide_eq_true_eq, decide_eq_true_eq, htarget, hmine]
      exact hgroup
    have hqueued : f.command ∈ c.history := by
      have hmem := hrestored.2 f hf hfor
      rw [Hub.historyOf, hc] at hmem
      exact hmem
    obtain ⟨s₃, c', hdrain, hc', hsent⟩ := @Plane.drain _ h fleet _ _ _ _ _ hsending hc
    exact ⟨_, s₃, c', f.command, hdrain, hc', hsent ▸ hqueued, hid, hversion, hcontent⟩
  · intro c' hc' cmd hcmd
    obtain rfl := Option.mem_unique hc hc'
    refine hgrouped.hub.history howner cmd ?_
    rw [Hub.historyOf, hc]
    exact List.mem_append_left _ hcmd

/-- A control plane with `n` deployed flows, each for every runtime. -/
def planeWith (n : Nat) : Plane Format.exactFloats where
  service := { shared := { tables :=
    { flows := (List.range n).map fun i =>
        { id := toString i
          projectID := "p"
          name := "flow"
          draftContent := "\x7b\x7d".toList
          deployedVersion := some 1
          createdAt := ""
          updatedAt := "" }
      versions := (List.range n).map fun i =>
        { flowID := toString i
          version := 1
          content := "\x7b\x7d".toList
          author := ""
          comment := ""
          createdAt := ""
          deployedAt := none }
      projects := [{ id := "p" }] } } }

def noGroups : Fleet := ⟨none⟩

def connectActions : List (PlaneAction Format.exactFloats) :=
  [.register "r" "token", .connect "r" "token", .stream 0 true, .stream 0 true]

/-- The stream of the runtime `r`, on the first channel, lists or sends. -/
def Stream.listsFirst : Stream → Bool
  | .listing runtimeID ch myGroup => runtimeID = "r" && ch = 0 && myGroup = ""
  | _ => false

def Stream.sendsFirst : Stream → Bool
  | .sending runtimeID ch => runtimeID = "r" && ch = 0
  | _ => false

variable {stream : Stream}

theorem Stream.eq_of_listsFirst (hstream : stream.listsFirst = true) :
    stream = .listing "r" 0 "" := by
  cases stream <;> simp_all [listsFirst]

theorem Stream.eq_of_sendsFirst (hstream : stream.sendsFirst = true) : stream = .sending "r" 0 := by
  cases stream <;> simp_all [sendsFirst]

theorem reconnect_restores_two :
    ∃ s₁ s₂, run (Plane.step smallHandlers noGroups) (planeWith 2) connectActions = some s₁ ∧
      run (Plane.step smallHandlers noGroups) s₁ (List.replicate 4 (.stream 0 true)) = some s₂ ∧
      s₁.tables.flows.length = 2 ∧
      ∀ row ∈ s₁.tables.flows, ∃ n s₃ c cmd,
        run (Plane.step smallHandlers noGroups) s₂ (List.replicate n (.stream 0 true)) = some s₃ ∧
        s₃.hub.channels[0]? = some c ∧ cmd ∈ c.sent ∧ cmd.flowID = row.id := by
  obtain ⟨s₁, hbefore, ⟨stream₁, hstream₁, hlists⟩, hlength, hflows, s₂, hafter, stream₂, hstream₂,
      hsends⟩ :
      ∃ s₁, run (Plane.step smallHandlers noGroups) (planeWith 2) connectActions = some s₁ ∧
        (∃ stream : Stream, s₁.streams[0]? = some stream ∧ stream.listsFirst) ∧
        s₁.tables.flows.length = 2 ∧
        (∀ row ∈ s₁.tables.flows, row.deployedVersion = some 1 ∧
          ∃ stored, s₁.tables.version row.id 1 = some stored ∧
            contentGroup Format.exactFloats stored.content = "") ∧
        ∃ s₂, run (Plane.step smallHandlers noGroups) s₁
            (List.replicate 4 (.stream 0 true)) = some s₂ ∧
          ∃ stream : Stream, s₂.streams[0]? = some stream ∧ stream.sendsFirst := by
    decide +kernel
  obtain rfl := Stream.eq_of_listsFirst hlists
  obtain rfl := Stream.eq_of_sendsFirst hsends
  refine ⟨s₁, s₂, hbefore, hafter, hlength, fun row hrow => ?_⟩
  obtain ⟨hdeployed, stored, hstored, hgroup⟩ := hflows row hrow
  obtain ⟨n, s₃, c, cmd, hrun, hc, hcmd, hid, -⟩ :=
    (reconnect_restores smallHandlers noGroups ⟨rfl, rfl, rfl, rfl⟩ (by decide +kernel) hbefore
      hstream₁ hafter hstream₂).1 row hrow 1 stored hdeployed hstored (.inl hgroup)
  exact ⟨n, s₃, c, cmd, hrun, hc, hcmd, hid⟩

/-- The list is queued up to the eighth flow, and the stream sends what is queued. -/
theorem ninth_flow_never_sent :
    ∃ s, ∃ c : Channel, ∃ row stored, run (Plane.step smallHandlers noGroups) (planeWith 9)
        (connectActions ++ List.replicate 19 (PlaneAction.stream 0 true)) = some s ∧
      s.streams[0]? = some (.sending "r" 0) ∧
      row ∈ s.tables.flows ∧ row.deployedVersion = some 1 ∧
      s.tables.version row.id 1 = some stored ∧
      contentGroup Format.exactFloats stored.content = "" ∧
      s.hub.channels[0]? = some c ∧ c.queue = [] ∧ ∀ cmd ∈ c.sent, cmd.flowID ≠ row.id := by
  obtain ⟨s, hrun, ⟨stream, hstream, hsends⟩, c, hc, hqueue, row, hrow, hdeployed, hsent, stored,
      hstored, hgroup⟩ :
      ∃ s, run (Plane.step smallHandlers noGroups) (planeWith 9)
          (connectActions ++ List.replicate 19 (PlaneAction.stream 0 true)) = some s ∧
        (∃ stream : Stream, s.streams[0]? = some stream ∧ stream.sendsFirst) ∧
        ∃ c : Channel, s.hub.channels[0]? = some c ∧ c.queue.isEmpty ∧
          ∃ row ∈ s.tables.flows, row.deployedVersion = some 1 ∧
            (∀ cmd ∈ c.sent, cmd.flowID ≠ row.id) ∧
            ∃ stored, s.tables.version row.id 1 = some stored ∧
              contentGroup Format.exactFloats stored.content = "" := by
    decide +kernel
  obtain rfl := Stream.eq_of_sendsFirst hsends
  exact ⟨s, c, row, stored, hrun, hstream, hrow, hdeployed, hstored, hgroup, hc,
    List.isEmpty_iff.mp hqueue, hsent⟩

end DataPipe.ControlPlane
