import DataPipe.ControlPlane.CheckedContent
import DataPipe.ControlPlane.Reconnect

/-!
# The newest version on every stream

A request creates a version and pushes it in separate steps, and a stream lists the
deployed flows and queues them in separate steps.  When every push happens while its
version is still the deployed one, every connected runtime ends up with the newest version;
a push that comes late puts an older version behind a newer one.
-/

set_option linter.dupNamespace false

namespace DataPipe.ControlPlane

open DataPipe.Foundation DataPipe.Flow

variable {floats : Float64Text} {h : Handlers floats} {fleet : Fleet}

/-! ## Deployed versions and last commands -/

def Tables.Current (t : Tables) (id : String) (version : Nat) : Prop :=
  ∃ row ∈ t.flow id, row.deployedVersion = some version

instance (t : Tables) (id : String) (version : Nat) : Decidable (t.Current id version) := by
  unfold Tables.Current
  infer_instance

variable {id : String} {ch v : Nat} {hub hub' : Hub} {t : Tables} {cmd : Command} {f : DeployedFlow}

theorem Tables.Current.unique {w : Nat} (hv : t.Current id v) (hw : t.Current id w) : v = w := by
  obtain ⟨row, hrow, hv⟩ := hv
  obtain ⟨row', hrow', hw⟩ := hw
  obtain rfl := Option.some.inj ((Option.mem_def.mp hrow).symm.trans hrow')
  exact Option.mem_unique hv hw

def lastFor (id : String) (cmds : List Command) : Option Command :=
  (cmds.filter (·.flowID = id)).getLast?

theorem lastFor_concat (id : String) (cmds : List Command) (cmd : Command) :
    lastFor id (cmds ++ [cmd]) = if cmd.flowID = id then some cmd else lastFor id cmds := by
  unfold lastFor
  by_cases hid : cmd.flowID = id <;> simp [hid]

def Hub.EndsWith (hub : Hub) (ch : Nat) (id : String) (version : Nat) : Prop :=
  ∃ cmd, lastFor id (hub.historyOf ch) = some cmd ∧ cmd.version = version

theorem Hub.EndsWith.offer_self (hoffer : hub.offer ch cmd = some hub') :
    hub'.EndsWith ch cmd.flowID cmd.version := by
  refine ⟨cmd, ?_, rfl⟩
  rw [Hub.historyOf_offer hoffer, if_pos rfl, lastFor_concat, if_pos rfl]

theorem Hub.EndsWith.offer {other : Nat} (hends : hub.EndsWith other id v)
    (hoffer : hub.offer ch cmd = some hub') (hcmd : t.Current cmd.flowID cmd.version)
    (hv : t.Current id v) : hub'.EndsWith other id v := by
  obtain ⟨last, hlast, hversion⟩ := hends
  by_cases hch : other = ch
  · subst hch
    by_cases hid : cmd.flowID = id
    · subst hid
      rw [← hcmd.unique hv]
      exact .offer_self hoffer
    · refine ⟨last, ?_, hversion⟩
      rw [Hub.historyOf_offer hoffer, if_pos rfl, lastFor_concat, if_neg hid]
      exact hlast
  · refine ⟨last, ?_, hversion⟩
    rw [Hub.historyOf_offer hoffer, if_neg hch, List.append_nil]
    exact hlast

theorem Hub.EndsWith.of_history (hends : hub.EndsWith ch id v)
    (hhistory : hub'.historyOf = hub.historyOf) : hub'.EndsWith ch id v := by
  unfold Hub.EndsWith
  rw [hhistory]
  exact hends

/-! ## Versions on their way -/

def Request.Pending (id : String) (v : Nat) : Request floats → Prop
  | .readProject job _ stored _ | .push job _ _ stored _ =>
    job.flow.id = id ∧ stored.version = v
  | _ => False

def Delivery.Pending (id : String) (v : Nat) (runtimeID : String) (ch : Nat) : Delivery → Prop
  | .calling call => call.flowID = id ∧ call.version = v
  | .filtering call candidates channels => (call.flowID = id ∧ call.version = v) ∧
      ((runtimeID, ch) ∈ candidates ∨ ch ∈ channels)
  | .pushing call channels => (call.flowID = id ∧ call.version = v) ∧ ch ∈ channels
  | .returned _ => False

def Stream.Pending (id : String) (v : Nat) (ch : Nat) : Stream → Prop
  | .grouping _ ch' | .listing _ ch' _ => ch' = ch
  | .repushing _ ch' _ flows => ch' = ch ∧ ∃ f ∈ flows, f.flowID = id ∧ f.version = v
  | _ => False

namespace Plane

variable {s s' : Plane floats}

structure Wanted (fleet : Fleet) (s : Plane floats) (id : String) (v : Nat)
    (runtimeID : String) (ch : Nat) : Prop where
  current : s.tables.Current id v
  group : ∃ stored, s.tables.version id v = some stored ∧
    (contentGroup floats stored.content = "" ∨
      contentGroup floats stored.content = fleet.group runtimeID)
  published : s.hub.Publishes runtimeID ch

inductive Covered (s : Plane floats) (id : String) (v : Nat) (runtimeID : String) (ch : Nat) :
    Prop
  | queued (hends : s.hub.EndsWith ch id v)
  | requested (request : Request floats) (hmem : request ∈ s.service.requests)
      (hpending : request.Pending id v)
  | called (delivery : Delivery) (hmem : delivery ∈ s.deliveries)
      (hpending : delivery.Pending id v runtimeID ch)
  | listed (stream : Stream) (hmem : stream ∈ s.streams) (hpending : stream.Pending id v ch)

def Newest (fleet : Fleet) (s : Plane floats) : Prop :=
  ∀ id v runtimeID ch, s.Wanted fleet id v runtimeID ch → s.Covered id v runtimeID ch

end Plane

/-! ## Conditions on the steps -/

def Request.ProjectFound (t : Tables) (ok : Bool) : Request floats → Prop
  | .readProject job _ _ _ => ok = true ∧ (t.project job.flow.projectID).isSome
  | _ => True

instance (t : Tables) (ok : Bool) (request : Request floats) :
    Decidable (request.ProjectFound t ok) :=
  match request with
  | .readProject job _ _ _ =>
    inferInstanceAs (Decidable (ok = true ∧ (t.project job.flow.projectID).isSome))
  | .createFlow .. | .updateFlow .. | .readForUpdate .. | .writeDraft .. | .deployFlow ..
  | .selectProfile .. | .rollbackFlow .. | .readVersion .. | .readForRestore ..
  | .restoreDraft .. | .resolveEnv .. | .readDraft .. | .commit .. | .push .. | .deployed ..
  | .done | .failed .. => isTrue trivial

def Stream.Timely (t : Tables) : Stream → Prop
  | .repushing _ _ myGroup (f :: _) => f.isFor myGroup = true → t.Current f.flowID f.version
  | _ => True

instance (t : Tables) (stream : Stream) : Decidable (stream.Timely t) := by
  unfold Stream.Timely
  split <;> infer_instance

def Delivery.Timely (t : Tables) (hub : Hub) (ok : Bool) : Delivery → Prop
  | .filtering _ (_ :: _) _ => ok = true
  | .pushing call (ch :: _) => ok = true ∧ (hub.offer ch call.command).isSome ∧
      t.Current call.flowID call.version
  | _ => True

instance (t : Tables) (hub : Hub) (ok : Bool) (delivery : Delivery) :
    Decidable (delivery.Timely t hub ok) := by
  unfold Delivery.Timely
  split <;> infer_instance

namespace Plane

variable {s s' : Plane floats}

def Timely (s : Plane floats) : PlaneAction floats → Prop
  | .request (.advance index _ ok) => ∀ request ∈ s.service.requests[index]?,
      DraftUnchanged s.service.shared request ∧ request.ProjectFound s.tables ok
  | .stream index ok => s.Unhindered (.stream index ok) ∧
      ∀ stream ∈ s.streams[index]?, stream.Timely s.tables
  | .deliver index _ ok => ∀ delivery ∈ s.deliveries[index]?,
      delivery.Timely s.tables s.hub ok
  | _ => True

instance (s : Plane floats) (a : PlaneAction floats) : Decidable (s.Timely a) :=
  match a with
  | .request (.arrive _) => isTrue trivial
  | .request (.advance index _ ok) =>
    inferInstanceAs (Decidable (∀ request ∈ s.service.requests[index]?,
      DraftUnchanged s.service.shared request ∧ request.ProjectFound s.tables ok))
  | .register _ _ => isTrue trivial
  | .connect _ _ => isTrue trivial
  | .stream index ok =>
    inferInstanceAs (Decidable (s.Unhindered (.stream index ok) ∧
      ∀ stream ∈ s.streams[index]?, stream.Timely s.tables))
  | .deliver index _ ok =>
    inferInstanceAs (Decidable (∀ delivery ∈ s.deliveries[index]?,
      delivery.Timely s.tables s.hub ok))

theorem Timely.meeting {a : ServiceAction floats} (hok : s.Timely (.request a)) :
    s.service.Meeting DraftUnchanged a := by
  cases a with
  | arrive request => trivial
  | advance index now ok => exact fun request hrequest => (hok request hrequest).1

end Plane

/-! ## What is on its way belongs to a stored version -/

def Command.Carries (floats : Float64Text) (t : Tables) (cmd : Command) : Prop :=
  ∃ stored, t.version cmd.flowID cmd.version = some stored ∧
    (cmd.flowJSON = stored.content ∨
      ∃ file, Format.parse floats stored.content = some file ∧
        cmd.flowJSON = file.marshalCanonical)

def Delivery.call? : Delivery → Option DeployFlowCall
  | .calling call | .filtering call _ _ | .pushing call _ => some call
  | .returned _ => none

def Stream.Lists (t : Tables) : Stream → Prop
  | .repushing _ _ _ flows => ∀ f ∈ flows, ∃ stored,
      t.version f.flowID f.version = some stored ∧ f.contentJSON = stored.content
  | _ => True

section Carried

variable {t' : Tables} {ok : Bool}

theorem Command.Carries.kept (hcarries : cmd.Carries floats t)
    (hgrows : t.versions <+: t'.versions) : cmd.Carries floats t' := by
  obtain ⟨stored, hstored, hcontent⟩ := hcarries
  exact ⟨stored, Tables.version_of_append hgrows hstored, hcontent⟩

variable {stream : Stream}

theorem Stream.Lists.kept (hlists : stream.Lists t) (hgrows : t.versions <+: t'.versions) :
    stream.Lists t' := by
  cases stream with
  | repushing runtimeID ch myGroup flows =>
    intro f hf
    obtain ⟨stored, hstored, hcontent⟩ := hlists f hf
    exact ⟨stored, Tables.version_of_append hgrows hstored, hcontent⟩
  | _ => trivial

theorem Tables.version_of_mem_listDeployedFlows {sprint : GoValue floats → String}
    (hf : f ∈ t.listDeployedFlows sprint) :
    ∃ stored, t.version f.flowID f.version = some stored ∧ f.contentJSON = stored.content := by
  obtain ⟨listed, hlisted, rfl⟩ := List.mem_map.mp hf
  obtain ⟨row, -, hrow⟩ := List.mem_filterMap.mp hlisted
  obtain ⟨number, -, hrow⟩ := Option.bind_eq_some_iff.mp hrow
  obtain ⟨stored, hstored, hrow⟩ := Option.bind_eq_some_iff.mp hrow
  obtain ⟨project, -, rfl⟩ := Option.map_eq_some_iff.mp hrow
  obtain ⟨-, -, hnumber⟩ := Tables.version_eq_some hstored
  exact ⟨stored, hnumber ▸ hstored, rfl⟩

variable {next : Stream}

theorem StreamMoves.lists (hmove : StreamMoves h fleet t ok hub stream hub' next)
    (hlists : stream.Lists t) : next.Lists t := by
  cases hmove with
  | listed => exact fun f hf => Tables.version_of_mem_listDeployedFlows hf
  | skipped | requeued | dropped => exact fun f hf => hlists f (.tail _ hf)
  | _ => trivial

theorem DeliveryMoves.call? {delivery next : Delivery}
    (hmove : DeliveryMoves fleet ok hub delivery hub' next) {call : DeployFlowCall}
    (hcall : call ∈ next.call?) : call ∈ delivery.call? := by
  cases hmove with
  | nobody | completed | full | cancelled => cases hcall
  | _ => exact hcall

theorem Command.carries_offer (hoffer : hub.offer ch cmd = some hub') (hcmd : cmd.Carries floats t)
    (hcommands : ∀ ch, ∀ cmd ∈ hub.historyOf ch, cmd.Carries floats t) :
    ∀ ch, ∀ cmd ∈ hub'.historyOf ch, cmd.Carries floats t := by
  intro other cmd' hmem
  rw [Hub.historyOf_offer hoffer] at hmem
  rcases List.mem_append.mp hmem with hold | hnew
  · exact hcommands other cmd' hold
  · split at hnew
    · exact List.mem_singleton.mp hnew ▸ hcmd
    · cases hnew

theorem StreamMoves.history (hmove : StreamMoves h fleet t ok hub stream hub' next) :
    hub'.historyOf = hub.historyOf ∨ ∃ runtimeID ch myGroup f flows,
      stream = .repushing runtimeID ch myGroup (f :: flows) ∧ f.isFor myGroup = true ∧
        hub.offer ch f.command = some hub' := by
  cases hmove with
  | published => exact .inl (Hub.historyOf_publish _ _)
  | requeued hgroup hoffer => exact .inr ⟨_, _, _, _, _, rfl, hgroup, hoffer⟩
  | sent hsend => exact .inl (Hub.historyOf_send hsend)
  | ended =>
    unfold Hub.historyOf
    rw [Hub.channels_unpublish]
    exact .inl rfl
  | _ => exact .inl rfl

theorem StreamMoves.commands (hmove : StreamMoves h fleet t ok hub stream hub' next)
    (hlists : stream.Lists t) (hcommands : ∀ ch, ∀ cmd ∈ hub.historyOf ch, cmd.Carries floats t) :
    ∀ ch, ∀ cmd ∈ hub'.historyOf ch, cmd.Carries floats t := by
  rcases hmove.history with hsame | ⟨_, _, _, f, flows, rfl, -, hoffer⟩
  · rwa [hsame]
  · obtain ⟨stored, hstored, hcontent⟩ := hlists f List.mem_cons_self
    exact Command.carries_offer hoffer ⟨stored, hstored, .inl hcontent⟩ hcommands

theorem DeliveryMoves.commands {delivery next : Delivery}
    (hmove : DeliveryMoves fleet ok hub delivery hub' next)
    (hcall : ∀ call ∈ delivery.call?, call.command.Carries floats t)
    (hcommands : ∀ ch, ∀ cmd ∈ hub.historyOf ch, cmd.Carries floats t) :
    ∀ ch, ∀ cmd ∈ hub'.historyOf ch, cmd.Carries floats t := by
  cases hmove with
  | pushed hoffer => exact Command.carries_offer hoffer (hcall _ rfl) hcommands
  | _ => exact hcommands

end Carried

namespace Plane

variable {s s' : Plane floats}

structure Sound (h : Handlers floats) (fleet : Fleet) (s : Plane floats) : Prop where
  history : History s.tables ∧ ∀ request ∈ s.service.requests,
    request.OnFlow s.tables ∧ request.Restores s.service.shared
  recorded : Recorded h s.service.shared ∧
    ∀ request ∈ s.service.requests, request.Checked h s.service.shared
  grouped : s.Grouped fleet
  knows : ∀ stream ∈ s.streams, Knows fleet stream
  calls : ∀ delivery ∈ s.deliveries, ∀ call ∈ delivery.call?, call ∈ s.service.shared.calls
  lists : ∀ stream ∈ s.streams, stream.Lists s.tables
  commands : ∀ ch, ∀ cmd ∈ s.hub.historyOf ch, cmd.Carries floats s.tables

theorem Sound.call {call : DeployFlowCall} (hsound : s.Sound h fleet)
    (hcall : call ∈ s.service.shared.calls) :
    ∃ stored, s.tables.version call.flowID call.version = some stored ∧
      call.targetGroup = contentGroup floats stored.content ∧
      call.command.Carries floats s.tables := by
  obtain ⟨stored, file, hstored, hfile, htext, hgroup⟩ := hsound.recorded.1.pushed call hcall
  obtain ⟨hparse, -⟩ := Handlers.check_eq_some.mp hfile
  exact ⟨stored, hstored, hgroup.trans (contentGroup_of_parse hparse).symm, stored, hstored,
    .inr ⟨file, hparse, htext⟩⟩

theorem calls_subset_of_step {service service' : Service floats} {a : ServiceAction floats}
    (hstep : service.step h a = some service') :
    service.shared.calls <+: service'.shared.calls := by
  rcases Service.calls_of_step hstep with hsame | ⟨job, env, defaultErrorFlow, stored, alone, -,
    hcalls⟩
  · exact hsame ▸ List.prefix_rfl
  · exact hcalls ▸ List.prefix_append _ _

theorem Sound.step {a : PlaneAction floats} (hsound : s.Sound h fleet) (hok : s.Timely a)
    (hstep : Steps h fleet s a s') : s'.Sound h fleet := by
  have hgrouped := hstep.grouped hsound.grouped
  cases hstep with
  | request hservice =>
    have hgrows := Service.step_versions_grow hservice
    have hcalls := calls_subset_of_step hservice
    refine ⟨Service.step_history hsound.history hservice,
      Service.step_recorded hsound.recorded hok.meeting hservice, hgrouped, hsound.knows, ?_,
      fun stream hmem => (hsound.lists stream hmem).kept hgrows,
      fun ch cmd hmem => (hsound.commands ch cmd hmem).kept hgrows⟩
    intro delivery hmem call hcall
    rcases List.mem_append.mp hmem with hold | hnew
    · exact hcalls.subset (hsound.calls delivery hold call hcall)
    · obtain ⟨added, hadded, rfl⟩ := List.mem_map.mp hnew
      cases hcall
      exact List.mem_of_mem_drop hadded
  | register => exact { hsound with grouped := hgrouped }
  | connect =>
    exact { hsound with
      grouped := hgrouped
      knows := forall_mem_concat hsound.knows trivial
      lists := forall_mem_concat hsound.lists trivial }
  | stream hstream hmove =>
    have hmem := List.mem_of_getElem? hstream
    have hgroups := hok.1.groupsKnown
    refine ⟨hsound.history, hsound.recorded, hgrouped, forall_mem_set hsound.knows ?_,
      hsound.calls, forall_mem_set hsound.lists (hmove.lists (hsound.lists _ hmem)),
      hmove.commands (hsound.lists _ hmem) hsound.commands⟩
    refine knows_of_move (hsound.knows _ hmem) ?_ hmove
    rintro runtimeID ch rfl
    exact hgroups runtimeID ch hstream
  | deliver hdelivery hmove =>
    have hmem := List.mem_of_getElem? hdelivery
    refine ⟨hsound.history, hsound.recorded, hgrouped, hsound.knows,
      forall_mem_set hsound.calls fun call hcall => ?_, hsound.lists,
      hmove.commands (fun call hcall => ?_) hsound.commands⟩
    · exact hsound.calls _ hmem call (hmove.call? hcall)
    · obtain ⟨stored, -, -, hcarries⟩ := hsound.call (hsound.calls _ hmem call hcall)
      exact hcarries

theorem Sound.of_fresh (hfresh : s.service.Fresh) (hquiet : s.Quiet) : s.Sound h fleet where
  history := ⟨hfresh.history, hfresh.forall_requests⟩
  recorded := ⟨hfresh.recorded, hfresh.forall_requests⟩
  grouped := hquiet.grouped
  knows := by simp [hquiet.streams]
  calls := by simp [hquiet.deliveries]
  lists := by simp [hquiet.streams]
  commands ch := by
    rw [Hub.historyOf, hquiet.channels]
    exact List.forall_mem_nil _

end Plane

/-! ## Requests keep the newest version on its way -/

section Requests

variable {s s' : Shared} {request next : Request floats} {key : String}

theorem Tables.Current.of_updateFlow {change : FlowRow → FlowRow}
    (hcurrent : (t.updateFlow key change).Current id v) (hid : ∀ row, (change row).id = row.id)
    (hdeployed : ∀ row, (change row).deployedVersion = row.deployedVersion) : t.Current id v := by
  obtain ⟨row, hrow, hv⟩ := hcurrent
  rw [Option.mem_def, Tables.flow_updateFlow hid, Option.map_eq_some_iff] at hrow
  obtain ⟨old, hold, rfl⟩ := hrow
  refine ⟨old, hold, ?_⟩
  split at hv
  · rw [← hdeployed]
    exact hv
  · exact hv

variable {now : String}

theorem Tables.Current.of_setDeployedVersion {w : Nat}
    (hcurrent : (t.setDeployedVersion key w now).Current id v) :
    t.Current id v ∨ key = id ∧ w = v := by
  obtain ⟨row, hrow, hv⟩ := hcurrent
  rw [Option.mem_def, Tables.setDeployedVersion, Tables.flow_updateFlow (by exact fun _ => rfl),
    Option.map_eq_some_iff] at hrow
  obtain ⟨old, hold, rfl⟩ := hrow
  split at hv
  next hkey => exact .inr ⟨hkey.symm.trans (Tables.id_of_flow hold), Option.some.inj hv⟩
  · exact .inl ⟨old, hold, hv⟩

theorem Moves.current (hmove : Moves h s request s' next) (hcurrent : s'.tables.Current id v) :
    s.tables.Current id v ∨ next.Pending id v := by
  cases hmove with
  | created hinsert =>
    obtain ⟨hnone, rfl⟩ := Tables.insertFlow_eq_some.mp hinsert
    obtain ⟨row, hrow, hv⟩ := hcurrent
    rw [Option.mem_def, Tables.flow, List.find?_append, Option.or_eq_some_iff] at hrow
    rcases hrow with hold | ⟨-, hnew⟩
    · exact .inl ⟨row, hold, hv⟩
    · obtain rfl := List.mem_singleton.mp (List.mem_of_find?_eq_some hnew)
      cases hv
  | @committed job env draft alone now stored tables hstored hcommit =>
    obtain ⟨-, rfl⟩ := Tables.commitVersion_eq_some.mp hcommit
    have hflow : stored.flowID = job.flow.id := congrArg VersionRow.flowID hstored
    rcases hcurrent.of_setDeployedVersion with hbefore | ⟨hid, hv⟩
    · exact .inl hbefore
    · exact .inr ⟨hflow.symm.trans hid, hv⟩
  | updated | selected | restoreRejected | restored =>
    exact .inl (.of_updateFlow hcurrent (fun _ => rfl) fun _ => rfl)
  | _ => exact .inl hcurrent

theorem Request.Pending.advance {ok : Bool} (hpending : request.Pending id v)
    (hfound : request.ProjectFound s.tables ok)
    (hadvance : h.advance now ok s request = some (s', next)) : next.Pending id v ∨
      ∃ call : DeployFlowCall, s'.calls = s.calls ++ [call] ∧ call.flowID = id ∧
        call.version = v := by
  cases request with
  | readProject job env stored alone =>
    obtain ⟨rfl, hproject⟩ := hfound
    obtain ⟨project, hproject⟩ := Option.isSome_iff_exists.mp hproject
    simp only [Handlers.advance, hproject] at hadvance
    obtain ⟨-, rfl⟩ := hadvance
    exact .inl hpending
  | push job env defaultErrorFlow stored alone =>
    obtain ⟨rfl, -⟩ := hadvance
    exact .inr ⟨_, rfl, hpending⟩
  | _ => cases hpending

end Requests

namespace Plane

variable {runtimeID : String} {index : Nat} {ok : Bool} {service : Service floats}
  {delivery : Delivery}

variable {s s' : Plane floats} {order : List (String × Nat)} {a : ServiceAction floats}

theorem current_of_step (hstep : s.service.step h a = some service)
    (hcurrent : service.shared.tables.Current id v) :
    s.tables.Current id v ∨ ∃ request ∈ service.requests, request.Pending id v := by
  obtain ⟨request, rfl, -, rfl⟩ | ⟨index, now, ok, request, next, rfl, hrequest, hadvance,
    hrequests⟩ := Service.step_cases hstep
  · exact .inl hcurrent
  · rcases (moves_of_advance hadvance).current hcurrent with hbefore | hpending
    · exact .inl hbefore
    · refine .inr ⟨next, ?_, hpending⟩
      rw [hrequests]
      exact mem_set_of_getElem? hrequest next

theorem version_of_current (ht : History t) (hcurrent : t.Current id v) :
    ∃ stored, t.version id v = some stored := by
  obtain ⟨row, hrow, hv⟩ := hcurrent
  have hnewest := ht.deployed row (Tables.mem_of_flow hrow)
  rw [Tables.id_of_flow hrow, hv] at hnewest
  have hlisted : v ∈ (t.versionsOf id).map VersionRow.version := by
    rw [ht.numbered, List.mem_range'_1]
    cases hlength : (t.versionsOf id).length with
    | zero =>
      rw [hlength] at hnewest
      cases hnewest
    | succ n =>
      rw [hlength] at hnewest
      cases hnewest
      omega
  obtain ⟨stored, hstored, hnumber⟩ := List.mem_map.mp hlisted
  obtain ⟨hmem, hflow⟩ := List.mem_filter.mp hstored
  refine Option.isSome_iff_exists.mp (List.find?_isSome.mpr ⟨stored, hmem, ?_⟩)
  exact decide_eq_true ⟨of_decide_eq_true hflow, hnumber⟩

theorem Wanted.of_request {deliveries : List Delivery}
    (hwanted : Wanted fleet { s with service, deliveries } id v runtimeID ch)
    (ht : History s.tables) (hstep : s.service.step h a = some service)
    (hcurrent : s.tables.Current id v) : s.Wanted fleet id v runtimeID ch := by
  obtain ⟨stored, hstored⟩ := version_of_current ht hcurrent
  obtain ⟨stored', hstored', hgroup⟩ := hwanted.group
  have hkept := Tables.version_of_append (Service.step_versions_grow hstep) hstored
  obtain rfl := Option.mem_unique hkept hstored'
  exact ⟨hcurrent, ⟨stored, hstored, hgroup⟩, hwanted.published⟩

theorem covered_of_pending_request (hok : s.Timely (.request a))
    (hstep : s.service.step h a = some service) {request : Request floats}
    (hmem : request ∈ s.service.requests) (hpending : request.Pending id v) (runtimeID : String)
    (ch : Nat) :
    Covered
      { s with service, deliveries := s.deliveries ++ (s.newCalls service).map .calling }
      id v runtimeID ch := by
  obtain ⟨new, rfl, -, rfl⟩ | ⟨index, now, ok, moved, next, rfl, hmoved, hadvance, hrequests⟩ :=
    Service.step_cases hstep
  · exact .requested request (List.mem_append_left _ hmem) hpending
  · by_cases heq : request = moved
    · subst heq
      rcases hpending.advance (hok request hmoved).2 hadvance with hnext | ⟨call, hcalls, hcall⟩
      · refine .requested next ?_ hnext
        rw [hrequests]
        exact mem_set_of_getElem? hmoved next
      · refine .called (.calling call) (List.mem_append_right _ ?_) hcall
        refine List.mem_map_of_mem ?_
        rw [newCalls, hcalls, List.drop_left]
        exact List.mem_cons_self
    · refine .requested request ?_ hpending
      rw [hrequests]
      exact mem_set_of_ne hmoved hmem heq next

theorem Newest.request (hnewest : s.Newest fleet) (hsound : s.Sound h fleet)
    (hok : s.Timely (.request a)) (hstep : s.service.step h a = some service) :
    Newest fleet
      { s with service, deliveries := s.deliveries ++ (s.newCalls service).map .calling } := by
  intro id v runtimeID ch hwanted
  rcases current_of_step hstep hwanted.current with hcurrent | ⟨request, hmem, hpending⟩
  · cases hnewest id v runtimeID ch (hwanted.of_request hsound.history.1 hstep hcurrent) with
    | queued hends => exact .queued hends
    | requested request hmem hpending =>
      exact covered_of_pending_request hok hstep hmem hpending runtimeID ch
    | called delivery hmem hpending => exact .called delivery (List.mem_append_left _ hmem) hpending
    | listed stream hmem hpending => exact .listed stream hmem hpending
  · exact .requested request hmem hpending

/-! ## Streams keep the newest version on its way -/

theorem Wanted.isFor (hwanted : s.Wanted fleet id v runtimeID ch) (hsound : s.Sound h fleet)
    {owner myGroup : String} {flows : List DeployedFlow}
    (hstream : .repushing owner ch myGroup flows ∈ s.streams) (hf : f ∈ flows) (hid : f.flowID = id)
    (hv : f.version = v) : f.isFor myGroup = true := by
  obtain ⟨howner, -, htargets⟩ := hsound.grouped.streams _ hstream
  obtain rfl := Option.mem_unique howner (hsound.grouped.hub.published hwanted.published)
  have hmine : myGroup = fleet.group owner := hsound.knows _ hstream
  obtain ⟨stored, hstored, hcontent⟩ := hsound.lists _ hstream f hf
  obtain ⟨stored', hstored', hgroup⟩ := hwanted.group
  rw [hid, hv] at hstored
  obtain rfl := Option.mem_unique hstored hstored'
  rw [DeployedFlow.isFor, Bool.or_eq_true, decide_eq_true_eq, decide_eq_true_eq,
    htargets f hf, hcontent, hmine]
  exact hgroup

theorem pending_of_streamMove {stream next : Stream} (hsound : s.Sound h fleet)
    (hok : s.Timely (.stream index ok)) (hstream : s.streams[index]? = some stream)
    (hmove : StreamMoves h fleet s.tables ok s.hub stream hub next)
    (hwanted : s.Wanted fleet id v runtimeID ch)
    (hpending : stream.Pending id v ch) : next.Pending id v ch ∨ hub.EndsWith ch id v := by
  have hunhindered := hok.1
  cases hmove with
  | grouped => exact .inl hpending
  | listed =>
    simp only [Unhindered, hstream] at hunhindered
    obtain ⟨row, hrow, hv⟩ := hwanted.current
    obtain ⟨stored, hstored, -⟩ := hwanted.group
    have hid := Tables.id_of_flow hrow
    obtain ⟨f, hf, hflow, hversion, -⟩ := Tables.mem_listDeployedFlows hunhindered.2 h.sprint
      (Tables.mem_of_flow hrow) hv (hid.symm ▸ hstored)
    exact .inl ⟨hpending, f, hf, hflow.trans hid, hversion⟩
  | unlisted hfailed =>
    simp only [Unhindered, hstream, hfailed] at hunhindered
    cases hunhindered.1
  | settled =>
    obtain ⟨-, f, hf, -⟩ := hpending
    cases hf
  | skipped hgroup =>
    obtain ⟨rfl, f, hf, hid, hv⟩ := hpending
    have hfor := hwanted.isFor hsound (List.mem_of_getElem? hstream) hf hid hv
    rcases List.mem_cons.mp hf with rfl | hrest
    · rw [hgroup] at hfor
      cases hfor
    · exact .inl ⟨rfl, f, hrest, hid, hv⟩
  | requeued hgroup hoffer =>
    obtain ⟨rfl, f, hf, rfl, rfl⟩ := hpending
    rcases List.mem_cons.mp hf with rfl | hrest
    · exact .inr (.offer_self hoffer)
    · exact .inl ⟨rfl, f, hrest, rfl, rfl⟩
  | dropped hgroup hoffer =>
    have hroom := hunhindered.room hstream _ _ _ _ _ rfl hgroup
    rw [hoffer] at hroom
    cases hroom
  | rejected | published | sent | ended => exact hpending.elim

theorem endsWith_of_streamMove {stream next : Stream} (hok : s.Timely (.stream index ok))
    (hstream : s.streams[index]? = some stream)
    (hmove : StreamMoves h fleet s.tables ok s.hub stream hub next)
    (hcurrent : s.tables.Current id v) (hends : s.hub.EndsWith ch id v) : hub.EndsWith ch id v := by
  rcases hmove.history with hsame | ⟨_, _, _, f, flows, rfl, hgroup, hoffer⟩
  · exact hends.of_history hsame
  · exact hends.offer hoffer (hok.2 _ hstream hgroup) hcurrent

theorem published_of_streamMove {stream next : Stream}
    (hmove : StreamMoves h fleet t ok hub stream hub' next)
    (hpublishes : hub'.Publishes runtimeID ch) :
    hub.Publishes runtimeID ch ∨ next = .grouping runtimeID ch := by
  cases hmove with
  | @published owner _ rt' hold =>
    obtain ⟨rt, hruntime, hch⟩ := hpublishes
    rcases lookup_insert_eq_some hruntime with ⟨rfl, rfl⟩ | hold
    · cases hch
      exact .inr rfl
    · exact .inl ⟨rt, hold, hch⟩
  | requeued hgroup hoffer =>
    obtain ⟨c, -, -, rfl⟩ := Hub.offer_eq_some.mp hoffer
    exact .inl hpublishes
  | sent hsend =>
    obtain ⟨c, cmd, queue, -, -, rfl⟩ := Hub.send_eq_some.mp hsend
    exact .inl hpublishes
  | ended => exact .inl (Hub.publishes_of_unpublish hpublishes)
  | _ => exact .inl hpublishes

theorem Newest.stream {stream next : Stream} (hnewest : s.Newest fleet) (hsound : s.Sound h fleet)
    (hok : s.Timely (.stream index ok)) (hstream : s.streams[index]? = some stream)
    (hmove : StreamMoves h fleet s.tables ok s.hub stream hub next) :
    Newest fleet { s with hub, streams := s.streams.set index next } := by
  have hnext := mem_set_of_getElem? hstream next
  intro id v runtimeID ch hwanted
  rcases published_of_streamMove hmove hwanted.published with hpublished | rfl
  · have hwanted' : s.Wanted fleet id v runtimeID ch :=
      ⟨hwanted.current, hwanted.group, hpublished⟩
    cases hnewest id v runtimeID ch hwanted' with
    | queued hends => exact .queued (endsWith_of_streamMove hok hstream hmove hwanted.current hends)
    | requested request hmem hpending => exact .requested request hmem hpending
    | called delivery hmem hpending => exact .called delivery hmem hpending
    | listed other hmem hpending =>
      by_cases heq : other = stream
      · subst heq
        rcases pending_of_streamMove hsound hok hstream hmove hwanted' hpending with
          hstill | hends
        · exact .listed next hnext hstill
        · exact .queued hends
      · exact .listed other (mem_set_of_ne hstream hmem heq next) hpending
  -- the new channel is covered by its own stream, which has everything still to list
  · exact .listed _ hnext rfl

/-! ## Calls keep the newest version on its way -/

theorem Fleet.accepts_of_group {targetGroup : String}
    (hgroup : targetGroup = "" ∨ targetGroup = fleet.group runtimeID) :
    fleet.accepts true targetGroup runtimeID = true := by
  unfold Fleet.accepts
  rw [Bool.or_eq_true, decide_eq_true_eq]
  cases hstore : fleet.deviceStore with
  | none =>
    simp only [Fleet.group, hstore, or_self] at hgroup
    exact .inl hgroup
  | some groupOf =>
    simp only [Fleet.group, hstore] at hgroup
    exact hgroup.imp id fun hsame => decide_eq_true hsame.symm

theorem Wanted.accepts (hwanted : s.Wanted fleet id v runtimeID ch) (hsound : s.Sound h fleet)
    {call : DeployFlowCall} (hdelivery : delivery ∈ s.deliveries) (hcall : call ∈ delivery.call?)
    (hid : call.flowID = id) (hv : call.version = v) :
    fleet.accepts true call.targetGroup runtimeID = true := by
  obtain ⟨stored, hstored, htarget, -⟩ := hsound.call (hsound.calls delivery hdelivery call hcall)
  obtain ⟨stored', hstored', hgroup⟩ := hwanted.group
  rw [hid, hv] at hstored
  obtain rfl := Option.mem_unique hstored hstored'
  rw [← htarget] at hgroup
  exact Fleet.accepts_of_group hgroup

variable {next : Delivery}

theorem pending_of_deliveryMove (hsound : s.Sound h fleet)
    (hok : s.Timely (.deliver index order ok)) (hdelivery : s.deliveries[index]? = some delivery)
    (hmove : DeliveryMoves fleet ok s.hub delivery hub next)
    (hwanted : s.Wanted fleet id v runtimeID ch) (hpending : delivery.Pending id v runtimeID ch) :
    next.Pending id v runtimeID ch ∨ hub.EndsWith ch id v := by
  have htimely := hok delivery hdelivery
  have hmem := List.mem_of_getElem? hdelivery
  cases hmove with
  | snapshot horder =>
    exact .inl ⟨hpending, .inl (horder.mem_iff.mpr (Hub.mem_candidates.mpr hwanted.published))⟩
  | nobody =>
    rcases hpending.2 with hnone | hnone <;> cases hnone
  | chosen => exact .inl ⟨hpending.1, hpending.2.resolve_left List.not_mem_nil⟩
  | accepted haccepts =>
    obtain ⟨hcall, hcandidate | hchannel⟩ := hpending
    · rcases List.mem_cons.mp hcandidate with heq | hrest
      · cases heq
        exact .inl ⟨hcall, .inr (List.mem_append_right _ List.mem_cons_self)⟩
      · exact .inl ⟨hcall, .inl hrest⟩
    · exact .inl ⟨hcall, .inr (List.mem_append_left _ hchannel)⟩
  | refused haccepts =>
    obtain ⟨hcall, hcandidate | hchannel⟩ := hpending
    · rcases List.mem_cons.mp hcandidate with heq | hrest
      · cases heq
        have haccepts' := hwanted.accepts hsound hmem rfl hcall.1 hcall.2
        have hfound : ok = true := htimely
        rw [hfound, haccepts'] at haccepts
        cases haccepts
      · exact .inl ⟨hcall, .inl hrest⟩
    · exact .inl ⟨hcall, .inr hchannel⟩
  | completed => cases hpending.2
  | pushed hoffer =>
    obtain ⟨⟨rfl, rfl⟩, hchannel⟩ := hpending
    rcases List.mem_cons.mp hchannel with rfl | hrest
    · exact .inr (.offer_self hoffer)
    · exact .inl ⟨⟨rfl, rfl⟩, hrest⟩
  | full hoffer =>
    obtain ⟨-, hroom, -⟩ := htimely
    rw [hoffer] at hroom
    cases hroom
  | cancelled hfailed =>
    obtain ⟨hdone, -, -⟩ := htimely
    rw [hfailed] at hdone
    cases hdone

theorem Newest.deliver (hnewest : s.Newest fleet) (hsound : s.Sound h fleet)
    (hok : s.Timely (.deliver index order ok)) (hdelivery : s.deliveries[index]? = some delivery)
    (hmove : DeliveryMoves fleet ok s.hub delivery hub next) :
    Newest fleet { s with hub, deliveries := s.deliveries.set index next } := by
  have hnext := mem_set_of_getElem? hdelivery next
  intro id v runtimeID ch hwanted
  have hwanted' : s.Wanted fleet id v runtimeID ch := by
    refine ⟨hwanted.current, hwanted.group, ?_⟩
    have hpublishes := hwanted.published
    cases hmove with
    | pushed hoffer =>
      obtain ⟨c, -, -, rfl⟩ := Hub.offer_eq_some.mp hoffer
      exact hpublishes
    | _ => exact hpublishes
  cases hnewest id v runtimeID ch hwanted' with
  | queued hends =>
    refine .queued ?_
    have htimely := hok delivery hdelivery
    cases hmove with
    | pushed hoffer => exact hends.offer hoffer htimely.2.2 hwanted.current
    | _ => exact hends
  | requested request hmem hpending => exact .requested request hmem hpending
  | called other hmem hpending =>
    by_cases heq : other = delivery
    · subst heq
      rcases pending_of_deliveryMove hsound hok hdelivery hmove hwanted' hpending with
        hstill | hends
      · exact .called next hnext hstill
      · exact .queued hends
    · exact .called other (mem_set_of_ne hdelivery hmem heq next) hpending
  | listed stream hmem hpending => exact .listed stream hmem hpending

/-! ## Whole runs -/

theorem Newest.step {a : PlaneAction floats} (hnewest : s.Newest fleet) (hsound : s.Sound h fleet)
    (hok : s.Timely a) (hstep : Steps h fleet s a s') : s'.Newest fleet := by
  cases hstep with
  | request hservice => exact hnewest.request hsound hok hservice
  | register =>
    intro id v runtimeID ch hwanted
    cases hnewest id v runtimeID ch
      ⟨hwanted.current, hwanted.group, Hub.publishes_of_insert rfl hwanted.published⟩ with
    | queued hends => exact .queued hends
    | requested request hmem hpending => exact .requested request hmem hpending
    | called delivery hmem hpending => exact .called delivery hmem hpending
    | listed stream hmem hpending => exact .listed stream hmem hpending
  | connect =>
    intro id v runtimeID ch hwanted
    cases hnewest id v runtimeID ch ⟨hwanted.current, hwanted.group, hwanted.published⟩ with
    | queued hends => exact .queued hends
    | requested request hmem hpending => exact .requested request hmem hpending
    | called delivery hmem hpending => exact .called delivery hmem hpending
    | listed stream hmem hpending => exact .listed stream (List.mem_append_left _ hmem) hpending
  | stream hstream hmove => exact hnewest.stream hsound hok hstream hmove
  | deliver hdelivery hmove => exact hnewest.deliver hsound hok hdelivery hmove

theorem run_newest {s₀ : Plane floats} {actions : List (PlaneAction floats)}
    (hfresh : s₀.service.Fresh) (hquiet : s₀.Quiet)
    (hmeets : Meets (step h fleet) Timely s₀ actions)
    (hrun : run (step h fleet) s₀ actions = some s) : s.Sound h fleet ∧ s.Newest fleet := by
  refine @run_invariant_of_meets _ _ _
    (fun s : Plane floats => s.Sound h fleet ∧ s.Newest fleet) _ ?_ _ _ _ ?_ hmeets hrun
  · rintro s a s' ⟨hsound, hnewest⟩ hok hstep
    have hsteps := steps_of_step hstep
    exact ⟨hsound.step hok hsteps, hnewest.step hsound hok hsteps⟩
  · refine ⟨.of_fresh hfresh hquiet, ?_⟩
    intro id v runtimeID ch hwanted
    obtain ⟨rt, hruntime, -⟩ := hwanted.published
    rw [hquiet.runtimes] at hruntime
    cases hruntime

end Plane

/-! ## Quiescence -/

def Request.isFinal : Request floats → Bool
  | .deployed .. | .done | .failed _ => true
  | _ => false

def Delivery.isFinal : Delivery → Bool
  | .returned _ => true
  | _ => false

def Stream.isFinal : Stream → Bool
  | .sending _ _ | .closed => true
  | _ => false

structure Plane.Settled (s : Plane floats) : Prop where
  requests : ∀ request ∈ s.service.requests, request.isFinal = true
  deliveries : ∀ delivery ∈ s.deliveries, delivery.isFinal = true
  streams : ∀ stream ∈ s.streams, stream.isFinal = true

theorem Plane.Covered.endsWith {s : Plane floats} (hsettled : s.Settled) {runtimeID : String}
    (hcovered : s.Covered id v runtimeID ch) : s.hub.EndsWith ch id v := by
  cases hcovered with
  | queued hends => exact hends
  | requested request hmem hpending =>
    have hfinal := hsettled.requests request hmem
    cases request <;> first | exact False.elim hpending | cases hfinal
  | called delivery hmem hpending =>
    have hfinal := hsettled.deliveries delivery hmem
    cases delivery <;> first | exact False.elim hpending | cases hfinal
  | listed stream hmem hpending =>
    have hfinal := hsettled.streams stream hmem
    cases stream <;> first | exact False.elim hpending | cases hfinal

/--
In a run in which nothing fails, no queue is full and every push is made while its version
is the deployed one, once all steps are done the last command for a flow in the channel
of a connected runtime that its deployed version is for carries that version and its
content.
-/
theorem newest_version_wins (h : Handlers floats) (fleet : Fleet) {s₀ s : Plane floats}
    {actions : List (PlaneAction floats)} (hfresh : s₀.service.Fresh) (hquiet : s₀.Quiet)
    (hmeets : Meets (Plane.step h fleet) Plane.Timely s₀ actions)
    (hrun : run (Plane.step h fleet) s₀ actions = some s) (hsettled : s.Settled) :
    ∀ id row v stored runtimeID rt ch, s.tables.flow id = some row →
      row.deployedVersion = some v → s.tables.version id v = some stored →
      s.hub.runtimes.lookup runtimeID = some rt → rt.deployCh = some ch →
      (contentGroup floats stored.content = "" ∨
        contentGroup floats stored.content = fleet.group runtimeID) →
      ∃ cmd, lastFor id (s.hub.historyOf ch) = some cmd ∧ cmd.version = v ∧
        (cmd.flowJSON = stored.content ∨
          ∃ file, Format.parse floats stored.content = some file ∧
            cmd.flowJSON = file.marshalCanonical) := by
  intro id row v stored runtimeID rt ch hrow hv hstored hruntime hch hgroup
  obtain ⟨hsound, hnewest⟩ := Plane.run_newest hfresh hquiet hmeets hrun
  have hcovered := hnewest id v runtimeID ch
    ⟨⟨row, hrow, hv⟩, ⟨stored, hstored, hgroup⟩, ⟨rt, hruntime, hch⟩⟩
  obtain ⟨cmd, hlast, hversion⟩ := hcovered.endsWith hsettled
  refine ⟨cmd, hlast, hversion, ?_⟩
  obtain ⟨hmem, hid⟩ := List.mem_filter.mp (List.mem_of_getLast? hlast)
  obtain ⟨stored', hstored', hcontent⟩ := hsound.commands ch cmd hmem
  rw [of_decide_eq_true hid, hversion] at hstored'
  obtain rfl := Option.mem_unique hstored hstored'
  exact hcontent

/-! ## A late push -/

def freshPlane : Plane Format.exactFloats := { service := freshService }

def requestSteps (index n : Nat) : List (PlaneAction Format.exactFloats) :=
  List.replicate n (.request (.advance index "2026-01-01T00:00:00Z" true))

def streamSteps (n : Nat) : List (PlaneAction Format.exactFloats) :=
  List.replicate n (.stream 0 true)

def deliverySteps (index : Nat) : List (PlaneAction Format.exactFloats) :=
  List.replicate 5 (.deliver index [("r", 0)] true)

def connectedActions : List (PlaneAction Format.exactFloats) :=
  [PlaneAction.request (.arrive (.createFlow "f" "p" "flow" (injectContent "a")))] ++
    requestSteps 0 1 ++ [PlaneAction.register "r" "token", .connect "r" "token"] ++
    streamSteps 4

def deployRequest : PlaneAction Format.exactFloats :=
  .request (.arrive (.deployFlow "f" "ann" "" none))

def deployTwice : List (PlaneAction Format.exactFloats) :=
  connectedActions ++ [deployRequest] ++ requestSteps 1 6 ++ deliverySteps 0 ++
    [deployRequest] ++ requestSteps 2 6 ++ deliverySteps 1

def lateDeploy : List (PlaneAction Format.exactFloats) :=
  connectedActions ++ [deployRequest, deployRequest] ++ requestSteps 1 4 ++ requestSteps 2 4 ++
    requestSteps 2 2 ++ deliverySteps 0 ++ requestSteps 1 2 ++ deliverySteps 1

instance (s : Plane floats) : Decidable s.Settled :=
  decidable_of_iff
    ((∀ request ∈ s.service.requests, request.isFinal = true) ∧
      (∀ delivery ∈ s.deliveries, delivery.isFinal = true) ∧
      ∀ stream ∈ s.streams, stream.isFinal = true)
    ⟨fun hall => ⟨hall.1, hall.2.1, hall.2.2⟩,
      fun hall => ⟨hall.requests, hall.deliveries, hall.streams⟩⟩

theorem newest_version_wins_twice :
    ∃ s cmd, run (Plane.step smallHandlers noGroups) freshPlane deployTwice = some s ∧
      lastFor "f" (s.hub.historyOf 0) = some cmd ∧ cmd.version = 2 := by
  obtain ⟨s, hrun, hsettled, ⟨row, hrow, hv⟩, ⟨stored, hstored, hgroup⟩, rt, hruntime, hch⟩ :
      ∃ s, run (Plane.step smallHandlers noGroups) freshPlane deployTwice = some s ∧
        s.Settled ∧ (∃ row, s.tables.flow "f" = some row ∧ row.deployedVersion = some 2) ∧
        (∃ stored, s.tables.version "f" 2 = some stored ∧
          contentGroup Format.exactFloats stored.content = "") ∧
        ∃ rt, s.hub.runtimes.lookup "r" = some rt ∧ rt.deployCh = some 0 := by
    decide +kernel
  obtain ⟨cmd, hlast, hversion, -⟩ := newest_version_wins smallHandlers noGroups
    freshService_fresh ⟨rfl, rfl, rfl, rfl⟩ (by decide +kernel) hrun
    hsettled "f" row 2 stored "r" rt 0 hrow hv hstored hruntime hch (.inl hgroup)
  exact ⟨s, cmd, hrun, hlast, hversion⟩

def Delivery.hasPushed : Delivery → Bool
  | .returned none => true
  | _ => false

theorem late_push_wins :
    ∃ s row stored rt cmd, run (Plane.step smallHandlers noGroups) freshPlane lateDeploy = some s ∧
      s.Settled ∧ (∀ delivery ∈ s.deliveries, delivery.hasPushed = true) ∧
      s.tables.flow "f" = some row ∧ row.deployedVersion = some 2 ∧
      s.tables.version "f" 2 = some stored ∧
      contentGroup Format.exactFloats stored.content = "" ∧
      s.hub.runtimes.lookup "r" = some rt ∧ rt.deployCh = some 0 ∧
      lastFor "f" (s.hub.historyOf 0) = some cmd ∧ cmd.version = 1 := by
  simp only [exists_and_left]
  decide +kernel

end DataPipe.ControlPlane
