import DataPipe.ControlPlane.Requests

/-!
# Version history

The versions of a flow under any interleaving of requests: they are numbered from one, none
is ever changed, the last one is the deployed one, and a rollback repeats the content of its
target unless the draft is written in between.  A version holds the content that its
request has checked when the draft is still that content at the second read.
-/

set_option linter.dupNamespace false

namespace DataPipe.ControlPlane

open DataPipe.Foundation DataPipe.Flow

/-- The number of the last of `n` versions. -/
def newest : Nat → Option Nat
  | 0 => none
  | n + 1 => some (n + 1)

theorem max?_range'_one (n : Nat) : (List.range' 1 n).max? = newest n := by
  cases n with
  | zero => rfl
  | succ n =>
    refine List.max?_eq_some_iff.mpr ⟨?_, fun m hm => ?_⟩
    · rw [List.mem_range'_1]
      omega
    · rw [List.mem_range'_1] at hm
      omega

structure History (t : Tables) : Prop where
  numbered : ∀ id, (t.versionsOf id).map VersionRow.version = List.range' 1 (t.versionsOf id).length
  deployed : ∀ row ∈ t.flows, row.deployedVersion = newest (t.versionsOf row.id).length
  owned : ∀ stored ∈ t.versions, ∃ row ∈ t.flows, row.id = stored.flowID

variable {content : List Char}

namespace History

variable {t t' : Tables} {id : String}

theorem maxVersion (ht : History t) (id : String) :
    t.maxVersion id = newest (t.versionsOf id).length := by
  rw [Tables.maxVersion, ht.numbered, max?_range'_one]

theorem nextVersion (ht : History t) (content : List Char) (author comment now : String) :
    (t.nextVersion id content author comment now).version = (t.versionsOf id).length + 1 := by
  unfold Tables.nextVersion
  rw [ht.maxVersion]
  cases (t.versionsOf id).length <;> rfl

theorem updateFlow (ht : History t) {change : FlowRow → FlowRow}
    (hid : ∀ row, (change row).id = row.id)
    (hdeployed : ∀ row, (change row).deployedVersion = row.deployedVersion) :
    History (t.updateFlow id change) where
  numbered := ht.numbered
  deployed := by
    intro row hrow
    obtain ⟨old, hold, rfl⟩ := Tables.mem_updateFlow.mp hrow
    have hkept := ht.deployed old hold
    split
    · rw [hdeployed, hid]
      exact hkept
    · exact hkept
  owned := by
    intro stored hstored
    obtain ⟨row, hrow, howner⟩ := ht.owned stored hstored
    refine ⟨_, Tables.mem_updateFlow.mpr ⟨row, hrow, rfl⟩, ?_⟩
    split
    · rw [hid, howner]
    · exact howner

theorem insertFlow (ht : History t) {row : FlowRow} (hnew : row.deployedVersion = none)
    (hinsert : t.insertFlow row = some t') : History t' := by
  obtain ⟨hnone, rfl⟩ := Tables.insertFlow_eq_some.mp hinsert
  -- no version can belong to a flow that does not exist yet
  have hempty : t.versionsOf row.id = [] := by
    refine List.filter_eq_nil_iff.mpr fun stored hstored hflow => ?_
    obtain ⟨owner, howner, hid⟩ := ht.owned stored hstored
    have hkey : owner.id = row.id := hid.trans (of_decide_eq_true hflow)
    exact absurd (decide_eq_true hkey) (List.find?_eq_none.mp hnone owner howner)
  refine ⟨ht.numbered, ?_, ?_⟩
  · intro other hother
    rcases List.mem_append.mp hother with hold | hself
    · exact ht.deployed other hold
    · obtain rfl := List.mem_singleton.mp hself
      change other.deployedVersion = newest (t.versionsOf other.id).length
      rw [hnew, hempty]
      rfl
  · intro stored hstored
    obtain ⟨owner, howner, hid⟩ := ht.owned stored hstored
    exact ⟨owner, List.mem_append_left _ howner, hid⟩

theorem versionsOf_append (t : Tables) (row : VersionRow) (id : String) :
    Tables.versionsOf { t with versions := t.versions ++ [row] } id =
      t.versionsOf id ++ if row.flowID = id then [row] else [] := by
  unfold Tables.versionsOf
  by_cases hid : row.flowID = id <;> simp [hid]

theorem commitVersion (ht : History t) {author comment now : String}
    (hflow : ∃ row ∈ t.flows, row.id = id)
    (hcommit : t.commitVersion (t.nextVersion id content author comment now) now = some t') :
    History t' := by
  have hnumber : (t.nextVersion id content author comment now).version =
      (t.versionsOf id).length + 1 := ht.nextVersion content author comment now
  have hid : (t.nextVersion id content author comment now).flowID = id := rfl
  obtain ⟨-, rfl⟩ := Tables.commitVersion_eq_some.mp hcommit
  generalize t.nextVersion id content author comment now = stored at hnumber hid
  subst hid
  refine ⟨?_, ?_, ?_⟩
  · intro other
    change (Tables.versionsOf { t with versions := t.versions ++ [stored] } other).map _ =
      List.range' 1 (Tables.versionsOf { t with versions := t.versions ++ [stored] } other).length
    rw [versionsOf_append]
    split
    next heq =>
      subst heq
      rw [List.map_append, List.length_append, List.length_singleton, List.range'_concat,
        ht.numbered, List.map_singleton, hnumber, Nat.one_mul, Nat.add_comm 1]
    · rw [List.append_nil]
      exact ht.numbered other
  · intro row hrow
    obtain ⟨old, hold, rfl⟩ := Tables.mem_updateFlow.mp hrow
    have hkept := ht.deployed old hold
    change _ = newest
      (Tables.versionsOf { t with versions := t.versions ++ [stored] } _).length
    rw [versionsOf_append]
    split
    next heq =>
      rw [if_pos heq.symm, List.length_append, List.length_singleton, heq, hnumber]
      rfl
    next hne =>
      rw [if_neg fun heq => hne heq.symm, List.append_nil]
      exact hkept
  · intro other hother
    have hold : ∃ row ∈ t.flows, row.id = other.flowID := by
      rcases List.mem_append.mp hother with hold | hself
      · exact ht.owned other hold
      · obtain rfl := List.mem_singleton.mp hself
        exact hflow
    obtain ⟨row, hrow, howner⟩ := hold
    refine ⟨_, Tables.mem_updateFlow.mpr ⟨row, hrow, rfl⟩, ?_⟩
    split <;> exact howner

end History

section Steps

variable {floats : Float64Text} {h : Handlers floats} {s s' : Shared}
  {request next : Request floats}

theorem Moves.versions_grow (hmove : Moves h s request s' next) :
    s.tables.versions <+: s'.tables.versions := by
  cases hmove with
  | created hinsert =>
    obtain ⟨-, rfl⟩ := Tables.insertFlow_eq_some.mp hinsert
    exact List.prefix_rfl
  | committed hstored hcommit =>
    obtain ⟨-, rfl⟩ := Tables.commitVersion_eq_some.mp hcommit
    exact List.prefix_append _ _
  | _ => exact List.prefix_rfl

variable {id : String}

theorem Moves.flow_kept (hmove : Moves h s request s' next)
    (hflow : ∃ row ∈ s.tables.flows, row.id = id) : ∃ row ∈ s'.tables.flows, row.id = id := by
  obtain ⟨row, hrow, hid⟩ := hflow
  have hupdate : ∀ {t : Tables} {key : String} {change : FlowRow → FlowRow},
      row ∈ t.flows → (∀ row, (change row).id = row.id) →
        ∃ row ∈ (t.updateFlow key change).flows, row.id = id := by
    intro t key change hmem hkept
    refine ⟨_, Tables.mem_updateFlow.mpr ⟨row, hmem, rfl⟩, ?_⟩
    split
    · rw [hkept, hid]
    · exact hid
  cases hmove with
  | created hinsert =>
    obtain ⟨-, rfl⟩ := Tables.insertFlow_eq_some.mp hinsert
    exact ⟨row, List.mem_append_left _ hrow, hid⟩
  | committed hstored hcommit =>
    obtain ⟨-, rfl⟩ := Tables.commitVersion_eq_some.mp hcommit
    exact hupdate hrow fun _ => rfl
  | updated | selected | restoreRejected | restored => exact hupdate hrow fun _ => rfl
  | _ => exact ⟨row, hrow, hid⟩

def Request.OnFlow (t : Tables) : Request floats → Prop
  | .commit job _ _ _ => ∃ row ∈ t.flows, row.id = job.flow.id
  | _ => True

theorem Moves.history (hmove : Moves h s request s' next) (hon : request.OnFlow s.tables)
    (ht : History s.tables) : History s'.tables := by
  cases hmove with
  | created hinsert => exact ht.insertFlow rfl hinsert
  | committed hstored hcommit =>
    subst hstored
    exact ht.commitVersion hon hcommit
  | updated | selected | restoreRejected | restored =>
    exact ht.updateFlow (fun _ => rfl) fun _ => rfl
  | _ => exact ht

theorem Request.OnFlow.kept {other : Request floats} (hon : other.OnFlow s.tables)
    (hmove : Moves h s request s' next) : other.OnFlow s'.tables := by
  cases other with
  | commit job env draft alone => exact hmove.flow_kept hon
  | _ => trivial

theorem Moves.onFlow (hmove : Moves h s request s' next) : next.OnFlow s'.tables := by
  cases hmove with
  | reread hflow => exact ⟨_, Tables.mem_of_flow hflow, Tables.id_of_flow hflow⟩
  | checked hflow hfile hnext => obtain rfl | ⟨profileID, rfl⟩ := hnext <;> trivial
  | _ => trivial

theorem Moves.writes_grow (hmove : Moves h s request s' next) : s.writes <+: s'.writes := by
  cases hmove with
  | updated | restoreRejected | restored => exact List.prefix_append _ _
  | _ => exact List.prefix_rfl

theorem Moves.draft (hmove : Moves h s request s' next) {row : FlowRow}
    (hflow : s.tables.flow id = some row) :
    s'.writes = s.writes ++ [id] ∨
      ∃ row', s'.tables.flow id = some row' ∧ row'.draftContent = row.draftContent := by
  have hupdate : ∀ {t : Tables} {key : String} {change : FlowRow → FlowRow},
      t.flow id = some row → (∀ row, (change row).id = row.id) →
      (row.id = key → (change row).draftContent = row.draftContent) →
      ∃ row', (t.updateFlow key change).flow id = some row' ∧
        row'.draftContent = row.draftContent := by
    intro t key change ht hkept hdraft
    refine ⟨_, Tables.flow_updateFlow_of_flow hkept ht, ?_⟩
    split
    next hkey => exact hdraft hkey
    · rfl
  -- a draft write of another flow leaves this one alone
  have hwrite : ∀ written : FlowRow, (s.writeDraft written).writes = s.writes ++ [id] ∨
      ∃ row', (s.writeDraft written).tables.flow id = some row' ∧
        row'.draftContent = row.draftContent := by
    intro written
    by_cases hkey : written.id = id
    · exact .inl (by rw [Shared.writeDraft, hkey])
    · refine .inr (hupdate hflow (fun _ => rfl) fun heq => ?_)
      exact absurd (heq.symm.trans (Tables.id_of_flow hflow)) hkey
  cases hmove with
  | created hinsert =>
    obtain ⟨-, rfl⟩ := Tables.insertFlow_eq_some.mp hinsert
    refine .inr ⟨row, ?_, rfl⟩
    change List.find? _ (_ ++ _) = _
    rw [List.find?_append]
    exact congrArg (Option.or · _) hflow
  | committed hstored hcommit =>
    obtain ⟨-, rfl⟩ := Tables.commitVersion_eq_some.mp hcommit
    exact .inr (hupdate hflow (fun _ => rfl) fun _ => rfl)
  | selected => exact .inr (hupdate hflow (fun _ => rfl) fun _ => rfl)
  | updated | restoreRejected | restored => exact hwrite _
  | _ => exact .inr ⟨row, hflow, rfl⟩

end Steps

section Rollback

variable {floats : Float64Text} {h : Handlers floats} {s s' : Shared}
  {request next : Request floats}

/--
A rollback has the content of its target, and so has the draft as long as it is not
written again.
-/
def Job.Restores (s : Shared) (job : Job floats) : Prop :=
  ∀ k, job.target = some k →
    (∃ old, s.tables.version job.flow.id k = some old ∧ old.content = job.content) ∧
    job.mark ≤ s.writes.length ∧
    (job.flow.id ∉ s.writes.drop job.mark →
      ∃ row, s.tables.flow job.flow.id = some row ∧ row.draftContent = job.content)

def Job.HasContent (t : Tables) (job : Job floats) (content : List Char) : Prop :=
  ∀ k, job.target = some k → ∃ old, t.version job.flow.id k = some old ∧ old.content = content

def Request.Restores (s : Shared) : Request floats → Prop
  | .readForRestore f _ old => s.tables.version f.id old.version = some old
  | .restoreDraft f _ old row => s.tables.version f.id old.version = some old ∧
      (∃ current ∈ s.tables.flows, current.id = f.id) ∧
      row.id = f.id ∧ row.draftContent = old.content
  | .selectProfile job _ | .resolveEnv job | .readDraft job _ => job.Restores s
  | .commit job _ draft alone => alone = true → job.HasContent s.tables draft.draftContent
  | .readProject job _ stored alone | .push job _ _ stored alone | .deployed job stored alone =>
    s.tables.version job.flow.id stored.version = some stored ∧
      (alone = true → job.HasContent s.tables stored.content)
  | _ => True

variable {job : Job floats}

theorem Job.HasContent.kept (hjob : job.HasContent s.tables content)
    (hmove : Moves h s request s' next) : job.HasContent s'.tables content := by
  intro k hk
  obtain ⟨old, hold, hcontent⟩ := hjob k hk
  exact ⟨old, Tables.version_of_append hmove.versions_grow hold, hcontent⟩

theorem Job.Restores.kept (hjob : job.Restores s) (hmove : Moves h s request s' next) :
    job.Restores s' := by
  intro k hk
  obtain ⟨⟨old, hold, hcontent⟩, hmark, hdraft⟩ := hjob k hk
  obtain ⟨added, hadded⟩ := hmove.writes_grow
  refine ⟨⟨old, Tables.version_of_append hmove.versions_grow hold, hcontent⟩, ?_, ?_⟩
  · rw [← hadded, List.length_append]
    omega
  · intro hunwritten
    rw [← hadded, List.drop_append_of_le_length hmark] at hunwritten
    obtain ⟨row, hrow, hrowContent⟩ :=
      hdraft fun hmem => hunwritten (List.mem_append_left _ hmem)
    rcases hmove.draft hrow with hwritten | ⟨row', hrow', hkept⟩
    · rw [← hadded] at hwritten
      obtain rfl := List.append_cancel_left hwritten
      exact absurd (List.mem_append_right _ List.mem_cons_self) hunwritten
    · exact ⟨row', hrow', hkept.trans hrowContent⟩

theorem Request.Restores.kept {other : Request floats} (hother : other.Restores s)
    (hmove : Moves h s request s' next) : other.Restores s' := by
  have hversion : ∀ {id : String} {k : Nat} {row : VersionRow},
      s.tables.version id k = some row → s'.tables.version id k = some row :=
    fun hrow => Tables.version_of_append hmove.versions_grow hrow
  cases other with
  | readForRestore f author old => exact hversion hother
  | restoreDraft f author old row =>
    obtain ⟨hold, hcurrent, hrow⟩ := hother
    exact ⟨hversion hold, hmove.flow_kept hcurrent, hrow⟩
  | selectProfile | resolveEnv | readDraft => exact Job.Restores.kept hother hmove
  | commit job env draft alone => exact fun halone => Job.HasContent.kept (hother halone) hmove
  | readProject | push | deployed =>
    exact ⟨hversion hother.1, fun halone => (hother.2 halone).kept hmove⟩
  | _ => trivial

theorem flow_writeDraft {f row : FlowRow} (hcurrent : ∃ current ∈ s.tables.flows, current.id = f.id)
    (hid : row.id = f.id) (hcontent : row.draftContent = content) :
    ∃ written, (s.writeDraft row).tables.flow f.id = some written ∧
      written.draftContent = content := by
  obtain ⟨current, hflow⟩ := Tables.flow_of_mem hcurrent
  refine ⟨_, Tables.flow_updateFlow_of_flow (fun _ => rfl) hflow, ?_⟩
  rw [if_pos ((Tables.id_of_flow hflow).trans hid.symm)]
  exact hcontent

theorem Moves.restores (hmove : Moves h s request s' next) (hrequest : request.Restores s) :
    next.Restores s' := by
  have hmove' := hmove
  cases hmove with
  | checked hflow hfile hnext =>
    -- a deploy has no target
    have hnone : ∀ k, (none : Option Nat) = some k → False := fun k hk => by cases hk
    obtain rfl | ⟨profileID, rfl⟩ := hnext <;> exact fun k hk => (hnone k hk).elim
  | selected => exact Job.Restores.kept hrequest hmove'
  | versionRead hold =>
    obtain ⟨-, -, rfl⟩ := Tables.version_eq_some hold
    exact hold
  | restoring hflow =>
    have hid := Tables.id_of_flow hflow
    exact ⟨hrequest, ⟨_, Tables.mem_of_flow hflow, hid⟩, hid, rfl⟩
  | restored hfile =>
    obtain ⟨hold, hcurrent, hid, hcontent⟩ := hrequest
    intro k hk
    obtain rfl := Option.some.inj hk
    exact ⟨⟨_, hold, rfl⟩, Nat.le_refl _, fun _ => flow_writeDraft hcurrent hid hcontent⟩
  | resolved | projectRead | pushed => exact hrequest
  | reread hflow =>
    intro halone k hk
    obtain ⟨⟨old, hold, hcontent⟩, -, hdraft⟩ := hrequest k hk
    obtain ⟨row, hrow, hrowContent⟩ := hdraft (by simpa using halone)
    rw [hflow] at hrow
    obtain rfl := Option.some.inj hrow
    exact ⟨old, hold, hcontent.trans hrowContent.symm⟩
  | committed hstored hcommit =>
    subst hstored
    refine ⟨Tables.version_commitVersion hcommit, fun halone => ?_⟩
    exact Job.HasContent.kept (hrequest halone) hmove'
  | _ => trivial

theorem keeps_history (h : Handlers floats) :
    Keeps (Moves h) (fun _ _ => True) (fun s => History s.tables)
      fun s request => request.OnFlow s.tables ∧ request.Restores s where
  shared hmove _ ht hown := hmove.history hown.1 ht
  self hmove _ _ hown := ⟨hmove.onFlow, hmove.restores hown.2⟩
  other hmove _ _ _ hother := ⟨hother.1.kept hmove, hother.2.kept hmove⟩

end Rollback

namespace Service

variable {floats : Float64Text} {h : Handlers floats} {s s' : Service floats}
  {actions : List (ServiceAction floats)}

structure Fresh (s : Service floats) : Prop where
  flows : s.shared.tables.flows = []
  versions : s.shared.tables.versions = []
  writes : s.shared.writes = []
  calls : s.shared.calls = []
  requests : s.requests = []

theorem Fresh.history (hfresh : s.Fresh) : History s.shared.tables where
  numbered id := by rw [Tables.versionsOf, hfresh.versions]; rfl
  deployed row hrow := by rw [hfresh.flows] at hrow; cases hrow
  owned stored hstored := by rw [hfresh.versions] at hstored; cases hstored

theorem Fresh.forall_requests (hfresh : s.Fresh) {P : Request floats → Prop} :
    ∀ request ∈ s.requests, P request := by
  rw [hfresh.requests]
  exact List.forall_mem_nil P

variable {a : ServiceAction floats}

theorem step_history
    (hinv : History s.shared.tables ∧
      ∀ request ∈ s.requests, request.OnFlow s.shared.tables ∧ request.Restores s.shared)
    (hstep : s.step h a = some s') :
    History s'.shared.tables ∧
      ∀ request ∈ s'.requests, request.OnFlow s'.shared.tables ∧ request.Restores s'.shared := by
  refine step_keeps (keeps_history h) ?_ hinv ?_ hstep
  · intro shared request hnew
    cases request <;> first | exact ⟨trivial, trivial⟩ | cases hnew
  · cases a with
    | arrive request => trivial
    | advance index now ok => exact fun _ _ => trivial

theorem run_history {s₀ : Service floats} (hfresh : s₀.Fresh)
    (hrun : run (step h) s₀ actions = some s) : History s.shared.tables ∧
      ∀ request ∈ s.requests, request.OnFlow s.shared.tables ∧ request.Restores s.shared := by
  exact @run_invariant _ _ _ (fun s : Service floats => History s.shared.tables ∧
    ∀ request ∈ s.requests, request.OnFlow s.shared.tables ∧ request.Restores s.shared)
    step_history _ _ _ ⟨hfresh.history, hfresh.forall_requests⟩ hrun

theorem step_versions_grow (hstep : s.step h a = some s') :
    s.shared.tables.versions <+: s'.shared.tables.versions := by
  obtain ⟨request, rfl, -, rfl⟩ | ⟨index, now, ok, request, next, rfl, -, hadvance, -⟩ :=
    step_cases hstep
  · exact List.prefix_rfl
  · exact (moves_of_advance hadvance).versions_grow

theorem run_versions_grow (hrun : run (step h) s actions = some s') :
    s.shared.tables.versions <+: s'.shared.tables.versions :=
  @run_invariant _ _ _
    (fun s' : Service floats => s.shared.tables.versions <+: s'.shared.tables.versions)
    (fun hgrows hstep => hgrows.trans (step_versions_grow hstep)) _ _ _ List.prefix_rfl hrun

end Service

/-- The version that a request has created, and whether its draft write was the last one. -/
def Request.created {floats : Float64Text} :
    Request floats → Option (Job floats × VersionRow × Bool)
  | .readProject job _ stored alone => some (job, stored, alone)
  | .push job _ _ stored alone => some (job, stored, alone)
  | .deployed job stored alone => some (job, stored, alone)
  | _ => none

theorem Request.Restores.of_created {floats : Float64Text} {s : Shared}
    {request : Request floats} {job : Job floats} {stored : VersionRow} {alone : Bool}
    (hrequest : request.Restores s) (hcreated : request.created = some (job, stored, alone)) :
    s.tables.version job.flow.id stored.version = some stored ∧
      (alone = true → job.HasContent s.tables stored.content) := by
  cases request with
  | readProject | push | deployed => cases hcreated; exact hrequest
  | _ => cases hcreated

/--
After any interleaving of requests the versions of every flow are numbered `1, ..., n` and
`n` is the deployed version; no later step changes a stored version; and a rollback whose
draft is not written by another request has stored the content of its target.
-/
theorem version_history {floats : Float64Text} (h : Handlers floats) {s₀ s : Service floats}
    {actions : List (ServiceAction floats)} (hfresh : s₀.Fresh)
    (hrun : run (Service.step h) s₀ actions = some s) :
    (∀ id, ∃ n, (s.shared.tables.versionsOf id).map VersionRow.version = List.range' 1 n ∧
      ∀ row, s.shared.tables.flow id = some row →
        row.deployedVersion = if n = 0 then none else some n) ∧
    (∀ more s', run (Service.step h) s more = some s' →
      s.shared.tables.versions <+: s'.shared.tables.versions) ∧
    (∀ request ∈ s.requests, ∀ job stored k, request.created = some (job, stored, true) →
      job.target = some k → ∃ target,
        s.shared.tables.version job.flow.id stored.version = some stored ∧
        s.shared.tables.version job.flow.id k = some target ∧
        stored.content = target.content) := by
  obtain ⟨ht, hrequests⟩ := Service.run_history hfresh hrun
  refine ⟨fun id => ⟨(s.shared.tables.versionsOf id).length, ht.numbered id, ?_⟩,
    fun _ _ => Service.run_versions_grow, ?_⟩
  · intro row hrow
    rw [ht.deployed row (Tables.mem_of_flow hrow), Tables.id_of_flow hrow]
    cases (s.shared.tables.versionsOf id).length <;> rfl
  · intro request hrequest job stored k hcreated hk
    obtain ⟨hstored, hcontent⟩ := (hrequests request hrequest).2.of_created hcreated
    obtain ⟨target, htarget, heq⟩ := hcontent rfl k hk
    exact ⟨target, hstored, htarget, heq.symm⟩

def injectContent (node : String) : List Char :=
  ("\x7b\"mode\":\"streaming\",\"graph\":\x7b\"nodes\":[\x7b\"id\":\"" ++ node ++
    "\",\"type\":\"inject\"\x7d]\x7d\x7d").toList

def freshService : Service Format.exactFloats where
  shared := { tables := { projects := [{ id := "p" }] } }

theorem freshService_fresh : freshService.Fresh := ⟨rfl, rfl, rfl, rfl, rfl⟩

def steps (index n : Nat) : List (ServiceAction Format.exactFloats) :=
  List.replicate n (.advance index "2026-01-01T00:00:00Z" true)

def rollbackActions : List (ServiceAction Format.exactFloats) :=
  [ServiceAction.arrive (.createFlow "f" "p" "flow" (injectContent "a"))] ++ steps 0 1 ++
    [ServiceAction.arrive (.deployFlow "f" "ann" "" none)] ++ steps 1 6 ++
    [ServiceAction.arrive (.updateFlow "f" none (some (injectContent "b")))] ++ steps 2 3 ++
    [ServiceAction.arrive (.deployFlow "f" "ann" "" none)] ++ steps 3 6 ++
    [ServiceAction.arrive (.rollbackFlow "f" "ann" 1)] ++ steps 4 9

theorem version_history_of_rollback :
    ∃ s, run (Service.step smallHandlers) freshService rollbackActions = some s ∧
      (∀ id, ∃ n, (s.shared.tables.versionsOf id).map VersionRow.version = List.range' 1 n ∧
        ∀ row, s.shared.tables.flow id = some row →
          row.deployedVersion = if n = 0 then none else some n) ∧
      ∃ job stored target, .deployed job stored true ∈ s.requests ∧ job.target = some 1 ∧
        stored.version = 3 ∧ s.shared.tables.version "f" 1 = some target ∧
        stored.content = target.content := by
  have hany : (run (Service.step smallHandlers) freshService rollbackActions).any (fun s =>
      s.requests.any fun request =>
        match request with
        | .deployed job stored alone =>
          decide (alone = true ∧ job.target = some 1 ∧ stored.version = 3 ∧ job.flow.id = "f")
        | _ => false) = true := by
    decide +kernel
  obtain ⟨s, hrun, hany⟩ := (Option.any_eq_true _ _).mp hany
  obtain ⟨request, hrequest, htest⟩ := List.any_eq_true.mp hany
  obtain ⟨hnumbered, -, hrollback⟩ := version_history smallHandlers freshService_fresh hrun
  refine ⟨s, hrun, hnumbered, ?_⟩
  split at htest
  next job stored alone =>
    obtain ⟨rfl, htarget, hversion, hid⟩ := of_decide_eq_true htest
    obtain ⟨target, -, hold, hcontent⟩ := hrollback _ hrequest job stored 1 rfl htarget
    exact ⟨job, stored, target, hrequest, htarget, hversion, hid ▸ hold, hcontent⟩
  · cases htest

end DataPipe.ControlPlane
