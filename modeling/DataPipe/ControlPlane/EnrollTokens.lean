import DataPipe.ControlPlane.Fleet
import DataPipe.Foundation.Threads

/-!
# Tokens and the runtimes enrolled with them

Calls of `Authenticate` whose statements interleave with each other and with those
of an administrator.  `used_by_runtime_id` is written and never read, so that
nothing keeps a second new runtime from enrolling with a token.
-/

namespace DataPipe.ControlPlane.Enrollment

open DataPipe.Foundation

/-- The fleet and the calls of `Authenticate`, each where it stands. -/
structure Traffic where
  db : Fleet := {}
  calls : List (Registration × AuthPc) := []
  deriving DecidableEq

def Statement.administers : Statement → Bool
  | .insertDevice row => row.enrollTokenID.isNone
  | .markUsed .. => false
  | _ => true

inductive Event where
  | start (call : Registration)
  | advance (index : Nat) (fails : Bool)
  | administer (statement : Statement) (fails : Bool)

section Steps

variable (d : Dialect) (hash : String → String)

def authStep (fails : Bool) (db : Fleet) (thread : Registration × AuthPc) :
    Option (Fleet × Registration × AuthPc) :=
  (advance d hash fails db thread.1 thread.2).map fun (db, pc) => (db, thread.1, pc)

def react (s : Traffic) : Event → Option Traffic
  | .start call => some { s with calls := s.calls ++ [(call, .readDevice)] }
  | .advance index fails =>
    (advanceAt (authStep d hash fails) s.db s.calls index).map fun (db, calls) => ⟨db, calls⟩
  | .administer statement fails =>
    if statement.administers then
      some { s with db := (attempt d fails s.db statement).getD s.db }
    else none

/-- Every device enrolled with the token, and every call about to enroll one with it, is the
runtime's own. -/
def exclusive (s : Traffic) (id : Uuid) (runtimeID : String) : Bool :=
  s.db.bindings.all (fun binding => binding.2 ≠ some id || binding.1 = runtimeID) &&
    s.calls.all fun thread =>
      match thread.2 with
      | .enroll id' _ => id' ≠ id || thread.1.runtimeID = runtimeID
      | _ => true

def oneDevice (s : Traffic) : Event → Bool
  | .advance index _ =>
    match s.calls[index]? with
    | some (call, .findToken none) =>
      match s.db.findEnrollTokenByHash (hash call.enrollmentToken) with
      | some tok => exclusive s tok.id call.runtimeID
      | none => true
    | _ => true
  | .start _ | .administer _ _ => true

end Steps

def Holds (s : Traffic) (runtimeID : String) (id : Uuid) : Prop :=
  Bound s.db runtimeID id ∨
    ∃ call group, (call, .enroll id group) ∈ s.calls ∧ call.runtimeID = runtimeID

variable {runtimeID : String} {statement : Statement}

theorem eq_of_exclusive {s : Traffic} {id : Uuid} {owner : String}
    (hexclusive : exclusive s id owner = true) (hholds : Holds s runtimeID id) :
    runtimeID = owner := by
  obtain ⟨hbindings, hcalls⟩ := (Bool.and_eq_true _ _).mp hexclusive
  rcases hholds with hbound | ⟨call, group, hcall, rfl⟩
  · have hown := List.all_eq_true.mp hbindings _ hbound
    simpa using hown
  · have hown := List.all_eq_true.mp hcalls _ hcall
    simpa using hown

def Granted (hash : String → String) (db : Fleet) (call : Registration) : AuthPc → Prop
  | .insertUnenrolled => call.enrollmentToken = ""
  | .findToken (some row) => (call.runtimeID, row.enrollTokenID) ∈ db.bindings
  | .enroll id _ => (id, hash call.enrollmentToken) ∈ db.hashes
  | .markUsed id =>
    Bound db call.runtimeID id ∧ (id, hash call.enrollmentToken) ∈ db.hashes
  | .done .accepted =>
    call.enrollmentToken = "" ∨
      ∃ id, Bound db call.runtimeID id ∧ (id, hash call.enrollmentToken) ∈ db.hashes
  | .readDevice | .findToken none | .done (.rejected _) => True

section Threads

variable {d : Dialect} {hash : String → String} {db db' : Fleet} {call : Registration} {pc : AuthPc}

theorem Granted.mono (hgranted : Granted hash db call pc) (hbindings : db.bindings <+: db'.bindings)
    (hhashes : db.hashes <+: db'.hashes) : Granted hash db' call pc := by
  cases pc with
  | insertUnenrolled => exact hgranted
  | findToken existing =>
    cases existing with
    | none => trivial
    | some row => exact hbindings.subset hgranted
  | enroll id group => exact hhashes.subset hgranted
  | markUsed id => exact ⟨hbindings.subset hgranted.1, hhashes.subset hgranted.2⟩
  | done verdict =>
    cases verdict with
    | rejected error => trivial
    | accepted =>
      refine hgranted.imp_right ?_
      rintro ⟨id, hbound, hpresented⟩
      exact ⟨id, hbindings.subset hbound, hhashes.subset hpresented⟩
  | readDevice => trivial

theorem Usable.mem_hashes {tok : EnrollTokenRow} (husable : Usable hash db call tok) :
    (tok.id, hash call.enrollmentToken) ∈ db.hashes := by
  have hfound := List.find?_some husable.found
  refine List.mem_map.mpr ⟨tok, List.mem_of_find?_eq_some husable.found, ?_⟩
  rw [of_decide_eq_true hfound]

variable {pc' : AuthPc}

theorem Granted.step (hgranted : Granted hash db call pc)
    (hmoves : Moves d hash db call pc db' pc') : Granted hash db' call pc' := by
  cases hmoves with
  | rejects error => trivial
  | known hdevice hunbound htoken => exact .inl htoken
  | unknown hdevice htoken => exact htoken
  | presents htoken =>
    cases hdevice : db.deviceRow call.runtimeID with
    | none => trivial
    | some row => exact mem_bindings_of_deviceRow hdevice
  | recorded hinsert => exact .inl hgranted
  | @recognised row tok husable hbound =>
    have hrow : (call.runtimeID, row.enrollTokenID) ∈ db.bindings := hgranted
    rw [hbound] at hrow
    exact .inr ⟨tok.id, hrow, husable.mem_hashes⟩
  | finds husable => exact husable.mem_hashes
  | @enrolls id group hinsert =>
    refine ⟨?_, hgranted⟩
    rw [Bound, bindings_apply]
    exact List.mem_append_right _ (List.mem_singleton_self _)
  | marks id =>
    obtain ⟨hbound, hpresented⟩ := hgranted
    refine .inr ⟨id, ?_, ?_⟩
    · rw [Bound, bindings_apply]
      exact List.mem_append_left _ hbound
    · rw [hashes_apply]
      exact List.mem_append_left _ hpresented
  | unmarked id => exact .inr ⟨id, hgranted⟩

variable {id : Uuid}

theorem bound_of_administers (hadministers : statement.administers = true)
    (hbound : Bound (statement.apply db) runtimeID id) : Bound db runtimeID id := by
  rw [Bound, bindings_apply] at hbound
  rcases List.mem_append.mp hbound with hold | hnew
  · exact hold
  · cases statement with
    | insertDevice row =>
      have hrow : some id = row.enrollTokenID := congrArg Prod.snd (List.mem_singleton.mp hnew)
      rw [Statement.administers, ← hrow] at hadministers
      contradiction
    | _ => contradiction

theorem bound_of_moves (hmoves : Moves d hash db call pc db' pc')
    (hbound : Bound db' runtimeID id) :
    Bound db runtimeID id ∨ ∃ group, pc = .enroll id group ∧ runtimeID = call.runtimeID := by
  cases hmoves with
  | recorded hinsert => exact .inl (bound_of_administers rfl hbound)
  | @enrolls id' group hinsert =>
    rw [Bound, bindings_apply] at hbound
    rcases List.mem_append.mp hbound with hold | hnew
    · exact .inl hold
    · obtain ⟨rfl, hid⟩ := Prod.mk.inj (List.mem_singleton.mp hnew)
      obtain rfl := Option.some.inj hid
      exact .inr ⟨group, rfl, rfl⟩
  | marks id' =>
    rw [Bound, bindings_apply] at hbound
    exact .inl ((List.mem_append.mp hbound).resolve_right List.not_mem_nil)
  | _ => exact .inl hbound

end Threads

section Runs

variable {d : Dialect} {hash : String → String} {s s' : Traffic}

structure OneRuntime (hash : String → String) (s : Traffic) : Prop where
  unique : s.db.Unique
  holds : ∀ {runtimeID runtimeID' id}, Holds s runtimeID id → Holds s runtimeID' id →
    runtimeID = runtimeID'
  granted : ∀ thread ∈ s.calls, Granted hash s.db thread.1 thread.2

theorem OneRuntime.of_holds (hone : OneRuntime hash s) (hunique : s'.db.Unique)
    (hholds : ∀ runtimeID id, Holds s' runtimeID id → Holds s runtimeID id)
    (hgranted : ∀ thread ∈ s'.calls, Granted hash s'.db thread.1 thread.2) :
    OneRuntime hash s' where
  unique := hunique
  holds h h' := hone.holds (hholds _ _ h) (hholds _ _ h')
  granted := hgranted

theorem oneRuntime_start (hone : OneRuntime hash s) (call : Registration) :
    OneRuntime hash { s with calls := s.calls ++ [(call, .readDevice)] } := by
  refine hone.of_holds hone.unique ?_ (forall_mem_concat hone.granted trivial)
  rintro runtimeID id (hbound | ⟨other, group, hcall, hruntime⟩)
  · exact .inl hbound
  · refine .inr ⟨other, group, ?_, hruntime⟩
    rcases List.mem_append.mp hcall with hold | hnew
    · exact hold
    · cases List.mem_singleton.mp hnew

theorem oneRuntime_administer (hone : OneRuntime hash s)
    (hadministers : statement.administers = true) (hpermitted : statement.permitted d s.db = true) :
    OneRuntime hash { s with db := statement.apply s.db } := by
  refine hone.of_holds (hone.unique.apply hpermitted) ?_ fun thread hthread =>
    (hone.granted thread hthread).mono ?_ ?_
  · rintro runtimeID id (hbound | hcall)
    · exact .inl (bound_of_administers hadministers hbound)
    · exact .inr hcall
  · rw [bindings_apply]
    exact List.prefix_append _ _
  · rw [hashes_apply]
    exact List.prefix_append _ _

section Advance

variable {index : Nat} {call : Registration} {pc pc' : AuthPc} {db' : Fleet}

theorem holds_of_moves (hthread : s.calls[index]? = some (call, pc))
    (hmoves : Moves d hash s.db call pc db' pc') {id : Uuid}
    (hholds : Holds ⟨db', s.calls.set index (call, pc')⟩ runtimeID id) :
    Holds s runtimeID id ∨ ∃ group, pc' = .enroll id group ∧ runtimeID = call.runtimeID := by
  rcases hholds with hbound | ⟨other, group, hother, rfl⟩
  · rcases bound_of_moves hmoves hbound with hold | ⟨group, rfl, rfl⟩
    · exact .inl (.inl hold)
    · exact .inl (.inr ⟨call, group, List.mem_of_getElem? hthread, rfl⟩)
  · rcases List.mem_or_eq_of_mem_set hother with hold | hnew
    · exact .inl (.inr ⟨other, group, hold, rfl⟩)
    · obtain ⟨rfl, rfl⟩ := Prod.mk.inj hnew
      exact .inr ⟨group, rfl, rfl⟩

theorem oneRuntime_advance (hone : OneRuntime hash s)
    (hthread : s.calls[index]? = some (call, pc)) (hmoves : Moves d hash s.db call pc db' pc')
    (hcond : pc = .findToken none → ∀ tok,
      s.db.findEnrollTokenByHash (hash call.enrollmentToken) = some tok →
        exclusive s tok.id call.runtimeID = true) :
    OneRuntime hash ⟨db', s.calls.set index (call, pc')⟩ := by
  have hgrown := Grown.of_moves hmoves
  refine ⟨hgrown.unique hone.unique, ?_, ?_⟩
  · intro runtimeID runtimeID' id hholds hholds'
    have howner : ∀ {group other}, pc' = .enroll id group → Holds s other id →
        other = call.runtimeID := by
      rintro group other rfl hother
      cases hmoves with
      | @finds tok husable => exact eq_of_exclusive (hcond rfl tok husable.found) hother
    rcases holds_of_moves hthread hmoves hholds with hold | ⟨group, hpc, rfl⟩
    · rcases holds_of_moves hthread hmoves hholds' with hold' | ⟨group, hpc, rfl⟩
      · exact hone.holds hold hold'
      · exact howner hpc hold
    · rcases holds_of_moves hthread hmoves hholds' with hold' | ⟨group', -, rfl⟩
      · exact (howner hpc hold').symm
      · rfl
  · have hkept : ∀ thread ∈ s.calls, Granted hash db' thread.1 thread.2 := fun thread hmem =>
      (hone.granted thread hmem).mono hgrown.bindings (hgrown.hashes ▸ List.prefix_refl _)
    exact forall_mem_set hkept ((hone.granted _ (List.mem_of_getElem? hthread)).step hmoves)

end Advance

theorem oneRuntime_react (hone : OneRuntime hash s) {event : Event}
    (hcond : oneDevice hash s event = true) (hreact : react d hash s event = some s') :
    OneRuntime hash s' := by
  cases event with
  | start call =>
    obtain rfl := Option.some.inj hreact
    exact oneRuntime_start hone call
  | administer statement fails =>
    obtain ⟨hadministers, hs'⟩ := Option.ite_none_right_eq_some.mp hreact
    obtain rfl := Option.some.inj hs'
    cases hattempt : attempt d fails s.db statement with
    | none => exact hone
    | some db =>
      obtain ⟨hpermitted, rfl⟩ := attempt_eq_some hattempt
      exact oneRuntime_administer hone hadministers hpermitted
  | advance index fails =>
    obtain ⟨⟨db', calls'⟩, hadvance, rfl⟩ := Option.map_eq_some_iff.mp hreact
    obtain ⟨⟨call, pc⟩, thread', hthread, hstep, rfl⟩ := advanceAt_eq_some.mp hadvance
    obtain ⟨⟨db'', pc'⟩, hmoves, heq⟩ := Option.map_eq_some_iff.mp hstep
    obtain ⟨rfl, rfl⟩ := Prod.mk.inj heq
    refine oneRuntime_advance hone hthread (moves_of_advance hmoves) ?_
    rintro rfl tok htok
    rw [oneDevice, hthread] at hcond
    dsimp only at hcond
    rwa [htok] at hcond

theorem oneRuntime_init : OneRuntime hash {} where
  unique := Fleet.unique_empty
  holds := by
    rintro runtimeID runtimeID' id (hbound | ⟨call, group, hcall, -⟩) _
    · contradiction
    · contradiction
  granted := List.forall_mem_nil _

/-- While new runtimes find only tokens that no other runtime uses, a token enrolls one runtime at
most, and a call of another runtime that presents it has been rejected. -/
theorem token_enrolls_one_runtime {events : List Event}
    (hmeets : Meets (react d hash) (fun s event => oneDevice hash s event = true) {} events)
    (hrun : run (react d hash) {} events = some s) :
    (∀ runtimeID runtimeID' id, Bound s.db runtimeID id → Bound s.db runtimeID' id →
      runtimeID = runtimeID') ∧
    ∀ call verdict runtimeID id, (call, .done verdict) ∈ s.calls → call.enrollmentToken ≠ "" →
      (id, hash call.enrollmentToken) ∈ s.db.hashes → Bound s.db runtimeID id →
      call.runtimeID ≠ runtimeID → verdict ≠ .accepted := by
  have hone : OneRuntime hash s :=
    run_invariant_of_meets (fun hone hcond hreact => oneRuntime_react hone hcond hreact)
      oneRuntime_init hmeets hrun
  refine ⟨fun runtimeID runtimeID' id h h' => hone.holds (.inl h) (.inl h'), ?_⟩
  rintro call verdict runtimeID id hcall htoken hpresented hbound hne rfl
  rcases hone.granted _ hcall with hempty | ⟨id', hbound', hpresented'⟩
  · exact htoken hempty
  · have heq := List.inj_on_of_nodup_map hone.unique.digests hpresented hpresented' rfl
    obtain rfl : id = id' := congrArg Prod.fst heq
    exact hne (hone.holds (.inl hbound') (.inl hbound))

end Runs

theorem line1_nonempty : "t" ≠ "" := by decide

def line1Token : Uuid := ⟨"t", line1_nonempty⟩

def gatewayEvents : List Event :=
  [.administer (.insertToken (issuedToken id line1Token "secret" "line 1" "" "admin" "now")) false,
    .start ⟨"gateway", "edge", "secret", "now"⟩,
    .advance 0 false, .advance 0 false, .advance 0 false, .advance 0 false]

def knownRuntimeEvents : List Event :=
  gatewayEvents ++
    [Event.administer (.insertDevice { runtimeID := "pc", kind := "server", enrolledAt := "now" })
        false,
      .start ⟨"pc", "server", "secret", "now"⟩, .advance 1 false, .advance 1 false]

theorem known_runtime_rejected :
    ∃ s, run (react .postgres id) {} knownRuntimeEvents = some s ∧
      Bound s.db "gateway" line1Token ∧
      (⟨"pc", "server", "secret", "now"⟩, .done (.rejected (.differentToken "pc"))) ∈ s.calls ∧
      ∀ runtimeID, Bound s.db runtimeID line1Token → runtimeID = "gateway" := by
  obtain ⟨s, hrun, hgateway, hrejected⟩ : ∃ s, run (react .postgres id) {} knownRuntimeEvents =
      some s ∧ Bound s.db "gateway" line1Token ∧
      (⟨"pc", "server", "secret", "now"⟩, .done (.rejected (.differentToken "pc"))) ∈ s.calls := by
    decide
  refine ⟨s, hrun, hgateway, hrejected, ?_⟩
  intro runtimeID hbound
  exact (token_enrolls_one_runtime (by decide) hrun).1 runtimeID "gateway" line1Token hbound
    hgateway

theorem second_runtime_enrolls :
    ∃ s, run (react .postgres id) {}
        (gatewayEvents ++
          [Event.start ⟨"intruder", "edge", "secret", "now"⟩,
            .advance 1 false, .advance 1 false, .advance 1 false, .advance 1 false]) = some s ∧
      Bound s.db "gateway" line1Token ∧ Bound s.db "intruder" line1Token ∧
      s.calls.map Prod.snd = [.done .accepted, .done .accepted] :=
  ⟨_, rfl, .head _, .tail _ (.head _), rfl⟩

end DataPipe.ControlPlane.Enrollment
