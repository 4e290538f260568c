import DataPipe.ControlPlane.Fleet

/-!
# Enrollment over whole calls

Histories of calls that do not interrupt each other.  The binding of a runtime to
its token is permanent, and a call is accepted only with what the binding asks for.
-/

namespace DataPipe.ControlPlane.Enrollment

open DataPipe.Foundation

variable {db : Fleet}

section Finish

variable {d : Dialect} {hash : String → String} {call : Registration} {pc : AuthPc}

inductive Entitled (hash : String → String) (db : Fleet) (call : Registration) : Prop where
  | anonymous (hunbound : ∀ row, db.deviceRow call.runtimeID = some row → row.enrollTokenID = none)
      (htoken : call.enrollmentToken = "")
  | bearer {row : DeviceRow} {tok : EnrollTokenRow}
      (hdevice : db.deviceRow call.runtimeID = some row) (husable : Usable hash db call tok)
      (hbound : row.enrollTokenID = some tok.id)
  | newcomer {tok : EnrollTokenRow} (hdevice : db.deviceRow call.runtimeID = none)
      (husable : Usable hash db call tok)

/-- What a call that found `found` knows before each of its statements. -/
def Progress (hash : String → String) (found : Fleet) (call : Registration) (db : Fleet) :
    AuthPc → Prop
  | .readDevice => db = found
  | .insertUnenrolled =>
    db = found ∧ found.deviceRow call.runtimeID = none ∧ call.enrollmentToken = ""
  | .findToken existing => db = found ∧ existing = found.deviceRow call.runtimeID
  | .enroll _ _ => Entitled hash found call
  | .markUsed _ | .done .accepted =>
    Entitled hash found call ∧ call.runtimeID ∈ db.bindings.map Prod.fst
  | .done (.rejected _) => True

theorem mem_keys_insertDevice (db : Fleet) (row : DeviceRow) :
    row.runtimeID ∈ ((Statement.insertDevice row).apply db).bindings.map Prod.fst := by
  rw [bindings_apply, List.map_append]
  exact List.mem_append_right _ (List.mem_singleton_self _)

variable {pc' : AuthPc} {db' found : Fleet}

theorem Progress.step (hprogress : Progress hash found call db pc)
    (hmoves : Moves d hash db call pc db' pc') : Progress hash found call db' pc' := by
  have hgrown := Grown.of_moves hmoves
  cases hmoves with
  | rejects error => trivial
  | known hdevice hunbound htoken =>
    obtain rfl : db = found := hprogress
    refine ⟨.anonymous (fun row hrow => ?_) htoken,
      List.mem_map_of_mem (mem_bindings_of_deviceRow hdevice)⟩
    rw [hdevice] at hrow
    exact Option.some.inj hrow ▸ hunbound
  | unknown hdevice htoken =>
    obtain rfl : db = found := hprogress
    exact ⟨rfl, hdevice, htoken⟩
  | presents htoken =>
    obtain rfl : db = found := hprogress
    exact ⟨rfl, rfl⟩
  | recorded hinsert =>
    obtain ⟨rfl, hdevice, htoken⟩ := hprogress
    refine ⟨.anonymous (fun row hrow => ?_) htoken, mem_keys_insertDevice db call.unenrolled⟩
    rw [hdevice] at hrow
    contradiction
  | recognised husable hbound =>
    obtain ⟨rfl, hexisting⟩ := hprogress
    exact ⟨.bearer hexisting.symm husable hbound,
      List.mem_map_of_mem (mem_bindings_of_deviceRow hexisting.symm)⟩
  | finds husable =>
    obtain ⟨rfl, hexisting⟩ := hprogress
    exact .newcomer hexisting.symm husable
  | enrolls hinsert => exact ⟨hprogress, mem_keys_insertDevice db (call.enrolled _ _)⟩
  | marks id =>
    obtain ⟨hentitled, hmem⟩ := hprogress
    exact ⟨hentitled, hgrown.mem_keys hmem⟩
  | unmarked id => exact hprogress

def AuthPc.left : AuthPc → Nat
  | .readDevice => 4
  | .findToken _ => 3
  | .enroll _ _ => 2
  | .insertUnenrolled | .markUsed _ => 1
  | .done _ => 0

theorem left_lt_of_moves (hmoves : Moves d hash db call pc db' pc') (hleft : 0 < pc.left) :
    pc'.left < pc.left := by
  cases hmoves with
  | rejects error => exact hleft
  | _ => simp [AuthPc.left]

theorem isSome_advance (fails : Bool) (db : Fleet) (hleft : 0 < pc.left) :
    (advance d hash fails db call pc).isSome := by
  fun_cases advance d hash fails db call pc
  case case16 => contradiction
  all_goals rfl

theorem finish_spec (fuel : Nat) (faults : List Bool) (hfuel : pc.left ≤ fuel)
    (hprogress : Progress hash found call db pc) :
    ∃ db' verdict, finish d hash call fuel faults db pc = (db', .done verdict) ∧
      Grown db db' ∧ Progress hash found call db' (.done verdict) := by
  induction fuel generalizing faults db pc with
  | zero =>
    cases pc with
    | done verdict => exact ⟨db, verdict, rfl, .refl db, hprogress⟩
    | _ => contradiction
  | succ fuel ih =>
    rcases Nat.eq_zero_or_pos pc.left with hdone | hleft
    · cases pc with
      | done verdict => exact ⟨db, verdict, rfl, .refl db, hprogress⟩
      | _ => contradiction
    · obtain ⟨⟨next, pc'⟩, hadvance⟩ :=
        Option.isSome_iff_exists.mp (isSome_advance (faults.headD false) db hleft)
      have hmoves := moves_of_advance hadvance
      have hlower := left_lt_of_moves hmoves hleft
      obtain ⟨db', verdict, hfinish, hgrown, hend⟩ :=
        ih faults.tail (by omega) (hprogress.step hmoves)
      rw [finish, hadvance]
      exact ⟨db', verdict, hfinish, (Grown.of_moves hmoves).trans hgrown, hend⟩

theorem authenticate_spec (d : Dialect) (hash : String → String) (faults : List Bool) (db : Fleet)
    (call : Registration) :
    ∃ db' verdict, authenticate d hash faults db call = (db', .done verdict) ∧
      Grown db db' ∧ Progress hash db call db' (.done verdict) :=
  finish_spec 4 faults (Nat.le_refl 4) rfl

end Finish

inductive Call where
  | createRuntimeGroup (name description now : String)
  | deleteRuntimeGroup (name : String)
  | createEnrollToken (id : Uuid) (plaintext displayName group createdBy now : String)
  | revokeEnrollToken (id now : String)
  | assignRuntimeGroup (runtimeID displayName : String) (group : Option String) (now : String)
  | authenticate (call : Registration)

/-- The fleet, the tokens that were handed out and the runtimes that were accepted so far. -/
structure History where
  db : Fleet := {}
  issued : List (Uuid × String) := []
  accepted : List String := []
  deriving DecidableEq

section Histories

variable (d : Dialect) (hash : String → String)

def perform (s : History) (faults : List Bool) : Call → History
  | .createRuntimeGroup name description now =>
    { s with db := execAll d [.insertGroup ⟨name, description, now⟩] faults s.db }
  | .deleteRuntimeGroup name => { s with db := execAll d (deleteRuntimeGroup name) faults s.db }
  | .createEnrollToken id plaintext displayName group createdBy now =>
    let row := issuedToken hash id plaintext displayName group createdBy now
    match attempt d (faults.headD false) s.db (.insertToken row) with
    | none => s
    | some db => { s with db, issued := s.issued ++ [(id, plaintext)] }
  | .revokeEnrollToken id now => { s with db := execAll d [.revokeToken id now] faults s.db }
  | .assignRuntimeGroup runtimeID displayName group now =>
    { s with
      db := execAll d (assignRuntimeGroup s.db runtimeID displayName group now) faults s.db }
  | .authenticate call =>
    let (db, pc) := authenticate d hash faults s.db call
    { s with
      db
      accepted := if pc = .done .accepted then s.accepted ++ [call.runtimeID] else s.accepted }

def step (s : History) (action : Call × List Bool) : Option History :=
  some (perform d hash s action.2 action.1)

structure Sound (s : History) : Prop where
  unique : s.db.Unique
  issued : s.db.hashes = s.issued.map fun token => (token.1, hash token.2)
  accepted : ∀ runtimeID ∈ s.accepted, runtimeID ∈ s.db.bindings.map Prod.fst

variable {d hash} {s s' : History} {actions : List (Call × List Bool)}

theorem Sound.of_grown (hsound : Sound hash s) (hgrown : Grown s.db db) {accepted : List String}
    (haccepted : ∀ runtimeID ∈ accepted, runtimeID ∈ db.bindings.map Prod.fst) :
    Sound hash { s with db, accepted } where
  unique := hgrown.unique hsound.unique
  issued := hgrown.hashes.trans hsound.issued
  accepted := haccepted

theorem newHashes_assignRuntimeGroup (db : Fleet) (runtimeID displayName : String)
    (group : Option String) (now : String) :
    ∀ statement ∈ assignRuntimeGroup db runtimeID displayName group now,
      statement.newHashes = [] := by
  refine List.forall_mem_append.mpr ⟨List.forall_mem_append.mpr ⟨?_, ?_⟩, ?_⟩
  · split <;> simp [Statement.newHashes]
  · split <;> simp [Statement.newHashes]
  · split <;> simp [Statement.newHashes]

theorem sound_execAll (hsound : Sound hash s) {statements : List Statement}
    (hhashes : ∀ statement ∈ statements, statement.newHashes = []) (faults : List Bool) :
    Sound hash { s with db := execAll d statements faults s.db } ∧
      s.db.bindings <+: (execAll d statements faults s.db).bindings := by
  have hgrown : Grown s.db (execAll d statements faults s.db) := Grown.execAll hhashes faults s.db
  exact ⟨hsound.of_grown hgrown fun runtimeID hmem => hgrown.mem_keys (hsound.accepted _ hmem),
    hgrown.bindings⟩

theorem sound_perform (hsound : Sound hash s) (faults : List Bool) (call : Call) :
    Sound hash (perform d hash s faults call) ∧
      s.db.bindings <+: (perform d hash s faults call).db.bindings := by
  cases call with
  | createRuntimeGroup | revokeEnrollToken =>
    exact sound_execAll hsound (List.forall_mem_singleton.mpr rfl) faults
  | deleteRuntimeGroup name =>
    exact sound_execAll hsound (by simp [deleteRuntimeGroup, Statement.newHashes]) faults
  | assignRuntimeGroup => exact sound_execAll hsound (newHashes_assignRuntimeGroup _ _ _ _ _) faults
  | createEnrollToken id plaintext displayName group createdBy now =>
    rw [perform]
    split
    · exact ⟨hsound, List.prefix_refl _⟩
    next db hattempt =>
      obtain ⟨hpermitted, rfl⟩ := attempt_eq_some hattempt
      refine ⟨⟨hsound.unique.apply hpermitted, ?_, hsound.accepted⟩, List.prefix_refl _⟩
      rw [hashes_apply, hsound.issued, List.map_append]
      rfl
  | authenticate call =>
    obtain ⟨db, verdict, hcall, hgrown, hend⟩ := authenticate_spec d hash faults s.db call
    rw [perform, hcall]
    refine ⟨hsound.of_grown hgrown ?_, hgrown.bindings⟩
    intro runtimeID hmem
    split at hmem
    next hverdict =>
      obtain rfl : verdict = .accepted := AuthPc.done.inj hverdict
      rcases List.mem_append.mp hmem with hold | hnew
      · exact hgrown.mem_keys (hsound.accepted runtimeID hold)
      · exact List.mem_singleton.mp hnew ▸ hend.2
    · exact hgrown.mem_keys (hsound.accepted runtimeID hmem)

theorem sound_of_run (hsound : Sound hash s) (hrun : run (step d hash) s actions = some s') :
    Sound hash s' := by
  refine run_invariant (fun {state action next} hstate hstep => ?_) hsound hrun
  exact Option.some.inj hstep ▸ (sound_perform hstate action.2 action.1).1

theorem bindings_of_run (hsound : Sound hash s) (hrun : run (step d hash) s actions = some s') :
    s.db.bindings <+: s'.db.bindings := by
  have hstep : ∀ {state action next},
      Sound hash state ∧ s.db.bindings <+: state.db.bindings →
        step d hash state action = some next →
        Sound hash next ∧ s.db.bindings <+: next.db.bindings := by
    rintro state action next ⟨hstate, hprefix⟩ hnext
    have hperform := sound_perform (d := d) hstate action.2 action.1
    exact Option.some.inj hnext ▸ ⟨hperform.1, hprefix.trans hperform.2⟩
  exact (run_invariant hstep ⟨hsound, List.prefix_refl _⟩ hrun).2

def Revoked (db : Fleet) (id : Uuid) : Prop :=
  ∃ row ∈ db.tokens, row.id = id ∧ row.revokedAt.isSome

def IsPlaintext (s : History) (id : Uuid) (plaintext : String) : Prop :=
  ∀ other, (id, other) ∈ s.issued ↔ other = plaintext

theorem deviceRow_of_mem_bindings (hunique : db.Unique) {runtimeID : String} {id : Option Uuid}
    (h : (runtimeID, id) ∈ db.bindings) :
    ∃ row, db.deviceRow runtimeID = some row ∧ row.enrollTokenID = id := by
  obtain ⟨row, hrow, heq⟩ := List.mem_map.mp h
  obtain ⟨hruntime, hid⟩ := Prod.mk.inj heq
  have hkeys := hunique.runtimes
  rw [map_fst_bindings] at hkeys
  exact ⟨row, (find?_key_eq_some hkeys).mpr ⟨hrow, hruntime⟩, hid⟩

theorem Usable.isPlaintext (hhash : Function.Injective hash) (hsound : Sound hash s)
    {call : Registration} {tok : EnrollTokenRow} (husable : Usable hash s.db call tok) :
    IsPlaintext s tok.id call.enrollmentToken ∧ ¬ Revoked s.db tok.id := by
  have htok : tok ∈ s.db.tokens := List.mem_of_find?_eq_some husable.found
  have hfound := List.find?_some husable.found
  have hmem : (tok.id, hash call.enrollmentToken) ∈ s.db.hashes := by
    refine List.mem_map.mpr ⟨tok, htok, ?_⟩
    rw [of_decide_eq_true hfound]
  constructor
  · intro other
    constructor
    · intro hother
      have hhashed : (tok.id, hash other) ∈ s.db.hashes := by
        rw [hsound.issued]
        exact List.mem_map_of_mem hother
      have heq := List.inj_on_of_nodup_map hsound.unique.tokens hhashed hmem rfl
      exact hhash (congrArg Prod.snd heq)
    · rintro rfl
      rw [hsound.issued] at hmem
      obtain ⟨⟨id, plaintext⟩, hissued, heq⟩ := List.mem_map.mp hmem
      obtain ⟨rfl, hplaintext⟩ := Prod.mk.inj heq
      exact hhash hplaintext ▸ hissued
  · rintro ⟨row, hrow, hid, hrevoked⟩
    have hkeys := hsound.unique.tokens
    rw [map_fst_hashes] at hkeys
    obtain rfl := List.inj_on_of_nodup_map hkeys hrow htok hid
    rw [husable.valid] at hrevoked
    contradiction

/-- A binding is permanent.  A bound runtime is accepted only with the token it is bound to, while
that token is not revoked; any other runtime only without a token or, on its first registration,
with one that is not revoked. -/
theorem enrollment_binding (hhash : Function.Injective hash)
    {actions : List (Call × List Bool)} (hrun : run (step d hash) {} actions = some s) :
    (∀ runtimeID id, Bound s.db runtimeID id →
      ∀ more s', run (step d hash) s more = some s' →
        Bound s'.db runtimeID id ∧ ∀ id', Bound s'.db runtimeID id' → id' = id) ∧
    ∀ faults call db, authenticate d hash faults s.db call = (db, .done .accepted) →
      (∀ id, Bound s.db call.runtimeID id →
        IsPlaintext s id call.enrollmentToken ∧ ¬ Revoked s.db id) ∧
      ((∀ id, ¬ Bound s.db call.runtimeID id) →
        call.enrollmentToken = "" ∨
          call.runtimeID ∉ s.accepted ∧
            ∃ id, IsPlaintext s id call.enrollmentToken ∧ ¬ Revoked s.db id) := by
  have hsound : Sound hash s := sound_of_run ⟨Fleet.unique_empty, rfl, List.forall_mem_nil _⟩ hrun
  constructor
  · intro runtimeID id hbound more s' hmore
    have hsound' := sound_of_run hsound hmore
    have hkept := (bindings_of_run hsound hmore).subset hbound
    refine ⟨hkept, fun id' hbound' => ?_⟩
    exact Option.some.inj (eq_of_mem_bindings hsound'.unique hbound' hkept)
  · intro faults call db haccepted
    obtain ⟨db', verdict, hcall, -, hend⟩ := authenticate_spec d hash faults s.db call
    obtain ⟨rfl, hverdict⟩ := Prod.mk.inj (hcall.symm.trans haccepted)
    obtain rfl : verdict = .accepted := AuthPc.done.inj hverdict
    cases hend.1 with
    | anonymous hunbound htoken =>
      refine ⟨fun id hbound => ?_, fun _ => .inl htoken⟩
      obtain ⟨row, hdevice, hrow⟩ := deviceRow_of_mem_bindings hsound.unique hbound
      rw [hunbound row hdevice] at hrow
      contradiction
    | @bearer row tok hdevice husable hbound =>
      have hrow := mem_bindings_of_deviceRow hdevice
      rw [hbound] at hrow
      refine ⟨fun id hbound' => ?_, fun hunbound => absurd hrow (hunbound tok.id)⟩
      obtain rfl := Option.some.inj (eq_of_mem_bindings hsound.unique hbound' hrow)
      exact husable.isPlaintext hhash hsound
    | @newcomer tok hdevice husable =>
      have hunknown : call.runtimeID ∉ s.db.bindings.map Prod.fst := by
        rw [map_fst_bindings]
        exact find?_key_eq_none.mp hdevice
      refine ⟨fun id hbound => absurd (List.mem_map_of_mem hbound) hunknown, fun _ => .inr ?_⟩
      refine ⟨fun hmem => hunknown (hsound.accepted _ hmem), tok.id, ?_⟩
      exact husable.isPlaintext hhash hsound

def gatewayEnrolls : List (Call × List Bool) :=
  [(.createEnrollToken ⟨"t", by decide⟩ "secret" "line 1" "" "admin" "now", []),
    (.authenticate ⟨"gateway", "edge", "secret", "now"⟩, [])]

theorem gateway_bound_to_its_token :
    ∃ s, run (step .postgres id) {} gatewayEnrolls = some s ∧
      authenticate .postgres id [] s.db ⟨"gateway", "edge", "secret", "later"⟩ =
        (s.db, .done .accepted) ∧
      Bound s.db "gateway" ⟨"t", by decide⟩ ∧ IsPlaintext s ⟨"t", by decide⟩ "secret" ∧
      ¬ Revoked s.db ⟨"t", by decide⟩ := by
  have hrun : run (step .postgres id) {} gatewayEnrolls = some _ := rfl
  refine ⟨_, hrun, rfl, List.mem_singleton_self _, ?_⟩
  exact ((enrollment_binding Function.injective_id hrun).2 []
    ⟨"gateway", "edge", "secret", "later"⟩ _ rfl).1 ⟨"t", by decide⟩ (List.mem_singleton_self _)

end Histories

end DataPipe.ControlPlane.Enrollment
