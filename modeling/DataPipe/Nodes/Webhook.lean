import DataPipe.Foundation.Dict
import DataPipe.Foundation.Run

/-!
# Routes of the shared HTTP server

`Registry` of `engine/webhook/registry.go`.  A registration replaces the handler of its key, and
its cancel function, which `http-in` calls once, deletes the key.
-/

namespace DataPipe.Nodes.Webhook

open DataPipe.Foundation

structure RouteKey where
  method : String
  path : String
  deriving DecidableEq

structure Registration (Handler : Type) where
  key : RouteKey
  handler : Handler
  cancelled : Bool := false

structure Registry (Handler : Type) where
  routes : AList (fun _ : RouteKey => Handler) := ∅
  registrations : List (Registration Handler) := []

inductive Action (Handler : Type) where
  | register (method path : String) (handler : Handler)
  | cancel (index : Nat)

namespace Registry

variable {Handler : Type} (toUpper : String → String)

def step (s : Registry Handler) : Action Handler → Option (Registry Handler)
  | .register method path handler =>
    let key : RouteKey := ⟨toUpper method, path⟩
    some ⟨s.routes.insert key handler, s.registrations ++ [{ key, handler }]⟩
  | .cancel index =>
    match s.registrations[index]? with
    | none => none
    | some r =>
      if r.cancelled then none
      else some ⟨s.routes.erase r.key, s.registrations.set index { r with cancelled := true }⟩

/-- The handler that `ServeHTTP` calls; `none` is the 404. -/
def serveHTTP (s : Registry Handler) (method path : String) : Option Handler :=
  s.routes.lookup ⟨method, path⟩

def owners (s : Registry Handler) (key : RouteKey) : List (Registration Handler) :=
  s.registrations.filter fun r => !r.cancelled && decide (r.key = key)

def ServesLatest (s : Registry Handler) : Prop :=
  ∀ method path, s.serveHTTP method path =
    (s.owners ⟨method, path⟩).getLast?.map Registration.handler

/-- What is cancelled is the only owner of its key. -/
def cancelsOnly (s : Registry Handler) : Action Handler → Prop
  | .register .. => True
  | .cancel index => ∀ r ∈ s.registrations[index]?, (s.owners r.key).length = 1

variable {toUpper} {s s' : Registry Handler}

theorem owners_cancel {index : Nat} {r : Registration Handler}
    {routes : AList fun _ : RouteKey => Handler} (hr : s.registrations[index]? = some r)
    (hlive : r.cancelled = false) :
    ∃ older newer, s.owners r.key = older ++ r :: newer ∧
      ∀ key, owners ⟨routes, s.registrations.set index { r with cancelled := true }⟩ key =
        if key = r.key then older ++ newer else s.owners key := by
  obtain ⟨hlt, hget⟩ := List.getElem?_eq_some_iff.mp hr
  obtain ⟨older, newer, hsplit, -, hset⟩ :=
    @List.exists_of_set _ index { r with cancelled := true } _ hlt
  rw [hget] at hsplit
  refine ⟨older.filter fun o => !o.cancelled && decide (o.key = r.key),
    newer.filter fun o => !o.cancelled && decide (o.key = r.key), ?_, fun key => ?_⟩
  · simp [owners, hsplit, hlive]
  · split
    next hkey => simp [owners, hset, hkey]
    next hkey =>
      simp [owners, hset]
      simp [hsplit, Ne.symm hkey]

theorem servesLatest_step_iff {a : Action Handler} (h : s.ServesLatest)
    (hstep : s.step toUpper a = some s') : s'.ServesLatest ↔ s.cancelsOnly a := by
  revert hstep
  fun_cases s.step toUpper a <;> rintro ⟨⟩
  next method path handler key =>
    refine iff_of_true (fun requested under => ?_) trivial
    by_cases hkey : (⟨requested, under⟩ : RouteKey) = key
    · rw [serveHTTP, hkey]
      simp [owners]
    · simpa [serveHTTP, owners, hkey, Ne.symm hkey] using h requested under
  next index r hr hlive =>
    obtain ⟨older, newer, hbefore, hafter⟩ := owners_cancel hr (Bool.eq_false_iff.mpr hlive)
    have honly : s.cancelsOnly (.cancel index) ↔ older ++ newer = [] := by
      simp [cancelsOnly, hr, hbefore, ← List.length_eq_zero_iff]
      omega
    rw [honly]
    constructor
    · intro hlatest
      have hserved := hlatest r.key.method r.key.path
      rw [hafter, if_pos rfl, serveHTTP, AList.lookup_erase] at hserved
      simpa only [List.getLast?_eq_none_iff, Option.map_eq_none_iff] using hserved.symm
    · intro hnone method path
      rw [hafter]
      split
      next hkey =>
        rw [serveHTTP, hkey, AList.lookup_erase, hnone]
        rfl
      next hkey => rw [← h method path, serveHTTP, AList.lookup_erase_ne hkey, serveHTTP]

end Registry

/-- At every point of a run requests are served by the latest owner of their key, exactly if every
cancel function is called by the only one. -/
theorem routes_served_by_latest_iff {Handler : Type} (toUpper : String → String)
    (actions : List (Action Handler)) {s : Registry Handler}
    (hrun : run (Registry.step toUpper) {} actions = some s) :
    (∀ before after middle, actions = before ++ after →
        run (Registry.step toUpper) {} before = some middle → middle.ServesLatest) ↔
      Meets (Registry.step toUpper) Registry.cancelsOnly {} actions :=
  forall_prefix_iff_meets Registry.servesLatest_step_iff (fun _ _ => rfl) hrun

/-- A node that is deployed again registers before its predecessor cancels, and is not served. -/
theorem replaced_owner_unserved :
    (run (Registry.step id) {}
        [.register "POST" "/in" 1, .register "POST" "/in" 2, .cancel 0]).map
      (fun s => (s.serveHTTP "POST" "/in", (s.owners ⟨"POST", "/in"⟩).map Registration.handler)) =
    some (none, [2]) := by decide

theorem routes_served_by_latest_iff_restart :
    ∃ s, run (Registry.step id) {}
        [.register "POST" "/in" 1, .cancel 0, .register "POST" "/in" 2] = some s ∧
      s.ServesLatest := by
  have hmeets : Meets (Registry.step id) Registry.cancelsOnly {}
      [.register "POST" "/in" 1, .cancel 0, .register "POST" "/in" 2] := by
    refine ⟨trivial, ?_⟩
    rintro _ ⟨⟩
    refine ⟨?_, ?_⟩
    · rintro _ ⟨⟩
      rfl
    · rintro _ ⟨⟩
      exact ⟨trivial, fun _ _ => trivial⟩
  refine ⟨_, rfl, ?_⟩
  exact (routes_served_by_latest_iff id _ rfl).mpr hmeets _ [] _ (List.append_nil _).symm rfl

end DataPipe.Nodes.Webhook
