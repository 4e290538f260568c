import Mathlib.Data.List.Basic

/-!
# Runs of partial step functions

A system is given by an executable step function that answers `none` when an
action is not enabled.  A run executes a finite list of actions.  `Meets`
restricts a run to actions that satisfy a condition in the state in which they
are taken; it is the shape of every theorem about runs that avoid a step.
-/

namespace DataPipe.Foundation

variable {State Action : Type*}

def run (step : State → Action → Option State) :
    State → List Action → Option State
  | state, [] => some state
  | state, action :: actions =>
    match step state action with
    | none => none
    | some next => run step next actions

/-- Every action of the run satisfies `ok` in the state it is taken in. -/
def Meets (step : State → Action → Option State)
    (ok : State → Action → Prop) : State → List Action → Prop
  | _, [] => True
  | state, action :: actions =>
    ok state action ∧ ∀ next, step state action = some next → Meets step ok next actions

variable {step : State → Action → Option State}

@[simp] theorem run_nil (state : State) : run step state [] = some state := rfl

variable {actions : List Action} {final state : State} {action : Action}

theorem run_cons_eq_some :
    run step state (action :: actions) = some final ↔
      ∃ next, step state action = some next ∧
        run step next actions = some final := by
  simp only [run]
  cases step state action with
  | none | some => simp

variable {more : List Action}

theorem run_append_eq_some :
    run step state (actions ++ more) = some final ↔
      ∃ middle, run step state actions = some middle ∧
        run step middle more = some final := by
  induction actions generalizing state with
  | nil => simp
  | cons head actions ih =>
    rw [List.cons_append]
    simp only [run_cons_eq_some, ih]
    constructor
    · rintro ⟨next, hnext, middle, hmiddle, hfinal⟩
      exact ⟨middle, ⟨next, hnext, hmiddle⟩, hfinal⟩
    · rintro ⟨middle, ⟨next, hnext, hmiddle⟩, hfinal⟩
      exact ⟨next, hnext, middle, hmiddle, hfinal⟩

theorem run_concat_eq_some :
    run step state (actions ++ [action]) = some final ↔
      ∃ last, run step state actions = some last ∧ step last action = some final := by
  rw [run_append_eq_some]
  simp only [run_cons_eq_some, run_nil, Option.some.injEq, exists_eq_right]

variable {P : Action → Prop}

theorem meets_of_forall (hall : ∀ action ∈ actions, P action) (state : State) :
    Meets step (fun _ action => P action) state actions := by
  induction actions generalizing state with
  | nil => trivial
  | cons action actions ih =>
    refine ⟨hall action List.mem_cons_self, ?_⟩
    intro next _
    exact ih (fun other hother => hall other (List.mem_cons_of_mem _ hother))
      next

variable {Inv : State → Prop} {ok : State → Action → Prop}

theorem run_invariant_of_meets
    (hstep : ∀ {state action next},
      Inv state → ok state action → step state action = some next → Inv next)
    {state final : State} {actions : List Action} (hinit : Inv state)
    (hmeets : Meets step ok state actions) (hrun : run step state actions = some final) :
    Inv final := by
  induction actions generalizing state with
  | nil =>
    simp only [run_nil, Option.some.injEq] at hrun
    exact hrun ▸ hinit
  | cons action actions ih =>
    obtain ⟨next, hnext, hrest⟩ := run_cons_eq_some.mp hrun
    obtain ⟨hok, htail⟩ := hmeets
    exact ih (hstep hinit hok hnext) (htail next hnext) hrest

theorem run_invariant
    (hstep : ∀ {state action next}, Inv state → step state action = some next → Inv next)
    {state final : State} {actions : List Action} (hinit : Inv state)
    (hrun : run step state actions = some final) : Inv final := by
  have hmeets : Meets step (fun _ _ => True) state actions :=
    meets_of_forall (fun _ _ => trivial) state
  exact run_invariant_of_meets (fun hinv _ hnext => hstep hinv hnext) hinit hmeets hrun

theorem Meets.take (hmeets : Meets step ok state (actions ++ more)) :
    Meets step ok state actions := by
  induction actions generalizing state with
  | nil => trivial
  | cons action actions ih => exact ⟨hmeets.1, fun next hnext => ih (hmeets.2 next hnext)⟩

/-- A condition that a step keeps the invariant under, and only then, is met by exactly the runs
with the invariant at every point. -/
theorem forall_prefix_iff_meets
    (hstep : ∀ {state action next},
      Inv state → step state action = some next → (Inv next ↔ ok state action))
    (hinit : Inv state) (hrun : run step state actions = some final) :
    (∀ before after middle, actions = before ++ after →
      run step state before = some middle → Inv middle) ↔ Meets step ok state actions := by
  constructor
  · intro hall
    induction actions generalizing state with
    | nil => trivial
    | cons action actions ih =>
      obtain ⟨next, hnext, hrest⟩ := run_cons_eq_some.mp hrun
      have hinv := hall [action] actions next rfl (run_cons_eq_some.mpr ⟨next, hnext, rfl⟩)
      refine ⟨(hstep hinit hnext).mp hinv, ?_⟩
      intro other hother
      obtain rfl := Option.mem_unique hnext hother
      refine ih hinv hrest fun before after middle hsplit hbefore => ?_
      exact hall (action :: before) after middle (congrArg _ hsplit)
        (run_cons_eq_some.mpr ⟨next, hnext, hbefore⟩)
  · rintro hmeets before after middle rfl hbefore
    exact run_invariant_of_meets (fun hinv hok hnext => (hstep hinv hnext).mpr hok) hinit
      hmeets.take hbefore

theorem length_add_rank_le {rank : State → Nat}
    (hstep : ∀ {state action next},
      P action → step state action = some next → rank next < rank state)
    (hall : ∀ action ∈ actions, P action) (hrun : run step state actions = some final) :
    actions.length + rank final ≤ rank state := by
  induction actions generalizing state with
  | nil =>
    simp only [run_nil, Option.some.injEq] at hrun
    simp [hrun]
  | cons action actions ih =>
    obtain ⟨next, hnext, hrest⟩ := run_cons_eq_some.mp hrun
    have hlower := hstep (hall action List.mem_cons_self) hnext
    have htail := ih (fun other hother => hall other (List.mem_cons_of_mem _ hother)) hrest
    rw [List.length_cons]
    omega

theorem Meets.drop {middle : State} (hmeets : Meets step ok state (actions ++ more))
    (hrun : run step state actions = some middle) : Meets step ok middle more := by
  induction actions generalizing state with
  | nil =>
    simp only [run_nil, Option.some.injEq] at hrun
    exact hrun ▸ hmeets
  | cons action actions ih =>
    obtain ⟨next, hnext, hrest⟩ := run_cons_eq_some.mp hrun
    exact ih (hmeets.2 next hnext) hrest

theorem Meets.imp {ok' : State → Action → Prop}
    (himp : ∀ state action, ok state action → ok' state action)
    (hmeets : Meets step ok state actions) : Meets step ok' state actions := by
  induction actions generalizing state with
  | nil => trivial
  | cons action actions ih =>
    obtain ⟨hok, hrest⟩ := hmeets
    exact ⟨himp state action hok, fun next hnext => ih (hrest next hnext)⟩

/-- An executable test for `Meets`. -/
def meetsCheck (step : State → Action → Option State)
    (ok : State → Action → Bool) : State → List Action → Bool
  | _, [] => true
  | state, action :: actions =>
    ok state action &&
      match step state action with
      | none => true
      | some next => meetsCheck step ok next actions

theorem meetsCheck_iff {ok : State → Action → Bool} :
    meetsCheck step ok state actions = true ↔
      Meets step (fun state action => ok state action = true) state actions := by
  induction actions generalizing state with
  | nil => simp [meetsCheck, Meets]
  | cons action actions ih =>
    rw [meetsCheck, Meets]
    cases step state action with
    | none => simp
    | some next => simp [ih]

instance decidableMeets (ok : State → Action → Prop) [∀ state action, Decidable (ok state action)]
    (state : State) (actions : List Action) : Decidable (Meets step ok state actions) :=
  decidable_of_iff _
    (meetsCheck_iff.trans (by simp only [decide_eq_true_eq]) :
      meetsCheck step (fun state action => decide (ok state action)) state actions = true ↔ _)

variable {α : Type*} {o : Option α} {p q : α → Prop}

theorem exists_some_imp (p : α → Prop) (h : ∃ a, o = some a ∧ p a)
    (himp : ∀ a, o = some a → p a → q a) : ∃ a, o = some a ∧ q a :=
  h.imp fun a ha => ⟨ha.1, himp a ha.1 ha.2⟩

theorem exists_some_and (h : ∃ a, o = some a ∧ p a)
    (himp : ∀ a, o = some a → p a → q a) : ∃ a, o = some a ∧ p a ∧ q a :=
  exists_some_imp p h fun a ha hp => ⟨hp, himp a ha hp⟩

theorem exists_run_and {ok : State → Action → Prop} {state : State} {actions : List Action}
    {p q : State → Prop}
    (h : Meets step ok state actions ∧ ∃ final, run step state actions = some final ∧ p final)
    (himp : Meets step ok state actions → ∀ final, run step state actions = some final → q final) :
    ∃ final, run step state actions = some final ∧ p final ∧ q final :=
  exists_some_and h.2 fun final hrun _ => himp h.1 final hrun

end DataPipe.Foundation
