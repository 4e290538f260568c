import DataPipe.Foundation.Run

/-!
# Evaluation of expressions

`Runtime.Run` of `engine/expr/expr.go` with the watchdog that every call starts.  Of
the virtual machine only the interrupt is kept: one that is requested aborts the
program that runs or else the next one.  A watchdog takes any case of its `select`
that is ready, and it may do so after `Run` has returned.
-/

namespace DataPipe.Expr

open DataPipe.Foundation

/-- The goroutine of a call: its timer, its context, and whether it is still in its `select`. -/
structure Watchdog where
  expired : Bool := false
  cancelled : Bool := false
  waiting : Bool := true
  deriving DecidableEq

inductive RunResult where
  | value
  | threw
  | interrupted
  deriving DecidableEq

/--
`current` is the watchdog of the call that runs and `returned` are those of the calls before.
A result is kept with whether the call's own timer and context were quiet when it ended.
-/
structure Runtime where
  interrupt : Bool := false
  current : Option Watchdog := none
  returned : List Watchdog := []
  results : List (RunResult × Bool) := []
  deriving DecidableEq

inductive RunAction where
  | run
  /-- The timer of the current call fires, or its context is cancelled. -/
  | signal (timer : Bool)
  | interrupts
  | finish (throws : Bool)
  /-- The same for the watchdog of a call that has returned. -/
  | lateSignal (k : Nat) (timer : Bool)
  | lateInterrupt (k : Nat)
  | leave (k : Nat)
  deriving DecidableEq

namespace Watchdog

def quiet (w : Watchdog) : Bool := !w.expired && !w.cancelled

def signal (w : Watchdog) (timer : Bool) : Watchdog :=
  if timer then { w with expired := true } else { w with cancelled := true }

end Watchdog

def Runtime.step (s : Runtime) : RunAction → Option Runtime
  | .run =>
    -- a `Runtime` is driven by one goroutine
    match s.current with
    | none => some { s with current := some {} }
    | some _ => none
  | .signal timer => s.current.map fun w => { s with current := some (w.signal timer) }
  | .interrupts =>
    match s.current with
    | none => none
    | some w =>
      if w.waiting && !w.quiet then
        some { s with interrupt := true, current := some { w with waiting := false } }
      else none
  | .finish throws =>
    match s.current with
    | none => none
    | some w =>
      let result := if s.interrupt then .interrupted else if throws then .threw else .value
      some
        { interrupt := false
          current := none
          returned := s.returned ++ [w]
          results := s.results ++ [(result, w.quiet)] }
  | .lateSignal k timer =>
    s.returned[k]?.map fun w => { s with returned := s.returned.set k (w.signal timer) }
  | .lateInterrupt k =>
    match s.returned[k]? with
    | none => none
    | some w =>
      if w.waiting && !w.quiet then
        some { s with
          interrupt := true
          returned := s.returned.set k { w with waiting := false } }
      else none
  | .leave k =>
    s.returned[k]?.map fun w => { s with returned := s.returned.set k { w with waiting := false } }

/-- No call that stayed within its own time and context was interrupted. -/
def Runtime.Isolated (s : Runtime) : Prop := (.interrupted, true) ∉ s.results

instance : DecidablePred Runtime.Isolated := fun _ => inferInstanceAs (Decidable (¬ _))

/-- An interrupt on the machine is one of the running call's own watchdog. -/
def Runtime.Owned (s : Runtime) : Prop :=
  s.interrupt = true → ∃ w, s.current = some w ∧ w.quiet = false

section Isolation

variable {s s' : Runtime} {action : RunAction}

theorem Watchdog.quiet_signal (w : Watchdog) (timer : Bool) : (w.signal timer).quiet = false := by
  cases timer <;> simp [signal, quiet]

theorem Runtime.step_isolated (hinv : s.Owned ∧ s.Isolated) (hlate : ∀ k, action ≠ .lateInterrupt k)
    (h : s.step action = some s') : s'.Owned ∧ s'.Isolated := by
  obtain ⟨howned, hisolated⟩ := hinv
  cases action with
  | run =>
    dsimp only [step] at h
    split at h <;> cases h
    next hnone => exact ⟨fun hinterrupt => by simpa [hnone] using howned hinterrupt, hisolated⟩
  | signal timer =>
    obtain ⟨w, -, rfl⟩ := Option.map_eq_some_iff.mp h
    exact ⟨fun _ => ⟨_, rfl, w.quiet_signal timer⟩, hisolated⟩
  | interrupts =>
    dsimp only [step] at h
    split at h
    · cases h
    next w hw =>
      split at h <;> cases h
      next hready =>
        simp only [Bool.and_eq_true, Bool.not_eq_true'] at hready
        exact ⟨fun _ => ⟨_, rfl, hready.2⟩, hisolated⟩
  | finish throws =>
    dsimp only [step] at h
    split at h <;> cases h
    next w hw =>
      refine ⟨nofun, fun hmem => ?_⟩
      rcases List.mem_append.mp hmem with hold | hnew
      · exact hisolated hold
      · cases hinterrupt : s.interrupt with
        | false => cases throws <;> simp [hinterrupt] at hnew
        | true =>
          obtain ⟨w', hw', hquiet⟩ := howned hinterrupt
          rw [hw, Option.some.injEq] at hw'
          simp [hw', hquiet] at hnew
  | lateSignal k timer | leave k =>
    obtain ⟨w, -, rfl⟩ := Option.map_eq_some_iff.mp h
    exact ⟨howned, hisolated⟩
  | lateInterrupt k => exact absurd rfl (hlate k)

end Isolation

end DataPipe.Expr
