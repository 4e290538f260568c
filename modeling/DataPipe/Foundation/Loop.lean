import Mathlib.Data.List.Basic

/-!
# Loops that may not end

A loop is given by its body, which goes on with a new state or ends with a
result.  `iterate` runs it for a number of passes.  A rank that every pass lowers
shows that the loop ends, a set of states that no pass leaves that it does not.
-/

namespace DataPipe.Foundation

variable {State Result : Type*}

/-- The result of the loop, if at most `fuel` passes reach it. -/
def iterate (body : State → State ⊕ Result) : Nat → State → Option Result
  | 0, _ => none
  | fuel + 1, state =>
    match body state with
    | .inl next => iterate body fuel next
    | .inr result => some result

variable {body : State → State ⊕ Result} {state : State}

theorem iterate_succ_of_inl {next : State} (h : body state = .inl next) (fuel : Nat) :
    iterate body (fuel + 1) state = iterate body fuel next := by
  rw [iterate, h]

theorem iterate_succ_of_inr {result : Result} (h : body state = .inr result) (fuel : Nat) :
    iterate body (fuel + 1) state = some result := by
  rw [iterate, h]

theorem iterate_ends (Inv : State → Prop) (Post : Result → Prop) (rank : State → Nat)
    (hpass : ∀ {state next}, Inv state → body state = .inl next → Inv next ∧ rank next < rank state)
    (hend : ∀ {state result}, Inv state → body state = .inr result → Post result) {fuel : Nat}
    (hinv : Inv state) (hfuel : rank state < fuel) :
    ∃ result, iterate body fuel state = some result ∧ Post result := by
  induction fuel generalizing state with
  | zero => contradiction
  | succ fuel ih =>
    cases hbody : body state with
    | inr result => exact ⟨result, iterate_succ_of_inr hbody fuel, hend hinv hbody⟩
    | inl next =>
      obtain ⟨hnext, hlower⟩ := hpass hinv hbody
      rw [iterate_succ_of_inl hbody]
      exact ih hnext (by omega)

theorem iterate_never_ends (Inv : State → Prop)
    (hpass : ∀ state, Inv state → ∃ next, body state = .inl next ∧ Inv next) (hinv : Inv state)
    (fuel : Nat) : iterate body fuel state = none := by
  induction fuel generalizing state with
  | zero => rfl
  | succ fuel ih =>
    obtain ⟨next, hbody, hnext⟩ := hpass state hinv
    rw [iterate_succ_of_inl hbody]
    exact ih hnext

end DataPipe.Foundation
