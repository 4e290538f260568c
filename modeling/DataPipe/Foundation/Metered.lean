import Mathlib.Init

/-!
# Metered computations

A computation that may fail and that uses up units of a resource.  What was used
before a failure stays used.
-/

namespace DataPipe.Foundation

structure Metered (ε α : Type) where
  used : Nat
  result : Except ε α

namespace Metered

variable {ε α β : Type}

def fail (e : ε) : Metered ε α := ⟨0, .error e⟩

/-- Use up `n` units. -/
def use (n : Nat) : Metered ε Unit := ⟨n, .ok ()⟩

def andThen (x : Metered ε α) (f : α → Metered ε β) : Metered ε β :=
  match x.result with
  | .error e => ⟨x.used, .error e⟩
  | .ok a => ⟨x.used + (f a).used, (f a).result⟩

instance : Monad (Metered ε) where
  pure a := ⟨0, .ok a⟩
  bind := andThen

def reporting (report : ε → ε) (x : Metered ε α) : Metered ε α :=
  match x.result with
  | .error e => ⟨x.used, .error (report e)⟩
  | .ok _ => x

variable {x : Metered ε α}

@[simp] theorem pure_bind (a : α) (f : α → Metered ε β) : pure a >>= f = f a := by
  change Metered.mk (0 + (f a).used) (f a).result = f a
  rw [Nat.zero_add]

theorem bind_of_error {e : ε} (hx : x.result = .error e) (f : α → Metered ε β) :
    x >>= f = ⟨x.used, .error e⟩ := by
  change x.andThen f = _
  rw [andThen, hx]

theorem bind_of_ok {a : α} (hx : x.result = .ok a) (f : α → Metered ε β) :
    x >>= f = ⟨x.used + (f a).used, (f a).result⟩ := by
  change x.andThen f = _
  rw [andThen, hx]

@[simp] theorem result_bind_eq_ok {f : α → Metered ε β} {b : β} :
    (x >>= f).result = .ok b ↔ ∃ a, x.result = .ok a ∧ (f a).result = .ok b := by
  cases hx : x.result with
  | error e => simp [bind_of_error hx]
  | ok a => simp [bind_of_ok hx]

@[simp] theorem result_reporting_eq_ok {report : ε → ε} {a : α} :
    (x.reporting report).result = .ok a ↔ x.result = .ok a := by
  unfold reporting
  cases hx : x.result with
  | error e => simp
  | ok a' => simp [hx]

end Metered

end DataPipe.Foundation
