import Mathlib.Data.List.Basic
import Mathlib.Order.Lattice

/-!
# Backlogs

Items wait in increasing order.  One consumer holds the oldest item, completes
it or gives it back, while new items are appended and old ones are dropped under
its hands.  Whatever is dropped, the items are completed in increasing order.
-/

namespace DataPipe.Foundation

structure Backlog (α : Type*) where
  waiting : List α
  held : Option α
  done : List α

namespace Backlog

variable {α : Type*} [LinearOrder α]

structure Ordered (b : Backlog α) : Prop where
  waiting : b.waiting.Pairwise (· < ·)
  done : b.done.Pairwise (· < ·)
  behind : ∀ x ∈ b.done, ∀ y ∈ b.waiting, x < y
  held : ∀ x, b.held = some x → (∀ y ∈ b.done, y < x) ∧ ∀ y ∈ b.waiting, x ≤ y

variable {b : Backlog α} {x : α} {items : List α}

theorem ordered_of_waiting (h : items.Pairwise (· < ·)) : Ordered ⟨items, none, []⟩ where
  waiting := h
  done := List.Pairwise.nil
  behind := by simp
  held := by simp

theorem Ordered.push (h : b.Ordered) (hwaiting : ∀ y ∈ b.waiting, y < x)
    (hdone : ∀ y ∈ b.done, y < x) (hheld : ∀ y, b.held = some y → y ≤ x) :
    Ordered { b with waiting := b.waiting ++ [x] } where
  waiting := by
    refine List.pairwise_append.mpr ⟨h.waiting, List.pairwise_singleton _ _, ?_⟩
    intro y hy z hz
    rw [List.mem_singleton.mp hz]
    exact hwaiting y hy
  done := h.done
  behind := by
    intro y hy z hz
    rcases List.mem_append.mp hz with hold | hnew
    · exact h.behind y hy z hold
    · rw [List.mem_singleton.mp hnew]
      exact hdone y hy
  held := by
    intro y hy
    refine ⟨(h.held y hy).1, ?_⟩
    intro z hz
    rcases List.mem_append.mp hz with hold | hnew
    · exact (h.held y hy).2 z hold
    · rw [List.mem_singleton.mp hnew]
      exact hheld y hy

theorem Ordered.drop (h : b.Ordered) (hitems : items.Sublist b.waiting) :
    Ordered { b with waiting := items } where
  waiting := h.waiting.sublist hitems
  done := h.done
  behind := fun y hy z hz => h.behind y hy z (hitems.subset hz)
  held := fun y hy => ⟨(h.held y hy).1, fun z hz => (h.held y hy).2 z (hitems.subset hz)⟩

theorem Ordered.take (h : b.Ordered) {rest : List α} (hwaiting : b.waiting = x :: rest) :
    Ordered { b with held := some x } where
  waiting := h.waiting
  done := h.done
  behind := h.behind
  held := by
    rintro y ⟨⟩
    refine ⟨fun z hz => h.behind z hz x (by simp [hwaiting]), ?_⟩
    intro z hz
    have hsorted := h.waiting
    rw [hwaiting, List.pairwise_cons] at hsorted
    rw [hwaiting] at hz
    rcases List.mem_cons.mp hz with rfl | hrest
    · exact le_rfl
    · exact le_of_lt (hsorted.1 z hrest)

theorem Ordered.giveBack (h : b.Ordered) : Ordered { b with held := none } where
  waiting := h.waiting
  done := h.done
  behind := h.behind
  held := by simp

theorem Ordered.complete (h : b.Ordered) (hheld : b.held = some x)
    (hitems : items.Sublist b.waiting) (hgone : x ∉ items) :
    Ordered ⟨items, none, b.done ++ [x]⟩ where
  waiting := h.waiting.sublist hitems
  done := by
    refine List.pairwise_append.mpr ⟨h.done, List.pairwise_singleton _ _, ?_⟩
    intro y hy z hz
    rw [List.mem_singleton.mp hz]
    exact (h.held x hheld).1 y hy
  behind := by
    intro y hy z hz
    rcases List.mem_append.mp hy with hold | hnew
    · exact h.behind y hold z (hitems.subset hz)
    · rw [List.mem_singleton.mp hnew]
      refine lt_of_le_of_ne ((h.held x hheld).2 z (hitems.subset hz)) ?_
      rintro rfl
      exact hgone hz
  held := by simp

end Backlog

end DataPipe.Foundation
