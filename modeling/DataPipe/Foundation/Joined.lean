import Mathlib.Data.List.Basic
import Mathlib.Data.Set.Function

/-!
# Texts joined from parts

A text that is put together from several parts determines them only where the
boundaries can be found again: a list of items joined by a separator that no
item holds, a pair whose first part does not hold the separator, and two parts
written next to each other where neither first part continues into the second.
-/

namespace DataPipe.Foundation

variable {α : Type*} [DecidableEq α] {sep : α}

theorem eq_of_intercalate_eq {xs ys : List (List α)} (hxs : ∀ x ∈ xs, x ≠ [] ∧ sep ∉ x)
    (hys : ∀ y ∈ ys, y ≠ [] ∧ sep ∉ y) (h : [sep].intercalate xs = [sep].intercalate ys) :
    xs = ys := by
  have hne {zs : List (List α)} (hzs : ∀ z ∈ zs, z ≠ [] ∧ sep ∉ z) (hcons : zs ≠ []) :
      [sep].intercalate zs ≠ [] := by
    match zs, hcons with
    | [z], _ => simpa using (hzs z List.mem_cons_self).1
    | z :: z' :: zs, _ => simp
  by_cases hx : xs = []
  · subst hx
    by_contra hy
    exact hne hys (Ne.symm hy) h.symm
  · by_cases hy : ys = []
    · subst hy
      exact absurd h (hne hxs hx)
    · rw [← List.splitOn_intercalate sep (fun x hmem => (hxs x hmem).2) hx, h,
        List.splitOn_intercalate sep (fun y hmem => (hys y hmem).2) hy]

theorem notMem_of_mem_splitOn {xs part : List α} (h : part ∈ xs.splitOn sep) : sep ∉ part := by
  induction xs generalizing part with
  | nil =>
    rw [List.splitOn_nil, List.mem_singleton] at h
    exact h ▸ List.not_mem_nil
  | cons x xs ih =>
    rw [List.splitOn_cons_eq_if_modifyHead] at h
    split at h
    · rcases List.mem_cons.mp h with rfl | htail
      · exact List.not_mem_nil
      · exact ih htail
    next hx =>
      cases hsplit : xs.splitOn sep with
      | nil => exact absurd hsplit (List.splitOn_ne_nil _ _)
      | cons first rest =>
        rw [hsplit] at h ih
        rcases List.mem_cons.mp h with rfl | htail
        · rw [List.mem_cons, not_or]
          exact ⟨fun heq => hx (heq ▸ beq_self_eq_true _), ih List.mem_cons_self⟩
        · exact ih (List.mem_cons_of_mem _ htail)

omit [DecidableEq α] in
theorem eq_of_append_cons_eq {x y a b : List α} (hx : sep ∉ x) (hy : sep ∉ y)
    (h : x ++ sep :: a = y ++ sep :: b) : x = y ∧ a = b := by
  induction x generalizing y with
  | nil =>
    cases y with
    | nil => exact ⟨rfl, by simpa using h⟩
    | cons c y =>
      simp only [List.nil_append, List.cons_append, List.cons.injEq] at h
      exact absurd (h.1 ▸ List.mem_cons_self) hy
  | cons c x ih =>
    cases y with
    | nil =>
      simp only [List.nil_append, List.cons_append, List.cons.injEq] at h
      exact absurd (h.1 ▸ List.mem_cons_self) hx
    | cons c' y =>
      simp only [List.cons_append, List.cons.injEq] at h
      obtain ⟨rfl, hrest⟩ := h
      rw [List.mem_cons, not_or] at hx hy
      obtain ⟨rfl, hab⟩ := ih hx.2 hy.2 hrest
      exact ⟨rfl, hab⟩

omit [DecidableEq α] in
theorem perm_of_map_perm {β : Type*} {name : α → β} {xs ys : List α}
    (hinj : Set.InjOn name {a | a ∈ xs ∨ a ∈ ys})
    (h : (xs.map name).Perm (ys.map name)) : xs.Perm ys := by
  rcases xs with _ | ⟨x, xs⟩
  · simpa using h
  · have : Nonempty α := ⟨x⟩
    have hinv := hinj.leftInvOn_invFunOn
    have back {zs : List α} (hsub : ∀ z ∈ zs, z ∈ x :: xs ∨ z ∈ ys) :
        (zs.map name).map (Function.invFunOn name {a | a ∈ x :: xs ∨ a ∈ ys}) = zs := by
      rw [List.map_map]
      refine (List.map_congr_left fun z hz => ?_).trans (List.map_id zs)
      exact hinv (hsub z hz)
    have hperm := h.map (Function.invFunOn name {a | a ∈ x :: xs ∨ a ∈ ys})
    rwa [back fun z hz => .inl hz, back fun z hz => .inr hz] at hperm

/-- What `longer` adds to `shorter` begins `next`. -/
def RunsOn (shorter next longer : List α) : Prop :=
  shorter <+: longer ∧ shorter ≠ longer ∧ longer.drop shorter.length <+: next

instance (shorter next longer : List α) : Decidable (RunsOn shorter next longer) :=
  inferInstanceAs (Decidable (_ ∧ _ ∧ _))

theorem eq_of_append_eq {x y a b : List α} (hx : ¬ RunsOn x a y) (hy : ¬ RunsOn y b x)
    (h : x ++ a = y ++ b) : x = y ∧ a = b := by
  have runsOn {x y a b : List α} (h : x ++ a = y ++ b) (hne : x ≠ y)
      (hlen : x.length ≤ y.length) : RunsOn x a y := by
    have hxy : x <+: y := List.prefix_of_prefix_length_le ⟨a, h⟩ ⟨b, rfl⟩ hlen
    obtain ⟨rest, rfl⟩ := hxy
    rw [List.append_assoc] at h
    have ha := List.append_cancel_left h
    exact ⟨⟨rest, rfl⟩, hne, by simp [ha]⟩
  by_cases heq : x = y
  · subst heq
    exact ⟨rfl, List.append_cancel_left h⟩
  · rcases Nat.le_total x.length y.length with hlen | hlen
    · exact absurd (runsOn h heq hlen) hx
    · exact absurd (runsOn h.symm (Ne.symm heq) hlen) hy

end DataPipe.Foundation
