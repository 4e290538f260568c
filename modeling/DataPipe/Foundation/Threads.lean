import DataPipe.Foundation.Run
import Mathlib.Algebra.GroupWithZero.Nat

/-!
# Interleaved threads over a shared state

A thread is its program counter.  `advanceAt` lets one thread take one atomic
step on the shared state.  `tally` counts how many threads own a given value;
the counting lemmas turn "what one step moves" into linear arithmetic.
-/

namespace DataPipe.Foundation

variable {Shared Pc Value : Type*}

/-- Let the thread at `index` take one step; `none` when it cannot. -/
def advanceAt (advance : Shared → Pc → Option (Shared × Pc)) (shared : Shared) (threads : List Pc)
    (index : Nat) : Option (Shared × List Pc) :=
  match threads[index]? with
  | none => none
  | some pc =>
    match advance shared pc with
    | none => none
    | some (shared, pc) => some (shared, threads.set index pc)

variable {threads : List Pc} {pc : Pc} {index : Nat} {owned : Pc → Option Value}

theorem advanceAt_eq_some {advance : Shared → Pc → Option (Shared × Pc)} {shared shared' : Shared}
    {threads' : List Pc} :
    advanceAt advance shared threads index = some (shared', threads') ↔
      ∃ pc pc', threads[index]? = some pc ∧
        advance shared pc = some (shared', pc') ∧
        threads' = threads.set index pc' := by
  unfold advanceAt
  constructor
  · intro hstep
    cases hpc : threads[index]? with
    | none => simp [hpc] at hstep
    | some pc =>
      simp only [hpc] at hstep
      cases hnext : advance shared pc with
      | none => simp [hnext] at hstep
      | some next =>
        obtain ⟨nextShared, pc'⟩ := next
        simp only [hnext] at hstep
        obtain ⟨rfl, rfl⟩ := hstep
        exact ⟨pc, pc', rfl, hnext, rfl⟩
  · rintro ⟨pc, pc', hpc, hnext, rfl⟩
    simp [hpc, hnext]

variable {next : Pc}

theorem getElem?_set_eq_some {other : Nat} (h : (threads.set index next)[other]? = some pc) :
    (other = index ∧ pc = next) ∨ (other ≠ index ∧ threads[other]? = some pc) := by
  by_cases heq : other = index
  · subst heq
    rw [List.getElem?_set_self'] at h
    obtain ⟨_, _, rfl⟩ := Option.map_eq_some_iff.mp h
    exact .inl ⟨rfl, rfl⟩
  · rw [List.getElem?_set_ne (Ne.symm heq)] at h
    exact .inr ⟨heq, h⟩

theorem getElem?_set_of_getElem? (hpc : threads[index]? = some pc) (next : Pc) :
    (threads.set index next)[index]? = some next := by
  rw [List.getElem?_set_self', hpc]
  rfl

theorem getElem?_set_eq_ite (hpc : threads[index]? = some pc) (next : Pc) (other : Nat) :
    (threads.set index next)[other]? = if other = index then some next else threads[other]? := by
  split
  next heq => rw [heq, getElem?_set_of_getElem? hpc]
  next hne => exact List.getElem?_set_ne (Ne.symm hne)

theorem mem_set_of_getElem? (hpc : threads[index]? = some pc) (next : Pc) :
    next ∈ threads.set index next :=
  List.mem_of_getElem? (getElem?_set_of_getElem? hpc next)

theorem map_set_of_eq {f : Pc → Value} (hpc : threads[index]? = some pc) (hsame : f next = f pc) :
    (threads.set index next).map f = threads.map f := by
  obtain ⟨hindex, rfl⟩ := List.getElem?_eq_some_iff.mp hpc
  rw [List.map_set, hsame, ← List.map_set, List.set_getElem_self]

theorem getElem?_concat_eq_ite (threads : List Pc) (last : Pc) (index : Nat) :
    (threads ++ [last])[index]? =
      if index = threads.length then some last else threads[index]? := by
  split
  next heq => rw [heq, List.getElem?_concat_length]
  next hne =>
    rcases Nat.lt_or_gt_of_ne hne with hlt | hgt
    · exact List.getElem?_append_left hlt
    · rw [List.getElem?_eq_none (by simp; omega), List.getElem?_eq_none (Nat.le_of_lt hgt)]

theorem getElem?_concat_eq_some {last : Pc} (h : (threads ++ [last])[index]? = some pc) :
    threads[index]? = some pc ∨ (index = threads.length ∧ pc = last) := by
  rw [getElem?_concat_eq_ite] at h
  split at h
  next heq => exact .inr ⟨heq, (Option.some.inj h).symm⟩
  next => exact .inl h

theorem mem_set_of_ne {other : Pc} (hpc : threads[index]? = some pc) (hother : other ∈ threads)
    (hne : other ≠ pc) (next : Pc) : other ∈ threads.set index next := by
  obtain ⟨i, hi⟩ := List.mem_iff_getElem?.mp hother
  have hindex : index ≠ i := by
    rintro rfl
    exact hne (Option.some.inj (hi.symm.trans hpc))
  exact List.mem_of_getElem? ((List.getElem?_set_ne hindex).trans hi)

variable {P : Pc → Prop}

theorem forall_mem_set (hall : ∀ other ∈ threads, P other) (hpc : P pc) :
    ∀ other ∈ threads.set index pc, P other := by
  intro other hmem
  rcases List.mem_or_eq_of_mem_set hmem with hold | rfl
  · exact hall other hold
  · exact hpc

theorem forall_mem_concat (hall : ∀ other ∈ threads, P other) (hpc : P pc) :
    ∀ other ∈ threads ++ [pc], P other := by
  intro other hmem
  rcases List.mem_append.mp hmem with hold | hnew
  · exact hall other hold
  · exact List.mem_singleton.mp hnew ▸ hpc

/--
`Inv` of the shared state and `Own` of every thread are kept by every move that meets
`Cond`: by the moving thread, and by the others while it moves.
-/
structure Keeps (Moves : Shared → Pc → Shared → Pc → Prop) (Cond : Shared → Pc → Prop)
    (Inv : Shared → Prop) (Own : Shared → Pc → Prop) : Prop where
  shared : ∀ {s s' pc pc'}, Moves s pc s' pc' → Cond s pc → Inv s → Own s pc → Inv s'
  self : ∀ {s s' pc pc'}, Moves s pc s' pc' → Cond s pc → Inv s → Own s pc → Own s' pc'
  other : ∀ {s s' pc pc' other}, Moves s pc s' pc' → Cond s pc → Inv s → Own s pc →
    Own s other → Own s' other

theorem Keeps.set {Moves : Shared → Pc → Shared → Pc → Prop} {Cond : Shared → Pc → Prop}
    {Inv : Shared → Prop} {Own : Shared → Pc → Prop} (hkeeps : Keeps Moves Cond Inv Own)
    {s s' : Shared} {pc' : Pc} (hpc : threads[index]? = some pc) (hmove : Moves s pc s' pc')
    (hcond : Cond s pc) (hinv : Inv s) (hall : ∀ other ∈ threads, Own s other) :
    Inv s' ∧ ∀ other ∈ threads.set index pc', Own s' other := by
  have hown := hall pc (List.mem_of_getElem? hpc)
  refine ⟨hkeeps.shared hmove hcond hinv hown, forall_mem_set ?_ ?_⟩
  · intro other hother
    exact hkeeps.other hmove hcond hinv hown (hall other hother)
  · exact hkeeps.self hmove hcond hinv hown

variable [DecidableEq Value]

/-- One when the thread owns `value`, zero otherwise. -/
def ownCount (owned : Pc → Option Value) (value : Value) (pc : Pc) : Nat :=
  if owned pc = some value then 1 else 0

/-- How many of the threads own `value`. -/
def tally (owned : Pc → Option Value) (threads : List Pc) (value : Value) : Nat :=
  (threads.filterMap owned).count value

theorem tally_cons (owned : Pc → Option Value) (pc : Pc) (threads : List Pc) (value : Value) :
    tally owned (pc :: threads) value =
      ownCount owned value pc + tally owned threads value := by
  unfold tally ownCount
  cases howned : owned pc with
  | none => simp [howned]
  | some other =>
    rw [List.filterMap_cons_some howned, List.count_cons, Nat.add_comm]
    simp

theorem tally_eq_sum_map (owned : Pc → Option Value) (threads : List Pc) (value : Value) :
    tally owned threads value = (threads.map (ownCount owned value)).sum := by
  induction threads with
  | nil => rfl
  | cons pc threads ih => rw [tally_cons, ih, List.map_cons, List.sum_cons]

theorem tally_concat (owned : Pc → Option Value) (pc : Pc) (threads : List Pc) (value : Value) :
    tally owned (threads ++ [pc]) value =
      tally owned threads value + ownCount owned value pc := by
  simp only [tally_eq_sum_map, List.map_append, List.sum_append, List.map_singleton,
    List.sum_singleton]

theorem sum_map_set (weight : Pc → Nat) (hpc : threads[index]? = some pc) (next : Pc) :
    ((threads.set index next).map weight).sum + weight pc =
      (threads.map weight).sum + weight next := by
  induction threads generalizing index with
  | nil => simp at hpc
  | cons head threads ih =>
    cases index with
    | zero =>
      simp only [List.getElem?_cons_zero, Option.some.injEq] at hpc
      subst hpc
      simp only [List.set_cons_zero, List.map_cons, List.sum_cons]
      omega
    | succ index =>
      have hrest := ih (by simpa using hpc)
      simp only [List.set_cons_succ, List.map_cons, List.sum_cons]
      omega

theorem tally_set (owned : Pc → Option Value) (hpc : threads[index]? = some pc) (pc' : Pc)
    (value : Value) :
    tally owned (threads.set index pc') value + ownCount owned value pc =
      tally owned threads value + ownCount owned value pc' := by
  rw [tally_eq_sum_map, tally_eq_sum_map]
  exact sum_map_set (ownCount owned value) hpc pc'

theorem ownCount_le_tally (owned : Pc → Option Value) (hmem : pc ∈ threads) (value : Value) :
    ownCount owned value pc ≤ tally owned threads value := by
  unfold ownCount
  split
  next howned => exact List.count_pos_iff.mpr (List.mem_filterMap.mpr ⟨pc, hmem, howned⟩)
  · exact Nat.zero_le _

variable {value : Value}

theorem tally_le_tally {other : Pc → Option Value}
    (himp : ∀ pc, owned pc = some value → other pc = some value) (threads : List Pc) :
    tally owned threads value ≤ tally other threads value := by
  induction threads with
  | nil => exact Nat.le_refl _
  | cons pc threads ih =>
    rw [tally_cons, tally_cons]
    have hhead : ownCount owned value pc ≤ ownCount other value pc := by
      unfold ownCount
      by_cases howned : owned pc = some value
      · simp [howned, himp pc howned]
      · simp [howned]
    omega

theorem tally_pos_iff : 0 < tally owned threads value ↔ ∃ pc ∈ threads, owned pc = some value := by
  rw [tally, List.count_pos_iff, List.mem_filterMap]

theorem tally_eq_zero (hnone : ∀ pc ∈ threads, owned pc = none) (value : Value) :
    tally owned threads value = 0 := by
  apply List.count_eq_zero_of_not_mem
  intro hmem
  obtain ⟨pc, hpc, howned⟩ := List.mem_filterMap.mp hmem
  rw [hnone pc hpc] at howned
  contradiction

end DataPipe.Foundation
