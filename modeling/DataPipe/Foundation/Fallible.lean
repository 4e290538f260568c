import Mathlib.Data.List.Basic

/-!
# Folds that may fail

A loop whose body returns early with an error is a `foldlM` over `Except`.  The
invariant of a loop that succeeds speaks of the elements seen so far; the loop
succeeds when the elements that are left can be handled.
-/

namespace DataPipe.Foundation

variable {State Item Error : Type*} {step : State → Item → Except Error State}
  {final state : State} {items : List Item}

@[simp] theorem foldlM_nil_eq_ok : List.foldlM step state [] = .ok final ↔ state = final :=
  ⟨Except.ok.inj, congrArg Except.ok⟩

theorem foldlM_cons_eq_ok {item : Item} :
    List.foldlM step state (item :: items) = .ok final ↔
      ∃ next, step state item = .ok next ∧ List.foldlM step next items = .ok final := by
  rw [List.foldlM_cons]
  constructor
  · intro hfold
    cases hnext : step state item with
    | error e =>
      rw [hnext] at hfold
      nomatch hfold
    | ok next =>
      rw [hnext] at hfold
      exact ⟨next, rfl, hfold⟩
  · rintro ⟨next, hnext, hrest⟩
    rw [hnext]
    exact hrest

theorem foldlM_invariant {Inv : List Item → State → Prop}
    (hstep : ∀ {seen state item next},
      Inv seen state → step state item = .ok next → Inv (seen ++ [item]) next) {seen : List Item}
    (hinit : Inv seen state) (hfold : items.foldlM step state = .ok final) :
    Inv (seen ++ items) final := by
  induction items generalizing seen state with
  | nil =>
    rw [foldlM_nil_eq_ok] at hfold
    rw [List.append_nil]
    exact hfold ▸ hinit
  | cons item items ih =>
    obtain ⟨next, hnext, hrest⟩ := foldlM_cons_eq_ok.mp hfold
    rw [List.append_cons]
    exact ih (hstep hinit hnext) hrest

theorem foldlM_ok (Ready : List Item → State → Prop)
    (hstep : ∀ {item items state},
      Ready (item :: items) state → ∃ next, step state item = .ok next ∧ Ready items next)
    (hinit : Ready items state) :
    ∃ final, items.foldlM step state = .ok final ∧ Ready [] final := by
  induction items generalizing state with
  | nil => exact ⟨state, rfl, hinit⟩
  | cons item items ih =>
    obtain ⟨next, hnext, hready⟩ := hstep hinit
    obtain ⟨final, hrest, hfinal⟩ := ih hready
    exact ⟨final, foldlM_cons_eq_ok.mpr ⟨next, hnext, hrest⟩, hfinal⟩

section Map

variable {Result : Type*} {f : Item → Except Error Result} {items : List Item}

theorem mapM_eq_ok {g : Item → Result} (h : ∀ item ∈ items, f item = .ok (g item)) :
    items.mapM f = .ok (items.map g) := by
  induction items with
  | nil => rfl
  | cons item items ih =>
    rw [List.mapM_cons, h item List.mem_cons_self,
      ih fun other hother => h other (List.mem_cons_of_mem _ hother)]
    rfl

theorem exists_mapM_eq_ok_iff :
    (∃ results, items.mapM f = .ok results) ↔
      ∀ item ∈ items, ∃ result, f item = .ok result := by
  induction items with
  | nil => exact ⟨nofun, fun _ => ⟨[], rfl⟩⟩
  | cons item items ih =>
    rw [List.forall_mem_cons, ← ih, List.mapM_cons]
    cases f item with
    | error e => exact ⟨nofun, nofun⟩
    | ok result =>
      cases items.mapM f with
      | error e => exact ⟨nofun, fun ⟨_, _, h⟩ => nomatch h⟩
      | ok results => exact ⟨fun _ => ⟨⟨_, rfl⟩, _, rfl⟩, fun _ => ⟨_, rfl⟩⟩

variable {Item Result : Type}

theorem ok_bind (item : Item) (next : Item → Except Error Result) :
    (Except.ok item >>= next) = next item := rfl

theorem exists_bind_ok_iff {result : Except Error Item} {g : Item → Result} :
    (∃ last, (result >>= fun item => .ok (g item)) = .ok last) ↔ ∃ item, result = .ok item := by
  cases result with
  | error e => exact ⟨nofun, nofun⟩
  | ok item => exact ⟨fun _ => ⟨item, rfl⟩, fun _ => ⟨_, rfl⟩⟩

end Map

end DataPipe.Foundation
