import DataPipe.Foundation.Run
import Mathlib.Data.List.Nodup
import Mathlib.Data.List.Infix

/-!
# Tables with keys and references

The contents of a database are the rows of each table.  A schema lists unique keys
and foreign keys, and a statement succeeds when what it leaves meets all of them.
Clearing tables succeeds in an order that removes the rows that refer before those
they refer to, and loading them in an order that goes the other way.
-/

namespace DataPipe.Foundation

structure UniqueKey {Table : Type*} (Row : Table → Type*) (Key : Type*) where
  table : Table
  key : Row table → Key

/-- A foreign key: a column of the child, which may be null, names a row of the parent. -/
structure Reference {Table : Type*} (Row : Table → Type*) (Key : Type*) where
  child : Table
  column : Row child → Option Key
  parent : Table
  key : Row parent → Key

structure Schema {Table : Type*} (Row : Table → Type*) (Key : Type*) where
  unique : List (UniqueKey Row Key)
  references : List (Reference Row Key)

abbrev Contents {Table : Type*} (Row : Table → Type*) := (t : Table) → List (Row t)

inductive Statement {Table : Type*} (Row : Table → Type*) where
  | insert (t : Table) (row : Row t)
  | update (t : Table) (change : Row t → Row t)
  | delete (t : Table) (doomed : Row t → Bool)

variable {Table : Type*} {Row : Table → Type*} {Key : Type*}

/-- `DELETE FROM` without a condition. -/
def Statement.clear (t : Table) : Statement Row := .delete t fun _ => true

def Statement.effect [DecidableEq Table] (d : Contents Row) : Statement Row → Contents Row
  | .insert t row => Function.update d t (d t ++ [row])
  | .update t change => Function.update d t ((d t).map change)
  | .delete t doomed => Function.update d t ((d t).filter (!doomed ·))

def Contents.restrict (d : Contents Row) (keep : Table → Bool) : Contents Row :=
  fun t => if keep t then d t else []

namespace Schema

variable (S : Schema Row Key) {d d' : Contents Row}

def Meets (d : Contents Row) : Prop :=
  (∀ u ∈ S.unique, ((d u.table).map u.key).Nodup) ∧
    ∀ r ∈ S.references, ∀ row ∈ d r.child, ∀ k ∈ r.column row, k ∈ (d r.parent).map r.key

instance [DecidableEq Key] (d : Contents Row) : Decidable (S.Meets d) :=
  inferInstanceAs (Decidable (_ ∧ _))

def exec [DecidableEq Table] [DecidableEq Key] (d : Contents Row) (statement : Statement Row) :
    Option (Contents Row) :=
  if S.Meets (statement.effect d) then some (statement.effect d) else none

def Closed (keep : Table → Bool) (d : Contents Row) : Prop :=
  ∀ r ∈ S.references, keep r.child = true →
    keep r.parent = true ∨ ∀ row ∈ d r.child, r.column row = none

variable {S}

theorem exec_eq_some [DecidableEq Table] [DecidableEq Key] {statement : Statement Row} :
    S.exec d statement = some d' ↔ S.Meets d' ∧ statement.effect d = d' := by
  rw [exec, Option.ite_none_right_eq_some, Option.some.injEq]
  exact and_congr_left fun heffect => by rw [heffect]

theorem meets_empty : S.Meets fun _ => [] :=
  ⟨fun _ _ => List.nodup_nil, fun _ _ _ hrow => absurd hrow List.not_mem_nil⟩

theorem Meets.column_eq_none (h : S.Meets d) {r : Reference Row Key} (hr : r ∈ S.references)
    (hempty : d r.parent = []) : ∀ row ∈ d r.child, r.column row = none := by
  intro row hrow
  refine Option.eq_none_iff_forall_not_mem.mpr fun k hk => ?_
  have hmem := h.2 r hr row hrow k hk
  rw [hempty] at hmem
  exact absurd hmem List.not_mem_nil

theorem Meets.restrict (h : S.Meets d) {keep : Table → Bool} (hclosed : S.Closed keep d) :
    S.Meets (d.restrict keep) := by
  constructor
  · intro u hu
    rw [Contents.restrict]
    split
    · exact h.1 u hu
    · exact List.nodup_nil
  · intro r hr row hrow k hk
    rw [Contents.restrict] at hrow
    split at hrow
    next hchild =>
      rcases hclosed r hr hchild with hparent | hnone
      · rw [Contents.restrict, if_pos hparent]
        exact h.2 r hr row hrow k hk
      · rw [hnone row hrow] at hk
        exact absurd hk (Option.not_mem_none k)
    · exact absurd hrow List.not_mem_nil

theorem Meets.perm (h : S.Meets d) (hperm : ∀ t, (d' t).Perm (d t)) : S.Meets d' := by
  constructor
  · exact fun u hu => ((hperm u.table).map u.key).nodup_iff.mpr (h.1 u hu)
  · intro r hr row hrow k hk
    have hmem := h.2 r hr row ((hperm r.child).mem_iff.mp hrow) k hk
    exact ((hperm r.parent).map r.key).mem_iff.mpr hmem

theorem Meets.map (h : S.Meets d) {change : (t : Table) → Row t → Row t}
    (hunique : ∀ u ∈ S.unique, ∀ row, u.key (change u.table row) = u.key row)
    (hkey : ∀ r ∈ S.references, ∀ row, r.key (change r.parent row) = r.key row)
    (hcolumn : ∀ r ∈ S.references, ∀ row, ∀ k ∈ r.column (change r.child row), k ∈ r.column row) :
    S.Meets fun t => (d t).map (change t) := by
  constructor
  · intro u hu
    have hsame : u.key ∘ change u.table = u.key := funext (hunique u hu)
    rw [List.map_map, hsame]
    exact h.1 u hu
  · intro r hr row hrow k hk
    obtain ⟨old, hold, rfl⟩ := List.mem_map.mp hrow
    have hsame : r.key ∘ change r.parent = r.key := funext (hkey r hr)
    rw [List.map_map, hsame]
    exact h.2 r hr old hold k (hcolumn r hr old k hk)

variable [DecidableEq Table] {t : Table}

theorem Meets.sublist {rows loaded : List (Row t)} (hself : ∀ r ∈ S.references, r.child ≠ r.parent)
    (hempty : S.Meets (Function.update d t [])) (hfull : S.Meets (Function.update d t rows))
    (hloaded : loaded.Sublist rows) : S.Meets (Function.update d t loaded) := by
  constructor
  · intro u hu
    by_cases ht : u.table = t
    · subst ht
      have hnodup := hfull.1 u hu
      rw [Function.update_self] at hnodup ⊢
      exact hnodup.sublist (hloaded.map u.key)
    · have hnodup := hfull.1 u hu
      rw [Function.update_of_ne ht] at hnodup ⊢
      exact hnodup
  · intro r hr row hrow k hk
    by_cases hchild : r.child = t
    · subst hchild
      rw [Function.update_self] at hrow
      have hmem := hfull.2 r hr row
      rw [Function.update_self, Function.update_of_ne (hself r hr).symm] at hmem
      rw [Function.update_of_ne (hself r hr).symm]
      exact hmem (hloaded.subset hrow) k hk
    · rw [Function.update_of_ne hchild] at hrow
      by_cases hparent : r.parent = t
      · -- the table was empty before, so nothing refers to it
        have hnone := hempty.column_eq_none hr (by rw [hparent, Function.update_self])
        rw [Function.update_of_ne hchild] at hnone
        rw [hnone row hrow] at hk
        exact absurd hk (Option.not_mem_none k)
      · have hmem := hfull.2 r hr row
        rw [Function.update_of_ne hchild, Function.update_of_ne hparent] at hmem
        rw [Function.update_of_ne hparent]
        exact hmem hrow k hk

variable [DecidableEq Key]

theorem effect_clear (gone : List Table) (t : Table) :
    (Statement.clear t).effect (d.restrict (· ∉ gone)) = d.restrict (· ∉ gone ++ [t]) := by
  funext u
  by_cases hu : u = t
  · subst hu
    simp [Statement.clear, Statement.effect, Contents.restrict]
  · simp [Statement.clear, Statement.effect, Contents.restrict, hu]

variable {tables : List Table}

theorem Meets.run_clear_append (h : S.Meets d) (gone : List Table)
    (hclosed : ∀ cleared, cleared <+: tables → S.Closed (· ∉ gone ++ cleared) d) :
    run S.exec (d.restrict (· ∉ gone)) (tables.map Statement.clear) =
      some (d.restrict (· ∉ gone ++ tables)) := by
  induction tables generalizing gone with
  | nil =>
    rw [List.append_nil]
    rfl
  | cons t tables ih =>
    have hfirst := h.restrict (hclosed [t] (List.prefix_append [t] tables))
    have hrest : ∀ cleared, cleared <+: tables → S.Closed (· ∉ (gone ++ [t]) ++ cleared) d := by
      intro cleared hprefix
      rw [List.append_assoc]
      exact hclosed (t :: cleared) (List.cons_prefix_cons.mpr ⟨rfl, hprefix⟩)
    refine run_cons_eq_some.mpr ⟨_, exec_eq_some.mpr ⟨hfirst, effect_clear gone t⟩, ?_⟩
    rw [List.append_cons gone t tables]
    exact ih _ hrest

theorem run_clear_append_eq (gone : List Table)
    (hrun : run S.exec (d.restrict (· ∉ gone)) (tables.map Statement.clear) = some d') :
    d' = d.restrict (· ∉ gone ++ tables) := by
  induction tables generalizing gone with
  | nil =>
    rw [List.append_nil]
    exact (Option.some.inj hrun).symm
  | cons t tables ih =>
    obtain ⟨next, hnext, hrest⟩ := run_cons_eq_some.mp hrun
    obtain rfl := (effect_clear gone t).symm.trans (exec_eq_some.mp hnext).2
    rw [List.append_cons gone t tables]
    exact ih _ hrest

theorem run_clear_eq (hrun : run S.exec d (tables.map Statement.clear) = some d') :
    d' = d.restrict (· ∉ tables) := run_clear_append_eq [] hrun

theorem Meets.run_clear (h : S.Meets d)
    (hclosed : ∀ cleared, cleared <+: tables → S.Closed (· ∉ cleared) d) :
    run S.exec d (tables.map Statement.clear) = some (d.restrict (· ∉ tables)) :=
  h.run_clear_append [] hclosed

theorem run_insert {l rows : List (Row t)} (hself : ∀ r ∈ S.references, r.child ≠ r.parent)
    (hempty : S.Meets (Function.update d t []))
    (hfull : S.Meets (Function.update d t (l ++ rows))) :
    run S.exec (Function.update d t l) (rows.map (.insert t)) =
      some (Function.update d t (l ++ rows)) := by
  induction rows generalizing l with
  | nil =>
    rw [List.append_nil]
    rfl
  | cons row rows ih =>
    rw [List.append_cons] at hfull ⊢
    have hnext := hempty.sublist hself hfull (List.sublist_append_left (l ++ [row]) rows)
    have heffect : (Statement.insert t row).effect (Function.update d t l) =
        Function.update d t (l ++ [row]) := by
      rw [Statement.effect, Function.update_self, Function.update_idem]
    exact run_cons_eq_some.mpr ⟨_, exec_eq_some.mpr ⟨hnext, heffect⟩, ih hfull⟩

theorem update_restrict (done : List Table) (t : Table) :
    Function.update (d.restrict (· ∈ done)) t (d t) = d.restrict (· ∈ done ++ [t]) := by
  funext u
  by_cases hu : u = t
  · subst hu
    simp [Contents.restrict]
  · simp [Contents.restrict, hu]

theorem Meets.run_load_append (h : S.Meets d) (hself : ∀ r ∈ S.references, r.child ≠ r.parent)
    (done : List Table) (hnodup : (done ++ tables).Nodup)
    (hclosed : ∀ loaded, loaded <+: tables → S.Closed (· ∈ done ++ loaded) d) :
    run S.exec (d.restrict (· ∈ done)) (tables.flatMap fun t => (d t).map (.insert t)) =
      some (d.restrict (· ∈ done ++ tables)) := by
  induction tables generalizing done with
  | nil =>
    rw [List.append_nil]
    rfl
  | cons t tables ih =>
    have hnew : t ∉ done := fun hmem =>
      (List.nodup_append.mp hnodup).2.2 t hmem t List.mem_cons_self rfl
    have hstart : Function.update (d.restrict (· ∈ done)) t [] = d.restrict (· ∈ done) := by
      simp [Contents.restrict, hnew]
    have hbefore : S.Closed (· ∈ done) d := by simpa using hclosed [] List.nil_prefix
    have hafter := h.restrict (hclosed [t] (List.prefix_append [t] tables))
    rw [← update_restrict done t] at hafter
    have hrest : ∀ loaded, loaded <+: tables → S.Closed (· ∈ (done ++ [t]) ++ loaded) d := by
      intro loaded hprefix
      rw [List.append_assoc]
      exact hclosed (t :: loaded) (List.cons_prefix_cons.mpr ⟨rfl, hprefix⟩)
    have hempty : S.Meets (Function.update (d.restrict (· ∈ done)) t []) := by
      rw [hstart]
      exact h.restrict hbefore
    have hrows := run_insert hself hempty (l := []) hafter
    rw [hstart, List.nil_append, update_restrict] at hrows
    rw [List.append_cons done t tables] at hnodup ⊢
    exact run_append_eq_some.mpr ⟨_, hrows, ih _ hnodup hrest⟩

theorem Meets.run_load (h : S.Meets d) (hself : ∀ r ∈ S.references, r.child ≠ r.parent)
    (hnodup : tables.Nodup) (hclosed : ∀ loaded, loaded <+: tables → S.Closed (· ∈ loaded) d) :
    run S.exec (fun _ => []) (tables.flatMap fun t => (d t).map (.insert t)) =
      some (d.restrict (· ∈ tables)) :=
  h.run_load_append hself [] hnodup hclosed

end Schema

end DataPipe.Foundation
