import Mathlib.Data.List.Nodup

/-!
# Keyed rows with an owner

A table is a list of rows with a key; each row belongs to an owner.  Two tables
agree on an owner when they hold the same rows of that owner and their keys are
unique.  A lookup by key alone gives the same row in both exactly when the key
names a row of that owner: otherwise some table that agrees answers it
differently.
-/

namespace DataPipe.Foundation

variable {Row Key Owner : Type*} {key : Row → Key} {owner : Row → Owner} {k : Key}

section Lookup

variable [DecidableEq Key] {rows : List Row}

theorem find?_key_eq_some (hnodup : (rows.map key).Nodup) {row : Row} :
    rows.find? (key · = k) = some row ↔ row ∈ rows ∧ key row = k := by
  constructor
  · intro hfind
    have hkey := List.find?_some hfind
    exact ⟨List.mem_of_find?_eq_some hfind, of_decide_eq_true hkey⟩
  · rintro ⟨hmem, rfl⟩
    have hsome : (rows.find? (key · = key row)).isSome :=
      List.find?_isSome.mpr ⟨row, hmem, decide_eq_true rfl⟩
    obtain ⟨found, hfound⟩ := Option.isSome_iff_exists.mp hsome
    have hkey := List.find?_some hfound
    rw [hfound, List.inj_on_of_nodup_map hnodup (List.mem_of_find?_eq_some hfound) hmem
      (of_decide_eq_true hkey)]

theorem find?_key_eq_none : rows.find? (key · = k) = none ↔ k ∉ rows.map key := by
  rw [List.find?_eq_none, List.mem_map]
  constructor
  · rintro hnone ⟨row, hmem, hkey⟩
    exact hnone row hmem (decide_eq_true hkey)
  · intro hnone row hmem hkey
    exact hnone ⟨row, hmem, of_decide_eq_true hkey⟩

end Lookup

def updateRows (test : Row → Bool) (change : Row → Row) (rows : List Row) : List Row :=
  rows.map fun row => if test row then change row else row

theorem map_updateRows {Value : Type*} {column : Row → Value} {test : Row → Bool}
    {change : Row → Row} (hchange : ∀ row, column (change row) = column row) (rows : List Row) :
    (updateRows test change rows).map column = rows.map column := by
  rw [updateRows, List.map_map]
  refine List.map_congr_left fun row _ => ?_
  rw [Function.comp_apply]
  split
  · exact hchange row
  · rfl

theorem nodup_concat_of_notMem {keys : List Key} (hnodup : keys.Nodup) (hk : k ∉ keys) :
    (keys ++ [k]).Nodup :=
  List.nodup_append.mpr ⟨hnodup, List.nodup_singleton k, fun a ha b hb => by
    rintro rfl
    exact hk (List.mem_singleton.mp hb ▸ ha)⟩

variable [DecidableEq Owner]

/-- Both tables have unique keys and the same rows of the owner `p`. -/
structure AgreeOn (key : Row → Key) (owner : Row → Owner) (p : Owner) (rows rows' : List Row) :
    Prop where
  nodup : (rows.map key).Nodup
  nodup' : (rows'.map key).Nodup
  same : rows.filter (owner · = p) = rows'.filter (owner · = p)

namespace AgreeOn

variable {p : Owner} {rows rows' : List Row} {row : Row}

theorem mem (h : AgreeOn key owner p rows rows') (hmem : row ∈ rows) (howner : owner row = p) :
    row ∈ rows' := by
  have hfilter : row ∈ rows.filter (owner · = p) :=
    List.mem_filter.mpr ⟨hmem, decide_eq_true howner⟩
  rw [h.same] at hfilter
  exact List.mem_of_mem_filter hfilter

theorem find?_eq [DecidableEq Key] (h : AgreeOn key owner p rows rows')
    (hfind : rows.find? (key · = k) = some row) (howner : owner row = p) :
    rows'.find? (key · = k) = some row := by
  obtain ⟨hmem, hkey⟩ := (find?_key_eq_some h.nodup).mp hfind
  exact (find?_key_eq_some h.nodup').mpr ⟨h.mem hmem howner, hkey⟩

theorem erase [DecidableEq Key] (hnodup : (rows.map key).Nodup)
    (hforeign : ∀ row, rows.find? (key · = k) = some row → owner row ≠ p) :
    AgreeOn key owner p rows (rows.filter (key · ≠ k)) where
  nodup := hnodup
  nodup' := hnodup.sublist (List.filter_sublist.map key)
  same := by
    rw [List.filter_filter]
    refine List.filter_congr fun row hmem => ?_
    by_cases hkey : key row = k
    · have howner := hforeign row ((find?_key_eq_some hnodup).mpr ⟨hmem, hkey⟩)
      simp [howner]
    · simp [hkey]

theorem concat (hnodup : (rows.map key).Nodup) (hunused : key row ∉ rows.map key)
    (hforeign : owner row ≠ p) : AgreeOn key owner p rows (rows ++ [row]) where
  nodup := hnodup
  nodup' := by
    rw [List.map_append]
    exact nodup_concat_of_notMem hnodup hunused
  same := by simp [hforeign]

end AgreeOn

/--
Where a key names no row of the owner, some table that agrees on the owner answers whether the
key is in use differently, and every other lookup as before.
-/
theorem exists_agreeOn_isSome_ne [DecidableEq Key] {p : Owner} {rows : List Row}
    (hnodup : (rows.map key).Nodup)
    (hforeign : ∀ row, rows.find? (key · = k) = some row → owner row ≠ p)
    (hrow : ∃ row, key row = k ∧ owner row ≠ p) : ∃ rows', AgreeOn key owner p rows rows' ∧
      (rows'.find? (key · = k)).isSome ≠ (rows.find? (key · = k)).isSome ∧
      ∀ other ≠ k, rows'.find? (key · = other) = rows.find? (key · = other) := by
  cases hfind : rows.find? (key · = k) with
  | some found =>
    refine ⟨rows.filter (key · ≠ k), .erase hnodup hforeign, ?_, fun other hother => ?_⟩
    · simp
    · rw [List.find?_filter]
      congr 1
      funext row
      by_cases hkey : key row = other
      · simp [hkey, hother]
      · simp [hkey]
  | none =>
    obtain ⟨row, hkey, howner⟩ := hrow
    have hunused : key row ∉ rows.map key := by
      rw [hkey]
      exact find?_key_eq_none.mp hfind
    refine ⟨rows ++ [row], .concat hnodup hunused howner, ?_, fun other hother => ?_⟩
    · simp [hkey]
    · have hne : key row ≠ other := fun heq => hother (heq.symm.trans hkey)
      simp [hne]

end DataPipe.Foundation
