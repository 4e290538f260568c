import Mathlib.Algebra.BigOperators.Group.List.Basic
import Mathlib.Algebra.Ring.Int.Defs
import Mathlib.Data.List.AList

/-!
# Finite maps

What an insertion leaves of a finite map, the entries that satisfy a test, the
replacement of a value, the sum of the values of a map to the integers, and the map
that a loop builds by inserting one key after the other.
-/

namespace DataPipe.Foundation

variable {κ : Type*} [DecidableEq κ]

section Entries

variable {ν : Type*} {key : κ} {m : AList fun _ : κ => ν} {value : ν} {found : ν} {other : κ}

theorem lookup_insert_eq_some (h : (m.insert key value).lookup other = some found) :
    other = key ∧ value = found ∨ m.lookup other = some found := by
  by_cases hother : other = key
  · rw [hother, AList.lookup_insert, Option.some.injEq] at h
    exact .inl ⟨hother, h⟩
  · rw [AList.lookup_insert_ne hother] at h
    exact .inr h

theorem lookup_erase_eq_some (h : (m.erase key).lookup other = some found) :
    other ≠ key ∧ m.lookup other = some found := by
  by_cases hother : other = key
  · rw [hother, AList.lookup_erase] at h
    contradiction
  · rw [AList.lookup_erase_ne hother] at h
    exact ⟨hother, h⟩

theorem lookup_insert_injective
    (hinj : ∀ a b found, m.lookup a = some found → m.lookup b = some found → a = b)
    (hnew : ∀ other, m.lookup other ≠ some value) {a b : κ}
    (ha : (m.insert key value).lookup a = some found)
    (hb : (m.insert key value).lookup b = some found) : a = b := by
  rcases lookup_insert_eq_some ha with ⟨hakey, hvalue⟩ | haold
  · rcases lookup_insert_eq_some hb with ⟨hbkey, -⟩ | hbold
    · rw [hakey, hbkey]
    · exact absurd (hvalue ▸ hbold) (hnew b)
  · rcases lookup_insert_eq_some hb with ⟨-, hvalue⟩ | hbold
    · exact absurd (hvalue ▸ haold) (hnew a)
    · exact hinj a b found haold hbold

def retain (keep : κ → ν → Bool) (m : AList fun _ : κ => ν) : AList fun _ : κ => ν where
  entries := m.entries.filter fun entry => keep entry.1 entry.2
  nodupKeys := List.NodupKeys.sublist List.filter_sublist m.nodupKeys

theorem lookup_retain {keep : κ → ν → Bool} :
    (retain keep m).lookup key = some value ↔
      m.lookup key = some value ∧ keep key value = true := by
  rw [← Option.mem_def, ← Option.mem_def, AList.mem_lookup_iff, AList.mem_lookup_iff]
  exact List.mem_filter

private theorem dlookup_kreplace (entries : List (Sigma fun _ : κ => ν)) (value : ν)
    (hkey : key ∈ entries.keys) (other : κ) :
    (entries.kreplace key value).dlookup other =
      if other = key then some value else entries.dlookup other := by
  induction entries with
  | nil => simp at hkey
  | cons entry entries ih =>
    obtain ⟨head, old⟩ := entry
    by_cases heq : key = head
    · subst heq
      have hreplace : List.kreplace key value (⟨key, old⟩ :: entries) =
          ⟨key, value⟩ :: entries := List.lookmap_cons_some _ _ (by simp)
      rw [hreplace]
      by_cases hother : other = key
      · rw [hother, List.dlookup_cons_eq, if_pos rfl]
      · rw [List.dlookup_cons_ne _ _ hother, List.dlookup_cons_ne _ _ hother, if_neg hother]
    · have hreplace : List.kreplace key value (⟨head, old⟩ :: entries) =
          ⟨head, old⟩ :: entries.kreplace key value :=
        List.lookmap_cons_none _ _ (by simp [heq])
      have hrest := ih (by simpa [heq] using hkey)
      rw [hreplace]
      by_cases hother : other = head
      · rw [hother, List.dlookup_cons_eq, List.dlookup_cons_eq, if_neg (Ne.symm heq)]
      · rw [List.dlookup_cons_ne _ _ hother, List.dlookup_cons_ne _ _ hother, hrest]

theorem lookup_replace (hkey : key ∈ m) (value : ν) (other : κ) :
    (m.replace key value).lookup other =
      if other = key then some value else m.lookup other :=
  dlookup_kreplace m.entries value (AList.mem_keys.mp hkey) other

end Entries

def valueSum (m : AList fun _ : κ => Int) : Int :=
  (m.entries.map Sigma.snd).sum

variable {m : AList fun _ : κ => Int}

theorem valueSum_insert_of_notMem {key : κ} (hkey : key ∉ m) (value : Int) :
    valueSum (m.insert key value) = valueSum m + value := by
  rw [valueSum, AList.entries_insert_of_notMem hkey, Int.add_comm]
  rfl

theorem valueSum_congr {m' : AList fun _ : κ => Int}
    (hlookup : ∀ key, m.lookup key = m'.lookup key) : valueSum m = valueSum m' := by
  have hperm : m.entries.Perm m'.entries := by
    apply List.lookup_ext m.nodupKeys m'.nodupKeys
    intro key value
    change value ∈ m.lookup key ↔ value ∈ m'.lookup key
    rw [hlookup]
  exact (hperm.map Sigma.snd).sum_eq

private theorem sum_kerase (entries : List (Sigma fun _ : κ => Int)) (key : κ) :
    ((entries.kerase key).map Sigma.snd).sum +
        ((entries.dlookup key).getD 0) =
      (entries.map Sigma.snd).sum := by
  induction entries with
  | nil => simp
  | cons entry entries ih =>
    obtain ⟨other, value⟩ := entry
    by_cases heq : key = other
    · subst heq
      simp [Int.add_comm]
    · rw [List.kerase_cons_ne heq, List.dlookup_cons_ne _ _ heq]
      simp only [List.map_cons, List.sum_cons]
      omega

theorem valueSum_erase (m : AList fun _ : κ => Int) (key : κ) :
    valueSum (m.erase key) = valueSum m - (m.lookup key).getD 0 := by
  have hsum := sum_kerase m.entries key
  change valueSum (m.erase key) + (m.lookup key).getD 0 = valueSum m at hsum
  omega

section Loop

variable {α : Type*} (keyOf : α → κ) (valueOf : α → Int)

def insertAll (m : AList fun _ : κ => Int) (items : List α) : AList fun _ : κ => Int :=
  items.foldl (fun m item => m.insert (keyOf item) (valueOf item)) m

variable {items : List α}

theorem lookup_insertAll_of_notMem {key : κ} (hkey : key ∉ items.map keyOf)
    (m : AList fun _ : κ => Int) : (insertAll keyOf valueOf m items).lookup key = m.lookup key := by
  induction items generalizing m with
  | nil => rfl
  | cons item items ih =>
    rw [List.map_cons, List.mem_cons, not_or] at hkey
    change (insertAll keyOf valueOf _ items).lookup key = _
    rw [ih hkey.2, AList.lookup_insert_ne hkey.1]

theorem lookup_insertAll_of_mem {item : α} (hmem : item ∈ items)
    (hnodup : (items.map keyOf).Nodup) (m : AList fun _ : κ => Int) :
    (insertAll keyOf valueOf m items).lookup (keyOf item) =
      some (valueOf item) := by
  induction items generalizing m with
  | nil => contradiction
  | cons head items ih =>
    rw [List.map_cons, List.nodup_cons] at hnodup
    change (insertAll keyOf valueOf _ items).lookup (keyOf item) = _
    rcases List.mem_cons.mp hmem with rfl | hrest
    · rw [lookup_insertAll_of_notMem keyOf valueOf hnodup.1, AList.lookup_insert]
    · exact ih hrest hnodup.2 _

theorem valueSum_insertAll (hnodup : (items.map keyOf).Nodup) {m : AList fun _ : κ => Int}
    (hfresh : ∀ item ∈ items, keyOf item ∉ m) :
    valueSum (insertAll keyOf valueOf m items) =
      items.foldl (fun total item => total + valueOf item) (valueSum m) := by
  induction items generalizing m with
  | nil => rfl
  | cons head items ih =>
    rw [List.map_cons, List.nodup_cons] at hnodup
    have hhead : keyOf head ∉ m := hfresh head List.mem_cons_self
    change valueSum (insertAll keyOf valueOf _ items) = _
    rw [ih hnodup.2, List.foldl_cons, valueSum_insert_of_notMem hhead]
    intro item hitem hmem
    rcases AList.mem_insert m |>.mp hmem with heq | hold
    · exact hnodup.1 (heq ▸ List.mem_map_of_mem hitem)
    · exact hfresh item (List.mem_cons_of_mem _ hitem) hold

end Loop

end DataPipe.Foundation
