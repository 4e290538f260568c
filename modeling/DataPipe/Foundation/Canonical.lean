import DataPipe.Foundation.JsonText
import Mathlib.Data.List.Sort
import Mathlib.Data.String.Basic

/-!
# Canonical JSON

A map with string keys is kept as the list of its entries in the order of the
keys, which is how `encoding/json` writes a map.  Reading a JSON value into such
maps forgets the order of the fields and all but the last of repeated ones; what
is left is the canonical form of the value.
-/

namespace DataPipe.Foundation

section Sorting

variable {α : Type} {key : α → String}

def sortByKey (key : α → String) (xs : List α) : List α :=
  xs.insertionSort fun a b => key a ≤ key b

theorem perm_sortByKey (key : α → String) (xs : List α) : (sortByKey key xs).Perm xs :=
  List.perm_insertionSort _ xs

private theorem pairwise_sortByKey (key : α → String) (xs : List α) :
    (sortByKey key xs).Pairwise fun a b => key a ≤ key b := by
  exact List.pairwise_insertionSort _ xs

variable {xs ys : List α}

theorem ascending_sortByKey (hnodup : (xs.map key).Nodup) :
    ((sortByKey key xs).map key).Pairwise (· < ·) := by
  have hperm := ((perm_sortByKey key xs).map key).nodup_iff.mpr hnodup
  have hle : ((sortByKey key xs).map key).Pairwise (· ≤ ·) :=
    List.pairwise_map.mpr (pairwise_sortByKey key xs)
  exact (hle.and hperm).imp fun h => lt_of_le_of_ne h.1 h.2

theorem sortByKey_eq_of_injOn (h : xs.Perm ys) (hinj : ∀ a ∈ xs, ∀ b ∈ xs, key a = key b → a = b) :
    sortByKey key xs = sortByKey key ys := by
  have hperm : (sortByKey key xs).Perm (sortByKey key ys) :=
    ((perm_sortByKey key xs).trans h).trans (perm_sortByKey key ys).symm
  refine hperm.eq_of_pairwise ?_ (pairwise_sortByKey key xs) (pairwise_sortByKey key ys)
  intro a b ha hb hab hba
  have ha' := (perm_sortByKey key xs).mem_iff.mp ha
  have hb' := h.mem_iff.mpr ((perm_sortByKey key ys).mem_iff.mp hb)
  exact hinj a ha' b hb' (le_antisymm hab hba)

theorem sortByKey_eq_of_perm (h : xs.Perm ys) (hnodup : (xs.map key).Nodup) :
    sortByKey key xs = sortByKey key ys :=
  sortByKey_eq_of_injOn h fun _ ha _ hb heq => List.inj_on_of_nodup_map hnodup ha hb heq

theorem sortByKey_map {f : α → α} (hf : ∀ x, key (f x) = key x) (xs : List α) :
    sortByKey key (xs.map f) = (sortByKey key xs).map f := by
  refine (List.map_insertionSort _ _ f xs ?_).symm
  intro a _ b _
  rw [hf, hf]

theorem sortByKey_sortByKey (xs : List α) : sortByKey key (sortByKey key xs) = sortByKey key xs :=
  (pairwise_sortByKey key xs).insertionSort_eq

theorem find?_key_eq_some_iff (hnodup : (xs.map key).Nodup) {k : String} {a : α} :
    xs.find? (fun x => key x = k) = some a ↔ a ∈ xs ∧ key a = k := by
  constructor
  · intro h
    have hkey := List.find?_some h
    exact ⟨List.mem_of_find?_eq_some h, of_decide_eq_true hkey⟩
  · rintro ⟨hmem, hkey⟩
    have hsome : (xs.find? fun x => key x = k).isSome := by
      rw [List.find?_isSome]
      exact ⟨a, hmem, by simpa using hkey⟩
    obtain ⟨b, hb⟩ := Option.isSome_iff_exists.mp hsome
    have hbkey := List.find?_some hb
    rw [hb, List.inj_on_of_nodup_map hnodup (List.mem_of_find?_eq_some hb) hmem
      ((of_decide_eq_true hbkey).trans hkey.symm)]

theorem find?_key_eq_of_perm (h : xs.Perm ys) (hnodup : (xs.map key).Nodup) (k : String) :
    xs.find? (fun x => key x = k) = ys.find? fun x => key x = k := by
  have hnodup' := (h.map key).nodup_iff.mp hnodup
  apply Option.ext
  intro a
  rw [find?_key_eq_some_iff hnodup, find?_key_eq_some_iff hnodup', h.mem_iff]

end Sorting

section Fields

variable {α β : Type}

def insertField (key : String) (value : α) : List (String × α) → List (String × α)
  | [] => [(key, value)]
  | (k, v) :: fields =>
    if key < k then (key, value) :: (k, v) :: fields
    else if key = k then (key, value) :: fields
    else (k, v) :: insertField key value fields

def sortFields (fields : List (String × α)) : List (String × α) :=
  fields.foldl (fun sorted field => insertField field.1 field.2 sorted) []

def Ascending (fields : List (String × α)) : Prop :=
  (fields.map Prod.fst).Pairwise (· < ·)

variable {fields : List (String × α)} {field : String × α} (f : α → β) (name key : String)
variable {value : α}

theorem mem_insertField {key : String} (h : field ∈ insertField key value fields) :
    field = (key, value) ∨ field ∈ fields := by
  induction fields with
  | nil => simpa [insertField] using h
  | cons first fields ih =>
    rw [insertField] at h
    split at h
    · exact List.mem_cons.mp h
    · split at h
      · exact (List.mem_cons.mp h).imp_right (List.mem_cons_of_mem _)
      · rcases List.mem_cons.mp h with h | h
        · exact .inr (h ▸ List.mem_cons_self)
        · exact (ih h).imp_right (List.mem_cons_of_mem _)

theorem ascending_insertField (value : α) (h : Ascending fields) :
    Ascending (insertField key value fields) := by
  induction fields with
  | nil => simp [insertField, Ascending]
  | cons field fields ih =>
    have hcons := h
    rw [Ascending, List.map_cons, List.pairwise_cons] at hcons
    obtain ⟨hhead, htail⟩ := hcons
    rw [insertField]
    split
    next hlt =>
      rw [Ascending, List.map_cons, List.pairwise_cons]
      refine ⟨?_, h⟩
      intro name hname
      rcases List.mem_cons.mp hname with rfl | hname
      · exact hlt
      · exact hlt.trans (hhead name hname)
    next hnot =>
      split
      next heq =>
        subst heq
        exact h
      next hne =>
        rw [Ascending, List.map_cons, List.pairwise_cons]
        refine ⟨?_, ih htail⟩
        intro name hname
        obtain ⟨field, hfield, rfl⟩ := List.mem_map.mp hname
        rcases mem_insertField hfield with rfl | hfield
        · exact lt_of_le_of_ne (not_lt.mp hnot) (Ne.symm hne)
        · exact hhead _ (List.mem_map_of_mem hfield)

theorem ascending_sortFields (fields : List (String × α)) : Ascending (sortFields fields) :=
  List.foldlRecOn fields _ List.Pairwise.nil fun _ h _ _ => ascending_insertField _ _ h

theorem mem_of_mem_sortFields (h : field ∈ sortFields fields) : field ∈ fields := by
  refine List.foldlRecOn (motive := fun sorted => field ∈ sorted → field ∈ fields) fields _
    (fun h => by cases h) ?_ h
  intro sorted ih first hfirst hfield
  rcases mem_insertField hfield with rfl | hfield
  · exact hfirst
  · exact ih hfield

theorem Ascending.nodup (h : Ascending fields) :
    (fields.map Prod.fst).Nodup := h.imp fun hlt => ne_of_lt hlt

theorem lookup_field_cons (value : α) (fields : List (String × α)) :
    ((key, value) :: fields).lookup name =
      if name = key then some value else fields.lookup name := by
  rw [List.lookup_cons]
  split <;> simp_all

theorem lookup_eq_none_of_not_mem {name : String} (h : name ∉ fields.map Prod.fst) :
    fields.lookup name = none := by
  rw [List.lookup_eq_none_iff]
  intro field hfield
  have hne : field.1 ≠ name := fun heq => h (List.mem_map.mpr ⟨field, hfield, heq⟩)
  simpa using Ne.symm hne

theorem lookup_insertField (name : String) (value : α) (fields : List (String × α)) :
    (insertField key value fields).lookup name =
      if name = key then some value else fields.lookup name := by
  induction fields with
  | nil => rw [insertField, lookup_field_cons]
  | cons field fields ih =>
    obtain ⟨k, v⟩ := field
    rw [insertField]
    split
    · rw [lookup_field_cons]
    · split
      next heq =>
        subst heq
        rw [lookup_field_cons, lookup_field_cons]
        split <;> rfl
      next hne =>
        rw [lookup_field_cons, lookup_field_cons, ih]
        by_cases h : name = k
        · rw [if_pos h, if_pos h, if_neg fun hkey => hne (hkey.symm.trans h)]
        · rw [if_neg h, if_neg h]

private theorem lookup_foldl (fields sorted : List (String × α))
    (hnodup : (fields.map Prod.fst).Nodup) :
    (fields.foldl (fun sorted field => insertField field.1 field.2 sorted) sorted).lookup name =
      (fields.lookup name).or (sorted.lookup name) := by
  induction fields generalizing sorted with
  | nil => rfl
  | cons field fields ih =>
    obtain ⟨k, v⟩ := field
    rw [List.map_cons, List.nodup_cons] at hnodup
    rw [List.foldl_cons, ih _ hnodup.2, lookup_insertField, lookup_field_cons]
    by_cases h : name = k
    · rw [if_pos h, if_pos h, lookup_eq_none_of_not_mem (h ▸ hnodup.1)]
      rfl
    · rw [if_neg h, if_neg h]

theorem lookup_sortFields (hnodup : (fields.map Prod.fst).Nodup) :
    (sortFields fields).lookup name = fields.lookup name := by
  rw [sortFields, lookup_foldl name fields [] hnodup]
  simp

theorem insertField_of_greater {key : String} (h : ∀ name ∈ fields.map Prod.fst, name < key) :
    insertField key value fields = fields ++ [(key, value)] := by
  induction fields with
  | nil => rfl
  | cons field fields ih =>
    obtain ⟨k, v⟩ := field
    have hk : k < key := h k (by simp)
    rw [insertField, if_neg (not_lt.mpr hk.le), if_neg (ne_of_gt hk),
      ih fun name hname => h name (by rw [List.map_cons]; exact .tail _ hname),
      List.cons_append]

private theorem foldl_of_ascending (fields sorted : List (String × α))
    (h : Ascending (sorted ++ fields)) :
    fields.foldl (fun sorted field => insertField field.1 field.2 sorted) sorted =
      sorted ++ fields := by
  induction fields generalizing sorted with
  | nil => simp
  | cons field fields ih =>
    have hgreater : ∀ name ∈ sorted.map Prod.fst, name < field.1 := by
      intro name hname
      rw [Ascending, List.map_append] at h
      exact (List.pairwise_append.mp h).2.2 name hname field.1 (by simp)
    rw [List.foldl_cons, insertField_of_greater hgreater, ih, List.append_assoc]
    · rfl
    · rwa [List.append_assoc]

theorem sortFields_of_ascending (h : Ascending fields) :
    sortFields fields = fields := foldl_of_ascending fields [] h

theorem insertField_map (value : α) (fields : List (String × α)) :
    insertField key (f value) (fields.map (Prod.map id f)) =
      (insertField key value fields).map (Prod.map id f) := by
  induction fields with
  | nil => rfl
  | cons field fields ih =>
    obtain ⟨k, v⟩ := field
    simp only [List.map_cons, Prod.map, id_eq, insertField] at ih ⊢
    split
    · rfl
    · split
      · rfl
      · rw [ih, List.map_cons]
        rfl

private theorem foldl_map_fields (fields sorted : List (String × α)) :
    (fields.map (Prod.map id f)).foldl
        (fun sorted field => insertField field.1 field.2 sorted) (sorted.map (Prod.map id f)) =
      (fields.foldl (fun sorted field => insertField field.1 field.2 sorted) sorted).map
        (Prod.map id f) := by
  induction fields generalizing sorted with
  | nil => rfl
  | cons field fields ih =>
    rw [List.map_cons, List.foldl_cons, List.foldl_cons, ← ih]
    congr 1
    exact insertField_map f field.1 field.2 sorted

theorem sortFields_map (fields : List (String × α)) :
    sortFields (fields.map (Prod.map id f)) = (sortFields fields).map (Prod.map id f) :=
  foldl_map_fields f fields []

end Fields

namespace Json

mutual

def canonical : Json → Json
  | .arr items => .arr (canonicalItems items)
  | .obj fields => .obj (sortFields (canonicalFields fields))
  | .null => .null
  | .bool value => .bool value
  | .num literal => .num literal
  | .str text => .str text

def canonicalItems : List Json → List Json
  | [] => []
  | item :: items => canonical item :: canonicalItems items

def canonicalField : String × Json → String × Json
  | (key, value) => (key, canonical value)

def canonicalFields : List (String × Json) → List (String × Json)
  | [] => []
  | field :: fields => canonicalField field :: canonicalFields fields

end

theorem canonicalItems_eq (items : List Json) : canonicalItems items = items.map canonical := by
  induction items with
  | nil => rfl
  | cons item items ih => rw [canonicalItems, ih, List.map_cons]

theorem canonicalFields_eq (fields : List (String × Json)) :
    canonicalFields fields = fields.map (Prod.map id canonical) := by
  induction fields with
  | nil => rfl
  | cons field fields ih =>
    rw [canonicalFields, ih, List.map_cons]
    cases field
    rfl

mutual

@[simp] theorem canonical_canonical (v : Json) : canonical (canonical v) = canonical v := by
  cases v with
  | arr items => rw [canonical, canonical, canonicalItems_canonicalItems]
  | obj fields =>
    rw [canonical, canonical, canonicalFields_eq, ← sortFields_map, ← canonicalFields_eq,
      canonicalFields_canonicalFields, sortFields_of_ascending (ascending_sortFields _)]
  | _ => rfl

theorem canonicalItems_canonicalItems (items : List Json) :
    canonicalItems (canonicalItems items) = canonicalItems items := by
  cases items with
  | nil => rfl
  | cons item items =>
    rw [canonicalItems, canonicalItems, canonical_canonical item,
      canonicalItems_canonicalItems items]

theorem canonicalFields_canonicalFields (fields : List (String × Json)) :
    canonicalFields (canonicalFields fields) = canonicalFields fields := by
  match fields with
  | [] => rfl
  | (key, value) :: fields =>
    rw [canonicalFields, canonicalFields, canonicalField, canonicalField,
      canonical_canonical value, canonicalFields_canonicalFields fields]

end

end Json

def Literal.IsCanonical (l : Literal) : Prop := l.htmlEscape = (Literal.encode l.text).htmlEscape

theorem Literal.isCanonical_encode (text : String) : (Literal.encode text).IsCanonical := by
  rw [Literal.IsCanonical, Literal.text_encode]

namespace RawJson

mutual

/-- Every object has ascending keys, and every string is written as the encoder writes it. -/
def IsCanonical : RawJson → Prop
  | .str literal => literal.IsCanonical
  | .arr items => ItemsCanonical items
  | .obj fields =>
    (fields.map fun field => field.1.text).Pairwise (· < ·) ∧ FieldsCanonical fields
  | .null => True
  | .bool _ => True
  | .num _ => True

def ItemsCanonical : List RawJson → Prop
  | [] => True
  | item :: items => IsCanonical item ∧ ItemsCanonical items

def FieldCanonical : Literal × RawJson → Prop
  | (key, value) => key.IsCanonical ∧ IsCanonical value

def FieldsCanonical : List (Literal × RawJson) → Prop
  | [] => True
  | field :: fields => FieldCanonical field ∧ FieldsCanonical fields

end

theorem itemsCanonical_iff {items : List RawJson} :
    ItemsCanonical items ↔ ∀ item ∈ items, item.IsCanonical := by
  induction items with
  | nil => simp [ItemsCanonical]
  | cons item items ih => rw [ItemsCanonical, ih, List.forall_mem_cons]

variable {fields : List (Literal × RawJson)}

theorem fieldsCanonical_iff :
    FieldsCanonical fields ↔ ∀ field ∈ fields, field.1.IsCanonical ∧ field.2.IsCanonical := by
  induction fields with
  | nil => simp [FieldsCanonical]
  | cons field fields ih =>
    cases field
    rw [FieldsCanonical, FieldCanonical, ih, List.forall_mem_cons]

theorem spelled_eq_iff {l m : Literal} : spelled l = spelled m ↔ l.htmlEscape = m.htmlEscape := by
  constructor
  · intro h
    exact Literal.chars_injective (String.ofList_injective h)
  · intro h
    rw [spelled, spelled, h]

theorem spelled_encode_text {l : Literal} {s : String} (h : spelled l = spelled (.encode s)) :
    l.text = s := by
  have htext := congrArg Literal.text (spelled_eq_iff.mp h)
  rwa [Literal.text_htmlEscape, Literal.text_htmlEscape, Literal.text_encode] at htext

theorem map_text_of_translateFields {written : List (String × Json)}
    (h : translateFields spelled fields = translateFields spelled (ofFields written)) :
    fields.map (fun field => field.1.text) = written.map Prod.fst := by
  induction fields generalizing written with
  | nil =>
    cases written with
    | nil => rfl
    | cons field written => cases h
  | cons field fields ih =>
    cases written with
    | nil => cases h
    | cons other written =>
      obtain ⟨key, value⟩ := field
      obtain ⟨name, json⟩ := other
      simp only [translateFields, translateField, ofFields, ofField, List.cons.injEq,
        Prod.mk.injEq] at h
      rw [List.map_cons, List.map_cons, spelled_encode_text h.1.1, ih h.2]

private theorem keys_of_value (fields : List (Literal × RawJson)) :
    (Json.canonicalFields (translateFields Literal.text fields)).map Prod.fst =
      fields.map fun field => field.1.text := by
  rw [Json.canonicalFields_eq, translateFields_eq, List.map_map, List.map_map]
  apply List.map_congr_left
  intro field _
  cases field
  rfl

mutual

theorem asWritten_eq_canonical_iff (document : RawJson) :
    document.asWritten = (ofJson document.value.canonical).asWritten ↔
      document.IsCanonical := by
  cases document with
  | str literal =>
    simp only [asWritten, value, translate, Json.canonical, ofJson, Json.str.injEq]
    exact spelled_eq_iff
  | arr items =>
    simp only [asWritten, value, translate, Json.canonical, ofJson, Json.arr.injEq, IsCanonical]
    exact items_eq_canonical_iff items
  | obj fields =>
    simp only [asWritten, value, translate, Json.canonical, ofJson, Json.obj.injEq, IsCanonical]
    have hkeys := keys_of_value fields
    constructor
    · intro h
      have hnames := map_text_of_translateFields h
      have hascending : (fields.map fun field => field.1.text).Pairwise (· < ·) := by
        rw [hnames]
        exact ascending_sortFields _
      refine ⟨hascending, (fields_eq_canonical_iff fields).mp ?_⟩
      rwa [sortFields_of_ascending (by rwa [Ascending, hkeys])] at h
    · rintro ⟨hascending, hfields⟩
      rw [sortFields_of_ascending (by rwa [Ascending, hkeys])]
      exact (fields_eq_canonical_iff fields).mpr hfields
  | null | bool | num => exact iff_of_true rfl trivial

theorem items_eq_canonical_iff (items : List RawJson) :
    translateItems spelled items = translateItems spelled
        (ofItems (Json.canonicalItems (translateItems Literal.text items))) ↔
      ItemsCanonical items := by
  cases items with
  | nil => exact iff_of_true rfl trivial
  | cons item items =>
    simp only [translateItems, Json.canonicalItems, ofItems, List.cons.injEq, ItemsCanonical]
    exact and_congr (asWritten_eq_canonical_iff item) (items_eq_canonical_iff items)

theorem fields_eq_canonical_iff (fields : List (Literal × RawJson)) :
    translateFields spelled fields = translateFields spelled
        (ofFields (Json.canonicalFields (translateFields Literal.text fields))) ↔
      FieldsCanonical fields := by
  match fields with
  | [] => exact iff_of_true rfl trivial
  | (key, document) :: fields =>
    simp only [translateFields, translateField, Json.canonicalFields, Json.canonicalField,
      ofFields, ofField, List.cons.injEq, Prod.mk.injEq, FieldsCanonical, FieldCanonical]
    exact and_congr
      (and_congr spelled_eq_iff (asWritten_eq_canonical_iff document))
      (fields_eq_canonical_iff fields)

end

end RawJson

end DataPipe.Foundation
