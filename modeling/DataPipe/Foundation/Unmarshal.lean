import DataPipe.Foundation.Canonical
import Mathlib.Algebra.Ring.Int.Defs

/-!
# Encoding and decoding of Go values

How `encoding/json` encodes a struct with omitted fields and decodes a document into a Go value
that is already there: null leaves a plain value alone and clears a reference, a field of a
struct is decoded from every entry whose key names it, one after the other, and what no entry
names keeps its old value.
-/

set_option linter.dupNamespace false

namespace DataPipe.Foundation

/--
`float64` in JSON text: the literal that is written for the number that a literal
denotes, unless that is out of range.
-/
structure Float64Text where
  nearest : NumLit → Option NumLit
  nearest_nearest : ∀ {l m}, nearest l = some m → nearest m = some m
  nearest_zero : nearest (intLit 0) = some (intLit 0)

/-- A `float64`, kept as the literal that is written for it. -/
structure Float64 (floats : Float64Text) where
  literal : NumLit
  nearest : floats.nearest literal = some literal

def Float64.zero (floats : Float64Text) : Float64 floats := ⟨intLit 0, floats.nearest_zero⟩

section DynamicValues

variable (floats : Float64Text)

mutual

/-- A value decoded into an `any`: numbers are `float64`, objects are maps. -/
def anyValue : Json → Option Json
  | .num literal => (floats.nearest literal).map .num
  | .arr items => (anyItems items).map .arr
  | .obj fields => (anyFields fields).map fun fields => .obj (sortFields fields)
  | .null => some .null
  | .bool value => some (.bool value)
  | .str text => some (.str text)

def anyItems : List Json → Option (List Json)
  | [] => some []
  | item :: items =>
    match anyValue item, anyItems items with
    | some item, some items => some (item :: items)
    | _, _ => none

def anyField : String × Json → Option (String × Json)
  | (key, value) => (anyValue value).map fun value => (key, value)

def anyFields : List (String × Json) → Option (List (String × Json))
  | [] => some []
  | field :: fields =>
    match anyField field, anyFields fields with
    | some field, some fields => some (field :: fields)
    | _, _ => none

end

variable {floats} {fields : List (String × Json)}

theorem anyFields_of_forall (h : ∀ field ∈ fields, anyValue floats field.2 = some field.2) :
    anyFields floats fields = some fields := by
  induction fields with
  | nil => rfl
  | cons field fields ih =>
    obtain ⟨key, value⟩ := field
    have hvalue : anyValue floats value = some value := h (key, value) (by simp)
    rw [anyFields, anyField, hvalue, ih fun field hfield => h field (.tail _ hfield)]
    rfl

mutual

theorem anyValue_of_anyValue {v w : Json} (h : anyValue floats v = some w) :
    anyValue floats w = some w := by
  cases v with
  | num literal =>
    rw [anyValue, Option.map_eq_some_iff] at h
    obtain ⟨nearest, hnearest, rfl⟩ := h
    rw [anyValue, floats.nearest_nearest hnearest, Option.map_some]
  | arr items =>
    rw [anyValue, Option.map_eq_some_iff] at h
    obtain ⟨items', hitems, rfl⟩ := h
    rw [anyValue, anyItems_of_anyItems hitems, Option.map_some]
  | obj fields =>
    rw [anyValue, Option.map_eq_some_iff] at h
    obtain ⟨fields', hfields, rfl⟩ := h
    have hall := anyFields_of_anyFields hfields
    rw [anyValue, anyFields_of_forall fun field hfield =>
        hall field (mem_of_mem_sortFields hfield),
      Option.map_some, sortFields_of_ascending (ascending_sortFields _)]
  | null | bool | str => cases h; rfl

theorem anyItems_of_anyItems {vs ws : List Json} (h : anyItems floats vs = some ws) :
    anyItems floats ws = some ws := by
  cases vs with
  | nil => cases h; rfl
  | cons v vs =>
    rw [anyItems] at h
    split at h
    next w ws' hitem hitems =>
      cases h
      rw [anyItems, anyValue_of_anyValue hitem, anyItems_of_anyItems hitems]
    · cases h

theorem anyFields_of_anyFields {fields fields' : List (String × Json)}
    (h : anyFields floats fields = some fields') :
    ∀ field ∈ fields', anyValue floats field.2 = some field.2 := by
  match fields with
  | [] =>
    cases h
    simp
  | (key, value) :: fields =>
    rw [anyFields, anyField] at h
    split at h
    next first rest hfirst hrest =>
      rw [Option.map_eq_some_iff] at hfirst
      obtain ⟨value', hvalue, rfl⟩ := hfirst
      cases h
      intro field hfield
      rcases List.mem_cons.mp hfield with rfl | hfield
      · exact anyValue_of_anyValue hvalue
      · exact anyFields_of_anyFields hrest field hfield
    · cases h

end

theorem anyItems_eq_self_iff {items : List Json} :
    anyItems floats items = some items ↔ ∀ item ∈ items, anyValue floats item = some item := by
  induction items with
  | nil => simp [anyItems]
  | cons item items ih =>
    rw [anyItems, List.forall_mem_cons, ← ih]
    constructor
    · intro h
      split at h
      next hitem hitems =>
        cases h
        exact ⟨hitem, hitems⟩
      · cases h
    · rintro ⟨hitem, hitems⟩
      rw [hitem, hitems]

theorem anyValue_obj_eq_self_iff :
    anyValue floats (.obj fields) = some (.obj fields) ↔
      Ascending fields ∧ ∀ field ∈ fields, anyValue floats field.2 = some field.2 := by
  constructor
  · intro h
    rw [anyValue, Option.map_eq_some_iff] at h
    obtain ⟨fields', hfields, heq⟩ := h
    have hsorted : sortFields fields' = fields := Json.obj.inj heq
    refine ⟨hsorted ▸ ascending_sortFields fields', ?_⟩
    intro field hfield
    rw [← hsorted] at hfield
    exact anyFields_of_anyFields hfields field (mem_of_mem_sortFields hfield)
  · rintro ⟨hascending, hall⟩
    rw [anyValue, anyFields_of_forall hall, Option.map_some, sortFields_of_ascending hascending]

mutual

theorem canonical_of_decoded {v : Json} (h : anyValue floats v = some v) : v.canonical = v := by
  cases v with
  | arr items =>
    rw [anyValue, Option.map_eq_some_iff] at h
    obtain ⟨items', hitems, heq⟩ := h
    cases heq
    rw [Json.canonical, canonicalItems_of_decoded items (anyItems_eq_self_iff.mp hitems)]
  | obj fields =>
    obtain ⟨hascending, hall⟩ := anyValue_obj_eq_self_iff.mp h
    rw [Json.canonical, canonicalFields_of_decoded fields hall,
      sortFields_of_ascending hascending]
  | _ => rfl

theorem canonicalItems_of_decoded (items : List Json)
    (h : ∀ item ∈ items, anyValue floats item = some item) : Json.canonicalItems items = items := by
  match items with
  | [] => rfl
  | item :: items =>
    rw [Json.canonicalItems, canonical_of_decoded (h item (by simp)),
      canonicalItems_of_decoded items fun item hitem => h item (.tail _ hitem)]

theorem canonicalFields_of_decoded (fields : List (String × Json))
    (h : ∀ field ∈ fields, anyValue floats field.2 = some field.2) :
    Json.canonicalFields fields = fields := by
  match fields with
  | [] => rfl
  | (key, value) :: fields =>
    have hvalue : anyValue floats value = some value := h (key, value) (by simp)
    rw [Json.canonicalFields, Json.canonicalField, canonical_of_decoded hvalue,
      canonicalFields_of_decoded fields fun field hfield => h field (.tail _ hfield)]

end

variable (floats)

/-- What an `any` can hold after decoding; nil is null. -/
structure GoValue where
  json : Json
  decoded : anyValue floats json = some json

def GoValue.nil : GoValue floats := ⟨.null, rfl⟩

end DynamicValues

structure KeyMap (α : Type) where
  entries : List (String × α)
  ascending : Ascending entries

namespace KeyMap

variable {α : Type}

def empty : KeyMap α := ⟨[], List.Pairwise.nil⟩

def insert (m : KeyMap α) (key : String) (value : α) : KeyMap α :=
  ⟨insertField key value m.entries, ascending_insertField key value m.ascending⟩

end KeyMap

def presentFields : List (String × Option Json) → List (String × Json)
  | [] => []
  | (key, some value) :: fields => (key, value) :: presentFields fields
  | (_, none) :: fields => presentFields fields

def object (fields : List (String × Option Json)) : Json := .obj (presentFields fields)

private theorem canonicalFields_presentFields (fields : List (String × Option Json)) :
    Json.canonicalFields (presentFields fields) =
      presentFields (fields.map (Prod.map id (Option.map Json.canonical))) := by
  induction fields with
  | nil => rfl
  | cons field fields ih =>
    obtain ⟨key, _ | value⟩ := field
    · exact ih
    · rw [presentFields, Json.canonicalFields, ih]
      rfl

theorem canonical_object_congr {fields fields' : List (String × Option Json)}
    (h : fields.map (Prod.map id (Option.map Json.canonical)) =
      fields'.map (Prod.map id (Option.map Json.canonical))) :
    (object fields).canonical = (object fields').canonical := by
  rw [object, object, Json.canonical, Json.canonical, canonicalFields_presentFields,
    canonicalFields_presentFields, h]

abbrev Decoder (α : Type) := α → RawJson → Option α

def foldChar (c : Char) : Char :=
  if c = '\u017f' then 's' else if c = '\u212a' then 'k' else c.toLower

def foldName (name : String) : List Char := name.toList.map foldChar

def fieldFor (names : List String) (key : String) : Option String :=
  if key ∈ names then some key else names.find? fun name => foldName name = foldName key

def entriesFor (names : List String) (name : String) :
    List (Literal × RawJson) → List RawJson
  | [] => []
  | (key, value) :: fields =>
    if fieldFor names key.text = some name then value :: entriesFor names name fields
    else entriesFor names name fields

section Decoders

variable {α : Type}

def decodeField (names : List String) (fields : List (Literal × RawJson)) (name : String)
    (decode : Decoder α) (old : α) : Option α :=
  (entriesFor names name fields).foldlM decode old

def decodeStruct (names : List String) (old : α)
    (body : ({β : Type} → String → Decoder β → β → Option β) → Option α) :
    RawJson → Option α
  | .null => some old
  | .obj entries => body (decodeField names entries)
  | _ => none

def decodeString : Decoder String
  | old, .null => some old
  | _, .str literal => some literal.text
  | _, _ => none

def decodeBool : Decoder Bool
  | old, .null => some old
  | _, .bool value => some value
  | _, _ => none

/-- `strconv.ParseInt` of a literal. -/
def parseInt (literal : NumLit) : Option Int64 :=
  (signedDecimalValue literal.chars).bind fun n =>
    if -2 ^ 63 ≤ n ∧ n < 2 ^ 63 then some (Int64.ofInt n) else none

def decodeInt : Decoder Int64
  | old, .null => some old
  | _, .num literal => parseInt literal
  | _, _ => none

def toFloat64 (floats : Float64Text) (literal : NumLit) : Option (Float64 floats) :=
  match h : floats.nearest literal with
  | some literal => some ⟨literal, floats.nearest_nearest h⟩
  | none => none

def decodeFloat64 (floats : Float64Text) : Decoder (Float64 floats)
  | old, .null => some old
  | _, .num literal => toFloat64 floats literal
  | _, _ => none

def toGoValue (floats : Float64Text) (v : Json) : Option (GoValue floats) :=
  match h : anyValue floats v with
  | some json => some ⟨json, anyValue_of_anyValue h⟩
  | none => none

def decodeAny (floats : Float64Text) : Decoder (GoValue floats)
  | _, document => toGoValue floats document.value

/-- A `json.RawMessage` takes any document, null too. -/
def decodeRaw : Decoder (Option RawJson)
  | _, document => some (some document)

def decodePointer (decode : Decoder α) (zero : α) : Decoder (Option α)
  | _, .null => some none
  | old, document => (decode (old.getD zero) document).map some

def decodeItems (decode : Decoder α) (zero : α) : List α → List RawJson → Option (List α)
  | _, [] => some []
  | old, item :: items =>
    match decode (old.headD zero) item, decodeItems decode zero old.tail items with
    | some value, some values => some (value :: values)
    | _, _ => none

def decodeSlice (decode : Decoder α) (zero : α) : Decoder (List α)
  | _, .null => some []
  | old, .arr items => decodeItems decode zero old items
  | _, _ => none

def decodeEntries (decode : Decoder α) (zero : α) :
    KeyMap α → List (Literal × RawJson) → Option (KeyMap α)
  | m, [] => some m
  | m, (key, document) :: fields =>
    match decode zero document with
    | some value => decodeEntries decode zero (m.insert key.text value) fields
    | none => none

def decodeMap (decode : Decoder α) (zero : α) : Decoder (KeyMap α)
  | _, .null => some .empty
  | old, .obj fields => decodeEntries decode zero old fields
  | _, _ => none

end Decoders

section ReadBack

variable {α : Type} {names : List String} {floats : Float64Text} (m : KeyMap α)

def readBack (decode : Decoder α) (old : α) : Option Json → Option α
  | none => some old
  | some v => decode old (.ofJson v.canonical)

def writtenFields (fields : List (String × Option Json)) : List (Literal × RawJson) :=
  RawJson.ofFields (sortFields (Json.canonicalFields (presentFields fields)))

theorem ofJson_canonical_object (fields : List (String × Option Json)) :
    RawJson.ofJson (object fields).canonical = .obj (writtenFields fields) := rfl

private theorem keys_presentFields_sublist (fields : List (String × Option Json)) :
    ((presentFields fields).map Prod.fst).Sublist (fields.map Prod.fst) := by
  induction fields with
  | nil => exact List.Sublist.slnil
  | cons field fields ih =>
    obtain ⟨key, _ | value⟩ := field
    · exact ih.cons key
    · exact ih.cons_cons key

private theorem lookup_presentFields {fields : List (String × Option Json)}
    (h : (fields.map Prod.fst).Nodup) (name : String) :
    (presentFields fields).lookup name = (fields.lookup name).join := by
  induction fields with
  | nil => rfl
  | cons field fields ih =>
    rw [List.map_cons, List.nodup_cons] at h
    obtain ⟨k, _ | value⟩ := field
    · rw [presentFields, lookup_field_cons, ih h.2]
      by_cases heq : name = k
      · rw [if_pos heq, lookup_eq_none_of_not_mem (heq ▸ h.1)]
        rfl
      · rw [if_neg heq]
    · rw [presentFields, lookup_field_cons, lookup_field_cons, ih h.2]
      split <;> rfl

private theorem keys_canonicalFields (fields : List (String × Json)) :
    (Json.canonicalFields fields).map Prod.fst = fields.map Prod.fst := by
  rw [Json.canonicalFields_eq, List.map_map]
  rfl

private theorem lookup_canonicalFields (fields : List (String × Json)) (name : String) :
    (Json.canonicalFields fields).lookup name = (fields.lookup name).map Json.canonical := by
  rw [Json.canonicalFields_eq]
  induction fields with
  | nil => rfl
  | cons field fields ih =>
    rw [List.map_cons, Prod.map, id_eq, lookup_field_cons, lookup_field_cons, ih]
    split <;> rfl

private theorem entriesFor_ofFields {fields : List (String × Json)}
    (hknown : ∀ key ∈ fields.map Prod.fst, key ∈ names) (hnodup : (fields.map Prod.fst).Nodup)
    (name : String) : entriesFor names name (RawJson.ofFields fields) =
      ((fields.lookup name).map RawJson.ofJson).toList := by
  induction fields with
  | nil => rfl
  | cons field fields ih =>
    obtain ⟨k, v⟩ := field
    rw [List.map_cons, List.nodup_cons] at hnodup
    have hfor : fieldFor names k = some k := if_pos (hknown k (by simp))
    have hrest := ih (fun key hkey => hknown key (.tail _ hkey)) hnodup.2
    rw [RawJson.ofFields, RawJson.ofField, entriesFor, Literal.text_encode, hfor, hrest,
      lookup_field_cons]
    by_cases heq : name = k
    · rw [if_pos (by rw [heq]), if_pos heq, lookup_eq_none_of_not_mem (heq ▸ hnodup.1)]
      rfl
    · rw [if_neg fun hk => heq (Option.some.inj hk).symm, if_neg heq]

variable {fields : List (String × Option Json)}

theorem decodeField_writtenFields (hnames : fields.map Prod.fst = names) (hnodup : names.Nodup)
    (name : String) (decode : Decoder α) (old : α) :
    decodeField names (writtenFields fields) name decode old =
      readBack decode old (fields.lookup name).join := by
  subst hnames
  have hkeys := keys_canonicalFields (presentFields fields)
  have hpresent := keys_presentFields_sublist fields
  rw [decodeField, writtenFields, entriesFor_ofFields]
  · rw [lookup_sortFields name (hkeys.symm ▸ hnodup.sublist hpresent), lookup_canonicalFields,
      lookup_presentFields hnodup]
    cases (fields.lookup name).join with
    | none => rfl
    | some v => exact bind_pure _
  · intro key hkey
    obtain ⟨field, hfield, rfl⟩ := List.mem_map.mp hkey
    have hmem := List.mem_map_of_mem (mem_of_mem_sortFields hfield) (f := Prod.fst)
    rw [hkeys] at hmem
    exact hpresent.subset hmem
  · exact (ascending_sortFields _).nodup

theorem decodeStruct_object (hnames : fields.map Prod.fst = names) (hnodup : names.Nodup)
    (old : α) (body : ({β : Type} → String → Decoder β → β → Option β) → Option α) :
    decodeStruct names old body (.ofJson (object fields).canonical) =
      body fun name decode old => readBack decode old (fields.lookup name).join := by
  have hfield : (@fun β : Type => @decodeField β names (writtenFields fields)) =
      @fun β : Type => fun name decode old =>
        readBack decode old (fields.lookup name).join := by
    funext β name decode old
    exact decodeField_writtenFields hnames hnodup name decode old
  exact congrArg (fun field : (β : Type) → String → Decoder β → β → Option β =>
    body (field _)) hfield

theorem readBack_object {decode : Decoder α} {old x : α}
    {body : ({β : Type} → String → Decoder β → β → Option β) → Option α}
    (hdecode : decode old = decodeStruct names old body) (hnames : fields.map Prod.fst = names)
    (hnodup : names.Nodup)
    (hbody : body (fun name decode old => readBack decode old (fields.lookup name).join) = some x) :
    readBack decode old (some (object fields)) = some x := by
  rw [readBack, hdecode, decodeStruct_object hnames hnodup, hbody]

@[simp] theorem readBack_none (decode : Decoder α) (old : α) :
    readBack decode old none = some old := rfl

@[simp] theorem readBack_string (old s : String) :
    readBack decodeString old (some (.str s)) = some s := by
  simp [readBack, Json.canonical, RawJson.ofJson, decodeString]

theorem parseInt_intLit (n : Int64) : parseInt (intLit n.toInt) = some n := by
  have hlow := n.le_toInt
  have hhigh := n.toInt_lt
  simp only [parseInt, intLit, signedDecimalValue_signedDecimal, Option.bind_some]
  rw [if_pos ⟨hlow, hhigh⟩, Int64.ofInt_toInt]

@[simp] theorem readBack_int (old n : Int64) :
    readBack decodeInt old (some (.num (intLit n.toInt))) = some n := parseInt_intLit n

@[simp] theorem readBack_float64 (old x : Float64 floats) :
    readBack (decodeFloat64 floats) old (some (.num x.literal)) = some x := by
  change toFloat64 floats x.literal = some x
  unfold toFloat64
  split
  next h =>
    cases x.nearest.symm.trans h
    rfl
  next h => cases x.nearest.symm.trans h

@[simp] theorem readBack_any (old v : GoValue floats) :
    readBack (decodeAny floats) old (some v.json) = some v := by
  rw [readBack, decodeAny, RawJson.value_ofJson, canonical_of_decoded v.decoded]
  unfold toGoValue
  split
  next h =>
    cases v.decoded.symm.trans h
    rfl
  next h => cases v.decoded.symm.trans h

variable {decode : Decoder α} {zero : α} {encode : α → Json}

theorem readBack_pointer {fields : α → List (String × Option Json)} (x : Option α)
    (hread : ∀ a, readBack decode zero (some (object (fields a))) = some a) :
    readBack (decodePointer decode zero) none (x.map fun a => object (fields a)) = some x := by
  cases x with
  | none => rfl
  | some a =>
    have ha := hread a
    rw [readBack, ofJson_canonical_object] at ha
    rw [Option.map_some, readBack, ofJson_canonical_object]
    change (decode zero _).map some = _
    rw [ha]
    rfl

theorem readBack_slice {f : α → α} (xs : List α)
    (hread : ∀ x ∈ xs, readBack decode zero (some (encode x)) = some (f x)) :
    readBack (decodeSlice decode zero) [] (some (.arr (xs.map encode))) = some (xs.map f) := by
  rw [readBack, Json.canonical, RawJson.ofJson, decodeSlice]
  induction xs with
  | nil => rfl
  | cons x xs ih =>
    have hx : decode zero (.ofJson (encode x).canonical) = some (f x) := hread x (by simp)
    have hxs := ih fun x hmem => hread x (.tail _ hmem)
    rw [List.map_cons, Json.canonicalItems, RawJson.ofItems, decodeItems]
    simp only [List.headD_nil, List.tail_nil, hx, hxs, List.map_cons]

private theorem decodeEntries_ofFields (entries : List (String × α)) (m : KeyMap α)
    (hascending : Ascending (m.entries ++ entries))
    (hread : ∀ entry ∈ entries, readBack decode zero (some (encode entry.2)) = some entry.2) :
    decodeEntries decode zero m
        (RawJson.ofFields (Json.canonicalFields (entries.map (Prod.map id encode)))) =
      some ⟨m.entries ++ entries, hascending⟩ := by
  induction entries generalizing m with
  | nil => simp [RawJson.ofFields, Json.canonicalFields, decodeEntries]
  | cons entry entries ih =>
    obtain ⟨key, value⟩ := entry
    have hvalue : decode zero (.ofJson (encode value).canonical) = some value :=
      hread (key, value) (by simp)
    have hgreater : ∀ name ∈ m.entries.map Prod.fst, name < key := by
      intro name hname
      rw [Ascending, List.map_append] at hascending
      exact (List.pairwise_append.mp hascending).2.2 name hname key (by simp)
    have hinsert : (m.insert key value).entries = m.entries ++ [(key, value)] :=
      insertField_of_greater hgreater
    have hmore : Ascending ((m.insert key value).entries ++ entries) := by
      rw [hinsert, List.append_assoc]
      exact hascending
    have hrest := ih (m.insert key value) hmore fun entry hmem => hread entry (.tail _ hmem)
    simp only [List.map_cons, Prod.map, id_eq, Json.canonicalFields, Json.canonicalField,
      RawJson.ofFields, RawJson.ofField, decodeEntries, Literal.text_encode, hvalue]
    rw [hrest]
    simp [hinsert]

theorem readBack_map
    (hread : ∀ entry ∈ m.entries, readBack decode zero (some (encode entry.2)) = some entry.2) :
    readBack (decodeMap decode zero) .empty
      (some (.obj (m.entries.map (Prod.map id encode)))) = some m := by
  have hentries := decodeEntries_ofFields m.entries .empty m.ascending hread
  have hkeys : Ascending (Json.canonicalFields (m.entries.map (Prod.map id encode))) := by
    rw [Ascending, keys_canonicalFields, List.map_map]
    exact m.ascending
  rw [readBack, Json.canonical, RawJson.ofJson, decodeMap, sortFields_of_ascending hkeys, hentries]
  rfl

end ReadBack

end DataPipe.Foundation
