import DataPipe.Foundation.Joined
import DataPipe.Foundation.Unmarshal

/-!
# Compact JSON

What `json.Marshal` writes: the tokens of a document without white space, the characters that
matter in HTML escaped.  A compact text reads back as the document and can be told apart from
what follows it, unless that starts a token.  Decoding a document into an `any` and encoding it
again gives the same text exactly for the documents in canonical form whose numbers are kept.
-/

namespace DataPipe.Foundation

namespace RawJson

open Piece (tokens Separated)

mutual

def htmlEscaped : RawJson → RawJson
  | .null => .null
  | .bool value => .bool value
  | .num literal => .num literal
  | .str literal => .str literal.htmlEscape
  | .arr items => .arr (htmlEscapedItems items)
  | .obj fields => .obj (htmlEscapedFields fields)

def htmlEscapedItems : List RawJson → List RawJson
  | [] => []
  | item :: items => htmlEscaped item :: htmlEscapedItems items

def htmlEscapedField : Literal × RawJson → Literal × RawJson
  | (key, value) => (key.htmlEscape, htmlEscaped value)

def htmlEscapedFields : List (Literal × RawJson) → List (Literal × RawJson)
  | [] => []
  | field :: fields => htmlEscapedField field :: htmlEscapedFields fields

end

def compactText (document : RawJson) : List Char :=
  (tokens (pieces 0 document.htmlEscaped)).flatMap JsonToken.chars

mutual

variable {f g : Literal → String}

theorem translate_htmlEscaped (hfg : ∀ l, f l.htmlEscape = g l) (document : RawJson) :
    translate f document.htmlEscaped = translate g document := by
  cases document with
  | str literal => rw [htmlEscaped, translate, translate, hfg]
  | arr items => rw [htmlEscaped, translate, translate, translateItems_htmlEscaped hfg items]
  | obj fields => rw [htmlEscaped, translate, translate, translateFields_htmlEscaped hfg fields]
  | _ => rfl

theorem translateItems_htmlEscaped (hfg : ∀ l, f l.htmlEscape = g l) (items : List RawJson) :
    translateItems f (htmlEscapedItems items) = translateItems g items := by
  cases items with
  | nil => rfl
  | cons item items =>
    rw [htmlEscapedItems, translateItems, translateItems, translate_htmlEscaped hfg item,
      translateItems_htmlEscaped hfg items]

theorem translateFields_htmlEscaped (hfg : ∀ l, f l.htmlEscape = g l)
    (fields : List (Literal × RawJson)) :
    translateFields f (htmlEscapedFields fields) = translateFields g fields := by
  match fields with
  | [] => rfl
  | (key, value) :: fields =>
    rw [htmlEscapedFields, translateFields, translateFields, htmlEscapedField, translateField,
      translateField, hfg, translate_htmlEscaped hfg value,
      translateFields_htmlEscaped hfg fields]

end

theorem value_htmlEscaped (document : RawJson) : document.htmlEscaped.value = document.value :=
  translate_htmlEscaped Literal.text_htmlEscape document

mutual

variable {f : Literal → String}

theorem eq_of_translate (hf : Function.Injective f) {first second : RawJson}
    (h : translate f first = translate f second) : first = second := by
  match first, second with
  | .null, .null => rfl
  | .bool a, .bool b =>
    simp only [translate, Json.bool.injEq] at h
    rw [h]
  | .num a, .num b =>
    simp only [translate, Json.num.injEq] at h
    rw [h]
  | .str a, .str b =>
    simp only [translate, Json.str.injEq] at h
    rw [hf h]
  | .arr a, .arr b =>
    simp only [translate, Json.arr.injEq] at h
    rw [eq_of_translateItems hf h]
  | .obj a, .obj b =>
    simp only [translate, Json.obj.injEq] at h
    rw [eq_of_translateFields hf h]

theorem eq_of_translateItems (hf : Function.Injective f) {first second : List RawJson}
    (h : translateItems f first = translateItems f second) : first = second := by
  match first, second with
  | [], [] => rfl
  | a :: first, b :: second =>
    simp only [translateItems, List.cons.injEq] at h
    rw [eq_of_translate hf h.1, eq_of_translateItems hf h.2]

theorem eq_of_translateFields (hf : Function.Injective f) {first second : List (Literal × RawJson)}
    (h : translateFields f first = translateFields f second) : first = second := by
  match first, second with
  | [], [] => rfl
  | (key, a) :: first, (key', b) :: second =>
    simp only [translateFields, translateField, List.cons.injEq, Prod.mk.injEq] at h
    rw [hf h.1.1, eq_of_translate hf h.1.2, eq_of_translateFields hf h.2]

end

variable {floats : Float64Text} {first second : RawJson}

theorem htmlEscaped_eq_iff :
    first.htmlEscaped = second.htmlEscaped ↔ first.asWritten = second.asWritten := by
  have hspelled : ∀ document : RawJson,
      translate (fun l => String.ofList l.chars) document.htmlEscaped = document.asWritten :=
    fun document => translate_htmlEscaped (fun _ => rfl) document
  constructor
  · intro h
    rw [← hspelled, ← hspelled, h]
  · intro h
    rw [← hspelled, ← hspelled] at h
    refine eq_of_translate ?_ h
    exact fun a b hab => Literal.chars_injective (String.ofList_injective hab)

theorem compactText_eq (document : RawJson) :
    document.compactText =
      Piece.text ((tokens (pieces 0 document.htmlEscaped)).map .token) := by
  rw [compactText, Piece.text, List.flatMap_map]
  rfl

theorem tokens_map_token (ts : List JsonToken) : tokens (ts.map .token) = ts := by
  induction ts with
  | nil => rfl
  | cons t ts ih => rw [List.map_cons, tokens, ih]

theorem read_compactText (document : RawJson) :
    read document.compactText = some document.htmlEscaped := by
  have hlength := length_tokens_le ((tokens (pieces 0 document.htmlEscaped)).map .token)
  have hlex := Piece.readAll_text _ (separated_compact document.htmlEscaped) _ hlength
  have hvalue := readValue_pieces document.htmlEscaped 0 _ [] (Nat.le_refl _)
  rw [List.append_nil] at hvalue
  rw [tokens_map_token, ← compactText_eq] at hlex
  rw [read, hlex]
  simp only [hvalue]

theorem compactText_eq_iff :
    first.compactText = second.compactText ↔ first.asWritten = second.asWritten := by
  rw [← htmlEscaped_eq_iff]
  constructor
  · intro h
    have hread := read_compactText first
    rw [h, read_compactText] at hread
    exact (Option.some.inj hread).symm
  · intro h
    rw [compactText, h, compactText]

theorem readAll_bar (fuel : Nat) (text : List Char) :
    JsonToken.readAll fuel ('|' :: text) = none := by
  cases fuel with
  | zero | succ => rfl

theorem read_compactText_bar (document : RawJson) (text : List Char) :
    read (document.compactText ++ '|' :: text) = none := by
  have hsep := separated_compact document.htmlEscaped
  have hlength := length_tokens_le ((tokens (pieces 0 document.htmlEscaped)).map .token)
  rw [← compactText_eq] at hlength
  have hle : (tokens ((tokens (pieces 0 document.htmlEscaped)).map .token)).length ≤
      (document.compactText ++ '|' :: text).length := by
    rw [List.length_append]
    omega
  obtain ⟨more, hmore⟩ := Nat.exists_eq_add_of_le hle
  have hdelim : Json.Delimited ('|' :: text) := Json.delimited_cons (by decide) text
  have hlex := Piece.readAll_text_append _ hsep hdelim more
  rw [← hmore, ← compactText_eq, readAll_bar, Option.map_none] at hlex
  rw [read, hlex]

theorem compactText_append_bar_inj {a b : List Char}
    (h : first.compactText ++ '|' :: a = second.compactText ++ '|' :: b) :
    first.compactText = second.compactText ∧ a = b := by
  have hruns : ∀ {first second : RawJson} {a : List Char},
      ¬ RunsOn first.compactText ('|' :: a) second.compactText := by
    rintro first second a ⟨⟨rest, hrest⟩, hne, hstart⟩
    rw [← hrest, List.drop_left] at hstart
    cases rest with
    | nil => exact hne (by rw [← hrest, List.append_nil])
    | cons c rest =>
      obtain ⟨more, hmore⟩ := hstart
      obtain rfl : c = '|' := (List.cons.inj hmore).1
      have hread := read_compactText second
      rw [← hrest, read_compactText_bar] at hread
      contradiction
  obtain ⟨hfirst, htail⟩ := eq_of_append_eq hruns hruns h
  exact ⟨hfirst, (List.cons.inj htail).2⟩

/-- The document of what `any` holds after decoding a text, if it can be decoded. -/
def decoded (floats : Float64Text) (text : List Char) : Option Json :=
  (read text).bind fun document => anyValue floats document.value

theorem decoded_compactText (floats : Float64Text) (document : RawJson) :
    decoded floats document.compactText = anyValue floats document.value := by
  rw [decoded, read_compactText, Option.bind_some, value_htmlEscaped]

structure Survives (floats : Float64Text) (document : RawJson) : Prop where
  decoded : anyValue floats document.value = some document.value
  canonical : document.IsCanonical

theorem compactText_ofJson_decoded_iff {document : RawJson} {v : Json}
    (hv : anyValue floats document.value = some v) :
    (ofJson v).compactText = document.compactText ↔ document.Survives floats := by
  rw [compactText_eq_iff]
  constructor
  · intro h
    have hvalue : v = document.value := by
      have hescaped := congrArg value (htmlEscaped_eq_iff.mpr h)
      rwa [value_htmlEscaped, value_htmlEscaped, value_ofJson] at hescaped
    subst hvalue
    refine ⟨hv, (asWritten_eq_canonical_iff document).mp ?_⟩
    rw [canonical_of_decoded hv, h]
  · intro h
    have hwritten := (asWritten_eq_canonical_iff document).mpr h.canonical
    rw [canonical_of_decoded h.decoded] at hwritten
    rw [hwritten, Option.mem_unique hv h.decoded]

theorem survives_arr_iff {items : List RawJson} :
    (RawJson.arr items).Survives floats ↔ ∀ item ∈ items, item.Survives floats := by
  have hdecoded : anyValue floats (RawJson.arr items).value = some (RawJson.arr items).value ↔
      ∀ item ∈ items, anyValue floats item.value = some item.value := by
    rw [value, translate, anyValue, translateItems_eq, Option.map_eq_some_iff]
    simp only [Json.arr.injEq, exists_eq_right, anyItems_eq_self_iff, List.forall_mem_map]
  constructor
  · intro h item hitem
    exact ⟨hdecoded.mp h.decoded item hitem, itemsCanonical_iff.mp h.canonical item hitem⟩
  · intro h
    exact ⟨hdecoded.mpr fun item hitem => (h item hitem).decoded,
      itemsCanonical_iff.mpr fun item hitem => (h item hitem).canonical⟩

theorem survives_obj_iff {fields : List (String × RawJson)} :
    (RawJson.obj (fields.map (Prod.map Literal.encode id))).Survives floats ↔
      Ascending fields ∧ ∀ field ∈ fields, field.2.Survives floats := by
  have hvalue : (RawJson.obj (fields.map (Prod.map Literal.encode id))).value =
      .obj (fields.map (Prod.map id value)) := by
    rw [value, translate, translateFields_eq, List.map_map]
    congr 1
    apply List.map_congr_left
    rintro ⟨key, document⟩ _
    exact congrArg (·, document.value) (Literal.text_encode key)
  have hkeys : (fields.map (Prod.map Literal.encode id)).map (fun field => field.1.text) =
      fields.map Prod.fst := by
    rw [List.map_map]
    exact List.map_congr_left fun field _ => Literal.text_encode field.1
  have hascending : Ascending (fields.map (Prod.map id value)) ↔ Ascending fields := by
    rw [Ascending, List.map_map]
    rfl
  constructor
  · intro h
    have hdecoded := h.decoded
    rw [hvalue, anyValue_obj_eq_self_iff, hascending, List.forall_mem_map] at hdecoded
    have hcanonical := fieldsCanonical_iff.mp h.canonical.2
    rw [List.forall_mem_map] at hcanonical
    exact ⟨hdecoded.1, fun field hfield => ⟨hdecoded.2 field hfield, (hcanonical field hfield).2⟩⟩
  · rintro ⟨hsorted, h⟩
    refine ⟨?_, ?_, fieldsCanonical_iff.mpr ?_⟩
    · rw [hvalue, anyValue_obj_eq_self_iff, hascending, List.forall_mem_map]
      exact ⟨hsorted, fun field hfield => (h field hfield).decoded⟩
    · rw [hkeys]
      exact hsorted
    · rw [List.forall_mem_map]
      exact fun field hfield => ⟨Literal.isCanonical_encode _, (h field hfield).canonical⟩

theorem survives_num_iff {literal : NumLit} :
    (RawJson.num literal).Survives floats ↔ floats.nearest literal = some literal := by
  constructor
  · intro h
    have hdecoded := h.decoded
    rw [value, translate, anyValue, Option.map_eq_some_iff] at hdecoded
    obtain ⟨_, hnearest, heq⟩ := hdecoded
    rwa [Json.num.inj heq] at hnearest
  · intro h
    refine ⟨?_, trivial⟩
    rw [value, translate, anyValue, h, Option.map_some]

end RawJson

end DataPipe.Foundation
