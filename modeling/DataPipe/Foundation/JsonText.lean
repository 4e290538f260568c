import DataPipe.Foundation.Json
import Mathlib.Data.List.Forall2

/-!
# JSON documents as they are written

A document up to its white space: the strings in it stand as they are written, which is what
`json.RawMessage` keeps of a value.  Reading goes through tokens, so that white space is dealt
with once, and a document that is printed with indentation reads back as itself.
-/

namespace DataPipe.Foundation

/-! ## String literals -/

def isPlain (c : Char) : Bool := !(c = '"' || c = '\\' || decide (c.toNat < 0x20))

inductive LitElem where
  | plain (c : Char) (valid : isPlain c = true)
  | short (letter : Char) (valid : (unescapeShort letter).isSome = true)
  | unicode (a b c d : Char) (valid : (hex4Value a b c d).isSome = true)
  deriving DecidableEq

abbrev Literal := List LitElem

namespace LitElem

def chars : LitElem → List Char
  | .plain c _ => [c]
  | .short letter _ => ['\\', letter]
  | .unicode a b c d _ => ['\\', 'u', a, b, c, d]

def unit : LitElem → StringUnit
  | .plain c _ => .char c
  | .short letter valid => .char ((unescapeShort letter).get valid)
  | .unicode a b c d valid => .unit ((hex4Value a b c d).get valid)

/-- A character written as `\uXXXX`. -/
def escaped (c : Char) : LitElem :=
  .unicode (Nat.digitChar (c.toNat / 4096 % 16)) (Nat.digitChar (c.toNat / 256 % 16))
    (Nat.digitChar (c.toNat / 16 % 16)) (Nat.digitChar (c.toNat % 16)) (by
      simp [hex4Value, hexValue_digitChar (Nat.mod_lt _ (by decide : 0 < 16))])

/-- The line separators, which the encoder escapes although they may stand for themselves. -/
def isLineSeparator (c : Char) : Bool := c.toNat = 0x2028 || c.toNat = 0x2029

/-- The encoder with `SetEscapeHTML(false)`. -/
def encode (c : Char) : LitElem :=
  match c with
  | '"' => .short '"' rfl
  | '\\' => .short '\\' rfl
  | '\x08' => .short 'b' rfl
  | '\x0c' => .short 'f' rfl
  | '\n' => .short 'n' rfl
  | '\r' => .short 'r' rfl
  | '\t' => .short 't' rfl
  | c =>
    if hplain : isPlain c = true then
      if isLineSeparator c then escaped c else .plain c hplain
    else escaped c

/-- What `compact` with HTML escaping makes of it. -/
def htmlEscape : LitElem → LitElem
  | .plain c valid =>
    if c = '<' || c = '>' || c = '&' || isLineSeparator c then escaped c
    else .plain c valid
  | e => e

end LitElem

variable {c : Char}

namespace Literal

def chars (l : Literal) : List Char := l.flatMap LitElem.chars

def text (l : Literal) : String := String.ofList (decodeUnits (l.map LitElem.unit))

def encode (s : String) : Literal := s.toList.map LitElem.encode

def htmlEscape (l : Literal) : Literal := l.map LitElem.htmlEscape

def read : List Char → Option (Literal × List Char)
  | [] => none
  | c :: text =>
    if c = '"' then some ([], text)
    else if c = '\\' then
      match text with
      | [] => none
      | letter :: text =>
        if letter = 'u' then
          match text with
          | a :: b :: c :: d :: text =>
            if valid : (hex4Value a b c d).isSome = true then
              (read text).map fun (l, rest) => (.unicode a b c d valid :: l, rest)
            else none
          | _ => none
        else if valid : (unescapeShort letter).isSome = true then
          (read text).map fun (l, rest) => (.short letter valid :: l, rest)
        else none
    else if valid : isPlain c = true then
      (read text).map fun (l, rest) => (.plain c valid :: l, rest)
    else none

variable (e : LitElem)

theorem read_elem (text : List Char) :
    read (e.chars ++ text) = (read text).map fun (l, rest) => (e :: l, rest) := by
  cases e with
  | plain c valid =>
    have hquote : c ≠ '"' := by
      rintro rfl
      exact absurd valid (by decide)
    have hslash : c ≠ '\\' := by
      rintro rfl
      exact absurd valid (by decide)
    rw [LitElem.chars, List.singleton_append, read.eq_def]
    dsimp only
    rw [if_neg hquote, if_neg hslash, dif_pos valid]
  | short letter valid =>
    have hletter : letter ≠ 'u' := by
      rintro rfl
      exact absurd valid (by decide)
    rw [LitElem.chars, List.cons_append, List.singleton_append, read.eq_def]
    dsimp only
    rw [if_neg (by decide), if_pos rfl, if_neg hletter, dif_pos valid]
  | unicode a b c d valid =>
    simp only [LitElem.chars, List.cons_append, List.nil_append]
    rw [read.eq_def]
    dsimp only
    rw [if_neg (by decide), if_pos rfl, if_pos rfl, dif_pos valid]

theorem read_chars (l : Literal) (rest : List Char) :
    read (l.chars ++ '"' :: rest) = some (l, rest) := by
  induction l with
  | nil =>
    rw [read.eq_def]
    rfl
  | cons e l ih =>
    rw [chars, List.flatMap_cons, List.append_assoc, read_elem]
    rw [chars] at ih
    rw [ih]
    rfl

theorem chars_injective : Function.Injective chars := by
  intro l m h
  have hread := read_chars l []
  rw [h, read_chars] at hread
  simpa using hread.symm

/-! ### What literals denote -/

def SameUnit (u v : StringUnit) : Prop :=
  v = u ∨ ∃ c : Char, u = .char c ∧ v = .unit c.toNat ∧ c.toNat < 0x2030

private theorem sameUnit_unit {code : Nat} {v : StringUnit} (h : SameUnit (.unit code) v) :
    v = .unit code := by
  obtain rfl | ⟨c, hc, -⟩ := h
  · rfl
  · cases hc

private theorem decodeUnits_lone {code : Nat} {vs : List StringUnit}
    (h : ∀ low rest, vs = .unit low :: rest → isLowSurrogate low = false) :
    decodeUnits (.unit code :: vs) = unitChar code :: decodeUnits vs := by
  cases vs with
  | nil => rfl
  | cons v vs =>
    cases v with
    | char c => rfl
    | unit low => simp [decodeUnits, h low vs rfl]

theorem decodeUnits_of_sameUnit {us vs : List StringUnit}
    (h : List.Forall₂ SameUnit us vs) : decodeUnits vs = decodeUnits us := by
  induction us using decodeUnits.induct generalizing vs with
  | case1 =>
    cases h
    rfl
  | case2 c us ih =>
    obtain _ | ⟨rfl | ⟨d, hd, rfl, hlt⟩, hrest⟩ := h
    · rw [decodeUnits, decodeUnits, ih hrest]
    · cases hd
      rw [decodeUnits_unit (not_surrogate hlt).1, decodeUnits, ih hrest, unitChar_toNat hlt]
  | case3 high low us hpair ih =>
    obtain _ | ⟨hhigh, _ | ⟨hlow, hrest⟩⟩ := h
    cases sameUnit_unit hhigh
    cases sameUnit_unit hlow
    rw [decodeUnits, decodeUnits, if_pos hpair, if_pos hpair, ih hrest]
  | case4 high low us hpair ih =>
    obtain _ | ⟨hhigh, hrest⟩ := h
    have hunits := ih hrest
    obtain _ | ⟨hlow, -⟩ := hrest
    cases sameUnit_unit hhigh
    cases sameUnit_unit hlow
    rw [decodeUnits, decodeUnits, if_neg hpair, if_neg hpair, hunits]
  | case5 code us hne ih =>
    obtain _ | ⟨hcode, hrest⟩ := h
    cases sameUnit_unit hcode
    rw [decodeUnits_lone, decodeUnits_lone, ih hrest]
    · exact fun low rest heq => absurd heq (hne low rest)
    · rintro low rest rfl
      obtain _ | ⟨rfl | ⟨c, rfl, hlow, hlt⟩, -⟩ := hrest
      · exact absurd rfl (hne low _)
      · cases hlow
        exact (not_surrogate hlt).2

private theorem decodeUnits_map_char (text : List Char) : decodeUnits (text.map .char) = text := by
  induction text with
  | nil => rfl
  | cons c text ih => rw [List.map_cons, decodeUnits, ih]

private theorem unit_escaped (h : c.toNat < 0x2030) : (LitElem.escaped c).unit = .unit c.toNat := by
  have hcode := @hex4Value_hex4 c.toNat (by omega)
  simp only [LitElem.escaped, LitElem.unit, hcode, Option.get_some]

private theorem lt_of_isLineSeparator (h : LitElem.isLineSeparator c = true) :
    c.toNat < 0x2030 := by
  simp only [LitElem.isLineSeparator, Bool.or_eq_true, decide_eq_true_eq] at h
  omega

theorem sameUnit_encode (c : Char) : SameUnit (.char c) (LitElem.encode c).unit := by
  unfold LitElem.encode
  split
  case h_8 hquote hslash _ _ _ _ _ =>
    split
    · split
      next hsep =>
        have hlt := lt_of_isLineSeparator hsep
        exact .inr ⟨c, rfl, unit_escaped hlt, hlt⟩
      · exact .inl rfl
    next hplain =>
      have hcontrol : ¬ c = '"' → ¬ c = '\\' → c.toNat < 0x20 := by simpa [isPlain] using hplain
      have hlt := hcontrol hquote hslash
      exact .inr ⟨c, rfl, unit_escaped (by omega), by omega⟩
  all_goals exact .inl rfl

theorem sameUnit_htmlEscape : SameUnit e.unit e.htmlEscape.unit := by
  cases e with
  | plain c valid =>
    rw [LitElem.htmlEscape]
    split
    next hescape =>
      have hlt : c.toNat < 0x2030 := by
        simp only [Bool.or_eq_true, decide_eq_true_eq] at hescape
        rcases hescape with ((rfl | rfl) | rfl) | hsep
        · decide
        · decide
        · decide
        · exact lt_of_isLineSeparator hsep
      exact .inr ⟨c, rfl, unit_escaped hlt, hlt⟩
    · exact .inl rfl
  | short | unicode => exact .inl rfl

@[simp] theorem text_encode (s : String) : text (encode s) = s := by
  have hsame : List.Forall₂ SameUnit (s.toList.map .char) ((encode s).map LitElem.unit) := by
    simp only [encode, List.forall₂_map_left_iff, List.forall₂_map_right_iff]
    exact List.forall₂_same.mpr fun c _ => sameUnit_encode c
  rw [text, decodeUnits_of_sameUnit hsame, decodeUnits_map_char, String.ofList_toList]

@[simp] theorem text_htmlEscape (l : Literal) : text (htmlEscape l) = text l := by
  have hsame : List.Forall₂ SameUnit (l.map LitElem.unit) ((htmlEscape l).map LitElem.unit) := by
    simp only [htmlEscape, List.forall₂_map_left_iff, List.forall₂_map_right_iff]
    exact List.forall₂_same.mpr fun e _ => sameUnit_htmlEscape e
  rw [text, decodeUnits_of_sameUnit hsame, text]

end Literal

/-! ## Documents -/

inductive RawJson where
  | null
  | bool (value : Bool)
  | num (literal : NumLit)
  | str (literal : Literal)
  | arr (items : List RawJson)
  | obj (fields : List (Literal × RawJson))

namespace RawJson

mutual

/-- The value of a document whose strings are read by `f`. -/
def translate (f : Literal → String) : RawJson → Json
  | .null => .null
  | .bool value => .bool value
  | .num literal => .num literal
  | .str literal => .str (f literal)
  | .arr items => .arr (translateItems f items)
  | .obj fields => .obj (translateFields f fields)

def translateItems (f : Literal → String) : List RawJson → List Json
  | [] => []
  | item :: items => translate f item :: translateItems f items

def translateField (f : Literal → String) : Literal × RawJson → String × Json
  | (key, value) => (f key, translate f value)

def translateFields (f : Literal → String) : List (Literal × RawJson) → List (String × Json)
  | [] => []
  | field :: fields => translateField f field :: translateFields f fields

end

def value : RawJson → Json := translate Literal.text

/-- A literal as `compact` writes it. -/
def spelled (l : Literal) : String := String.ofList l.htmlEscape.chars

def asWritten : RawJson → Json := translate spelled

mutual

def ofJson : Json → RawJson
  | .null => .null
  | .bool value => .bool value
  | .num literal => .num literal
  | .str text => .str (Literal.encode text)
  | .arr items => .arr (ofItems items)
  | .obj fields => .obj (ofFields fields)

def ofItems : List Json → List RawJson
  | [] => []
  | item :: items => ofJson item :: ofItems items

def ofField : String × Json → Literal × RawJson
  | (key, value) => (Literal.encode key, ofJson value)

def ofFields : List (String × Json) → List (Literal × RawJson)
  | [] => []
  | field :: fields => ofField field :: ofFields fields

end

variable (f : Literal → String)

theorem translateItems_eq (items : List RawJson) :
    translateItems f items = items.map (translate f) := by
  induction items with
  | nil => rfl
  | cons item items ih => rw [translateItems, ih, List.map_cons]

theorem translateFields_eq (fields : List (Literal × RawJson)) :
    translateFields f fields = fields.map (translateField f) := by
  induction fields with
  | nil => rfl
  | cons field fields ih => rw [translateFields, ih, List.map_cons]

mutual

@[simp] theorem value_ofJson (v : Json) : (ofJson v).value = v := by
  cases v with
  | null | bool | num => rfl
  | str text => simp [ofJson, value, translate]
  | arr items => rw [ofJson, value, translate, translateItems_ofItems]
  | obj fields => rw [ofJson, value, translate, translateFields_ofFields]

theorem translateItems_ofItems (items : List Json) :
    translateItems Literal.text (ofItems items) = items := by
  cases items with
  | nil => rfl
  | cons item items =>
    rw [ofItems, translateItems, ← value, value_ofJson item, translateItems_ofItems items]

theorem translateField_ofField (field : String × Json) :
    translateField Literal.text (ofField field) = field := by
  obtain ⟨key, v⟩ := field
  rw [ofField, translateField, Literal.text_encode, ← value, value_ofJson v]

theorem translateFields_ofFields (fields : List (String × Json)) :
    translateFields Literal.text (ofFields fields) = fields := by
  cases fields with
  | nil => rfl
  | cons field fields =>
    rw [ofFields, translateFields, translateField_ofField field, translateFields_ofFields fields]

end

end RawJson

/-! ## Tokens -/

inductive JsonToken where
  | openArr
  | closeArr
  | openObj
  | closeObj
  | comma
  | colon
  | null
  | bool (value : Bool)
  | num (literal : NumLit)
  | str (literal : Literal)

namespace JsonToken

def chars : JsonToken → List Char
  | .openArr => ['[']
  | .closeArr => [']']
  | .openObj => ['\x7b']
  | .closeObj => ['\x7d']
  | .comma => [',']
  | .colon => [':']
  | .null => ['n', 'u', 'l', 'l']
  | .bool true => ['t', 'r', 'u', 'e']
  | .bool false => ['f', 'a', 'l', 's', 'e']
  | .num literal => literal.chars
  | .str literal => '"' :: (literal.chars ++ ['"'])

def read : List Char → Option (JsonToken × List Char)
  | '[' :: rest => some (.openArr, rest)
  | ']' :: rest => some (.closeArr, rest)
  | '\x7b' :: rest => some (.openObj, rest)
  | '\x7d' :: rest => some (.closeObj, rest)
  | ',' :: rest => some (.comma, rest)
  | ':' :: rest => some (.colon, rest)
  | 'n' :: 'u' :: 'l' :: 'l' :: rest => some (.null, rest)
  | 't' :: 'r' :: 'u' :: 'e' :: rest => some (.bool true, rest)
  | 'f' :: 'a' :: 'l' :: 's' :: 'e' :: rest => some (.bool false, rest)
  | '"' :: rest => (Literal.read rest).map fun (l, rest) => (.str l, rest)
  | rest =>
    match Json.readNumber rest with
    | some (.num literal, rest) => some (.num literal, rest)
    | _ => none

/-- All tokens of a text; `fuel` bounds their number. -/
def readAll : Nat → List Char → Option (List JsonToken)
  | 0, text => if Json.skipSpace text = [] then some [] else none
  | fuel + 1, text =>
    match Json.skipSpace text with
    | [] => some []
    | c :: rest =>
      match read (c :: rest) with
      | some (token, rest) => (readAll fuel rest).map (token :: ·)
      | none => none

theorem read_of_isNumberChar (hc : isNumberChar c = true) (text : List Char) : read (c :: text) =
      match Json.readNumber (c :: text) with
      | some (.num literal, rest) => some (.num literal, rest)
      | _ => none := by
  unfold read
  split
  case h_11 => rfl
  all_goals
    rename_i heq
    cases heq
    exact absurd hc (by decide)

variable (t : JsonToken)

theorem chars_head : ∃ c text, t.chars = c :: text ∧ Json.isSpace c = false ∧
      (isNumberChar c = true → ∃ literal, t = .num literal) := by
  cases t with
  | bool value => cases value <;> exact ⟨_, _, rfl, by decide, fun h => absurd h (by decide)⟩
  | num literal =>
    obtain ⟨c, text, htext, hc⟩ := literal.exists_chars_eq_cons
    exact ⟨c, text, htext, Json.isSpace_of_isNumberChar hc, fun _ => ⟨literal, rfl⟩⟩
  | _ => exact ⟨_, _, rfl, by decide, fun h => absurd h (by decide)⟩

theorem read_chars (rest : List Char) (hrest : ∀ literal, t = .num literal → Json.Delimited rest) :
    read (t.chars ++ rest) = some (t, rest) := by
  cases t with
  | bool value => cases value <;> rfl
  | num literal =>
    obtain ⟨c, text, htext, hc⟩ := literal.exists_chars_eq_cons
    have hread := Json.readNumber_append literal (hrest literal rfl)
    rw [chars]
    rw [htext, List.cons_append] at hread ⊢
    rw [read_of_isNumberChar hc, hread]
  | str literal =>
    rw [chars, List.cons_append, List.append_assoc]
    change (Literal.read (literal.chars ++ '"' :: rest)).map _ = _
    rw [Literal.read_chars]
    rfl
  | _ => rfl

theorem readAll_space (hc : Json.isSpace c = true) (fuel : Nat) (text : List Char) :
    readAll fuel (c :: text) = readAll fuel text := by
  have hskip : Json.skipSpace (c :: text) = Json.skipSpace text := by simp [Json.skipSpace, hc]
  cases fuel <;> simp only [readAll, hskip]

theorem readAll_chars (rest : List Char) (fuel : Nat)
    (hrest : ∀ literal, t = .num literal → Json.Delimited rest) :
    readAll (fuel + 1) (t.chars ++ rest) = (readAll fuel rest).map (t :: ·) := by
  have hread := read_chars t rest hrest
  obtain ⟨c, text, htext, hspace, -⟩ := chars_head t
  rw [htext, List.cons_append] at hread ⊢
  rw [readAll, Json.skipSpace_cons hspace]
  simp only [hread]

end JsonToken

/-! ## Printing -/

/-- A piece of a printed document; `line` is a line break and the indentation of a depth. -/
inductive Piece where
  | line (depth : Nat)
  | blank
  | token (t : JsonToken)

namespace Piece

def chars : Piece → List Char
  | .line depth => '\n' :: List.replicate (2 * depth) ' '
  | .blank => [' ']
  | .token t => t.chars

def text (pieces : List Piece) : List Char := pieces.flatMap chars

def tokens : List Piece → List JsonToken
  | [] => []
  | .token t :: pieces => t :: tokens pieces
  | .line _ :: pieces => tokens pieces
  | .blank :: pieces => tokens pieces

theorem tokens_append (first second : List Piece) :
    tokens (first ++ second) = tokens first ++ tokens second := by
  induction first with
  | nil => rfl
  | cons p first ih => cases p <;> simp [tokens, ih]

def startsNumber : List Piece → Bool
  | .token (.num _) :: _ => true
  | _ => false

def Separated : List Piece → Prop
  | [] => True
  | .token (.num _) :: pieces => startsNumber pieces = false ∧ Separated pieces
  | _ :: pieces => Separated pieces

variable {rest : List Char}

theorem delimited_text_append {pieces : List Piece} (h : startsNumber pieces = false)
    (hrest : Json.Delimited rest) : Json.Delimited (text pieces ++ rest) := by
  cases pieces with
  | nil => exact hrest
  | cons p pieces =>
    cases p with
    | line | blank => exact Json.delimited_cons (by decide) _
    | token t =>
      obtain ⟨c, text, hchars, -, hnum⟩ := t.chars_head
      rw [Piece.text, List.flatMap_cons, chars, hchars, List.cons_append, List.cons_append]
      apply Json.delimited_cons
      cases hc : isNumberChar c with
      | false => rfl
      | true =>
        obtain ⟨literal, rfl⟩ := hnum hc
        simp [startsNumber] at h

private theorem readAll_replicate (n fuel : Nat) (rest : List Char) :
    JsonToken.readAll fuel (List.replicate n ' ' ++ rest) = JsonToken.readAll fuel rest := by
  induction n with
  | zero => rfl
  | succ n ih => rw [List.replicate_succ, List.cons_append, JsonToken.readAll_space (by decide), ih]

theorem readAll_text_append (pieces : List Piece) (hsep : Separated pieces)
    (hrest : Json.Delimited rest) (fuel : Nat) :
    JsonToken.readAll ((tokens pieces).length + fuel) (text pieces ++ rest) =
      (JsonToken.readAll fuel rest).map (tokens pieces ++ ·) := by
  induction pieces with
  | nil => simp [tokens, text]
  | cons p pieces ih =>
    rw [text, List.flatMap_cons, ← text, List.append_assoc]
    cases p with
    | line depth =>
      rw [chars, List.cons_append, JsonToken.readAll_space (by decide), readAll_replicate]
      exact ih hsep
    | blank =>
      rw [chars, List.singleton_append, JsonToken.readAll_space (by decide)]
      exact ih hsep
    | token t =>
      have hdelim : ∀ literal, t = .num literal → Json.Delimited (text pieces ++ rest) := by
        rintro literal rfl
        exact delimited_text_append hsep.1 hrest
      have hpieces : Separated pieces := by
        cases t with
        | num literal => exact hsep.2
        | _ => exact hsep
      rw [chars, tokens, List.length_cons, Nat.add_right_comm,
        JsonToken.readAll_chars t _ _ hdelim, ih hpieces, Option.map_map]
      rfl

theorem readAll_text (pieces : List Piece) (hsep : Separated pieces) (fuel : Nat)
    (hfuel : (tokens pieces).length ≤ fuel) :
    JsonToken.readAll fuel (text pieces) = some (tokens pieces) := by
  obtain ⟨more, rfl⟩ := Nat.exists_eq_add_of_le hfuel
  have hread := readAll_text_append pieces hsep Json.delimited_nil more
  have hend : JsonToken.readAll more [] = some [] := by cases more <;> rfl
  rw [List.append_nil, hend, Option.map_some, List.append_nil] at hread
  exact hread

end Piece

namespace RawJson

mutual

/-- The document as `json.Indent` lays it out with two blanks per level. -/
def pieces (depth : Nat) : RawJson → List Piece
  | .null => [.token .null]
  | .bool value => [.token (.bool value)]
  | .num literal => [.token (.num literal)]
  | .str literal => [.token (.str literal)]
  | .arr [] => [.token .openArr, .token .closeArr]
  | .arr (item :: items) =>
    .token .openArr :: .line (depth + 1) :: (pieces (depth + 1) item ++ itemsPieces depth items)
  | .obj [] => [.token .openObj, .token .closeObj]
  | .obj (field :: fields) =>
    .token .openObj :: .line (depth + 1) ::
      (fieldPieces (depth + 1) field ++ fieldsPieces depth fields)

def itemsPieces (depth : Nat) : List RawJson → List Piece
  | [] => [.line depth, .token .closeArr]
  | item :: items =>
    .token .comma :: .line (depth + 1) :: (pieces (depth + 1) item ++ itemsPieces depth items)

def fieldPieces (depth : Nat) : Literal × RawJson → List Piece
  | (key, value) => .token (.str key) :: .token .colon :: .blank :: pieces depth value

def fieldsPieces (depth : Nat) : List (Literal × RawJson) → List Piece
  | [] => [.line depth, .token .closeObj]
  | field :: fields =>
    .token .comma :: .line (depth + 1) ::
      (fieldPieces (depth + 1) field ++ fieldsPieces depth fields)

end

def print (document : RawJson) : List Char := Piece.text (pieces 0 document)

/-! ## Reading -/

mutual

/-- Read one value; `fuel` bounds the number of tokens. -/
def readValue : Nat → List JsonToken → Option (RawJson × List JsonToken)
  | _ + 1, .null :: rest => some (.null, rest)
  | _ + 1, .bool value :: rest => some (.bool value, rest)
  | _ + 1, .num literal :: rest => some (.num literal, rest)
  | _ + 1, .str literal :: rest => some (.str literal, rest)
  | _ + 1, .openArr :: .closeArr :: rest => some (.arr [], rest)
  | fuel + 1, .openArr :: rest => (readItems fuel rest).map fun (items, rest) => (.arr items, rest)
  | _ + 1, .openObj :: .closeObj :: rest => some (.obj [], rest)
  | fuel + 1, .openObj :: rest =>
    (readFields fuel rest).map fun (fields, rest) => (.obj fields, rest)
  | _, _ => none

def readItems : Nat → List JsonToken → Option (List RawJson × List JsonToken)
  | 0, _ => none
  | fuel + 1, tokens =>
    match readValue fuel tokens with
    | some (item, .closeArr :: rest) => some ([item], rest)
    | some (item, .comma :: rest) =>
      (readItems fuel rest).map fun (items, rest) => (item :: items, rest)
    | _ => none

def readFields : Nat → List JsonToken → Option (List (Literal × RawJson) × List JsonToken)
  | fuel + 1, .str key :: .colon :: tokens =>
    match readValue fuel tokens with
    | some (value, .closeObj :: rest) => some ([(key, value)], rest)
    | some (value, .comma :: rest) =>
      (readFields fuel rest).map fun (fields, rest) => ((key, value) :: fields, rest)
    | _ => none
  | _, _ => none

end

def read (text : List Char) : Option RawJson :=
  match JsonToken.readAll text.length text with
  | none => none
  | some tokens =>
    match readValue tokens.length tokens with
    | some (document, []) => some document
    | _ => none

/-! ## Reading inverts printing -/

open Piece (tokens tokens_append)

private theorem readValue_openArr {fuel : Nat} {first : JsonToken} {rest : List JsonToken}
    (hfirst : first ≠ .closeArr) :
    readValue (fuel + 1) (.openArr :: first :: rest) =
      (readItems fuel (first :: rest)).map fun (items, rest) => (.arr items, rest) := by
  cases first with
  | closeArr => exact absurd rfl hfirst
  | _ => rw [readValue]; simp

private theorem pieces_head (depth : Nat) (document : RawJson) :
    ∃ first rest, tokens (pieces depth document) = first :: rest ∧ first ≠ .closeArr := by
  cases document with
  | arr items => cases items <;> exact ⟨_, _, by rw [pieces, tokens], by simp⟩
  | obj fields => cases fields <;> exact ⟨_, _, by rw [pieces, tokens], by simp⟩
  | _ => exact ⟨_, _, by rw [pieces, tokens], by simp⟩

private theorem length_tokens_pos (depth : Nat) (document : RawJson) :
    0 < (tokens (pieces depth document)).length := by
  obtain ⟨first, rest, htokens, -⟩ := pieces_head depth document
  rw [htokens]
  exact Nat.succ_pos _

mutual

theorem readValue_pieces (document : RawJson) (depth fuel : Nat) (rest : List JsonToken)
    (hfuel : (tokens (pieces depth document)).length ≤ fuel) :
    readValue fuel (tokens (pieces depth document) ++ rest) = some (document, rest) := by
  have hpos := length_tokens_pos depth document
  cases fuel with
  | zero => omega
  | succ fuel =>
    cases document with
    | arr items =>
      cases items with
      | nil => rfl
      | cons item items =>
        obtain ⟨first, more, hfirst, hne⟩ := pieces_head (depth + 1) item
        have hread := readItems_pieces item items depth fuel rest (by
          simp only [pieces, tokens, tokens_append, List.length_cons, List.length_append] at hfuel
          omega)
        simp only [pieces, tokens, tokens_append, List.cons_append, hfirst] at hread ⊢
        rw [readValue_openArr hne, hread]
        rfl
    | obj fields =>
      cases fields with
      | nil => rfl
      | cons field fields =>
        have hread := readFields_pieces field fields depth fuel rest (by
          simp only [pieces, tokens, tokens_append, List.length_cons, List.length_append] at hfuel
          omega)
        simp only [pieces, tokens, tokens_append, List.cons_append] at hread ⊢
        obtain ⟨key, value⟩ := field
        rw [fieldPieces, tokens, List.cons_append, List.cons_append] at hread ⊢
        rw [readValue]
        · rw [hread]
          rfl
        · simp
    | _ => rfl
termination_by fuel

theorem readItems_pieces (item : RawJson) (items : List RawJson) (depth fuel : Nat)
    (rest : List JsonToken)
    (hfuel : (tokens (pieces (depth + 1) item)).length +
      (tokens (itemsPieces depth items)).length ≤ fuel) :
    readItems fuel (tokens (pieces (depth + 1) item) ++ tokens (itemsPieces depth items) ++
      rest) = some (item :: items, rest) := by
  have hpos := length_tokens_pos (depth + 1) item
  cases fuel with
  | zero => omega
  | succ fuel =>
    rw [List.append_assoc]
    cases items with
    | nil =>
      simp only [itemsPieces, tokens, List.length_cons, List.length_nil] at hfuel ⊢
      rw [readItems, readValue_pieces item (depth + 1) fuel _ (by omega)]
      rfl
    | cons next items =>
      simp only [itemsPieces, tokens, tokens_append, List.length_cons, List.length_append,
        List.cons_append] at hfuel ⊢
      rw [readItems, readValue_pieces item (depth + 1) fuel _ (by omega)]
      have hread := readItems_pieces next items depth fuel rest (by omega)
      simp only [hread]
      rfl
termination_by fuel

theorem readFields_pieces (field : Literal × RawJson) (fields : List (Literal × RawJson))
    (depth fuel : Nat) (rest : List JsonToken)
    (hfuel : (tokens (fieldPieces (depth + 1) field)).length +
      (tokens (fieldsPieces depth fields)).length ≤ fuel) :
    readFields fuel (tokens (fieldPieces (depth + 1) field) ++
      tokens (fieldsPieces depth fields) ++ rest) = some (field :: fields, rest) := by
  obtain ⟨key, value⟩ := field
  cases fuel with
  | zero => simp [fieldPieces, tokens] at hfuel
  | succ fuel =>
    simp only [fieldPieces, tokens, List.length_cons, List.cons_append] at hfuel ⊢
    rw [List.append_assoc]
    cases fields with
    | nil =>
      simp only [fieldsPieces, tokens] at hfuel ⊢
      rw [readFields, readValue_pieces value (depth + 1) fuel _ (by omega)]
      rfl
    | cons next fields =>
      simp only [fieldsPieces, tokens, tokens_append, List.length_cons, List.length_append,
        List.cons_append] at hfuel ⊢
      rw [readFields, readValue_pieces value (depth + 1) fuel _ (by omega)]
      have hread := readFields_pieces next fields depth fuel rest (by omega)
      simp only [hread]
      rfl
termination_by fuel

end

open Piece (Separated startsNumber)

mutual

theorem separated_tokens (document : RawJson) (depth : Nat) (rest : List JsonToken)
    (hrest : Separated (rest.map .token)) (hstart : startsNumber (rest.map .token) = false) :
    Separated ((tokens (pieces depth document) ++ rest).map .token) := by
  cases document with
  | num literal => exact ⟨hstart, hrest⟩
  | arr items =>
    cases items with
    | nil => exact hrest
    | cons item items =>
      rw [pieces, tokens, tokens, tokens_append, List.cons_append, List.append_assoc]
      apply separated_tokens item (depth + 1)
      · exact separated_itemsTokens items depth rest hrest
      · cases items <;> rfl
  | obj fields =>
    cases fields with
    | nil => exact hrest
    | cons field fields =>
      obtain ⟨key, value⟩ := field
      rw [pieces, tokens, tokens, tokens_append, List.cons_append, List.append_assoc]
      apply separated_tokens value (depth + 1)
      · exact separated_fieldsTokens fields depth rest hrest
      · cases fields <;> rfl
  | _ => exact hrest

theorem separated_itemsTokens (items : List RawJson) (depth : Nat) (rest : List JsonToken)
    (hrest : Separated (rest.map .token)) :
    Separated ((tokens (itemsPieces depth items) ++ rest).map .token) := by
  cases items with
  | nil => exact hrest
  | cons item items =>
    rw [itemsPieces, tokens, tokens, tokens_append, List.cons_append, List.append_assoc]
    apply separated_tokens item (depth + 1)
    · exact separated_itemsTokens items depth rest hrest
    · cases items <;> rfl

theorem separated_fieldsTokens (fields : List (Literal × RawJson)) (depth : Nat)
    (rest : List JsonToken) (hrest : Separated (rest.map .token)) :
    Separated ((tokens (fieldsPieces depth fields) ++ rest).map .token) := by
  match fields with
  | [] => exact hrest
  | (key, value) :: fields =>
    rw [fieldsPieces, tokens, tokens, tokens_append, List.cons_append, List.append_assoc]
    apply separated_tokens value (depth + 1)
    · exact separated_fieldsTokens fields depth rest hrest
    · cases fields <;> rfl

end

theorem separated_compact (document : RawJson) :
    Separated ((tokens (pieces 0 document)).map .token) := by
  have hsep := separated_tokens document 0 [] trivial rfl
  rwa [List.append_nil] at hsep

theorem separated_of_tokens {pieces : List Piece} (h : Separated ((tokens pieces).map .token)) :
    Separated pieces := by
  induction pieces with
  | nil => trivial
  | cons p pieces ih =>
    cases p with
    | line | blank => exact ih h
    | token t =>
      cases t with
      | num literal =>
        refine ⟨?_, ih h.2⟩
        unfold startsNumber
        split
        · exact h.1
        · rfl
      | _ => exact ih h

theorem length_tokens_le (pieces : List Piece) :
    (tokens pieces).length ≤ (Piece.text pieces).length := by
  induction pieces with
  | nil => rfl
  | cons p pieces ih =>
    rw [Piece.text, List.flatMap_cons, List.length_append, ← Piece.text]
    cases p with
    | line | blank => simp only [tokens]; omega
    | token t =>
      obtain ⟨c, text, htext, -⟩ := t.chars_head
      simp only [tokens, Piece.chars, htext, List.length_cons]
      omega

theorem read_print (document : RawJson) : read document.print = some document := by
  have hsep := separated_of_tokens (separated_compact document)
  have hlex := Piece.readAll_text _ hsep document.print.length (length_tokens_le _)
  have hvalue := readValue_pieces document 0 _ [] (Nat.le_refl _)
  rw [List.append_nil] at hvalue
  rw [print] at hlex ⊢
  rw [read, hlex]
  simp only [hvalue]

end RawJson

end DataPipe.Foundation
