import DataPipe.Foundation.Decimal
import Mathlib.Data.List.TakeWhile

/-!
# JSON text

JSON values, the compact text that Go's `encoding/json` writes for them, and a
reader of JSON text.  Numbers keep their literal and objects keep the order of
their fields, so a value is exactly what a document denotes up to insignificant
white space and the spelling of its strings.  Reading inverts writing, hence
writing is injective.
-/

namespace DataPipe.Foundation

def skipDigits (text : List Char) : List Char := text.dropWhile Char.isDigit

def skipMinus : List Char → List Char
  | '-' :: text => text
  | text => text

def skipInteger : List Char → Option (List Char)
  | [] => none
  | '0' :: text => some text
  | c :: text => if c.isDigit then some (skipDigits text) else none

def skipFraction : List Char → Option (List Char)
  | '.' :: c :: text => if c.isDigit then some (skipDigits text) else none
  | ['.'] => none
  | text => some text

def skipExponentDigits : List Char → Option (List Char)
  | [] => none
  | c :: text => if c.isDigit then some (skipDigits text) else none

def skipExponent : List Char → Option (List Char)
  | [] => some []
  | c :: text =>
    if c = 'e' ∨ c = 'E' then
      match text with
      | '+' :: digits => skipExponentDigits digits
      | '-' :: digits => skipExponentDigits digits
      | digits => skipExponentDigits digits
    else some (c :: text)

def isNumberChar (c : Char) : Bool :=
  c.isDigit || c = '-' || c = '+' || c = '.' || c = 'e' || c = 'E'

/-- The number grammar of JSON, as `encoding/json` checks it. -/
def isNumber (text : List Char) : Bool :=
  text.all isNumberChar &&
    decide ((((skipInteger (skipMinus text)).bind skipFraction).bind
      skipExponent) = some [])

structure NumLit where
  chars : List Char
  valid : isNumber chars = true

variable {c : Char}

theorem NumLit.isNumberChar_of_mem (literal : NumLit) (hc : c ∈ literal.chars) :
    isNumberChar c = true := by
  have hvalid := literal.valid
  simp only [isNumber, Bool.and_eq_true] at hvalid
  exact List.all_eq_true.mp hvalid.1 c hc

theorem NumLit.exists_chars_eq_cons (literal : NumLit) :
    ∃ c text, literal.chars = c :: text ∧ isNumberChar c = true := by
  cases hchars : literal.chars with
  | nil => exact absurd literal.valid (by simp [hchars, isNumber, skipMinus, skipInteger])
  | cons c text => exact ⟨c, text, rfl, literal.isNumberChar_of_mem (by simp [hchars])⟩

variable {n : Nat}

theorem decimal_head_ne_zero (hn : 0 < n) : ∃ c text, decimal n = c :: text ∧ c ≠ '0' := by
  induction n using Nat.strongRecOn with
  | _ n ih =>
    rw [decimal, Nat.toDigits_eq_if (by decide)]
    split
    · exact ⟨_, _, rfl, by simp; omega⟩
    · obtain ⟨c, text, htext, hc⟩ := ih (n / 10) (by omega) (by omega)
      rw [decimal] at htext
      exact ⟨c, _, by rw [htext]; rfl, hc⟩

private theorem skipInteger_decimal (n : Nat) : skipInteger (decimal n) = some [] := by
  rcases Nat.eq_zero_or_pos n with rfl | hn
  · rfl
  · obtain ⟨c, text, htext, hc⟩ := decimal_head_ne_zero hn
    have hdigit : ∀ d ∈ c :: text, d.isDigit = true := fun d hd =>
      isDigit_of_mem_decimal (htext ▸ hd)
    rw [htext, skipInteger, if_pos (hdigit c (by simp))]
    · rw [skipDigits, List.dropWhile_eq_nil_iff.mpr]
      exact fun d hd => hdigit d (by simp [hd])
    · exact hc

private theorem isNumberChar_of_isDigit {c : Char} (hc : c.isDigit = true) :
    isNumberChar c = true := by
  simp [isNumberChar, hc]

theorem skipMinus_decimal (n : Nat) : skipMinus (decimal n) = decimal n := by
  unfold skipMinus
  split
  next text htext =>
    exact absurd (isDigit_of_mem_decimal (htext ▸ List.mem_cons_self))
      (by decide)
  · rfl

def intLit (n : Int) : NumLit where
  chars := signedDecimal n
  valid := by
    cases n with
    | ofNat n =>
      have hall : (decimal n).all isNumberChar = true :=
        List.all_eq_true.mpr fun c hc =>
          isNumberChar_of_isDigit (isDigit_of_mem_decimal hc)
      simp [signedDecimal, isNumber, hall, skipMinus_decimal,
        skipInteger_decimal, skipFraction, skipExponent]
    | negSucc n =>
      have hall : (decimal (n + 1)).all isNumberChar = true :=
        List.all_eq_true.mpr fun c hc =>
          isNumberChar_of_isDigit (isDigit_of_mem_decimal hc)
      have hminus : isNumberChar '-' = true := by decide
      simp only [signedDecimal, isNumber, List.all_cons, hminus, hall,
        skipMinus, skipInteger_decimal]
      decide

theorem intLit_injective : Function.Injective intLit := by
  intro first second heq
  have hvalue := congrArg (fun literal => signedDecimalValue literal.chars) heq
  simpa [intLit, signedDecimalValue_signedDecimal] using hvalue

def hexValue (c : Char) : Option Nat :=
  if c.isDigit then some (c.toNat - 48)
  else if 'a' ≤ c ∧ c ≤ 'f' then some (c.toNat - 87)
  else if 'A' ≤ c ∧ c ≤ 'F' then some (c.toNat - 55)
  else none

def hex4 (code : Nat) : List Char :=
  [Nat.digitChar (code / 4096 % 16), Nat.digitChar (code / 256 % 16),
    Nat.digitChar (code / 16 % 16), Nat.digitChar (code % 16)]

def hex4Value (a b c d : Char) : Option Nat := do
  let a ← hexValue a
  let b ← hexValue b
  let c ← hexValue c
  let d ← hexValue d
  some (4096 * a + 256 * b + 16 * c + d)

/-- Characters that `encoding/json` writes as `\uXXXX`; they are all below `0x2030`. -/
def needsUnicodeEscape (c : Char) : Bool :=
  decide (c.toNat < 0x20) || c = '<' || c = '>' || c = '&' ||
    decide (c.toNat = 0x2028) || decide (c.toNat = 0x2029)

def escapeChar : Char → List Char
  | '"' => ['\\', '"']
  | '\\' => ['\\', '\\']
  | '\x08' => ['\\', 'b']
  | '\x0c' => ['\\', 'f']
  | '\n' => ['\\', 'n']
  | '\r' => ['\\', 'r']
  | '\t' => ['\\', 't']
  | c => if needsUnicodeEscape c then '\\' :: 'u' :: hex4 c.toNat else [c]

def escapeText (text : List Char) : List Char := text.flatMap escapeChar

inductive StringUnit where
  | char (c : Char)
  | unit (code : Nat)

def unescapeShort : Char → Option Char
  | '"' => some '"'
  | '\\' => some '\\'
  | '/' => some '/'
  | 'b' => some '\x08'
  | 'f' => some '\x0c'
  | 'n' => some '\n'
  | 'r' => some '\r'
  | 't' => some '\t'
  | _ => none

def readUnits : List Char → Option (List StringUnit × List Char)
  | [] => none
  | c :: text =>
    if c = '"' then some ([], text)
    else if c = '\\' then
      match text with
      | [] => none
      | letter :: text =>
        if letter = 'u' then
          match text with
          | a :: b :: c :: d :: text =>
            match hex4Value a b c d, readUnits text with
            | some code, some (units, rest) =>
              some (.unit code :: units, rest)
            | _, _ => none
          | _ => none
        else
          match unescapeShort letter, readUnits text with
          | some c, some (units, rest) => some (.char c :: units, rest)
          | _, _ => none
    else if c.toNat < 0x20 then none
    else
      match readUnits text with
      | some (units, rest) => some (.char c :: units, rest)
      | none => none

def isHighSurrogate (code : Nat) : Bool := decide (0xd800 ≤ code ∧ code < 0xdc00)

def isLowSurrogate (code : Nat) : Bool := decide (0xdc00 ≤ code ∧ code < 0xe000)

def unitChar (code : Nat) : Char :=
  if isHighSurrogate code || isLowSurrogate code then Char.ofNat 0xfffd
  else Char.ofNat code

def decodeUnits : List StringUnit → List Char
  | [] => []
  | .char c :: units => c :: decodeUnits units
  | .unit high :: .unit low :: units =>
    if isHighSurrogate high && isLowSurrogate low then
      Char.ofNat (0x10000 + (high - 0xd800) * 1024 + (low - 0xdc00)) :: decodeUnits units
    else unitChar high :: decodeUnits (.unit low :: units)
  | .unit code :: units => unitChar code :: decodeUnits units

def readString (text : List Char) : Option (String × List Char) :=
  (readUnits text).map fun (units, rest) =>
    (String.ofList (decodeUnits units), rest)

theorem hexValue_digitChar {d : Nat} (hd : d < 16) : hexValue (Nat.digitChar d) = some d := by
  revert d
  decide

variable {code : Nat}

theorem hex4Value_hex4 (hcode : code < 65536) :
    hex4Value (Nat.digitChar (code / 4096 % 16))
      (Nat.digitChar (code / 256 % 16)) (Nat.digitChar (code / 16 % 16))
      (Nat.digitChar (code % 16)) = some code := by
  simp only [hex4Value, hexValue_digitChar (Nat.mod_lt _ (by decide)),
    Option.bind_eq_bind, Option.bind_some, Option.some.injEq]
  omega

private theorem toNat_lt_of_needsUnicodeEscape {c : Char}
    (hc : needsUnicodeEscape c = true) : c.toNat < 0x2030 := by
  simp only [needsUnicodeEscape, Bool.or_eq_true, decide_eq_true_eq] at hc
  rcases hc with ((((hc | rfl) | rfl) | rfl) | hc) | hc
  all_goals first
    | omega
    | decide

def escapedUnit (c : Char) : StringUnit :=
  match c with
  | '"' | '\\' | '\x08' | '\x0c' | '\n' | '\r' | '\t' => .char c
  | c => if needsUnicodeEscape c then .unit c.toNat else .char c

private theorem escapedUnit_of_not_short {c : Char}
    (hshort : ¬ c = '"' ∧ ¬ c = '\\' ∧ ¬ c = '\x08' ∧ ¬ c = '\x0c' ∧
      ¬ c = '\n' ∧ ¬ c = '\r' ∧ ¬ c = '\t') :
    escapedUnit c =
      if needsUnicodeEscape c then .unit c.toNat else .char c := by
  unfold escapedUnit
  split <;> simp_all

private theorem readUnits_escapeChar (c : Char) (text : List Char) :
    readUnits (escapeChar c ++ text) =
      (readUnits text).map fun (units, rest) => (escapedUnit c :: units, rest) := by
  unfold escapeChar
  split
  case h_8 h1 h2 h3 h4 h5 h6 h7 =>
    rw [escapedUnit_of_not_short ⟨h1, h2, h3, h4, h5, h6, h7⟩]
    split
    next hescape =>
      have hcode : c.toNat < 65536 := by
        have := toNat_lt_of_needsUnicodeEscape hescape
        omega
      rw [hex4, readUnits.eq_def]
      dsimp only [List.cons_append, List.nil_append]
      rw [hex4Value_hex4 hcode]
      cases readUnits text <;> rfl
    next hplain =>
      have hprintable : ¬ c.toNat < 0x20 := by
        intro hlt
        simp [needsUnicodeEscape, hlt] at hplain
      rw [List.singleton_append, readUnits.eq_def]
      dsimp only
      rw [if_neg h1, if_neg h2, if_neg hprintable]
      cases readUnits text <;> rfl
  all_goals
    rw [List.cons_append, List.singleton_append, readUnits.eq_def]
    dsimp only
    cases readUnits text <;> rfl

theorem readUnits_escapeText (text rest : List Char) :
    readUnits (escapeText text ++ '"' :: rest) =
      some (text.map escapedUnit, rest) := by
  induction text with
  | nil =>
    rw [readUnits.eq_def]
    rfl
  | cons c text ih =>
    rw [escapeText, List.flatMap_cons, List.append_assoc, readUnits_escapeChar]
    rw [escapeText] at ih
    rw [ih]
    rfl

theorem not_surrogate (h : n < 0x2030) : isHighSurrogate n = false ∧ isLowSurrogate n = false := by
  simp only [isHighSurrogate, isLowSurrogate, decide_eq_false_iff_not]
  omega

theorem unitChar_toNat (h : c.toNat < 0x2030) : unitChar c.toNat = c := by
  simp [unitChar, not_surrogate h]

theorem decodeUnits_unit (hhigh : isHighSurrogate code = false) (units : List StringUnit) :
    decodeUnits (.unit code :: units) = unitChar code :: decodeUnits units := by
  cases units with
  | nil => simp [decodeUnits]
  | cons first units =>
    cases first with
    | char c => simp [decodeUnits]
    | unit low => simp [decodeUnits, hhigh]

private theorem decodeUnits_escapedUnit (c : Char) (text : List Char) :
    decodeUnits (escapedUnit c :: text.map escapedUnit) =
      c :: decodeUnits (text.map escapedUnit) := by
  by_cases hescape : escapedUnit c = .unit c.toNat ∧ needsUnicodeEscape c = true
  · obtain ⟨hunit, hneeds⟩ := hescape
    have hlt := toNat_lt_of_needsUnicodeEscape hneeds
    rw [hunit, decodeUnits_unit (not_surrogate hlt).1, unitChar_toNat hlt]
  · have hchar : escapedUnit c = .char c := by
      unfold escapedUnit at hescape ⊢
      split <;> simp_all
    rw [hchar, decodeUnits]

theorem decodeUnits_map_escapedUnit (text : List Char) :
    decodeUnits (text.map escapedUnit) = text := by
  induction text with
  | nil => rfl
  | cons c text ih => rw [List.map_cons, decodeUnits_escapedUnit, ih]

inductive Json where
  | null
  | bool (value : Bool)
  | num (literal : NumLit)
  | str (text : String)
  | arr (items : List Json)
  | obj (fields : List (String × Json))

namespace Json

def quoted (text : String) : List Char :=
  '"' :: (escapeText text.toList ++ ['"'])

mutual

def render : Json → List Char
  | .null => ['n', 'u', 'l', 'l']
  | .bool true => ['t', 'r', 'u', 'e']
  | .bool false => ['f', 'a', 'l', 's', 'e']
  | .num literal => literal.chars
  | .str text => quoted text
  | .arr [] => ['[', ']']
  | .arr (item :: items) => '[' :: (render item ++ renderItems items)
  | .obj [] => ['\x7b', '\x7d']
  | .obj (field :: fields) =>
    '\x7b' :: (renderField field ++ renderFields fields)

def renderItems : List Json → List Char
  | [] => [']']
  | item :: items => ',' :: (render item ++ renderItems items)

def renderField : String × Json → List Char
  | (key, value) => quoted key ++ ':' :: render value

def renderFields : List (String × Json) → List Char
  | [] => ['\x7d']
  | field :: fields => ',' :: (renderField field ++ renderFields fields)

end

def isSpace (c : Char) : Bool := c = ' ' || c = '\t' || c = '\r' || c = '\n'

def skipSpace (text : List Char) : List Char := text.dropWhile isSpace

def readNumber (text : List Char) : Option (Json × List Char) :=
  if hvalid : isNumber (text.takeWhile isNumberChar) = true then
    some (.num ⟨_, hvalid⟩, text.dropWhile isNumberChar)
  else none

mutual

/-- Read one value; `fuel` bounds the nesting and the number of elements. -/
def readValue : Nat → List Char → Option (Json × List Char)
  | 0, _ => none
  | fuel + 1, text =>
    match skipSpace text with
    | 'n' :: 'u' :: 'l' :: 'l' :: rest => some (.null, rest)
    | 't' :: 'r' :: 'u' :: 'e' :: rest => some (.bool true, rest)
    | 'f' :: 'a' :: 'l' :: 's' :: 'e' :: rest => some (.bool false, rest)
    | '"' :: rest =>
      match readString rest with
      | some (text, rest) => some (.str text, rest)
      | none => none
    | '[' :: rest =>
      match skipSpace rest with
      | ']' :: rest => some (.arr [], rest)
      | rest =>
        match readItems fuel rest with
        | some (items, rest) => some (.arr items, rest)
        | none => none
    | '\x7b' :: rest =>
      match skipSpace rest with
      | '\x7d' :: rest => some (.obj [], rest)
      | rest =>
        match readFields fuel rest with
        | some (fields, rest) => some (.obj fields, rest)
        | none => none
    | rest => readNumber rest

def readItems : Nat → List Char → Option (List Json × List Char)
  | 0, _ => none
  | fuel + 1, text =>
    match readValue fuel text with
    | none => none
    | some (item, rest) =>
      match skipSpace rest with
      | ']' :: rest => some ([item], rest)
      | ',' :: rest =>
        match readItems fuel rest with
        | some (items, rest) => some (item :: items, rest)
        | none => none
      | _ => none

def readFields : Nat → List Char → Option (List (String × Json) × List Char)
  | 0, _ => none
  | fuel + 1, text =>
    match skipSpace text with
    | '"' :: rest =>
      match readString rest with
      | none => none
      | some (key, rest) =>
        match skipSpace rest with
        | ':' :: rest =>
          match readValue fuel rest with
          | none => none
          | some (value, rest) =>
            match skipSpace rest with
            | '\x7d' :: rest => some ([(key, value)], rest)
            | ',' :: rest =>
              match readFields fuel rest with
              | some (fields, rest) =>
                some ((key, value) :: fields, rest)
              | none => none
            | _ => none
        | _ => none
    | _ => none

end

def read (text : List Char) : Option Json :=
  match readValue (text.length + 1) text with
  | some (value, rest) => if skipSpace rest = [] then some value else none
  | none => none

def Delimited (text : List Char) : Prop :=
  ∀ c rest, text = c :: rest → isNumberChar c = false

theorem delimited_nil : Delimited [] := by
  intro c rest htext
  contradiction

variable {rest text : List Char} {c : Char} {fuel : Nat}

theorem delimited_cons (hc : isNumberChar c = false) (text : List Char) :
    Delimited (c :: text) := by
  intro d rest htext
  cases htext
  exact hc

theorem skipSpace_cons (hc : isSpace c = false) (text : List Char) :
    skipSpace (c :: text) = c :: text := by
  simp [skipSpace, hc]

theorem isSpace_of_isNumberChar (hc : isNumberChar c = true) : isSpace c = false := by
  cases hspace : isSpace c with
  | false => rfl
  | true =>
    simp only [isSpace, Bool.or_eq_true, decide_eq_true_eq] at hspace
    rcases hspace with ((rfl | rfl) | rfl) | rfl <;>
      exact absurd hc (by decide)

theorem readNumber_append (literal : NumLit) (hrest : Delimited rest) :
    readNumber (literal.chars ++ rest) = some (.num literal, rest) := by
  have hall : ∀ c ∈ literal.chars, isNumberChar c = true := fun c hc =>
    literal.isNumberChar_of_mem hc
  have hstop : rest.takeWhile isNumberChar = [] ∧ rest.dropWhile isNumberChar = rest := by
    cases rest with
    | nil => simp
    | cons c rest => simp [hrest c rest rfl]
  unfold readNumber
  simp [List.takeWhile_append_of_pos hall, List.dropWhile_append_of_pos hall, hstop, literal.valid]

private theorem readValue_of_isNumberChar (hc : isNumberChar c = true) (fuel : Nat)
    (text : List Char) : readValue (fuel + 1) (c :: text) = readNumber (c :: text) := by
  rw [readValue, skipSpace_cons (isSpace_of_isNumberChar hc)]
  split
  case h_7 => rfl
  all_goals
    rename_i heq
    cases heq
    exact absurd hc (by decide)

private theorem render_head (value : Json) :
    ∃ c text, render value = c :: text ∧ isSpace c = false ∧ c ≠ ']' := by
  cases value with
  | null => exact ⟨_, _, by rw [render], by decide, by decide⟩
  | bool value =>
    cases value <;> exact ⟨_, _, by rw [render], by decide, by decide⟩
  | num literal =>
    obtain ⟨c, text, htext, hc⟩ := literal.exists_chars_eq_cons
    refine ⟨c, text, by rw [render, htext], isSpace_of_isNumberChar hc, ?_⟩
    rintro rfl
    exact absurd hc (by decide)
  | str text => exact ⟨_, _, by rw [render, quoted], by decide, by decide⟩
  | arr items =>
    cases items <;> exact ⟨_, _, by rw [render], by decide, by decide⟩
  | obj fields =>
    cases fields <;> exact ⟨_, _, by rw [render], by decide, by decide⟩

private theorem length_render_pos (value : Json) : 0 < (render value).length := by
  obtain ⟨c, text, htext, -⟩ := render_head value
  rw [htext]
  exact Nat.succ_pos _

private theorem readString_quoted (text : String) (rest : List Char) :
    readString ((escapeText text.toList ++ ['"']) ++ rest) =
      some (text, rest) := by
  simp [readString, readUnits_escapeText, decodeUnits_map_escapedUnit]

private theorem readValue_quote (fuel : Nat) (text : List Char) :
    readValue (fuel + 1) ('"' :: text) =
      match readString text with
      | some (text, rest) => some (.str text, rest)
      | none => none := rfl

private theorem readValue_arr {items : List Json}
    (hhead : ∃ c tail, text = c :: tail ∧ isSpace c = false ∧ c ≠ ']')
    (hitems : readItems fuel text = some (items, rest)) :
    readValue (fuel + 1) ('[' :: text) = some (.arr items, rest) := by
  obtain ⟨c, tail, rfl, hspace, hne⟩ := hhead
  change (match skipSpace (c :: tail) with
    | ']' :: rest => _
    | rest => _) = _
  rw [skipSpace_cons hspace]
  split
  next heq =>
    cases heq
    exact absurd rfl hne
  · rw [hitems]

private theorem readValue_obj {fields : List (String × Json)} (hhead : ∃ tail, text = '"' :: tail)
    (hfields : readFields fuel text = some (fields, rest)) :
    readValue (fuel + 1) ('\x7b' :: text) = some (.obj fields, rest) := by
  obtain ⟨tail, rfl⟩ := hhead
  simp [readValue, skipSpace_cons, isSpace, hfields]

private theorem readItems_last {item : Json}
    (hitem : readValue fuel text = some (item, ']' :: rest)) :
    readItems (fuel + 1) text = some ([item], rest) := by
  rw [readItems, hitem]
  rfl

private theorem readItems_more {middle : List Char} {item : Json} {items : List Json}
    (hitem : readValue fuel text = some (item, ',' :: middle))
    (hitems : readItems fuel middle = some (items, rest)) :
    readItems (fuel + 1) text = some (item :: items, rest) := by
  simp [readItems, hitem, skipSpace_cons, isSpace, hitems]

private theorem readFields_eq (fuel : Nat) (key : String) (text : List Char) :
    readFields (fuel + 1) (quoted key ++ ':' :: text) =
      match readValue fuel text with
      | none => none
      | some (value, rest) =>
        match skipSpace rest with
        | '\x7d' :: rest => some ([(key, value)], rest)
        | ',' :: rest =>
          match readFields fuel rest with
          | some (fields, rest) => some ((key, value) :: fields, rest)
          | none => none
        | _ => none := by
  have hkey := readString_quoted key (':' :: text)
  rw [quoted, List.cons_append, readFields, skipSpace_cons (by decide)]
  change (match readString ((escapeText key.toList ++ ['"']) ++ ':' :: text) with
    | none => none
    | some (key, rest) => _) = _
  rw [hkey]
  rfl

mutual

theorem readValue_render (value : Json) (fuel : Nat) (hfuel : (render value).length ≤ fuel)
    (rest : List Char) (hrest : Delimited rest) :
    readValue fuel (render value ++ rest) = some (value, rest) := by
  have hpos := length_render_pos value
  cases fuel with
  | zero => omega
  | succ fuel =>
    cases value with
    | null => rfl
    | bool value => cases value <;> rfl
    | num literal =>
      obtain ⟨c, text, htext, hc⟩ := literal.exists_chars_eq_cons
      have hread := readNumber_append literal hrest
      rw [render]
      rw [htext, List.cons_append] at hread ⊢
      rw [readValue_of_isNumberChar hc, hread]
    | str text =>
      rw [render, quoted, List.cons_append, readValue_quote, readString_quoted]
    | arr items =>
      cases items with
      | nil => rw [render]; rfl
      | cons item items =>
        rw [render, List.length_cons, List.length_append] at hfuel
        rw [render, List.cons_append, List.append_assoc]
        obtain ⟨c, text, htext, hspace, hne⟩ := render_head item
        refine readValue_arr ⟨c, _, by rw [htext]; rfl, hspace, hne⟩ ?_
        exact readItems_render item items fuel (by omega) rest
    | obj fields =>
      cases fields with
      | nil => rw [render]; rfl
      | cons field fields =>
        rw [render, List.length_cons, List.length_append] at hfuel
        rw [render, List.cons_append, List.append_assoc]
        refine readValue_obj ⟨_, by rw [renderField, quoted]; rfl⟩ ?_
        exact readFields_render field fields fuel (by omega) rest
termination_by fuel

theorem readItems_render (item : Json) (items : List Json) (fuel : Nat)
    (hfuel : (render item).length + (renderItems items).length ≤ fuel) (rest : List Char) :
    readItems fuel (render item ++ (renderItems items ++ rest)) =
      some (item :: items, rest) := by
  have hpos := length_render_pos item
  cases fuel with
  | zero => omega
  | succ fuel =>
    cases items with
    | nil =>
      rw [renderItems, List.length_singleton] at hfuel
      rw [renderItems]
      refine readItems_last ?_
      exact readValue_render item fuel (by omega) _ (delimited_cons (by decide) _)
    | cons next items =>
      rw [renderItems, List.length_cons, List.length_append] at hfuel
      rw [renderItems, List.cons_append, List.append_assoc]
      refine readItems_more ?_ (readItems_render next items fuel (by omega) rest)
      exact readValue_render item fuel (by omega) _ (delimited_cons (by decide) _)
termination_by fuel

theorem readFields_render (field : String × Json) (fields : List (String × Json)) (fuel : Nat)
    (hfuel : (renderField field).length + (renderFields fields).length ≤ fuel) (rest : List Char) :
    readFields fuel (renderField field ++ (renderFields fields ++ rest)) =
      some (field :: fields, rest) := by
  obtain ⟨key, value⟩ := field
  rw [renderField, List.length_append, List.length_cons] at hfuel
  cases fuel with
  | zero => omega
  | succ fuel =>
    rw [renderField, List.append_assoc, List.cons_append, readFields_eq]
    cases fields with
    | nil =>
      rw [renderFields, List.singleton_append,
        readValue_render value fuel (by omega) _ (delimited_cons (by decide) _)]
      rfl
    | cons next fields =>
      rw [renderFields, List.length_cons, List.length_append] at hfuel
      rw [renderFields, List.cons_append, List.append_assoc,
        readValue_render value fuel (by omega) _ (delimited_cons (by decide) _)]
      simp [skipSpace_cons, isSpace, readFields_render next fields fuel (by omega) rest]
termination_by fuel

end

theorem read_render (value : Json) : read (render value) = some value := by
  have hread := readValue_render value _ (Nat.le_succ _) [] delimited_nil
  rw [List.append_nil] at hread
  rw [read, hread]
  rfl

theorem render_injective : Function.Injective render := by
  intro first second heq
  have hread := congrArg read heq
  simpa [read_render] using hread

instance : DecidableEq Json := fun first second =>
  decidable_of_iff (first.render = second.render) render_injective.eq_iff

end Json

end DataPipe.Foundation
