import DataPipe.Foundation.Loop
import DataPipe.Nodes.Convert

/-!
# Records of a file

`engine/nodes/recordformat/parse.go`: the bytes of a file as a list of records.
The readers of `encoding/csv` and `encoding/xml`, `encoding/json`, `strconv` and
`excelize` are parameters; of the two readers it is assumed how they go through
their input.  A loop runs for a number of passes, so that one that does not end
has no result.
-/

set_option linter.dupNamespace false

namespace DataPipe.Nodes.RecordFormat

open DataPipe.Foundation

/-- A Go value as the parsers build it: a number is the bits of a `float64`, a text its bytes. -/
inductive Value where
  | null
  | bool (b : Bool)
  | number (bits : UInt64)
  | text (s : List UInt8)
  | list (items : List Value)
  | object (fields : List (List UInt8 × Value))

def valueOf (fields : List (List UInt8 × Value)) (key : List UInt8) : Value :=
  (fields.lookup key).getD .null

inductive Format where
  | csv
  | tsv
  | json
  | jsonl
  | xml
  | xlsx
  | raw
  | unknown (name : String)
  deriving DecidableEq, Repr

inductive Policy where
  | fail
  | skip
  deriving DecidableEq, Repr

structure CSVConfig where
  delimiter : List UInt8
  hasHeader : Bool
  latin1 : Bool
  deriving DecidableEq, Repr

structure ExcelConfig where
  sheetName : List UInt8
  hasHeader : Bool
  deriving DecidableEq, Repr

structure Options where
  csv : CSVConfig
  excel : ExcelConfig
  jsonRoot : List UInt8
  xmlRecordElement : List UInt8
  malformedRowPolicy : Policy
  deriving DecidableEq, Repr

/-- `validDelim` of `encoding/csv`: the runes that `Comma` may be. -/
def validDelim (r : Nat) : Bool :=
  r ≠ 0 && r ≠ 0x22 && r ≠ 0x0D && r ≠ 0x0A && decide r.isValidChar && r ≠ 0xFFFD

inductive RowRead where
  | row (fields : List (List UInt8))
  | eof
  | error (text : String)
  deriving DecidableEq, Repr

/-- `csv.Reader`: with a valid `Comma` a call of `Read` takes bytes of the input or finds its
end, with an invalid one it fails and takes nothing. -/
structure CSVPackage (Reader : Type) where
  newReader : (comma : Nat) → List UInt8 → Reader
  read : Reader → RowRead × Reader
  comma : Reader → Nat
  unread : Reader → Nat
  comma_newReader : ∀ comma' raw, comma (newReader comma' raw) = comma'
  comma_read : ∀ r, comma (read r).2 = comma r
  read_valid : ∀ r, validDelim (comma r) = true → (read r).1 = .eof ∨ unread (read r).2 < unread r
  read_invalid : ∀ r, validDelim (comma r) = false →
    (∃ text, (read r).1 = .error text) ∧ unread (read r).2 = unread r

inductive Token where
  | start (name : List UInt8)
  | charData (text : List UInt8)
  | stop
  | other
  deriving DecidableEq, Repr

/-- `xml.Decoder`: a document has finitely many tokens; `rank` bounds how many are left. -/
structure XMLPackage (Decoder : Type) where
  newDecoder : List UInt8 → Decoder
  token : Decoder → Except String Token × Decoder
  rank : Decoder → Nat
  token_rank : ∀ d tok, (token d).1 = .ok tok → rank (token d).2 < rank d

structure Packages (Reader Decoder : Type) where
  csv : CSVPackage Reader
  xml : XMLPackage Decoder
  unmarshal : List UInt8 → Except String Value
  parseFloat : List UInt8 → Option UInt64
  sheetRows : List UInt8 → (sheet : List UInt8) → Except String (List (List (List UInt8)))

inductive ParseError where
  | unknownFormat (name : String)
  | delimiter (delim : List UInt8)
  | csvRow (row : Nat) (text : String)
  | json (text : String)
  | jsonRootObject (root key : List UInt8)
  | jsonRootArray (root : List UInt8)
  | jsonlLine (line : Nat) (text : String)
  | lineTooLong
  | xml (text : String)
  | xmlRootNotObject (element : List UInt8)
  | xmlElementMissing (element : List UInt8)
  | xlsx (text : String)
  deriving DecidableEq, Repr

abbrev Parsed := List Value × Option ParseError

def failed (e : ParseError) : Parsed := ([], some e)

def assign (fields : List (List UInt8 × Value)) (key : List UInt8) (v : Value) :
    List (List UInt8 × Value) :=
  if fields.any (·.1 = key) then
    fields.map fun field => if field.1 = key then (key, v) else field
  else fields ++ [(key, v)]

def rowToRecord (header : Option (List (List UInt8))) (row : List (List UInt8)) : Value :=
  match header with
  | some header =>
    .object (header.zipIdx.foldl
      (fun fields (col, i) => assign fields col (.text (row[i]?.getD []))) [])
  | none => .list (row.map .text)

def decodeEncoding (raw : List UInt8) (latin1 : Bool) : List UInt8 :=
  if latin1 then encodeRunes (raw.map fun b => .ofNat b.toNat) else raw

def CSVConfig.delim (cfg : CSVConfig) (format : Format) : List UInt8 :=
  if cfg.delimiter = [] then if format = .tsv then [0x09] else [0x2C]
  else cfg.delimiter

structure CSVState (Reader : Type) where
  reader : Reader
  header : Option (List (List UInt8))
  records : List Value
  rowNum : Nat

section Parsers

variable {Reader Decoder : Type} (lib : Packages Reader Decoder)

/-- One pass of the loop of `parseCSV`. -/
def csvPass (cfg : CSVConfig) (malformedRowPolicy : Policy) (st : CSVState Reader) :
    CSVState Reader ⊕ Parsed :=
  match lib.csv.read st.reader with
  | (.eof, _) => .inr (st.records, none)
  | (.error text, reader) =>
    if malformedRowPolicy = .skip then .inl { st with reader }
    else .inr (failed (.csvRow st.rowNum text))
  | (.row row, reader) =>
    if cfg.hasHeader && st.header.isNone then
      .inl { st with reader, header := some row, rowNum := st.rowNum + 1 }
    else
      .inl { st with
        reader
        records := st.records ++ [rowToRecord st.header row]
        rowNum := st.rowNum + 1 }

def parseCSV (fuel : Nat) (raw : List UInt8) (format : Format) (cfg : CSVConfig)
    (malformedRowPolicy : Policy) : Option Parsed :=
  let raw := decodeEncoding raw cfg.latin1
  match cfg.delim format with
  | [b] =>
    iterate (csvPass lib cfg malformedRowPolicy) fuel
      { reader := lib.csv.newReader b.toNat raw, header := none, records := [], rowNum := 0 }
  | delim => some (failed (.delimiter delim))

def selectRoot (root : List UInt8) : List (List UInt8) → Value → Except ParseError Value
  | [], cur => .ok cur
  | k :: path, .object fields => selectRoot root path (valueOf fields k)
  | k :: _, _ => .error (.jsonRootObject root k)

def parseJSON (raw jsonRoot : List UInt8) : Parsed :=
  match lib.unmarshal raw with
  | .error text => failed (.json text)
  | .ok decoded =>
    if jsonRoot = [] then ([decoded], none)
    else
      match selectRoot jsonRoot (jsonRoot.splitOn 0x2E) decoded with
      | .error e => failed e
      | .ok (.list arr) => (arr, none)
      | .ok _ => failed (.jsonRootArray jsonRoot)

def maxLine : Nat := 10 * 1024 * 1024

inductive LineRead where
  | line (text rest : List UInt8)
  | eof
  | tooLong

/-- `scanner.Scan` with `bufio.ScanLines`: a line must leave room in the buffer. -/
def scanLine (unread : List UInt8) : LineRead :=
  if unread = [] then .eof
  else
    let line := unread.takeWhile (· ≠ 0x0A)
    if maxLine ≤ line.length then .tooLong
    else
      .line (if line.getLast? = some 0x0D then line.dropLast else line)
        (unread.drop (line.length + 1))

structure LinesState where
  unread : List UInt8
  records : List Value
  lineNum : Nat

def linesPass (malformedRowPolicy : Policy) (st : LinesState) : LinesState ⊕ Parsed :=
  match scanLine st.unread with
  | .eof => .inr (st.records, none)
  | .tooLong => .inr (st.records, some .lineTooLong)
  | .line text unread =>
    let st := { st with unread, lineNum := st.lineNum + 1 }
    let line := trimSpace text
    if line = [] then .inl st
    else
      match lib.unmarshal line with
      | .error text =>
        if malformedRowPolicy = .skip then .inl st
        else .inr (failed (.jsonlLine st.lineNum text))
      | .ok v => .inl { st with records := st.records ++ [v] }

def parseJSONLines (fuel : Nat) (raw : List UInt8) (malformedRowPolicy : Policy) : Option Parsed :=
  iterate (linesPass lib malformedRowPolicy) fuel { unread := raw, records := [], lineNum := 0 }

def parseBool (s : List UInt8) : Option Bool :=
  let word (text : String) := s = text.toUTF8.toList
  if word "1" || word "t" || word "T" || word "true" || word "TRUE" || word "True" then some true
  else if word "0" || word "f" || word "F" || word "false" || word "FALSE" || word "False" then
    some false
  else none

def parseScalar (s : List UInt8) : Value :=
  if s = [] then .null
  else
    match lib.parseFloat s with
    | some bits => .number bits
    | none =>
      match parseBool s with
      | some b => .bool b
      | none => .text s

/-- What `parseXMLElement` has collected of an element. -/
structure Element where
  children : List (List UInt8 × List Value) := []
  text : List UInt8 := []

def Element.addChild (e : Element) (name : List UInt8) (child : Value) : Element :=
  { e with
    children :=
      if e.children.any (·.1 = name) then
        e.children.map fun group => if group.1 = name then (name, group.2 ++ [child]) else group
      else e.children ++ [(name, [child])] }

def Element.value (e : Element) : Value :=
  if e.children = [] then parseScalar lib (trimSpace e.text)
  else
    .object (e.children.map fun (name, values) =>
      match values with
      | [v] => (name, v)
      | values => (name, .list values))

def parseXMLElement : Nat → Decoder → Element → Option (Except String Value × Decoder)
  | 0, _, _ => none
  | fuel + 1, dec, e =>
    match lib.xml.token dec with
    | (.error text, dec) => some (.error text, dec)
    | (.ok (.start name), dec) =>
      match parseXMLElement fuel dec {} with
      | none => none
      | some (.error text, dec) => some (.error text, dec)
      | some (.ok child, dec) => parseXMLElement fuel dec (e.addChild name child)
    | (.ok (.charData text), dec) => parseXMLElement fuel dec { e with text := e.text ++ text }
    | (.ok .stop, dec) => some (.ok (e.value lib), dec)
    | (.ok .other, dec) => parseXMLElement fuel dec e

/-- `XMLToJSON` of `engine/nodes/convert/xml.go`. -/
def xmlToJSON : Nat → Decoder → Option (Except String Value)
  | 0, _ => none
  | fuel + 1, dec =>
    match lib.xml.token dec with
    | (.error text, _) => some (.error text)
    | (.ok (.start _), dec) => (parseXMLElement lib fuel dec {}).map Prod.fst
    | (.ok _, dec) => xmlToJSON fuel dec

def xmlRecords (recordElement : List UInt8) : Except String Value → Parsed
  | .error text => failed (.xml text)
  | .ok decoded =>
    if recordElement = [] then ([decoded], none)
    else
      match decoded with
      | .object fields =>
        match fields.lookup recordElement with
        | none => failed (.xmlElementMissing recordElement)
        | some (.list arr) => (arr, none)
        | some v => ([v], none)
      | _ => failed (.xmlRootNotObject recordElement)

def parseXML (fuel : Nat) (raw recordElement : List UInt8) : Option Parsed :=
  (xmlToJSON lib fuel (lib.xml.newDecoder raw)).map (xmlRecords recordElement)

/-- A first row without cells is `nil`, which is no header. -/
def parseExcel (raw : List UInt8) (cfg : ExcelConfig) : Parsed :=
  match lib.sheetRows raw cfg.sheetName with
  | .error text => failed (.xlsx text)
  | .ok rows =>
    if cfg.hasHeader then
      let header := rows.head?.filter (· ≠ [])
      (rows.tail.map (rowToRecord header), none)
    else (rows.map (rowToRecord none), none)

def parseRecords (fuel : Nat) (format : Format) (raw : List UInt8) (opts : Options) :
    Option Parsed :=
  match format with
  | .csv | .tsv => parseCSV lib fuel raw format opts.csv opts.malformedRowPolicy
  | .json => some (parseJSON lib raw opts.jsonRoot)
  | .jsonl => parseJSONLines lib fuel raw opts.malformedRowPolicy
  | .xml => parseXML lib fuel raw opts.xmlRecordElement
  | .xlsx => some (parseExcel lib raw opts.excel)
  | .raw => some ([.text raw], none)
  | .unknown name => some (failed (.unknownFormat name))

variable {cfg : CSVConfig} {policy : Policy} {dec : Decoder}
variable {lib} (raw : List UInt8) (format : Format)

variable {st next : CSVState Reader}

theorem csvPass_cases (h : csvPass lib cfg policy st = .inl next) :
    next.reader = (lib.csv.read st.reader).2 ∧ (lib.csv.read st.reader).1 ≠ .eof ∧
      ((∃ text, (lib.csv.read st.reader).1 = .error text) → policy = .skip) := by
  revert h
  fun_cases csvPass lib cfg policy st <;> rintro ⟨⟩ <;> simp_all

theorem csvPass_unread (hvalid : validDelim (lib.csv.comma st.reader) = true)
    (h : csvPass lib cfg policy st = .inl next) :
    validDelim (lib.csv.comma next.reader) = true ∧
      lib.csv.unread next.reader < lib.csv.unread st.reader := by
  obtain ⟨hreader, heof, -⟩ := csvPass_cases h
  rw [hreader, lib.csv.comma_read]
  exact ⟨hvalid, (lib.csv.read_valid _ hvalid).resolve_left heof⟩

theorem csvPass_stuck (hinvalid : validDelim (lib.csv.comma st.reader) = false) :
    ∃ next, csvPass lib cfg .skip st = .inl next ∧
      validDelim (lib.csv.comma next.reader) = false := by
  obtain ⟨⟨text, htext⟩, -⟩ := lib.csv.read_invalid _ hinvalid
  refine ⟨{ st with reader := (lib.csv.read st.reader).2 }, ?_, ?_⟩
  · rw [csvPass]
    rcases hread : lib.csv.read st.reader with ⟨result, reader⟩
    rw [hread] at htext
    cases htext
    rfl
  · rw [lib.csv.comma_read]
    exact hinvalid

theorem csvPass_never_ends (cfg : CSVConfig) (st : CSVState Reader)
    (hinvalid : validDelim (lib.csv.comma st.reader) = false) (fuel : Nat) :
    iterate (csvPass lib cfg .skip) fuel st = none :=
  iterate_never_ends (fun st : CSVState Reader => validDelim (lib.csv.comma st.reader) = false)
    (fun _ h => csvPass_stuck h) hinvalid fuel

theorem csvPass_fails (cfg : CSVConfig) (st : CSVState Reader)
    (hinvalid : validDelim (lib.csv.comma st.reader) = false) :
    ∃ result, csvPass lib cfg .fail st = .inr result := by
  cases hpass : csvPass lib cfg .fail st with
  | inr result => exact ⟨result, rfl⟩
  | inl next =>
    have hskip := (csvPass_cases hpass).2.2 (lib.csv.read_invalid _ hinvalid).1
    cases hskip

/-- The delimiters that `encoding/csv` refuses. -/
def CSVConfig.refused (cfg : CSVConfig) (format : Format) : Bool :=
  match cfg.delim format with
  | [b] => !validDelim b.toNat
  | _ => false

theorem parseCSV_returns_iff (cfg : CSVConfig) (policy : Policy) :
    (∃ fuel result, parseCSV lib fuel raw format cfg policy = some result) ↔
      ¬ (policy = .skip ∧ cfg.refused format = true) := by
  unfold parseCSV CSVConfig.refused
  split
  next b _ =>
    have hcomma := lib.csv.comma_newReader b.toNat (decodeEncoding raw cfg.latin1)
    cases hvalid : validDelim b.toNat with
    | true =>
      simp only [Bool.not_true, Bool.false_eq_true, and_false, not_false_iff, iff_true]
      let st : CSVState Reader :=
        ⟨lib.csv.newReader b.toNat (decodeEncoding raw cfg.latin1), none, [], 0⟩
      have hst : validDelim (lib.csv.comma st.reader) = true := hcomma ▸ hvalid
      obtain ⟨result, hresult, -⟩ := iterate_ends
        (fun st : CSVState Reader => validDelim (lib.csv.comma st.reader) = true)
        (fun _ => True) (fun st => lib.csv.unread st.reader) (fun h => csvPass_unread h)
        (fun _ _ => trivial) hst (Nat.lt_succ_self _)
      exact ⟨_, result, hresult⟩
    | false =>
      rw [← hcomma] at hvalid
      cases policy with
      | skip =>
        simp only [Bool.not_false, and_self, not_true, iff_false]
        rintro ⟨fuel, result, hresult⟩
        have hnone := csvPass_never_ends cfg ⟨_, none, [], 0⟩ hvalid fuel
        cases hnone.symm.trans hresult
      | fail =>
        simp only [reduceCtorEq, false_and, not_false_iff, iff_true]
        obtain ⟨result, hpass⟩ := csvPass_fails cfg ⟨_, none, [], 0⟩ hvalid
        exact ⟨1, result, iterate_succ_of_inr hpass 0⟩
  · simp only [Bool.false_eq_true, and_false, not_false_iff, iff_true]
    exact ⟨0, _, rfl⟩

theorem scanLine_shorter {unread text rest : List UInt8}
    (h : scanLine unread = .line text rest) : rest.length < unread.length := by
  revert h
  fun_cases scanLine unread <;> rintro ⟨⟩
  next hunread _ _ =>
    have hpos := List.length_pos_iff.mpr hunread
    rw [List.length_drop]
    omega

theorem linesPass_unread {st next : LinesState}
    (h : linesPass lib policy st = .inl next) : next.unread.length < st.unread.length := by
  revert h
  fun_cases linesPass lib policy st <;> intro h <;>
    first
    | contradiction
    | rw [← Sum.inl.inj h]
      exact scanLine_shorter (by assumption)

theorem parseJSONLines_returns (policy : Policy) :
    ∃ fuel result, parseJSONLines lib fuel raw policy = some result := by
  obtain ⟨result, hresult, -⟩ := iterate_ends (fun _ => True) (fun _ => True)
    (fun st : LinesState => st.unread.length) (fun _ h => ⟨trivial, linesPass_unread h⟩)
    (fun _ _ => trivial) trivial (Nat.lt_succ_self _)
  exact ⟨raw.length + 1, result, hresult⟩

theorem token_rank_of_eq {after : Decoder} {tok : Token}
    (h : lib.xml.token dec = (.ok tok, after)) : lib.xml.rank after < lib.xml.rank dec := by
  have hlower := lib.xml.token_rank dec tok (by rw [h])
  rwa [h] at hlower

variable {fuel : Nat}

theorem parseXMLElement_returns (e : Element) (hfuel : lib.xml.rank dec < fuel) :
    ∃ result after, parseXMLElement lib fuel dec e = some (result, after) ∧
      ∀ v, result = .ok v → lib.xml.rank after < lib.xml.rank dec := by
  induction fuel generalizing dec e with
  | zero => contradiction
  | succ fuel ih =>
    rw [parseXMLElement]
    rcases htoken : lib.xml.token dec with ⟨tok, after⟩
    cases tok with
    | error text => exact ⟨_, _, rfl, nofun⟩
    | ok tok =>
      have hlower := token_rank_of_eq htoken
      -- Every other case goes on after the token.
      have hrest : ∀ e, ∃ result last, parseXMLElement lib fuel after e = some (result, last) ∧
          ∀ v, result = .ok v → lib.xml.rank last < lib.xml.rank dec := by
        intro e
        obtain ⟨result, last, hresult, hlast⟩ := ih e (show lib.xml.rank after < fuel by omega)
        exact ⟨result, last, hresult, fun v hv => Nat.lt_trans (hlast v hv) hlower⟩
      cases tok with
      | stop => exact ⟨_, _, rfl, fun _ _ => hlower⟩
      | charData | other => exact hrest _
      | start name =>
        obtain ⟨result, last, hresult, hlast⟩ := hrest {}
        dsimp only
        rw [hresult]
        cases result with
        | error text => exact ⟨_, _, rfl, nofun⟩
        | ok child =>
          have hchild := hlast child rfl
          obtain ⟨result, final, hfinal, hrank⟩ := ih (e.addChild name child)
            (show lib.xml.rank last < fuel by omega)
          exact ⟨result, final, hfinal, fun v hv => Nat.lt_trans (hrank v hv) hchild⟩

theorem xmlToJSON_returns (hfuel : lib.xml.rank dec < fuel) :
    ∃ result, xmlToJSON lib fuel dec = some result := by
  induction fuel generalizing dec with
  | zero => contradiction
  | succ fuel ih =>
    rw [xmlToJSON]
    rcases htoken : lib.xml.token dec with ⟨tok, after⟩
    cases tok with
    | error text => exact ⟨_, rfl⟩
    | ok tok =>
      have hlower := token_rank_of_eq htoken
      cases tok with
      | start name =>
        obtain ⟨result, last, hresult, -⟩ :=
          parseXMLElement_returns {} (show lib.xml.rank after < fuel by omega)
        exact ⟨result, by dsimp only; rw [hresult]; rfl⟩
      | charData | stop | other => exact ih (by omega)

theorem parseXML_returns (recordElement : List UInt8) :
    ∃ fuel result, parseXML lib fuel raw recordElement = some result := by
  obtain ⟨result, hresult⟩ :=
    xmlToJSON_returns (Nat.lt_succ_self (lib.xml.rank (lib.xml.newDecoder raw)))
  exact ⟨_, xmlRecords recordElement result, by rw [parseXML, hresult]; rfl⟩

theorem validDelim_eq_false {b : UInt8} :
    validDelim b.toNat = false ↔ b = 0x00 ∨ b = 0x22 ∨ b = 0x0D ∨ b = 0x0A := by
  have hb : b.toNat < 256 := b.toNat_lt
  have hchar : b.toNat.isValidChar := .inl (by omega)
  have hreplacement : b.toNat ≠ 0xFFFD := by omega
  simp only [validDelim, hchar, hreplacement, decide_true, ne_eq, decide_not, not_false_iff,
    Bool.and_true, Bool.and_eq_false_iff, Bool.not_eq_false', decide_eq_true_eq, ← UInt8.toNat_inj]
  simp only [UInt8.reduceToNat, or_assoc]

theorem refused_iff (cfg : CSVConfig) (format : Format) :
    cfg.refused format = true ↔
      cfg.delimiter = [0x00] ∨ cfg.delimiter = [0x22] ∨ cfg.delimiter = [0x0D] ∨
        cfg.delimiter = [0x0A] := by
  unfold CSVConfig.refused CSVConfig.delim
  by_cases hempty : cfg.delimiter = []
  · by_cases htsv : format = .tsv <;> simp only [hempty, htsv] <;> decide
  · rw [if_neg hempty]
    split
    next b hdelim =>
      rw [hdelim, Bool.not_eq_true', validDelim_eq_false]
      simp only [List.cons.injEq, and_true]
    next hother =>
      have hne : ∀ b, cfg.delimiter ≠ [b] := fun b => hother b
      simp only [Bool.false_eq_true, hne, or_self]

/-- Parsing returns unless malformed rows are skipped and every row is malformed because the
delimiter is. -/
theorem parseRecords_returns_iff (lib : Packages Reader Decoder) (format : Format)
    (raw : List UInt8) (opts : Options) :
    (∃ fuel result, parseRecords lib fuel format raw opts = some result) ↔
      ¬ ((format = .csv ∨ format = .tsv) ∧ opts.malformedRowPolicy = .skip ∧
        (opts.csv.delimiter = [0x00] ∨ opts.csv.delimiter = [0x22] ∨
          opts.csv.delimiter = [0x0D] ∨ opts.csv.delimiter = [0x0A])) := by
  rw [← refused_iff opts.csv format]
  cases format with
  | csv =>
    simp only [true_or, true_and]
    exact parseCSV_returns_iff raw .csv opts.csv opts.malformedRowPolicy
  | tsv =>
    simp only [or_true, true_and]
    exact parseCSV_returns_iff raw .tsv opts.csv opts.malformedRowPolicy
  | jsonl =>
    simp only [reduceCtorEq, or_self, false_and, not_false_iff, iff_true]
    exact parseJSONLines_returns raw opts.malformedRowPolicy
  | xml =>
    simp only [reduceCtorEq, or_self, false_and, not_false_iff, iff_true]
    exact parseXML_returns raw opts.xmlRecordElement
  | _ =>
    simp only [reduceCtorEq, or_self, false_and, not_false_iff, iff_true]
    exact ⟨0, _, rfl⟩

end Parsers

structure LineReader where
  comma : Nat
  unread : List UInt8
  deriving DecidableEq, Repr

def LineReader.read (r : LineReader) : RowRead × LineReader :=
  if validDelim r.comma then
    match r.unread.dropWhile (· = 0x0A) with
    | [] => (.eof, { r with unread := [] })
    | b :: unread =>
      let line := (b :: unread).takeWhile (· ≠ 0x0A)
      (.row (line.splitOnP (·.toNat = r.comma)), { r with unread := unread.drop line.length })
  else (.error "csv: invalid field or comment delimiter", r)

variable (r : LineReader)

theorem LineReader.comma_read : r.read.2.comma = r.comma := by
  unfold LineReader.read
  split
  · split <;> rfl
  · rfl

theorem LineReader.read_valid (h : validDelim r.comma = true) :
    r.read.1 = .eof ∨ r.read.2.unread.length < r.unread.length := by
  unfold LineReader.read
  rw [if_pos h]
  split
  · exact .inl rfl
  next b unread hdrop =>
    right
    have hsuffix := (List.dropWhile_suffix (l := r.unread) (fun b => b = 0x0A)).length_le
    rw [hdrop, List.length_cons] at hsuffix
    rw [List.length_drop]
    omega

theorem LineReader.read_invalid (h : validDelim r.comma = false) :
    (∃ text, r.read.1 = .error text) ∧ r.read.2.unread.length = r.unread.length := by
  have hread : r.read = (.error "csv: invalid field or comment delimiter", r) := by
    unfold LineReader.read
    rw [if_neg (by rw [h]; decide)]
  rw [hread]
  exact ⟨⟨_, rfl⟩, rfl⟩

def textPackages : Packages LineReader Unit where
  csv :=
    { newReader := .mk
      read := LineReader.read
      comma := LineReader.comma
      unread := fun r => r.unread.length
      comma_newReader := fun _ _ => rfl
      comma_read := LineReader.comma_read
      read_valid := LineReader.read_valid
      read_invalid := LineReader.read_invalid }
  xml :=
    { newDecoder := fun _ => ()
      token := fun d => (.error "EOF", d)
      rank := fun _ => 0
      token_rank := nofun }
  unmarshal _ := .error "unexpected end of JSON input"
  parseFloat _ := none
  sheetRows _ _ := .error "zip: not a valid zip file"

def quoteOptions : Options where
  csv := { delimiter := [0x22], hasHeader := false, latin1 := false }
  excel := { sheetName := [], hasHeader := false }
  jsonRoot := []
  xmlRecordElement := []
  malformedRowPolicy := .skip

theorem quote_delimiter_never_returns :
    ¬ ∃ fuel result,
      parseRecords textPackages fuel .csv [0x61, 0x0A] quoteOptions = some result := by
  intro hreturns
  have hrefused : quoteOptions.csv.refused .csv = true := by decide
  exact (parseCSV_returns_iff [0x61, 0x0A] .csv quoteOptions.csv .skip).mp hreturns ⟨rfl, hrefused⟩

end DataPipe.Nodes.RecordFormat
