import DataPipe.Flow.Canonical
import DataPipe.Foundation.JsonCompact

/-!
# The audit log

`Append` and `Verify` of `controlplane/internal/audit/audit.go`.  `Append` hashes
the JSON text of the values it is given; `Verify` decodes the stored texts into
`any` and hashes what it encodes again.  A log that nobody has touched verifies
exactly when every value survives that round trip.
-/

set_option linter.dupNamespace false

namespace DataPipe.ControlPlane

open DataPipe.Foundation DataPipe.Flow

/--
A Go value, as far as `json.Marshal` sees it.  The fields of a struct stand in the order of
their declaration under their JSON names, without those that are omitted; `nilRef` is a nil
pointer, map or slice, and `raw` a `json.RawMessage`.
-/
inductive GoData (floats : Float64Text) where
  | nilRef
  | bool (value : Bool)
  | int (n : Int64)
  | uint (n : UInt64)
  | float (x : Float64 floats)
  | str (text : String)
  | slice (items : List (GoData floats))
  | struct (fields : List (String × GoData floats))
  | map (entries : List (String × GoData floats))
  | raw (document : RawJson)

namespace GoData

variable {floats : Float64Text}

mutual

def marshal : GoData floats → RawJson
  | .nilRef => .null
  | .bool value => .bool value
  | .int n => .num (intLit n.toInt)
  | .uint n => .num (intLit n.toNat)
  | .float x => .num x.literal
  | .str text => .str (.encode text)
  | .slice items => .arr (marshalItems items)
  | .struct fields => .obj ((marshalFields fields).map (Prod.map Literal.encode id))
  -- the entries of a map are written in the order of their keys
  | .map entries =>
    .obj ((sortByKey Prod.fst (marshalFields entries)).map (Prod.map Literal.encode id))
  | .raw document => document

def marshalItems : List (GoData floats) → List RawJson
  | [] => []
  | item :: items => marshal item :: marshalItems items

def marshalField : String × GoData floats → String × RawJson
  | (key, value) => (key, marshal value)

def marshalFields : List (String × GoData floats) → List (String × RawJson)
  | [] => []
  | field :: fields => marshalField field :: marshalFields fields

end

def isNull : GoData floats → Bool
  | .nilRef => true
  | .raw .null => true
  | _ => false

mutual

/--
What survives decoding into an `any`.  A struct becomes a map, whose keys are sorted; an
integer becomes a `float64`; a raw message loses its spelling.
-/
def RoundTrips : GoData floats → Prop
  | .int n => floats.nearest (intLit n.toInt) = some (intLit n.toInt)
  | .uint n => floats.nearest (intLit n.toNat) = some (intLit n.toNat)
  | .slice items => ItemsRoundTrip items
  | .struct fields => Ascending fields ∧ FieldsRoundTrip fields
  | .map entries => (entries.map Prod.fst).Nodup ∧ FieldsRoundTrip entries
  | .raw document => document.Survives floats
  | .nilRef => True
  | .bool _ => True
  | .float _ => True
  | .str _ => True

def ItemsRoundTrip : List (GoData floats) → Prop
  | [] => True
  | item :: items => RoundTrips item ∧ ItemsRoundTrip items

def FieldRoundTrips : String × GoData floats → Prop
  | (_, value) => RoundTrips value

def FieldsRoundTrip : List (String × GoData floats) → Prop
  | [] => True
  | field :: fields => FieldRoundTrips field ∧ FieldsRoundTrip fields

end

theorem map_fst_marshalFields (fields : List (String × GoData floats)) :
    (marshalFields fields).map Prod.fst = fields.map Prod.fst := by
  induction fields with
  | nil => rfl
  | cons field fields ih => rw [marshalFields, marshalField, List.map_cons, List.map_cons, ih]

theorem survives_map_iff {fields : List (String × RawJson)} :
    (RawJson.obj ((sortByKey Prod.fst fields).map (Prod.map Literal.encode id))).Survives floats ↔
      (fields.map Prod.fst).Nodup ∧ ∀ field ∈ fields, field.2.Survives floats := by
  have hperm := perm_sortByKey Prod.fst fields
  have hascending : Ascending (sortByKey Prod.fst fields) ↔ (fields.map Prod.fst).Nodup :=
    ⟨fun h => (hperm.map Prod.fst).nodup_iff.mp (h.imp ne_of_lt), ascending_sortByKey⟩
  rw [RawJson.survives_obj_iff, hascending]
  exact and_congr_right fun _ => forall_congr' fun field => by rw [hperm.mem_iff]

mutual

theorem roundTrips_iff (value : GoData floats) :
    value.RoundTrips ↔ value.marshal.Survives floats := by
  cases value with
  | int | uint => rw [RoundTrips, marshal, RawJson.survives_num_iff]
  | float x => rw [RoundTrips, marshal, RawJson.survives_num_iff, x.nearest]; simp
  | slice items => rw [RoundTrips, marshal, RawJson.survives_arr_iff, itemsRoundTrip_iff items]
  | struct fields =>
    rw [RoundTrips, marshal, RawJson.survives_obj_iff, fieldsRoundTrip_iff fields, Ascending,
      Ascending, map_fst_marshalFields]
  | map entries =>
    rw [RoundTrips, marshal, survives_map_iff, fieldsRoundTrip_iff entries, map_fst_marshalFields]
  | raw document => rw [RoundTrips, marshal]
  | nilRef | bool => exact iff_of_true trivial ⟨rfl, trivial⟩
  | str text => exact iff_of_true trivial ⟨rfl, Literal.isCanonical_encode text⟩

theorem itemsRoundTrip_iff (items : List (GoData floats)) :
    ItemsRoundTrip items ↔ ∀ document ∈ marshalItems items, document.Survives floats := by
  cases items with
  | nil => simp [ItemsRoundTrip, marshalItems]
  | cons item items =>
    rw [ItemsRoundTrip, marshalItems, List.forall_mem_cons, roundTrips_iff item,
      itemsRoundTrip_iff items]

theorem fieldsRoundTrip_iff (fields : List (String × GoData floats)) :
    FieldsRoundTrip fields ↔ ∀ field ∈ marshalFields fields, field.2.Survives floats := by
  match fields with
  | [] => simp [FieldsRoundTrip, marshalFields]
  | (key, value) :: fields =>
    rw [FieldsRoundTrip, FieldRoundTrips, marshalFields, marshalField, List.forall_mem_cons,
      roundTrips_iff value, fieldsRoundTrip_iff fields]

end

theorem isNull_iff (value : GoData floats) : value.isNull = true ↔ value.marshal = .null := by
  cases value with
  | raw document => cases document <;> simp [isNull, marshal]
  | _ => simp [isNull, marshal]

end GoData

/-- `time.Parse` and `Format` with RFC 3339: the text that is written for the time of a text. -/
structure TimeText where
  normal : String → Option String

structure Instant (times : TimeText) where
  text : String
  normal : times.normal text = some text

structure HexDigest extends Digest where
  hex_no_bar : ∀ text, '|' ∉ (hex text).toList

structure AuditEnv where
  floats : Float64Text
  times : TimeText
  digest : HexDigest

structure AuditRow where
  id : String
  seq : Int
  atTime : String
  actorUserID : String
  action : String
  objectType : String
  objectID : String
  projectID : Option String
  beforeJSON : List Char
  afterJSON : List Char
  prevHash : String
  hash : String
  deriving DecidableEq

structure AuditEntry where
  id : String
  seq : Int
  atTime : String
  actorUserID : String
  action : String
  objectType : String
  objectID : String
  projectID : String
  before : Json
  after : Json
  prevHash : String
  hash : String

/-- The text that `computeHash` formats. -/
def hashText (prevHash : String) (seq : Int) (atTime actorUserID action objectType
    objectID : String) (beforeJSON afterJSON : List Char) : List Char :=
  prevHash.toList ++ '|' :: ((intLit seq).chars ++ '|' :: (atTime.toList ++ '|' ::
    (actorUserID.toList ++ '|' :: (action.toList ++ '|' :: (objectType.toList ++ '|' ::
      (objectID.toList ++ '|' :: (beforeJSON ++ '|' :: afterJSON)))))))

namespace AuditEnv

variable (env : AuditEnv)

def computeHash (prevHash : String) (seq : Int) (atTime actorUserID action objectType
    objectID : String) (beforeJSON afterJSON : List Char) : String :=
  env.digest.hex
    (hashText prevHash seq atTime actorUserID action objectType objectID beforeJSON afterJSON)

/-- `marshalOrEmpty` of an argument of `Append`; `none` is nil. -/
def marshalOrEmpty : Option (GoData env.floats) → List Char
  | none => ['\x7b', '\x7d']
  | some value => value.marshal.compactText

/-- `marshalOrEmpty` of a value that was decoded into an `any`; null is nil. -/
def marshalDecoded (value : Json) : List Char :=
  if value = .null then ['\x7b', '\x7d'] else (RawJson.ofJson value).compactText

end AuditEnv

structure AppendCall (env : AuditEnv) where
  actorUserID : String
  action : String
  objectType : String
  objectID : String
  projectID : String
  before : Option (GoData env.floats)
  after : Option (GoData env.floats)
  /-- What `uuid.NewString` and `time.Now` answer. -/
  id : String
  now : Instant env.times

namespace AuditEnv

variable (env : AuditEnv)

def larger : Option AuditRow → AuditRow → Option AuditRow
  | none, row => some row
  | some top, row => if top.seq < row.seq then some row else some top

def tail (table : List AuditRow) : Int × String :=
  match table.foldl larger none with
  | none => (0, "")
  | some row => (row.seq, row.hash)

def newRow (last : Int × String) (call : AppendCall env) : AuditRow where
  id := call.id
  seq := last.1 + 1
  atTime := call.now.text
  actorUserID := call.actorUserID
  action := call.action
  objectType := call.objectType
  objectID := call.objectID
  projectID := if call.projectID = "" then none else some call.projectID
  beforeJSON := env.marshalOrEmpty call.before
  afterJSON := env.marshalOrEmpty call.after
  prevHash := last.2
  hash := env.computeHash last.2 (last.1 + 1) call.now.text call.actorUserID call.action
    call.objectType call.objectID (env.marshalOrEmpty call.before)
    (env.marshalOrEmpty call.after)

def append (table : List AuditRow) (call : AppendCall env) : List AuditRow :=
  table ++ [env.newRow (tail table) call]

def appended (calls : List (AppendCall env)) : List AuditRow := calls.foldl env.append []

end AuditEnv

inductive VerifyError where
  | parsingAt
  | unmarshalingBefore
  | unmarshalingAfter
  | chainBroken (seq : Int)
  | hashMismatch (id : String) (seq : Int)
  deriving DecidableEq, Repr

namespace AuditEnv

variable (env : AuditEnv)

def scanEntry (row : AuditRow) : Except VerifyError AuditEntry :=
  match env.times.normal row.atTime with
  | none => .error .parsingAt
  | some atTime =>
    match RawJson.decoded env.floats row.beforeJSON with
    | none => .error .unmarshalingBefore
    | some before =>
      match RawJson.decoded env.floats row.afterJSON with
      | none => .error .unmarshalingAfter
      | some after =>
        .ok
          { id := row.id
            seq := row.seq
            atTime
            actorUserID := row.actorUserID
            action := row.action
            objectType := row.objectType
            objectID := row.objectID
            projectID := row.projectID.getD ""
            before
            after
            prevHash := row.prevHash
            hash := row.hash }

/-- The hash that `Verify` wants. -/
def want (e : AuditEntry) : String :=
  env.computeHash e.prevHash e.seq e.atTime e.actorUserID e.action e.objectType e.objectID
    (marshalDecoded e.before) (marshalDecoded e.after)

def verifyFrom : String → List AuditRow → Option VerifyError
  | _, [] => none
  | prevHash, row :: rows =>
    match env.scanEntry row with
    | .error err => some err
    | .ok e =>
      if e.prevHash ≠ prevHash then some (.chainBroken e.seq)
      else if env.want e ≠ e.hash then some (.hashMismatch e.id e.seq)
      else verifyFrom e.hash rows

def verify (rows : List AuditRow) : Option VerifyError := env.verifyFrom "" rows

end AuditEnv

/-- The rows of the table in an order that `ORDER BY seq ASC` may give. -/
structure InOrder (table rows : List AuditRow) : Prop where
  perm : rows.Perm table
  ascending : rows.Pairwise (·.seq ≤ ·.seq)

/-- The value that is encoded where an `any` holds null. -/
def nilAsEmpty : Json → Json
  | .null => .obj []
  | value => value

theorem braces_eq_compactText : ['\x7b', '\x7d'] = (RawJson.obj []).compactText := by decide

theorem nilAsEmpty_of_ne_null {value : Json} (h : value ≠ .null) : nilAsEmpty value = value := by
  cases value with
  | null => exact absurd rfl h
  | _ => rfl

namespace AuditEnv

variable {env : AuditEnv} {last : Int × String} {prevHash : String}
  (argument : Option (GoData env.floats))

theorem marshalDecoded_eq (value : Json) :
    marshalDecoded value = (RawJson.ofJson (nilAsEmpty value)).compactText := by
  rw [marshalDecoded]
  split
  next hnull =>
    rw [hnull]
    rfl
  next hnull => rw [nilAsEmpty_of_ne_null hnull]

def document : Option (GoData env.floats) → RawJson
  | none => .obj []
  | some value => value.marshal

theorem marshalOrEmpty_eq : env.marshalOrEmpty argument = (document argument).compactText := by
  cases argument with
  | none => exact braces_eq_compactText
  | some value => rfl

/-- What `Verify` encodes again as it was stored. -/
def Kept : Option (GoData env.floats) → Prop
  | none => True
  | some value => value.isNull = false ∧ value.RoundTrips

theorem eq_null_of_anyValue {floats : Float64Text} {document : RawJson}
    (h : anyValue floats document.value = some .null) : document = .null := by
  cases document with
  | null => rfl
  | bool | str => cases h
  | num | arr | obj => simp [RawJson.value, RawJson.translate, anyValue] at h

theorem marshalDecoded_eq_iff {value : GoData env.floats} {v : Json}
    (hv : anyValue env.floats value.marshal.value = some v) :
    marshalDecoded v = value.marshal.compactText ↔ Kept (some value) := by
  rw [marshalDecoded_eq, Kept, value.roundTrips_iff, ← RawJson.compactText_ofJson_decoded_iff hv]
  by_cases hnull : v = .null
  · subst hnull
    have hmarshal := eq_null_of_anyValue hv
    rw [(value.isNull_iff).mpr hmarshal, hmarshal]
    exact iff_of_false (by decide) (by simp)
  · have hisNull : value.isNull = false := by
      rw [← Bool.not_eq_true, value.isNull_iff]
      intro hmarshal
      rw [hmarshal] at hv
      exact hnull (Option.some.inj hv).symm
    rw [nilAsEmpty_of_ne_null hnull, hisNull]
    simp

theorem map_marshalDecoded_eq_iff :
    (RawJson.decoded env.floats (env.marshalOrEmpty argument)).map marshalDecoded =
      some (env.marshalOrEmpty argument) ↔ Kept argument := by
  rw [marshalOrEmpty_eq, RawJson.decoded_compactText]
  cases argument with
  | none => exact iff_of_true (congrArg some (marshalDecoded_eq _)) trivial
  | some value =>
    rw [document]
    cases hv : anyValue env.floats value.marshal.value with
    | none =>
      refine iff_of_false (by simp) fun h => ?_
      have hdecoded := (value.roundTrips_iff.mp h.2).decoded
      rw [hv] at hdecoded
      cases hdecoded
    | some v => rw [Option.map_some, Option.some_inj, marshalDecoded_eq_iff hv]

section Hashed

variable (env)

/-- The text that `Verify` hashes for a row, if the row can be read. -/
def hashed (row : AuditRow) : Option (List Char) :=
  match env.times.normal row.atTime,
    (RawJson.decoded env.floats row.beforeJSON).map marshalDecoded,
    (RawJson.decoded env.floats row.afterJSON).map marshalDecoded with
  | some atTime, some before, some after =>
    some (hashText row.prevHash row.seq atTime row.actorUserID row.action row.objectType
      row.objectID before after)
  | _, _, _ => none

def Intact (row : AuditRow) : Prop := (env.hashed row).map env.digest.hex = some row.hash

end Hashed

variable {row : AuditRow} {table : List AuditRow} {text : List Char}

theorem hashed_eq_some_iff :
    env.hashed row = some text ↔
      ∃ atTime before after, env.times.normal row.atTime = some atTime ∧
        (RawJson.decoded env.floats row.beforeJSON).map marshalDecoded = some before ∧
        (RawJson.decoded env.floats row.afterJSON).map marshalDecoded = some after ∧
        hashText row.prevHash row.seq atTime row.actorUserID row.action row.objectType
          row.objectID before after = text := by
  rw [hashed]
  split
  next htime hbefore hafter => simp [htime, hbefore, hafter]
  next hnone =>
    constructor
    · intro h
      cases h
    · rintro ⟨atTime, before, after, htime, hbefore, hafter, -⟩
      exact absurd hafter (hnone atTime before after htime hbefore)

variable {rows : List AuditRow}

theorem verifyFrom_cons_eq_none :
    env.verifyFrom prevHash (row :: rows) = none ↔
      row.prevHash = prevHash ∧ env.Intact row ∧ env.verifyFrom row.hash rows = none := by
  rw [verifyFrom, scanEntry, Intact, hashed]
  cases env.times.normal row.atTime with
  | none => simp
  | some atTime =>
    cases RawJson.decoded env.floats row.beforeJSON with
    | none => simp
    | some before =>
      cases RawJson.decoded env.floats row.afterJSON with
      | none => simp
      | some after =>
        by_cases hprev : row.prevHash = prevHash
        · subst hprev
          by_cases hhash : env.digest.hex (hashText row.prevHash row.seq atTime
            row.actorUserID row.action row.objectType row.objectID (marshalDecoded before)
            (marshalDecoded after)) = row.hash
          · simp [want, computeHash, hhash]
          · simp [want, computeHash, hhash]
        · simp [hprev]

theorem intact_of_verifyFrom (h : env.verifyFrom prevHash rows = none) :
    ∀ row ∈ rows, env.Intact row := by
  induction rows generalizing prevHash with
  | nil => simp
  | cons row rows ih =>
    obtain ⟨-, hrow, hrows⟩ := verifyFrom_cons_eq_none.mp h
    exact List.forall_mem_cons.mpr ⟨hrow, ih hrows⟩

theorem marshalDecoded_is_compactText {written : List Char}
    (h : (RawJson.decoded env.floats text).map marshalDecoded = some written) :
    ∃ document : RawJson, written = document.compactText := by
  obtain ⟨value, -, rfl⟩ := Option.map_eq_some_iff.mp h
  exact ⟨_, marshalDecoded_eq value⟩

theorem intact_newRow_iff {call : AppendCall env} :
    env.Intact (env.newRow last call) ↔ Kept call.before ∧ Kept call.after := by
  rw [← map_marshalDecoded_eq_iff, ← map_marshalDecoded_eq_iff]
  constructor
  · intro h
    obtain ⟨text, hhashed, hhash⟩ := Option.map_eq_some_iff.mp h
    obtain ⟨atTime, before, after, htime, hbefore, hafter, rfl⟩ := hashed_eq_some_iff.mp hhashed
    have hnow : atTime = call.now.text := Option.mem_unique htime call.now.normal
    have htext := env.digest.hex_injective hhash
    subst hnow
    simp only [hashText, newRow, List.append_cancel_left_eq, List.cons.injEq, true_and] at htext
    obtain ⟨b, rfl⟩ := marshalDecoded_is_compactText hbefore
    simp only [marshalOrEmpty_eq] at htext
    obtain ⟨hb, ha⟩ := RawJson.compactText_append_bar_inj htext
    rw [hb, ← marshalOrEmpty_eq] at hbefore
    rw [ha, ← marshalOrEmpty_eq] at hafter
    exact ⟨hbefore, hafter⟩
  · rintro ⟨hbefore, hafter⟩
    exact Option.map_eq_some_iff.mpr
      ⟨_, hashed_eq_some_iff.mpr ⟨_, _, _, call.now.normal, hbefore, hafter, rfl⟩, rfl⟩

variable (env) in
def rowsFrom : Int × String → List (AppendCall env) → List AuditRow
  | _, [] => []
  | last, call :: calls =>
    env.newRow last call :: rowsFrom ((env.newRow last call).seq, (env.newRow last call).hash) calls

theorem mem_of_foldl_larger {best : Option AuditRow}
    (h : table.foldl larger best = some row) : best = some row ∨ row ∈ table := by
  induction table generalizing best with
  | nil => exact .inl h
  | cons first table ih =>
    rcases ih h with h | h
    · cases best with
      | none => exact .inr (Option.some.inj h ▸ List.mem_cons_self)
      | some top =>
        rw [larger] at h
        split at h
        · exact .inr (Option.some.inj h ▸ List.mem_cons_self)
        · exact .inl h
    · exact .inr (List.mem_cons_of_mem _ h)

theorem tail_concat (h : ∀ other ∈ table, other.seq < row.seq) :
    tail (table ++ [row]) = (row.seq, row.hash) := by
  rw [tail, List.foldl_append, List.foldl_cons, List.foldl_nil]
  cases hbest : table.foldl larger none with
  | none => rfl
  | some top =>
    have htop : top ∈ table := (mem_of_foldl_larger hbest).resolve_left (by simp)
    rw [larger, if_pos (h top htop)]

theorem foldl_append_eq (calls : List (AppendCall env))
    (h : ∀ row ∈ table, row.seq ≤ (tail table).1) :
    calls.foldl env.append table = table ++ env.rowsFrom (tail table) calls := by
  induction calls generalizing table with
  | nil => rw [List.foldl_nil, rowsFrom, List.append_nil]
  | cons call calls ih =>
    have htail : tail (env.append table call) =
        ((env.newRow (tail table) call).seq, (env.newRow (tail table) call).hash) :=
      tail_concat fun row hrow => Int.lt_add_one_of_le (h row hrow)
    have hle : ∀ row ∈ env.append table call, row.seq ≤ (tail (env.append table call)).1 := by
      rw [htail, append, List.forall_mem_append]
      refine ⟨fun row hrow => ?_, by simp⟩
      exact (Int.lt_add_one_of_le (h row hrow)).le
    rw [List.foldl_cons, ih hle, htail, rowsFrom, append, List.append_assoc, List.singleton_append]

theorem appended_eq (calls : List (AppendCall env)) :
    env.appended calls = env.rowsFrom (0, "") calls :=
  foldl_append_eq calls (by simp)

variable {calls : List (AppendCall env)}

theorem lt_of_mem_rowsFrom (h : row ∈ env.rowsFrom last calls) : last.1 < row.seq := by
  induction calls generalizing last with
  | nil => cases h
  | cons call calls ih =>
    have hfirst : last.1 < (env.newRow last call).seq := Int.lt_succ _
    rcases List.mem_cons.mp h with rfl | h
    · exact hfirst
    · exact hfirst.trans (ih h)

theorem ascending_appended (calls : List (AppendCall env)) :
    (env.appended calls).Pairwise (·.seq < ·.seq) := by
  rw [appended_eq]
  generalize ((0, "") : Int × String) = last
  induction calls generalizing last with
  | nil => exact .nil
  | cons call calls ih => exact .cons (fun row hrow => lt_of_mem_rowsFrom hrow) (ih _)

theorem verifyFrom_rowsFrom_iff (last : Int × String) :
    env.verifyFrom last.2 (env.rowsFrom last calls) = none ↔
      ∀ call ∈ calls, Kept call.before ∧ Kept call.after := by
  induction calls generalizing last with
  | nil => simp [rowsFrom, verifyFrom]
  | cons call calls ih =>
    rw [rowsFrom, verifyFrom_cons_eq_none, intact_newRow_iff, List.forall_mem_cons]
    exact (and_iff_right rfl).trans (and_congr_right fun _ => ih (_, _))

end AuditEnv

variable {table : List AuditRow}

theorem InOrder.eq {rows : List AuditRow} (h : InOrder table rows)
    (hascending : table.Pairwise (·.seq < ·.seq)) : rows = table := by
  refine h.perm.eq_of_pairwise ?_ h.ascending (hascending.imp le_of_lt)
  intro a b ha hb hab hba
  have hseq : a.seq = b.seq := le_antisymm hab hba
  have hnodup : (table.map (·.seq)).Nodup := List.pairwise_map.mpr (hascending.imp ne_of_lt)
  exact List.inj_on_of_nodup_map hnodup (h.perm.mem_iff.mp ha) hb hseq

theorem InOrder.self (h : table.Pairwise (·.seq < ·.seq)) : InOrder table table :=
  ⟨.refl _, h.imp le_of_lt⟩

def barless (text : List Char) : List Char :=
  text.flatMap fun c => if c = '|' then ['a', 'b'] else if c = 'a' then ['a', 'a'] else [c]

def readBarless : List Char → List Char
  | 'a' :: 'b' :: rest => '|' :: readBarless rest
  | 'a' :: _ :: rest => 'a' :: readBarless rest
  | c :: rest => c :: readBarless rest
  | [] => []

theorem readBarless_barless (text : List Char) : readBarless (barless text) = text := by
  induction text with
  | nil => rfl
  | cons c text ih =>
    rw [barless, List.flatMap_cons]
    split
    next hbar =>
      rw [hbar]
      exact congrArg ('|' :: ·) ih
    · split
      next ha =>
        rw [ha]
        exact congrArg ('a' :: ·) ih
      next ha =>
        rw [List.singleton_append, readBarless]
        · exact congrArg (c :: ·) ih
        · exact fun _ hc => absurd hc ha
        · exact fun _ _ hc => absurd hc ha

theorem bar_not_mem_barless (text : List Char) : '|' ∉ barless text := by
  rw [barless, List.mem_flatMap]
  rintro ⟨c, -, hc⟩
  split at hc
  · simp at hc
  · split at hc
    · simp at hc
    next hbar _ => exact hbar (List.mem_singleton.mp hc).symm

def textDigest : HexDigest where
  hex text := String.ofList ('#' :: barless text)
  hex_injective := by
    intro first second h
    have htexts := (List.cons.inj (String.ofList_injective h)).2
    rw [← readBarless_barless first, htexts, readBarless_barless]
  hex_ne_empty := by
    intro text h
    cases String.ofList_injective h
  hex_no_bar := by
    intro text h
    rw [String.toList_ofList] at h
    rcases List.mem_cons.mp h with h | h
    · cases h
    · exact bar_not_mem_barless text h

def plainTimes : TimeText where
  normal := some

def plainEnv : AuditEnv where
  floats := Format.exactFloats
  times := plainTimes
  digest := textDigest

def auditCall (after : Option (GoData plainEnv.floats)) : AppendCall plainEnv where
  actorUserID := "u"
  action := "created"
  objectType := "credential"
  objectID := "c"
  projectID := "p"
  before := none
  after
  id := "e"
  now := ⟨"t", rfl⟩

def credentialMeta : GoData plainEnv.floats :=
  .struct [("id", .str "c"), ("projectId", .str "p"), ("name", .str "n"), ("createdAt", .str "t")]

def credentialLog : List AuditRow := plainEnv.appended [auditCall (some credentialMeta)]

def nilPointerLog : List AuditRow := plainEnv.appended [auditCall (some .nilRef)]

end DataPipe.ControlPlane
