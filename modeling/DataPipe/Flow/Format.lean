import DataPipe.Flow.Fingerprint
import DataPipe.Foundation.Unmarshal

/-!
# The flow file format

The whole flow file of `engine/flow/file.go` with the types it has there, `Parse`
and `MarshalCanonical` of `engine/flow/canonical.go`.  An absent slice, map or
pointer is empty or `none`; a configuration is kept as it is written.  The list
`fields` of a struct is its JSON encoding, a field that is omitted when empty being
`none`.
-/

namespace DataPipe.Flow.Format

open DataPipe.Foundation

structure RuntimeAssignment where
  group : String := ""

structure Settings where
  errorFlow : String := ""
  guaranteedDelivery : Bool := false
  maxConcurrency : Option Int64 := none
  concurrencyPolicy : String := ""
  executionTimeoutMs : Option Int64 := none

structure EnvVar (floats : Float64Text) where
  name : String := ""
  typeName : String := ""
  defaultValue : GoValue floats := .nil floats

structure RetryPolicy where
  max : Int64 := 0
  backoffMs : Int64 := 0
  maxBackoffMs : Int64 := 0
  jitter : Bool := false

structure StoreForwardPolicy where
  maxSizeMb : Int64 := 0
  maxAgeSec : Int64 := 0

structure ErrorPolicy where
  onError : String := ""
  retry : Option RetryPolicy := none
  storeForward : Option StoreForwardPolicy := none

structure Node where
  id : String := ""
  typeName : String := ""
  typeVersion : Int64 := 0
  name : String := ""
  disabled : Bool := false
  connection : String := ""
  config : Option RawJson := none
  errorPolicy : Option ErrorPolicy := none
  overflow : String := ""

structure Graph where
  nodes : List Node := []
  wires : List Wire := []

structure NodePosition (floats : Float64Text) where
  x : Float64 floats := .zero floats
  y : Float64 floats := .zero floats

structure Group where
  id : String := ""
  label : String := ""
  nodes : List String := []
  color : String := ""
  deriving DecidableEq

structure Note (floats : Float64Text) where
  id : String := ""
  x : Float64 floats := .zero floats
  y : Float64 floats := .zero floats
  md : String := ""

structure Layout (floats : Float64Text) where
  nodes : KeyMap (NodePosition floats) := .empty
  groups : List Group := []
  notes : List (Note floats) := []

structure Port where
  port : String := ""
  description : String := ""

structure SubflowParam (floats : Float64Text) where
  name : String := ""
  typeName : String := ""
  defaultValue : GoValue floats := .nil floats
  connectionType : String := ""

structure SubflowInterface (floats : Float64Text) where
  inputs : List Port := []
  outputs : List Port := []
  params : List (SubflowParam floats) := []

structure FlowFile (floats : Float64Text) where
  formatVersion : Int64 := 0
  kind : String := ""
  id : String := ""
  name : String := ""
  description : String := ""
  mode : String := ""
  disabled : Bool := false
  runtimeAssignment : Option RuntimeAssignment := none
  settings : Settings := {}
  env : List (EnvVar floats) := []
  graph : Graph := {}
  layout : Option (Layout floats) := none
  interface : Option (SubflowInterface floats) := none

def intJson (n : Int64) : Json := .num (intLit n.toInt)

def nonEmptyItems : List Json → Option Json
  | [] => none
  | item :: items => some (.arr (item :: items))

def sliceJson : List Json → Json
  | [] => .null
  | item :: items => .arr (item :: items)

def nonEmptyMap : List (String × Json) → Option Json
  | [] => none
  | field :: fields => some (.obj (field :: fields))

section Fields

variable {floats : Float64Text}

def nonNil (v : GoValue floats) : Option Json :=
  match v.json with
  | .null => none
  | json => some json

def RuntimeAssignment.fields (a : RuntimeAssignment) : List (String × Option Json) :=
  [("group", nonEmpty a.group)]

def Settings.fields (s : Settings) : List (String × Option Json) :=
  [("errorFlow", nonEmpty s.errorFlow),
    ("guaranteedDelivery", nonFalse s.guaranteedDelivery),
    ("maxConcurrency", s.maxConcurrency.map intJson),
    ("concurrencyPolicy", nonEmpty s.concurrencyPolicy),
    ("executionTimeoutMs", s.executionTimeoutMs.map intJson)]

def EnvVar.fields (v : EnvVar floats) : List (String × Option Json) :=
  [("name", some (.str v.name)),
    ("type", some (.str v.typeName)),
    ("default", nonNil v.defaultValue)]

def RetryPolicy.fields (p : RetryPolicy) : List (String × Option Json) :=
  [("max", nonZero p.max.toInt),
    ("backoffMs", nonZero p.backoffMs.toInt),
    ("maxBackoffMs", nonZero p.maxBackoffMs.toInt),
    ("jitter", nonFalse p.jitter)]

def StoreForwardPolicy.fields (p : StoreForwardPolicy) : List (String × Option Json) :=
  [("maxSizeMb", nonZero p.maxSizeMb.toInt), ("maxAgeSec", nonZero p.maxAgeSec.toInt)]

def ErrorPolicy.fields (p : ErrorPolicy) : List (String × Option Json) :=
  [("onError", nonEmpty p.onError),
    ("retry", p.retry.map fun retry => object retry.fields),
    ("storeForward", p.storeForward.map fun policy => object policy.fields)]

def Node.fields (n : Node) : List (String × Option Json) :=
  [("id", some (.str n.id)),
    ("type", some (.str n.typeName)),
    ("typeVersion", some (intJson n.typeVersion)),
    ("name", nonEmpty n.name),
    ("disabled", nonFalse n.disabled),
    ("connection", nonEmpty n.connection),
    ("config", n.config.map RawJson.value),
    ("errorPolicy", n.errorPolicy.map fun policy => object policy.fields),
    ("overflow", nonEmpty n.overflow)]

def endpointFields (e : Endpoint) : List (String × Option Json) :=
  [("node", some (.str e.node)), ("port", some (.str e.port))]

def wireFields (w : Wire) : List (String × Option Json) :=
  [("id", some (.str w.id)),
    ("from", some (object (endpointFields w.fromEnd))),
    ("to", some (object (endpointFields w.toEnd)))]

def Graph.fields (g : Graph) : List (String × Option Json) :=
  [("nodes", some (sliceJson (g.nodes.map fun n => object n.fields))),
    ("wires", some (sliceJson (g.wires.map fun w => object (wireFields w))))]

def NodePosition.fields (p : NodePosition floats) : List (String × Option Json) :=
  [("x", some (.num p.x.literal)), ("y", some (.num p.y.literal))]

def Group.fields (g : Group) : List (String × Option Json) :=
  [("id", some (.str g.id)),
    ("label", nonEmpty g.label),
    ("nodes", nonEmptyItems (g.nodes.map .str)),
    ("color", nonEmpty g.color)]

def Note.fields (n : Note floats) : List (String × Option Json) :=
  [("id", some (.str n.id)),
    ("x", some (.num n.x.literal)),
    ("y", some (.num n.y.literal)),
    ("md", nonEmpty n.md)]

def Layout.fields (l : Layout floats) : List (String × Option Json) :=
  [("nodes", nonEmptyMap (l.nodes.entries.map (Prod.map id fun p => object p.fields))),
    ("groups", nonEmptyItems (l.groups.map fun g => object g.fields)),
    ("notes", nonEmptyItems (l.notes.map fun n => object n.fields))]

def Port.fields (p : Port) : List (String × Option Json) :=
  [("port", some (.str p.port)), ("description", nonEmpty p.description)]

def SubflowParam.fields (p : SubflowParam floats) : List (String × Option Json) :=
  [("name", some (.str p.name)),
    ("type", some (.str p.typeName)),
    ("default", nonNil p.defaultValue),
    ("connectionType", nonEmpty p.connectionType)]

def SubflowInterface.fields (i : SubflowInterface floats) : List (String × Option Json) :=
  [("inputs", nonEmptyItems (i.inputs.map fun p => object p.fields)),
    ("outputs", nonEmptyItems (i.outputs.map fun p => object p.fields)),
    ("params", nonEmptyItems (i.params.map fun p => object p.fields))]

def FlowFile.fields (f : FlowFile floats) : List (String × Option Json) :=
  [("formatVersion", some (intJson f.formatVersion)),
    ("kind", some (.str f.kind)),
    ("id", some (.str f.id)),
    ("name", some (.str f.name)),
    ("description", nonEmpty f.description),
    ("mode", nonEmpty f.mode),
    ("disabled", nonFalse f.disabled),
    ("runtimeAssignment", f.runtimeAssignment.map fun a => object a.fields),
    ("settings", some (object f.settings.fields)),
    ("env", nonEmptyItems (f.env.map fun v => object v.fields)),
    ("graph", some (object f.graph.fields)),
    ("layout", f.layout.map fun l => object l.fields),
    ("interface", f.interface.map fun i => object i.fields)]

def FlowFile.sorted (f : FlowFile floats) : FlowFile floats :=
  { f with
    env := sortByKey EnvVar.name f.env
    graph :=
      { nodes := sortByKey Node.id f.graph.nodes
        wires := sortByKey Wire.id f.graph.wires } }

/--
The value is read into maps and written again with indentation.  The text of
`json.Marshal` that the source reads here denotes the value it is made from.
-/
def canonicalizeJSON (v : Json) : List Char := (RawJson.ofJson v.canonical).print

def FlowFile.marshalCanonical (f : FlowFile floats) : List Char :=
  canonicalizeJSON (object f.sorted.fields)

def RuntimeAssignment.decode : Decoder RuntimeAssignment := fun old =>
  decodeStruct (({} : RuntimeAssignment).fields.map Prod.fst) old fun field => do
    some
      { group := ← field "group" decodeString old.group }

def Settings.decode : Decoder Settings := fun old =>
  decodeStruct (({} : Settings).fields.map Prod.fst) old fun field => do
    some
      { errorFlow := ← field "errorFlow" decodeString old.errorFlow
        guaranteedDelivery := ← field "guaranteedDelivery" decodeBool old.guaranteedDelivery
        maxConcurrency := ← field "maxConcurrency" (decodePointer decodeInt 0) old.maxConcurrency
        concurrencyPolicy := ← field "concurrencyPolicy" decodeString old.concurrencyPolicy
        executionTimeoutMs :=
          ← field "executionTimeoutMs" (decodePointer decodeInt 0) old.executionTimeoutMs }

def EnvVar.decode : Decoder (EnvVar floats) := fun old =>
  decodeStruct (({} : EnvVar floats).fields.map Prod.fst) old fun field => do
    some
      { name := ← field "name" decodeString old.name
        typeName := ← field "type" decodeString old.typeName
        defaultValue := ← field "default" (decodeAny floats) old.defaultValue }

def RetryPolicy.decode : Decoder RetryPolicy := fun old =>
  decodeStruct (({} : RetryPolicy).fields.map Prod.fst) old fun field => do
    some
      { max := ← field "max" decodeInt old.max
        backoffMs := ← field "backoffMs" decodeInt old.backoffMs
        maxBackoffMs := ← field "maxBackoffMs" decodeInt old.maxBackoffMs
        jitter := ← field "jitter" decodeBool old.jitter }

def StoreForwardPolicy.decode : Decoder StoreForwardPolicy := fun old =>
  decodeStruct (({} : StoreForwardPolicy).fields.map Prod.fst) old fun field => do
    some
      { maxSizeMb := ← field "maxSizeMb" decodeInt old.maxSizeMb
        maxAgeSec := ← field "maxAgeSec" decodeInt old.maxAgeSec }

def ErrorPolicy.decode : Decoder ErrorPolicy := fun old =>
  decodeStruct (({} : ErrorPolicy).fields.map Prod.fst) old fun field => do
    some
      { onError := ← field "onError" decodeString old.onError
        retry := ← field "retry" (decodePointer RetryPolicy.decode {}) old.retry
        storeForward :=
          ← field "storeForward" (decodePointer StoreForwardPolicy.decode {}) old.storeForward }

def Node.decode : Decoder Node := fun old =>
  decodeStruct (({} : Node).fields.map Prod.fst) old fun field => do
    some
      { id := ← field "id" decodeString old.id
        typeName := ← field "type" decodeString old.typeName
        typeVersion := ← field "typeVersion" decodeInt old.typeVersion
        name := ← field "name" decodeString old.name
        disabled := ← field "disabled" decodeBool old.disabled
        connection := ← field "connection" decodeString old.connection
        config := ← field "config" decodeRaw old.config
        errorPolicy := ← field "errorPolicy" (decodePointer ErrorPolicy.decode {}) old.errorPolicy
        overflow := ← field "overflow" decodeString old.overflow }

def decodeEndpoint : Decoder Endpoint := fun old =>
  decodeStruct ["node", "port"] old fun field => do
    some
      { node := ← field "node" decodeString old.node
        port := ← field "port" decodeString old.port }

def decodeWire : Decoder Wire := fun old =>
  decodeStruct ["id", "from", "to"] old fun field => do
    some
      { id := ← field "id" decodeString old.id
        fromEnd := ← field "from" decodeEndpoint old.fromEnd
        toEnd := ← field "to" decodeEndpoint old.toEnd }

def zeroWire : Wire := ⟨"", ⟨"", ""⟩, ⟨"", ""⟩⟩

def Graph.decode : Decoder Graph := fun old =>
  decodeStruct (({} : Graph).fields.map Prod.fst) old fun field => do
    some
      { nodes := ← field "nodes" (decodeSlice Node.decode {}) old.nodes
        wires := ← field "wires" (decodeSlice decodeWire zeroWire) old.wires }

def NodePosition.decode : Decoder (NodePosition floats) := fun old =>
  decodeStruct (({} : NodePosition floats).fields.map Prod.fst) old fun field => do
    some
      { x := ← field "x" (decodeFloat64 floats) old.x
        y := ← field "y" (decodeFloat64 floats) old.y }

def Group.decode : Decoder Group := fun old =>
  decodeStruct (({} : Group).fields.map Prod.fst) old fun field => do
    some
      { id := ← field "id" decodeString old.id
        label := ← field "label" decodeString old.label
        nodes := ← field "nodes" (decodeSlice decodeString "") old.nodes
        color := ← field "color" decodeString old.color }

def Note.decode : Decoder (Note floats) := fun old =>
  decodeStruct (({} : Note floats).fields.map Prod.fst) old fun field => do
    some
      { id := ← field "id" decodeString old.id
        x := ← field "x" (decodeFloat64 floats) old.x
        y := ← field "y" (decodeFloat64 floats) old.y
        md := ← field "md" decodeString old.md }

def Layout.decode : Decoder (Layout floats) := fun old =>
  decodeStruct (({} : Layout floats).fields.map Prod.fst) old fun field => do
    some
      { nodes := ← field "nodes" (decodeMap NodePosition.decode {}) old.nodes
        groups := ← field "groups" (decodeSlice Group.decode {}) old.groups
        notes := ← field "notes" (decodeSlice Note.decode {}) old.notes }

def Port.decode : Decoder Port := fun old =>
  decodeStruct (({} : Port).fields.map Prod.fst) old fun field => do
    some
      { port := ← field "port" decodeString old.port
        description := ← field "description" decodeString old.description }

def SubflowParam.decode : Decoder (SubflowParam floats) := fun old =>
  decodeStruct (({} : SubflowParam floats).fields.map Prod.fst) old fun field => do
    some
      { name := ← field "name" decodeString old.name
        typeName := ← field "type" decodeString old.typeName
        defaultValue := ← field "default" (decodeAny floats) old.defaultValue
        connectionType := ← field "connectionType" decodeString old.connectionType }

def SubflowInterface.decode : Decoder (SubflowInterface floats) := fun old =>
  decodeStruct (({} : SubflowInterface floats).fields.map Prod.fst) old fun field => do
    some
      { inputs := ← field "inputs" (decodeSlice Port.decode {}) old.inputs
        outputs := ← field "outputs" (decodeSlice Port.decode {}) old.outputs
        params := ← field "params" (decodeSlice SubflowParam.decode {}) old.params }

def FlowFile.decode : Decoder (FlowFile floats) := fun old =>
  decodeStruct (({} : FlowFile floats).fields.map Prod.fst) old fun field => do
    some
      { formatVersion := ← field "formatVersion" decodeInt old.formatVersion
        kind := ← field "kind" decodeString old.kind
        id := ← field "id" decodeString old.id
        name := ← field "name" decodeString old.name
        description := ← field "description" decodeString old.description
        mode := ← field "mode" decodeString old.mode
        disabled := ← field "disabled" decodeBool old.disabled
        runtimeAssignment :=
          ← field "runtimeAssignment" (decodePointer RuntimeAssignment.decode {})
            old.runtimeAssignment
        settings := ← field "settings" Settings.decode old.settings
        env := ← field "env" (decodeSlice EnvVar.decode {}) old.env
        graph := ← field "graph" Graph.decode old.graph
        layout := ← field "layout" (decodePointer Layout.decode {}) old.layout
        interface := ← field "interface" (decodePointer SubflowInterface.decode {}) old.interface }

def parse (floats : Float64Text) (text : List Char) : Option (FlowFile floats) :=
  (RawJson.read text).bind fun document => FlowFile.decode {} document

end Fields

end DataPipe.Flow.Format
