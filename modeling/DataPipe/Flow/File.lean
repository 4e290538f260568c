import DataPipe.Foundation.Json

/-!
# Flow files

The parts of the flow file of `engine/flow/file.go` that the engine reads.
A node's raw `config` is kept as a JSON tree, the strings in it as the stored
text writes them; `none` is an absent configuration.
-/

namespace DataPipe.Flow

open DataPipe.Foundation

/-- The error policies; `none` is the empty string, which reports success. -/
inductive OnError where
  | none
  | fail
  | retry
  | errorPort
  | discard
  | storeForward
  deriving DecidableEq, Repr, Inhabited

structure RetryPolicy where
  max : Int := 0
  backoffMs : Int := 0
  maxBackoffMs : Int := 0
  jitter : Bool := false
  deriving DecidableEq, Repr, Inhabited

structure StoreForwardPolicy where
  maxSizeMb : Int := 0
  maxAgeSec : Int := 0
  deriving DecidableEq, Repr, Inhabited

structure ErrorPolicy where
  onError : String := ""
  retry : Option RetryPolicy := none
  storeForward : Option StoreForwardPolicy := none
  deriving DecidableEq, Repr, Inhabited

structure Settings where
  errorFlow : String := ""
  maxConcurrency : Option Int := none
  concurrencyPolicy : String := ""
  executionTimeoutMs : Option Int64 := none
  deriving DecidableEq, Inhabited

structure Node where
  id : String
  typeName : String
  typeVersion : Int := 1
  disabled : Bool := false
  connection : String := ""
  config : Option Json := none
  errorPolicy : Option ErrorPolicy := none
  overflow : String := ""
  deriving Inhabited

structure Endpoint where
  node : String
  port : String
  deriving DecidableEq, Repr, Inhabited

structure Wire where
  id : String
  fromEnd : Endpoint
  toEnd : Endpoint
  deriving DecidableEq, Repr, Inhabited

structure Graph where
  nodes : List Node := []
  wires : List Wire := []
  deriving Inhabited

structure FlowFile where
  id : String
  mode : String
  disabled : Bool := false
  settings : Settings := {}
  graph : Graph := {}
  deriving Inhabited

end DataPipe.Flow
