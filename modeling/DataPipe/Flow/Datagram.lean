import DataPipe.Foundation.Json

/-!
# Datagrams

The envelope of `engine/datagram/datagram.go` and the values that node code
hands to the engine.  Instants are nanoseconds; identifiers and the current
time, which the source draws from a ULID generator and the wall clock, are
arguments.
-/

namespace DataPipe.Flow

open DataPipe.Foundation

abbrev Time := Int

inductive Quality where
  | good
  | uncertain
  | stale
  | bad
  deriving DecidableEq, Repr, Inhabited

structure Source where
  flowID : String := ""
  nodeID : String := ""
  runtimeID : String := ""
  connector : String := ""
  origin : String := ""
  deriving DecidableEq, Repr, Inhabited

structure Header where
  id : String
  correlationID : String
  causationID : String := ""
  timestamp : Time := 0
  sourceTimestamp : Option Time := none
  source : Source := {}
  schemaRef : String := ""
  contentType : String := ""
  quality : Quality := .good
  priority : Int := 4
  ttlMillis : Option Int64 := none
  tags : List (String × String) := []
  deriving Inhabited

namespace Header

def expiresAt (header : Header) : Option Time :=
  header.ttlMillis.map fun ttl => header.timestamp + (ttl * 1000000).toInt

def expired (header : Header) (now : Time) : Bool :=
  match header.expiresAt with
  | none => false
  | some expiry => decide (expiry < now)

end Header

structure Payload where
  value : Option Json := none
  binary : Option (List UInt8) := none
  deriving Inhabited

structure TraceEntry where
  nodeID : String
  input : String
  output : String
  durationUs : Int
  deriving DecidableEq, Repr, Inhabited

structure Datagram where
  header : Header
  payload : Payload := {}
  trace : List TraceEntry := []
  deriving Inhabited

namespace Datagram

def new (id : String) (now : Time) (source : Source) (payload : Payload) : Datagram where
  header := { id := id, correlationID := id, timestamp := now, source := source }
  payload := payload

def newCaused (id : String) (now : Time) (parent : Datagram) (source : Source)
    (payload : Payload) : Datagram :=
  let fresh := new id now source payload
  { fresh with
    header :=
      { fresh.header with
        correlationID := parent.header.correlationID
        causationID := parent.header.id
        quality := parent.header.quality } }

def correlationID (datagram : Datagram) : String :=
  datagram.header.correlationID

end Datagram

structure NodeError where
  message : String
  code : String := ""
  node : String := ""
  stack : String := ""
  attempt : Int := 0
  deriving DecidableEq, Repr, Inhabited

structure PortDatagram where
  port : String
  datagram : Datagram
  deriving Inhabited

end DataPipe.Flow
