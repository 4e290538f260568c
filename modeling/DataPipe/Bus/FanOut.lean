import DataPipe.Bus.Wire
import DataPipe.Flow.Datagram
import DataPipe.Foundation.Heap

/-!
# Fan-out

`Clone` of `engine/datagram/datagram.go` and `Send` of `engine/bus/fanout.go`
over a heap.  The tags, the trace, the binary payload and the two optional
numbers of the header are addresses of cells, the payload value is a scalar or
the address of a map or a slice, and the sender and the receivers go on writing
through their datagrams.
-/

namespace DataPipe.Bus

open DataPipe.Foundation

inductive Scalar where
  | null
  | bool (b : Bool)
  | num (literal : String)
  | str (text : String)
  | byte (b : UInt8)
  | time (instant : Flow.Time)
  | int64 (n : Int64)
  | entry (e : Flow.TraceEntry)
  deriving DecidableEq

instance : Nontrivial Scalar := ⟨.bool false, .bool true, by decide⟩

structure PlainHeader where
  id : String := ""
  correlationID : String := ""
  causationID : String := ""
  timestamp : Flow.Time := 0
  source : Flow.Source := {}
  schemaRef : String := ""
  contentType : String := ""
  quality : Flow.Quality := .good
  priority : Int := 4
  deriving DecidableEq

/-- A nil map, slice or pointer is `none`. -/
structure HeapDatagram where
  plain : PlainHeader := {}
  tags : Option Nat := none
  sourceTimestamp : Option Nat := none
  ttlMillis : Option Nat := none
  value : Val Scalar := .atom .null
  binary : Option Nat := none
  trace : Option Nat := none
  deriving DecidableEq

inductive Field where
  | tags
  | sourceTimestamp
  | ttlMillis
  | value
  | binary
  | trace
  deriving DecidableEq, Repr

namespace HeapDatagram

def root (d : HeapDatagram) : Field → Option (Val Scalar)
  | .tags => d.tags.map .ref
  | .sourceTimestamp => d.sourceTimestamp.map .ref
  | .ttlMillis => d.ttlMillis.map .ref
  | .value => some d.value
  | .binary => d.binary.map .ref
  | .trace => d.trace.map .ref

def observe (d : HeapDatagram) (heap : Heap Scalar) (field : Field) (path : List Selector) :
    Option (Val Scalar) :=
  (d.root field).bind fun value => follow heap value path

end HeapDatagram

def Field.Holds : Field → Cell Scalar → Prop
  | .tags, .map entries => ∀ key tag, entries.lookup key = some tag →
      ∃ text, tag = .atom (.str text)
  | .sourceTimestamp, .box target => ∃ instant, target = .atom (.time instant)
  | .ttlMillis, .box target => ∃ n, target = .atom (.int64 n)
  | .binary, .array items => ∀ item ∈ items, ∃ b, item = .atom (.byte b)
  | .trace, .array items => ∀ item ∈ items, ∃ e, item = .atom (.entry e)
  | .value, _ => True
  | _, _ => False

structure StoredDatagram where
  heap : Heap Scalar
  datagram : HeapDatagram
  typed : ∀ field address, datagram.root field = some (.ref address) →
    ∃ cell, heap[address]? = some cell ∧ field.Holds cell

def Inert (heap : Heap Scalar) : Val Scalar → Prop
  | .atom _ => True
  | .ref address => heap[address]? = some (.array [])

def copyWhen (copied : Cell Scalar → Bool) (heap : Heap Scalar) :
    Option Nat → Heap Scalar × Option Nat
  | none => (heap, none)
  | some address =>
    match heap[address]? with
    | none => (heap, some address)
    | some cell =>
      if copied cell then (heap ++ [cell], some heap.length) else (heap, some address)

def HeapDatagram.clone (threshold : Int) (heap : Heap Scalar) (d : HeapDatagram) :
    Heap Scalar × HeapDatagram :=
  let tags := copyWhen (fun _ => true) heap d.tags
  let sourceTimestamp := copyWhen (fun _ => true) tags.1 d.sourceTimestamp
  let ttlMillis := copyWhen (fun _ => true) sourceTimestamp.1 d.ttlMillis
  let binary := copyWhen (fun cell => (cell.size : Int) < threshold) ttlMillis.1 d.binary
  let trace := copyWhen (fun cell => 0 < cell.size) binary.1 d.trace
  (trace.1, { d with
    tags := tags.2
    sourceTimestamp := sourceTimestamp.2
    ttlMillis := ttlMillis.2
    binary := binary.2
    trace := trace.2 })

/--
The heap after `Send`, and the copies that were delivered.  A wire answers the `Send` of
its copy as `Wire.send` does: with an error, or with whether the copy was queued.
-/
def FanOut.send (threshold : Int) (d : HeapDatagram) :
    Heap Scalar → List (Except WireError Bool) → Heap Scalar × List HeapDatagram
  | heap, [] => (heap, [])
  | heap, answer :: answers =>
    let copy := d.clone threshold heap
    match answer with
    | .error _ => (copy.1, [])
    | .ok delivered =>
      let rest := FanOut.send threshold d copy.1 answers
      (rest.1, if delivered then copy.2 :: rest.2 else rest.2)

def accepted : List (Except WireError Bool) → Nat
  | [] => 0
  | .error _ :: _ => 0
  | .ok delivered :: answers => delivered.toNat + accepted answers

structure Delivery where
  heap : Heap Scalar
  holders : List HeapDatagram

def deliver (threshold : Int) (heap : Heap Scalar) (d : HeapDatagram)
    (answers : List (Except WireError Bool)) : Delivery :=
  ⟨(FanOut.send threshold d heap answers).1, d :: (FanOut.send threshold d heap answers).2⟩

/-- What is stored: a scalar, something of the same datagram, or a new map or slice. -/
inductive Assigned where
  | scalar (a : Scalar)
  | own (field : Field) (path : List Selector)
  | newMap
  | newArray (items : List Scalar)

inductive Change where
  | put (selector : Selector) (assigned : Assigned)
  | remove (key : String)

structure Write where
  holder : Nat
  field : Field
  path : List Selector
  change : Change

def HeapDatagram.writable (threshold : Int) (heap : Heap Scalar) (d : HeapDatagram) :
    Field → Bool
  | .binary =>
    match d.binary.bind fun address => heap[address]? with
    | some cell => (cell.size : Int) < threshold
    | none => true
  | _ => true

def HeapDatagram.locate (threshold : Int) (heap : Heap Scalar) (d : HeapDatagram)
    (field : Field) (path : List Selector) : Option (Val Scalar) :=
  if d.writable threshold heap field then d.observe heap field path else none

namespace Delivery

def prepare (threshold : Int) (heap : Heap Scalar) (d : HeapDatagram) :
    Assigned → Option (Heap Scalar × Val Scalar)
  | .scalar a => some (heap, .atom a)
  | .own field path => (d.locate threshold heap field path).map fun value => (heap, value)
  | .newMap => some (heap ++ [.map ∅], .ref heap.length)
  | .newArray items => some (heap ++ [.array (items.map .atom)], .ref heap.length)

def change (threshold : Int) (heap : Heap Scalar) (d : HeapDatagram) (address : Nat)
    (cell : Cell Scalar) : Change → Option (Heap Scalar)
  | .remove key => (cell.remove key).map fun cell' => heap.set address cell'
  | .put selector assigned =>
    match prepare threshold heap d assigned with
    | none => none
    | some (heap', value) => (cell.put selector value).map fun cell' => heap'.set address cell'

def step (threshold : Int) (s : Delivery) (w : Write) : Option Delivery :=
  match s.holders[w.holder]? with
  | none => none
  | some d =>
    match d.locate threshold s.heap w.field w.path with
    | some (.ref address) =>
      match s.heap[address]? with
      | none => none
      | some cell =>
        (change threshold s.heap d address cell w.change).map fun heap =>
          { s with heap }
    | _ => none

def Independent (threshold : Int) (s : Delivery) : Prop :=
  ∀ writes s' w s'', run (step threshold) s writes = some s' → 0 < w.holder →
    s'.step threshold w = some s'' →
    ∀ j d, j ≠ w.holder → s''.holders[j]? = some d →
      ∀ field path, d.observe s''.heap field path = d.observe s'.heap field path

end Delivery

section Send

variable {threshold : Int} {heap : Heap Scalar} {d : HeapDatagram}

theorem copyWhen_grows (copied : Cell Scalar → Bool) (heap : Heap Scalar) (old : Option Nat) :
    heap <+: (copyWhen copied heap old).1 := by
  unfold copyWhen
  split
  · exact List.prefix_rfl
  · split
    · exact List.prefix_rfl
    · split
      · exact List.prefix_append _ _
      · exact List.prefix_rfl

theorem clone_grows (threshold : Int) (heap : Heap Scalar) (d : HeapDatagram) :
    heap <+: (d.clone threshold heap).1 := by
  refine .trans ?_ (copyWhen_grows _ _ d.trace)
  refine .trans ?_ (copyWhen_grows _ _ d.binary)
  refine .trans ?_ (copyWhen_grows _ _ d.ttlMillis)
  refine .trans ?_ (copyWhen_grows _ _ d.sourceTimestamp)
  exact copyWhen_grows _ heap d.tags

theorem FanOut.send_grows (heap : Heap Scalar) (answers : List (Except WireError Bool)) :
    heap <+: (FanOut.send threshold d heap answers).1 := by
  induction answers generalizing heap with
  | nil => exact List.prefix_rfl
  | cons answer answers ih =>
    have hclone := clone_grows threshold heap d
    cases answer with
    | error e => exact hclone
    | ok delivered => exact hclone.trans (ih _)

theorem FanOut.send_length (heap : Heap Scalar) (answers : List (Except WireError Bool)) :
    (FanOut.send threshold d heap answers).2.length = accepted answers := by
  induction answers generalizing heap with
  | nil => rfl
  | cons answer answers ih =>
    cases answer with
    | error e => rfl
    | ok delivered =>
      cases delivered <;> simp [FanOut.send, accepted, ih, Nat.add_comm]

theorem FanOut.value_of_mem_send {answers : List (Except WireError Bool)} {copy : HeapDatagram}
    (hcopy : copy ∈ (FanOut.send threshold d heap answers).2) : copy.value = d.value := by
  induction answers generalizing heap with
  | nil => cases hcopy
  | cons answer answers ih =>
    cases answer with
    | error e => cases hcopy
    | ok delivered =>
      cases delivered with
      | false => exact ih hcopy
      | true =>
        rcases List.mem_cons.mp hcopy with rfl | hrest
        · rfl
        · exact ih hrest

end Send

end DataPipe.Bus
