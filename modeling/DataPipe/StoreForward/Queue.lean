import DataPipe.Foundation.Base64
import DataPipe.Foundation.Json
import DataPipe.Foundation.Run
import Mathlib.Algebra.Ring.Int.Defs
import Mathlib.Data.Char
import Mathlib.Data.List.AList
import Mathlib.Data.List.Lex
import Mathlib.Data.List.Sort

/-!
# The durable store-and-forward queue

The model of `engine/storeforward/queue.go`.  The directory is a finite map
from file names to contents.  Names and ids are lists of characters; sequence
numbers and sizes are unbounded.
-/

set_option linter.dupNamespace false

namespace DataPipe.StoreForward

open DataPipe.Foundation

abbrev Name := List Char

abbrev Disk := AList fun _ : Name => String

structure Dir where
  rooted : Bool
  parts : List Name

/-- `filepath.Clean` on components; the stack holds the path so far, reversed. -/
def clean (rooted : Bool) : List Name → List Name → List Name
  | stack, [] => stack
  | stack, part :: parts =>
    if part = [] ∨ part = ['.'] then clean rooted stack parts
    else if part = ['.', '.'] then
      match stack with
      | [] => clean rooted (if rooted then [] else [part]) parts
      | top :: below =>
        if top = ['.', '.'] then clean rooted (part :: stack) parts
        else clean rooted below parts
    else clean rooted (part :: stack) parts

/-- The file of the directory that `filepath.Join(dir, name)` denotes, if any. -/
def Dir.join (dir : Dir) (name : Name) : Option Name :=
  match clean dir.rooted dir.parts.reverse (name.splitOn '/') with
  | [] => none
  | base :: parents => if parents.reverse = dir.parts then some base else none

def jsonSuffix : Name := ['.', 'j', 's', 'o', 'n']

def tmpSuffix : Name := ['.', 't', 'm', 'p']

structure EntryFile where
  enqueuedAtUnixNano : Int64
  payload : String
  deriving DecidableEq, Inhabited

structure Entry where
  id : Name
  payload : List UInt8
  enqueuedAt : Int
  deriving DecidableEq, Inhabited

namespace EntryFile

def toJson (ef : EntryFile) : Json :=
  .obj [("enqueuedAtUnixNano", .num (intLit ef.enqueuedAtUnixNano.toInt)),
    ("payload", .str ef.payload)]

def marshal (ef : EntryFile) : String := .ofList ef.toJson.render

def keyIs (key field : String) : Bool :=
  key.toList.map Char.toLower == field.toList.map Char.toLower

def int64Value (literal : NumLit) : Option Int64 :=
  match signedDecimalValue literal.chars with
  | none => none
  | some n => if -2 ^ 63 ≤ n ∧ n < 2 ^ 63 then some (Int64.ofInt n) else none

def setEnqueuedAt (ef : EntryFile) : Json → Option EntryFile
  | .null => some ef
  | .num literal =>
    (int64Value literal).map fun n => { ef with enqueuedAtUnixNano := n }
  | _ => none

def setPayload (ef : EntryFile) : Json → Option EntryFile
  | .null => some ef
  | .str payload => some { ef with payload := payload }
  | _ => none

def assign (ef : EntryFile) (field : String × Json) : Option EntryFile :=
  if keyIs field.1 "enqueuedAtUnixNano" then ef.setEnqueuedAt field.2
  else if keyIs field.1 "payload" then ef.setPayload field.2
  else some ef

def ofJson : Json → Option EntryFile
  | .null => some ⟨0, ""⟩
  | .obj fields => fields.foldlM assign ⟨0, ""⟩
  | _ => none

def unmarshal (data : String) : Option EntryFile :=
  (Json.read data.toList).bind ofJson

end EntryFile

structure Queue where
  maxSizeBytes : Int
  maxAge : Int
  nextSeq : Nat
  order : List Name
  sizes : AList fun _ : Name => Int
  total : Int

structure IdSeq where
  id : Name
  seq : Int
  size : Int

/-- The names `os.ReadDir` lists. -/
def readDir (disk : Disk) : List Name := disk.keys.insertionSort (· ≤ ·)

/-- What `Open` makes of one directory entry; `none` is skipped. -/
def indexEntry (disk : Disk) (name : Name) : Option IdSeq :=
  if jsonSuffix <:+ name then
    let id := name.take (name.length - jsonSuffix.length)
    match signedDecimalValue id, disk.lookup name with
    | some seq, some content => some ⟨id, seq, content.utf8ByteSize⟩
    | _, _ => none
  else none

def nextSeqAfter (nextSeq : Nat) (e : IdSeq) : Nat :=
  if nextSeq ≤ e.seq then (e.seq + 1).toNat else nextSeq

def openQueue (disk : Disk) (maxSizeBytes maxAge : Int) : Queue :=
  let ids := (readDir disk).filterMap (indexEntry disk)
  { maxSizeBytes := maxSizeBytes
    maxAge := maxAge
    nextSeq := ids.foldl nextSeqAfter 0
    order := (ids.insertionSort fun a b => a.seq ≤ b.seq).map IdSeq.id
    sizes := ids.foldl (fun sizes e => sizes.insert e.id e.size) ∅
    total := ids.foldl (fun total e => total + e.size) 0 }

def readLocked (dir : Dir) (disk : Disk) (id : Name) : Option EntryFile :=
  ((dir.join (id ++ jsonSuffix)).bind disk.lookup).bind EntryFile.unmarshal

namespace Queue

def dropFromOrder (order : List Name) (id : Name) : List Name :=
  match order with
  | [] => []
  | first :: rest => if first = id then rest else order.erase id

def removeLocked (dir : Dir) (q : Queue) (disk : Disk) (id : Name) : Queue × Disk :=
  ({ q with
      total := q.total - (q.sizes.lookup id).getD 0
      sizes := q.sizes.erase id
      order := dropFromOrder q.order id },
    match dir.join (id ++ jsonSuffix) with
    | none => disk
    | some name => disk.erase name)

/-- Each turn removes the head, so `fuel` turns suffice for `fuel` entries. -/
def dropExpiredLoop (dir : Dir) (now : Int) :
    Nat → Queue → Disk → Nat → Queue × Disk × Nat
  | 0, q, disk, dropped => (q, disk, dropped)
  | fuel + 1, q, disk, dropped =>
    match q.order with
    | [] => (q, disk, dropped)
    | id :: _ =>
      let next := q.removeLocked dir disk id
      match readLocked dir disk id with
      | none => dropExpiredLoop dir now fuel next.1 next.2 (dropped + 1)
      | some ef =>
        if now - ef.enqueuedAtUnixNano.toInt ≤ q.maxAge then
          (q, disk, dropped)
        else dropExpiredLoop dir now fuel next.1 next.2 (dropped + 1)

def dropExpiredLocked (dir : Dir) (q : Queue) (disk : Disk) (now : Int) : Queue × Disk × Nat :=
  if q.maxAge ≤ 0 then (q, disk, 0)
  else dropExpiredLoop dir now q.order.length q disk 0

def dropOverflowLoop (dir : Dir) :
    Nat → Queue → Disk → Nat → Queue × Disk × Nat
  | 0, q, disk, dropped => (q, disk, dropped)
  | fuel + 1, q, disk, dropped =>
    match q.order with
    | [] => (q, disk, dropped)
    | id :: _ =>
      if q.total > q.maxSizeBytes then
        let next := q.removeLocked dir disk id
        dropOverflowLoop dir fuel next.1 next.2 (dropped + 1)
      else (q, disk, dropped)

def dropOverflowLocked (dir : Dir) (q : Queue) (disk : Disk) : Queue × Disk × Nat :=
  if q.maxSizeBytes ≤ 0 then (q, disk, 0)
  else dropOverflowLoop dir q.order.length q disk 0

end Queue

def seqName (seq : Nat) : Name := paddedDecimal 20 seq

def newEntryFile (payload : List UInt8) (enqueuedAt : Int) : EntryFile where
  enqueuedAtUnixNano := Int64.ofInt enqueuedAt
  payload := .ofList (Base64.encode payload)

/-- Where an `Enqueue` stops. -/
inductive Fault where
  | none
  | writeFails (written : Option String)
  | renameFails
  | crashInWrite (written : Option String)
  | crashBeforeRename
  | crashAfterRename
  deriving DecidableEq

/-- `os.WriteFile` of a temporary file that may have been cut off. -/
def writeFile (disk : Disk) (name : Name) : Option String → Disk
  | Option.none => disk
  | some content => disk.insert name content

def rename (disk : Disk) (source target : Name) : Disk :=
  match disk.lookup source with
  | Option.none => disk
  | some content => (disk.erase source).insert target content

inductive EnqueueError where
  | writing (path : Name)
  | renaming (path : Name)
  deriving DecidableEq

namespace Queue

/-- The index update and the bounds that end a successful `Enqueue`. -/
def register (dir : Dir) (q : Queue) (disk : Disk) (id : Name) (size : Int)
    (enqueuedAt : Int) : Queue × Disk × Nat :=
  let q := { q with
    order := q.order ++ [id]
    sizes := q.sizes.insert id size
    total := q.total + size }
  let expired := q.dropExpiredLocked dir disk enqueuedAt
  let overflow := expired.1.dropOverflowLocked dir expired.2.1
  (overflow.1, overflow.2.1, expired.2.2 + overflow.2.2)

/-- `Enqueue`; the queue is gone when the process crashes inside the call. -/
def enqueue (dir : Dir) (q : Queue) (disk : Disk) (payload : List UInt8) (enqueuedAt : Int)
    (fault : Fault) : Option (Queue × Except EnqueueError Nat) × Disk :=
  let id := seqName q.nextSeq
  let q := { q with nextSeq := q.nextSeq + 1 }
  let data := (newEntryFile payload enqueuedAt).marshal
  match dir.join (id ++ jsonSuffix) with
  | Option.none => (some (q, .error (.writing (id ++ jsonSuffix))), disk)
  | some path =>
    let tmp := path ++ tmpSuffix
    let written := writeFile disk tmp (some data)
    match fault with
    | .writeFails part =>
      (some (q, .error (.writing tmp)), writeFile disk tmp part)
    | .renameFails => (some (q, .error (.renaming tmp)), written)
    | .crashInWrite part => (Option.none, writeFile disk tmp part)
    | .crashBeforeRename => (Option.none, written)
    | .crashAfterRename => (Option.none, rename written tmp path)
    | .none =>
      let result := q.register dir (rename written tmp path) id
        data.utf8ByteSize enqueuedAt
      (some (result.1, .ok result.2.2), result.2.1)

/-- `Peek`; an unreadable head is removed. -/
def peek (dir : Dir) (q : Queue) (disk : Disk) : (Queue × Disk) × Option Entry :=
  match q.order with
  | [] => ((q, disk), Option.none)
  | id :: _ =>
    match readLocked dir disk id with
    | Option.none => (q.removeLocked dir disk id, Option.none)
    | some ef =>
      match Base64.decode ef.payload.toList with
      | Option.none => (q.removeLocked dir disk id, Option.none)
      | some payload =>
        ((q, disk), some ⟨id, payload, ef.enqueuedAtUnixNano.toInt⟩)

end Queue

def Fault.renamed : Fault → Bool
  | .none | .crashAfterRename => true
  | _ => false

abbrev Log := AList fun _ : Name => List UInt8 × Int

/--
The directory and the queue of the running process, if there is one.  The log
is ghost data: what the caller handed over for each entry file.
-/
structure Store where
  disk : Disk
  log : Log
  queue : Option Queue

inductive Op where
  | openQueue (maxSizeBytes maxAge : Int)
  | enqueue (payload : List UInt8) (enqueuedAt : Int) (fault : Fault)
  | peek
  | remove (id : Name)
  | crash

namespace Store

def empty : Store := ⟨∅, ∅, Option.none⟩

def step (dir : Dir) (s : Store) : Op → Option Store
  | .openQueue maxSizeBytes maxAge =>
    some { s with
      queue := some (StoreForward.openQueue s.disk maxSizeBytes maxAge) }
  | .enqueue payload enqueuedAt fault =>
    s.queue.map fun q =>
      let result := q.enqueue dir s.disk payload enqueuedAt fault
      let log :=
        if fault.renamed then
          s.log.insert (seqName q.nextSeq) (payload, enqueuedAt)
        else s.log
      ⟨result.2, log, result.1.map Prod.fst⟩
  | .peek =>
    s.queue.map fun q =>
      let result := (q.peek dir s.disk).1
      ⟨result.2, s.log, some result.1⟩
  | .remove id =>
    s.queue.map fun q =>
      let result := q.removeLocked dir s.disk id
      ⟨result.2, s.log, some result.1⟩
  | .crash => some { s with queue := Option.none }

end Store

end DataPipe.StoreForward
