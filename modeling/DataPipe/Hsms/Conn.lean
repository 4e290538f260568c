import DataPipe.Hsms.Message

/-!
# The reader of an HSMS connection

`readLoop` of `engine/nodes/hsms/conn.go` has a parser of its own and routes each
message by its session type and its system bytes.
-/

namespace DataPipe.Hsms

open DataPipe.Foundation

/-- One pass of `readLoop` up to the message; a failure ends the loop with `c.fail`. -/
def receive (conn : Source) : Except ReadError (Message × Source) :=
  match conn.readFull 4 with
  | .error err => .error err
  | .ok (lenBuf, conn) =>
    let length := ofBigEndian lenBuf
    if length < 10 then
      .error (.invalid s!"hsms: message length {length} shorter than the 10-byte header")
    else if length > maxLength then
      .error (.invalid s!"hsms: message length {length} exceeds max {maxLength}")
    else
      match conn.readFull length with
      | .error err => .error err
      | .ok (buf, conn) =>
        match decodeHeader (buf.take 10) with
        | .error err => .error err
        | .ok hdr => .ok (⟨hdr, buf.drop 10⟩, conn)

theorem receive_eq_readMessage (conn : Source) : receive conn = readMessage conn := by
  unfold receive readMessage
  cases conn.readFull 4 with
  | error err => rfl
  | ok lengthRead =>
    obtain ⟨lenBuf, conn⟩ := lengthRead
    by_cases hshort : ofBigEndian lenBuf < 10
    · simp only [bind, Except.bind, if_pos hshort]
      rfl
    · by_cases hlong : ofBigEndian lenBuf > maxLength
      · simp only [bind, Except.bind, if_pos hlong]
        rfl
      · simp only [bind, Except.bind]
        cases conn.readFull (ofBigEndian lenBuf) with
        | error err => rfl
        | ok bodyRead =>
          obtain ⟨buf, conn⟩ := bodyRead
          dsimp only
          cases decodeHeader (buf.take 10) with
          | error | ok => rfl

inductive State where
  | notConnected
  | connectedNotSelected
  | connectedSelected
  deriving DecidableEq, Repr

def selectAlreadyActive : UInt8 := 1

def controlReply (sType : SType) (sessionID : UInt16) (byte3 : UInt8) (system : UInt32) : Message :=
  ⟨{ sessionID, byte2 := 0, byte3, pType := 0, sType, system }, []⟩

/-- What the loop finds when it has read a message: the state, the transactions that wait for a
reply, and whether a channel takes the message before the connection is closed. -/
structure Surroundings where
  state : State
  pending : List UInt32
  taken : Bool

inductive Route where
  | separated
  | answered (reply : Message)
  | selectRequest
  | reply
  | data
  | dropped
  | closed
  deriving DecidableEq, Repr

def Route.stops : Route → Bool
  | .separated | .closed => true
  | .answered _ | .selectRequest | .reply | .data | .dropped => false

def route (around : Surroundings) (msg : Message) : Route :=
  let hdr := msg.header
  if hdr.sType = .separateReq then .separated
  else if hdr.sType = .linktestReq then
    .answered (controlReply .linktestRsp hdr.sessionID 0 hdr.system)
  else if hdr.sType = .selectReq then
    if around.state = .connectedSelected then
      .answered (controlReply .selectRsp hdr.sessionID selectAlreadyActive hdr.system)
    else if around.taken then .selectRequest
    else .closed
  else if hdr.system ∈ around.pending then .reply
  else if hdr.sType = .dataMessage then
    if around.taken then .data else .closed
  else .dropped

inductive Ending where
  | failed (err : ReadError)
  | separated
  | closed
  deriving DecidableEq, Repr

/-- The passes of `readLoop`, one for each entry of the list, and how the loop ended. -/
def readLoop : List Surroundings → Source → List (Message × Route) × Option Ending
  | [], _ => ([], none)
  | around :: later, conn =>
    match receive conn with
    | .error err => ([], some (.failed err))
    | .ok (msg, conn) =>
      match route around msg with
      | .separated => ([(msg, .separated)], some .separated)
      | .closed => ([(msg, .closed)], some .closed)
      | taken =>
        let (handled, ending) := readLoop later conn
        ((msg, taken) :: handled, ending)

theorem readLoop_messages (passes : List Surroundings) (conn : Source) :
    (readLoop passes conn).1.map Prod.fst <+: (readMessages passes.length conn).1 ∧
      ((∀ handled ∈ (readLoop passes conn).1, handled.2.stops = false) →
        (readLoop passes conn).1.map Prod.fst = (readMessages passes.length conn).1 ∧
        (readLoop passes conn).2 = (readMessages passes.length conn).2.map .failed) := by
  fun_induction readLoop passes conn with
  | case1 => exact ⟨List.prefix_refl _, fun _ => ⟨rfl, rfl⟩⟩
  | case2 around later conn err hread =>
    rw [receive_eq_readMessage] at hread
    simp [readMessages, hread]
  | case3 around later conn msg rest hread hroute
  | case4 around later conn msg rest hread hroute =>
    rw [receive_eq_readMessage] at hread
    simp [readMessages, hread, Route.stops]
  | case5 around later conn msg rest hread handled ending hloop _ _ ih =>
    rw [receive_eq_readMessage] at hread
    rw [hloop] at ih
    simp only [List.length_cons, readMessages, hread, List.map_cons, List.cons_prefix_cons]
    refine ⟨⟨trivial, ih.1⟩, fun hstops => ?_⟩
    obtain ⟨hmessages, hending⟩ := ih.2 (List.forall_mem_cons.mp hstops).2
    exact ⟨congrArg _ hmessages, hending⟩

/-- Concatenated messages are read back one by one, the reader of a connection parses what
`ReadMessage` parses, and the fields of a data header survive. -/
theorem framing_round_trip :
    (∀ ms : List Message, (∀ m ∈ ms, m.body.length ≤ maxLength - 10) →
      ∀ calls > ms.length,
        readMessages calls ⟨ms.flatMap Message.encode, .eof⟩ = (ms, some .eof)) ∧
    (∀ conn, receive conn = readMessage conn) ∧
    (∀ passes conn,
      (readLoop passes conn).1.map Prod.fst <+: (readMessages passes.length conn).1 ∧
      ((∀ handled ∈ (readLoop passes conn).1, handled.2.stops = false) →
        (readLoop passes conn).1.map Prod.fst = (readMessages passes.length conn).1 ∧
        (readLoop passes conn).2 = (readMessages passes.length conn).2.map .failed)) ∧
    ∀ sessionID stream function wBit system, stream < 128 →
      ∃ hdr, decodeHeader (dataHeader sessionID stream function wBit system).encode = .ok hdr ∧
        hdr.stream = stream ∧ hdr.function = function ∧ hdr.wBit = wBit ∧ hdr.system = system := by
  refine ⟨?_, receive_eq_readMessage, ?_, ?_⟩
  · intro ms hbodies calls hcalls
    exact readMessages_encode ms hbodies hcalls
  · intro passes conn
    exact readLoop_messages passes conn
  · intro sessionID stream function wBit system hstream
    refine ⟨_, decodeHeader_encode _, ?_, rfl, wBit_dataHeader .., rfl⟩
    rw [stream_dataHeader, and_low_of_lt hstream]

def exchange : List Message :=
  [⟨dataHeader 1 6 11 true 7, [0x01, 0x00]⟩, ⟨dataHeader 1 6 12 false 7, []⟩]

theorem exchange_read_back :
    readMessages 3 ⟨exchange.flatMap Message.encode, .eof⟩ = (exchange, some .eof) ∧
      ∃ hdr, decodeHeader (dataHeader 1 6 11 true 7).encode = .ok hdr ∧ hdr.stream = 6 ∧
        hdr.function = 11 ∧ hdr.wBit = true ∧ hdr.system = 7 :=
  ⟨framing_round_trip.1 exchange (by decide) 3 (by decide),
    framing_round_trip.2.2.2 1 6 11 true 7 (by decide)⟩

end DataPipe.Hsms
