import DataPipe.Foundation.BigEndian

/-!
# HSMS messages

The framing of `engine/nodes/hsms/message.go`: a length of four bytes, a header of
ten and the body.
-/

namespace DataPipe.Hsms

open DataPipe.Foundation

structure SType where
  byte : UInt8
  deriving DecidableEq, Repr

namespace SType

def dataMessage : SType := ⟨0⟩
def selectReq : SType := ⟨1⟩
def selectRsp : SType := ⟨2⟩
def linktestReq : SType := ⟨5⟩
def linktestRsp : SType := ⟨6⟩
def separateReq : SType := ⟨9⟩

end SType

structure Header where
  sessionID : UInt16
  byte2 : UInt8
  byte3 : UInt8
  pType : UInt8
  sType : SType
  system : UInt32
  deriving DecidableEq, Repr

def dataHeader (sessionID : UInt16) (stream function : UInt8) (wBit : Bool) (system : UInt32) :
    Header :=
  let b2 := stream &&& 0x7F
  { sessionID
    byte2 := if wBit then b2 ||| 0x80 else b2
    byte3 := function
    pType := 0
    sType := .dataMessage
    system }

inductive ReadError where
  | eof
  | unexpectedEOF
  | transport (text : String)
  | invalid (text : String)
  deriving DecidableEq, Repr

namespace Header

def stream (h : Header) : UInt8 := h.byte2 &&& 0x7F

def wBit (h : Header) : Bool := h.byte2 &&& 0x80 != 0

def function (h : Header) : UInt8 := h.byte3

def encode (h : Header) : List UInt8 :=
  bigEndian 2 h.sessionID.toNat ++ [h.byte2, h.byte3, h.pType, h.sType.byte] ++
    bigEndian 4 h.system.toNat

end Header

def decodeHeader (b : List UInt8) : Except ReadError Header :=
  match b with
  | [session0, session1, byte2, byte3, pType, sType, system0, system1, system2, system3] =>
    .ok
      { sessionID := .ofNat (ofBigEndian [session0, session1])
        byte2
        byte3
        pType
        sType := ⟨sType⟩
        system := .ofNat (ofBigEndian [system0, system1, system2, system3]) }
  | _ => .error (.invalid s!"hsms: header must be 10 bytes, got {b.length}")

theorem Header.length_encode (h : Header) : h.encode.length = 10 := rfl

theorem decodeHeader_encode (h : Header) : decodeHeader h.encode = .ok h := by
  have hsession : ofBigEndian (bigEndian 2 h.sessionID.toNat) = h.sessionID.toNat :=
    ofBigEndian_bigEndian h.sessionID.toNat_lt
  have hsystem : ofBigEndian (bigEndian 4 h.system.toNat) = h.system.toNat :=
    ofBigEndian_bigEndian h.system.toNat_lt
  have hdecode : decodeHeader h.encode =
      .ok { h with
        sessionID := .ofNat (ofBigEndian (bigEndian 2 h.sessionID.toNat))
        system := .ofNat (ofBigEndian (bigEndian 4 h.system.toNat)) } := rfl
  rw [hdecode, hsession, hsystem, UInt16.ofNat_toNat, UInt32.ofNat_toNat]

/-! The stream and the W-bit share a byte. -/

theorem or_and_distrib (a b mask : UInt8) : (a ||| b) &&& mask = a &&& mask ||| b &&& mask :=
  UInt8.toBitVec_inj.mp BitVec.and_or_distrib_right

theorem and_low_of_lt {stream : UInt8} (hstream : stream < 128) : stream &&& 0x7F = stream := by
  have hlt : stream.toNat < 2 ^ 7 := hstream
  apply UInt8.toNat_inj.mp
  calc stream.toNat &&& 2 ^ 7 - 1
      = stream.toNat % 2 ^ 7 := Nat.and_two_pow_sub_one_eq_mod _ _
    _ = stream.toNat := Nat.mod_eq_of_lt hlt

section DataHeader

variable (sessionID : UInt16) (stream function : UInt8) (wBit : Bool) (system : UInt32)

theorem stream_dataHeader :
    (dataHeader sessionID stream function wBit system).stream = stream &&& 0x7F := by
  have hlow : stream &&& 0x7F &&& 0x7F = stream &&& 0x7F := by rw [UInt8.and_assoc, UInt8.and_self]
  cases wBit with
  | false => exact hlow
  | true =>
    change (stream &&& 0x7F ||| 0x80) &&& 0x7F = stream &&& 0x7F
    rw [or_and_distrib, hlow]
    exact UInt8.or_zero

theorem wBit_dataHeader : (dataHeader sessionID stream function wBit system).wBit = wBit := by
  have hlow : stream &&& 0x7F &&& 0x80 = 0 := by
    rw [UInt8.and_assoc]
    exact UInt8.and_zero
  cases wBit with
  | false =>
    change (stream &&& 0x7F &&& 0x80 != 0) = false
    rw [hlow]
    rfl
  | true =>
    change ((stream &&& 0x7F ||| 0x80) &&& 0x80 != 0) = true
    rw [or_and_distrib, hlow]
    rfl

end DataHeader

structure Source where
  bytes : List UInt8
  ending : ReadError

/-- `io.ReadFull`: the end of the input in the middle of a read is unexpected. -/
def Source.readFull (source : Source) (n : Nat) : Except ReadError (List UInt8 × Source) :=
  if n ≤ source.bytes.length then
    .ok (source.bytes.take n, { source with bytes := source.bytes.drop n })
  else if source.bytes ≠ [] ∧ source.ending = .eof then .error .unexpectedEOF
  else .error source.ending

structure Message where
  header : Header
  body : List UInt8
  deriving DecidableEq, Repr

def maxLength : Nat := 16 * 1024 * 1024

/-- The length is written as a `uint32`, so that only its low four bytes remain. -/
def Message.encode (m : Message) : List UInt8 :=
  bigEndian 4 (10 + m.body.length) ++ m.header.encode ++ m.body

def readMessage (r : Source) : Except ReadError (Message × Source) := do
  let (lenBuf, r) ← r.readFull 4
  let length := ofBigEndian lenBuf
  if length < 10 then
    throw (.invalid s!"hsms: message length {length} shorter than the 10-byte header")
  if length > maxLength then
    throw (.invalid s!"hsms: message length {length} exceeds max {maxLength}")
  let (buf, r) ← r.readFull length
  let hdr ← decodeHeader (buf.take 10)
  return (⟨hdr, buf.drop 10⟩, r)

/-- At most `calls` calls of `ReadMessage`: what they return, and the error that ends them. -/
def readMessages : Nat → Source → List Message × Option ReadError
  | 0, _ => ([], none)
  | calls + 1, r =>
    match readMessage r with
    | .error e => ([], some e)
    | .ok (m, r) =>
      let (ms, e) := readMessages calls r
      (m :: ms, e)

theorem Source.readFull_append (front rest : List UInt8) (ending : ReadError) {n : Nat}
    (hn : front.length = n) :
    Source.readFull ⟨front ++ rest, ending⟩ n = .ok (front, ⟨rest, ending⟩) := by
  subst hn
  have hroom : front.length ≤ (front ++ rest).length := by
    rw [List.length_append]
    omega
  rw [Source.readFull, if_pos hroom, List.take_left, List.drop_left]

theorem readMessage_encode (m : Message) (hbody : m.body.length ≤ maxLength - 10)
    (rest : List UInt8) (ending : ReadError) :
    readMessage ⟨m.encode ++ rest, ending⟩ = .ok (m, ⟨rest, ending⟩) := by
  have hlength : ofBigEndian (bigEndian 4 (10 + m.body.length)) = 10 + m.body.length := by
    refine ofBigEndian_bigEndian ?_
    unfold maxLength at hbody
    omega
  have hshort : ¬ 10 + m.body.length < 10 := by omega
  have hlong : ¬ 10 + m.body.length > maxLength := by
    unfold maxLength at hbody ⊢
    omega
  have hlengthRead : Source.readFull ⟨m.encode ++ rest, ending⟩ 4 =
      .ok (bigEndian 4 (10 + m.body.length), ⟨m.header.encode ++ m.body ++ rest, ending⟩) := by
    exact Source.readFull_append _ _ _ (length_bigEndian _ _)
  have hbodyRead : Source.readFull ⟨m.header.encode ++ m.body ++ rest, ending⟩
      (10 + m.body.length) = .ok (m.header.encode ++ m.body, ⟨rest, ending⟩) := by
    refine Source.readFull_append _ _ _ ?_
    rw [List.length_append, m.header.length_encode]
  have htake : (m.header.encode ++ m.body).take 10 = m.header.encode :=
    List.take_left' m.header.length_encode
  have hdrop : (m.header.encode ++ m.body).drop 10 = m.body :=
    List.drop_left' m.header.length_encode
  rw [readMessage, hlengthRead]
  simp only [bind, Except.bind, hlength, if_neg hshort, if_neg hlong, pure, Except.pure, hbodyRead,
    htake, hdrop, decodeHeader_encode]

theorem readMessages_encode (ms : List Message) (hbodies : ∀ m ∈ ms, m.body.length ≤ maxLength - 10)
    {calls : Nat} (hcalls : ms.length < calls) :
    readMessages calls ⟨ms.flatMap Message.encode, .eof⟩ = (ms, some .eof) := by
  induction ms generalizing calls with
  | nil =>
    cases calls with
    | zero => contradiction
    | succ calls => rfl
  | cons m ms ih =>
    cases calls with
    | zero => contradiction
    | succ calls =>
      obtain ⟨hm, hms⟩ := List.forall_mem_cons.mp hbodies
      rw [List.flatMap_cons, readMessages, readMessage_encode m hm]
      dsimp only
      rw [ih hms (Nat.lt_of_succ_lt_succ hcalls)]

end DataPipe.Hsms
