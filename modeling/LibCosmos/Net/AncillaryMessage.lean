import LibCosmos.Core.Bytes
import LibCosmos.Net.ControlMessage

/-
  Single control messages: the buffer that is built for
  sending one and the view on one that was received
  (`src/net/message_header.cxx`,
  `include/net/message_header.hxx`).

  Main declarations:
    * `SendMessageHeader.ControlMessage.create`
    * `ReceiveMessageHeader.ControlMessage`
    * `AncillaryMessage.checkMsg`
    * `AncillaryMessage.Carries`,
      `AncillaryMessage.carries_create`
-/

namespace Cosmos

open ControlMessage

------------------------------------------------------------
-- Levels and Types
------------------------------------------------------------

/- Strong type for option levels, an `enum class : int`. -/
structure OptLevel where
  raw : Int32
deriving DecidableEq, Repr

def OptLevel.socket : OptLevel := ⟨1⟩

/- Message types of UNIX sockets, an `enum class : int`. -/
structure UnixMessage where
  raw : Int32
deriving DecidableEq, Repr

namespace UnixMessage

def rights : UnixMessage := ⟨1⟩
def credentials : UnixMessage := ⟨2⟩

end UnixMessage

------------------------------------------------------------
-- Messages to Send
------------------------------------------------------------

/- `SendMessageHeader::ControlMessage`. -/
structure SendMessageHeader.ControlMessage where
  mBuffer : List Byte
deriving DecidableEq, Repr

namespace SendMessageHeader.ControlMessage

/- The offset of `CMSG_DATA` from the header. -/
def data : Nat := headerSize

/- `std::vector<uint8_t>::max_size()`. -/
def maxSize : Nat := 2 ^ 63 - 1

/-
  The constructor. The new buffer is all zero until the
  fields of the header are set.
-/
def create (level : OptLevel) (type : Int32) (dataLen : Nat) :
    Except Exn ControlMessage :=
  if maxSize < space dataLen then
    .error (.stdException (str "vector::_M_default_append"))
  else
    let buffer := List.replicate (space dataLen) 0
    let buffer :=
      Buffer.write buffer 8 (intBytes.encode level.raw)
    let buffer :=
      Buffer.write buffer 12 (intBytes.encode type)
    .ok ⟨Buffer.write buffer 0 (Buffer.leBytes 8
      (len dataLen))⟩

end SendMessageHeader.ControlMessage

------------------------------------------------------------
-- Received Messages
------------------------------------------------------------

/-
  `ReceiveMessageHeader::ControlMessage`: the header at a
  position of the received control data.
-/
structure ReceiveMessageHeader.ControlMessage where
  content : List Byte
  pos : Nat
deriving DecidableEq, Repr

namespace ReceiveMessageHeader.ControlMessage

variable (msg : ControlMessage)

def level : OptLevel :=
  ⟨intBytes.decode (Buffer.read msg.content (msg.pos + 8) 4)⟩

def type : Int32 :=
  intBytes.decode (Buffer.read msg.content (msg.pos + 12) 4)

/- The length of the message including the header. -/
def length : Nat :=
  cmsgLen msg.content msg.pos

/- Where the data is. -/
def data : Nat :=
  msg.pos + headerSize

/- A difference of `size_t` values, which wraps around. -/
def dataLength : Nat :=
  if headerSize ≤ msg.length then
    msg.length - headerSize
  else
    2 ^ 64 - (headerSize - msg.length)

end ReceiveMessageHeader.ControlMessage

------------------------------------------------------------
-- What Both Have in Common
------------------------------------------------------------

namespace AncillaryMessage

/-
  `AncillaryMessage::checkMsg` for the messages of UNIX
  sockets, where the level is `OptLevel::SOCKET`.
-/
def checkMsg {σ : Type}
    (msg : ReceiveMessageHeader.ControlMessage)
    (type : UnixMessage) : Method σ Unit :=
  if msg.level ≠ .socket ∨ type ≠ ⟨msg.type⟩ then
    Command.raise
      (.runtimeError (str "ancillary message type mismatch"))
  else
    pure ()

/- `AncillaryMessage::createMsg`. -/
def createMsg (type : UnixMessage) (dataLen : Nat) :
    Except Exn SendMessageHeader.ControlMessage :=
  SendMessageHeader.ControlMessage.create .socket type.raw
    dataLen

/- The message has the level and the type. -/
def Matches
    (msg : ReceiveMessageHeader.ControlMessage)
    (type : UnixMessage) : Prop :=
  msg.level = .socket ∧ msg.type = type.raw

instance
    (msg : ReceiveMessageHeader.ControlMessage)
    (type : UnixMessage) : Decidable (Matches msg type) :=
  inferInstanceAs (Decidable (_ ∧ _))

theorem run_checkMsg {σ : Type}
    {msg : ReceiveMessageHeader.ControlMessage}
    {type : UnixMessage}
    (hMatches : Matches msg type) (s : σ) :
    (checkMsg msg type).run s = (.returned (), s) := by
  rcases hMatches with ⟨hLevel, hType⟩
  simp [checkMsg, hLevel, hType]

/- A message of another level or type is refused. -/
theorem run_checkMsg_mismatch {σ : Type}
    {msg : ReceiveMessageHeader.ControlMessage}
    {type : UnixMessage}
    (hOther : ¬ Matches msg type) (s : σ) :
    (checkMsg msg type).run s =
      (.raised (.runtimeError
        (str "ancillary message type mismatch")), s) := by
  have hRefuse :
      msg.level ≠ .socket ∨ type ≠ ⟨msg.type⟩ := by
    by_contra hBoth
    rw [not_or, not_not, not_not] at hBoth
    apply hOther
    exact ⟨hBoth.1, by rw [hBoth.2]⟩
  unfold checkMsg
  rw [if_pos hRefuse, Command.run_raise]

------------------------------------------------------------
-- One Message in a Buffer
------------------------------------------------------------

/-
  The buffer is one message: its header fields, the data,
  and the padding behind the data.
-/
structure Carries
    (buffer : List Byte)
    (level : OptLevel) (type : Int32)
    (payload : List Byte) : Prop where
  length : buffer.length = space payload.length
  cmsgLen : cmsgLen buffer 0 = len payload.length
  level : Buffer.read buffer 8 4 = intBytes.encode level.raw
  type : Buffer.read buffer 12 4 = intBytes.encode type
  data :
    buffer.drop headerSize =
      payload ++
        List.replicate
          (align payload.length - payload.length) 0

/- The fields of a header that was written to a buffer. -/
theorem header_written
    {blank level type length : List Byte}
    (hRoom : headerSize ≤ blank.length)
    (hLevel : level.length = 4)
    (hType : type.length = 4)
    (hLength : length.length = 8)
    {buffer : List Byte}
    (hBuffer :
      buffer =
        Buffer.write
          (Buffer.write (Buffer.write blank 8 level) 12 type)
          0 length) :
    buffer.length = blank.length ∧
      Buffer.read buffer 0 8 = length ∧
      Buffer.read buffer 8 4 = level ∧
      Buffer.read buffer 12 4 = type ∧
      buffer.drop headerSize = blank.drop headerSize := by
  have hSize : headerSize = 16 := rfl
  have hFirst :
      (Buffer.write blank 8 level).length = blank.length :=
    Buffer.length_write (by omega)
  have hSecond :
      (Buffer.write (Buffer.write blank 8 level) 12
        type).length = blank.length := by
    rw [Buffer.length_write (by omega), hFirst]
  subst hBuffer
  refine ⟨?_, ?_, ?_, ?_, ?_⟩
  · rw [Buffer.length_write (by omega), hSecond]
  · have hRead :=
      @Buffer.read_write _
        (Buffer.write (Buffer.write blank 8 level) 12 type)
        0 length (by omega)
    rwa [hLength] at hRead
  · rw [Buffer.read_write_behind (by omega) (by omega),
      Buffer.read_write_before (by omega) (by omega),
      ← hLevel, Buffer.read_write (by omega)]
  · rw [Buffer.read_write_behind (by omega) (by omega),
      ← hType, Buffer.read_write (by omega)]
  · rw [Buffer.drop_write_behind (by omega) (by omega),
      Buffer.drop_write_behind (by omega) (by omega),
      Buffer.drop_write_behind (by omega) (by omega)]

/- Data in the space that was provided for it. -/
theorem carries_of_fields
    {buffer payload : List Byte}
    {level : OptLevel} {type : Int32}
    (hLength : buffer.length = space payload.length)
    (hCmsgLen :
      Buffer.leValue (Buffer.read buffer 0 8) =
        len payload.length)
    (hLevel :
      Buffer.read buffer 8 4 = intBytes.encode level.raw)
    (hType :
      Buffer.read buffer 12 4 = intBytes.encode type)
    (hBlank :
      buffer.drop headerSize =
        List.replicate (align payload.length) 0) :
    Carries (Buffer.write buffer headerSize payload) level
      type payload := by
  have hAlign := le_align payload.length
  have hSize : headerSize = 16 := rfl
  have hSpace :
      space payload.length = align payload.length + 16 := by
    simp [space, align, headerSize]
  have hRest :
      buffer.drop (headerSize + payload.length) =
        List.replicate
          (align payload.length - payload.length) 0 := by
    rw [← List.drop_drop, hBlank, List.drop_replicate]
  exact
    { length := by
        rw [Buffer.length_write (by omega), hLength]
      cmsgLen := by
        unfold cmsgLen
        rw [Buffer.read_write_before (by omega) (by omega),
          hCmsgLen]
      level := by
        rw [Buffer.read_write_before (by omega) (by omega),
          hLevel]
      type := by
        rw [Buffer.read_write_before (by omega) (by omega),
          hType]
      data := by
        rw [Buffer.drop_write (by omega), hRest] }

/-
  A new message whose data was then written carries this
  data.
-/
theorem carries_create
    {level : OptLevel} {type : Int32} {payload : List Byte}
    {msg : SendMessageHeader.ControlMessage}
    (hCreate :
      SendMessageHeader.ControlMessage.create level type
        payload.length = .ok msg) :
    Carries
      (Buffer.write msg.mBuffer
        SendMessageHeader.ControlMessage.data payload)
      level type payload := by
  have hSpace :
      space payload.length =
        align payload.length + headerSize := by
    simp [space, align, headerSize]
  have hLen :
      len payload.length = headerSize + payload.length := by
    simp [len, align, headerSize]
  have hAlign := le_align payload.length
  unfold SendMessageHeader.ControlMessage.create at hCreate
  split at hCreate
  · cases hCreate
  · next hMax =>
      have hFits : len payload.length < 256 ^ 8 := by
        have hLimit :
            SendMessageHeader.ControlMessage.maxSize <
              256 ^ 8 := by
          simp [SendMessageHeader.ControlMessage.maxSize]
        omega
      have hRoom :
          headerSize ≤
            (List.replicate (space payload.length)
              (0 : Byte)).length := by
        simp [hSpace]
      injection hCreate with hMsg
      rcases
          header_written hRoom
            (intBytes.size_encode level.raw)
            (intBytes.size_encode type)
            (Buffer.length_leBytes 8 (len payload.length))
            rfl with
        ⟨hLength, hCmsgLen, hLevel, hType, hBlank⟩
      rw [← hMsg]
      apply carries_of_fields
      · rw [hLength, List.length_replicate]
      · rw [hCmsgLen, Buffer.leValue_leBytes_of_lt hFits]
      · exact hLevel
      · exact hType
      · rw [hBlank, List.drop_replicate, hSpace,
          Nat.add_sub_cancel]

/- A message can be made unless its buffer is too large. -/
theorem create_ok_iff
    (level : OptLevel) (type : Int32) (dataLen : Nat) :
    (∃ msg,
      SendMessageHeader.ControlMessage.create level type
        dataLen = .ok msg) ↔
      space dataLen ≤
        SendMessageHeader.ControlMessage.maxSize := by
  unfold SendMessageHeader.ControlMessage.create
  split
  · next hMax => simp [hMax]
  · next hMax => simp [Nat.le_of_not_lt hMax]

theorem length_create
    {level : OptLevel} {type : Int32} {dataLen : Nat}
    {msg : SendMessageHeader.ControlMessage}
    (hCreate :
      SendMessageHeader.ControlMessage.create level type
        dataLen = .ok msg) :
    msg.mBuffer.length = space dataLen := by
  have hHeader : headerSize ≤ space dataLen := by
    simp [space, align, headerSize]
  unfold SendMessageHeader.ControlMessage.create at hCreate
  split at hCreate
  · cases hCreate
  · injection hCreate with hMsg
    have hRoom :
        headerSize ≤
          (List.replicate (space dataLen)
            (0 : Byte)).length := by
      simpa using hHeader
    have hLength :=
      (header_written hRoom
        (intBytes.size_encode level.raw)
        (intBytes.size_encode type)
        (Buffer.length_leBytes 8 (len dataLen)) rfl).1
    rw [← hMsg, hLength, List.length_replicate]

/- The message is the only one that is found. -/
theorem Carries.visited_eq
    {buffer payload : List Byte}
    {level : OptLevel} {type : Int32}
    (hCarries : Carries buffer level type payload) :
    visited buffer = [0] := by
  apply visited_of_filled
  right
  have hAlign := le_align payload.length
  have hLength := hCarries.length
  have hSpace :
      space payload.length =
        align (len payload.length) := by
    simp only [space, len, align, headerSize]
    omega
  have hLen :
      len payload.length = headerSize + payload.length := by
    simp [len, align, headerSize]
  have hLe := le_align (len payload.length)
  apply LaidOut.last
  · rw [hCarries.cmsgLen, hLen]
    omega
  · rw [hCarries.cmsgLen, hLength, hSpace]
    omega
  · rw [hCarries.cmsgLen, hLength, hSpace]
    omega

/- What its accessors return. -/
theorem Carries.accessors
    {buffer payload : List Byte}
    {level : OptLevel} {type : Int32}
    (hCarries : Carries buffer level type payload)
    {msg : ReceiveMessageHeader.ControlMessage}
    (hMsg : msg = ⟨buffer, 0⟩) :
    msg.level = level ∧ msg.type = type ∧
      msg.dataLength = payload.length := by
  subst hMsg
  refine ⟨?_, ?_, ?_⟩
  · unfold ReceiveMessageHeader.ControlMessage.level
    simp only [Nat.zero_add, hCarries.level,
      intBytes.decode_encode]
  · unfold ReceiveMessageHeader.ControlMessage.type
    simp only [Nat.zero_add, hCarries.type,
      intBytes.decode_encode]
  · have hLen :
        len payload.length =
          headerSize + payload.length := by
      simp [len, align, headerSize]
    unfold ReceiveMessageHeader.ControlMessage.dataLength
      ReceiveMessageHeader.ControlMessage.length
    simp only [hCarries.cmsgLen, hLen, Nat.le_add_right,
      if_true, Nat.add_sub_cancel_left]

end AncillaryMessage

end Cosmos
