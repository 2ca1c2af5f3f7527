import LibCosmos.Net.ControlMessage
import LibCosmos.FS.FileDescriptor
import LibCosmos.Foundation.Machine
import LibCosmos.IO.IOVector

/-
  The message header for receiving and its buffer for
  control messages (`src/net/message_header.cxx`,
  `include/net/message_header.hxx`).

  A pointer is the number of an allocation, 0 is the null
  pointer. The `msghdr` keeps such a pointer and a length
  next to the vector that owns the memory.

  Main declarations:
    * `ReceiveMessageHeader.setControlBufferSize`,
      `ReceiveMessageHeader.prepareReceive`
    * `ReceiveMessageHeader.Prepared`,
      `ReceiveMessageHeader.Inside`,
      `ReceiveMessageHeader.Stale`
    * `ReceiveMessageHeader.prepared_along_iff`
-/

namespace Cosmos

open ControlMessage

------------------------------------------------------------
-- Headers, Buffers and Memory
------------------------------------------------------------

/- `struct msghdr`, as far as `recvmsg()` reads it. -/
structure MsgHdr where
  msgName : Option UInt64
  msgNamelen : UInt64
  msgIov : IOVector
  msgControl : Nat
  msgControllen : Nat
deriving DecidableEq, Repr

/- A `std::vector<uint8_t>`: its storage and its size. -/
structure ControlBuffer where
  data : Nat
  size : Nat
deriving DecidableEq, Repr

/- The header wrapper for receiving. -/
structure ReceiveMessageHeader where
  mHeader : MsgHdr
  iovec : IOVector
  mControlBuffer : ControlBuffer
deriving DecidableEq, Repr

/- Where a `SocketAddress` is filled in. -/
structure AddressStorage where
  basePtr : UInt64
  maxSize : UInt64

namespace ReceiveMessageHeader

/-
  The object and the heap. A block keeps its length, which
  for the storage of the vector is the capacity; storage
  that the vector gave back is freed but still listed.
-/
structure World where
  this : ReceiveMessageHeader
  heap : Nat → List Byte
  nextBlock : Nat

namespace World

def setBlock
    (p : Nat) (bytes : List Byte) (w : World) : World :=
  { w with
    heap := fun q => if q = p then bytes else w.heap q }

def header (w : World) : MsgHdr := w.this.mHeader

def buffer (w : World) : ControlBuffer :=
  w.this.mControlBuffer

def capacity (w : World) : Nat :=
  (w.heap w.buffer.data).length

/- The bytes that the header points to. -/
def control (w : World) : List Byte :=
  (w.heap w.header.msgControl).take w.header.msgControllen

end World

------------------------------------------------------------
-- Operations
------------------------------------------------------------

def setBuffer (buffer : ControlBuffer) (w : World) : World :=
  { w with
    this := { w.this with mControlBuffer := buffer } }

def setHeader (header : MsgHdr) (w : World) : World :=
  { w with this := { w.this with mHeader := header } }

/- What a larger size does without new storage. -/
def growInPlace (bytes : Nat) (w : World) : World :=
  let old := w.buffer
  setBuffer ⟨old.data, bytes⟩
    (w.setBlock old.data
      (Buffer.write (w.heap old.data) old.size
        (List.replicate (bytes - old.size) 0)))

/- What a larger size does with new storage. -/
def growElsewhere (bytes capacity : Nat) (w : World) :
    World :=
  let old := w.buffer
  { setBuffer ⟨w.nextBlock, bytes⟩
      (w.setBlock w.nextBlock
        ((w.heap old.data).take old.size ++
          List.replicate (capacity - old.size) 0)) with
    nextBlock := w.nextBlock + 1 }

/-
  `std::vector::resize`. `reserve` is the capacity of the
  storage that the allocator provides if one is needed.
-/
def resize (bytes : Nat) (reserve : Option Nat) :
    Method World Unit := do
  let w ← Command.get
  if bytes ≤ w.capacity then
    Command.modify (growInPlace bytes)
  else
    match reserve with
    | none =>
        Command.raise (.stdException (str "std::bad_alloc"))
    | some capacity =>
        Command.modify (growElsewhere bytes capacity)

/- `std::vector::clear` keeps the storage. -/
def clearBuffer (w : World) : World :=
  setBuffer ⟨w.buffer.data, 0⟩ w

/- `ReceiveMessageHeader::setControlBufferSize`. -/
def setControlBufferSize
    (bytes : Nat) (reserve : Option Nat) :
    Method World Unit :=
  if bytes = 0 then
    Command.modify clearBuffer
  else if bytes < headerSize then
    Command.raise (.runtimeError (str
      "control buffer size smaller than control message header"))
  else
    resize bytes reserve

/- `ReceiveMessageHeader::clearControlBuffer`. -/
def clearControlBuffer : Method World Unit :=
  setControlBufferSize 0 none

def setAddress (addr : AddressStorage) (hdr : MsgHdr) :
    MsgHdr :=
  { hdr with
    msgName := some addr.basePtr
    msgNamelen := addr.maxSize }

def resetAddress (hdr : MsgHdr) : MsgHdr :=
  { hdr with
    msgName := none
    msgNamelen := 0 }

def setIov (iovec : IOVector) (hdr : MsgHdr) : MsgHdr :=
  { hdr with msgIov := iovec }

/- The control part is only set, never reset. -/
def setControl (buffer : ControlBuffer) (hdr : MsgHdr) :
    MsgHdr :=
  if buffer.size ≠ 0 then
    { hdr with
      msgControl := buffer.data
      msgControllen := buffer.size }
  else
    hdr

/- `ReceiveMessageHeader::prepareReceive`. -/
def prepareReceive (addr : Option AddressStorage) :
    Method World Unit := do
  let w ← Command.get
  let hdr :=
    match addr with
    | some addr => setAddress addr w.header
    | none => resetAddress w.header
  Command.modify
    (setHeader
      (setControl w.buffer (setIov w.this.iovec hdr)))

/-
  A successful `recvmsg()`: the kernel writes control data
  to where the header points and updates the length.
-/
def receive (bytes : List Byte) (w : World) : World :=
  setHeader
    { w.header with msgControllen := bytes.length }
    (w.setBlock w.header.msgControl
      (Buffer.write (w.heap w.header.msgControl) 0 bytes))

------------------------------------------------------------
-- Runs
------------------------------------------------------------

/- An operation on the header. -/
inductive Op where
| setControlBufferSize (bytes : Nat) (reserve : Option Nat)
| clearControlBuffer
| prepareReceive (addr : Option AddressStorage)
| recvmsg (answer : Sys (List Byte))
| iterate

/-
  The world and what a reader of the header relies on: the
  memory that was handed over for the last receive, and
  what the kernel put there, unless the memory was prepared
  or resized again.
-/
structure Session extends World where
  handed : Nat × Nat
  received : Option (List Byte)

/- A default-constructed header. -/
def start : Session where
  this :=
    { mHeader := ⟨none, 0, [], 0, 0⟩
      iovec := []
      mControlBuffer := ⟨0, 0⟩ }
  heap := fun _ => []
  nextBlock := 1
  handed := (0, 0)
  received := some []

/- The control buffer was given a size, or was not. -/
def resized (s : Session) (bytes : Nat) :
    Outcome Halt Exn Unit × World → Session
| (.returned _, w) =>
    { toWorld := w
      handed := s.handed
      received := if bytes = 0 then s.received else none }
| (_, w) => { s with toWorld := w }

/- The memory that the header describes is handed over. -/
def handOver (w : World) : Session where
  toWorld := w
  handed := (w.header.msgControl, w.header.msgControllen)
  received := none

def step (s : Session) : Op → Session
| .setControlBufferSize bytes reserve =>
    resized s bytes
      ((setControlBufferSize bytes reserve).run s.toWorld)
| .clearControlBuffer =>
    { s with toWorld := (clearControlBuffer.run s.toWorld).2 }
| .prepareReceive addr =>
    handOver ((prepareReceive addr).run s.toWorld).2
| .recvmsg (.ok bytes) =>
    { s with
      toWorld := receive bytes s.toWorld
      received := some bytes }
| .recvmsg (.error _) => s
| .iterate => s

/-
  New storage is large enough, and the kernel writes no more
  than the header offers.
-/
def legal (s : Session) : Op → Prop
| .setControlBufferSize bytes reserve =>
    ∀ capacity, reserve = some capacity → bytes ≤ capacity
| .recvmsg (.ok bytes) =>
    bytes.length ≤ s.header.msgControllen
| _ => True

def machine : Machine Session Op where
  legal := legal
  step := step

------------------------------------------------------------
-- Specification
------------------------------------------------------------

/-
  The header describes the current control buffer, or none
  if none is configured.
-/
def Prepared (w : World) : Prop :=
  (w.buffer.size ≠ 0 →
    w.header.msgControl = w.buffer.data ∧
      w.header.msgControllen = w.buffer.size) ∧
  (w.buffer.size = 0 →
    w.header.msgControl = 0 ∧ w.header.msgControllen = 0)

/-
  Iterating visits only headers in the memory of the last
  receive. What the kernel filled with whole messages is
  visited message by message.
-/
def Inside (s : Session) : Prop :=
  (visited s.control ≠ [] →
    s.header.msgControl = s.handed.1) ∧
  (∀ pos ∈ visited s.control,
    pos + headerSize ≤ s.handed.2) ∧
  ∀ bytes starts,
    s.received = some bytes → Filled bytes starts →
    s.control = bytes ∧ visited s.control = starts

/- What is claimed of one operation. -/
def Conforming (s : Session) (op : Op) (s' : Session) :
    Prop :=
  match op with
  | .setControlBufferSize bytes reserve =>
      ((setControlBufferSize bytes reserve).run
          s.toWorld).1 ≠ .returned () →
        s' = s
  | .prepareReceive _ => Prepared s'.toWorld
  | .iterate => Inside s
  | _ => True

/-
  A receive is prepared without a control buffer, while the
  header still points to an earlier one.
-/
def Stale (s : Session) (op : Op) : Prop :=
  (∃ addr, op = .prepareReceive addr) ∧
    s.buffer.size = 0 ∧ s.header.msgControl ≠ 0

/- The visited memory still belongs to the control buffer. -/
def Live (s : Session) (op : Op) : Prop :=
  op = .iterate → visited s.control ≠ [] →
    s.header.msgControl = s.buffer.data

/-
  The control buffer moved after the receive whose messages
  are visited.
-/
def Moved (s : Session) (op : Op) : Prop :=
  op = .iterate ∧ headerSize ≤ s.header.msgControllen ∧
    s.header.msgControl ≠ s.buffer.data

------------------------------------------------------------
-- What Each Operation Does
------------------------------------------------------------

theorem run_resize
    (bytes : Nat) (reserve : Option Nat) (w : World) :
    (resize bytes reserve).run w =
      if bytes ≤ w.capacity then
        (.returned (), growInPlace bytes w)
      else
        match reserve with
        | none =>
            (.raised (.stdException (str "std::bad_alloc")),
              w)
        | some capacity =>
            (.returned (), growElsewhere bytes capacity w) := by
  unfold resize
  rw [Command.run_bind, Command.run_get]
  by_cases hFits : bytes ≤ w.capacity
  · simp [hFits]
  · cases reserve <;> simp [hFits]

/-
  A size is set in one of three ways, or the call fails and
  leaves the world alone.
-/
theorem setControlBufferSize_cases
    (bytes : Nat) (reserve : Option Nat) (w : World) :
    (bytes = 0 ∧
      (setControlBufferSize bytes reserve).run w =
        (.returned (), clearBuffer w)) ∨
    (bytes ≠ 0 ∧ bytes ≤ w.capacity ∧
      (setControlBufferSize bytes reserve).run w =
        (.returned (), growInPlace bytes w)) ∨
    (∃ capacity, reserve = some capacity ∧
      w.capacity < bytes ∧
      (setControlBufferSize bytes reserve).run w =
        (.returned (), growElsewhere bytes capacity w)) ∨
    ∃ e, (setControlBufferSize bytes reserve).run w =
      (.raised e, w) := by
  unfold setControlBufferSize
  by_cases hZero : bytes = 0
  · left
    rw [if_pos hZero, Command.run_modify]
    exact ⟨hZero, rfl⟩
  · by_cases hShort : bytes < headerSize
    · right; right; right
      rw [if_neg hZero, if_pos hShort, Command.run_raise]
      exact ⟨_, rfl⟩
    · rw [if_neg hZero, if_neg hShort, run_resize]
      by_cases hFits : bytes ≤ w.capacity
      · right; left
        rw [if_pos hFits]
        exact ⟨hZero, hFits, rfl⟩
      · right; right
        rw [if_neg hFits]
        cases reserve with
        | none =>
            right
            exact ⟨_, rfl⟩
        | some capacity =>
            left
            exact ⟨capacity, rfl, by omega, rfl⟩

/- Preparing a receive only changes the header. -/
theorem run_prepareReceive
    (addr : Option AddressStorage) (w : World) :
    ∃ hdr,
      ((prepareReceive addr).run w).2 = setHeader hdr w ∧
      (w.buffer.size ≠ 0 →
        hdr.msgControl = w.buffer.data ∧
          hdr.msgControllen = w.buffer.size) ∧
      (w.buffer.size = 0 →
        hdr.msgControl = w.header.msgControl ∧
          hdr.msgControllen = w.header.msgControllen) := by
  refine ⟨_, rfl, ?_, ?_⟩
  · intro hConfigured
    simp [setControl, hConfigured]
  · intro hEmpty
    cases addr <;>
      simp [setControl, hEmpty, setIov, setAddress,
        resetAddress]

------------------------------------------------------------
-- Invariant
------------------------------------------------------------

/-
  The vector and the memory handed over are blocks of the
  heap, large enough for what is said about them.
-/
structure Consistent (s : Session) : Prop where
  nullBlock : s.heap 0 = []
  nonNull : 0 < s.nextBlock
  fits : s.buffer.size ≤ s.capacity
  bufferOld : s.buffer.data < s.nextBlock
  controlOld : s.header.msgControl < s.nextBlock
  handedOver : s.header.msgControl = s.handed.1
  short : s.header.msgControllen ≤ s.handed.2
  room : s.handed.2 ≤ (s.heap s.header.msgControl).length
  filled :
    ∀ bytes, s.received = some bytes → s.control = bytes

theorem consistent_start : Consistent start where
  nullBlock := rfl
  nonNull := Nat.one_pos
  fits := Nat.le_refl 0
  bufferOld := Nat.one_pos
  controlOld := Nat.one_pos
  handedOver := rfl
  short := Nat.le_refl 0
  room := Nat.le_refl 0
  filled := by
    intro bytes hReceived
    cases hReceived
    rfl

theorem length_control
    {s : Session} (hInv : Consistent s) :
    s.control.length = s.header.msgControllen := by
  have hShort := hInv.short
  have hRoom := hInv.room
  unfold World.control
  rw [List.length_take]
  omega

/- A header that points nowhere has no length. -/
theorem Consistent.null
    {s : Session} (hInv : Consistent s)
    (hNull : s.header.msgControl = 0) :
    s.header.msgControllen = 0 := by
  have hShort := hInv.short
  have hRoom := hInv.room
  rw [hNull, hInv.nullBlock, List.length_nil] at hRoom
  omega

/- Iterating stays inside the memory of the last receive. -/
theorem Consistent.inside
    {s : Session} (hInv : Consistent s) : Inside s := by
  refine ⟨fun _ => hInv.handedOver, ?_, ?_⟩
  · intro pos hMem
    have hInside := visited_inside s.control pos hMem
    rw [length_control hInv] at hInside
    exact Nat.le_trans hInside hInv.short
  · intro bytes starts hReceived hFilled
    have hControl := hInv.filled bytes hReceived
    rw [hControl]
    exact ⟨rfl, visited_of_filled hFilled⟩

/- Writing a block of the same length. -/
theorem length_setBlock
    {w : World} {p : Nat} {bytes : List Byte}
    (hLength : bytes.length = (w.heap p).length)
    (q : Nat) :
    ((w.setBlock p bytes).heap q).length =
      (w.heap q).length := by
  unfold World.setBlock
  by_cases hEq : q = p
  · simp only [hEq, if_pos]
    exact hLength
  · simp only [if_neg hEq]

/- The empty block stays empty. -/
theorem nullBlock_of_length
    {s : Session} (hInv : Consistent s)
    {heap : Nat → List Byte}
    (hLength : (heap 0).length = (s.heap 0).length) :
    heap 0 = [] := by
  rw [hInv.nullBlock] at hLength
  exact List.eq_nil_of_length_eq_zero hLength

theorem consistent_clear
    {s : Session} (hInv : Consistent s) :
    Consistent
      { s with toWorld := clearBuffer s.toWorld } where
  nullBlock := hInv.nullBlock
  nonNull := hInv.nonNull
  fits := Nat.zero_le _
  bufferOld := hInv.bufferOld
  controlOld := hInv.controlOld
  handedOver := hInv.handedOver
  short := hInv.short
  room := hInv.room
  filled := hInv.filled

theorem consistent_growInPlace
    {s : Session} (hInv : Consistent s)
    {bytes : Nat} (hFits : bytes ≤ s.capacity)
    {received : Option (List Byte)}
    (hReceived : received = none) :
    Consistent
      { toWorld := growInPlace bytes s.toWorld
        handed := s.handed
        received := received } := by
  have hWrite :
      (Buffer.write (s.heap s.buffer.data) s.buffer.size
        (List.replicate (bytes - s.buffer.size) 0)).length =
      (s.heap s.buffer.data).length := by
    apply Buffer.length_write
    rw [List.length_replicate]
    have hOld := hInv.fits
    have hCapacity :
        s.capacity = (s.heap s.buffer.data).length := rfl
    omega
  have hLength := length_setBlock (w := s.toWorld) hWrite
  exact
    { nullBlock := nullBlock_of_length hInv (hLength 0)
      nonNull := hInv.nonNull
      fits := by
        have hSame := hLength s.buffer.data
        exact Nat.le_trans hFits (Nat.le_of_eq hSame.symm)
      bufferOld := hInv.bufferOld
      controlOld := hInv.controlOld
      handedOver := hInv.handedOver
      short := hInv.short
      room := by
        have hSame := hLength s.header.msgControl
        exact hSame ▸ hInv.room
      filled := by
        intro content hSome
        rw [hReceived] at hSome
        cases hSome }

theorem consistent_growElsewhere
    {s : Session} (hInv : Consistent s)
    {bytes capacity : Nat}
    (hLarger : s.capacity < bytes)
    (hReserve : bytes ≤ capacity)
    {received : Option (List Byte)}
    (hReceived : received = none) :
    Consistent
      { toWorld := growElsewhere bytes capacity s.toWorld
        handed := s.handed
        received := received } := by
  have hOther :
      ∀ q, q < s.nextBlock →
        (growElsewhere bytes capacity s.toWorld).heap q =
          s.heap q := by
    intro q hOld
    exact if_neg (Nat.ne_of_lt hOld)
  exact
    { nullBlock := (hOther 0 hInv.nonNull).trans hInv.nullBlock
      nonNull := Nat.succ_pos _
      fits := by
        have hBlock :
            (growElsewhere bytes capacity
              s.toWorld).heap s.nextBlock =
              (s.heap s.buffer.data).take s.buffer.size ++
                List.replicate
                  (capacity - s.buffer.size) 0 :=
          if_pos rfl
        have hOld := hInv.fits
        have hCapacity :
            s.capacity =
              (s.heap s.buffer.data).length := rfl
        have hLength := congrArg List.length hBlock
        rw [List.length_append, List.length_take,
          List.length_replicate] at hLength
        have hGoal :
            bytes ≤
              ((growElsewhere bytes capacity
                s.toWorld).heap s.nextBlock).length := by
          omega
        exact hGoal
      bufferOld := Nat.lt_succ_self _
      controlOld := Nat.lt_succ_of_lt hInv.controlOld
      handedOver := hInv.handedOver
      short := hInv.short
      room := by
        have hSame := hOther _ hInv.controlOld
        exact hSame ▸ hInv.room
      filled := by
        intro content hSome
        rw [hReceived] at hSome
        cases hSome }

theorem consistent_receive
    {s : Session} (hInv : Consistent s)
    {bytes : List Byte}
    (hLegal : bytes.length ≤ s.header.msgControllen) :
    Consistent
      { s with
        toWorld := receive bytes s.toWorld
        received := some bytes } := by
  have hShort := hInv.short
  have hRoom := hInv.room
  have hWrite :
      (Buffer.write (s.heap s.header.msgControl) 0
        bytes).length =
      (s.heap s.header.msgControl).length := by
    apply Buffer.length_write
    omega
  have hLength := length_setBlock (w := s.toWorld) hWrite
  exact
    { nullBlock := nullBlock_of_length hInv (hLength 0)
      nonNull := hInv.nonNull
      fits := by
        have hSame := hLength s.buffer.data
        exact
          Nat.le_trans hInv.fits (Nat.le_of_eq hSame.symm)
      bufferOld := hInv.bufferOld
      controlOld := hInv.controlOld
      handedOver := hInv.handedOver
      short := Nat.le_trans hLegal hShort
      room := by
        have hSame := hLength s.header.msgControl
        exact hSame ▸ hRoom
      filled := by
        intro content hSome
        cases hSome
        have hRead :
            Buffer.read
              (Buffer.write (s.heap s.header.msgControl) 0
                bytes) 0 bytes.length = bytes :=
          Buffer.read_write (by omega)
        have hBlock :
            (receive bytes s.toWorld).heap
                s.header.msgControl =
              Buffer.write (s.heap s.header.msgControl) 0
                bytes :=
          if_pos rfl
        have hControl :
            (receive bytes s.toWorld).control =
              ((receive bytes s.toWorld).heap
                s.header.msgControl).take bytes.length := rfl
        rw [hControl, hBlock]
        exact hRead }

/- What is handed over is there, a stale header or not. -/
theorem consistent_prepareReceive
    {s : Session} (hInv : Consistent s)
    (addr : Option AddressStorage) :
    Consistent (step s (.prepareReceive addr)) := by
  rcases run_prepareReceive addr s.toWorld with
    ⟨hdr, hRun, hSome, hNone⟩
  have hStep :
      step s (.prepareReceive addr) =
        handOver (setHeader hdr s.toWorld) :=
    congrArg handOver hRun
  rw [hStep]
  have hPointer :
      hdr.msgControl < s.nextBlock ∧
        hdr.msgControllen ≤
          (s.heap hdr.msgControl).length := by
    by_cases hEmpty : s.buffer.size = 0
    · rw [(hNone hEmpty).1, (hNone hEmpty).2]
      exact
        ⟨hInv.controlOld, hInv.short.trans hInv.room⟩
    · rw [(hSome hEmpty).1, (hSome hEmpty).2]
      exact ⟨hInv.bufferOld, hInv.fits⟩
  exact
    { nullBlock := hInv.nullBlock
      nonNull := hInv.nonNull
      fits := hInv.fits
      bufferOld := hInv.bufferOld
      controlOld := hPointer.1
      handedOver := rfl
      short := Nat.le_refl _
      room := hPointer.2
      filled := by
        intro bytes hReceived
        cases hReceived }

/-
  A receive that is not prepared over a stale header hands
  over the current control buffer, or none.
-/
theorem consistent_prepare
    {s : Session} (hInv : Consistent s)
    {addr : Option AddressStorage}
    (hFresh : ¬ Stale s (.prepareReceive addr)) :
    Consistent (step s (.prepareReceive addr)) ∧
      Prepared (step s (.prepareReceive addr)).toWorld := by
  refine ⟨consistent_prepareReceive hInv addr, ?_⟩
  rcases run_prepareReceive addr s.toWorld with
    ⟨hdr, hRun, hSome, hNone⟩
  have hStep :
      step s (.prepareReceive addr) =
        handOver (setHeader hdr s.toWorld) :=
    congrArg handOver hRun
  rw [hStep]
  constructor
  · intro hConfigured
    exact hSome hConfigured
  · intro hEmpty
    rcases hNone hEmpty with ⟨hControl, hLen⟩
    have hNull : s.header.msgControl = 0 := by
      by_contra hPointer
      exact hFresh ⟨⟨addr, rfl⟩, hEmpty, hPointer⟩
    exact
      ⟨hControl.trans hNull, hLen.trans (hInv.null hNull)⟩

/- Over a stale header the old buffer is handed over. -/
theorem not_prepared_of_stale
    {s : Session} {addr : Option AddressStorage}
    (hStale : Stale s (.prepareReceive addr)) :
    ¬ Prepared (step s (.prepareReceive addr)).toWorld := by
  rcases hStale with ⟨_, hEmpty, hPointer⟩
  rcases run_prepareReceive addr s.toWorld with
    ⟨hdr, hRun, _, hNone⟩
  have hStep :
      step s (.prepareReceive addr) =
        handOver (setHeader hdr s.toWorld) :=
    congrArg handOver hRun
  rw [hStep]
  intro hPrepared
  apply hPointer
  rw [← (hNone hEmpty).1]
  exact (hPrepared.2 hEmpty).1

/- Setting a size keeps the invariant or does nothing. -/
theorem consistent_resized
    {s : Session} (hInv : Consistent s)
    {bytes : Nat} {reserve : Option Nat}
    (hLegal :
      ∀ capacity, reserve = some capacity →
        bytes ≤ capacity) :
    Consistent
        (step s (.setControlBufferSize bytes reserve)) ∧
      (((setControlBufferSize bytes reserve).run
          s.toWorld).1 ≠ .returned () →
        step s (.setControlBufferSize bytes reserve) = s) := by
  have hStep :
      step s (.setControlBufferSize bytes reserve) =
        resized s bytes
          ((setControlBufferSize bytes reserve).run
            s.toWorld) := rfl
  rw [hStep]
  rcases setControlBufferSize_cases bytes reserve s.toWorld
    with
    ⟨hZero, hRun⟩ | ⟨hNonzero, hFits, hRun⟩ |
    ⟨capacity, hReserve, hLarger, hRun⟩ | ⟨e, hRun⟩
  · rw [hRun]
    unfold resized
    rw [if_pos hZero]
    exact
      ⟨consistent_clear hInv, fun hFails =>
        absurd rfl hFails⟩
  · rw [hRun]
    exact
      ⟨consistent_growInPlace hInv hFits
        (if_neg hNonzero), fun hFails =>
        absurd rfl hFails⟩
  · rw [hRun]
    exact
      ⟨consistent_growElsewhere hInv hLarger
        (hLegal capacity hReserve)
        (if_neg (by omega)), fun hFails =>
        absurd rfl hFails⟩
  · rw [hRun]
    exact ⟨hInv, fun _ => rfl⟩

/-
  What a step that is not stale does: the invariant is kept
  and the operation conforms.
-/
theorem step_conforming
    {s : Session} (hInv : Consistent s)
    {op : Op} (hLegal : legal s op)
    (hFresh : ¬ Stale s op) :
    Consistent (step s op) ∧
      Conforming s op (step s op) := by
  cases op with
  | setControlBufferSize bytes reserve =>
      exact consistent_resized hInv hLegal
  | clearControlBuffer =>
      exact ⟨consistent_clear hInv, trivial⟩
  | prepareReceive addr =>
      exact consistent_prepare hInv hFresh
  | recvmsg answer =>
      cases answer with
      | ok bytes =>
          exact ⟨consistent_receive hInv hLegal, trivial⟩
      | error e =>
          exact ⟨hInv, trivial⟩
  | iterate =>
      exact ⟨hInv, hInv.inside⟩

theorem not_conforming_of_stale
    {s : Session} {op : Op} (hStale : Stale s op) :
    ¬ Conforming s op (step s op) := by
  rcases hStale.1 with ⟨addr, hOp⟩
  subst hOp
  exact not_prepared_of_stale hStale

/- Visited memory is live unless the buffer moved away. -/
theorem live_iff_not_moved
    {s : Session} (hInv : Consistent s) (op : Op) :
    Live s op ↔ ¬ Moved s op := by
  have hLength := length_control hInv
  constructor
  · intro hLive hMoved
    rcases hMoved with ⟨hOp, hLong, hElsewhere⟩
    apply hElsewhere
    apply hLive hOp
    rw [Ne, visited_eq_nil_iff]
    omega
  · intro hStays hOp hVisits
    by_contra hElsewhere
    rw [Ne, visited_eq_nil_iff] at hVisits
    exact hStays ⟨hOp, by omega, hElsewhere⟩

------------------------------------------------------------
-- Runs
------------------------------------------------------------

/-
  Along a run every prepared header describes the current
  control buffer, and every iteration stays in the memory of
  the last receive, exactly as long as no receive is
  prepared without a control buffer over the pointer to an
  earlier one. The memory that is visited moreover still
  belongs to the control buffer exactly as long as nothing
  is visited after the buffer moved.
-/
theorem prepared_along_iff
    (ops : List Op)
    (hLegal : machine.Legal start ops) :
    (machine.Along Conforming start ops ↔
      machine.Along (fun s op _ => ¬ Stale s op)
        start ops) ∧
    (machine.Along
        (fun s op s' => Conforming s op s' ∧ Live s op)
        start ops ↔
      machine.Along
        (fun s op _ => ¬ Stale s op ∧ ¬ Moved s op)
        start ops) := by
  constructor
  · apply Machine.along_iff_of_invariant Consistent ?_ ?_ ops
      start consistent_start hLegal
    · intro s op hInv hOp hFresh
      exact step_conforming hInv hOp hFresh
    · intro s op _ _ hStale
      exact
        not_conforming_of_stale (Classical.not_not.mp hStale)
  · apply Machine.along_iff_of_invariant Consistent ?_ ?_ ops
      start consistent_start hLegal
    · intro s op hInv hOp hGood
      have hStep := step_conforming hInv hOp hGood.1
      exact
        ⟨hStep.1, hStep.2,
          (live_iff_not_moved hInv op).mpr hGood.2⟩
    · intro s op hInv hOp hBad hBoth
      apply hBad
      constructor
      · intro hStale
        exact not_conforming_of_stale hStale hBoth.1
      · exact (live_iff_not_moved hInv op).mp hBoth.2

/- A buffer, a receive of one message, an iteration. -/
theorem prepared_along_received :
    machine.Along Conforming start
      [.setControlBufferSize 24 (some 32),
        .prepareReceive none,
        .recvmsg (.ok (Buffer.leBytes 8 16 ++
          Buffer.leBytes 4 1 ++ Buffer.leBytes 4 1)),
        .iterate] := by
  refine
    (prepared_along_iff
      [.setControlBufferSize 24 (some 32),
        .prepareReceive none,
        .recvmsg (.ok (Buffer.leBytes 8 16 ++
          Buffer.leBytes 4 1 ++ Buffer.leBytes 4 1)),
        .iterate] ?_).1.mpr ?_
  · refine ⟨?_, trivial, ?_, trivial, trivial⟩
    · intro capacity hReserve
      cases hReserve
      decide
    · unfold machine legal
      decide
  · refine ⟨?_, ?_, ?_, ?_, trivial⟩
    · intro hStale
      rcases hStale.1 with ⟨addr, hOp⟩
      cases hOp
    · intro hStale
      exact absurd hStale.2.1 (by decide)
    · intro hStale
      rcases hStale.1 with ⟨addr, hOp⟩
      cases hOp
    · intro hStale
      rcases hStale.1 with ⟨addr, hOp⟩
      cases hOp

/-
  The control buffer is cleared after a first receive was
  prepared with it. The second receive is still prepared
  with its memory.
-/
theorem prepareReceive_keeps_cleared_buffer :
    machine.Legal start
        [.setControlBufferSize 16 (some 16),
          .prepareReceive none, .clearControlBuffer,
          .prepareReceive none] ∧
      (machine.run start
        [.setControlBufferSize 16 (some 16),
          .prepareReceive none, .clearControlBuffer,
          .prepareReceive none]).buffer.size = 0 ∧
      (machine.run start
        [.setControlBufferSize 16 (some 16),
          .prepareReceive none, .clearControlBuffer,
          .prepareReceive none]).header.msgControl = 1 ∧
      (machine.run start
        [.setControlBufferSize 16 (some 16),
          .prepareReceive none, .clearControlBuffer,
          .prepareReceive none]).header.msgControllen = 16 ∧
      ¬ machine.Along Conforming start
        [.setControlBufferSize 16 (some 16),
          .prepareReceive none, .clearControlBuffer,
          .prepareReceive none] := by
  refine ⟨⟨?_, trivial, trivial, trivial, trivial⟩, by decide,
    by decide, by decide, ?_⟩
  · intro capacity hReserve
    cases hReserve
    decide
  · intro hAlong
    have hPrepared : Prepared
        (machine.run start
          [.setControlBufferSize 16 (some 16),
            .prepareReceive none, .clearControlBuffer,
            .prepareReceive none]).toWorld :=
      hAlong.2.2.2.1
    exact absurd (hPrepared.2 (by decide)).1 (by decide)

end ReceiveMessageHeader

end Cosmos
