import LibCosmos.Foundation.Blocks
import LibCosmos.Net.UnixAux

/-
  Control messages for sending with their buffer in memory
  and a pointer into it (`include/net/message_header.hxx`,
  `src/net/message_header.cxx`, `src/net/unix/aux.cxx`).

  An allocation works unless the vector is too large. A write
  outside of a block is on record and does nothing else.

  Main declarations:
    * `SendControl.Memory`, `SendControl.ControlMessage`
    * `SendControl.create`, `SendControl.serializeRights`,
      `SendControl.serializeCredentials`
    * `SendControl.setControlMsg`
    * `SendControl.Right`, `SendControl.Fit`
    * `SendControl.capacity_right_iff`
-/

namespace Cosmos

namespace SendControl

open Cosmos.ControlMessage (space len align headerSize)

------------------------------------------------------------
-- Memory
------------------------------------------------------------

/- An offset in a block; a null pointer has no block. -/
structure Ptr where
  block : Option Nat
  offset : Nat
deriving DecidableEq, Repr

namespace Ptr

def add (p : Ptr) (n : Nat) : Ptr :=
  { p with offset := p.offset + n }

/- The difference of pointers into one block, a `size_t`. -/
def sub (p q : Ptr) : UInt64 :=
  UInt64.ofNat (p.offset - q.offset)

end Ptr

/- The code that writes. -/
inductive Writer where
| constructor
| serialize
deriving DecidableEq, Repr

structure Write where
  writer : Writer
  dest : Ptr
  count : Nat
deriving DecidableEq, Repr

/- The blocks, those below `next` once allocated. -/
structure Memory where
  heap : Blocks.Heap Nat (List Byte)
  next : Nat
  writes : List Write

namespace Memory

/- The heap with bytes at a position of a block. -/
def overwrite
    (heap : Blocks.Heap Nat (List Byte))
    (dest : Ptr) (bs : List Byte) :
    Blocks.Heap Nat (List Byte) :=
  match dest.block.bind heap with
  | none => heap
  | some content =>
      if dest.offset + bs.length ≤ content.length then
        Blocks.store heap dest.block
          (Buffer.write content dest.offset bs)
      else heap

def put
    (writer : Writer) (dest : Ptr) (bs : List Byte)
    (m : Memory) : Memory where
  heap := overwrite m.heap dest bs
  next := m.next
  writes := ⟨writer, dest, bs.length⟩ :: m.writes

end Memory

/- `std::memcpy`, and an assignment to a field. -/
def write
    (writer : Writer) (dest : Ptr) (bs : List Byte) :
    Method Memory Unit :=
  .modify (Memory.put writer dest bs)

/- A `std::vector<uint8_t>`. -/
structure Vec where
  block : Option Nat
  size : Nat
deriving DecidableEq, Repr

namespace Vec

def empty : Vec := ⟨none, 0⟩

def data (v : Vec) : Ptr := ⟨v.block, 0⟩

open SendMessageHeader.ControlMessage in
/- `resize` of an empty vector. -/
def resize (size : Nat) : Method Memory Vec where
  run m :=
    if maxSize < size then
      (.raised
        (.stdException (str "vector::_M_default_append")), m)
    else if size = 0 then
      (.returned empty, m)
    else
      (.returned ⟨some m.next, size⟩,
        { m with
          heap :=
            Blocks.store m.heap (some m.next)
              (List.replicate size 0)
          next := m.next + 1 })

end Vec

------------------------------------------------------------
-- Control Messages
------------------------------------------------------------

/- `CMSG_ALIGN`, `CMSG_SPACE` and `CMSG_LEN`. -/
def cmsgAlign (n : UInt64) : UInt64 :=
  (n + 7) &&& ~~~7

def cmsgSpace (n : UInt64) : UInt64 :=
  cmsgAlign n + cmsgAlign 16

def cmsgLen (n : UInt64) : UInt64 :=
  cmsgAlign 16 + n

/- `SendMessageHeader::ControlMessage`. -/
structure ControlMessage where
  mBuffer : Vec
  mHeader : Ptr
deriving DecidableEq, Repr

namespace ControlMessage

/- `CMSG_DATA`. -/
def data (msg : ControlMessage) : Ptr :=
  msg.mHeader.add 16

def dataSpace (msg : ControlMessage) : UInt64 :=
  msg.data.sub msg.mBuffer.data

/-
  The implicit move constructor: the new object and what is
  left of the other one.
-/
def move (msg : ControlMessage) :
    ControlMessage × ControlMessage :=
  (msg, { mBuffer := .empty, mHeader := msg.mHeader })

end ControlMessage

/- The constructor. -/
def create
    (level : OptLevel) (type : Int32) (dataLen : UInt64) :
    Method Memory ControlMessage := do
  let mBuffer ← Vec.resize (cmsgSpace dataLen).toNat
  let mHeader := mBuffer.data
  write .constructor (mHeader.add 8)
    (intBytes.encode level.raw)
  write .constructor (mHeader.add 12) (intBytes.encode type)
  write .constructor mHeader
    (Buffer.leBytes 8 (cmsgLen dataLen).toNat)
  pure { mBuffer := mBuffer, mHeader := mHeader }

/- `control_msg = std::move(msg)`, with the old content. -/
def setControlMsg
    (old : Option ControlMessage) (msg : ControlMessage) :
    Method Memory ControlMessage where
  run m :=
    (.returned msg.move.1,
      { m with
        heap :=
          Blocks.release m.heap
            (old.bind fun o => o.mBuffer.block) })

/- A `std::vector<FileNum>`, with its `max_size()`. -/
structure FdVector where
  fds : List FileNum
  bounded : fds.length ≤ 2 ^ 61 - 1

/- The loop in `UnixRightsMessage::serialize`. -/
def storeAll : Ptr → List FileNum → Method Memory Unit
| _, [] => pure ()
| data, fd :: fds => do
    write .serialize data (fileNums.encode fd)
    storeAll (data.add fileNums.size) fds

/- `UnixRightsMessage::serialize`. -/
def serializeRights (mFds : FdVector) :
    Method Memory ControlMessage :=
  if mFds.fds = [] then
    .raise
      (.usageError
        (str "Attempt to serialize empty vector of FileNum"))
  else do
    let ret ←
      create .socket UnixMessage.rights.raw
        (4 * UInt64.ofNat mFds.fds.length)
    storeAll ret.data mFds.fds
    pure ret

/- `UnixCredentialsMessage::serialize`. -/
def serializeCredentials (mCreds : UnixCredentials) :
    Method Memory ControlMessage := do
  let ret ←
    create .socket UnixMessage.credentials.raw 12
  write .serialize ret.data (ucred.encode mCreds)
  pure ret

------------------------------------------------------------
-- What the Buffer Is For
------------------------------------------------------------

/- `data()` points into the live buffer, or to its end. -/
structure Inside
    (heap : Blocks.Heap Nat (List Byte))
    (msg : ControlMessage) : Prop where
  live :
    ∃ b, msg.mBuffer.block = some b ∧
      (heap b).map List.length = some msg.mBuffer.size
  block : msg.data.block = msg.mBuffer.block
  offset : msg.data.offset ≤ msg.mBuffer.size

/- `dataSpace()` is what there is, and enough. -/
structure Sized
    (n : Nat)
    (heap : Blocks.Heap Nat (List Byte))
    (msg : ControlMessage) : Prop where
  inside : Inside heap msg
  exact :
    msg.dataSpace.toNat =
      msg.mBuffer.size - msg.data.offset
  enough : n ≤ msg.dataSpace.toNat

/- A write between `data()` and the end of the buffer. -/
structure Held
    (heap : Blocks.Heap Nat (List Byte))
    (msg : ControlMessage) (w : Write) : Prop where
  inside : Inside heap msg
  block : w.dest.block = msg.data.block
  behind : msg.data.offset ≤ w.dest.offset
  fits : w.dest.offset + w.count ≤ msg.mBuffer.size

/- Ways to come to a control message. -/
inductive Subject where
| created (level : OptLevel) (type : Int32) (n : UInt64)
| rights (mFds : FdVector)
| credentials (mCreds : UnixCredentials)

namespace Subject

def make : Subject → Method Memory ControlMessage
| .created level type n => create level type n
| .rights mFds => serializeRights mFds
| .credentials mCreds => serializeCredentials mCreds

def Good (subject : Subject) (m : Memory)
    (msg : ControlMessage) : Prop :=
  match subject with
  | .created _ _ n => Sized n.toNat m.heap msg
  | .rights _ =>
      ∀ w ∈ m.writes, w.writer = .serialize →
        Held m.heap msg w
  | .credentials _ =>
      ∀ w ∈ m.writes, w.writer = .serialize →
        Held m.heap msg w

end Subject

/-
  A process before the message is made: what `control_msg`
  of its `SendMessageHeader` has is in an older block.
-/
structure Sender where
  memory : Memory
  controlMsg : Option ControlMessage
  fresh : memory.writes = []
  older :
    ∀ msg ∈ controlMsg, ∀ b ∈ msg.mBuffer.block,
      b < memory.next

/- A message that is made is good, before and after a move. -/
def Right (subject : Subject) : Prop :=
  ∀ (sender : Sender) (msg : ControlMessage) (m : Memory),
    subject.make.run sender.memory = (.returned msg, m) →
    subject.Good m msg ∧
      ∀ msg' m',
        (setControlMsg sender.controlMsg msg).run m =
          (.returned msg', m') →
        subject.Good m' msg'

/-
  The payloads for which `data()` is as far from the start
  of the buffer as it is from the end, and those for which
  no buffer can be had.
-/
def Fit : Subject → Prop
| .created _ _ n =>
    (9 ≤ n.toNat ∧ n.toNat ≤ 16) ∨
      (2 ^ 63 - 24 < n.toNat ∧ n.toNat ≤ 2 ^ 64 - 24)
| .rights _ => True
| .credentials _ => True

------------------------------------------------------------
-- Sizes
------------------------------------------------------------

theorem getLsbD_seven {i : Nat} (hi : 3 ≤ i) :
    (7#64).getLsbD i = false := by
  rw [BitVec.getLsbD_ofNat, Nat.testBit_lt_two_pow]
  · simp
  · calc 7 < 2 ^ 3 := by decide
      _ ≤ 2 ^ i := Nat.pow_le_pow_right (by decide) hi

theorem toNat_and_not_seven (x : BitVec 64) :
    (x &&& ~~~7#64).toNat = x.toNat / 8 * 8 := by
  have hShift : x &&& ~~~7#64 = (x >>> 3) <<< 3 := by
    apply BitVec.eq_of_getLsbD_eq
    intro i hi
    simp only [BitVec.getLsbD_and, BitVec.getLsbD_not,
      BitVec.getLsbD_shiftLeft, BitVec.getLsbD_ushiftRight]
    by_cases hLow : i < 3
    · have hCases : i = 0 ∨ i = 1 ∨ i = 2 := by omega
      rcases hCases with rfl | rfl | rfl <;> simp
    · have hBit := getLsbD_seven (Nat.le_of_not_lt hLow)
      have hIndex : 3 + (i - 3) = i := by omega
      rw [hBit, hIndex]
      simp [hLow, hi]
  rw [hShift, BitVec.toNat_shiftLeft,
    BitVec.toNat_ushiftRight, Nat.shiftRight_eq_div_pow,
    Nat.shiftLeft_eq]
  have hLess := x.isLt
  omega

theorem toNat_cmsgAlign (n : UInt64) :
    (cmsgAlign n).toNat =
      (n.toNat + 7) % 2 ^ 64 / 8 * 8 := by
  have hBits := toNat_and_not_seven (n + 7).toBitVec
  have hSum : (n + 7).toNat = (n.toNat + 7) % 2 ^ 64 :=
    UInt64.toNat_add n 7
  rw [← hSum]
  exact hBits

theorem toNat_cmsgSpace (n : UInt64) :
    (cmsgSpace n).toNat =
      ((n.toNat + 7) % 2 ^ 64 / 8 * 8 + 16) % 2 ^ 64 := by
  have hHeader : (cmsgAlign 16).toNat = 16 := by decide
  unfold cmsgSpace
  rw [UInt64.toNat_add, toNat_cmsgAlign, hHeader]

/- Without a wrap around these are the usual sizes. -/
theorem toNat_cmsgSpace_of_lt
    {n : UInt64} (hFits : n.toNat < 2 ^ 64 - 23) :
    (cmsgSpace n).toNat = space n.toNat := by
  rw [toNat_cmsgSpace]
  unfold space align headerSize
  omega

------------------------------------------------------------
-- Writes
------------------------------------------------------------

/- No write changes the size of a block. -/
theorem length_overwrite
    (heap : Blocks.Heap Nat (List Byte))
    (dest : Ptr) (bs : List Byte) (b : Nat) :
    (Memory.overwrite heap dest bs b).map List.length =
      (heap b).map List.length := by
  unfold Memory.overwrite
  cases hBlock : dest.block with
  | none => rfl
  | some c =>
      simp only [Option.bind_some]
      cases hContent : heap c with
      | none => rfl
      | some content =>
          simp only
          split
          · next hFits =>
              by_cases hSame : b = c
              · subst hSame
                simp [Blocks.store, hContent,
                  Buffer.length_write hFits]
              · simp [Blocks.store, hSame]
          · rfl

/- A write inside of a block. -/
theorem overwrite_self
    {heap : Blocks.Heap Nat (List Byte)}
    {b : Nat} {content : List Byte}
    (hContent : heap b = some content)
    {offset : Nat} {bs : List Byte}
    (hFits : offset + bs.length ≤ content.length) :
    Memory.overwrite heap ⟨some b, offset⟩ bs b =
      some (Buffer.write content offset bs) := by
  simp [Memory.overwrite, hContent, hFits, Blocks.store]

/- The memory in which the fields of a header are set. -/
def headed
    (level : OptLevel) (type : Int32) (length : UInt64)
    (mHeader : Ptr) (m : Memory) : Memory :=
  ((m.put .constructor (mHeader.add 8)
      (intBytes.encode level.raw)).put .constructor
      (mHeader.add 12) (intBytes.encode type)).put
    .constructor mHeader (Buffer.leBytes 8 length.toNat)

variable {level : OptLevel} {type : Int32} {n : UInt64}
  {m m' : Memory} {msg : ControlMessage}

/- A vector that is too large is not made. -/
theorem run_create_of_large
    (hLarge :
      SendMessageHeader.ControlMessage.maxSize <
        (cmsgSpace n).toNat) :
    (create level type n).run m =
      (.raised
        (.stdException (str "vector::_M_default_append")),
        m) := by
  have hResize : (Vec.resize (cmsgSpace n).toNat).run m =
      (.raised
        (.stdException (str "vector::_M_default_append")),
        m) := if_pos hLarge
  unfold create
  exact Command.run_bind_raised hResize _

/- What is made if the sizes wrap around to nothing. -/
theorem run_create_of_zero
    (hZero : (cmsgSpace n).toNat = 0) :
    (create level type n).run m =
      (.returned ⟨.empty, Vec.empty.data⟩,
        headed level type (cmsgLen n) Vec.empty.data m) := by
  have hResize : (Vec.resize (cmsgSpace n).toNat).run m =
      (.returned .empty, m) := by
    rw [hZero]
    rfl
  unfold create
  rw [Command.run_bind_returned hResize]
  rfl

/- The memory with a new block. -/
def allocated (size : Nat) (m : Memory) : Memory where
  heap :=
    Blocks.store m.heap (some m.next)
      (List.replicate size 0)
  next := m.next + 1
  writes := m.writes

/- The message in the next block. -/
def made (size : Nat) (m : Memory) : ControlMessage where
  mBuffer := ⟨some m.next, size⟩
  mHeader := ⟨some m.next, 0⟩

theorem run_create
    (level : OptLevel) (type : Int32) (m : Memory)
    (hSmall :
      (cmsgSpace n).toNat ≤
        SendMessageHeader.ControlMessage.maxSize)
    (hSome : (cmsgSpace n).toNat ≠ 0) :
    (create level type n).run m =
      (.returned (made (cmsgSpace n).toNat m),
        headed level type (cmsgLen n) ⟨some m.next, 0⟩
          (allocated (cmsgSpace n).toNat m)) := by
  have hResize : (Vec.resize (cmsgSpace n).toNat).run m =
      (.returned ⟨some m.next, (cmsgSpace n).toNat⟩,
        allocated (cmsgSpace n).toNat m) := by
    unfold Vec.resize
    simp only
    rw [if_neg (Nat.not_lt.mpr hSmall), if_neg hSome]
    rfl
  unfold create
  rw [Command.run_bind_returned hResize]
  rfl

theorem length_headed
    (length : UInt64) (mHeader : Ptr) (b : Nat) :
    ((headed level type length mHeader m).heap b).map
        List.length =
      (m.heap b).map List.length := by
  unfold headed Memory.put
  rw [length_overwrite, length_overwrite, length_overwrite]

/- A message that is made has its block. -/
theorem inside_made
    (level : OptLevel) (type : Int32) (length : UInt64)
    (m : Memory)
    {size : Nat} (hRoom : 16 ≤ size) :
    Inside
      (headed level type length ⟨some m.next, 0⟩
        (allocated size m)).heap
      (made size m) :=
  { live := by
      refine ⟨m.next, rfl, ?_⟩
      rw [length_headed]
      simp [allocated, Blocks.store, made]
    block := rfl
    offset := by
      simpa [made, ControlMessage.data, Ptr.add] using hRoom }

------------------------------------------------------------
-- Created Messages
------------------------------------------------------------

theorem dataSpace_made (size : Nat) (m : Memory) :
    (made size m).dataSpace.toNat = 16 :=
  rfl

/- The header is as long as the data for one size only. -/
theorem sized_made_iff
    {size k : Nat} {heap : Blocks.Heap Nat (List Byte)} :
    Sized k heap (made size m) ↔
      Inside heap (made size m) ∧ size = 32 ∧ k ≤ 16 := by
  have hOffset : (made size m).data.offset = 16 := rfl
  have hSize : (made size m).mBuffer.size = size := rfl
  constructor
  · intro hSized
    have hExact := hSized.exact
    have hEnough := hSized.enough
    rw [dataSpace_made, hOffset, hSize] at hExact
    rw [dataSpace_made] at hEnough
    exact ⟨hSized.inside, by omega, hEnough⟩
  · rintro ⟨hInside, rfl, hFew⟩
    exact
      { inside := hInside
        exact := rfl
        enough := hFew }

/- The block of the message survives the one it replaces. -/
theorem inside_setControlMsg
    {sender : Sender} {msg' : ControlMessage}
    (hBlock :
      msg.mBuffer.block = some sender.memory.next)
    (hRun :
      (setControlMsg sender.controlMsg msg).run m =
        (.returned msg', m')) :
    msg' = msg ∧ m'.writes = m.writes ∧
      (Inside m.heap msg → Inside m'.heap msg) := by
  cases hRun
  refine ⟨rfl, rfl, ?_⟩
  intro hInside
  have hOther :
      (sender.controlMsg.bind fun o => o.mBuffer.block) ≠
        some sender.memory.next := by
    intro hSame
    rcases Option.bind_eq_some_iff.mp hSame with
      ⟨old, hOld, hNext⟩
    exact
      Nat.lt_irrefl _ (sender.older old hOld _ hNext)
  rcases hInside.live with ⟨b, hOwn, hLive⟩
  have hSame : b = sender.memory.next :=
    Option.some.inj (hOwn.symm.trans hBlock)
  refine
    { live := ⟨b, hOwn, ?_⟩
      block := hInside.block
      offset := hInside.offset }
  rw [← hLive]
  exact
    congrArg (Option.map List.length)
      (Blocks.release_of_ne (hSame ▸ hOther))

/- A process without any memory. -/
def bare : Sender where
  memory :=
    { heap := fun _ => none
      next := 0
      writes := [] }
  controlMsg := none
  fresh := rfl
  older := by simp

/- The sizes that decide what is made. -/
theorem fit_created_iff :
    Fit (.created level type n) ↔
      SendMessageHeader.ControlMessage.maxSize <
          (cmsgSpace n).toNat ∨
        ((cmsgSpace n).toNat = 32 ∧ n.toNat ≤ 16) := by
  have hBound := n.toNat_lt
  unfold Fit SendMessageHeader.ControlMessage.maxSize
  simp only [toNat_cmsgSpace]
  omega

theorem created_right_iff
    (level : OptLevel) (type : Int32) (n : UInt64) :
    Right (.created level type n) ↔
      Fit (.created level type n) := by
  rw [fit_created_iff]
  by_cases hLarge :
      SendMessageHeader.ControlMessage.maxSize <
        (cmsgSpace n).toNat
  · refine iff_of_true ?_ (.inl hLarge)
    intro sender msg m hRun
    rw [Subject.make, run_create_of_large hLarge] at hRun
    cases hRun
  · rw [or_iff_right hLarge]
    have hSmall := Nat.le_of_not_lt hLarge
    by_cases hZero : (cmsgSpace n).toNat = 0
    · -- the sum of the sizes wraps around to no buffer
      refine iff_of_false ?_ (by omega)
      intro hRight
      have hSized :=
        (hRight bare _ _ (run_create_of_zero hZero)).1
      rcases hSized.inside.live with ⟨b, hNull, -⟩
      cases hNull
    · constructor
      · intro hRight
        have hSized :=
          (hRight bare _ _
            (run_create level type _ hSmall hZero)).1
        exact (sized_made_iff.mp hSized).2
      · rintro ⟨hSize, hFew⟩ sender msg m hRun
        rw [Subject.make,
          run_create level type _ hSmall hZero] at hRun
        cases hRun
        have hRoom : 16 ≤ (cmsgSpace n).toNat := by omega
        have hInside :=
          inside_made level type (cmsgLen n) sender.memory
            hRoom
        refine
          ⟨sized_made_iff.mpr ⟨hInside, hSize, hFew⟩, ?_⟩
        intro msg' m' hMove
        rcases inside_setControlMsg rfl hMove with
          ⟨rfl, -, hKeeps⟩
        exact
          sized_made_iff.mpr ⟨hKeeps hInside, hSize, hFew⟩

------------------------------------------------------------
-- Serialized Messages
------------------------------------------------------------

/- Writes of so many bytes from a position on. -/
structure Fills
    (count : Nat) (data : Ptr) (m m' : Memory) : Prop where
  length :
    ∀ b, (m'.heap b).map List.length =
      (m.heap b).map List.length
  writes :
    ∀ w ∈ m'.writes,
      w ∈ m.writes ∨
        (w.dest.block = data.block ∧
          data.offset ≤ w.dest.offset ∧
          w.dest.offset + w.count ≤ data.offset + count)

theorem fills_put (data : Ptr) (bs : List Byte) (m : Memory) :
    Fills bs.length data m (m.put .serialize data bs) :=
  { length := length_overwrite m.heap data bs
    writes := by
      intro w hMem
      rcases List.mem_cons.mp hMem with rfl | hOld
      · exact .inr ⟨rfl, Nat.le_refl _, Nat.le_refl _⟩
      · exact .inl hOld }

/- The memory behind the loop. -/
def storedAll : Ptr → List FileNum → Memory → Memory
| _, [], m => m
| data, fd :: fds, m =>
    storedAll (data.add fileNums.size) fds
      (m.put .serialize data (fileNums.encode fd))

theorem run_storeAll :
    ∀ (fds : List FileNum) (data : Ptr) (m : Memory),
      (storeAll data fds).run m =
        (.returned (), storedAll data fds m)
| [], _, _ => rfl
| fd :: fds, data, m => by
    unfold storeAll write
    rw [Command.run_bind, Command.run_modify]
    exact
      run_storeAll fds (data.add fileNums.size)
        (m.put .serialize data (fileNums.encode fd))

/- The loop stays in the bytes of its descriptors. -/
theorem fills_storedAll :
    ∀ (fds : List FileNum) (data : Ptr) (m : Memory),
      Fills (fileNums.size * fds.length) data m
        (storedAll data fds m)
| [], _, _ =>
    { length := fun _ => rfl
      writes := fun _ hMem => .inl hMem }
| fd :: fds, data, m => by
    have hSize := fileNums.size_encode fd
    have hFirst :=
      fills_put data (fileNums.encode fd) m
    have hRest :=
      fills_storedAll fds (data.add fileNums.size)
        (m.put .serialize data (fileNums.encode fd))
    have hBehind :
        (data.add fileNums.size).offset =
          data.offset + fileNums.size := rfl
    refine
      { length := fun b =>
          (hRest.length b).trans (hFirst.length b)
        writes := ?_ }
    intro w hMem
    rw [List.length_cons, Nat.mul_succ]
    rcases hRest.writes w hMem with hOld | ⟨hB, hLow, hHigh⟩
    · rcases hFirst.writes w hOld with
        hOlder | ⟨hB, hLow, hHigh⟩
      · exact .inl hOlder
      · exact .inr ⟨hB, hLow, by omega⟩
    · exact .inr ⟨hB, by omega, by omega⟩

/- What fits without a wrap around has its space. -/
theorem fits_of_lt
    (hFits : n.toNat < 2 ^ 64 - 23) :
    16 + n.toNat ≤ (cmsgSpace n).toNat := by
  have hAlign := Cosmos.ControlMessage.le_align n.toNat
  have hHeader : align headerSize = 16 := rfl
  rw [toNat_cmsgSpace_of_lt hFits]
  unfold space
  omega

/- Writes of the payload are behind the header. -/
theorem held_of_fills
    {sender : Sender}
    (hFits : n.toNat < 2 ^ 64 - 23)
    (hMade : msg = made (cmsgSpace n).toNat sender.memory)
    (hFills :
      Fills n.toNat msg.data
        (headed level type (cmsgLen n)
          ⟨some sender.memory.next, 0⟩
          (allocated (cmsgSpace n).toNat sender.memory)) m) :
    Inside m.heap msg ∧
      ∀ w ∈ m.writes, w.writer = .serialize →
        ∀ heap, Inside heap msg → Held heap msg w := by
  have hRoom := fits_of_lt hFits
  subst hMade
  have hInside :=
    inside_made level type (cmsgLen n) sender.memory
      (by omega : 16 ≤ (cmsgSpace n).toNat)
  have hOffset :
      (made (cmsgSpace n).toNat sender.memory).data.offset =
        16 := rfl
  have hSize :
      (made (cmsgSpace n).toNat sender.memory).mBuffer.size =
        (cmsgSpace n).toNat := rfl
  refine ⟨?_, ?_⟩
  · rcases hInside.live with ⟨b, hOwn, hLive⟩
    exact
      { live := ⟨b, hOwn, (hFills.length b).trans hLive⟩
        block := hInside.block
        offset := hInside.offset }
  · intro w hMem hWriter heap hThere
    rcases hFills.writes w hMem with
      hOld | ⟨hBlock, hLow, hHigh⟩
    · -- the constructor wrote the header only
      simp [headed, Memory.put, allocated, sender.fresh]
        at hOld
      rcases hOld with rfl | rfl | rfl <;> cases hWriter
    · exact
        { inside := hThere
          block := hBlock
          behind := hLow
          fits := by omega }

/- A message that is made and then filled. -/
theorem held_of_made
    {sender : Sender}
    {fill : ControlMessage → Method Memory Unit}
    {filled : ControlMessage → Memory → Memory}
    (hFits : n.toNat < 2 ^ 64 - 23)
    (hFill :
      ∀ msg m,
        (fill msg).run m = (.returned (), filled msg m) ∧
          Fills n.toNat msg.data m (filled msg m))
    (hRun :
      (do
          let ret ← create level type n
          fill ret
          pure ret : Method Memory ControlMessage).run
          sender.memory =
        (.returned msg, m)) :
    (∀ w ∈ m.writes, w.writer = .serialize →
      Held m.heap msg w) ∧
      ∀ msg' m',
        (setControlMsg sender.controlMsg msg).run m =
          (.returned msg', m') →
        ∀ w ∈ m'.writes, w.writer = .serialize →
          Held m'.heap msg' w := by
  have hRoom := fits_of_lt hFits
  by_cases hLarge :
      SendMessageHeader.ControlMessage.maxSize <
        (cmsgSpace n).toNat
  · rw [Command.run_bind_raised
      (run_create_of_large hLarge)] at hRun
    cases hRun
  · have hCreate :=
      run_create level type sender.memory
        (Nat.le_of_not_lt hLarge) (by omega)
    rw [Command.run_bind_returned hCreate,
      Command.run_bind_returned (hFill _ _).1] at hRun
    cases hRun
    rcases held_of_fills hFits rfl (hFill _ _).2 with
      ⟨hInside, hHeld⟩
    refine
      ⟨fun w hMem hWriter =>
        hHeld w hMem hWriter _ hInside, ?_⟩
    intro msg' m' hMove w hMem hWriter
    rcases inside_setControlMsg rfl hMove with
      ⟨rfl, hWrites, hKeeps⟩
    rw [hWrites] at hMem
    exact hHeld w hMem hWriter _ (hKeeps hInside)

/- No vector is so large that the product wraps around. -/
theorem FdVector.toNat_bytes (mFds : FdVector) :
    (4 * UInt64.ofNat mFds.fds.length).toNat =
        fileNums.size * mFds.fds.length ∧
      (4 * UInt64.ofNat mFds.fds.length).toNat <
        2 ^ 64 - 23 := by
  have hBounded := mFds.bounded
  have hWidth : fileNums.size = 4 := rfl
  rw [UInt64.toNat_mul, UInt64.toNat_ofNat', hWidth]
  simp only [UInt64.reduceToNat]
  omega

theorem rights_right (mFds : FdVector) :
    Right (.rights mFds) := by
  intro sender msg m hRun
  rcases mFds.toNat_bytes with ⟨hLength, hFits⟩
  change (serializeRights mFds).run sender.memory = _ at hRun
  unfold serializeRights at hRun
  by_cases hNone : mFds.fds = []
  · rw [if_pos hNone] at hRun
    cases hRun
  · rw [if_neg hNone] at hRun
    refine
      @held_of_made _ _ _ _ _ sender
        (fun ret => storeAll ret.data mFds.fds)
        (fun ret => storedAll ret.data mFds.fds)
        hFits ?_ hRun
    intro msg m
    rw [hLength]
    exact
      ⟨run_storeAll mFds.fds msg.data m,
        fills_storedAll mFds.fds msg.data m⟩

theorem credentials_right (mCreds : UnixCredentials) :
    Right (.credentials mCreds) := by
  intro sender msg m hRun
  have hFits : (12 : UInt64).toNat < 2 ^ 64 - 23 := by
    decide
  refine
    @held_of_made _ _ _ _ _ sender
      (fun ret =>
        write .serialize ret.data (ucred.encode mCreds))
      (fun ret =>
        Memory.put .serialize ret.data (ucred.encode mCreds))
      hFits ?_ hRun
  intro msg m
  have hFills := fills_put msg.data (ucred.encode mCreds) m
  rw [ucred.size_encode] at hFills
  exact ⟨rfl, hFills⟩

/-
  For every payload and every message: what is written is in
  the buffer, but `dataSpace()` is the length of the header.
  This is also the space of the data for lengths from 9 to
  16 bytes.
-/
theorem capacity_right_iff (subject : Subject) :
    Right subject ↔ Fit subject := by
  cases subject with
  | created level type n =>
      exact created_right_iff level type n
  | rights mFds =>
      exact iff_of_true (rights_right mFds) trivial
  | credentials mCreds =>
      exact iff_of_true (credentials_right mCreds) trivial

/- Five descriptors need more than `dataSpace()` admits. -/
theorem not_right_five :
    ¬ Right
      (.created .socket UnixMessage.rights.raw 20) := by
  intro hRight
  have hMake :
      (create .socket UnixMessage.rights.raw 20).run
          bare.memory =
        (.returned (made 40 bare.memory), _) := rfl
  have hSized := (hRight bare _ _ hMake).1
  exact absurd hSized.enough (by decide)

------------------------------------------------------------
-- The Content of the Buffer
------------------------------------------------------------

/- The header in a block with room for it. -/
theorem headed_self
    (level : OptLevel) (type : Int32) (length : UInt64)
    {b : Nat} {blank : List Byte}
    (hBlank : m.heap b = some blank)
    (hRoom : 16 ≤ blank.length) :
    (headed level type length ⟨some b, 0⟩ m).heap b =
      some
        (Buffer.write
          (Buffer.write
            (Buffer.write blank 8
              (intBytes.encode level.raw))
            12 (intBytes.encode type))
          0 (Buffer.leBytes 8 length.toNat)) := by
  have hFour : intBytes.size = 4 := rfl
  have hLevel := intBytes.size_encode level.raw
  have hType := intBytes.size_encode type
  have hWord := Buffer.length_leBytes 8 length.toNat
  have hFits :
      8 + (intBytes.encode level.raw).length ≤
        blank.length := by omega
  have hFirst := overwrite_self hBlank hFits
  have hLength := Buffer.length_write hFits
  have hFits' :
      12 + (intBytes.encode type).length ≤
        (Buffer.write blank 8
          (intBytes.encode level.raw)).length := by omega
  have hSecond := overwrite_self hFirst hFits'
  have hLength' := Buffer.length_write hFits'
  exact overwrite_self hSecond (by omega)

/- The header is what is modelled as one list of bytes. -/
theorem run_create_content
    (hFits : n.toNat < 2 ^ 64 - 23)
    (m : Memory)
    {ret : SendMessageHeader.ControlMessage}
    (hCreate :
      SendMessageHeader.ControlMessage.create level type
        n.toNat = .ok ret) :
    ∃ m',
      (create level type n).run m =
          (.returned (made (space n.toNat) m), m') ∧
        m'.heap m.next = some ret.mBuffer := by
  have hSpace := toNat_cmsgSpace_of_lt hFits
  have hRoom := fits_of_lt hFits
  have hLen : (cmsgLen n).toNat = len n.toNat := by
    have hHeader : (cmsgAlign 16).toNat = 16 := by decide
    have hHeader' : align headerSize = 16 := rfl
    unfold cmsgLen len
    rw [UInt64.toNat_add, hHeader, hHeader']
    omega
  rw [hSpace] at hRoom
  unfold SendMessageHeader.ControlMessage.create at hCreate
  split at hCreate
  · cases hCreate
  · next hSmall =>
      cases hCreate
      have hRun :=
        run_create level type m (by omega)
          (by omega : (cmsgSpace n).toNat ≠ 0)
      rw [hSpace] at hRun
      refine ⟨_, hRun, ?_⟩
      have hBlank :
          (allocated (space n.toNat) m).heap m.next =
            some (List.replicate (space n.toNat) 0) := by
        simp [allocated, Blocks.store]
      have hBlankLength :
          (List.replicate (space n.toNat) (0 : Byte)).length =
            space n.toNat :=
        List.length_replicate
      have hHeader :=
        headed_self level type (cmsgLen n) hBlank (by omega)
      rw [hLen] at hHeader
      exact hHeader

/- The loop writes what is modelled as one list of bytes. -/
theorem storedAll_self
    {b : Nat} :
    ∀ (fds : List FileNum) {content : List Byte}
        {offset : Nat} {m : Memory},
      m.heap b = some content →
      offset + fileNums.size * fds.length ≤
        content.length →
      (storedAll ⟨some b, offset⟩ fds m).heap b =
        some (fileNums.store content offset fds)
| [], _, _, _, hContent, _ => hContent
| fd :: fds, content, offset, m, hContent, hFits => by
    rw [List.length_cons, Nat.mul_succ] at hFits
    have hSize := fileNums.size_encode fd
    have hHere :
        offset + (fileNums.encode fd).length ≤
          content.length := by omega
    have hLength := Buffer.length_write hHere
    have hFirst :
        (m.put .serialize ⟨some b, offset⟩
            (fileNums.encode fd)).heap b =
          some
            (Buffer.write content offset
              (fileNums.encode fd)) :=
      overwrite_self hContent hHere
    have hRest :
        offset + fileNums.size + fileNums.size * fds.length ≤
          (Buffer.write content offset
            (fileNums.encode fd)).length := by omega
    exact storedAll_self fds hFirst hRest

/- A message of descriptors has the modelled content. -/
theorem run_serializeRights_content
    (mFds : FdVector) (m : Memory)
    {ret : SendMessageHeader.ControlMessage}
    (hSerialize :
      UnixRightsMessage.serialize { mFds := mFds.fds } =
        .ok ret) :
    ∃ m',
      (serializeRights mFds).run m =
          (.returned
            (made (space (4 * mFds.fds.length)) m), m') ∧
        m'.heap m.next = some ret.mBuffer := by
  rcases mFds.toNat_bytes with ⟨hLength, hFits⟩
  have hWidth : fileNums.size = 4 := rfl
  unfold UnixRightsMessage.serialize at hSerialize
  split at hSerialize
  · cases hSerialize
  · next hSome =>
      cases hCreate :
          AncillaryMessage.createMsg .rights
            (fileNums.size * mFds.fds.length) with
      | error e =>
          simp only [hCreate] at hSerialize
          cases hSerialize
      | ok blank =>
          simp only [hCreate] at hSerialize
          cases hSerialize
          unfold AncillaryMessage.createMsg at hCreate
          have hRoom :=
            AncillaryMessage.length_create hCreate
          rw [← hLength] at hCreate
          rcases run_create_content hFits m hCreate with
            ⟨m₁, hRun, hHeap⟩
          rw [hLength, hWidth] at hRun
          unfold serializeRights
          rw [if_neg hSome, Command.run_bind_returned hRun,
            Command.run_bind_returned
              (run_storeAll mFds.fds _ m₁)]
          refine ⟨_, rfl, ?_⟩
          have hAlign :=
            Cosmos.ControlMessage.le_align
              (fileNums.size * mFds.fds.length)
          have hHeader : align headerSize = 16 := rfl
          unfold space at hRoom
          exact
            storedAll_self mFds.fds hHeap
              (by omega : 16 + _ ≤ _)

theorem run_serializeCredentials_content
    (mCreds : UnixCredentials) (m : Memory)
    {ret : SendMessageHeader.ControlMessage}
    (hSerialize :
      UnixCredentialsMessage.serialize { mCreds := mCreds } =
        .ok ret) :
    ∃ m',
      (serializeCredentials mCreds).run m =
          (.returned (made (space 12) m), m') ∧
        m'.heap m.next = some ret.mBuffer := by
  have hFits : (12 : UInt64).toNat < 2 ^ 64 - 23 := by
    decide
  unfold UnixCredentialsMessage.serialize at hSerialize
  cases hCreate :
      AncillaryMessage.createMsg .credentials
        ucred.size with
  | error e =>
      rw [hCreate] at hSerialize
      cases hSerialize
  | ok blank =>
      rw [hCreate] at hSerialize
      cases hSerialize
      have hRoom := AncillaryMessage.length_create hCreate
      have hSize := ucred.size_encode mCreds
      rcases run_create_content hFits m hCreate with
        ⟨m₁, hRun, hHeap⟩
      unfold serializeCredentials
      rw [Command.run_bind_returned hRun]
      refine ⟨_, rfl, ?_⟩
      have hSpace : space ucred.size = 32 := rfl
      have hWidth : ucred.size = 12 := rfl
      exact overwrite_self hHeap (by omega : 16 + _ ≤ _)

end SendControl

end Cosmos
