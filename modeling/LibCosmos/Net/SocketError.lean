import LibCosmos.Net.AncillaryMessage

/-
  Extended socket errors that are received as control
  messages (`include/net/SocketError.hxx`,
  `include/net/inet/aux.hxx`, `src/net/inet/aux.cxx`).

  The address of the node that caused an error stands behind
  the fixed part of the message, if it is there.

  Main declarations:
    * `SockExtendedErr`, `SocketErrorT`
    * `SocketErrorMessage.deserialize`
    * `SocketErrorMessage.Right`,
      `SocketErrorMessage.Safe`
    * `SocketErrorMessage.right_iff`
-/

namespace Cosmos

------------------------------------------------------------
-- Families
------------------------------------------------------------

/- The families that the templates are instantiated for. -/
inductive IpFamily where
| inet
| inet6
deriving DecidableEq, Repr

/- `SocketFamily`, as far as `sa_family` goes. -/
structure SocketFamily where
  raw : UInt16
deriving DecidableEq, Repr

def SocketFamily.unspec : SocketFamily := ⟨0⟩

namespace FamilyTraits

def family : IpFamily → SocketFamily
| .inet => ⟨2⟩
| .inet6 => ⟨10⟩

def optLevel : IpFamily → OptLevel
| .inet => ⟨0⟩
| .inet6 => ⟨41⟩

/- `CtrlMsg::RECVERR`. -/
def recvErr : IpFamily → Int32
| .inet => 11
| .inet6 => 25

/- `sizeof(RawAddr)`. -/
def rawAddrSize : IpFamily → Nat
| .inet => 16
| .inet6 => 28

end FamilyTraits

/- The family in front of an address. -/
def saFamily (addr : List Byte) : SocketFamily :=
  ⟨UInt16.ofNat (Buffer.leValue (addr.take 2))⟩

/- A complete address of a family, as it is in memory. -/
structure RawAddr (family : IpFamily) where
  bytes : List Byte
  length_bytes :
    bytes.length = FamilyTraits.rawAddrSize family
  family_bytes : saFamily bytes = FamilyTraits.family family

------------------------------------------------------------
-- The Fixed Part
------------------------------------------------------------

/- `struct sock_extended_err`. -/
structure SockExtendedErr where
  eeErrno : UInt32
  eeOrigin : UInt8
  eeType : UInt8
  eeCode : UInt8
  eePad : UInt8
  eeInfo : UInt32
  eeData : UInt32
deriving DecidableEq, Repr

namespace SockExtendedErr

def size : Nat := 16

/- The structure in memory. -/
def encode (err : SockExtendedErr) : List Byte :=
  uintBytes.encode err.eeErrno ++
    ([err.eeOrigin, err.eeType, err.eeCode, err.eePad] ++
      (uintBytes.encode err.eeInfo ++
        uintBytes.encode err.eeData))

def decode (bs : List Byte) : SockExtendedErr where
  eeErrno := uintBytes.decode (Buffer.read bs 0 4)
  eeOrigin := bs.getD 4 0
  eeType := bs.getD 5 0
  eeCode := bs.getD 6 0
  eePad := bs.getD 7 0
  eeInfo := uintBytes.decode (Buffer.read bs 8 4)
  eeData := uintBytes.decode (Buffer.read bs 12 4)

/- `Origin`. -/
def originLocal : UInt8 := 1
def originIcmp : UInt8 := 2
def originIcmp6 : UInt8 := 3
def originZerocopy : UInt8 := 5
def originTxtime : UInt8 := 6

/- `Errno::MSG_TOO_LARGE`. -/
def msgTooLarge : Errno := ⟨90⟩

variable (this : SockExtendedErr)

def origin : UInt8 := this.eeOrigin

def errnum : Errno := ⟨this.eeErrno.toInt32⟩

def discoveredMTU : Option UInt32 :=
  if this.errnum = msgTooLarge then some this.eeInfo
  else none

def zeroCopyCode : Option UInt8 :=
  if this.origin = originZerocopy then some this.eeCode
  else none

def txTimeCode : Option UInt8 :=
  if this.origin = originTxtime then some this.eeCode
  else none

def zeroCopyRange : Option (UInt32 × UInt32) :=
  if this.origin = originZerocopy then
    some (this.eeInfo, this.eeData)
  else none

def originIsICMP : Bool :=
  this.origin = originIcmp ∨ this.origin = originIcmp6

def icmpType : Option UInt8 :=
  if this.originIsICMP then some this.eeType else none

def icmpCode : Option UInt8 :=
  if this.originIsICMP then some this.eeCode else none

end SockExtendedErr

------------------------------------------------------------
-- The Error Object
------------------------------------------------------------

/- What the accessors of an error say. -/
structure Report where
  origin : UInt8
  errnum : Errno
  discoveredMTU : Option UInt32
  zeroCopyCode : Option UInt8
  txTimeCode : Option UInt8
  zeroCopyRange : Option (UInt32 × UInt32)
  icmpType : Option UInt8
  icmpCode : Option UInt8
  offenderAddressFamily : SocketFamily
  hasOffenderAddress : Bool
  offenderAddress : Option (List Byte)
deriving DecidableEq, Repr

def Report.make
    (err : SockExtendedErr) (found : SocketFamily)
    (has : Bool) (addr : Option (List Byte)) : Report where
  origin := err.origin
  errnum := err.errnum
  discoveredMTU := err.discoveredMTU
  zeroCopyCode := err.zeroCopyCode
  txTimeCode := err.txTimeCode
  zeroCopyRange := err.zeroCopyRange
  icmpType := err.icmpType
  icmpCode := err.icmpCode
  offenderAddressFamily := found
  hasOffenderAddress := has
  offenderAddress := addr

/-
  `SocketErrorT`: an object at the start of some memory. The
  accessors have no result if they read outside of it.
-/
namespace SocketErrorT

variable (memory : List Byte)

/- Read a range, if it is inside. -/
def peek (pos n : Nat) : Option (List Byte) :=
  if pos + n ≤ memory.length then
    some (Buffer.read memory pos n)
  else none

/- The members of the base class. -/
def base : Option SockExtendedErr :=
  (peek memory 0 SockExtendedErr.size).map
    SockExtendedErr.decode

/- `offenderAddr()` points behind the object. -/
def offenderAddr : Nat := SockExtendedErr.size

def offenderAddressFamily : Option SocketFamily :=
  (peek memory offenderAddr 2).map saFamily

def hasOffenderAddress : Option Bool := do
  let family ← offenderAddressFamily memory
  pure (family ≠ .unspec)

/- The raw address that the `IPAddress` is made of. -/
def readOffender (n : Nat) : Option (Option (List Byte)) :=
  (peek memory offenderAddr n).map some

def offenderAddress (family : IpFamily) :
    Option (Option (List Byte)) := do
  let found ← offenderAddressFamily memory
  if found ≠ FamilyTraits.family family then pure none
  else readOffender memory (FamilyTraits.rawAddrSize family)

/- All accessors, one after another. -/
def report (family : IpFamily) : Option Report := do
  let err ← base memory
  let found ← offenderAddressFamily memory
  let has ← hasOffenderAddress memory
  let addr ← offenderAddress memory family
  pure (Report.make err found has addr)

end SocketErrorT

------------------------------------------------------------
-- The Message
------------------------------------------------------------

/- `std::vector<uint8_t>` with the place of its memory. -/
structure Storage where
  block : Nat := 0
  capacity : Nat := 0
  bytes : List Byte := []
deriving DecidableEq, Repr

namespace Storage

def clear (v : Storage) : Storage :=
  { v with bytes := [] }

/- More than the capacity needs memory at another place. -/
def resize (v : Storage) (n : Nat) : Storage :=
  if n ≤ v.capacity then
    { v with bytes := Buffer.resize 0 v.bytes n }
  else
    { block := v.block + 1
      capacity := n
      bytes := Buffer.resize 0 v.bytes n }

/- `memcpy` to the start of the memory. -/
def copyIn (v : Storage) (src : List Byte) : Storage :=
  { v with bytes := Buffer.write v.bytes 0 src }

end Storage

/- The place of the memory is what `m_error` points to. -/
structure SocketErrorMessage where
  mData : Storage := {}
  mError : Option Nat := none
deriving DecidableEq, Repr

namespace SocketErrorMessage

/- `AncillaryMessage::checkMsg`. -/
def checkMsg (family : IpFamily)
    (msg : ReceiveMessageHeader.ControlMessage) :
    Method SocketErrorMessage Unit :=
  if msg.level ≠ FamilyTraits.optLevel family ∨
      FamilyTraits.recvErr family ≠ msg.type then
    Command.raise
      (.runtimeError (str "ancillary message type mismatch"))
  else pure ()

/- The part of `deserialize` behind the first checks. -/
def receive (src : List Byte) (bytes : Nat) :
    Method SocketErrorMessage Unit :=
  if bytes < SockExtendedErr.size then
    Command.raise
      (.runtimeError
        (str "IP_RECVERR ancillary message too small"))
  else
    Command.modify fun this =>
      let mData :=
        (this.mData.resize bytes).copyIn (src.take bytes)
      { mData := mData
        mError := some mData.block }

/- `SocketErrorMessage::deserialize`. -/
def deserialize (family : IpFamily)
    (msg : ReceiveMessageHeader.ControlMessage) :
    Method SocketErrorMessage Unit := do
  checkMsg family msg
  Command.modify fun this =>
    { mData := this.mData.clear
      mError := none }
  receive (msg.content.drop msg.data) msg.dataLength

------------------------------------------------------------
-- The Promise
------------------------------------------------------------

/- A control message with all of its data in the buffer. -/
structure Received where
  msg : ReceiveMessageHeader.ControlMessage
  inside : msg.data + msg.dataLength ≤ msg.content.length

/- The data of a message. -/
def Received.payload (m : Received) : List Byte :=
  Buffer.read m.msg.content m.msg.data m.msg.dataLength

/- An object that got these messages, one after another. -/
def objectAfter (family : IpFamily)
    (earlier : List Received) : SocketErrorMessage :=
  earlier.foldl
    (fun this m => ((deserialize family m.msg).run this).2)
    {}

/- `error()` is null or points into the object's memory. -/
def Pointing (this : SocketErrorMessage) : Prop :=
  ∀ block, this.mError = some block →
    block = this.mData.block

/- The accessors of the base class show this structure. -/
def Shows (report : Report) (err : SockExtendedErr) :
    Prop :=
  report.origin = err.origin ∧
    report.errnum = err.errnum ∧
    report.discoveredMTU = err.discoveredMTU ∧
    report.zeroCopyCode = err.zeroCopyCode ∧
    report.txTimeCode = err.txTimeCode ∧
    report.zeroCopyRange = err.zeroCopyRange ∧
    report.icmpType = err.icmpType ∧
    report.icmpCode = err.icmpCode

/- A complete address of the family follows. -/
def Holds {family : IpFamily}
    (bytes : List Byte) (addr : RawAddr family) : Prop :=
  addr.bytes <+: bytes.drop SockExtendedErr.size

/-
  Nothing else than these bytes is read, and the accessors
  show what the bytes hold.
-/
structure Faithful
    (family : IpFamily) (bytes : List Byte) : Prop where
  shown :
    ∀ err : SockExtendedErr, err.encode <+: bytes →
      ∃ report, SocketErrorT.report bytes family =
          some report ∧
        Shows report err
  present :
    ∀ addr : RawAddr family, Holds bytes addr →
      ∃ report, SocketErrorT.report bytes family =
          some report ∧
        report.offenderAddressFamily =
          FamilyTraits.family family ∧
        report.hasOffenderAddress = true ∧
        report.offenderAddress = some addr.bytes
  absent :
    (∀ addr : RawAddr family, ¬ Holds bytes addr) →
      ∃ report, SocketErrorT.report bytes family =
          some report ∧
        report.hasOffenderAddress = false ∧
        report.offenderAddress = none

/-
  What a message has to do to an object that got others
  before: it is there as it was received, or it is refused,
  and then the error is null or the previous one.
-/
def Right (family : IpFamily)
    (earlier : List Received) (m : Received) : Prop :=
  let before := objectAfter family earlier
  match (deserialize family m.msg).run before with
  | (.returned (), this) =>
      this.mError = some this.mData.block ∧
        this.mData.bytes = m.payload ∧
        Faithful family this.mData.bytes
  | (.raised _, this) =>
      Pointing this ∧
        (this.mError = none ∨ this = before)
  | (.halted _, _) => False

/- The kind of message that is not refused. -/
def Accepted (family : IpFamily) (m : Received) : Prop :=
  m.msg.level = FamilyTraits.optLevel family ∧
    m.msg.type = FamilyTraits.recvErr family ∧
    SockExtendedErr.size ≤ m.msg.dataLength

/-
  The bytes behind the fixed part: a complete address of the
  family, or a family field that says there is none.
-/
def Safe (family : IpFamily) (rest : List Byte) : Prop :=
  (FamilyTraits.rawAddrSize family ≤ rest.length ∧
      saFamily rest = FamilyTraits.family family) ∨
    (2 ≤ rest.length ∧ saFamily rest = .unspec)

------------------------------------------------------------
-- The Accessors
------------------------------------------------------------

theorem length_encode (err : SockExtendedErr) :
    err.encode.length = SockExtendedErr.size := by
  unfold SockExtendedErr.encode
  simp only [List.length_append, uintBytes.size_encode]
  rfl

/- The parts of a structure in memory. -/
theorem decode_parts
    {e m i d : List Byte}
    (hErrno : e.length = 4) (hMiddle : m.length = 4)
    (hInfo : i.length = 4) (hData : d.length = 4) :
    SockExtendedErr.decode (e ++ (m ++ (i ++ d))) =
      { eeErrno := uintBytes.decode e
        eeOrigin := m.getD 0 0
        eeType := m.getD 1 0
        eeCode := m.getD 2 0
        eePad := m.getD 3 0
        eeInfo := uintBytes.decode i
        eeData := uintBytes.decode d } := by
  have hFirst :
      Buffer.read (e ++ (m ++ (i ++ d))) 0 4 = e :=
    Buffer.read_append_left _ _ hErrno
  have hThird :
      Buffer.read (e ++ (m ++ (i ++ d))) 8 4 = i :=
    (Buffer.read_append_right _ _ hErrno 4 4).trans
      ((Buffer.read_append_right _ _ hMiddle 0 4).trans
        (Buffer.read_append_left _ _ hInfo))
  have hLast :
      Buffer.read (e ++ (m ++ (i ++ d))) 12 4 = d := by
    have hEnd := Buffer.read_append_left d [] hData
    rw [List.append_nil] at hEnd
    exact
      (Buffer.read_append_right _ _ hErrno 8 4).trans
        ((Buffer.read_append_right _ _ hMiddle 4 4).trans
          ((Buffer.read_append_right _ _ hInfo 0 4).trans
            hEnd))
  have hByte : ∀ k < 4,
      (e ++ (m ++ (i ++ d))).getD (4 + k) 0 =
        m.getD k 0 := by
    intro k hk
    rw [List.getD_eq_getElem?_getD,
      List.getElem?_append_right (by omega), hErrno,
      Nat.add_sub_cancel_left,
      List.getElem?_append_left (by omega),
      ← List.getD_eq_getElem?_getD]
  unfold SockExtendedErr.decode
  rw [hFirst, hThird, hLast, hByte 0 (by decide),
    hByte 1 (by decide), hByte 2 (by decide),
    hByte 3 (by decide)]

/- A structure in front of other bytes is read back. -/
theorem decode_of_shown
    {err : SockExtendedErr} {bytes : List Byte}
    (hShown : err.encode <+: bytes) :
    SockExtendedErr.decode
        (Buffer.read bytes 0 SockExtendedErr.size) =
      err := by
  rcases hShown with ⟨rest, rfl⟩
  rw [Buffer.read_append_left _ _ (length_encode err)]
  unfold SockExtendedErr.encode
  rw [decode_parts (uintBytes.size_encode err.eeErrno) rfl
    (uintBytes.size_encode err.eeInfo)
    (uintBytes.size_encode err.eeData)]
  simp only [uintBytes.decode_encode]
  rfl

/- Without a family field there is nothing to tell. -/
theorem report_short
    {bytes : List Byte} (family : IpFamily)
    (hShort : bytes.length < SockExtendedErr.size + 2) :
    SocketErrorT.report bytes family = none := by
  have hNone :
      SocketErrorT.offenderAddressFamily bytes = none := by
    unfold SocketErrorT.offenderAddressFamily
      SocketErrorT.peek SocketErrorT.offenderAddr
    rw [if_neg (by omega)]
    rfl
  unfold SocketErrorT.report
  rw [hNone]
  cases SocketErrorT.base bytes with
  | none => rfl
  | some err => rfl

/- Otherwise all depends on the address. -/
theorem report_eq
    {bytes : List Byte} (family : IpFamily)
    (hLong : SockExtendedErr.size + 2 ≤ bytes.length) :
    SocketErrorT.report bytes family =
      if saFamily (bytes.drop SockExtendedErr.size) ≠
          FamilyTraits.family family then
        some
          (.make
            (SockExtendedErr.decode
              (Buffer.read bytes 0 SockExtendedErr.size))
            (saFamily (bytes.drop SockExtendedErr.size))
            (saFamily (bytes.drop SockExtendedErr.size) ≠
              .unspec)
            none)
      else if SockExtendedErr.size +
          FamilyTraits.rawAddrSize family ≤ bytes.length then
        some
          (.make
            (SockExtendedErr.decode
              (Buffer.read bytes 0 SockExtendedErr.size))
            (FamilyTraits.family family) true
            (some
              (Buffer.read bytes SockExtendedErr.size
                (FamilyTraits.rawAddrSize family))))
      else none := by
  have hField :
      SocketErrorT.offenderAddressFamily bytes =
        some
          (saFamily (bytes.drop SockExtendedErr.size)) := by
    unfold SocketErrorT.offenderAddressFamily
      SocketErrorT.peek SocketErrorT.offenderAddr
    rw [if_pos hLong, Option.map_some]
    unfold saFamily
    rw [Buffer.take_read _ _ (Nat.le_refl 2)]
    rfl
  have hBase :
      SocketErrorT.base bytes =
        some
          (SockExtendedErr.decode
            (Buffer.read bytes 0 SockExtendedErr.size)) := by
    unfold SocketErrorT.base SocketErrorT.peek
    rw [if_pos (by omega)]
    rfl
  unfold SocketErrorT.report SocketErrorT.hasOffenderAddress
    SocketErrorT.offenderAddress
  rw [hField, hBase]
  by_cases hOther :
      saFamily (bytes.drop SockExtendedErr.size) ≠
        FamilyTraits.family family
  · simp only [Option.bind_eq_bind, Option.bind_some,
      Option.pure_def, if_pos hOther]
  · have hSame := not_not.mp hOther
    have hKnown :
        FamilyTraits.family family ≠ .unspec := by
      cases family with
      | inet => decide
      | inet6 => decide
    simp only [Option.bind_eq_bind, Option.bind_some,
      Option.pure_def, hSame, ne_eq, not_true_eq_false,
      if_false]
    unfold SocketErrorT.readOffender SocketErrorT.peek
      SocketErrorT.offenderAddr
    by_cases hFits : SockExtendedErr.size +
        FamilyTraits.rawAddrSize family ≤ bytes.length
    · simp only [if_pos hFits, Option.map_some,
        Option.bind_some, hKnown, not_false_eq_true,
        decide_true]
    · simp only [if_neg hFits, Option.map_none,
        Option.bind_none]

------------------------------------------------------------
-- Faithful Accessors
------------------------------------------------------------

theorem two_le_rawAddrSize (family : IpFamily) :
    2 ≤ FamilyTraits.rawAddrSize family := by
  cases family with
  | inet => decide
  | inet6 => decide

/- An address is a range with the right family. -/
theorem exists_holds_iff
    (family : IpFamily) (bytes : List Byte) :
    (∃ addr : RawAddr family, Holds bytes addr) ↔
      FamilyTraits.rawAddrSize family ≤
          (bytes.drop SockExtendedErr.size).length ∧
        saFamily (bytes.drop SockExtendedErr.size) =
          FamilyTraits.family family := by
  have hTwo := two_le_rawAddrSize family
  constructor
  · rintro ⟨addr, rest, hRest⟩
    have hLength := addr.length_bytes
    have hFamily := addr.family_bytes
    rw [← hRest]
    refine ⟨?_, ?_⟩
    · rw [List.length_append]
      omega
    · rw [← hFamily]
      unfold saFamily
      rw [List.take_append_of_le_length (by omega)]
  · rintro ⟨hFits, hFamily⟩
    refine
      ⟨{ bytes :=
            (bytes.drop SockExtendedErr.size).take
              (FamilyTraits.rawAddrSize family)
         length_bytes := ?_
         family_bytes := ?_ }, ?_⟩
    · rw [List.length_take]
      omega
    · rw [← hFamily]
      unfold saFamily
      rw [List.take_take, Nat.min_eq_left hTwo]
    · exact List.take_prefix _ _

/- There is only one address that a message can hold. -/
theorem Holds.bytes_eq
    {family : IpFamily} {bytes : List Byte}
    {addr : RawAddr family} (hHolds : Holds bytes addr) :
    addr.bytes =
      Buffer.read bytes SockExtendedErr.size
        (FamilyTraits.rawAddrSize family) := by
  unfold Buffer.read
  rw [← addr.length_bytes]
  exact List.prefix_iff_eq_take.mp hHolds

/- The parts in front of the address are shown. -/
theorem shows_decoded
    {err : SockExtendedErr} {bytes : List Byte}
    (hShown : err.encode <+: bytes) (found : SocketFamily)
    (has : Bool) (addr : Option (List Byte)) :
    Shows
      (.make
        (SockExtendedErr.decode
          (Buffer.read bytes 0 SockExtendedErr.size))
        found has addr)
      err := by
  rw [decode_of_shown hShown]
  exact ⟨rfl, rfl, rfl, rfl, rfl, rfl, rfl, rfl⟩

theorem faithful_of_address
    {family : IpFamily} {bytes : List Byte}
    (hFits :
      FamilyTraits.rawAddrSize family ≤
        (bytes.drop SockExtendedErr.size).length)
    (hFamily :
      saFamily (bytes.drop SockExtendedErr.size) =
        FamilyTraits.family family) :
    Faithful family bytes := by
  have hTwo := two_le_rawAddrSize family
  have hRest :
      (bytes.drop SockExtendedErr.size).length =
        bytes.length - SockExtendedErr.size :=
    List.length_drop
  have hReport := @report_eq bytes family (by omega)
  rw [if_neg (not_not.mpr hFamily),
    if_pos (by omega)] at hReport
  exact
    { shown := by
        intro err hShown
        exact ⟨_, hReport, shows_decoded hShown _ _ _⟩
      present := by
        intro addr hAddr
        rw [← hAddr.bytes_eq] at hReport
        exact ⟨_, hReport, rfl, rfl, rfl⟩
      absent := by
        intro hNone
        rcases
          (exists_holds_iff family bytes).mpr
            ⟨hFits, hFamily⟩ with
          ⟨addr, hAddr⟩
        exact absurd hAddr (hNone addr) }

theorem faithful_of_unspec
    {family : IpFamily} {bytes : List Byte}
    (hTwo : 2 ≤ (bytes.drop SockExtendedErr.size).length)
    (hUnspec :
      saFamily (bytes.drop SockExtendedErr.size) =
        .unspec) :
    Faithful family bytes := by
  have hRest :
      (bytes.drop SockExtendedErr.size).length =
        bytes.length - SockExtendedErr.size :=
    List.length_drop
  have hOther :
      saFamily (bytes.drop SockExtendedErr.size) ≠
        FamilyTraits.family family := by
    rw [hUnspec]
    cases family with
    | inet => decide
    | inet6 => decide
  have hReport := @report_eq bytes family (by omega)
  rw [if_pos hOther, hUnspec] at hReport
  exact
    { shown := by
        intro err hShown
        exact ⟨_, hReport, shows_decoded hShown _ _ _⟩
      present := by
        intro addr hAddr
        have hHolds := exists_holds_iff family bytes
        exact absurd (hHolds.mp ⟨addr, hAddr⟩).2 hOther
      absent := by
        intro _
        exact ⟨_, hReport, rfl, rfl⟩ }

/- Without an address only `AF_UNSPEC` says so. -/
theorem unspec_of_faithful
    {family : IpFamily} {bytes : List Byte}
    (hSize : SockExtendedErr.size ≤ bytes.length)
    (hNone : ∀ addr : RawAddr family, ¬ Holds bytes addr)
    (hFaithful : Faithful family bytes) :
    2 ≤ (bytes.drop SockExtendedErr.size).length ∧
      saFamily (bytes.drop SockExtendedErr.size) =
        .unspec := by
  rcases hFaithful.absent hNone with
    ⟨report, hReport, hHas, -⟩
  have hLong : SockExtendedErr.size + 2 ≤ bytes.length := by
    by_contra hShort
    rw [report_short family (by omega)] at hReport
    cases hReport
  refine ⟨?_, ?_⟩
  · rw [List.length_drop]
    omega
  · rw [report_eq family hLong] at hReport
    split at hReport
    · injection hReport with hReport
      rw [← hReport] at hHas
      exact not_not.mp (of_decide_eq_false hHas)
    · split at hReport
      · injection hReport with hReport
        rw [← hReport] at hHas
        cases hHas
      · cases hReport

theorem faithful_iff_safe
    {bytes : List Byte} (family : IpFamily)
    (hSize : SockExtendedErr.size ≤ bytes.length) :
    Faithful family bytes ↔
      Safe family (bytes.drop SockExtendedErr.size) := by
  constructor
  · intro hFaithful
    by_cases hSome : ∃ addr : RawAddr family,
        Holds bytes addr
    · exact Or.inl ((exists_holds_iff _ _).mp hSome)
    · right
      exact
        unspec_of_faithful hSize (not_exists.mp hSome)
          hFaithful
  · rintro (⟨hFits, hFamily⟩ | ⟨hTwo, hUnspec⟩)
    · exact faithful_of_address hFits hFamily
    · exact faithful_of_unspec hTwo hUnspec

------------------------------------------------------------
-- Deserialization
------------------------------------------------------------

/- What a message makes of an object. -/
theorem run_deserialize
    (family : IpFamily) (m : Received)
    (this : SocketErrorMessage) :
    (deserialize family m.msg).run this =
      if m.msg.level ≠ FamilyTraits.optLevel family ∨
          FamilyTraits.recvErr family ≠ m.msg.type then
        (.raised
          (.runtimeError
            (str "ancillary message type mismatch")), this)
      else if m.msg.dataLength < SockExtendedErr.size then
        (.raised
          (.runtimeError
            (str "IP_RECVERR ancillary message too small")),
          { mData := this.mData.clear
            mError := none })
      else
        (.returned (),
          { mData :=
              (this.mData.clear.resize
                m.msg.dataLength).copyIn m.payload
            mError :=
              some
                (this.mData.clear.resize
                  m.msg.dataLength).block }) := by
  unfold deserialize checkMsg
  rw [Command.run_bind, Command.run_ite]
  by_cases hOther :
      m.msg.level ≠ FamilyTraits.optLevel family ∨
        FamilyTraits.recvErr family ≠ m.msg.type
  · rw [if_pos hOther, if_pos hOther, Command.run_raise]
  · rw [if_neg hOther, if_neg hOther, Command.run_pure]
    simp only [Command.run_bind, Command.run_modify]
    unfold receive
    rw [Command.run_ite]
    by_cases hSmall :
        m.msg.dataLength < SockExtendedErr.size
    · rw [if_pos hSmall, if_pos hSmall, Command.run_raise]
    · rw [if_neg hSmall, if_neg hSmall, Command.run_modify]
      rfl

/- The memory holds what was copied and nothing else. -/
theorem Storage.bytes_copyIn
    {v : Storage} {src : List Byte} :
    ((v.clear.resize src.length).copyIn src).bytes =
      src := by
  have hBytes :
      (v.clear.resize src.length).bytes =
        Buffer.resize 0 [] src.length := by
    unfold Storage.resize Storage.clear
    split
    · rfl
    · rfl
  have hLength :
      (Buffer.resize (0 : Byte) [] src.length).length =
        src.length := Buffer.length_resize _ _ _
  unfold Storage.copyIn
  simp only [hBytes]
  unfold Buffer.write
  rw [List.take_zero, List.nil_append, Nat.zero_add,
    List.drop_eq_nil_of_le (by omega), List.append_nil]

/- Also messages that are refused leave no stray pointer. -/
theorem pointing_deserialize
    {family : IpFamily} {this : SocketErrorMessage}
    (m : Received) (hPointing : Pointing this) :
    Pointing ((deserialize family m.msg).run this).2 := by
  rw [run_deserialize]
  split
  · exact hPointing
  · split
    · intro block hBlock
      cases hBlock
    · intro block hBlock
      injection hBlock with hBlock
      exact hBlock.symm

theorem pointing_objectAfter
    (family : IpFamily) (earlier : List Received) :
    Pointing (objectAfter family earlier) := by
  unfold objectAfter
  apply List.foldlRecOn
  · intro block hBlock
    cases hBlock
  · intro this hPointing m _
    exact pointing_deserialize m hPointing

/-
  An accepted message is right just if the bytes behind its
  fixed part are safe to look at.
-/
theorem right_iff
    (family : IpFamily) (earlier : List Received)
    (m : Received) :
    Right family earlier m ↔
      (Accepted family m →
        Safe family
          (m.payload.drop SockExtendedErr.size)) := by
  have hPointing := pointing_objectAfter family earlier
  have hInside := m.inside
  have hPayload : m.payload.length = m.msg.dataLength := by
    unfold Received.payload Buffer.read
    rw [List.length_take, List.length_drop]
    omega
  unfold Right
  simp only [run_deserialize]
  by_cases hOther :
      m.msg.level ≠ FamilyTraits.optLevel family ∨
        FamilyTraits.recvErr family ≠ m.msg.type
  · rw [if_pos hOther]
    refine
      ⟨fun _ hAccepted => ?_,
        fun _ => ⟨hPointing, Or.inr rfl⟩⟩
    rcases hAccepted with ⟨hLevel, hType, -⟩
    rcases hOther with hLevel' | hType'
    · exact absurd hLevel hLevel'
    · exact absurd hType.symm hType'
  · rw [if_neg hOther]
    rw [not_or, not_not, not_not] at hOther
    by_cases hSmall :
        m.msg.dataLength < SockExtendedErr.size
    · rw [if_pos hSmall]
      refine
        ⟨fun _ hAccepted => ?_, fun _ => ⟨?_, Or.inl rfl⟩⟩
      · exact absurd hSmall (Nat.not_lt.mpr hAccepted.2.2)
      · intro block hBlock
        cases hBlock
    · rw [if_neg hSmall]
      have hSize := Nat.not_lt.mp hSmall
      simp only [← hPayload, Storage.bytes_copyIn]
      rw [faithful_iff_safe family (by omega)]
      constructor
      · intro hRight _
        exact hRight.2.2
      · intro hSafe
        refine ⟨rfl, trivial, hSafe ?_⟩
        exact ⟨hOther.1, hOther.2.symm, hSize⟩

/- A message with the fixed part only, all of it zero. -/
def bare : Received where
  msg :=
    { content :=
        [32, 0, 0, 0, 0, 0, 0, 0, 0, 0, 0, 0, 11, 0, 0, 0] ++
          List.replicate 16 0
      pos := 0 }
  inside := by decide

/- The family behind it is read outside of the message. -/
theorem not_right_bare : ¬ Right .inet [] bare := by
  intro hRight
  have hRun :
      (deserialize .inet bare.msg).run
          (objectAfter .inet []) =
        (.returned (),
          { mData :=
              { block := 1
                capacity := 16
                bytes := List.replicate 16 0 }
            mError := some 1 }) := by
    decide
  unfold Right at hRight
  simp only [hRun] at hRight
  have hSafe :=
    (faithful_iff_safe .inet (by decide)).mp hRight.2.2
  revert hSafe
  unfold Safe
  decide

end SocketErrorMessage

end Cosmos
