import LibCosmos.Core.BitMask
import LibCosmos.Net.AncillaryMessage
import LibCosmos.Net.MessageHeader
import LibCosmos.Net.UnixAddress

/-
  `Socket::sendMessage` and `Socket::receiveMessage` with
  the bookkeeping of their headers (`src/net/Socket.cxx`,
  `include/net/message_header.hxx`).

  Main declarations:
    * `SendMessageHeader.sendMessage`
    * `ReceiveMessageHeader.receiveMessage`
    * `SendMessageHeader.Transmitted`
    * `ReceiveMessageHeader.Advanced`,
      `ReceiveMessageHeader.Fit`
    * `ReceiveMessageHeader.bookkeeping_iff`
-/

namespace Cosmos

open ControlMessage

------------------------------------------------------------
-- Sending
------------------------------------------------------------

/- The target of a message. -/
structure TargetAddress where
  basePtr : UInt64
  size : UInt64
deriving DecidableEq, Repr

/- `struct msghdr`, as far as `sendmsg()` reads it. -/
structure SendHdr where
  msgName : Option UInt64 := none
  msgNamelen : UInt64 := 0
  msgIov : IOVector := []
  msgControl : Option (List Byte) := none
deriving DecidableEq, Repr

/- The header wrapper for sending. -/
structure SendMessageHeader where
  mHeader : SendHdr := {}
  iovec : IOVector := []
  controlMsg : Option SendMessageHeader.ControlMessage :=
    none
deriving DecidableEq, Repr

namespace SendMessageHeader

/- What is passed to the kernel for the control message. -/
def control (this : SendMessageHeader) :
    Option (List Byte) :=
  this.controlMsg.map fun msg => msg.mBuffer

def setAddress (addr : TargetAddress) (hdr : SendHdr) :
    SendHdr :=
  { hdr with
    msgName := some addr.basePtr
    msgNamelen := addr.size }

def resetAddress (hdr : SendHdr) : SendHdr :=
  { hdr with
    msgName := none
    msgNamelen := 0 }

/- `SendMessageHeader::prepareSend`. -/
def prepareSend (addr : Option TargetAddress)
    (this : SendMessageHeader) : SendMessageHeader :=
  let hdr :=
    match addr with
    | some addr => setAddress addr this.mHeader
    | none => resetAddress this.mHeader
  { this with
    mHeader :=
      { hdr with
        msgIov := this.iovec
        msgControl := this.control } }

/- An attempt: its control message and if it succeeded. -/
structure Attempt where
  control : Option (List Byte)
  succeeded : Bool
deriving DecidableEq, Repr

/-
  The header, the addresses of the bytes that the kernel
  took so far, and all attempts.
-/
structure Sending where
  this : SendMessageHeader
  sent : List UInt64
  attempts : List Attempt
deriving DecidableEq, Repr

def startSending (this : SendMessageHeader) : Sending where
  this := this
  sent := []
  attempts := []

/- The kernel takes bytes from the front, or none. -/
def sendmsg (answer : Sys UInt64) :
    Method Sending UInt64 where
  run s :=
    let hdr := s.this.mHeader
    match answer with
    | .error e =>
        (.raised (.apiError e (str "sendmsg()")),
          { s with
            attempts :=
              s.attempts ++ [⟨hdr.msgControl, false⟩] })
    | .ok res =>
        (.returned res,
          { s with
            sent := s.sent ++ hdr.msgIov.bytes.take res.toNat
            attempts :=
              s.attempts ++ [⟨hdr.msgControl, true⟩] })

def setThis (this : SendMessageHeader) (s : Sending) :
    Sending :=
  { s with this := this }

/- `SendMessageHeader::postSend`. -/
def postSend (sent : UInt64) :
    Method SendMessageHeader Unit := do
  let _ ←
    Command.focus (fun this => this.iovec)
      (fun iovec this => { this with iovec := iovec })
      (IOVector.update sent)
  Command.modify fun this => { this with controlMsg := none }

/- `Socket::sendMessage`. -/
def sendMessage (addr : Option TargetAddress)
    (answer : Sys UInt64) : Method Sending Unit := do
  Command.modify fun s =>
    setThis (prepareSend addr s.this) s
  let res ← sendmsg answer
  Command.focus (fun s => s.this) setThis (postSend res)

/- A call of `sendMessage` and what the kernel answers. -/
structure Send where
  addr : Option TargetAddress
  answer : Sys UInt64

/- No more is sent than there is. -/
def sending : Machine Sending Send where
  legal s i :=
    ∀ res, i.answer = .ok res →
      res.toNat ≤ s.this.iovec.leftTotal
  step s i := ((sendMessage i.addr i.answer).run s).2

/-
  The transmitted bytes and the rest are what there was at
  first. The control message was passed until an attempt
  succeeded, and not again.
-/
structure Transmitted
    (first : SendMessageHeader) (s : Sending) : Prop where
  bytes :
    s.sent ++ s.this.iovec.bytes = first.iovec.bytes
  control :
    ∀ before attempt after,
      s.attempts = before ++ attempt :: after →
      attempt.control =
        if before.any fun a => a.succeeded then none
        else first.control

/- A call throws just if its system call failed. -/
structure Kept
    (first : SendMessageHeader)
    (s : Sending) (i : Send) (s' : Sending) : Prop where
  outcome :
    ((sendMessage i.addr i.answer).run s).1 =
      match i.answer with
      | .error e =>
          .raised (.apiError e (str "sendmsg()"))
      | .ok _ => .returned ()
  transmitted : Transmitted first s'

end SendMessageHeader

------------------------------------------------------------
-- Receiving
------------------------------------------------------------

/-
  A `SocketAddress`: one of a fixed size, or a
  `UnixAddress`.
-/
inductive SocketAddress where
| fixed (storage : AddressStorage) (size : Nat)
| unix (storage : AddressStorage) (addr : UnixAddress)

namespace SocketAddress

def storage : SocketAddress → AddressStorage
| fixed storage _ => storage
| unix storage _ => storage

/- `SocketAddress::update` and what overrides it. -/
def update {σ : Type} (newLength : UInt32) :
    SocketAddress → Method σ Unit
| fixed _ size =>
    if newLength.toNat ≠ size then
      Command.raise
        (.runtimeError
          (str "inconsistent socket address size on return"))
    else pure ()
| unix _ addr =>
    Command.focus (fun _ => addr) (fun _ s => s)
      (UnixAddress.update newLength.toUInt64)

/- The lengths that `update` does not refuse. -/
def Accepts (newLength : UInt32) : SocketAddress → Prop
| fixed _ size => newLength.toNat = size
| unix _ _ => UnixAddress.baseSize ≤ newLength.toUInt64

end SocketAddress

namespace ReceiveMessageHeader

abbrev MessageFlags : Type := BitMask 32

/- `MSG_TRUNC`. -/
def truncate : BitVec 32 := 0x20

/- What a successful `recvmsg()` comes with. -/
structure Reply where
  result : UInt64
  namelen : UInt32
  control : List Byte
deriving DecidableEq, Repr

def recvmsg (answer : Sys Reply) : Method World Reply where
  run w :=
    match answer with
    | .error e =>
        (.raised (.apiError e (str "recvmsg()")), w)
    | .ok reply =>
        (.returned reply, receive reply.control w)

/- The address is updated if it was filled in. -/
def fillAddress (namelen : UInt32) :
    Option SocketAddress → Method World Bool
| none => pure false
| some addr =>
    if namelen ≠ 0 then do
      addr.update namelen
      pure true
    else pure false

def setIovec (iovec : IOVector) (w : World) : World :=
  { w with this := { w.this with iovec := iovec } }

/- `ReceiveMessageHeader::postReceive`. -/
def postReceive (received : UInt64) : Method World Unit := do
  let _ ←
    Command.focus (fun w : World => w.this.iovec) setIovec
      (IOVector.update received)
  pure ()

/- `Socket::receiveMessage`. -/
def receiveMessage (addr : Option SocketAddress)
    (answer : Sys Reply) : Method World Bool := do
  prepareReceive (addr.map SocketAddress.storage)
  let reply ← recvmsg answer
  let ret ← fillAddress reply.namelen addr
  postReceive reply.result
  pure ret

/- What is done with a header. -/
inductive MessageOp where
| assignIovec (iovec : IOVector)
| setControlBufferSize (bytes : Nat) (reserve : Option Nat)
| receiveMessage (addr : Option SocketAddress)
    (flags : MessageFlags) (answer : Sys Reply)

/- The session when `recvmsg()` is called. -/
def prepared (addr : Option SocketAddress) (s : Session) :
    Session :=
  step s (.prepareReceive (addr.map SocketAddress.storage))

/- The memory that is handed over, and what it gets. -/
def afterReceive (addr : Option SocketAddress)
    (answer : Sys Reply) (s : Session) : Session where
  toWorld := ((receiveMessage addr answer).run s.toWorld).2
  handed := (prepared addr s).handed
  received := answer.toOption.map fun r => r.control

def stepMessage (s : Session) : MessageOp → Session
| .assignIovec iovec =>
    { s with toWorld := setIovec iovec s.toWorld }
| .setControlBufferSize bytes reserve =>
    step s (.setControlBufferSize bytes reserve)
| .receiveMessage addr _ answer =>
    afterReceive addr answer s

/-
  New storage is large enough. The kernel writes no more
  control data than there is room for, and says that it got
  more bytes than there is room for only if it was asked to.
-/
def legalMessage (s : Session) : MessageOp → Prop
| .setControlBufferSize bytes reserve =>
    ∀ capacity, reserve = some capacity → bytes ≤ capacity
| .receiveMessage addr flags (.ok reply) =>
    reply.control.length ≤
        (prepared addr s).header.msgControllen ∧
      (flags.testAny truncate = false →
        reply.result.toNat ≤ s.this.iovec.leftTotal)
| _ => True

def receiving : Machine Session MessageOp where
  legal := legalMessage
  step := stepMessage

/-
  The call returns and tells if the address was filled in,
  the vector is advanced by what was stored in it, and the
  control messages are found in the control buffer.
-/
structure Advanced
    (s : Session) (addr : Option SocketAddress)
    (reply : Reply) (s' : Session) : Prop where
  returned :
    ((receiveMessage addr (.ok reply)).run s.toWorld).1 =
      .returned (addr.isSome && reply.namelen != 0)
  bytes :
    s'.this.iovec.bytes =
      s.this.iovec.bytes.drop
        (min reply.result.toNat
          s.this.iovec.leftBytes.toNat)
  control :
    reply.control ≠ [] →
      s'.header.msgControl = s'.buffer.data ∧
        s'.control = reply.control ∧
        ∀ starts, Filled reply.control starts →
          visited s'.control = starts

/- What is claimed of one operation. -/
def Received (s : Session) (op : MessageOp) (s' : Session) :
    Prop :=
  match op with
  | .receiveMessage addr _ (.ok reply) =>
      Advanced s addr reply s'
  | _ => True

/-
  The kernel got no more bytes than there is room for, the
  address takes its length, and control messages are not
  written to memory that the control buffer gave back.
-/
def Fit (s : Session) : MessageOp → Prop
| .receiveMessage addr _ (.ok reply) =>
    reply.result.toNat ≤ s.this.iovec.leftBytes.toNat ∧
      (∀ a, addr = some a → reply.namelen ≠ 0 →
        a.Accepts reply.namelen) ∧
      (reply.control ≠ [] →
        s.buffer.size ≠ 0 ∨
          s.header.msgControl = s.buffer.data)
| _ => True

end ReceiveMessageHeader

------------------------------------------------------------
-- Runs of Sends
------------------------------------------------------------

namespace SendMessageHeader

theorem run_sendMessage_error
    (addr : Option TargetAddress) (e : Errno)
    (s : Sending) :
    (sendMessage addr (.error e)).run s =
      (.raised (.apiError e (str "sendmsg()")),
        { s with
          this := prepareSend addr s.this
          attempts :=
            s.attempts ++ [⟨s.this.control, false⟩] }) := by
  cases addr with
  | none => rfl
  | some addr => rfl

theorem run_sendMessage_ok
    (addr : Option TargetAddress) {res : UInt64}
    {s : Sending}
    (hFits : res.toNat ≤ s.this.iovec.leftTotal) :
    (sendMessage addr (.ok res)).run s =
      (.returned (),
        { this :=
            { prepareSend addr s.this with
              iovec :=
                (IOVector.updateLoop res s.this.iovec).2.2
              controlMsg := none }
          sent :=
            s.sent ++ s.this.iovec.bytes.take res.toNat
          attempts :=
            s.attempts ++ [⟨s.this.control, true⟩] }) := by
  have hUpdate := IOVector.run_update_returned hFits
  have hIovec :
      (prepareSend addr s.this).iovec = s.this.iovec := by
    cases addr with
    | none => rfl
    | some addr => rfl
  have hHeader :
      (prepareSend addr s.this).mHeader.msgIov =
          s.this.iovec ∧
        (prepareSend addr s.this).mHeader.msgControl =
          s.this.control := by
    cases addr with
    | none => exact ⟨rfl, rfl⟩
    | some addr => exact ⟨rfl, rfl⟩
  simp only [sendMessage, sendmsg, postSend, setThis,
    Command.run_bind, Command.run_modify, Command.run_focus,
    hHeader.1, hHeader.2, hIovec, hUpdate]

/-
  What is kept: besides the promise, the control message is
  there as long as no attempt succeeded.
-/
structure SendInv
    (first : SendMessageHeader) (s : Sending) : Prop where
  transmitted : Transmitted first s
  pending :
    s.this.control =
      if s.attempts.any fun a => a.succeeded then none
      else first.control

theorem sendInv_start (first : SendMessageHeader) :
    SendInv first (startSending first) where
  transmitted :=
    { bytes := rfl
      control := by
        intro before attempt after hSplit
        have hLength := congrArg List.length hSplit
        rw [List.length_append, List.length_cons] at hLength
        exact absurd hLength.symm (by simp [startSending]) }
  pending := rfl

/- The control messages after one more attempt. -/
theorem control_of_attempt
    {first : SendMessageHeader} {s : Sending}
    (hInv : SendInv first s) (succeeded : Bool)
    {before after : List Attempt} {attempt : Attempt}
    (hSplit :
      s.attempts ++ [⟨s.this.control, succeeded⟩] =
        before ++ attempt :: after) :
    attempt.control =
      if before.any fun a => a.succeeded then none
      else first.control := by
  rcases List.eq_nil_or_concat after with
    hLast | ⟨rest, last, hRest⟩
  · rw [hLast] at hSplit
    rcases List.append_inj' hSplit rfl with ⟨rfl, hSame⟩
    injection hSame with hSame
    rw [← hSame]
    exact hInv.pending
  · rw [hRest, List.concat_eq_append, ← List.cons_append,
      ← List.append_assoc] at hSplit
    rcases List.append_inj' hSplit rfl with ⟨hBefore, -⟩
    exact
      hInv.transmitted.control before attempt rest hBefore

/- Every call keeps the books. -/
theorem kept_sendMessage
    {first : SendMessageHeader} {s : Sending} {i : Send}
    (hInv : SendInv first s) (hLegal : sending.legal s i) :
    SendInv first (sending.step s i) ∧
      Kept first s i (sending.step s i) := by
  have hBytes := hInv.transmitted.bytes
  have hStep :
      sending.step s i =
        ((sendMessage i.addr i.answer).run s).2 := rfl
  cases hAnswer : i.answer with
  | error e =>
      have hRun := run_sendMessage_error i.addr e s
      have hIovec :
          (prepareSend i.addr s.this).iovec =
            s.this.iovec := by
        cases i.addr with
        | none => rfl
        | some addr => rfl
      have hControl :
          (prepareSend i.addr s.this).control =
            s.this.control := by
        cases i.addr with
        | none => rfl
        | some addr => rfl
      rw [hAnswer, hRun] at hStep
      have hAfter : SendInv first (sending.step s i) := by
        rw [hStep]
        exact
          { transmitted :=
              { bytes := by
                  rw [hIovec]
                  exact hBytes
                control := fun _ _ _ hSplit =>
                  control_of_attempt hInv false hSplit }
            pending := by
              simp only [hControl, hInv.pending,
                List.any_append, List.any_cons,
                List.any_nil, Bool.or_false] }
      refine ⟨hAfter, ?_, hAfter.transmitted⟩
      rw [hAnswer, hRun]
  | ok res =>
      have hFits := hLegal res hAnswer
      have hRun := run_sendMessage_ok i.addr hFits
      rw [hAnswer, hRun] at hStep
      have hAfter : SendInv first (sending.step s i) := by
        rw [hStep]
        exact
          { transmitted :=
              { bytes := by
                  rw [IOVector.bytes_updateLoop,
                    List.append_assoc,
                    List.take_append_drop]
                  exact hBytes
                control := fun _ _ _ hSplit =>
                  control_of_attempt hInv true hSplit }
            pending := by
              simp [control] }
      refine ⟨hAfter, ?_, hAfter.transmitted⟩
      rw [hAnswer, hRun]

theorem kept_along
    (first : SendMessageHeader) (sends : List Send)
    (hLegal :
      sending.Legal (startSending first) sends) :
    sending.Along (Kept first) (startSending first)
      sends :=
  Machine.along_of_step (SendInv first)
    (fun _ _ hInv hSend => kept_sendMessage hInv hSend)
    sends _ (sendInv_start first) hLegal

end SendMessageHeader

------------------------------------------------------------
-- One Receive
------------------------------------------------------------

namespace ReceiveMessageHeader

/- The address, if any, takes its length. -/
def Takes (addr : Option SocketAddress) (namelen : UInt32) :
    Prop :=
  ∀ a, addr = some a → namelen ≠ 0 → a.Accepts namelen

theorem run_update_accepts
    {σ : Type} {addr : SocketAddress} {namelen : UInt32}
    (hAccepts : addr.Accepts namelen) (s : σ) :
    (addr.update namelen).run s = (.returned (), s) := by
  cases addr with
  | fixed storage size =>
      have hSize : namelen.toNat = size := hAccepts
      simp [SocketAddress.update, hSize]
  | unix storage a =>
      have hLong :
          ¬ namelen.toUInt64 < UnixAddress.baseSize :=
        UInt64.not_lt.mpr hAccepts
      simp [SocketAddress.update, UnixAddress.update, hLong]

theorem run_update_refuses
    {σ : Type} {addr : SocketAddress} {namelen : UInt32}
    (hRefuses : ¬ addr.Accepts namelen) (s : σ) :
    ∃ ex, (addr.update namelen).run s = (.raised ex, s) := by
  cases addr with
  | fixed storage size =>
      have hSize : namelen.toNat ≠ size := hRefuses
      simp [SocketAddress.update, hSize]
  | unix storage a =>
      have hShort :
          namelen.toUInt64 < UnixAddress.baseSize :=
        UInt64.not_le.mp hRefuses
      simp [SocketAddress.update, UnixAddress.update, hShort,
        Command.run_bind]

theorem run_fillAddress
    {addr : Option SocketAddress} {namelen : UInt32}
    (hTakes : Takes addr namelen) (w : World) :
    (fillAddress namelen addr).run w =
      (.returned (addr.isSome && namelen != 0), w) := by
  cases addr with
  | none => rfl
  | some a =>
      unfold fillAddress
      by_cases hZero : namelen = 0
      · simp [hZero]
      · have hUpdate :=
          run_update_accepts (hTakes a rfl hZero) w
        simp [hZero, Command.run_bind, hUpdate]

theorem run_fillAddress_refuses
    {addr : Option SocketAddress} {namelen : UInt32}
    (hRefuses : ¬ Takes addr namelen) (w : World) :
    ∃ ex, (fillAddress namelen addr).run w =
      (.raised ex, w) := by
  unfold Takes at hRefuses
  push Not at hRefuses
  rcases hRefuses with ⟨a, rfl, hNonzero, hRefuses⟩
  rcases run_update_refuses hRefuses w with ⟨ex, hRun⟩
  refine ⟨ex, ?_⟩
  unfold fillAddress
  simp [hNonzero, Command.run_bind, hRun]

/- What `recvmsg()` is called with. -/
theorem prepared_facts
    (addr : Option SocketAddress) (s : Session) :
    (prepared addr s).this.iovec = s.this.iovec ∧
      (prepared addr s).buffer = s.buffer ∧
      (s.buffer.size ≠ 0 →
        (prepared addr s).header.msgControl =
          s.buffer.data) ∧
      (s.buffer.size = 0 →
        (prepared addr s).header.msgControl =
          s.header.msgControl) := by
  rcases run_prepareReceive
      (addr.map SocketAddress.storage) s.toWorld with
    ⟨hdr, hRun, hSome, hNone⟩
  have hWorld :
      (prepared addr s).toWorld = setHeader hdr s.toWorld :=
    hRun
  rw [hWorld]
  exact
    ⟨rfl, rfl, fun hSize => (hSome hSize).1,
      fun hSize => (hNone hSize).1⟩

/- The parts of a receive that the kernel answered. -/
theorem run_receiveMessage
    (addr : Option SocketAddress) (reply : Reply)
    (s : Session) :
    (receiveMessage addr (.ok reply)).run s.toWorld =
      (do
        let ret ← fillAddress reply.namelen addr
        postReceive reply.result
        pure ret : Method World Bool).run
        (receive reply.control (prepared addr s).toWorld) :=
  rfl

/- A receive that returns, and what it leaves behind. -/
theorem run_receiveMessage_fits
    {addr : Option SocketAddress} {reply : Reply}
    {s : Session}
    (hTakes : Takes addr reply.namelen)
    (hFits :
      reply.result.toNat ≤ s.this.iovec.leftTotal) :
    (receiveMessage addr (.ok reply)).run s.toWorld =
      (.returned (addr.isSome && reply.namelen != 0),
        setIovec
          (IOVector.updateLoop reply.result
            s.this.iovec).2.2
          (receive reply.control
            (prepared addr s).toWorld)) := by
  have hIovec :
      (receive reply.control
          (prepared addr s).toWorld).this.iovec =
        s.this.iovec := (prepared_facts addr s).1
  have hUpdate := IOVector.run_update_returned hFits
  rw [run_receiveMessage]
  simp only [Command.run_bind, run_fillAddress hTakes,
    postReceive, Command.run_focus, hIovec, hUpdate,
    Command.run_pure]

/- A receive returns in no other case. -/
theorem fits_of_returned
    {addr : Option SocketAddress} {reply : Reply}
    {s : Session} {b : Bool}
    (hReturned :
      ((receiveMessage addr (.ok reply)).run
        s.toWorld).1 = .returned b) :
    Takes addr reply.namelen ∧
      reply.result.toNat ≤ s.this.iovec.leftTotal := by
  have hIovec :
      (receive reply.control
          (prepared addr s).toWorld).this.iovec =
        s.this.iovec := (prepared_facts addr s).1
  rw [run_receiveMessage] at hReturned
  by_cases hTakes : Takes addr reply.namelen
  · refine ⟨hTakes, ?_⟩
    by_contra hLarge
    have hUpdate :=
      IOVector.run_update_raised (Nat.not_le.mp hLarge)
    simp only [Command.run_bind, run_fillAddress hTakes,
      postReceive, Command.run_focus, hIovec, hUpdate]
      at hReturned
    cases hReturned
  · rcases run_fillAddress_refuses hTakes
        (receive reply.control
          (prepared addr s).toWorld) with
      ⟨ex, hRun⟩
    rw [Command.run_bind_raised hRun] at hReturned
    cases hReturned

------------------------------------------------------------
-- Runs of Receives
------------------------------------------------------------

theorem consistent_setIovec
    {s : Session} (hInv : Consistent s)
    (iovec : IOVector) :
    Consistent
      { s with toWorld := setIovec iovec s.toWorld } where
  nullBlock := hInv.nullBlock
  nonNull := hInv.nonNull
  fits := hInv.fits
  bufferOld := hInv.bufferOld
  controlOld := hInv.controlOld
  handedOver := hInv.handedOver
  short := hInv.short
  room := hInv.room
  filled := hInv.filled

/- The session after a receive that returns. -/
theorem afterReceive_eq
    {addr : Option SocketAddress} {reply : Reply}
    {s : Session}
    (hTakes : Takes addr reply.namelen)
    (hFits :
      reply.result.toNat ≤ s.this.iovec.leftTotal) :
    afterReceive addr (.ok reply) s =
      { toWorld :=
          setIovec
            (IOVector.updateLoop reply.result
              s.this.iovec).2.2
            (receive reply.control
              (prepared addr s).toWorld)
        handed := (prepared addr s).handed
        received := some reply.control } := by
  unfold afterReceive
  rw [run_receiveMessage_fits hTakes hFits]
  rfl

theorem consistent_afterReceive
    {addr : Option SocketAddress} {reply : Reply}
    {s : Session} (hInv : Consistent s)
    (hLegal :
      reply.control.length ≤
        (prepared addr s).header.msgControllen)
    (hTakes : Takes addr reply.namelen)
    (hFits :
      reply.result.toNat ≤ s.this.iovec.leftTotal) :
    Consistent (afterReceive addr (.ok reply) s) := by
  rw [afterReceive_eq hTakes hFits]
  exact
    consistent_setIovec
      (consistent_receive
        (consistent_prepareReceive hInv _) hLegal) _

/- What the total is as a `size_t` it is at most. -/
theorem toNat_leftBytes_le (v : IOVector) :
    v.leftBytes.toNat ≤ v.leftTotal := by
  rw [IOVector.toNat_leftBytes]
  exact Nat.mod_le _ _

theorem advanced_of_fit
    {addr : Option SocketAddress} {flags : MessageFlags}
    {reply : Reply} {s : Session} (hInv : Consistent s)
    (hLegal :
      reply.control.length ≤
        (prepared addr s).header.msgControllen)
    (hFit : Fit s (.receiveMessage addr flags (.ok reply))) :
    Consistent (afterReceive addr (.ok reply) s) ∧
      Advanced s addr reply
        (afterReceive addr (.ok reply) s) := by
  rcases hFit with ⟨hResult, hTakes, hLive⟩
  have hFits := hResult.trans (toNat_leftBytes_le _)
  have hAfter :=
    consistent_afterReceive hInv hLegal hTakes hFits
  rcases prepared_facts addr s with
    ⟨-, hBuffer, hSome, hNone⟩
  refine ⟨hAfter, ?_⟩
  have hEq := afterReceive_eq hTakes hFits
  exact
    { returned := by
        rw [run_receiveMessage_fits hTakes hFits]
      bytes := by
        rw [hEq, Nat.min_eq_left hResult]
        exact IOVector.bytes_updateLoop _ _
      control := by
        intro hSent
        have hControl :
            (afterReceive addr (.ok reply) s).control =
              reply.control :=
          hAfter.filled _ rfl
        refine ⟨?_, hControl, ?_⟩
        · have hPointer :
              (prepared addr s).header.msgControl =
                s.buffer.data := by
            by_cases hEmpty : s.buffer.size = 0
            · rw [hNone hEmpty]
              exact
                (hLive hSent).resolve_left
                  (not_not.mpr hEmpty)
            · exact hSome hEmpty
          rw [hEq]
          exact
            hPointer.trans
              (congrArg ControlBuffer.data hBuffer).symm
        · intro starts hFilled
          rw [hControl]
          exact visited_of_filled hFilled }

theorem fit_of_advanced
    {addr : Option SocketAddress} {flags : MessageFlags}
    {reply : Reply} {s : Session}
    (hAdvanced :
      Advanced s addr reply
        (afterReceive addr (.ok reply) s)) :
    Fit s (.receiveMessage addr flags (.ok reply)) := by
  rcases fits_of_returned hAdvanced.returned with
    ⟨hTakes, hFits⟩
  have hEq := afterReceive_eq hTakes hFits
  rcases prepared_facts addr s with
    ⟨-, hBuffer, -, hNone⟩
  refine ⟨?_, hTakes, ?_⟩
  · have hLeft := toNat_leftBytes_le s.this.iovec
    have hBytes := congrArg List.length hAdvanced.bytes
    have hIovec :
        (afterReceive addr (.ok reply) s).this.iovec =
          (IOVector.updateLoop reply.result
            s.this.iovec).2.2 := by
      rw [hEq]
      rfl
    rw [hIovec, IOVector.bytes_updateLoop,
      List.length_drop, List.length_drop,
      IOVector.length_bytes] at hBytes
    omega
  · intro hSent
    by_contra hStale
    rw [not_or, not_not] at hStale
    have hPointer := (hAdvanced.control hSent).1
    rw [hEq] at hPointer
    apply hStale.2
    rw [← hNone hStale.1]
    exact
      hPointer.trans (congrArg ControlBuffer.data hBuffer)

/- Operations that are fit keep the books, others do not. -/
theorem received_of_fit
    {s : Session} {op : MessageOp} (hInv : Consistent s)
    (hLegal : receiving.legal s op) (hFit : Fit s op) :
    Consistent (receiving.step s op) ∧
      Received s op (receiving.step s op) := by
  cases op with
  | assignIovec iovec =>
      exact ⟨consistent_setIovec hInv iovec, trivial⟩
  | setControlBufferSize bytes reserve =>
      exact ⟨(consistent_resized hInv hLegal).1, trivial⟩
  | receiveMessage addr flags answer =>
      cases answer with
      | error e =>
          exact ⟨consistent_prepareReceive hInv _, trivial⟩
      | ok reply => exact advanced_of_fit hInv hLegal.1 hFit

theorem not_received_of_not_fit
    {s : Session} {op : MessageOp} (hBad : ¬ Fit s op) :
    ¬ Received s op (receiving.step s op) := by
  cases op with
  | assignIovec iovec => exact absurd trivial hBad
  | setControlBufferSize bytes reserve =>
      exact absurd trivial hBad
  | receiveMessage addr flags answer =>
      cases answer with
      | error e => exact absurd trivial hBad
      | ok reply =>
          intro hAdvanced
          exact hBad (fit_of_advanced hAdvanced)

/-
  Sends always keep the books. Receives do along exactly the
  runs in which all of them are fit.
-/
theorem bookkeeping_iff
    (first : SendMessageHeader)
    (sends : List SendMessageHeader.Send)
    (ops : List MessageOp)
    (hSends :
      SendMessageHeader.sending.Legal
        (SendMessageHeader.startSending first) sends)
    (hOps : receiving.Legal start ops) :
    (SendMessageHeader.sending.Along
          (SendMessageHeader.Kept first)
          (SendMessageHeader.startSending first) sends ∧
        receiving.Along Received start ops) ↔
      receiving.Along (fun s op _ => Fit s op) start ops := by
  have hReceives :=
    Machine.along_iff_of_invariant Consistent
      (fun _ _ hInv hLegal hFit =>
        received_of_fit hInv hLegal hFit)
      (fun _ _ _ _ hBad => not_received_of_not_fit hBad)
      ops start consistent_start hOps
  rw [hReceives]
  exact
    ⟨And.right,
      fun hFit =>
        ⟨SendMessageHeader.kept_along first sends hSends,
          hFit⟩⟩

/- A control message in a buffer of 16 bytes. -/
def bareHeader : List Byte :=
  Buffer.leBytes 8 16 ++ Buffer.leBytes 4 1 ++
    Buffer.leBytes 4 1

/- An attempt that fails and two that send a part each. -/
def threeSends : List SendMessageHeader.Send :=
  [⟨none, .error .again⟩, ⟨none, .ok 2⟩, ⟨none, .ok 1⟩]

def oneReceive : List MessageOp :=
  [.assignIovec [⟨0x2000, 4⟩],
    .setControlBufferSize 24 (some 32),
    .receiveMessage none ⟨0⟩ (.ok ⟨3, 0, bareHeader⟩)]

theorem bookkeeping_transfers :
    SendMessageHeader.sending.Along
        (SendMessageHeader.Kept
          { iovec := [⟨0x1000, 3⟩]
            controlMsg := some ⟨bareHeader⟩ })
        (SendMessageHeader.startSending
          { iovec := [⟨0x1000, 3⟩]
            controlMsg := some ⟨bareHeader⟩ })
        threeSends ∧
      receiving.Along Received start oneReceive := by
  refine
    (bookkeeping_iff
      { iovec := [⟨0x1000, 3⟩]
        controlMsg := some ⟨bareHeader⟩ }
      threeSends oneReceive ?_ ?_).mpr ?_
  · refine ⟨?_, ?_, ?_, trivial⟩
    · intro res hAnswer
      cases hAnswer
    · intro res hAnswer
      injection hAnswer with hAnswer
      rw [← hAnswer]
      decide
    · intro res hAnswer
      injection hAnswer with hAnswer
      rw [← hAnswer]
      decide
  · refine ⟨trivial, ?_, ⟨by decide, ?_⟩, trivial⟩
    · intro capacity hReserve
      cases hReserve
      decide
    · intro _
      decide
  · refine ⟨trivial, trivial, ⟨by decide, ?_, ?_⟩, trivial⟩
    · intro a hAddr
      cases hAddr
    · intro _
      exact Or.inl (by decide)

/- A datagram of 10 bytes for a vector of 4 bytes. -/
def truncated : List MessageOp :=
  [.assignIovec [⟨0x2000, 4⟩],
    .receiveMessage none ⟨truncate⟩ (.ok ⟨10, 0, []⟩)]

/- The call throws after the datagram was received. -/
theorem not_received_truncated :
    receiving.Legal start truncated ∧
      ¬ receiving.Along Received start truncated := by
  refine ⟨⟨trivial, ⟨by decide, ?_⟩, trivial⟩, ?_⟩
  · intro hFlag
    exact absurd hFlag (by decide)
  · rintro ⟨-, hAdvanced, -⟩
    have hFits := (fits_of_returned hAdvanced.returned).2
    exact absurd hFits (by decide)

end ReceiveMessageHeader

end Cosmos
