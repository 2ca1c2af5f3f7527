import LibCosmos.FS.FileDescriptor
import LibCosmos.Net.AncillaryMessage

/-
  The ancillary messages of UNIX domain sockets: file
  descriptors and credentials
  (`src/net/unix/aux.cxx`, `include/net/unix/aux.hxx`).

  Main declarations:
    * `UnixRightsMessage`, `UnixRightsMessage.serialize`,
      `UnixRightsMessage.deserialize`
    * `UnixCredentialsMessage`
    * `UnixRightsMessage.Parses`
    * `ancillary_round_trip`
-/

namespace Cosmos

open ControlMessage
open Custody

/- A `FileNum` in memory. -/
def fileNums : Packing FileNum where
  size := 4
  encode fd := intBytes.encode fd.raw
  decode bs := ⟨intBytes.decode bs⟩
  size_pos := intBytes.size_pos
  size_encode fd := intBytes.size_encode fd.raw
  decode_encode fd := by simp [intBytes.decode_encode]

------------------------------------------------------------
-- File Descriptors
------------------------------------------------------------

/- `UnixRightsMessage`. -/
structure UnixRightsMessage where
  mFds : List FileNum := []
  mUnclaimedFds : Bool := false
deriving DecidableEq, Repr

namespace UnixRightsMessage

/-
  The descriptors that the object is to close. The log tells
  how they are settled; they are acquired when the kernel
  delivers a message, before it is parsed.
-/
def owned (this : UnixRightsMessage) : List FileNum :=
  if this.mUnclaimedFds then
    this.mFds.filter fun fd => fd ≠ FileNum.invalid
  else []

/-
  The loop in `closeUnclaimed`. The answer of `::close` is
  given by the position in the vector.
-/
def closeAll {T : Type}
    (closed : Nat → Sys Unit) (fds : List FileNum) (i : Nat) :
    Method (Frame T) Unit :=
  Command.forEach
    (fun p => FileDescriptor.closeLocal p.1 (closed p.2))
    (fds.zipIdx i)

/- `UnixRightsMessage::closeUnclaimed`. -/
def closeUnclaimed (closed : Nat → Sys Unit) :
    Method (Frame UnixRightsMessage) Unit := do
  let this ← Frame.self
  if this.mUnclaimedFds then do
    closeAll closed this.mFds 0
    Frame.assign fun this => { this with mFds := [] }
    Frame.assign fun this =>
      { this with mUnclaimedFds := false }
  else
    pure ()

/- `UnixRightsMessage::addFD`. -/
def addFD (fd : FileNum) :
    Method (Frame UnixRightsMessage) Unit :=
  Frame.assign fun this =>
    { this with mFds := this.mFds ++ [fd] }

/- `UnixRightsMessage::clearFDs`. -/
def clearFDs (closed : Nat → Sys Unit) :
    Method (Frame UnixRightsMessage) Unit := do
  closeUnclaimed closed
  Frame.assign fun this => { this with mFds := [] }

/- `UnixRightsMessage::takeFDs`. -/
def takeFDs :
    Method (Frame UnixRightsMessage) (List FileNum) := do
  let this ← Frame.self
  if ¬ this.mUnclaimedFds then
    pure []
  else do
    Frame.handOut this.owned
    Frame.assign fun this => { this with mFds := [] }
    Frame.assign fun this =>
      { this with mUnclaimedFds := false }
    pure this.mFds

/- `UnixRightsMessage::numFDs`. -/
def numFDs (this : UnixRightsMessage) : Nat :=
  if this.mUnclaimedFds then this.mFds.length else 0

/- What `deserialize` does with the numbers it read. -/
def receive (fds : List FileNum) :
    Method (Frame UnixRightsMessage) Unit := do
  Frame.assign fun this =>
    { this with mFds := this.mFds ++ fds }
  Frame.assign fun this =>
    if this.mFds ≠ [] then
      { this with mUnclaimedFds := true }
    else this

/- `UnixRightsMessage::deserialize`. -/
def deserialize
    (msg : ReceiveMessageHeader.ControlMessage)
    (closed : Nat → Sys Unit) :
    Method (Frame UnixRightsMessage) Unit := do
  AncillaryMessage.checkMsg msg .rights
  clearFDs closed
  receive
    (fileNums.load msg.content msg.data msg.dataLength)

/- `UnixRightsMessage::serialize`. -/
def serialize (this : UnixRightsMessage) :
    Except Exn SendMessageHeader.ControlMessage :=
  if this.mFds = [] then
    .error (.usageError
      (str "Attempt to serialize empty vector of FileNum"))
  else do
    let ret ←
      AncillaryMessage.createMsg .rights
        (fileNums.size * this.mFds.length)
    pure ⟨fileNums.store ret.mBuffer
      SendMessageHeader.ControlMessage.data this.mFds⟩

------------------------------------------------------------
-- Closing
------------------------------------------------------------

/- Some call of `::close` on what is owned fails. -/
def CloseFails
    (this : UnixRightsMessage) (closed : Nat → Sys Unit) :
    Prop :=
  this.mUnclaimedFds = true ∧
    ∃ p ∈ this.mFds.zipIdx,
      p.1 ≠ FileNum.invalid ∧ closed p.2 ≠ .ok ()

theorem run_closeAll {T : Type}
    {closed : Nat → Sys Unit} {fds : List FileNum} {i : Nat}
    (hCloses :
      ∀ p ∈ fds.zipIdx i,
        p.1 ≠ FileNum.invalid → closed p.2 = .ok ())
    (s : Frame T) :
    (closeAll closed fds i).run s =
      (.returned (),
        { s with
          log :=
            ((fds.filter fun fd =>
              fd ≠ FileNum.invalid).map
                (.settled .closed)).reverse ++ s.log }) := by
  induction fds generalizing i s with
  | nil => simp [closeAll, Command.forEach]
  | cons fd fds ih =>
      rw [List.zipIdx_cons] at hCloses
      have hRest :=
        ih fun p hMem =>
          hCloses p (List.mem_cons_of_mem _ hMem)
      unfold closeAll at hRest ⊢
      rw [List.zipIdx_cons, Command.forEach,
        Command.run_bind, FileDescriptor.run_closeLocal]
      by_cases hValid : fd = FileNum.invalid
      · simp [hValid, hRest]
      · have hOk : closed i = .ok () :=
          hCloses (fd, i) List.mem_cons_self hValid
        simp [hValid, hOk, hRest, FileDescriptor.closeOutcome]

/- A call before another one works. -/
def EarlyWorks
    (closed : Nat → Sys Unit) (p q : FileNum × Nat) : Prop :=
  p.1 ≠ FileNum.invalid → q.1 ≠ FileNum.invalid →
    closed p.2 = .ok ()

theorem filter_eq_nil_iff
    (fds : List FileNum) (i : Nat) :
    (fds.filter fun fd => fd ≠ FileNum.invalid) = [] ↔
      ∀ p ∈ fds.zipIdx i, p.1 = FileNum.invalid := by
  simp only [List.filter_eq_nil_iff, decide_eq_true_eq,
    not_not]
  constructor
  · intro hAll p hMem
    exact hAll p.1 (List.fst_mem_of_mem_zipIdx hMem)
  · intro hAll fd hMem
    rcases List.mem_iff_getElem.mp hMem with ⟨k, hk, hFd⟩
    apply hAll (fd, i + k)
    rw [List.mk_add_mem_zipIdx_iff_getElem?, ← hFd]
    exact List.getElem?_eq_getElem hk

/- A call that works, or is not made, is no obstacle. -/
theorem pairwise_of_works
    {closed : Nat → Sys Unit} {fd : FileNum}
    {i : Nat} (rest : List (FileNum × Nat))
    (hWorks : fd ≠ FileNum.invalid → closed i = .ok ()) :
    ((fd, i) :: rest).Pairwise (EarlyWorks closed) ↔
      rest.Pairwise (EarlyWorks closed) := by
  rw [List.pairwise_cons]
  constructor
  · intro hBoth
    exact hBoth.2
  · intro hRest
    refine ⟨?_, hRest⟩
    intro q _ hValid _
    exact hWorks hValid

/- Behind a call that fails there is nothing to close. -/
theorem pairwise_of_fails
    {closed : Nat → Sys Unit} {fd : FileNum}
    {fds : List FileNum} {i : Nat}
    (hValid : fd ≠ FileNum.invalid)
    (hError : closed i ≠ .ok ()) :
    ((fd, i) :: fds.zipIdx (i + 1)).Pairwise
        (EarlyWorks closed) ↔
      (fds.filter fun fd => fd ≠ FileNum.invalid) = [] := by
  rw [List.pairwise_cons, filter_eq_nil_iff fds (i + 1)]
  constructor
  · rintro ⟨hHead, -⟩ p hMem
    by_contra hNot
    exact hError (hHead p hMem hValid hNot)
  · intro hNone
    constructor
    · intro p hMem _ hNot
      exact absurd (hNone p hMem) hNot
    · apply List.pairwise_iff_forall_sublist.mpr
      intro p q hSub hNot
      exact
        absurd (hNone p (hSub.subset List.mem_cons_self)) hNot

/-
  When a call fails, what comes behind it stays open. At
  least the call that failed was made.
-/
theorem run_closeAll_fails {T : Type}
    {closed : Nat → Sys Unit} {fds : List FileNum} {i : Nat}
    (hFails :
      ∃ p ∈ fds.zipIdx i,
        p.1 ≠ FileNum.invalid ∧ closed p.2 ≠ .ok ())
    (s : Frame T) :
    ∃ ex done,
      (closeAll closed fds i).run s =
        (.raised ex,
          { s with
            log :=
              (done.map (.settled .closed)).reverse ++
                s.log }) ∧
      done ≠ [] ∧
      (done <+: fds.filter fun fd =>
        fd ≠ FileNum.invalid) ∧
      ((done = fds.filter fun fd =>
        fd ≠ FileNum.invalid) ↔
        (fds.zipIdx i).Pairwise (EarlyWorks closed)) := by
  induction fds generalizing i s with
  | nil =>
      rcases hFails with ⟨p, hMem, _⟩
      cases hMem
  | cons fd fds ih =>
      rw [List.zipIdx_cons] at hFails
      unfold closeAll at ih ⊢
      rw [List.zipIdx_cons, Command.forEach,
        Command.run_bind, FileDescriptor.run_closeLocal]
      by_cases hValid : fd = FileNum.invalid
      · rcases hFails with ⟨p, hMem, hBad, hError⟩
        have hTail : p ∈ fds.zipIdx (i + 1) := by
          rcases List.mem_cons.mp hMem with hHead | hTail
          · rw [hHead] at hBad
            exact absurd hValid hBad
          · exact hTail
        rcases ih ⟨p, hTail, hBad, hError⟩ s with
          ⟨ex, done, hRun, hSome, hPart, hAll⟩
        refine ⟨ex, done, ?_, hSome, ?_, ?_⟩
        · simpa [hValid] using hRun
        · simpa [hValid] using hPart
        · rw [pairwise_of_works _
            (fun hNot => absurd hValid hNot), ← hAll]
          simp [hValid]
      · cases hHead : closed i with
        | error e =>
            have hFailed : closed i ≠ .ok () := by
              rw [hHead]
              intro hOk
              cases hOk
            refine
              ⟨.apiError e (str "close()"), [fd], ?_,
                by simp, ?_, ?_⟩
            · simp [hValid, FileDescriptor.closeOutcome]
            · simp [hValid]
            · rw [pairwise_of_fails hValid hFailed,
                List.filter_cons_of_pos (by simp [hValid]),
                List.cons_inj_right]
              exact eq_comm
        | ok =>
            rcases hFails with ⟨p, hMem, hBad, hError⟩
            have hTail : p ∈ fds.zipIdx (i + 1) := by
              rcases List.mem_cons.mp hMem with hFirst | hTail
              · rw [hFirst] at hError
                exact absurd hHead hError
              · exact hTail
            rcases
                ih ⟨p, hTail, hBad, hError⟩
                  { s with
                    log := .settled .closed fd :: s.log } with
              ⟨ex, done, hRun, hSome, hPart, hAll⟩
            refine
              ⟨ex, fd :: done, ?_, by simp, ?_, ?_⟩
            · simp [hValid, FileDescriptor.closeOutcome, hRun]
            · simpa [hValid] using hPart
            · rw [pairwise_of_works _ (fun _ => hHead),
                ← hAll]
              simp [hValid]

/- Without a failing call everything owned is closed. -/
theorem run_closeUnclaimed
    {closed : Nat → Sys Unit} {s : Frame UnixRightsMessage}
    (hCloses : ¬ CloseFails s.this closed) :
    (closeUnclaimed closed).run s =
      (.returned (),
        { this :=
            if s.this.mUnclaimedFds then {} else s.this
          log :=
            (s.this.owned.map (.settled .closed)).reverse ++
              s.log }) := by
  by_cases hFlag : s.this.mUnclaimedFds = true
  · have hWorks : ∀ p ∈ s.this.mFds.zipIdx 0,
        p.1 ≠ FileNum.invalid → closed p.2 = .ok () := by
      intro p hMem hValid
      by_contra hError
      exact hCloses ⟨hFlag, p, hMem, hValid, hError⟩
    have hAll := run_closeAll hWorks s
    simp [closeUnclaimed, Command.run_bind, hFlag, hAll,
      owned]
  · simp [closeUnclaimed, Command.run_bind, hFlag, owned]

/- With one the object stays as it was. -/
theorem run_closeUnclaimed_fails
    {closed : Nat → Sys Unit} {s : Frame UnixRightsMessage}
    (hFails : CloseFails s.this closed) :
    ∃ ex done,
      (closeUnclaimed closed).run s =
        (.raised ex,
          { s with
            log :=
              (done.map (.settled .closed)).reverse ++
                s.log }) ∧
      done ≠ [] ∧ done <+: s.this.owned ∧
      (done = s.this.owned ↔
        s.this.mFds.zipIdx.Pairwise
          (EarlyWorks closed)) := by
  rcases hFails with ⟨hFlag, hSome⟩
  rcases run_closeAll_fails hSome s with
    ⟨ex, done, hRun, hDone, hPart, hAll⟩
  refine ⟨ex, done, ?_, hDone, ?_, ?_⟩
  · simp [closeUnclaimed, Command.run_bind, hFlag, hRun]
  · simpa only [owned, hFlag, if_true] using hPart
  · simpa only [owned, hFlag, if_true] using hAll

theorem run_clearFDs
    {closed : Nat → Sys Unit} {s : Frame UnixRightsMessage}
    (hCloses : ¬ CloseFails s.this closed) :
    (clearFDs closed).run s =
      (.returned (),
        { this := {}
          log :=
            (s.this.owned.map (.settled .closed)).reverse ++
              s.log }) := by
  simp only [clearFDs, Command.run_bind,
    run_closeUnclaimed hCloses, Frame.run_assign]
  by_cases hFlag : s.this.mUnclaimedFds = true
  · simp [hFlag]
  · simp [hFlag]

theorem run_clearFDs_fails
    {closed : Nat → Sys Unit} {s : Frame UnixRightsMessage}
    (hFails : CloseFails s.this closed) :
    ∃ ex done,
      (clearFDs closed).run s =
        (.raised ex,
          { s with
            log :=
              (done.map (.settled .closed)).reverse ++
                s.log }) ∧
      done ≠ [] ∧ done <+: s.this.owned := by
  rcases run_closeUnclaimed_fails hFails with
    ⟨ex, done, hRun, hDone, hPart, -⟩
  refine ⟨ex, done, ?_, hDone, hPart⟩
  simp only [clearFDs, Command.run_bind, hRun]

theorem run_takeFDs (s : Frame UnixRightsMessage) :
    takeFDs.run s =
      if s.this.mUnclaimedFds then
        (.returned s.this.mFds,
          { this := {}
            log :=
              (s.this.owned.map
                (.settled .handedOut)).reverse ++ s.log })
      else (.returned [], s) := by
  unfold takeFDs
  cases hFlag : s.this.mUnclaimedFds with
  | false => simp [Command.run_bind, hFlag]
  | true =>
      simp [Command.run_bind, hFlag, Frame.run_handOut]

------------------------------------------------------------
-- Deserialization
------------------------------------------------------------

/- What is read from a message. -/
def received (msg : ReceiveMessageHeader.ControlMessage) :
    List FileNum :=
  fileNums.load msg.content msg.data msg.dataLength

/- An object that received descriptors. -/
def holding (fds : List FileNum) : UnixRightsMessage where
  mFds := fds
  mUnclaimedFds := fds ≠ []

theorem run_receive
    (fds : List FileNum)
    {log : List (Custody.Entry FileNum)} :
    (receive fds).run ⟨{}, log⟩ =
      (.returned (), ⟨holding fds, log⟩) := by
  simp only [receive, Command.run_bind, Frame.run_assign,
    List.nil_append]
  by_cases hNone : fds = []
  · simp [holding, hNone]
  · simp [holding, hNone]

/- Other messages leave no trace. -/
theorem run_deserialize_mismatch
    {msg : ReceiveMessageHeader.ControlMessage}
    (hOther : ¬ AncillaryMessage.Matches msg .rights)
    (closed : Nat → Sys Unit)
    (s : Frame UnixRightsMessage) :
    (deserialize msg closed).run s =
      (.raised (.runtimeError
        (str "ancillary message type mismatch")), s) := by
  unfold deserialize
  rw [Command.run_bind,
    AncillaryMessage.run_checkMsg_mismatch hOther]

theorem run_deserialize
    {msg : ReceiveMessageHeader.ControlMessage}
    (hMatches : AncillaryMessage.Matches msg .rights)
    {closed : Nat → Sys Unit} {s : Frame UnixRightsMessage}
    (hCloses : ¬ CloseFails s.this closed) :
    (deserialize msg closed).run s =
      (.returned (),
        { this := holding (received msg)
          log :=
            (s.this.owned.map (.settled .closed)).reverse ++
              s.log }) := by
  unfold deserialize
  rw [Command.run_bind,
    AncillaryMessage.run_checkMsg hMatches]
  simp only [Command.run_bind]
  rw [run_clearFDs hCloses]
  simp only [run_receive, received]

theorem run_deserialize_fails
    {msg : ReceiveMessageHeader.ControlMessage}
    (hMatches : AncillaryMessage.Matches msg .rights)
    {closed : Nat → Sys Unit} {s : Frame UnixRightsMessage}
    (hFails : CloseFails s.this closed) :
    ∃ ex done,
      (deserialize msg closed).run s =
        (.raised ex,
          { s with
            log :=
              (done.map (.settled .closed)).reverse ++
                s.log }) ∧
      done ≠ [] ∧ done <+: s.this.owned := by
  rcases run_clearFDs_fails hFails with
    ⟨ex, done, hRun, hDone⟩
  refine ⟨ex, done, ?_, hDone⟩
  unfold deserialize
  rw [Command.run_bind,
    AncillaryMessage.run_checkMsg hMatches]
  simp only [Command.run_bind, hRun]

------------------------------------------------------------
-- Serialization
------------------------------------------------------------

/- The buffer carries the descriptors, in order. -/
theorem carries_serialize
    {this : UnixRightsMessage}
    {msg : SendMessageHeader.ControlMessage}
    (hSerialize : this.serialize = .ok msg) :
    AncillaryMessage.Carries msg.mBuffer .socket
      UnixMessage.rights.raw (fileNums.bytes this.mFds) := by
  have hBytes := fileNums.length_bytes this.mFds
  unfold serialize at hSerialize
  split at hSerialize
  · cases hSerialize
  · cases hCreate :
        AncillaryMessage.createMsg .rights
          (fileNums.size * this.mFds.length) with
    | error e =>
        rw [hCreate] at hSerialize
        cases hSerialize
    | ok ret =>
        rw [hCreate] at hSerialize
        injection hSerialize with hMsg
        unfold AncillaryMessage.createMsg at hCreate
        rw [← hBytes] at hCreate
        have hCarries :=
          AncillaryMessage.carries_create hCreate
        have hRoom :=
          AncillaryMessage.length_create hCreate
        have hData :
            SendMessageHeader.ControlMessage.data =
              headerSize := rfl
        have hAlign :=
          le_align (fileNums.bytes this.mFds).length
        have hSpace :
            space (fileNums.bytes this.mFds).length =
              align (fileNums.bytes this.mFds).length +
                headerSize := by
          simp [space, align, headerSize]
        have hStore :=
          fileNums.store_eq_write this.mFds ret.mBuffer
            SendMessageHeader.ControlMessage.data (by omega)
        rw [← hMsg]
        simp only [hStore]
        exact hCarries

theorem serialize_ok_iff
    (this : UnixRightsMessage) :
    (∃ msg, this.serialize = .ok msg) ↔
      this.mFds ≠ [] ∧
        space (4 * this.mFds.length) ≤
          SendMessageHeader.ControlMessage.maxSize := by
  have hIff :=
    AncillaryMessage.create_ok_iff .socket
      UnixMessage.rights.raw (4 * this.mFds.length)
  rw [← hIff]
  unfold serialize
  by_cases hNone : this.mFds = []
  · simp [hNone]
  · have hSize : fileNums.size = 4 := rfl
    simp only [hNone, if_false, hSize,
      AncillaryMessage.createMsg]
    cases SendMessageHeader.ControlMessage.create .socket
        UnixMessage.rights.raw (4 * this.mFds.length) with
    | error e => simp [bind, Except.bind]
    | ok ret =>
        simp [hNone, bind, Except.bind, pure, Except.pure]

end UnixRightsMessage

------------------------------------------------------------
-- Credentials
------------------------------------------------------------

/- `UnixCredentials`, a `struct ucred`. -/
structure UnixCredentials where
  pid : Int32 := -1
  uid : UInt32 := -1
  gid : UInt32 := -1
deriving DecidableEq, Repr

/- A `struct ucred` in memory. -/
def ucred : Packing UnixCredentials where
  size := 12
  encode creds :=
    intBytes.encode creds.pid ++
      (uintBytes.encode creds.uid ++
        uintBytes.encode creds.gid)
  decode bs :=
    { pid := intBytes.decode (Buffer.read bs 0 4)
      uid := uintBytes.decode (Buffer.read bs 4 4)
      gid := uintBytes.decode (Buffer.read bs 8 4) }
  size_pos := Nat.succ_pos 11
  size_encode creds := by
    simp [intBytes.size_encode, uintBytes.size_encode]
    simp [intBytes, uintBytes]
  decode_encode creds := by
    have hPid := intBytes.size_encode creds.pid
    have hUid := uintBytes.size_encode creds.uid
    have hGid := uintBytes.size_encode creds.gid
    have hLast :=
      Buffer.read_append_left (uintBytes.encode creds.gid)
        [] hGid
    rw [List.append_nil] at hLast
    have hFirst :
        Buffer.read (intBytes.encode creds.pid ++
          (uintBytes.encode creds.uid ++
            uintBytes.encode creds.gid)) 0 4 =
          intBytes.encode creds.pid :=
      Buffer.read_append_left _ _ hPid
    have hSecond :
        Buffer.read (intBytes.encode creds.pid ++
          (uintBytes.encode creds.uid ++
            uintBytes.encode creds.gid)) 4 4 =
          uintBytes.encode creds.uid :=
      (Buffer.read_append_right _ _ hPid 0 4).trans
        (Buffer.read_append_left _ _ hUid)
    have hThird :
        Buffer.read (intBytes.encode creds.pid ++
          (uintBytes.encode creds.uid ++
            uintBytes.encode creds.gid)) 8 4 =
          uintBytes.encode creds.gid :=
      (Buffer.read_append_right _ _ hPid 4 4).trans
        ((Buffer.read_append_right _ _ hUid 0 4).trans
          hLast)
    simp [hFirst, hSecond, hThird, Packing.decode_encode]

/- `UnixCredentialsMessage`. -/
structure UnixCredentialsMessage where
  mCreds : UnixCredentials := {}
deriving DecidableEq, Repr

namespace UnixCredentialsMessage

/- `UnixCredentialsMessage::setCreds`. -/
def setCreds (creds : UnixCredentials) :
    Method UnixCredentialsMessage Unit :=
  Command.modify fun _ => ⟨creds⟩

/- What `deserialize` does with so many bytes of data. -/
def receive (data : List Byte) (bytes : Nat) :
    Method UnixCredentialsMessage Unit :=
  if bytes ≠ ucred.size then
    Command.raise (.runtimeError (str
      "SCM_CREDS message with mismatching length encountered"))
  else
    Command.modify fun _ => ⟨ucred.decode (data.take bytes)⟩

/- `UnixCredentialsMessage::deserialize`. -/
def deserialize
    (msg : ReceiveMessageHeader.ControlMessage) :
    Method UnixCredentialsMessage Unit := do
  AncillaryMessage.checkMsg msg .credentials
  receive (msg.content.drop msg.data) msg.dataLength

/- `UnixCredentialsMessage::serialize`. -/
def serialize (this : UnixCredentialsMessage) :
    Except Exn SendMessageHeader.ControlMessage := do
  let ret ←
    AncillaryMessage.createMsg .credentials ucred.size
  pure ⟨Buffer.write ret.mBuffer
    SendMessageHeader.ControlMessage.data
    (ucred.encode this.mCreds)⟩

theorem run_receive_mismatch
    {bytes : Nat} (hSize : bytes ≠ ucred.size)
    (data : List Byte) (s : UnixCredentialsMessage) :
    (receive data bytes).run s =
      (.raised (.runtimeError (str
        "SCM_CREDS message with mismatching length encountered")),
        s) := by
  unfold receive
  rw [if_pos hSize, Command.run_raise]

theorem run_receive
    {bytes : Nat} (hSize : bytes = ucred.size)
    (data : List Byte) (s : UnixCredentialsMessage) :
    (receive data bytes).run s =
      (.returned (), ⟨ucred.decode (data.take bytes)⟩) := by
  unfold receive
  rw [if_neg (not_not.mpr hSize), Command.run_modify]

/- Messages of another kind or size leave no trace. -/
theorem run_deserialize_mismatch
    {msg : ReceiveMessageHeader.ControlMessage}
    (hOther :
      ¬ (AncillaryMessage.Matches msg .credentials ∧
        msg.dataLength = ucred.size))
    (s : UnixCredentialsMessage) :
    ∃ text,
      (deserialize msg).run s =
        (.raised (.runtimeError text), s) := by
  by_cases hMatches :
      AncillaryMessage.Matches msg .credentials
  · have hSize : msg.dataLength ≠ ucred.size :=
      fun hEq => hOther ⟨hMatches, hEq⟩
    have hRun :=
      Command.run_bind_returned
        (AncillaryMessage.run_checkMsg hMatches s)
        fun _ =>
          receive (msg.content.drop msg.data) msg.dataLength
    exact
      ⟨_, hRun.trans (run_receive_mismatch hSize _ s)⟩
  · have hRun :=
      Command.run_bind_raised
        (AncillaryMessage.run_checkMsg_mismatch hMatches s)
        fun _ =>
          receive (msg.content.drop msg.data) msg.dataLength
    exact ⟨_, hRun⟩

theorem run_deserialize
    {msg : ReceiveMessageHeader.ControlMessage}
    (hMatches : AncillaryMessage.Matches msg .credentials)
    (hSize : msg.dataLength = ucred.size)
    (s : UnixCredentialsMessage) :
    (deserialize msg).run s =
      (.returned (),
        ⟨ucred.decode
          ((msg.content.drop msg.data).take
            msg.dataLength)⟩) := by
  have hRun :=
    Command.run_bind_returned
      (AncillaryMessage.run_checkMsg hMatches s)
      fun _ =>
        receive (msg.content.drop msg.data) msg.dataLength
  exact hRun.trans (run_receive hSize _ s)

end UnixCredentialsMessage

------------------------------------------------------------
-- Round Trips
------------------------------------------------------------

/-
  The iteration over the buffer finds exactly one message,
  and this message is `msg`.
-/
def OnlyMessage
    (buffer : List Byte)
    (msg : ReceiveMessageHeader.ControlMessage) : Prop :=
  msg.content = buffer ∧ visited buffer = [msg.pos]

/-
  Of a buffer with data of a type the single message is
  found, matches and has the data.
-/
theorem AncillaryMessage.Carries.parsed
    {buffer payload : List Byte} {type : UnixMessage}
    {msg : ReceiveMessageHeader.ControlMessage}
    (hCarries :
      Carries buffer .socket type.raw payload)
    (hOnly : OnlyMessage buffer msg) :
    Matches msg type ∧
      msg.dataLength = payload.length ∧
      ∃ padding,
        msg.content.drop msg.data = payload ++ padding := by
  have hData :
      ∃ padding,
        buffer.drop headerSize = payload ++ padding :=
    ⟨_, hCarries.data⟩
  rcases msg with ⟨content, pos⟩
  rcases hOnly with ⟨hContent, hVisited⟩
  rw [hCarries.visited_eq] at hVisited
  injection hVisited with hPos
  subst hContent
  subst hPos
  rcases hCarries.accessors rfl with
    ⟨hLevel, hType, hLength⟩
  refine ⟨⟨hLevel, hType⟩, hLength, ?_⟩
  unfold ReceiveMessageHeader.ControlMessage.data
  simp only [Nat.zero_add]
  exact hData

theorem AncillaryMessage.Carries.onlyMessage
    {buffer payload : List Byte}
    {level : OptLevel} {type : Int32}
    (hCarries : Carries buffer level type payload) :
    ∃ msg, OnlyMessage buffer msg :=
  ⟨⟨buffer, 0⟩, rfl, hCarries.visited_eq⟩

/- What is read from a message with descriptors. -/
theorem UnixRightsMessage.received_eq
    {fds : List FileNum} {padding : List Byte}
    {msg : ReceiveMessageHeader.ControlMessage}
    (hLength :
      msg.dataLength = (fileNums.bytes fds).length)
    (hData :
      msg.content.drop msg.data =
        fileNums.bytes fds ++ padding) :
    received msg = fds := by
  unfold received
  rw [hLength, fileNums.length_bytes]
  exact fileNums.load_eq fds hData fileNums.size_pos

/-
  The buffer holds one message, and from it every object
  whose pending descriptors can be closed gets exactly the
  descriptors.
-/
def UnixRightsMessage.Parses
    (buffer : List Byte) (fds : List FileNum) : Prop :=
  ∃ msg, OnlyMessage buffer msg ∧
    ∀ closed (s : Frame UnixRightsMessage),
      ¬ CloseFails s.this closed →
      ∃ log,
        (deserialize msg closed).run s =
          (.returned (), ⟨⟨fds, true⟩, log⟩)

theorem UnixRightsMessage.parses_serialize
    {this : UnixRightsMessage}
    {sent : SendMessageHeader.ControlMessage}
    (hSome : this.mFds ≠ [])
    (hSerialize : this.serialize = .ok sent) :
    Parses sent.mBuffer this.mFds := by
  have hCarries := carries_serialize hSerialize
  rcases hCarries.onlyMessage with ⟨msg, hOnly⟩
  rcases hCarries.parsed hOnly with
    ⟨hMatches, hLength, padding, hData⟩
  refine ⟨msg, hOnly, ?_⟩
  intro closed s hCloses
  have hRun := run_deserialize hMatches hCloses
  have hHolding :
      holding this.mFds = ⟨this.mFds, true⟩ := by
    simp [holding, hSome]
  rw [received_eq hLength hData, hHolding] at hRun
  exact ⟨_, hRun⟩

/-
  The buffer holds one message, and every object gets the
  credentials from it.
-/
def UnixCredentialsMessage.Parses
    (buffer : List Byte) (creds : UnixCredentials) : Prop :=
  ∃ msg, OnlyMessage buffer msg ∧
    ∀ s : UnixCredentialsMessage,
      (deserialize msg).run s = (.returned (), ⟨creds⟩)

theorem UnixCredentialsMessage.parses_serialize
    (this : UnixCredentialsMessage) :
    ∃ sent,
      this.serialize = .ok sent ∧
        Parses sent.mBuffer this.mCreds := by
  have hSize := ucred.size_encode this.mCreds
  have hMax :
      space (ucred.encode this.mCreds).length ≤
        SendMessageHeader.ControlMessage.maxSize := by
    rw [hSize]
    simp [space, align, headerSize, ucred,
      SendMessageHeader.ControlMessage.maxSize]
  rcases
      (AncillaryMessage.create_ok_iff .socket
        UnixMessage.credentials.raw _).mpr hMax with
    ⟨ret, hCreate⟩
  have hCarries := AncillaryMessage.carries_create hCreate
  rcases hCarries.onlyMessage with ⟨msg, hOnly⟩
  rcases hCarries.parsed hOnly with
    ⟨hMatches, hLength, padding, hData⟩
  refine
    ⟨⟨Buffer.write ret.mBuffer
      SendMessageHeader.ControlMessage.data
      (ucred.encode this.mCreds)⟩, ?_, msg, hOnly, ?_⟩
  · unfold serialize AncillaryMessage.createMsg
    rw [← hSize, hCreate]
    rfl
  · intro s
    have hRun := run_deserialize hMatches
      (hLength.trans hSize) s
    rw [hData, List.take_left' hLength.symm,
      ucred.decode_encode] at hRun
    exact hRun

/-
  Descriptors: a non-empty list is serialized whenever its
  buffer can be made, and parsing gives back this list.
  Credentials: always. Messages of another level or type,
  or with another size where it is fixed, are refused and
  nothing changes.
-/
theorem ancillary_round_trip :
    (∀ this : UnixRightsMessage, this.mFds ≠ [] →
      ((∃ sent, this.serialize = .ok sent) ↔
        space (4 * this.mFds.length) ≤
          SendMessageHeader.ControlMessage.maxSize) ∧
      ∀ sent, this.serialize = .ok sent →
        UnixRightsMessage.Parses sent.mBuffer this.mFds) ∧
    (∀ this : UnixCredentialsMessage,
      ∃ sent,
        this.serialize = .ok sent ∧
          UnixCredentialsMessage.Parses sent.mBuffer
            this.mCreds) ∧
    (∀ msg closed (s : Frame UnixRightsMessage),
      msg.level ≠ .socket ∨
        msg.type ≠ UnixMessage.rights.raw →
      ∃ text,
        (UnixRightsMessage.deserialize msg closed).run s =
          (.raised (.runtimeError text), s)) ∧
    ∀ msg (s : UnixCredentialsMessage),
      msg.level ≠ .socket ∨
        msg.type ≠ UnixMessage.credentials.raw ∨
          msg.dataLength ≠ 12 →
      ∃ text,
        (UnixCredentialsMessage.deserialize msg).run s =
          (.raised (.runtimeError text), s) := by
  refine ⟨?_, ?_, ?_, ?_⟩
  · intro this hSome
    constructor
    · rw [UnixRightsMessage.serialize_ok_iff]
      exact ⟨fun hBoth => hBoth.2, fun hMax => ⟨hSome, hMax⟩⟩
    · intro sent hSerialize
      exact
        UnixRightsMessage.parses_serialize hSome hSerialize
  · exact UnixCredentialsMessage.parses_serialize
  · intro msg closed s hOther
    refine
      ⟨_, UnixRightsMessage.run_deserialize_mismatch ?_ closed
        s⟩
    rintro ⟨hLevel, hType⟩
    rcases hOther with hBad | hBad
    · exact hBad hLevel
    · exact hBad hType
  · intro msg s hOther
    apply UnixCredentialsMessage.run_deserialize_mismatch
    rintro ⟨⟨hLevel, hType⟩, hSize⟩
    rcases hOther with hBad | hBad | hBad
    · exact hBad hLevel
    · exact hBad hType
    · exact hBad hSize

end Cosmos
