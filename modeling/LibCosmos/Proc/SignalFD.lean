import LibCosmos.Proc.WaitStatus

/-
  The two descriptions of a received signal: `siginfo_t`
  with `SigInfo` (`src/proc/SigInfo.cxx`), and
  `signalfd_siginfo` with `SignalFD::Info`
  (`src/proc/SignalFD.cxx`, `include/proc/SignalFD.hxx`).

  Most of a `siginfo_t` is a union, here a bit vector of
  which every accessor reads its part. `signalfd` copies the
  members of one layout of the union, which depends on the
  signal and its code, and leaves the others 0.

  Main declarations:
    * `RawSigInfo`, `RawSigInfo.toSigInfo`
    * `Kernel.siginfoLayout`, `Kernel.signalfdCopyinfo`
    * `RawSigInfo.Generated`
    * `SignalFD.Info.agrees`
-/

namespace Cosmos

------------------------------------------------------------
-- Signals and Codes
------------------------------------------------------------

namespace Signal

def ill : Signal := ⟨4⟩
def trap : Signal := ⟨5⟩
def bus : Signal := ⟨7⟩
def fpe : Signal := ⟨8⟩
def segv : Signal := ⟨11⟩
def child : Signal := ⟨17⟩
def ioEvent : Signal := ⟨29⟩
def poll : Signal := ioEvent
def badSys : Signal := ⟨31⟩

end Signal

/- `SigInfo::Source`, an `enum class : int`. -/
structure SigSource where
  raw : Int32
deriving DecidableEq, Repr

namespace SigSource

def user : SigSource := ⟨0⟩
def kernel : SigSource := ⟨0x80⟩
def queue : SigSource := ⟨-1⟩
def timer : SigSource := ⟨-2⟩
def mesgq : SigSource := ⟨-3⟩
def sigio : SigSource := ⟨-5⟩

end SigSource

/- `union sigval`; the integer is in the lower half. -/
structure CustomData where
  mVal : BitVec 64
deriving DecidableEq, Repr

namespace CustomData

def asInt (data : CustomData) : Int32 :=
  .ofBitVec (data.mVal.setWidth 32)

def asPtr (data : CustomData) : UInt64 :=
  .ofBitVec data.mVal

end CustomData

structure UserSigData where
  sender : ProcessCtx
deriving DecidableEq, Repr

structure QueueSigData where
  sender : ProcessCtx
  data : CustomData
deriving DecidableEq, Repr

structure MsgQueueData where
  msgSender : ProcessCtx
  data : CustomData
deriving DecidableEq, Repr

structure TimerData where
  id : Int32
  overrun : Int32
deriving DecidableEq, Repr

structure SysData where
  reason : Int32
  callAddr : UInt64
  callNr : Int32
  arch : UInt32
  error : Errno
deriving DecidableEq, Repr

structure PollData where
  reason : Int32
  fd : FileNum
  events : Int16
deriving DecidableEq, Repr

/-
  `source` of both classes: signals with codes of their own
  come from the kernel, if the code can be trusted.
-/
def sourceOf (sigNr : Signal) (code : Int32) : SigSource :=
  let isTrustedSource := code ≥ 0
  if isTrustedSource ∧
      sigNr ∈
        [Signal.fpe, Signal.bus, Signal.ill, Signal.segv,
          Signal.bus, Signal.trap, Signal.child, Signal.poll,
          Signal.badSys] then
    .kernel
  else
    ⟨code⟩

------------------------------------------------------------
-- SigInfo
------------------------------------------------------------

/- A `siginfo_t`; nothing reads more of the union. -/
structure RawSigInfo where
  siSigno : Int32
  siErrno : Int32
  siCode : Int32
  fields : BitVec 256
deriving DecidableEq, Repr

namespace RawSigInfo

variable (si : RawSigInfo)

def siPid : Int32 := .ofBitVec (si.fields.extractLsb' 0 32)
def siUid : UInt32 := .ofBitVec (si.fields.extractLsb' 32 32)
def siTimerid : Int32 :=
  .ofBitVec (si.fields.extractLsb' 0 32)
def siOverrun : Int32 :=
  .ofBitVec (si.fields.extractLsb' 32 32)
def siValue : BitVec 64 := si.fields.extractLsb' 64 64
def siStatus : Int32 :=
  .ofBitVec (si.fields.extractLsb' 64 32)
def siUtime : Int64 :=
  .ofBitVec (si.fields.extractLsb' 128 64)
def siStime : Int64 :=
  .ofBitVec (si.fields.extractLsb' 192 64)
def siBand : BitVec 64 := si.fields.extractLsb' 0 64
def siFd : Int32 := .ofBitVec (si.fields.extractLsb' 64 32)
def siCallAddr : UInt64 :=
  .ofBitVec (si.fields.extractLsb' 0 64)
def siSyscall : Int32 :=
  .ofBitVec (si.fields.extractLsb' 64 32)
def siArch : UInt32 :=
  .ofBitVec (si.fields.extractLsb' 96 32)

def sigNr : Signal := ⟨si.siSigno⟩

def source : SigSource := sourceOf si.sigNr si.siCode

def error : Errno := ⟨si.siErrno⟩

def procCtx : ProcessCtx := ⟨si.siPid, si.siUid⟩

def userSigData : Option UserSigData :=
  if si.source = .user then some ⟨si.procCtx⟩ else none

def queueSigData : Option QueueSigData :=
  if si.source = .queue then
    some ⟨si.procCtx, ⟨si.siValue⟩⟩
  else
    none

def msgQueueData : Option MsgQueueData :=
  if si.source = .mesgq then
    some ⟨si.procCtx, ⟨si.siValue⟩⟩
  else
    none

def timerData : Option TimerData :=
  if si.source = .timer then
    some ⟨si.siTimerid, si.siOverrun⟩
  else
    none

/- The members that are there for `SIGCHLD`. -/
def toSigInfo : SigInfo where
  siSigno := si.siSigno
  siErrno := si.siErrno
  siCode := si.siCode
  siPid := si.siPid
  siUid := si.siUid
  siStatus := si.siStatus
  siUtime := si.siUtime
  siStime := si.siStime

def childData : Option ChildData :=
  si.toSigInfo.childData

def sysData : Option SysData :=
  if si.sigNr = .badSys then
    some
      { reason := si.siCode
        callAddr := si.siCallAddr
        callNr := si.siSyscall
        arch := si.siArch
        error := si.error }
  else
    none

def pollData : Option PollData :=
  if si.sigNr = .ioEvent ∨ si.sigNr = .poll then
    some
      { reason := si.siCode
        fd := ⟨si.siFd⟩
        events := .ofBitVec (si.siBand.setWidth 16) }
  else
    none

end RawSigInfo

------------------------------------------------------------
-- SignalFD::Info
------------------------------------------------------------

/-
  A `signalfd_siginfo` without the members for faults, which
  cannot be received this way.
-/
structure RawSignalFDInfo where
  ssiSigno : UInt32 := 0
  ssiErrno : Int32 := 0
  ssiCode : Int32 := 0
  ssiPid : UInt32 := 0
  ssiUid : UInt32 := 0
  ssiFd : Int32 := 0
  ssiTid : UInt32 := 0
  ssiBand : UInt32 := 0
  ssiOverrun : UInt32 := 0
  ssiStatus : Int32 := 0
  ssiInt : Int32 := 0
  ssiPtr : UInt64 := 0
  ssiUtime : UInt64 := 0
  ssiStime : UInt64 := 0
  ssiSyscall : Int32 := 0
  ssiCallAddr : UInt64 := 0
  ssiArch : UInt32 := 0
deriving DecidableEq, Repr

namespace SignalFD.Info

variable (info : RawSignalFDInfo)

def sigNr : Signal := ⟨info.ssiSigno.toInt32⟩

def source : SigSource :=
  sourceOf (sigNr info) info.ssiCode

def error : Errno := ⟨info.ssiErrno⟩

def procCtx : ProcessCtx :=
  ⟨info.ssiPid.toInt32, info.ssiUid⟩

def userSigData : Option UserSigData :=
  if source info = .user then some ⟨procCtx info⟩ else none

def queueSigData : Option QueueSigData :=
  if source info = .queue then
    some ⟨procCtx info, ⟨info.ssiPtr.toBitVec⟩⟩
  else
    none

def msgQueueData : Option MsgQueueData :=
  if source info = .mesgq then
    some ⟨procCtx info, ⟨info.ssiPtr.toBitVec⟩⟩
  else
    none

def timerData : Option TimerData :=
  if source info = .timer then
    some ⟨info.ssiTid.toInt32, info.ssiOverrun.toInt32⟩
  else
    none

def sysData : Option SysData :=
  if sigNr info = .badSys then
    some
      { reason := info.ssiCode
        callAddr := info.ssiCallAddr
        callNr := info.ssiSyscall
        arch := info.ssiArch
        error := error info }
  else
    none

def childData : Option ChildData :=
  if sigNr info = .child then
    let event : ChildState.Event := ⟨info.ssiCode⟩
    some
      { event := event
        child := procCtx info
        status :=
          if event = .exited then some ⟨info.ssiStatus⟩
          else none
        signal :=
          if event = .exited then none
          else some ⟨info.ssiStatus⟩
        userTime := some info.ssiUtime.toInt64
        systemTime := some info.ssiStime.toInt64 }
  else
    none

def pollData : Option PollData :=
  if sigNr info = .ioEvent ∨ sigNr info = .poll then
    some
      { reason := info.ssiCode
        fd := ⟨info.ssiFd⟩
        events := .ofBitVec (info.ssiBand.toBitVec.setWidth 16) }
  else
    none

end SignalFD.Info

------------------------------------------------------------
-- The Conversion of the Kernel
------------------------------------------------------------

namespace Kernel

/- Which members of the union a record has. -/
inductive Layout where
| kill
| timer
| poll
| fault
| chld
| rt
| sys
deriving DecidableEq, Repr

/- The largest code of a signal and what it comes with. -/
def sicodes (sig : Signal) : Option (Int32 × Layout) :=
  if sig = .ill then some (11, .fault)
  else if sig = .fpe then some (15, .fault)
  else if sig = .segv then some (10, .fault)
  else if sig = .bus then some (5, .fault)
  else if sig = .trap then some (6, .fault)
  else if sig = .child then some (6, .chld)
  else if sig = .poll then some (6, .poll)
  else if sig = .badSys then some (2, .sys)
  else none

/- `siginfo_layout`; other signals may be used for polls. -/
def siginfoLayout (sig : Signal) (code : Int32) : Layout :=
  if 0 < code ∧ code < 0x80 then
    match sicodes sig with
    | some (limit, layout) =>
        if code ≤ limit then layout
        else if code ≤ 6 then .poll
        else .kill
    | none => if code ≤ 6 then .poll else .kill
  else if code = -2 then .timer
  else if code = -5 then .poll
  else if code < 0 then .rt
  else .kill

/- What `signalfd` returns for a record. -/
def signalfdCopyinfo (si : RawSigInfo) : RawSignalFDInfo :=
  let new : RawSignalFDInfo :=
    { ssiSigno := si.siSigno.toUInt32
      ssiErrno := si.siErrno
      ssiCode := si.siCode }
  match siginfoLayout si.sigNr si.siCode with
  | .kill =>
      { new with
        ssiPid := si.siPid.toUInt32
        ssiUid := si.siUid }
  | .timer =>
      { new with
        ssiTid := si.siTimerid.toUInt32
        ssiOverrun := si.siOverrun.toUInt32
        ssiPtr := .ofBitVec si.siValue
        ssiInt := .ofBitVec (si.siValue.setWidth 32) }
  | .poll =>
      { new with
        ssiBand := .ofBitVec (si.siBand.setWidth 32)
        ssiFd := si.siFd }
  | .fault => new
  | .chld =>
      { new with
        ssiPid := si.siPid.toUInt32
        ssiUid := si.siUid
        ssiStatus := si.siStatus
        ssiUtime := si.siUtime.toUInt64
        ssiStime := si.siStime.toUInt64 }
  | .rt =>
      { new with
        ssiPid := si.siPid.toUInt32
        ssiUid := si.siUid
        ssiPtr := .ofBitVec si.siValue
        ssiInt := .ofBitVec (si.siValue.setWidth 32) }
  | .sys =>
      { new with
        ssiCallAddr := si.siCallAddr
        ssiSyscall := si.siSyscall
        ssiArch := si.siArch }

end Kernel

/-
  A record that the kernel made up itself: with a code of
  the signal, or with `SI_KERNEL` and nothing else.
-/
def RawSigInfo.Generated (si : RawSigInfo) : Prop :=
  (∃ limit layout,
    Kernel.sicodes si.sigNr = some (limit, layout) ∧
      0 < si.siCode ∧ si.siCode ≤ limit) ∨
    (si.siCode = SigSource.kernel.raw ∧ si.fields = 0)

------------------------------------------------------------
-- Agreement
------------------------------------------------------------

namespace SignalFD.Info

variable (si : RawSigInfo)

open Kernel

/- The layout does not matter to what all records have. -/
theorem copyinfo_header :
    (signalfdCopyinfo si).ssiSigno = si.siSigno.toUInt32 ∧
      (signalfdCopyinfo si).ssiErrno = si.siErrno ∧
      (signalfdCopyinfo si).ssiCode = si.siCode := by
  unfold signalfdCopyinfo
  cases siginfoLayout si.sigNr si.siCode <;>
    exact ⟨rfl, rfl, rfl⟩

theorem sigNr_copyinfo :
    sigNr (signalfdCopyinfo si) = si.sigNr := by
  unfold sigNr RawSigInfo.sigNr
  rw [(copyinfo_header si).1, Int32.toInt32_toUInt32]

theorem source_copyinfo :
    source (signalfdCopyinfo si) = si.source := by
  unfold source RawSigInfo.source
  rw [sigNr_copyinfo, (copyinfo_header si).2.2]

/- Any source but the kernel is what the code says. -/
theorem code_of_source
    {source : SigSource}
    (hSource : si.source = source)
    (hOther : source ≠ .kernel) :
    si.siCode = source.raw := by
  unfold RawSigInfo.source sourceOf at hSource
  dsimp only at hSource
  split at hSource
  · exact absurd hSource.symm hOther
  · rw [← hSource]

/- Records of `kill` and `sigqueue` have a sender. -/
theorem procCtx_copyinfo
    (hLayout :
      siginfoLayout si.sigNr si.siCode = .kill ∨
        siginfoLayout si.sigNr si.siCode = .chld ∨
        siginfoLayout si.sigNr si.siCode = .rt) :
    procCtx (signalfdCopyinfo si) = si.procCtx := by
  unfold procCtx RawSigInfo.procCtx signalfdCopyinfo
  rcases hLayout with hLayout | hLayout | hLayout <;>
    simp [hLayout]

theorem userSigData_copyinfo :
    userSigData (signalfdCopyinfo si) = si.userSigData := by
  unfold userSigData RawSigInfo.userSigData
  rw [source_copyinfo]
  by_cases hUser : si.source = .user
  · have hCode := code_of_source si hUser (by decide)
    have hLayout :
        siginfoLayout si.sigNr si.siCode = .kill := by
      rw [hCode]
      rfl
    rw [procCtx_copyinfo si (Or.inl hLayout)]
  · rw [if_neg hUser, if_neg hUser]

/- Queued signals have a value. -/
theorem value_copyinfo
    (hLayout : siginfoLayout si.sigNr si.siCode = .rt) :
    procCtx (signalfdCopyinfo si) = si.procCtx ∧
      (signalfdCopyinfo si).ssiPtr.toBitVec =
        si.siValue := by
  refine ⟨procCtx_copyinfo si (Or.inr (Or.inr hLayout)), ?_⟩
  unfold signalfdCopyinfo
  simp [hLayout]

theorem queueSigData_copyinfo :
    queueSigData (signalfdCopyinfo si) =
      si.queueSigData := by
  unfold queueSigData RawSigInfo.queueSigData
  rw [source_copyinfo]
  by_cases hQueue : si.source = .queue
  · have hCode := code_of_source si hQueue (by decide)
    have hLayout :
        siginfoLayout si.sigNr si.siCode = .rt := by
      rw [hCode]
      rfl
    rcases value_copyinfo si hLayout with ⟨hSender, hValue⟩
    rw [hSender, hValue]
  · rw [if_neg hQueue, if_neg hQueue]

theorem msgQueueData_copyinfo :
    msgQueueData (signalfdCopyinfo si) =
      si.msgQueueData := by
  unfold msgQueueData RawSigInfo.msgQueueData
  rw [source_copyinfo]
  by_cases hMesgq : si.source = .mesgq
  · have hCode := code_of_source si hMesgq (by decide)
    have hLayout :
        siginfoLayout si.sigNr si.siCode = .rt := by
      rw [hCode]
      rfl
    rcases value_copyinfo si hLayout with ⟨hSender, hValue⟩
    rw [hSender, hValue]
  · rw [if_neg hMesgq, if_neg hMesgq]

theorem timerData_copyinfo :
    timerData (signalfdCopyinfo si) = si.timerData := by
  unfold timerData RawSigInfo.timerData
  rw [source_copyinfo]
  by_cases hTimer : si.source = .timer
  · have hCode := code_of_source si hTimer (by decide)
    have hLayout :
        siginfoLayout si.sigNr si.siCode = .timer := by
      rw [hCode]
      rfl
    unfold signalfdCopyinfo
    simp [hLayout]
  · rw [if_neg hTimer, if_neg hTimer]

/-
  A generated record has the layout of its signal, or all
  members of the union are 0.
-/
theorem layout_of_generated
    (hGenerated : si.Generated)
    {limit : Int32} {layout : Layout}
    (hCodes : sicodes si.sigNr = some (limit, layout))
    (hLimit : limit < 0x80) :
    siginfoLayout si.sigNr si.siCode = layout ∨
      (siginfoLayout si.sigNr si.siCode = .kill ∧
        si.fields = 0) := by
  rcases hGenerated with
    ⟨limit', layout', hCodes', hPos, hCode⟩ | ⟨hCode, hZero⟩
  · rw [hCodes] at hCodes'
    cases hCodes'
    refine Or.inl ?_
    unfold siginfoLayout
    have hRange : 0 < si.siCode ∧ si.siCode < 0x80 :=
      ⟨hPos, Int32.lt_of_le_of_lt hCode hLimit⟩
    rw [if_pos hRange]
    simp only [hCodes, if_pos hCode]
  · refine Or.inr ⟨?_, hZero⟩
    rw [hCode]
    rfl

theorem members_of_zero (hZero : si.fields = 0) :
    si.siStatus = 0 ∧ si.siUtime = 0 ∧ si.siStime = 0 ∧
      si.siBand = 0 ∧ si.siFd = 0 ∧ si.siCallAddr = 0 ∧
      si.siSyscall = 0 ∧ si.siArch = 0 := by
  unfold RawSigInfo.siStatus RawSigInfo.siUtime
    RawSigInfo.siStime RawSigInfo.siBand RawSigInfo.siFd
    RawSigInfo.siCallAddr RawSigInfo.siSyscall
    RawSigInfo.siArch
  rw [hZero]
  decide

theorem childData_copyinfo
    (hErrno : si.sigNr = .child → si.siErrno = 0)
    (hGenerated : si.Generated) :
    childData (signalfdCopyinfo si) = si.childData := by
  unfold childData RawSigInfo.childData SigInfo.childData
  rw [sigNr_copyinfo, (copyinfo_header si).2.2]
  by_cases hChild : si.sigNr = .child
  · have hSigno : si.toSigInfo.siSigno = SigInfo.sigchld :=
      congrArg Signal.mSig hChild
    have hCodes :
        sicodes si.sigNr = some (6, .chld) := by
      rw [hChild]
      rfl
    have hLayout :=
      layout_of_generated si hGenerated hCodes (by decide)
    have hNoError :
        ¬ SigInfo.error si.toSigInfo = Errno.invalidArg := by
      show ¬ (⟨si.siErrno⟩ : Errno) = Errno.invalidArg
      rw [hErrno hChild]
      decide
    have hSender :
        procCtx (signalfdCopyinfo si) = si.procCtx := by
      rcases hLayout with hLayout | ⟨hLayout, -⟩
      · exact
          procCtx_copyinfo si (Or.inr (Or.inl hLayout))
      · exact procCtx_copyinfo si (Or.inl hLayout)
    have hMembers :
        (signalfdCopyinfo si).ssiStatus = si.siStatus ∧
          (signalfdCopyinfo si).ssiUtime.toInt64 =
            si.siUtime ∧
          (signalfdCopyinfo si).ssiStime.toInt64 =
            si.siStime := by
      unfold signalfdCopyinfo
      rcases hLayout with hLayout | ⟨hLayout, hZero⟩
      · simp [hLayout]
      · rcases members_of_zero si hZero with
          ⟨hStatus, hUtime, hStime, -⟩
        rw [hStatus, hUtime, hStime]
        simp [hLayout]
    rcases hMembers with ⟨hStatus, hUtime, hStime⟩
    rw [if_pos hChild, if_pos hSigno, hSender, hStatus,
      hUtime, hStime]
    simp only [hNoError, decide_false, Bool.false_eq_true,
      if_false]
    rfl
  · have hSigno : ¬ si.toSigInfo.siSigno = SigInfo.sigchld :=
      fun hSame => hChild (congrArg Signal.mk hSame)
    rw [if_neg hChild, if_neg hSigno]

theorem pollData_copyinfo (hGenerated : si.Generated) :
    pollData (signalfdCopyinfo si) = si.pollData := by
  unfold pollData RawSigInfo.pollData
  rw [sigNr_copyinfo, (copyinfo_header si).2.2]
  by_cases hPoll : si.sigNr = .ioEvent ∨ si.sigNr = .poll
  · have hCodes :
        sicodes si.sigNr = some (6, .poll) := by
      rcases hPoll with hPoll | hPoll <;> rw [hPoll] <;> rfl
    have hMembers :
        (signalfdCopyinfo si).ssiFd = si.siFd ∧
          (signalfdCopyinfo si).ssiBand.toBitVec.setWidth
              16 =
            si.siBand.setWidth 16 := by
      unfold signalfdCopyinfo
      rcases
          layout_of_generated si hGenerated hCodes
            (by decide) with
        hLayout | ⟨hLayout, hZero⟩
      · simp [hLayout]
      · rcases members_of_zero si hZero with
          ⟨-, -, -, hBand, hFd, -⟩
        rw [hBand, hFd]
        simp [hLayout]
    rw [if_pos hPoll, if_pos hPoll, hMembers.1, hMembers.2]
  · rw [if_neg hPoll, if_neg hPoll]

theorem sysData_copyinfo (hGenerated : si.Generated) :
    sysData (signalfdCopyinfo si) = si.sysData := by
  unfold sysData RawSigInfo.sysData error RawSigInfo.error
  rcases copyinfo_header si with ⟨-, hErrno, hCode⟩
  rw [sigNr_copyinfo, hErrno, hCode]
  by_cases hSys : si.sigNr = .badSys
  · have hCodes :
        sicodes si.sigNr = some (2, .sys) := by
      rw [hSys]
      rfl
    have hMembers :
        (signalfdCopyinfo si).ssiCallAddr =
            si.siCallAddr ∧
          (signalfdCopyinfo si).ssiSyscall =
            si.siSyscall ∧
          (signalfdCopyinfo si).ssiArch = si.siArch := by
      unfold signalfdCopyinfo
      rcases
          layout_of_generated si hGenerated hCodes
            (by decide) with
        hLayout | ⟨hLayout, hZero⟩
      · simp [hLayout]
      · rcases members_of_zero si hZero with
          ⟨-, -, -, -, -, hAddr, hCall, hArch⟩
        rw [hAddr, hCall, hArch]
        simp [hLayout]
    rcases hMembers with ⟨hAddr, hCall, hArch⟩
    rw [if_pos hSys, if_pos hSys, hAddr, hCall, hArch]
  · rw [if_neg hSys, if_neg hSys]

/- No data on both sides for all other signals. -/
theorem data_of_other :
    (si.sigNr ≠ .child →
        childData (signalfdCopyinfo si) = none ∧
          si.childData = none) ∧
      (si.sigNr ≠ .poll →
        pollData (signalfdCopyinfo si) = none ∧
          si.pollData = none) ∧
      (si.sigNr ≠ .badSys →
        sysData (signalfdCopyinfo si) = none ∧
          si.sysData = none) := by
  refine ⟨?_, ?_, ?_⟩
  · intro hOther
    unfold childData RawSigInfo.childData SigInfo.childData
    have hSigno : ¬ si.toSigInfo.siSigno = SigInfo.sigchld :=
      fun hSame => hOther (congrArg Signal.mk hSame)
    rw [sigNr_copyinfo, if_neg hOther, if_neg hSigno]
    exact ⟨rfl, rfl⟩
  · intro hOther
    have hNeither :
        ¬ (si.sigNr = .ioEvent ∨ si.sigNr = .poll) :=
      fun hPoll => hPoll.elim hOther hOther
    unfold pollData RawSigInfo.pollData
    rw [sigNr_copyinfo, if_neg hNeither, if_neg hNeither]
    exact ⟨rfl, rfl⟩
  · intro hOther
    unfold sysData RawSigInfo.sysData
    rw [sigNr_copyinfo, if_neg hOther, if_neg hOther]
    exact ⟨rfl, rfl⟩

/-
  The two classes say the same about every record, and about
  data of single signals if the kernel made up the record.
-/
theorem agrees
    (hErrno : si.siErrno = 0 ∨ si.sigNr = .badSys) :
    (source (signalfdCopyinfo si) = si.source ∧
        sigNr (signalfdCopyinfo si) = si.sigNr ∧
        userSigData (signalfdCopyinfo si) =
          si.userSigData ∧
        queueSigData (signalfdCopyinfo si) =
          si.queueSigData ∧
        msgQueueData (signalfdCopyinfo si) =
          si.msgQueueData ∧
        timerData (signalfdCopyinfo si) = si.timerData) ∧
      (si.Generated →
        childData (signalfdCopyinfo si) = si.childData ∧
          pollData (signalfdCopyinfo si) = si.pollData ∧
          sysData (signalfdCopyinfo si) = si.sysData) ∧
      (si.sigNr ≠ .child →
        childData (signalfdCopyinfo si) = none ∧
          si.childData = none) ∧
      (si.sigNr ≠ .poll →
        pollData (signalfdCopyinfo si) = none ∧
          si.pollData = none) ∧
      (si.sigNr ≠ .badSys →
        sysData (signalfdCopyinfo si) = none ∧
          si.sysData = none) := by
  have hChildErrno : si.sigNr = .child → si.siErrno = 0 := by
    intro hChild
    refine hErrno.resolve_right ?_
    rw [hChild]
    decide
  refine
    ⟨⟨source_copyinfo si, sigNr_copyinfo si,
      userSigData_copyinfo si, queueSigData_copyinfo si,
      msgQueueData_copyinfo si, timerData_copyinfo si⟩, ?_,
      data_of_other si⟩
  intro hGenerated
  exact
    ⟨childData_copyinfo si hChildErrno hGenerated,
      pollData_copyinfo si hGenerated,
      sysData_copyinfo si hGenerated⟩

/- A child that was killed by signal 9. -/
def killedChild : RawSigInfo where
  siSigno := 17
  siErrno := 0
  siCode := 2
  fields :=
    BitVec.ofNat 256 (4711 + 1000 * 2 ^ 32 + 9 * 2 ^ 64)

theorem agrees_killedChild :
    killedChild.Generated ∧
      childData (signalfdCopyinfo killedChild) =
        killedChild.childData ∧
      killedChild.childData =
        some
          { event := .killed
            child := ⟨4711, 1000⟩
            status := none
            signal := some ⟨9⟩
            userTime := some 0
            systemTime := some 0 } := by
  have hGenerated : killedChild.Generated :=
    Or.inl ⟨6, .chld, rfl, by decide, by decide⟩
  exact
    ⟨hGenerated,
      ((agrees killedChild (Or.inl rfl)).2.1 hGenerated).1,
      by decide⟩

end SignalFD.Info

end Cosmos
