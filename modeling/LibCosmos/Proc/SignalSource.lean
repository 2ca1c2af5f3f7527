import LibCosmos.Proc.SignalFD

/-
  Where signals come from, and what both descriptions of a
  signal say about it
  (`src/proc/SigInfo.cxx`, `src/proc/SignalFD.cxx`).

  Main declarations:
    * `SignalOrigin`, `SignalOrigin.Recorded`
    * `SentSignal`, `SentSignal.Attributed`
    * `SentSignal.attributed_iff`
-/

namespace Cosmos

/- `SigInfo::Source::TKILL`. -/
def SigSource.tkill : SigSource := ⟨-6⟩

------------------------------------------------------------
-- Origins
------------------------------------------------------------

/-
  What made the kernel send a signal, with the data that it
  records. `pidfd_send_signal` is like `kill`.
-/
inductive SignalOrigin where
| kill (sender : ProcessCtx)
| tgkill (sender : ProcessCtx)
| sigqueue (sender : ProcessCtx) (data : CustomData)
| timer (id overrun : Int32)
| messageQueue (sender : ProcessCtx) (data : CustomData)
| kernel
deriving DecidableEq, Repr

/- The signals with codes of their own. -/
def Signal.Special (sig : Signal) : Prop :=
  sig ∈
    [Signal.fpe, Signal.bus, Signal.ill, Signal.segv,
      Signal.bus, Signal.trap, Signal.child, Signal.poll,
      Signal.badSys]

namespace SignalOrigin

/-
  The kernel sets the code and the members that belong to
  the origin. The rest of the union can be anything.
-/
def Recorded (si : RawSigInfo) : SignalOrigin → Prop
| kill sender => si.siCode = 0 ∧ si.procCtx = sender
| tgkill sender => si.siCode = -6 ∧ si.procCtx = sender
| sigqueue sender data =>
    si.siCode = -1 ∧ si.procCtx = sender ∧
      si.siValue = data.mVal
| timer id overrun =>
    si.siCode = -2 ∧ si.siTimerid = id ∧
      si.siOverrun = overrun
| messageQueue sender data =>
    si.siCode = -3 ∧ si.procCtx = sender ∧
      si.siValue = data.mVal
| kernel =>
    si.siCode = 0x80 ∨ (si.sigNr.Special ∧ 0 < si.siCode)

def source : SignalOrigin → SigSource
| kill _ => .user
| tgkill _ => .tkill
| sigqueue _ _ => .queue
| timer _ _ => .timer
| messageQueue _ _ => .mesgq
| kernel => .kernel

def userSigData : SignalOrigin → Option UserSigData
| kill sender => some ⟨sender⟩
| _ => none

def queueSigData : SignalOrigin → Option QueueSigData
| sigqueue sender data => some ⟨sender, data⟩
| _ => none

def timerData : SignalOrigin → Option TimerData
| timer id overrun => some ⟨id, overrun⟩
| _ => none

def msgQueueData : SignalOrigin → Option MsgQueueData
| messageQueue sender data => some ⟨sender, data⟩
| _ => none

/- Sent by a process with `kill`. -/
def IsKill : SignalOrigin → Prop
| kill _ => True
| _ => False

end SignalOrigin

/- A signal as the kernel describes it to the receiver. -/
structure SentSignal where
  info : RawSigInfo
  origin : SignalOrigin
  recorded : origin.Recorded info

namespace SentSignal

open Kernel

/- What `SignalFD` reads about the signal. -/
def fdInfo (s : SentSignal) : RawSignalFDInfo :=
  signalfdCopyinfo s.info

/- Both classes tell the origin and its data. -/
structure Attributed (s : SentSignal) : Prop where
  source :
    s.info.source = s.origin.source ∧
      SignalFD.Info.source s.fdInfo = s.origin.source
  user :
    s.info.userSigData = s.origin.userSigData ∧
      SignalFD.Info.userSigData s.fdInfo =
        s.origin.userSigData
  queue :
    s.info.queueSigData = s.origin.queueSigData ∧
      SignalFD.Info.queueSigData s.fdInfo =
        s.origin.queueSigData
  messageQueue :
    s.info.msgQueueData = s.origin.msgQueueData ∧
      SignalFD.Info.msgQueueData s.fdInfo =
        s.origin.msgQueueData
  timer :
    s.info.timerData = s.origin.timerData ∧
      SignalFD.Info.timerData s.fdInfo = s.origin.timerData

------------------------------------------------------------
-- Sources
------------------------------------------------------------

/- A code that is not negative passes for the kernel's. -/
theorem source_of_special
    {si : RawSigInfo} (hSpecial : si.sigNr.Special)
    (hCode : 0 ≤ si.siCode) :
    si.source = .kernel :=
  if_pos ⟨hCode, hSpecial⟩

theorem source_of_code
    {si : RawSigInfo}
    (hPlain : si.siCode < 0 ∨ ¬ si.sigNr.Special) :
    si.source = ⟨si.siCode⟩ := by
  refine if_neg ?_
  rintro ⟨hCode, hSpecial⟩
  rcases hPlain with hNegative | hNot
  · exact
      Int32.lt_irrefl
        (Int32.lt_of_lt_of_le hNegative hCode)
  · exact hNot hSpecial

/- Only signals that `kill` sent are mistaken. -/
theorem source_eq
    {s : SentSignal}
    (hOther : ¬ (s.origin.IsKill ∧ s.info.sigNr.Special)) :
    s.info.source = s.origin.source := by
  rcases s with ⟨si, origin, hRecorded⟩
  cases origin with
  | kill sender =>
      have hPlain : ¬ si.sigNr.Special :=
        fun hSpecial => hOther ⟨trivial, hSpecial⟩
      rw [source_of_code (Or.inr hPlain), hRecorded.1]
      rfl
  | tgkill sender =>
      have hCode := hRecorded.1
      rw [source_of_code (Or.inl (by rw [hCode]; decide)),
        hCode]
      rfl
  | sigqueue sender data =>
      have hCode := hRecorded.1
      rw [source_of_code (Or.inl (by rw [hCode]; decide)),
        hCode]
      rfl
  | timer id overrun =>
      have hCode := hRecorded.1
      rw [source_of_code (Or.inl (by rw [hCode]; decide)),
        hCode]
      rfl
  | messageQueue sender data =>
      have hCode := hRecorded.1
      rw [source_of_code (Or.inl (by rw [hCode]; decide)),
        hCode]
      rfl
  | kernel =>
      by_cases hSpecial : si.sigNr.Special
      · refine source_of_special hSpecial ?_
        rcases hRecorded with hCode | ⟨-, hPositive⟩
        · rw [hCode]
          decide
        · exact Int32.le_of_lt hPositive
      · have hCode : si.siCode = 0x80 :=
          hRecorded.resolve_right fun hOwn => hSpecial hOwn.1
        rw [source_of_code (Or.inr hSpecial), hCode]
        rfl

/- The data follows from the source. -/
theorem data_of_source
    {s : SentSignal}
    (hSource : s.info.source = s.origin.source) :
    s.info.userSigData = s.origin.userSigData ∧
      s.info.queueSigData = s.origin.queueSigData ∧
      s.info.msgQueueData = s.origin.msgQueueData ∧
      s.info.timerData = s.origin.timerData := by
  rcases s with ⟨si, origin, hRecorded⟩
  simp only at hSource ⊢
  unfold RawSigInfo.userSigData RawSigInfo.queueSigData
    RawSigInfo.msgQueueData RawSigInfo.timerData
  rw [hSource]
  cases origin with
  | kill sender =>
      rcases hRecorded with ⟨-, rfl⟩
      exact ⟨rfl, rfl, rfl, rfl⟩
  | tgkill sender => exact ⟨rfl, rfl, rfl, rfl⟩
  | sigqueue sender data =>
      rcases hRecorded with ⟨-, rfl, hValue⟩
      rw [hValue]
      exact ⟨rfl, rfl, rfl, rfl⟩
  | timer id overrun =>
      rcases hRecorded with ⟨-, rfl, rfl⟩
      exact ⟨rfl, rfl, rfl, rfl⟩
  | messageQueue sender data =>
      rcases hRecorded with ⟨-, rfl, hValue⟩
      rw [hValue]
      exact ⟨rfl, rfl, rfl, rfl⟩
  | kernel => exact ⟨rfl, rfl, rfl, rfl⟩

/-
  Every origin is told right, except that the special
  signals seem to come from the kernel when a process sent
  them.
-/
theorem attributed_iff (s : SentSignal) :
    Attributed s ↔
      ¬ (s.origin.IsKill ∧ s.info.sigNr.Special) := by
  constructor
  · rintro hAttributed ⟨hKill, hSpecial⟩
    have hSource := hAttributed.source.1
    rcases s with ⟨si, origin, hRecorded⟩
    cases origin with
    | kill sender =>
        have hCode : 0 ≤ si.siCode := by
          rw [hRecorded.1]
          decide
        have hKernel := source_of_special hSpecial hCode
        have hEqual : SigSource.kernel = SigSource.user :=
          hKernel.symm.trans hSource
        exact absurd hEqual (by decide)
    | _ => exact hKill.elim
  · intro hOther
    have hSource := source_eq hOther
    rcases data_of_source hSource with
      ⟨hUser, hQueue, hMessage, hTimer⟩
    exact
      { source :=
          ⟨hSource,
            (SignalFD.Info.source_copyinfo s.info).trans
              hSource⟩
        user :=
          ⟨hUser,
            (SignalFD.Info.userSigData_copyinfo
              s.info).trans hUser⟩
        queue :=
          ⟨hQueue,
            (SignalFD.Info.queueSigData_copyinfo
              s.info).trans hQueue⟩
        messageQueue :=
          ⟨hMessage,
            (SignalFD.Info.msgQueueData_copyinfo
              s.info).trans hMessage⟩
        timer :=
          ⟨hTimer,
            (SignalFD.Info.timerData_copyinfo
              s.info).trans hTimer⟩ }

/- Process 4711 sends `SIGCHLD` with `kill`. -/
def killChild : SentSignal where
  info :=
    { siSigno := 17
      siErrno := 0
      siCode := 0
      fields := BitVec.ofNat 256 (4711 + 1000 * 2 ^ 32) }
  origin := .kill ⟨4711, 1000⟩
  recorded := ⟨rfl, by decide⟩

/- The kernel seems to be the source, without a sender. -/
theorem not_attributed_killChild :
    ¬ Attributed killChild ∧
      killChild.info.source = .kernel ∧
      SignalFD.Info.source killChild.fdInfo = .kernel ∧
      killChild.info.userSigData = none := by
  have hKernel : killChild.info.source = .kernel := by decide
  refine
    ⟨fun hAttributed => ?_, hKernel, by decide, by decide⟩
  have hSource := hAttributed.source.1
  rw [hKernel] at hSource
  exact absurd hSource (by decide)

end SentSignal

end Cosmos
