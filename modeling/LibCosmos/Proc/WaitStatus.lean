import LibCosmos.FS.FileDescriptor

/-
  The state of a child as `waitid()` reports it and as the
  status word of `waitpid()` encodes it
  (`src/proc/process.cxx`, `include/proc/process.hxx`,
  `src/proc/SigInfo.cxx`).

  Main declarations:
    * `SigInfo`, `SigInfo.childData`, `Proc.wait`
    * `WaitStatus`, `WaitStatus.ofState` and the accessors
    * `ChildEvent.word`, `ChildReport.info`
    * `WaitStatus.views_agree`
-/

namespace Cosmos

------------------------------------------------------------
-- The State of a Child
------------------------------------------------------------

/- A `Signal` with its raw number. -/
structure Signal where
  mSig : Int32
deriving DecidableEq, Repr

/- `ChildState::Event`, an `enum class : int`. -/
structure ChildState.Event where
  raw : Int32
deriving DecidableEq, Repr

namespace ChildState.Event

def exited : Event := ⟨1⟩
def killed : Event := ⟨2⟩
def dumped : Event := ⟨3⟩
def trapped : Event := ⟨4⟩
def stopped : Event := ⟨5⟩
def continued : Event := ⟨6⟩

end ChildState.Event

/- `ProcessCtx`: a PID and its real user ID. -/
structure ProcessCtx where
  pid : Int32
  uid : UInt32
deriving DecidableEq, Repr

/- `ChildState`. -/
structure ChildState where
  event : ChildState.Event
  child : ProcessCtx
  status : Option ExitStatus
  signal : Option Signal
deriving DecidableEq, Repr

namespace ChildState

variable (state : ChildState)

def isExited : Bool := state.event = .exited
def isKilled : Bool := state.event = .killed
def isDumped : Bool := state.event = .dumped
def isTrapped : Bool := state.event = .trapped
def isStopped : Bool := state.event = .stopped
def isContinued : Bool := state.event = .continued

end ChildState

------------------------------------------------------------
-- Results of waitid()
------------------------------------------------------------

/- A `siginfo_t`, as far as it is used for `SIGCHLD`. -/
structure SigInfo where
  siSigno : Int32
  siErrno : Int32
  siCode : Int32
  siPid : Int32
  siUid : UInt32
  siStatus : Int32
  siUtime : Int64
  siStime : Int64
deriving DecidableEq, Repr

/- `SigInfo::ChildData`, with times in clock ticks. -/
structure ChildData extends ChildState where
  userTime : Option Int64
  systemTime : Option Int64
deriving DecidableEq, Repr

namespace SigInfo

/- `signal::CHILD`. -/
def sigchld : Int32 := 17

variable (si : SigInfo)

def error : Errno := ⟨si.siErrno⟩

def procCtx : ProcessCtx := ⟨si.siPid, si.siUid⟩

/-
  `SigInfo::childData`. The errno is how `proc::wait` tells
  that there are no times.
-/
def childData : Option ChildData :=
  if si.siSigno = sigchld then
    let event : ChildState.Event := ⟨si.siCode⟩
    let isWaitidRes : Bool := si.error = .invalidArg
    some
      { event := event
        child := si.procCtx
        status :=
          if event = .exited then some ⟨si.siStatus⟩ else none
        signal :=
          if event = .exited then none else some ⟨si.siStatus⟩
        userTime :=
          if isWaitidRes then none else some si.siUtime
        systemTime :=
          if isWaitidRes then none else some si.siStime }
  else none

end SigInfo

/-
  `proc::wait`. The answer holds what `waitid()` left in the
  structure; a PID of 0 in it means that nothing happened.
-/
def Proc.wait {σ : Type} (noHang : Bool) (answer : Sys SigInfo) :
    Method σ (Option ChildState) := do
  let si ← check "wait()" answer
  if noHang ∧ si.siPid = 0 then
    pure none
  else
    let si := { si with siErrno := Errno.invalidArg.raw }
    pure (si.childData.map fun data => data.toChildState)

------------------------------------------------------------
-- Status Words
------------------------------------------------------------

/- `WaitStatus`. -/
structure WaitStatus where
  mStatus : BitVec 32
deriving DecidableEq, Repr

namespace WaitStatus

/- The macros of `sys/wait.h`. -/
def wExitCode (ret sig : BitVec 32) : BitVec 32 :=
  (ret <<< 8) ||| sig

def wStopCode (sig : BitVec 32) : BitVec 32 :=
  (sig <<< 8) ||| 0x7f

def wContinued : BitVec 32 := 0xffff
def wCoreFlag : BitVec 32 := 0x80

def wTermSig (status : BitVec 32) : BitVec 32 :=
  status &&& 0x7f

def wExitStatus (status : BitVec 32) : BitVec 32 :=
  (status &&& 0xff00) >>> 8

def wStopSig (status : BitVec 32) : BitVec 32 :=
  wExitStatus status

def wIfExited (status : BitVec 32) : Bool :=
  wTermSig status == 0

/- `((signed char) ((status & 0x7f) + 1) >> 1) > 0`. -/
def wIfSignaled (status : BitVec 32) : Bool :=
  let char : BitVec 8 := (wTermSig status + 1).setWidth 8
  (0 : BitVec 8).slt (char.sshiftRight 1)

def wIfStopped (status : BitVec 32) : Bool :=
  status &&& 0xff == 0x7f

def wIfContinued (status : BitVec 32) : Bool :=
  status == wContinued

def wCoreDump (status : BitVec 32) : Bool :=
  status &&& wCoreFlag != 0

/- The value of a signal that is there. -/
def signalBits (state : ChildState) : BitVec 32 :=
  match state.signal with
  | some sig => sig.mSig.toBitVec
  | none => 0

def statusBits (state : ChildState) : BitVec 32 :=
  match state.status with
  | some status => status.raw.toBitVec
  | none => 0

/- `WaitStatus::WaitStatus(const ChildState &)`. -/
def ofState (state : ChildState) : WaitStatus :=
  if state.isDumped then
    ⟨0 ||| signalBits state ||| wCoreFlag⟩
  else if state.isStopped || state.isTrapped then
    ⟨wStopCode (signalBits state)⟩
  else if state.isContinued then
    ⟨wContinued⟩
  else if state.isKilled then
    ⟨0 ||| signalBits state⟩
  else if state.isExited then
    ⟨wExitCode (statusBits state) 0⟩
  else
    ⟨0⟩

variable (this : WaitStatus)

def exited : Bool := wIfExited this.mStatus

def signaled : Bool := wIfSignaled this.mStatus

def dumped : Bool :=
  this.signaled && wCoreDump this.mStatus

def stopped : Bool := wIfStopped this.mStatus

def continued : Bool := wIfContinued this.mStatus

def status : Option ExitStatus :=
  if !this.exited then none
  else some ⟨Int32.ofBitVec (wExitStatus this.mStatus)⟩

def termSig : Option Signal :=
  if !this.signaled then none
  else some ⟨Int32.ofBitVec (wTermSig this.mStatus)⟩

def stopSig : Option Signal :=
  if !this.stopped then none
  else some ⟨Int32.ofBitVec (wStopSig this.mStatus)⟩

end WaitStatus

------------------------------------------------------------
-- What the Kernel Reports
------------------------------------------------------------

/- A signal number of the kernel. -/
structure KernelSignal where
  number : Nat
  positive : 0 < number
  small : number ≤ 64

def KernelSignal.bits (sig : KernelSignal) : BitVec 32 :=
  BitVec.ofNat 32 sig.number

/- What can happen to a child. -/
inductive ChildEvent where
| exited (code : UInt8)
| killed (sig : KernelSignal) (core : Bool)
| stopped (sig : KernelSignal) (traced : Bool)
| syscallStop
| eventStop (sig : KernelSignal) (event : UInt8)
| continued

namespace ChildEvent

/-
  The code of a stop: the signal, in a stop at a system call
  `SIGTRAP` with another bit, and at other events of a
  traced child the event above the signal.
-/
def stopCode : ChildEvent → BitVec 32
| .stopped sig _ => sig.bits
| .syscallStop => 5 ||| 0x80
| .eventStop sig event =>
    sig.bits ||| BitVec.ofNat 32 event.toNat <<< 8
| _ => 0

/- The status word that `waitpid()` stores. -/
def word : ChildEvent → BitVec 32
| .exited code => BitVec.ofNat 32 code.toNat <<< 8
| .killed sig core =>
    sig.bits ||| (if core then 0x80 else 0)
| .continued => 0xffff
| stop => stop.stopCode <<< 8 ||| 0x7f

/- What `waitid()` stores in `si_code`. -/
def siCode : ChildEvent → ChildState.Event
| .exited _ => .exited
| .killed _ core => if core then .dumped else .killed
| .stopped _ traced => if traced then .trapped else .stopped
| .syscallStop => .trapped
| .eventStop _ _ => .trapped
| .continued => .continued

/- What it stores in `si_status`; 18 is `SIGCONT`. -/
def siStatus : ChildEvent → BitVec 32
| .exited code => BitVec.ofNat 32 code.toNat
| .killed sig _ => sig.bits
| .continued => 18
| stop => stop.stopCode

end ChildEvent

/- An event of a child as `waitid()` reports it. -/
structure ChildReport where
  event : ChildEvent
  pid : Int32
  uid : UInt32
  utime : Int64
  stime : Int64
  pid_ne_zero : pid ≠ 0

/- The structure that is filled in. -/
def ChildReport.info (report : ChildReport) : SigInfo where
  siSigno := SigInfo.sigchld
  siErrno := 0
  siCode := report.event.siCode.raw
  siPid := report.pid
  siUid := report.uid
  siStatus := Int32.ofBitVec report.event.siStatus
  siUtime := report.utime
  siStime := report.stime

/- The state that `proc::wait` makes of it. -/
def ChildReport.state (report : ChildReport) : ChildState where
  event := report.event.siCode
  child := ⟨report.pid, report.uid⟩
  status :=
    if report.event.siCode = .exited then
      some ⟨Int32.ofBitVec report.event.siStatus⟩
    else none
  signal :=
    if report.event.siCode = .exited then none
    else some ⟨Int32.ofBitVec report.event.siStatus⟩

theorem run_wait {σ : Type}
    (report : ChildReport) (noHang : Bool) (s : σ) :
    (Proc.wait noHang (.ok report.info)).run s =
      (.returned (some report.state), s) := by
  have hPid := report.pid_ne_zero
  simp [Proc.wait, Command.run_bind, SigInfo.childData,
    SigInfo.procCtx, ChildReport.info, ChildReport.state,
    hPid]

namespace WaitStatus

------------------------------------------------------------
-- One Word
------------------------------------------------------------

/-
  The branches of the constructor, by the event. A stop and
  a trap are treated alike.
-/
theorem ofState_exited
    {state : ChildState} (hEvent : state.event = .exited) :
    ofState state = ⟨wExitCode (statusBits state) 0⟩ := by
  simp [ofState, ChildState.isDumped, ChildState.isStopped,
    ChildState.isTrapped, ChildState.isContinued,
    ChildState.isKilled, ChildState.isExited,
    ChildState.Event.exited, ChildState.Event.dumped,
    ChildState.Event.stopped, ChildState.Event.trapped,
    ChildState.Event.continued, ChildState.Event.killed,
    hEvent]

theorem ofState_killed
    {state : ChildState} (hEvent : state.event = .killed) :
    ofState state = ⟨signalBits state⟩ := by
  simp [ofState, ChildState.isDumped, ChildState.isStopped,
    ChildState.isTrapped, ChildState.isContinued,
    ChildState.isKilled, ChildState.Event.dumped,
    ChildState.Event.stopped, ChildState.Event.trapped,
    ChildState.Event.continued, ChildState.Event.killed,
    hEvent]

theorem ofState_dumped
    {state : ChildState} (hEvent : state.event = .dumped) :
    ofState state = ⟨signalBits state ||| wCoreFlag⟩ := by
  simp [ofState, ChildState.isDumped, hEvent]

theorem ofState_stopped
    {state : ChildState}
    (hEvent :
      state.event = .stopped ∨ state.event = .trapped) :
    ofState state = ⟨wStopCode (signalBits state)⟩ := by
  rcases hEvent with hStopped | hTrapped
  · simp [ofState, ChildState.isDumped,
      ChildState.isStopped, ChildState.Event.dumped,
      ChildState.Event.stopped, hStopped]
  · simp [ofState, ChildState.isDumped,
      ChildState.isTrapped, ChildState.Event.dumped,
      ChildState.Event.trapped, hTrapped]

theorem ofState_continued
    {state : ChildState}
    (hEvent : state.event = .continued) :
    ofState state = ⟨wContinued⟩ := by
  simp [ofState, ChildState.isDumped, ChildState.isStopped,
    ChildState.isTrapped, ChildState.isContinued,
    ChildState.Event.dumped, ChildState.Event.stopped,
    ChildState.Event.trapped, ChildState.Event.continued,
    hEvent]

/- What the signal is when the child did not exit. -/
theorem signalBits_state
    {report : ChildReport}
    (hOther : report.event.siCode ≠ .exited) :
    signalBits report.state = report.event.siStatus := by
  simp [signalBits, ChildReport.state, hOther]

theorem statusBits_state
    {report : ChildReport}
    (hExited : report.event.siCode = .exited) :
    statusBits report.state = report.event.siStatus := by
  simp [statusBits, ChildReport.state, hExited]

/- A stop of any kind. -/
theorem ofState_stop
    {report : ChildReport}
    (hCode :
      report.event.siCode = .stopped ∨
        report.event.siCode = .trapped) :
    ofState report.state =
      ⟨report.event.siStatus <<< 8 ||| 0x7f⟩ := by
  have hOther : report.event.siCode ≠ .exited := by
    rcases hCode with hStopped | hTrapped
    · rw [hStopped]
      decide
    · rw [hTrapped]
      decide
  rw [ofState_stopped hCode, signalBits_state hOther,
    wStopCode]

/- The constructor gives back the word of `waitpid()`. -/
theorem ofState_state (report : ChildReport) :
    ofState report.state = ⟨report.event.word⟩ := by
  have hCode :
      report.state.event = report.event.siCode := rfl
  cases hEvent : report.event with
  | exited code =>
      have hExited : report.event.siCode = .exited := by
        simp [hEvent, ChildEvent.siCode]
      rw [ofState_exited (hCode.trans hExited),
        statusBits_state hExited, hEvent]
      simp [wExitCode, ChildEvent.siStatus, ChildEvent.word]
  | killed sig core =>
      have hOther : report.event.siCode ≠ .exited := by
        rw [hEvent]
        cases core <;> simp [ChildEvent.siCode] <;> decide
      cases core with
      | true =>
          have hDumped : report.event.siCode = .dumped := by
            simp [hEvent, ChildEvent.siCode]
          rw [ofState_dumped (hCode.trans hDumped),
            signalBits_state hOther, hEvent]
          simp [ChildEvent.siStatus, ChildEvent.word,
            wCoreFlag]
      | false =>
          have hKilled : report.event.siCode = .killed := by
            simp [hEvent, ChildEvent.siCode]
          rw [ofState_killed (hCode.trans hKilled),
            signalBits_state hOther, hEvent]
          simp [ChildEvent.siStatus, ChildEvent.word]
  | stopped sig traced =>
      rw [ofState_stop, hEvent]
      · simp [ChildEvent.siStatus, ChildEvent.word]
      · rw [hEvent]
        cases traced <;> simp [ChildEvent.siCode]
  | syscallStop =>
      rw [ofState_stop, hEvent]
      · simp [ChildEvent.siStatus, ChildEvent.word]
      · simp [hEvent, ChildEvent.siCode]
  | eventStop sig event =>
      rw [ofState_stop, hEvent]
      · simp [ChildEvent.siStatus, ChildEvent.word]
      · simp [hEvent, ChildEvent.siCode]
  | continued =>
      have hContinued :
          report.event.siCode = .continued := by
        simp [hEvent, ChildEvent.siCode]
      rw [ofState_continued (hCode.trans hContinued)]
      simp [wContinued, ChildEvent.word]

------------------------------------------------------------
-- The Kinds of Words
------------------------------------------------------------

theorem toNat_wTermSig (status : BitVec 32) :
    (wTermSig status).toNat = status.toNat % 128 := by
  unfold wTermSig
  rw [BitVec.toNat_and]
  exact Nat.and_two_pow_sub_one_eq_mod status.toNat 7

theorem toNat_low_byte (status : BitVec 32) :
    (status &&& 0xff).toNat = status.toNat % 256 := by
  rw [BitVec.toNat_and]
  exact Nat.and_two_pow_sub_one_eq_mod status.toNat 8

theorem wIfExited_iff (status : BitVec 32) :
    wIfExited status = true ↔ status.toNat % 128 = 0 := by
  rw [← toNat_wTermSig]
  simp [wIfExited, ← BitVec.toNat_inj]

theorem wIfStopped_iff (status : BitVec 32) :
    wIfStopped status = true ↔
      status.toNat % 256 = 127 := by
  rw [← toNat_low_byte]
  simp [wIfStopped, ← BitVec.toNat_inj]

theorem wIfContinued_iff (status : BitVec 32) :
    wIfContinued status = true ↔ status.toNat = 65535 := by
  simp [wIfContinued, wContinued, ← BitVec.toNat_inj]

/- The sum overflows the `signed char` only for 0x7f. -/
theorem wIfSignaled_iff (status : BitVec 32) :
    wIfSignaled status = true ↔
      status.toNat % 128 ≠ 0 ∧ status.toNat % 128 ≠ 127 := by
  rw [← toNat_wTermSig]
  have hBound : (wTermSig status).toNat < 128 := by
    rw [toNat_wTermSig]
    omega
  have hAll :
      ∀ n < 128,
        (0 : BitVec 8).slt
            (((BitVec.ofNat 32 n + 1).setWidth 8).sshiftRight
              1) = true ↔
          n ≠ 0 ∧ n ≠ 127 := by
    decide
  have hThis := hAll (wTermSig status).toNat hBound
  rw [BitVec.ofNat_toNat, BitVec.setWidth_eq] at hThis
  exact hThis

------------------------------------------------------------
-- The Words of Children
------------------------------------------------------------

theorem toNat_bits (sig : KernelSignal) :
    sig.bits.toNat = sig.number := by
  have hSmall := sig.small
  unfold KernelSignal.bits
  rw [BitVec.toNat_ofNat]
  omega

theorem toNat_code (code : UInt8) :
    (BitVec.ofNat 32 code.toNat).toNat = code.toNat := by
  have hSmall := code.toNat_lt
  rw [BitVec.toNat_ofNat]
  omega

theorem toNat_shifted
    {code : BitVec 32} (hSmall : code.toNat < 2 ^ 24) :
    (code <<< 8).toNat = code.toNat * 256 := by
  rw [BitVec.toNat_shiftLeft, Nat.shiftLeft_eq]
  omega

/- The word of a stop ends in a full low byte. -/
theorem toNat_stop
    {code : BitVec 32} (hSmall : code.toNat < 2 ^ 24) :
    (code <<< 8 ||| 0x7f).toNat =
      code.toNat * 256 + 127 := by
  have hShift := toNat_shifted hSmall
  rw [BitVec.toNat_or, hShift]
  have hOr :=
    Nat.shiftLeft_add_eq_or_of_lt
      (show 127 < 2 ^ 8 by decide) code.toNat
  rw [Nat.shiftLeft_eq] at hOr
  exact hOr.symm

theorem stopCode_small (event : ChildEvent) :
    event.stopCode.toNat < 2 ^ 24 := by
  cases event with
  | stopped sig traced =>
      have hSmall := sig.small
      simp only [ChildEvent.stopCode, toNat_bits]
      omega
  | eventStop sig event =>
      have hSmall := sig.small
      have hEvent := event.toNat_lt
      have hCode := toNat_code event
      simp only [ChildEvent.stopCode, BitVec.toNat_or]
      apply Nat.or_lt_two_pow
      · rw [toNat_bits]
        omega
      · rw [toNat_shifted (by omega)]
        omega
  | _ => simp [ChildEvent.stopCode]

/- Whether a child exited, was killed, stopped, went on. -/
def kinds (this : WaitStatus) : List Bool :=
  [this.exited, this.signaled, this.stopped, this.continued]

theorem kinds_eq (status : BitVec 32) :
    kinds ⟨status⟩ =
      [decide (status.toNat % 128 = 0),
        decide (status.toNat % 128 ≠ 0 ∧
          status.toNat % 128 ≠ 127),
        decide (status.toNat % 256 = 127),
        decide (status.toNat = 65535)] := by
  have hExited :
      wIfExited status = decide (status.toNat % 128 = 0) := by
    rw [Bool.eq_iff_iff, wIfExited_iff, decide_eq_true_iff]
  have hSignaled :
      wIfSignaled status =
        decide (status.toNat % 128 ≠ 0 ∧
          status.toNat % 128 ≠ 127) := by
    rw [Bool.eq_iff_iff, wIfSignaled_iff, decide_eq_true_iff]
  have hStopped :
      wIfStopped status =
        decide (status.toNat % 256 = 127) := by
    rw [Bool.eq_iff_iff, wIfStopped_iff, decide_eq_true_iff]
  have hContinued :
      wIfContinued status = decide (status.toNat = 65535) := by
    rw [Bool.eq_iff_iff, wIfContinued_iff,
      decide_eq_true_iff]
  simp only [kinds, exited, signaled, stopped, continued,
    hExited, hSignaled, hStopped, hContinued]

theorem kinds_stop
    {code : BitVec 32} (hSmall : code.toNat < 2 ^ 24) :
    kinds ⟨code <<< 8 ||| 0x7f⟩ =
      [false, false, true, false] := by
  have hValue := toNat_stop hSmall
  have hLow : (code.toNat * 256 + 127) % 128 = 127 := by
    omega
  have hByte : (code.toNat * 256 + 127) % 256 = 127 := by
    omega
  have hOther : code.toNat * 256 + 127 ≠ 65535 := by
    omega
  rw [kinds_eq, hValue]
  simp [hLow, hByte, hOther]

/- The kind of a word is that of its event. -/
theorem kinds_word (event : ChildEvent) :
    kinds ⟨event.word⟩ =
      match event with
      | .exited _ => [true, false, false, false]
      | .killed _ _ => [false, true, false, false]
      | .continued => [false, false, false, true]
      | _ => [false, false, true, false] := by
  cases event with
  | exited code =>
      have hCode := toNat_code code
      have hSmall := code.toNat_lt
      have hValue :
          (BitVec.ofNat 32 code.toNat <<< 8).toNat =
            (BitVec.ofNat 32 code.toNat).toNat * 256 :=
        toNat_shifted (by omega)
      have hLow : code.toNat * 256 % 128 = 0 := by omega
      have hByte : code.toNat * 256 % 256 = 0 := by omega
      have hOther : code.toNat * 256 ≠ 65535 := by omega
      rw [hCode] at hValue
      simp only [ChildEvent.word]
      rw [kinds_eq, hValue]
      simp [hLow, hByte, hOther]
  | killed sig core =>
      have hPositive := sig.positive
      have hSmall := sig.small
      have hAll :
          ∀ n ≤ 64, ∀ core : Bool, 0 < n →
            kinds ⟨BitVec.ofNat 32 n |||
                (if core then 0x80 else 0)⟩ =
              [false, true, false, false] := by
        decide
      exact hAll sig.number hSmall core hPositive
  | stopped sig traced =>
      exact kinds_stop (stopCode_small (.stopped sig traced))
  | syscallStop =>
      exact kinds_stop (stopCode_small .syscallStop)
  | eventStop sig event =>
      exact kinds_stop (stopCode_small (.eventStop sig event))
  | continued => decide

/- Exactly one of the four holds. -/
theorem count_kinds (event : ChildEvent) :
    (kinds ⟨event.word⟩).count true = 1 := by
  rw [kinds_word]
  cases event <;> simp

------------------------------------------------------------
-- Both Views
------------------------------------------------------------

/-
  Whatever happens to a child, the result of `waitid()`
  turned into a status and the word of `waitpid()` are the
  same status, on which every accessor agrees and exactly
  one of the four kinds holds.
-/
theorem views_agree {σ : Type}
    (report : ChildReport) (noHang : Bool) (s : σ) :
    ∃ state,
      (Proc.wait noHang (.ok report.info)).run s =
        (.returned (some state), s) ∧
      ofState state = ⟨report.event.word⟩ ∧
      (ofState state).exited =
        exited ⟨report.event.word⟩ ∧
      (ofState state).signaled =
        signaled ⟨report.event.word⟩ ∧
      (ofState state).dumped =
        dumped ⟨report.event.word⟩ ∧
      (ofState state).stopped =
        stopped ⟨report.event.word⟩ ∧
      (ofState state).continued =
        continued ⟨report.event.word⟩ ∧
      (ofState state).status =
        status ⟨report.event.word⟩ ∧
      (ofState state).termSig =
        termSig ⟨report.event.word⟩ ∧
      (ofState state).stopSig =
        stopSig ⟨report.event.word⟩ ∧
      (kinds (ofState state)).count true = 1 := by
  refine ⟨report.state, run_wait report noHang s, ?_⟩
  rw [ofState_state]
  simp only [count_kinds, and_self]

end WaitStatus

end Cosmos
