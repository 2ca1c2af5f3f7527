import LibCosmos.Proc.WaitStatus
import LibCosmos.Foundation.Numerals

/-
  The wrapper around `ptrace()` and the decoding of event
  stops (`include/proc/ptrace.hxx`, `src/proc/ptrace.cxx`).

  Main declarations:
    * `Ptrace.Request`, `Ptrace.trace`
    * `Signal.isPtraceEventStop`, `Ptrace.decodeEvent`
    * `Ptrace.StopStatus`
    * `Ptrace.decodes_iff`
-/

namespace Cosmos

namespace Signal

/- `SignalNr::MAXIMUM`, which is `_NSIG`. -/
def maximum : Int32 := 65

/- `SignalNr::SYS_TRAP`, which is `SIGTRAP | 0x80`. -/
def sysTrap : Int32 := 133

/- `Signal::isPtraceEventStop`. -/
def isPtraceEventStop (this : Signal) : Bool :=
  maximum < this.mSig

end Signal

namespace Ptrace

------------------------------------------------------------
-- Requests
------------------------------------------------------------

inductive Request where
| traceme
| peekData
| peekText
| peekUser
| pokeData
| pokeUser
| getRegs
| getFpRegs
| getRegSet
| setRegs
| setFpRegs
| setRegSet
| getSigInfo
| setSigInfo
| peekSigInfo
| getSigMask
| setSigMask
| setOptions
| getEventMsg
| cont
| syscall
| singleStep
| sysEmu
| sysEmuSingleStep
| listen
| kill
| interrupt
| attach
| seize
| seccompGetFilter
| detach
| getThreadArea
| setThreadArea
| getSyscallInfo
deriving DecidableEq, Repr

namespace Request

/- `to_label`. -/
def toLabel : Request → String
| traceme => "TRACEME"
| peekData => "PEEKDATA"
| peekText => "PEEKTEXT"
| peekUser => "PEEKUSER"
| pokeData => "POKEDATA"
| pokeUser => "POKEUSER"
| getRegs => "GETREGS"
| getFpRegs => "GETFPREGS"
| getRegSet => "GETREGSET"
| setRegs => "SETREGS"
| setFpRegs => "SETFPREGS"
| setRegSet => "SETREGSET"
| getSigInfo => "GETSIGINFO"
| setSigInfo => "SETSIGINFO"
| peekSigInfo => "PEEKSIGINFO"
| getSigMask => "GETSIGMASK"
| setSigMask => "SETSIGMASK"
| setOptions => "SETOPTIONS"
| getEventMsg => "GETEVENTMSG"
| cont => "CONT"
| syscall => "SYSCALL"
| singleStep => "SINGLESTEP"
| sysEmu => "SYSEMU"
| sysEmuSingleStep => "SYSEMU_SINGLESTEP"
| listen => "LISTEN"
| kill => "KILL"
| interrupt => "INTERRUPT"
| attach => "ATTACH"
| seize => "SEIZE"
| seccompGetFilter => "SECCOMP_GET_FILTER"
| detach => "DETACH"
| getThreadArea => "GET_THREAD_AREA"
| setThreadArea => "SET_THREAD_AREA"
| getSyscallInfo => "GET_SYSCALL_INFO"

def isPeek (req : Request) : Bool :=
  req = .peekData || req = .peekText || req = .peekUser

end Request

/- The text of an error, with the process as an `int`. -/
def errorText (req : Request) (pid : Int32) : Str :=
  str "ptrace(" ++
    (if pid < 0 then [45] else []) ++
    Numerals.digitText 10 false pid.toInt.natAbs ++
    str ", " ++ str req.toLabel ++ str ", ...)"

/-
  `ptrace::trace`. A failed system call returns -1 and sets
  the errno, a good one leaves the errno as it is.
-/
def trace
    (req : Request) (pid : Int32) (errno : Errno)
    (answer : Sys Int) : Except Exn (Option Int) :=
  let errno := if req.isPeek then Errno.noError else errno
  let (ret, errno) :=
    match answer with
    | .ok ret => (ret, errno)
    | .error e => (-1, e)
  if ret = -1 then
    if req.isPeek ∧ errno = .noError then .ok (some ret)
    else .error (.apiError errno (errorText req pid))
  else if
    req.isPeek ∨ req = .seccompGetFilter ∨
      req = .getSyscallInfo
  then .ok (some ret)
  else .ok none

/- The requests that hand back a value. -/
def Request.HasValue (req : Request) : Prop :=
  req.isPeek = true ∨ req = .seccompGetFilter ∨
    req = .getSyscallInfo

/- A peeked word can be -1, other results cannot. -/
theorem trace_ok
    {req : Request} (pid : Int32) (errno : Errno) {ret : Int}
    (hReal : req.isPeek = true ∨ ret ≠ -1) :
    (req.HasValue →
      trace req pid errno (.ok ret) = .ok (some ret)) ∧
      (¬ req.HasValue →
        trace req pid errno (.ok ret) = .ok none) := by
  unfold trace Request.HasValue
  simp only []
  by_cases hPeek : req.isPeek = true
  · refine ⟨fun _ => ?_, fun hNot => ?_⟩
    · by_cases hMinus : ret = -1
      · rw [if_pos hMinus, if_pos ⟨hPeek, by simp [hPeek]⟩]
      · rw [if_neg hMinus, if_pos (Or.inl hPeek)]
    · exact absurd (Or.inl hPeek) hNot
  · have hOther : ret ≠ -1 := hReal.resolve_left hPeek
    rw [if_neg hOther]
    exact ⟨fun hValue => if_pos hValue,
      fun hNot => if_neg hNot⟩

/- A failed system call is reported with its errno. -/
theorem trace_error
    (req : Request) (pid : Int32) (errno : Errno) {e : Errno}
    (hError : e ≠ .noError) :
    trace req pid errno (.error e) =
      .error (.apiError e (errorText req pid)) := by
  unfold trace
  simp only [if_true]
  rw [if_neg fun hPeek => hError hPeek.2]

------------------------------------------------------------
-- Event Stops
------------------------------------------------------------

/- `ptrace::Event`, an enumeration of numbers. -/
structure Event where
  raw : Int32
deriving DecidableEq, Repr

/- `ptrace::decode_event`. -/
def decodeEvent (sig : Signal) :
    Except Exn (Int32 × Event) :=
  if !sig.isPtraceEventStop then
    .error
      (.usageError
        (str "this is not a ptrace-event-stop signal"))
  else
    let raw := sig.mSig
    let event : Event := ⟨raw >>> 8⟩
    let signr := raw &&& 0xff
    .ok (signr, event)

/-
  What the kernel reports when a tracee stops: a signal, or
  the number for system calls, and an event or 0.
-/
structure StopStatus where
  signal : Nat
  event : Nat
  signal_valid :
    (1 ≤ signal ∧ signal ≤ 64) ∨ signal = 133
  event_fits : event < 2 ^ 23

namespace StopStatus

/- Both share one `int`. -/
def encode (status : StopStatus) : Signal where
  mSig :=
    Int32.ofNat status.signal |||
      Int32.ofNat status.event <<< 8

theorem toNat_encode (status : StopStatus) :
    status.encode.mSig.toBitVec.toNat =
      status.signal + 256 * status.event := by
  have hFits := status.event_fits
  have hSmall : status.signal < 2 ^ 8 := by
    rcases status.signal_valid with hReal | hTrap
    · omega
    · omega
  have hOr :=
    Nat.shiftLeft_add_eq_or_of_lt hSmall status.event
  have hShift :
      status.event <<< 8 = 256 * status.event := by
    rw [Nat.shiftLeft_eq]
    omega
  have hBits :
      status.encode.mSig.toBitVec.toNat =
        (status.signal ||| status.event <<< 8) := by
    change
      (BitVec.ofNat 32 status.signal |||
        BitVec.ofNat 32 status.event <<< 8).toNat = _
    rw [BitVec.toNat_or, BitVec.toNat_shiftLeft,
      BitVec.toNat_ofNat, BitVec.toNat_ofNat,
      Nat.mod_eq_of_lt (by omega),
      Nat.mod_eq_of_lt (by omega),
      Nat.mod_eq_of_lt (by omega)]
  rw [hBits, Nat.or_comm, ← hOr, hShift]
  omega

theorem toInt_encode (status : StopStatus) :
    status.encode.mSig.toInt =
      status.signal + 256 * status.event := by
  have hFits := status.event_fits
  have hNat := status.toNat_encode
  have hSmall : status.signal < 2 ^ 8 := by
    rcases status.signal_valid with hReal | hTrap
    · omega
    · omega
  change status.encode.mSig.toBitVec.toInt = _
  rw [BitVec.toInt_eq_toNat_of_lt (by omega), hNat]
  omega

/- The two parts are where `decode_event` looks for them. -/
theorem parts_encode (status : StopStatus) :
    status.encode.mSig &&& 0xff =
        Int32.ofNat status.signal ∧
      status.encode.mSig >>> 8 =
        Int32.ofNat status.event := by
  have hFits := status.event_fits
  have hNat := status.toNat_encode
  have hSmall : status.signal < 2 ^ 8 := by
    rcases status.signal_valid with hReal | hTrap
    · omega
    · omega
  have hPositive : status.encode.mSig.toBitVec.msb = false := by
    rw [BitVec.msb_eq_false_iff_two_mul_lt, hNat]
    omega
  constructor
  · rw [← Int32.toBitVec_inj, ← BitVec.toNat_inj]
    change
      (status.encode.mSig.toBitVec &&& 255#32).toNat =
        (BitVec.ofNat 32 status.signal).toNat
    have hMask : (255#32).toNat = 2 ^ 8 - 1 := rfl
    rw [BitVec.toNat_and, hNat, hMask,
      Nat.and_two_pow_sub_one_eq_mod, BitVec.toNat_ofNat]
    omega
  · rw [← Int32.toBitVec_inj, ← BitVec.toNat_inj]
    change
      (status.encode.mSig.toBitVec.sshiftRight 8).toNat =
        (BitVec.ofNat 32 status.event).toNat
    rw [BitVec.toNat_sshiftRight_of_msb_false hPositive, hNat,
      Nat.shiftRight_eq_div_pow, BitVec.toNat_ofNat]
    omega

end StopStatus

/-
  Event stops are told from other stops, and decoding and
  encoding are inverse to each other.
-/
structure Decodes (status : StopStatus) : Prop where
  event :
    status.encode.isPtraceEventStop = true ↔
      status.event ≠ 0
  decoded :
    status.encode.isPtraceEventStop = true →
      decodeEvent status.encode =
        .ok
          (Int32.ofNat status.signal,
            ⟨Int32.ofNat status.event⟩)
  encoded :
    ∀ signr event,
      decodeEvent status.encode = .ok (signr, event) →
      signr ||| event.raw <<< 8 = status.encode.mSig

/- Anything above the largest signal is an event stop. -/
theorem isPtraceEventStop_encode (status : StopStatus) :
    status.encode.isPtraceEventStop = true ↔
      65 < status.signal + 256 * status.event := by
  have hInt := status.toInt_encode
  have hMaximum : Signal.maximum.toInt = 65 := by decide
  unfold Signal.isPtraceEventStop
  rw [decide_eq_true_eq, Int32.lt_iff_toInt_lt, hInt,
    hMaximum]
  omega

/- All stops but those at system calls are told right. -/
theorem decodes_iff (status : StopStatus) :
    Decodes status ↔
      ¬ (status.signal = 133 ∧ status.event = 0) := by
  have hStop := isPtraceEventStop_encode status
  have hValid := status.signal_valid
  rcases status.parts_encode with ⟨hSignal, hEvent⟩
  constructor
  · rintro hDecodes ⟨hTrap, hNone⟩
    have hReported :
        status.encode.isPtraceEventStop = true :=
      hStop.mpr (by omega)
    exact hDecodes.event.mp hReported hNone
  · intro hOther
    have hDecoded :
        status.encode.isPtraceEventStop = true →
          decodeEvent status.encode =
            .ok
              (Int32.ofNat status.signal,
                ⟨Int32.ofNat status.event⟩) := by
      intro hReported
      unfold decodeEvent
      simp only [hReported, hSignal, hEvent]
      rfl
    refine
      { event := ?_
        decoded := hDecoded
        encoded := ?_ }
    · rw [hStop]
      omega
    · intro signr event hResult
      have hReported :
          status.encode.isPtraceEventStop = true := by
        refine Classical.byContradiction fun hNot => ?_
        unfold decodeEvent at hResult
        rw [if_pos (by simpa using hNot)] at hResult
        cases hResult
      rw [hDecoded hReported] at hResult
      cases hResult
      rfl

/- A stop at a system call is reported as an event stop. -/
theorem not_decodes_sysTrap :
    ¬ (∀ status, Decodes status) ∧
      Signal.isPtraceEventStop ⟨Signal.sysTrap⟩ = true ∧
      decodeEvent ⟨Signal.sysTrap⟩ =
        .ok (Signal.sysTrap, ⟨0⟩) := by
  refine ⟨fun hAll => ?_, by decide, rfl⟩
  have hDecodes :=
    hAll ⟨133, 0, Or.inr rfl, by decide⟩
  have hReported :
      (StopStatus.encode
        ⟨133, 0, Or.inr rfl, by decide⟩).isPtraceEventStop =
        true := by
    decide
  exact hDecodes.event.mp hReported rfl

end Ptrace

end Cosmos
