import LibCosmos.Core.BitMask
import LibCosmos.Foundation.Buffer
import LibCosmos.Foundation.Shared
import LibCosmos.IO.EventFile
import LibCosmos.IO.StreamRead

/-
  The counter of an `EventFile` between any number of
  threads and processes (`src/io/EventFile.cxx`,
  `src/io/StreamIO.cxx`).

  A call is in the `while (true)` of `StreamIO::read` or
  `StreamIO::write`. The kernel answers a system call that
  does not block at once; one that blocks is answered when
  it can be served or when a signal comes.

  Main declarations:
    * `EventFile.Call`, `EventFile.react`, the code
    * `EventFile.Serve`, the kernel
    * `EventFile.attempted`, what an attempt comes to
    * `EventFile.signals_conserved`
-/

namespace Cosmos

------------------------------------------------------------
-- System Calls on a Shared Descriptor
------------------------------------------------------------

namespace StreamIO

inductive Request where
| read (length : UInt64)
| write (data : List Byte)
deriving DecidableEq, Repr

/- The result and what is in the buffer of a `read`. -/
structure Answer where
  result : Sys UInt64
  data : List Byte
deriving DecidableEq, Repr

/- One round of the `while (true)` around a system call. -/
def attempt
    (autoRestart : Bool) (operation : String) :
    Sys UInt64 → Option (Except Exn UInt64)
| .ok bytes => some (.ok bytes)
| .error e =>
    match handleIOError autoRestart operation e with
    | .ok () => none
    | .error ex => some (.error ex)

theorem attempt_error
    (autoRestart : Bool) (operation : String) (e : Errno) :
    attempt autoRestart operation (.error e) =
      if autoRestart && e == .interrupted then none
      else some (.error (.apiError e (str operation))) := by
  unfold attempt handleIOError
  by_cases hIf : (autoRestart && e == .interrupted) = true
  · simp only [hIf, if_true]
  · simp only [hIf, Bool.false_eq_true, if_false]

/- An error that is never restarted is thrown. -/
theorem attempt_other
    {autoRestart : Bool} {operation : String} {e : Errno}
    (hOther : e ≠ .interrupted) :
    attempt autoRestart operation (.error e) =
      some (.error (.apiError e (str operation))) := by
  rw [attempt_error, if_neg]
  simp [hOther]

/-
  The number of 8 bytes that a `read` put into a `uint64_t`,
  for wrappers that do not expect fewer bytes.
-/
def readNumber
    (shortMsg : String) (data : List Byte) :
    Except Exn UInt64 → Except Exn UInt64
| .ok bytes =>
    if bytes ≠ 8 then
      .error (.runtimeError (str shortMsg))
    else .ok (UInt64.ofNat (Buffer.leValue data))
| .error ex => .error ex

theorem ofNat_leValue_leBytes (n : UInt64) :
    UInt64.ofNat
        (Buffer.leValue (Buffer.leBytes 8 n.toNat)) = n := by
  rw [Buffer.leValue_leBytes_of_lt n.toNat_lt,
    UInt64.ofNat_toNat]

end StreamIO

namespace EventFile

open StreamIO

------------------------------------------------------------
-- The Code
------------------------------------------------------------

inductive Call where
| wait
| signal (increment : UInt64)
deriving DecidableEq, Repr

/- What a call returned or threw. -/
inductive Result where
| waited (ret : UInt64)
| signalled
| thrown (ex : Exn)
deriving DecidableEq, Repr

/- The system call, with the bytes of the `Counter`. -/
def request : Call → Request
| .wait => .read counterSize
| .signal increment =>
    .write (Buffer.leBytes 8 increment.toNat)

/- `EventFile::wait` after `StreamIO::read` ended. -/
def waitResult
    (data : List Byte) (res : Except Exn UInt64) : Result :=
  match readNumber "short eventfd read?!" data res with
  | .ok ret => .waited ret
  | .error ex => .thrown ex

/- `EventFile::signal` after `StreamIO::write` ended. -/
def signalResult : Except Exn UInt64 → Result
| .ok bytes =>
    if bytes ≠ counterSize then
      .thrown (.runtimeError (str "short eventfd write?!"))
    else .signalled
| .error ex => .thrown ex

def react (autoRestart : Bool) :
    Call → Answer → Option Result
| .wait, a =>
    (attempt autoRestart "read()" a.result).map
      (waitResult a.data)
| .signal _, a =>
    (attempt autoRestart "write()" a.result).map
      signalResult

/-
  The counter after `EventFile::EventFile`: the parameter of
  `eventfd()` is an `unsigned int`.
-/
def created (initval : UInt64) : UInt64 :=
  initval.toUInt32.toUInt64

------------------------------------------------------------
-- The Kernel
------------------------------------------------------------

abbrev Flags : Type := BitMask 32

namespace Flags

/- `EFD_SEMAPHORE` and `EFD_NONBLOCK`. -/
def semaphore (flags : Flags) : Bool := flags.testAny 1
def nonblock (flags : Flags) : Bool := flags.testAny 0x800

end Flags

/- The largest value of a counter, and one more. -/
def limit : UInt64 := 0xfffffffffffffffe
def invalid : UInt64 := 0xffffffffffffffff

/- What a `read` takes from a counter that is not zero. -/
def taken (flags : Flags) (count : UInt64) : UInt64 :=
  if flags.semaphore then 1 else count

/-
  The answers to the system calls. A call that would block
  is answered at once in the non-blocking mode and else only
  when a signal interrupts it.
-/
inductive Serve (flags : Flags) :
    UInt64 → Request → Answer → UInt64 → Prop
| take {count length : UInt64}
    (hRoom : 8 ≤ length.toNat) (hSome : count ≠ 0) :
    Serve flags count (.read length)
      ⟨.ok 8, Buffer.leBytes 8 (taken flags count).toNat⟩
      (count - taken flags count)
| empty {length : UInt64}
    (hRoom : 8 ≤ length.toNat) (hMode : flags.nonblock) :
    Serve flags 0 (.read length) ⟨.error .again, []⟩ 0
| awaken {length : UInt64}
    (hRoom : 8 ≤ length.toNat) (hMode : ¬ flags.nonblock) :
    Serve flags 0 (.read length) ⟨.error .interrupted, []⟩ 0
| narrow {count length : UInt64}
    (hRoom : length.toNat < 8) :
    Serve flags count (.read length)
      ⟨.error .invalidArg, []⟩ count
| add {count increment : UInt64} {data : List Byte}
    (hRoom : 8 ≤ data.length)
    (hData :
      increment =
        UInt64.ofNat (Buffer.leValue (data.take 8)))
    (hFits : count.toNat + increment.toNat ≤ limit.toNat) :
    Serve flags count (.write data) ⟨.ok 8, []⟩
      (count + increment)
| reject {count : UInt64} {data : List Byte}
    (hBad :
      data.length < 8 ∨
        UInt64.ofNat (Buffer.leValue (data.take 8)) =
          invalid) :
    Serve flags count (.write data)
      ⟨.error .invalidArg, []⟩ count
| full {count increment : UInt64} {data : List Byte}
    (hRoom : 8 ≤ data.length)
    (hData :
      increment =
        UInt64.ofNat (Buffer.leValue (data.take 8)))
    (hValid : increment ≠ invalid)
    (hFull : limit.toNat < count.toNat + increment.toNat)
    (hMode : flags.nonblock) :
    Serve flags count (.write data)
      ⟨.error .again, []⟩ count
| disturb {count increment : UInt64} {data : List Byte}
    (hRoom : 8 ≤ data.length)
    (hData :
      increment =
        UInt64.ofNat (Buffer.leValue (data.take 8)))
    (hValid : increment ≠ invalid)
    (hFull : limit.toNat < count.toNat + increment.toNat)
    (hMode : ¬ flags.nonblock) :
    Serve flags count (.write data)
      ⟨.error .interrupted, []⟩ count

/- Nothing happens to a counter by itself. -/
def object (autoRestart : Bool) (flags : Flags) :
    Shared.Object UInt64 Call Answer Result Empty where
  answers count c a count' :=
    Serve flags count (request c) a count'
  react := react autoRestart
  happens _ e _ := e.elim

------------------------------------------------------------
-- One Attempt
------------------------------------------------------------

/-
  What can be made of an attempt: the call is made again,
  throws and leaves the counter alone, takes from the
  counter or adds to it.
-/
inductive Attempted (autoRestart : Bool) (flags : Flags)
    (count : UInt64) :
    Call → UInt64 → Option Result → Prop
| again (c : Call)
    (hMode : ¬ flags.nonblock) (hRestart : autoRestart) :
    Attempted autoRestart flags count c count none
| blocked (c : Call) {operation : String}
    (hMode : flags.nonblock) :
    Attempted autoRestart flags count c count
      (some (.thrown (.apiError .again (str operation))))
| interrupted (c : Call) {operation : String}
    (hMode : ¬ flags.nonblock)
    (hRestart : autoRestart = false) :
    Attempted autoRestart flags count c count
      (some
        (.thrown (.apiError .interrupted (str operation))))
| rejected :
    Attempted autoRestart flags count (.signal invalid)
      count
      (some (.thrown (.apiError .invalidArg (str "write()"))))
| waited (hSome : count ≠ 0) :
    Attempted autoRestart flags count .wait
      (count - taken flags count)
      (some (.waited (taken flags count)))
| signalled {increment : UInt64}
    (hFits : count.toNat + increment.toNat ≤ limit.toNat) :
    Attempted autoRestart flags count (.signal increment)
      (count + increment) (some .signalled)

variable {autoRestart : Bool} {flags : Flags}

theorem attempted_interrupted
    {count : UInt64} (c : Call)
    {operation : String} {f : Except Exn UInt64 → Result}
    (hThrow : ∀ ex, f (.error ex) = .thrown ex)
    (hMode : ¬ flags.nonblock) :
    Attempted autoRestart flags count c count
      ((attempt autoRestart operation
        (.error .interrupted)).map f) := by
  rw [attempt_error]
  cases hRestart : autoRestart with
  | true => exact .again c hMode rfl
  | false =>
      simp only [Bool.false_and, Bool.false_eq_true,
        if_false, Option.map_some, hThrow]
      exact .interrupted c hMode rfl

theorem leValue_request (increment : UInt64) :
    UInt64.ofNat
        (Buffer.leValue
          ((Buffer.leBytes 8 increment.toNat).take 8)) =
      increment := by
  rw [List.take_of_length_le (by simp)]
  exact ofNat_leValue_leBytes increment

/- The attempts, by what the kernel answers. -/
theorem attempted
    {count count' : UInt64} {c : Call} {a : Answer}
    (hAnswer : Serve flags count (request c) a count') :
    Attempted autoRestart flags count c count'
      (react autoRestart c a) := by
  cases c with
  | wait =>
      generalize hRequest : request .wait = r at hAnswer
      cases hAnswer with
      | take hRoom hSome =>
          simp only [react, attempt, Option.map_some,
            waitResult, readNumber, ne_eq, not_true,
            if_false, ofNat_leValue_leBytes]
          exact .waited hSome
      | empty hRoom hMode =>
          simp only [react]
          rw [attempt_other (by decide)]
          exact .blocked .wait hMode
      | awaken hRoom hMode =>
          exact attempted_interrupted .wait (fun _ => rfl)
            hMode
      | narrow hRoom =>
          cases hRequest
          exact absurd hRoom (by decide)
      | add => cases hRequest
      | reject => cases hRequest
      | full => cases hRequest
      | disturb => cases hRequest
  | signal increment =>
      generalize hRequest :
        request (.signal increment) = r at hAnswer
      cases hAnswer with
      | take => cases hRequest
      | empty => cases hRequest
      | awaken => cases hRequest
      | narrow => cases hRequest
      | add hRoom hData hFits =>
          cases hRequest
          rw [leValue_request] at hData
          rw [hData] at hFits ⊢
          exact .signalled hFits
      | reject hBad =>
          cases hRequest
          rw [leValue_request] at hBad
          rcases hBad with hShort | rfl
          · simp at hShort
          · simp only [react]
            rw [attempt_other (by decide)]
            exact .rejected
      | full hRoom hData hValid hFull hMode =>
          simp only [react]
          rw [attempt_other (by decide)]
          exact .blocked _ hMode
      | disturb hRoom hData hValid hFull hMode =>
          exact attempted_interrupted _ (fun _ => rfl) hMode

theorem attempted_of_react
    {count count' : UInt64} {c : Call} {a : Answer}
    {r : Option Result}
    (hAnswer :
      (object autoRestart flags).answers count c a count')
    (hReact : (object autoRestart flags).react c a = r) :
    Attempted autoRestart flags count c count' r := by
  rw [← hReact]
  exact attempted hAnswer

/-
  Without `EFD_SEMAPHORE`, a read that is served is the
  `wait` of an `EventFile` that nobody shares.
-/
theorem run_wait_served
    {count count' bytes : UInt64} {data : List Byte}
    (hPlain : flags.semaphore = false)
    (hServe :
      Serve flags count (request .wait) ⟨.ok bytes, data⟩
        count') :
    ∃ ret,
      waitResult data (.ok bytes) = .waited ret ∧
        (wait (.ok bytes)).run ⟨count⟩ =
          (.returned ret, ⟨count'⟩) := by
  have hTaken : taken flags count = count := by
    simp [taken, hPlain]
  generalize hRequest : request .wait = r at hServe
  cases hServe with
  | take hRoom hSome =>
      refine ⟨count, ?_, ?_⟩
      · simp only [waitResult, readNumber, hTaken, ne_eq,
          not_true, if_false, ofNat_leValue_leBytes]
      · rw [run_wait_ok, hTaken, UInt64.sub_self]
        rfl
  | add => cases hRequest

------------------------------------------------------------
-- Runs
------------------------------------------------------------

/- The value that a returned call put into the counter. -/
def gain : Call → Result → Nat
| .signal increment, .signalled => increment.toNat
| _, _ => 0

/- The value that a returned call got. -/
def loss : Call → Result → Nat
| .wait, .waited ret => ret.toNat
| _, _ => 0

/- The events of `P`, a set of threads and processes. -/
abbrev Trace (P : Type) : Type :=
  List (Shared.Event P Call Result Empty)

def signalled {P : Type} (trace : Trace P) : Nat :=
  Shared.total gain Empty.elim trace

def waited {P : Type} (trace : Trace P) : Nat :=
  Shared.total loss Empty.elim trace

/-
  How the calls can end. There are no short reads or writes,
  and in the blocking mode nothing is thrown for a valid
  increment if system calls are restarted.
-/
def Expected (autoRestart : Bool) (flags : Flags) :
    Call → Result → Prop
| .wait, .waited ret =>
    ret ≠ 0 ∧ (flags.semaphore → ret = 1)
| .signal increment, .signalled => increment ≠ invalid
| c, .thrown (.apiError e _) =>
    e = .again ∧ flags.nonblock ∨
      e = .interrupted ∧ ¬ flags.nonblock ∧
        autoRestart = false ∨
      e = .invalidArg ∧ c = .signal invalid
| _, _ => False

theorem toNat_taken_le
    {count : UInt64} (hSome : count ≠ 0) :
    taken flags count ≤ count := by
  have hPos : count.toNat ≠ 0 :=
    fun hZero => hSome (UInt64.toNat_inj.mp hZero)
  unfold taken
  rw [UInt64.le_iff_toNat_le]
  split
  · exact Nat.one_le_iff_ne_zero.mpr hPos
  · exact Nat.le_refl _

theorem toNat_add_of_fits
    {count increment : UInt64}
    (hFits : count.toNat + increment.toNat ≤ limit.toNat) :
    (count + increment).toNat =
      count.toNat + increment.toNat := by
  have hLimit : limit.toNat < 2 ^ 64 := limit.toNat_lt
  rw [UInt64.toNat_add]
  exact Nat.mod_eq_of_lt (by omega)

/- An attempt that is made again leaves the counter alone. -/
theorem Attempted.again_eq
    {count count' : UInt64} {c : Call}
    (hAttempt :
      Attempted autoRestart flags count c count' none) :
    count' = count := by
  cases hAttempt with
  | again => rfl

/- One call moves its value into or out of the counter. -/
theorem Attempted.moves
    {count count' : UInt64} {c : Call} {r : Result}
    (hBound : count.toNat ≤ limit.toNat)
    (hAttempt :
      Attempted autoRestart flags count c count' (some r)) :
    count'.toNat ≤ limit.toNat ∧
      count.toNat + gain c r = count'.toNat + loss c r := by
  cases hAttempt with
  | blocked c hMode =>
      cases c <;> exact ⟨hBound, rfl⟩
  | interrupted c hMode hRestart =>
      cases c <;> exact ⟨hBound, rfl⟩
  | rejected => exact ⟨hBound, rfl⟩
  | waited hSome =>
      have hLe : taken flags _ ≤ _ := toNat_taken_le hSome
      have hLeNat := UInt64.le_iff_toNat_le.mp hLe
      have hSub := UInt64.toNat_sub_of_le _ _ hLe
      simp only [gain, loss]
      omega
  | signalled hFits =>
      have hSum := toNat_add_of_fits hFits
      simp only [gain, loss]
      omega

theorem Attempted.expected
    {count count' : UInt64} {c : Call} {r : Result}
    (hAttempt :
      Attempted autoRestart flags count c count' (some r)) :
    Expected autoRestart flags c r := by
  cases hAttempt with
  | blocked c hMode =>
      cases c <;> exact Or.inl ⟨rfl, hMode⟩
  | interrupted c hMode hRestart =>
      cases c <;>
        exact Or.inr (Or.inl ⟨rfl, hMode, hRestart⟩)
  | rejected => exact Or.inr (Or.inr ⟨rfl, rfl⟩)
  | waited hSome =>
      unfold Expected taken
      cases flags.semaphore with
      | true => exact ⟨by simp, fun _ => rfl⟩
      | false => exact ⟨hSome, fun hMode => nomatch hMode⟩
  | signalled hFits =>
      rintro rfl
      have hLimit : limit.toNat < invalid.toNat := by decide
      omega

theorem toNat_created (initval : UInt64) :
    (created initval).toNat = initval.toNat % 2 ^ 32 := by
  unfold created
  rw [UInt32.toNat_toUInt64, UInt64.toNat_toUInt32]

theorem created_le (initval : UInt64) :
    (created initval).toNat ≤ limit.toNat := by
  have hLimit : 2 ^ 32 ≤ limit.toNat := by decide
  rw [toNat_created]
  omega

/-
  Nothing that is signalled is lost or is received twice:
  whatever the threads do, and however often their calls are
  interrupted and made again, the initial value together
  with the increments of the calls that returned is what the
  waiters got and what is left.
-/
theorem signals_conserved
    {P : Type} [DecidableEq P]
    (autoRestart : Bool) (flags : Flags) (initval : UInt64)
    {trace : Trace P} {s : Shared.State P Call UInt64}
    (hRun :
      Shared.Run (object autoRestart flags)
        (.idle (created initval)) trace s) :
    initval.toNat % 2 ^ 32 + signalled trace =
        waited trace + s.object.toNat ∧
      s.object ≠ invalid ∧
      ∀ p c r, Shared.Event.leave p c r ∈ trace →
        Expected autoRestart flags c r := by
  have hBalance :=
    Shared.Run.balance
      (fun count => count.toNat ≤ limit.toNat)
      UInt64.toNat gain loss Empty.elim Empty.elim
      (fun count c a count' hBound hAnswer hReact => by
        have hAttempt := attempted_of_react hAnswer hReact
        rw [hAttempt.again_eq]
        exact ⟨hBound, rfl⟩)
      (fun count c a count' r hBound hAnswer hReact =>
        (attempted_of_react hAnswer hReact).moves hBound)
      (fun _ e => e.elim) hRun (created_le initval)
  have hReturned :=
    Shared.Run.returned (fun _ => True)
      (Expected autoRestart flags)
      (fun _ _ _ _ _ _ _ => trivial)
      (fun count c a count' r _ hAnswer hReact =>
        ⟨trivial,
          (attempted_of_react hAnswer hReact).expected⟩)
      (fun _ e => e.elim) hRun trivial
  refine ⟨?_, ?_, hReturned.2⟩
  · have hSum := hBalance.2
    simp only [Shared.State.idle, toNat_created] at hSum
    unfold signalled waited
    omega
  · intro hInvalid
    have hBound := hBalance.1
    rw [hInvalid] at hBound
    exact absurd hBound (by decide)

/-
  A wait is interrupted and made again before another thread
  signals 3; bit 32 of the initial value is lost.
-/
def handOver : Trace Bool :=
  [.enter true .wait, .again true .wait,
    .enter false (.signal 3),
    .leave false (.signal 3) .signalled,
    .leave true .wait (.waited 3)]

theorem run_handOver :
    ∃ s,
      Shared.Run (object true .empty)
          (.idle (created 0x100000000)) handOver s ∧
        s.object = 0 := by
  have hAwaken :
      Serve .empty 0 (request .wait)
        ⟨.error .interrupted, []⟩ 0 :=
    .awaken (by decide) (by decide)
  have hAdd :
      Serve .empty 0 (request (.signal 3)) ⟨.ok 8, []⟩ 3 :=
    .add (by decide) rfl (by decide)
  have hTake :
      Serve .empty 3 (request .wait)
        ⟨.ok 8, Buffer.leBytes 8 3⟩ 0 :=
    .take (by decide) (by decide)
  refine ⟨_, Shared.Run.nil
    |>.snoc (.enter Call.wait rfl)
    |>.snoc (.again rfl hAwaken rfl)
    |>.snoc (.enter (Call.signal 3) rfl)
    |>.snoc (.leave rfl hAdd rfl)
    |>.snoc (.leave rfl hTake rfl), ?_⟩
  rfl

theorem signals_conserved_handOver :
    waited handOver = 3 ∧ signalled handOver = 3 ∧
      Expected true .empty .wait (.waited 3) := by
  rcases run_handOver with ⟨s, hRun, hEnd⟩
  have hAll := signals_conserved true .empty 0x100000000 hRun
  have hSum := hAll.1
  rw [hEnd] at hSum
  refine ⟨?_, by decide, ?_⟩
  · have hSignalled : signalled handOver = 3 := by decide
    rw [hSignalled] at hSum
    simpa using hSum.symm
  · exact hAll.2.2 true .wait (.waited 3) (by simp [handOver])

end EventFile

end Cosmos
