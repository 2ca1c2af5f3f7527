import LibCosmos.Core.Types

/-
  Wrappers of functions that return an error code and leave
  `errno` alone (`include/thread/Mutex.hxx`,
  `include/thread/RWLock.hxx`,
  `include/thread/Condition.hxx`, `src/thread/Mutex.cxx`,
  `src/thread/Condition.cxx`,
  `src/fs/FileDescriptor.cxx`).

  Main declarations:
    * `ErrorCodes.throwReturned`,
      `ErrorCodes.throwCurrent`,
      `ErrorCodes.constructOnly`
    * `ErrorCodes.perform`
    * `ErrorCodes.Faithful`, `ErrorCodes.Reported`
    * `ErrorCodes.codes_faithful_iff`
-/

namespace Cosmos

namespace ErrorCodes

------------------------------------------------------------
-- Calls and Their Codes
------------------------------------------------------------

/- The functions that return their error. -/
inductive Function where
| pthreadMutexInit
| pthreadMutexLock
| pthreadMutexUnlock
| pthreadRwlockInit
| pthreadRwlockRdlock
| pthreadRwlockWrlock
| pthreadRwlockUnlock
| pthreadCondattrInit
| pthreadCondattrSetclock
| pthreadCondattrDestroy
| pthreadCondInit
| pthreadCondWait
| pthreadCondTimedwait
| pthreadCondSignal
| pthreadCondBroadcast
| posixFadvise
deriving DecidableEq, Repr

/- A thread with its `errno` and the calls it made. -/
structure Thread where
  errno : Errno
  calls : List Function
deriving DecidableEq, Repr

/- A call; `codes` has the results of all of them. -/
def invoke (codes : Nat → Int32) (f : Function) :
    Method Thread Int32 where
  run t :=
    (.returned (codes t.calls.length),
      { t with calls := t.calls ++ [f] })

------------------------------------------------------------
-- Ways to Deal with a Code
------------------------------------------------------------

variable (codes : Nat → Int32)

/- `throw ApiError{label, Errno{res}}`. -/
def throwReturned (f : Function) (label : String) :
    Method Thread Unit := do
  let res ← invoke codes f
  if res ≠ 0 then
    Command.raise (.apiError ⟨res⟩ (str label))
  else pure ()

/- `ApiError{label}` takes the error from `errno`. -/
def raiseCurrent (label : String) : Method Thread Unit where
  run t := (.raised (.apiError t.errno (str label)), t)

/- `throw ApiError{label}`. -/
def throwCurrent (f : Function) (label : String) :
    Method Thread Unit := do
  let res ← invoke codes f
  if res ≠ 0 then raiseCurrent label else pure ()

/- An `ApiError` that is constructed and not thrown. -/
def constructOnly (f : Function) : Method Thread Unit := do
  let _ ← invoke codes f
  pure ()

------------------------------------------------------------
-- The Code
------------------------------------------------------------

namespace Mutex

def new : Method Thread Unit :=
  throwReturned codes .pthreadMutexInit
    "pthread_mutex_init()"

def lock : Method Thread Unit :=
  throwReturned codes .pthreadMutexLock
    "pthread_mutex_lock()"

def unlock : Method Thread Unit :=
  throwReturned codes .pthreadMutexUnlock
    "pthread_mutex_unlock()"

end Mutex

namespace RWLock

def new : Method Thread Unit :=
  throwCurrent codes .pthreadRwlockInit
    "pthread_rwlock_init()"

def readlock : Method Thread Unit :=
  throwCurrent codes .pthreadRwlockRdlock
    "pthread_rwlock_rdlock()"

def writelock : Method Thread Unit :=
  throwCurrent codes .pthreadRwlockWrlock
    "pthread_rwlock_wrlock()"

def unlock : Method Thread Unit :=
  throwCurrent codes .pthreadRwlockUnlock
    "pthread_rwlock_unlock()"

end RWLock

namespace Condition

/- The `try` block of the constructor. -/
def initWithAttr : Method Thread Unit := do
  constructOnly codes .pthreadCondattrSetclock
  constructOnly codes .pthreadCondInit

def destroyAttr (ex : Exn) : Method Thread Unit := do
  let _ ← invoke codes .pthreadCondattrDestroy
  Command.raise ex

/- The constructor. -/
def new : Method Thread Unit := do
  constructOnly codes .pthreadCondattrInit
  (initWithAttr codes).handle (destroyAttr codes)

def wait : Method Thread Unit :=
  throwReturned codes .pthreadCondWait
    "pthread_cond_wait()"

inductive WaitTimedRes where
| timedOut
| signaled
deriving DecidableEq, Repr

def waitTimedResult (res : Errno) :
    Method Thread WaitTimedRes :=
  if res = .noError then pure .signaled
  else if res = .timedOut then pure .timedOut
  else
    Command.raise
      (.apiError res (str "pthread_cond_timedwait()"))

def waitTimed : Method Thread WaitTimedRes := do
  let res ← invoke codes .pthreadCondTimedwait
  waitTimedResult ⟨res⟩

def signal : Method Thread Unit :=
  throwReturned codes .pthreadCondSignal
    "pthread_cond_signal()"

def broadcast : Method Thread Unit :=
  throwReturned codes .pthreadCondBroadcast
    "pthread_cond_broadcast()"

end Condition

/- `FileDescriptor::setAdvice`. -/
def setAdvice : Method Thread Unit :=
  throwCurrent codes .posixFadvise "posix_fadvice()"

------------------------------------------------------------
-- All Operations
------------------------------------------------------------

inductive Op where
| mutexNew
| mutexLock
| mutexUnlock
| rwlockNew
| rwlockReadlock
| rwlockWritelock
| rwlockUnlock
| conditionNew
| conditionWait
| conditionWaitTimed
| conditionSignal
| conditionBroadcast
| setAdvice
deriving DecidableEq, Repr

inductive Value where
| none
| wait (res : Condition.WaitTimedRes)
deriving DecidableEq, Repr

/- A result of no interest. -/
def plain (c : Method Thread Unit) : Method Thread Value := do
  c
  pure .none

def waited (c : Method Thread Condition.WaitTimedRes) :
    Method Thread Value := do
  let res ← c
  pure (.wait res)

def perform : Op → Method Thread Value
| .mutexNew => plain (Mutex.new codes)
| .mutexLock => plain (Mutex.lock codes)
| .mutexUnlock => plain (Mutex.unlock codes)
| .rwlockNew => plain (RWLock.new codes)
| .rwlockReadlock => plain (RWLock.readlock codes)
| .rwlockWritelock => plain (RWLock.writelock codes)
| .rwlockUnlock => plain (RWLock.unlock codes)
| .conditionNew => plain (Condition.new codes)
| .conditionWait => plain (Condition.wait codes)
| .conditionWaitTimed => waited (Condition.waitTimed codes)
| .conditionSignal => plain (Condition.signal codes)
| .conditionBroadcast => plain (Condition.broadcast codes)
| .setAdvice => plain (setAdvice codes)

/- The calls of an operation if none of them fails. -/
def Op.plan : Op → List Function
| mutexNew => [.pthreadMutexInit]
| mutexLock => [.pthreadMutexLock]
| mutexUnlock => [.pthreadMutexUnlock]
| rwlockNew => [.pthreadRwlockInit]
| rwlockReadlock => [.pthreadRwlockRdlock]
| rwlockWritelock => [.pthreadRwlockWrlock]
| rwlockUnlock => [.pthreadRwlockUnlock]
| conditionNew =>
    [.pthreadCondattrInit, .pthreadCondattrSetclock,
      .pthreadCondInit]
| conditionWait => [.pthreadCondWait]
| conditionWaitTimed => [.pthreadCondTimedwait]
| conditionSignal => [.pthreadCondSignal]
| conditionBroadcast => [.pthreadCondBroadcast]
| setAdvice => [.posixFadvise]

/- The codes that are no failure. -/
def Op.passes (op : Op) (code : Int32) : Bool :=
  code == 0 || op == .conditionWaitTimed && code == 110

/- The operation of a thread that made no call before. -/
def outcome (op : Op) (errno : Errno) :
    Outcome Halt Exn Value × Thread :=
  (perform codes op).run
    { errno := errno
      calls := [] }

/- The call of this number is the first one that fails. -/
def FirstFailure (op : Op) (i : Nat) : Prop :=
  i < op.plan.length ∧ op.passes (codes i) = false ∧
    ∀ j < i, op.passes (codes j) = true

/-
  An operation returns just if no call failed, and otherwise
  it throws the code of the first call that did; nothing is
  initialized after that call.
-/
structure Faithful (op : Op) (errno : Errno) : Prop where
  returned :
    (∃ v, (outcome codes op errno).1 = .returned v) ↔
      ∀ i < op.plan.length, op.passes (codes i) = true
  thrown :
    ∀ i, FirstFailure codes op i →
      ∃ msg,
        (outcome codes op errno).1 =
          .raised (.apiError ⟨codes i⟩ msg)
  stopped :
    ∀ i, FirstFailure codes op i →
      (outcome codes op errno).2.calls =
        op.plan.take (i + 1)

/-
  The operations that throw with the current `errno` have a
  call that did not fail, or whose code `errno` has by
  chance, and the constructor that does not throw has no
  call that failed.
-/
def Reported (op : Op) (errno : Errno) : Prop :=
  match op with
  | .rwlockNew | .rwlockReadlock | .rwlockWritelock
  | .rwlockUnlock | .setAdvice =>
      codes 0 = 0 ∨ codes 0 = errno.raw
  | .conditionNew =>
      codes 0 = 0 ∧ codes 1 = 0 ∧ codes 2 = 0
  | _ => True

------------------------------------------------------------
-- Operations with One Call
------------------------------------------------------------

section Operations

variable {codes}
variable {op : Op} {errno : Errno} {f : Function}

/- For one call there is one code to tell. -/
theorem faithful_single_iff
    (hPlan : op.plan = [f])
    (hCalls : (outcome codes op errno).2.calls = [f]) :
    Faithful codes op errno ↔
      ((∃ v, (outcome codes op errno).1 = .returned v) ↔
        op.passes (codes 0) = true) ∧
      (op.passes (codes 0) = false →
        ∃ msg,
          (outcome codes op errno).1 =
            .raised (.apiError ⟨codes 0⟩ msg)) := by
  have hLength : op.plan.length = 1 := by rw [hPlan]; rfl
  have hAll :
      (∀ i < op.plan.length,
        op.passes (codes i) = true) ↔
        op.passes (codes 0) = true := by
    rw [hLength]
    constructor
    · intro hPasses
      exact hPasses 0 Nat.one_pos
    · intro hPasses i hLess
      rw [Nat.lt_one_iff.mp hLess]
      exact hPasses
  have hFirst : ∀ i, FirstFailure codes op i →
      i = 0 ∧ op.passes (codes 0) = false := by
    rintro i ⟨hLess, hFails, -⟩
    rw [hLength] at hLess
    rw [Nat.lt_one_iff.mp hLess] at hFails
    exact ⟨Nat.lt_one_iff.mp hLess, hFails⟩
  constructor
  · intro hFaithful
    refine ⟨hFaithful.returned.trans hAll, fun hFails => ?_⟩
    refine hFaithful.thrown 0 ⟨?_, hFails, nofun⟩
    rw [hLength]
    exact Nat.one_pos
  · rintro ⟨hReturned, hThrown⟩
    exact
      { returned := hReturned.trans hAll.symm
        thrown := by
          intro i hFailure
          rcases hFirst i hFailure with ⟨rfl, hFails⟩
          exact hThrown hFails
        stopped := by
          intro i hFailure
          rw [(hFirst i hFailure).1, hCalls, hPlan]
          rfl }

/- A function that is called and checked. -/
theorem faithful_checked_iff
    {e : Errno} {msg : Str}
    (hRun :
      outcome codes op errno =
        if codes 0 ≠ 0 then
          (.raised (.apiError e msg), ⟨errno, [f]⟩)
        else (.returned .none, ⟨errno, [f]⟩))
    (hPlan : op.plan = [f])
    (hPasses : ∀ c, op.passes c = (c == 0)) :
    Faithful codes op errno ↔
      codes 0 = 0 ∨ e = ⟨codes 0⟩ := by
  have hCalls :
      (outcome codes op errno).2.calls = [f] := by
    rw [hRun]
    split
    · rfl
    · rfl
  rw [faithful_single_iff hPlan hCalls, hRun, hPasses]
  by_cases hFails : codes 0 ≠ 0
  · rw [if_pos hFails]
    constructor
    · rintro ⟨-, hThrown⟩
      rcases hThrown (beq_eq_false_iff_ne.mpr hFails) with
        ⟨msg, hSame⟩
      injection hSame with hSame
      injection hSame with hSame
      exact Or.inr hSame
    · rintro (hZero | hCode)
      · exact absurd hZero hFails
      · refine ⟨⟨nofun, fun hZero => ?_⟩, fun _ => ?_⟩
        · exact absurd (beq_iff_eq.mp hZero) hFails
        · rw [hCode]
          exact ⟨_, rfl⟩
  · rw [if_neg hFails]
    rw [not_not] at hFails
    rw [hFails]
    exact
      ⟨fun _ => Or.inl rfl,
        fun _ =>
          ⟨⟨fun _ => rfl, fun _ => ⟨_, rfl⟩⟩, nofun⟩⟩

/- An error that is thrown as it was returned. -/
theorem faithful_of_throwReturned
    {label : String}
    (hPerform :
      perform codes op = plain (throwReturned codes f label))
    (hPlan : op.plan = [f])
    (hPasses : ∀ c, op.passes c = (c == 0)) :
    Faithful codes op errno := by
  have hRun :
      outcome codes op errno =
        if codes 0 ≠ 0 then
          (.raised (.apiError ⟨codes 0⟩ (str label)),
            ⟨errno, [f]⟩)
        else (.returned .none, ⟨errno, [f]⟩) := by
    unfold outcome
    rw [hPerform]
    unfold plain throwReturned invoke
    by_cases hFails : codes 0 ≠ 0
    · simp [Command.run_bind, hFails]
    · simp [Command.run_bind, not_not.mp hFails]
  exact
    (faithful_checked_iff hRun hPlan hPasses).mpr
      (Or.inr rfl)

/- An error that is taken from `errno`. -/
theorem faithful_throwCurrent_iff
    {label : String}
    (hPerform :
      perform codes op = plain (throwCurrent codes f label))
    (hPlan : op.plan = [f])
    (hPasses : ∀ c, op.passes c = (c == 0)) :
    Faithful codes op errno ↔
      codes 0 = 0 ∨ codes 0 = errno.raw := by
  have hRun :
      outcome codes op errno =
        if codes 0 ≠ 0 then
          (.raised (.apiError errno (str label)),
            ⟨errno, [f]⟩)
        else (.returned .none, ⟨errno, [f]⟩) := by
    unfold outcome
    rw [hPerform]
    unfold plain throwCurrent invoke raiseCurrent
    by_cases hFails : codes 0 ≠ 0
    · simp [Command.run_bind, hFails]
    · simp [Command.run_bind, not_not.mp hFails]
  have hSame : errno = ⟨codes 0⟩ ↔ codes 0 = errno.raw := by
    rw [Errno.mk.injEq, eq_comm]
  rw [faithful_checked_iff hRun hPlan hPasses, hSame]

end Operations

------------------------------------------------------------
-- Conditions
------------------------------------------------------------

/- A timeout is a result, too. -/
theorem faithful_waitTimed (errno : Errno) :
    Faithful codes .conditionWaitTimed errno := by
  have hRun :
      outcome codes .conditionWaitTimed errno =
        if codes 0 = 0 then
          (.returned (.wait .signaled),
            ⟨errno, [.pthreadCondTimedwait]⟩)
        else if codes 0 = 110 then
          (.returned (.wait .timedOut),
            ⟨errno, [.pthreadCondTimedwait]⟩)
        else
          (.raised
            (.apiError ⟨codes 0⟩
              (str "pthread_cond_timedwait()")),
            ⟨errno, [.pthreadCondTimedwait]⟩) := by
    unfold outcome perform waited Condition.waitTimed invoke
      Condition.waitTimedResult Errno.noError
      Errno.timedOut
    by_cases hZero : codes 0 = 0
    · simp [Command.run_bind, hZero]
    · by_cases hTimeout : codes 0 = 110
      · simp [Command.run_bind, hTimeout]
      · simp [Command.run_bind, hZero, hTimeout]
  have hCalls :
      (outcome codes .conditionWaitTimed errno).2.calls =
        [.pthreadCondTimedwait] := by
    rw [hRun]
    split
    · rfl
    · split
      · rfl
      · rfl
  rw [faithful_single_iff rfl hCalls, hRun]
  by_cases hZero : codes 0 = 0
  · rw [if_pos hZero, hZero]
    exact ⟨⟨fun _ => rfl, fun _ => ⟨_, rfl⟩⟩, nofun⟩
  · rw [if_neg hZero]
    by_cases hTimeout : codes 0 = 110
    · rw [if_pos hTimeout, hTimeout]
      exact ⟨⟨fun _ => rfl, fun _ => ⟨_, rfl⟩⟩, nofun⟩
    · rw [if_neg hTimeout]
      refine ⟨⟨nofun, fun hPasses => ?_⟩, fun _ => ⟨_, rfl⟩⟩
      unfold Op.passes at hPasses
      simp [hZero, hTimeout] at hPasses

/- The constructor returns whatever the codes are. -/
theorem outcome_conditionNew (errno : Errno) :
    outcome codes .conditionNew errno =
      (.returned .none,
        { errno := errno
          calls := Op.conditionNew.plan }) := rfl

theorem faithful_conditionNew_iff (errno : Errno) :
    Faithful codes .conditionNew errno ↔
      codes 0 = 0 ∧ codes 1 = 0 ∧ codes 2 = 0 := by
  have hPasses :
      ∀ c, Op.conditionNew.passes c = true ↔ c = 0 := by
    intro c
    unfold Op.passes
    simp
  have hAll :
      (∀ i < Op.conditionNew.plan.length,
        Op.conditionNew.passes (codes i) = true) ↔
        codes 0 = 0 ∧ codes 1 = 0 ∧ codes 2 = 0 := by
    simp only [hPasses]
    constructor
    · intro hZero
      exact
        ⟨hZero 0 (by decide), hZero 1 (by decide),
          hZero 2 (by decide)⟩
    · rintro ⟨hFirst, hSecond, hThird⟩ i hLess
      match i, hLess with
      | 0, _ => exact hFirst
      | 1, _ => exact hSecond
      | 2, _ => exact hThird
  constructor
  · intro hFaithful
    apply hAll.mp
    exact
      hFaithful.returned.mp
        ⟨_, congrArg Prod.fst (outcome_conditionNew codes
          errno)⟩
  · intro hZero
    have hNone : ∀ i,
        ¬ FirstFailure codes .conditionNew i := by
      rintro i ⟨hLess, hFails, -⟩
      rw [hAll.mpr hZero i hLess] at hFails
      cases hFails
    exact
      { returned :=
          ⟨fun _ => hAll.mpr hZero, fun _ => ⟨_, rfl⟩⟩
        thrown := fun i hFailure =>
          absurd hFailure (hNone i)
        stopped := fun i hFailure =>
          absurd hFailure (hNone i) }

------------------------------------------------------------
-- Which Operations Report
------------------------------------------------------------

theorem codes_faithful_iff (op : Op) (errno : Errno) :
    Faithful codes op errno ↔ Reported codes op errno := by
  have hZero : ∀ c : Int32,
      (c == 0 || false && c == 110) = (c == 0) := by
    intro c
    rw [Bool.false_and, Bool.or_false]
  cases op with
  | conditionNew =>
      exact faithful_conditionNew_iff codes errno
  | conditionWaitTimed =>
      exact
        ⟨fun _ => trivial,
          fun _ => faithful_waitTimed codes errno⟩
  | rwlockNew =>
      exact faithful_throwCurrent_iff rfl rfl hZero
  | rwlockReadlock =>
      exact faithful_throwCurrent_iff rfl rfl hZero
  | rwlockWritelock =>
      exact faithful_throwCurrent_iff rfl rfl hZero
  | rwlockUnlock =>
      exact faithful_throwCurrent_iff rfl rfl hZero
  | setAdvice =>
      exact faithful_throwCurrent_iff rfl rfl hZero
  | mutexNew | mutexLock | mutexUnlock | conditionWait
  | conditionSignal | conditionBroadcast =>
      exact
        ⟨fun _ => trivial,
          fun _ => faithful_of_throwReturned rfl rfl hZero⟩

/-
  A lock that fails with `EDEADLK` while `errno` is zero, and
  a condition without attributes.
-/
theorem not_faithful_stale :
    ¬ Faithful (fun _ => 35) .rwlockWritelock .noError ∧
      ¬ Faithful (fun _ => 12) .conditionNew .noError := by
  constructor
  · intro hFaithful
    rcases hFaithful.thrown 0
        ⟨by decide, by decide, nofun⟩ with
      ⟨msg, hThrown⟩
    have hRun :
        (outcome (fun _ => 35) .rwlockWritelock .noError).1 =
          .raised
            (.apiError .noError
              (str "pthread_rwlock_wrlock()")) := rfl
    rw [hRun] at hThrown
    injection hThrown with hThrown
    injection hThrown with hErrno
    exact absurd hErrno (by decide)
  · intro hFaithful
    rcases hFaithful.thrown 0
        ⟨by decide, by decide, nofun⟩ with
      ⟨msg, hThrown⟩
    cases hThrown

end ErrorCodes

end Cosmos
