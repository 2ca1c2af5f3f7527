import LibCosmos.FS.FileDescriptor

/-
  Event objects behind a file descriptor
  (`include/io/EventFile.hxx`, `src/io/EventFile.cxx`),
  without `Flag::SEMAPHORE`.

  All processes that have the descriptor share the counter.
  The answer of a call that is restarted is that of its last
  attempt.

  Main declarations:
    * `EventFile.create`, `EventFile.wait`,
      `EventFile.signal`
    * `EventFile.Answers`, when the kernel answers a read
    * `EventFile.run_wait_ok`, `EventFile.run_signal_ok`
-/

namespace Cosmos

/- The counter of an eventfd. -/
structure EventFile where
  counter : UInt64
deriving DecidableEq, Repr

namespace EventFile

/- `sizeof(Counter)`. -/
def counterSize : UInt64 := 8

/- `EventFile::EventFile`. -/
def create (initval : UInt64) (answer : Sys FileNum) :
    Method EventFile Unit := do
  let _ ← check "eventfd()" answer
  Command.modify fun _ => ⟨initval⟩

/-
  `read` of the counter: what the kernel reports as the
  number of bytes, and the value. It is reset to zero.
-/
def read (answer : Sys UInt64) :
    Method EventFile (UInt64 × UInt64) := do
  let ev ← Command.get
  let bytes ← check "read()" answer
  Command.modify fun _ => ⟨0⟩
  pure (bytes, ev.counter)

/- `write` of an increment, which is added. -/
def write (increment : UInt64) (answer : Sys UInt64) :
    Method EventFile UInt64 := do
  let bytes ← check "write()" answer
  Command.modify fun ev => ⟨ev.counter + increment⟩
  pure bytes

/- `EventFile::wait`. -/
def wait (answer : Sys UInt64) : Method EventFile UInt64 := do
  let (bytes, ret) ← read answer
  if bytes ≠ counterSize then
    Command.raise
      (.runtimeError (str "short eventfd read?!"))
  else
    pure ret

/- `EventFile::signal`. -/
def signal (increment : UInt64) (answer : Sys UInt64) :
    Method EventFile Unit := do
  let bytes ← write increment answer
  if bytes ≠ counterSize then
    Command.raise
      (.runtimeError (str "short eventfd write?!"))
  else
    pure ()

/- A read succeeds only when the counter is not zero. -/
def Answers (ev : EventFile) (answer : Sys UInt64) : Prop :=
  answer.isOk = true → ev.counter ≠ 0

theorem run_wait_ok (bytes : UInt64) (ev : EventFile) :
    (wait (.ok bytes)).run ev =
      (if bytes ≠ counterSize then
          .raised (.runtimeError
            (str "short eventfd read?!"))
        else .returned ev.counter,
        ⟨0⟩) := by
  unfold wait read
  simp only [Command.run_bind, Command.run_get,
    run_check_ok, Command.run_modify, Command.run_pure,
    Command.run_ite, Command.run_raise]
  by_cases hShort : bytes ≠ counterSize
  · rw [if_pos hShort, if_pos hShort]
  · rw [if_neg hShort, if_neg hShort]

theorem run_wait_error (e : Errno) (ev : EventFile) :
    (wait (.error e)).run ev =
      (.raised (.apiError e (str "read()")), ev) :=
  rfl

theorem run_signal_ok
    (increment bytes : UInt64) (ev : EventFile) :
    (signal increment (.ok bytes)).run ev =
      (if bytes ≠ counterSize then
          .raised (.runtimeError
            (str "short eventfd write?!"))
        else .returned (),
        ⟨ev.counter + increment⟩) := by
  unfold signal write
  simp only [Command.run_bind, run_check_ok,
    Command.run_modify, Command.run_pure, Command.run_ite,
    Command.run_raise]
  by_cases hShort : bytes ≠ counterSize
  · rw [if_pos hShort, if_pos hShort]
  · rw [if_neg hShort, if_neg hShort]

theorem run_signal_error
    (increment : UInt64) (e : Errno) (ev : EventFile) :
    (signal increment (.error e)).run ev =
      (.raised (.apiError e (str "write()")), ev) :=
  rfl

end EventFile

end Cosmos
