import LibCosmos.Core.Bytes
import LibCosmos.Foundation.Attempt
import LibCosmos.IO.Pipe
import LibCosmos.Proc.ChildCloner

/-
  What a child does before it executes its program
  (`ChildCloner::runChild` in `src/proc/ChildCloner.cxx`),
  and how it tells its parent about errors.

  What is printed to `std::cerr` is left out.

  Main declarations:
    * `ChildSetup`, `ChildAnswers`
    * `ChildSetup.postFork`, `ChildSetup.runChild`
    * `Child.reportPreExecErrorAndExit`
    * `ChildSetup.runChild_ends_iff`
-/

namespace Cosmos

open Custody

------------------------------------------------------------
-- Settings and Answers
------------------------------------------------------------

/-
  The settings of a `ChildCloner` that matter in the child.
  The callback is given by what a call of it comes to.
-/
structure ChildSetup extends ChildCloner where
  mEnv : Option (List Str) := none
  mCwd : Str := []
  mInheritFds : List FileDescriptor := []
  hasSchedSettings : Bool := false
  mPostForkCb : Option (Outcome Halt Exn Unit) := none
  mForwardChildErrors : Bool := false

/-
  What the system calls in the child answer, after restarts.
  A successful `execve` gives no errno.
-/
structure ChildAnswers where
  closed : Sys Unit
  scheduled : Sys Unit
  unblocked : Sys Unit
  changedDir : Sys Unit
  duplicated : FileNum → Sys Unit
  flagged : Nat → Sys Unit
  executed : Option Errno
  errnumWritten : Sys Nat
  messageWritten : Sys Nat

/- Both ends of a pipe that was just made. -/
structure NewPipe where
  readEnd : FileNum
  writeEnd : FileNum
  read_ne : readEnd ≠ FileNum.invalid
  write_ne : writeEnd ≠ FileNum.invalid

def NewPipe.pipe (ends : NewPipe) : Pipe :=
  ⟨⟨ends.readEnd⟩, ⟨ends.writeEnd⟩⟩

theorem NewPipe.haveReadEnd (ends : NewPipe) :
    ends.pipe.haveReadEnd = true := by
  simp [pipe, Pipe.haveReadEnd, FileDescriptor.valid,
    ends.read_ne]

theorem NewPipe.haveWriteEnd (ends : NewPipe) :
    ends.pipe.haveWriteEnd = true := by
  simp [pipe, Pipe.haveWriteEnd, FileDescriptor.valid,
    ends.write_ne]

/- A child before its program runs. -/
structure Child where
  errorPipe : Option Pipe
  log : List (Entry FileNum)
  sent : List (List Byte)
  execArgs : Option (List Str × Option (List Str))

/- The text that `what()` returns. -/
def Exn.what : Exn → Str
| .apiError _ msg => msg
| .runtimeError msg => msg
| .usageError msg => msg
| .stdException text => text
| .nonStd => []

------------------------------------------------------------
-- Reports
------------------------------------------------------------

namespace Child

/- A call of a method of `*error_pipe`. -/
def onPipe {α : Type}
    (m : Method (Frame Pipe) α) : Method Child α :=
  m.focus
    (fun s => ⟨s.errorPipe.getD {}, s.log⟩)
    (fun t s =>
      { s with errorPipe := some t.this, log := t.log })

/- `if (error_pipe)` -/
def ifErrorPipe (m : Method Child Unit) :
    Method Child Unit := do
  let s ← Command.get
  if s.errorPipe.isSome then m else pure ()

/- `error_file.write`, which the kernel may refuse. -/
def writeError
    (fd : FileDescriptor) (written : Sys Nat)
    (data : List Byte) : Method Child Unit :=
  if ¬ fd.valid then
    throwApi .badFd "write()"
  else do
    let n ← check "write()" written
    Command.modify fun s =>
      { s with sent := s.sent ++ [data.take n] }

/- `ChildCloner::reportPreExecErrorAndExit`. -/
def reportPreExecErrorAndExit
    (a : ChildAnswers) (error : Errno) (description : Str) :
    Method Child Unit := do
  let fd ← onPipe Pipe.takeWriteEndOwnership
  writeError fd a.errnumWritten
    (intBytes.encode error.raw)
  writeError fd a.messageWritten description
  Command.halt (.exit .preExecError)

end Child

------------------------------------------------------------
-- Preparations
------------------------------------------------------------

namespace ChildSetup

open Child

variable (c : ChildSetup) (a : ChildAnswers)

/- The scheduler settings, whose errors are only printed. -/
def applySchedSettings : Method Child Unit :=
  if c.hasSchedSettings then
    (check "sched_setattr()" a.scheduled).handle fun e =>
      if e.isStd then pure () else Command.raise e
  else pure ()

/- `ChildCloner::resetSignals`. -/
def resetSignals : Method Child Unit :=
  check "pthread_sigmask()" a.unblocked

/- A working directory that was set. -/
def changeDir : Method Child Unit :=
  if c.mCwd ≠ [] then check "chdir()" a.changedDir
  else pure ()

/- `ChildCloner::redirectFD`. -/
def redirectFD (orig : FileNum) (redirect : FileDescriptor) :
    Method Child Unit :=
  if ¬ redirect.valid then pure ()
  else check "dup3()" (a.duplicated orig)

/- `ChildCloner::postFork` up to the callback. -/
def prepare : Method Child Unit := do
  c.applySchedSettings a
  resetSignals a
  c.changeDir a
  redirectFD a FileNum.stdout c.mStdout
  redirectFD a FileNum.stderr c.mStderr
  redirectFD a FileNum.stdin c.mStdin
  Command.forEach
    (fun p => check "fcntl(F_SETFD)" (a.flagged p.2))
    c.mInheritFds.zipIdx

/- `m_post_fork_cb(*this)`. -/
def callPostForkCb : Method Child Unit :=
  match c.mPostForkCb with
  | none => pure ()
  | some outcome => ⟨fun s => (outcome, s)⟩

/- `ChildCloner::postFork`. -/
def postFork : Method Child Unit := do
  c.prepare a
  c.callPostForkCb

------------------------------------------------------------
-- The Child
------------------------------------------------------------

/- `proc::exec`, whose program is named by `argv[0]`. -/
def exec : Method Child Unit := do
  Command.modify fun s =>
    { s with execArgs := some (c.mArgv, c.mEnv) }
  match a.executed with
  | none => Command.halt .exec
  | some e => throwApi e "execvpe()"

/- The `switch` over the errno of a failed `exec`. -/
def exitStatusOf (e : Errno) : Option ExitStatus :=
  if e ∈ [Errno.linkLoop, Errno.nameTooLong, Errno.noEntry,
      Errno.notADir] then
    some .progNotFound
  else if e ∈ [Errno.notExecutable, Errno.access] then
    some .progNotExecutable
  else
    none

/- The inner `try` block with its handler. -/
def tryExec : Method Child Unit :=
  (c.exec a).handle fun e =>
    match e with
    | .apiError errnum _ => do
        ifErrorPipe
          (reportPreExecErrorAndExit a errnum e.what)
        match exitStatusOf errnum with
        | some status => Command.halt (.exit status)
        | none => Command.raise e
    | _ => Command.raise e

/- The outer `try` block. -/
def tryRun : Method Child Unit := do
  ifErrorPipe (onPipe (Pipe.closeReadEnd a.closed))
  c.postFork a
  if c.mAllowNoExe then
    Command.halt (.exit .success)
  else
    c.tryExec a

/- `ChildCloner::runChild`. -/
def runChild : Method Child Unit :=
  (c.tryRun a).handle fun e => do
    ifErrorPipe
      (reportPreExecErrorAndExit a .noError
        (if e.isStd then e.what
          else str "unhandled exception"))
    Command.halt (.exit .preExecError)

end ChildSetup

------------------------------------------------------------
-- When a Report Gets Through
------------------------------------------------------------

namespace Child

/- Both writes of a report are accepted. -/
def Reports (a : ChildAnswers) : Prop :=
  (∃ n, a.errnumWritten = .ok n) ∧
    ∃ n, a.messageWritten = .ok n

/- There is an error pipe with a write end. -/
def CanReport (s : Child) : Prop :=
  ∃ p, s.errorPipe = some p ∧ p.haveWriteEnd = true

/- There is one, whose write end was used up. -/
def HasReported (s : Child) : Prop :=
  ∃ p, s.errorPipe = some p ∧ p.haveWriteEnd = false

theorem run_ifErrorPipe_none
    {s : Child} (hNone : s.errorPipe = none)
    (m : Method Child Unit) :
    (ifErrorPipe m).run s = (.returned (), s) := by
  simp [ifErrorPipe, Command.run_bind, hNone]

theorem run_ifErrorPipe_some
    {s : Child} {p : Pipe} (hSome : s.errorPipe = some p)
    (m : Method Child Unit) :
    (ifErrorPipe m).run s = m.run s := by
  simp [ifErrorPipe, Command.run_bind, hSome]

/- The child after it took the write end for itself. -/
def taken (s : Child) (p : Pipe) : Child :=
  { s with
    errorPipe := some { p with mWriteEnd := {} }
    log :=
      (p.mWriteEnd.owned.map (.settled .handedOut)).reverse ++
        s.log }

theorem hasReported_taken
    (s : Child) (p : Pipe) : (s.taken p).HasReported :=
  ⟨_, rfl, rfl⟩

theorem run_takeWriteEnd
    {s : Child} {p : Pipe} (hSome : s.errorPipe = some p) :
    (onPipe Pipe.takeWriteEndOwnership).run s =
      (.returned p.mWriteEnd, s.taken p) := by
  simp [onPipe, Pipe.takeWriteEndOwnership, taken,
    Command.run_bind, hSome, Frame.run_handOut,
    FileDescriptor.reset]

theorem run_writeError
    {fd : FileDescriptor} (hValid : fd.valid = true)
    (n : Nat) (data : List Byte) (s : Child) :
    (writeError fd (.ok n) data).run s =
      (.returned (),
        { s with sent := s.sent ++ [data.take n] }) := by
  unfold writeError
  rw [if_neg (not_not.mpr hValid)]
  rfl

/- Only what was sent can be another after a write. -/
theorem run_writeError_fails
    {fd : FileDescriptor} {written : Sys Nat}
    (hFails : fd.valid = true → ∀ n, written ≠ .ok n)
    (data : List Byte) (s : Child) :
    ∃ ex,
      (writeError fd written data).run s =
        (.raised ex, s) := by
  unfold writeError
  by_cases hValid : fd.valid = true
  · rw [if_neg (not_not.mpr hValid)]
    cases written with
    | ok n => exact absurd rfl (hFails hValid n)
    | error e => exact ⟨_, rfl⟩
  · rw [if_pos hValid]
    exact ⟨_, rfl⟩

/- An error is reported, and the process ends. -/
theorem run_report
    {a : ChildAnswers} {n m : Nat}
    (hErrnum : a.errnumWritten = .ok n)
    (hMessage : a.messageWritten = .ok m)
    (error : Errno) (description : Str)
    {s : Child} {p : Pipe} (hSome : s.errorPipe = some p)
    (hWrite : p.haveWriteEnd = true) :
    (reportPreExecErrorAndExit a error description).run s =
      (.halted (.exit .preExecError),
        { s.taken p with
          sent :=
            s.sent ++ [(intBytes.encode error.raw).take n] ++
              [description.take m] }) := by
  unfold reportPreExecErrorAndExit
  rw [Command.run_bind_returned (run_takeWriteEnd hSome),
    hErrnum, hMessage,
    Command.run_bind_returned (run_writeError hWrite n _ _),
    Command.run_bind_returned (run_writeError hWrite m _ _)]
  rfl

/- Or it is not, and there is an exception instead. -/
theorem run_report_fails
    {a : ChildAnswers}
    (error : Errno) (description : Str)
    {s : Child} {p : Pipe} (hSome : s.errorPipe = some p)
    (hFails : p.haveWriteEnd = true → ¬ Reports a) :
    ∃ ex s',
      (reportPreExecErrorAndExit a error description).run s =
        (.raised ex, s') ∧
      s'.HasReported := by
  unfold reportPreExecErrorAndExit
  rw [Command.run_bind_returned (run_takeWriteEnd hSome)]
  by_cases hFirst :
      p.haveWriteEnd = true ∧
        ∃ n, a.errnumWritten = .ok n
  · rcases hFirst with ⟨hWrite, n, hErrnum⟩
    have hSecond :
        p.mWriteEnd.valid = true →
          ∀ m, a.messageWritten ≠ .ok m := by
      intro _ m hMessage
      exact hFails hWrite ⟨⟨n, hErrnum⟩, m, hMessage⟩
    rw [hErrnum,
      Command.run_bind_returned (run_writeError hWrite n _ _)]
    rcases
        run_writeError_fails hSecond description
          { s.taken p with
            sent :=
              (s.taken p).sent ++
                [(intBytes.encode error.raw).take n] } with
      ⟨ex, hRun⟩
    refine ⟨ex, _, Command.run_bind_raised hRun _, ?_⟩
    exact ⟨_, rfl, rfl⟩
  · have hError :
        p.mWriteEnd.valid = true →
          ∀ n, a.errnumWritten ≠ .ok n := by
      intro hWrite n hErrnum
      exact hFirst ⟨hWrite, n, hErrnum⟩
    rcases
        run_writeError_fails hError
          (intBytes.encode error.raw) (s.taken p) with
      ⟨ex, hRun⟩
    exact
      ⟨ex, _, Command.run_bind_raised hRun _,
        hasReported_taken s p⟩

end Child

------------------------------------------------------------
-- When a Step Fails
------------------------------------------------------------

theorem attempt_check {σ : Type}
    (msg : String) (answer : Sys Unit) :
    Command.Attempt (check msg answer : Method σ Unit)
      (answer ≠ .ok ()) where
  returns := by
    intro s hNot
    rw [not_not.mp hNot]
    rfl
  raises := by
    intro s hFails
    cases answer with
    | ok done => exact absurd rfl hFails
    | error e => exact ⟨_, rfl⟩

namespace ChildSetup

open Child

variable (c : ChildSetup) (a : ChildAnswers)

/- Something fails before the callback is called. -/
def PrepareFails : Prop :=
  a.unblocked ≠ .ok () ∨
    (c.mCwd ≠ [] ∧ a.changedDir ≠ .ok ()) ∨
    (∃ p ∈ c.redirections,
      p.2.valid = true ∧ a.duplicated p.1 ≠ .ok ()) ∨
    ∃ p ∈ c.mInheritFds.zipIdx, a.flagged p.2 ≠ .ok ()

/- That, or the callback throws. -/
def EarlyFails : Prop :=
  c.PrepareFails a ∨
    ∃ ex, c.mPostForkCb = some (.raised ex)

/- The child gets to `execve`, which fails. -/
def ExecFails : Prop :=
  (∀ h, c.mPostForkCb ≠ some (.halted h)) ∧
    c.mAllowNoExe = false ∧ a.executed ≠ none

/- A step of the child fails. -/
def StepFails : Prop :=
  (c.mForwardChildErrors = true ∧ a.closed ≠ .ok ()) ∨
    c.EarlyFails a ∨ c.ExecFails a

theorem attempt_applySchedSettings :
    Command.Attempt (c.applySchedSettings a) False where
  returns := by
    intro s _
    unfold applySchedSettings
    by_cases hSet : c.hasSchedSettings = true
    · rw [if_pos hSet]
      cases a.scheduled <;> rfl
    · rw [if_neg hSet]
      rfl
  raises := by
    intro _ hFalse
    exact hFalse.elim

theorem attempt_redirectFD
    (orig : FileNum) (redirect : FileDescriptor) :
    Command.Attempt (redirectFD a orig redirect)
      (redirect.valid = true ∧ a.duplicated orig ≠ .ok ()) := by
  refine
    (Command.Attempt.ite
      (fun _ => Command.Attempt.pure)
      (fun _ => attempt_check "dup3()" _)).congr ?_
  simp

theorem attempt_prepare :
    Command.Attempt (c.prepare a) (c.PrepareFails a) := by
  have hChdir :
      Command.Attempt (c.changeDir a)
        (c.mCwd ≠ [] ∧ a.changedDir ≠ .ok ()) :=
    (Command.Attempt.ite
      (fun _ => attempt_check "chdir()" _)
      (fun _ => Command.Attempt.pure)).congr (by simp)
  have hFlags :
      Command.Attempt
        (Command.forEach
          (fun p => check "fcntl(F_SETFD)" (a.flagged p.2))
          c.mInheritFds.zipIdx : Method Child Unit)
        (∃ p ∈ c.mInheritFds.zipIdx,
          a.flagged p.2 ≠ .ok ()) :=
    Command.Attempt.forEach
      (fun p => attempt_check "fcntl(F_SETFD)" _) _
  have hAll :=
    (c.attempt_applySchedSettings a).seq
      ((attempt_check "pthread_sigmask()" a.unblocked).seq
        (hChdir.seq
          ((attempt_redirectFD a FileNum.stdout
              c.mStdout).seq
            ((attempt_redirectFD a FileNum.stderr
                c.mStderr).seq
              ((attempt_redirectFD a FileNum.stdin
                  c.mStdin).seq hFlags)))))
  unfold prepare resetSignals
  refine hAll.congr ?_
  simp only [PrepareFails, ChildCloner.redirections,
    List.mem_cons, List.not_mem_nil, or_false,
    exists_eq_or_imp, exists_eq_left, false_or, or_assoc]

/- A callback that returns, throws or ends the process. -/
theorem run_callPostForkCb (s : Child) :
    c.callPostForkCb.run s =
      match c.mPostForkCb with
      | none => (.returned (), s)
      | some outcome => (outcome, s) := by
  unfold callPostForkCb
  cases c.mPostForkCb <;> rfl

------------------------------------------------------------
-- The Program
------------------------------------------------------------

theorem run_exec (s : Child) :
    (c.exec a).run s =
      (match a.executed with
        | none => .halted .exec
        | some e => .raised (.apiError e (str "execvpe()")),
        { s with
          execArgs := some (c.mArgv, c.mEnv) }) := by
  unfold exec
  rw [Command.run_bind]
  cases a.executed <;> rfl

theorem run_tryExec_works
    (hWorks : a.executed = none) (s : Child) :
    ∃ h s', (c.tryExec a).run s = (.halted h, s') := by
  unfold tryExec
  rw [Command.run_handle, run_exec, hWorks]
  exact ⟨_, _, rfl⟩

/- A failing `execve`, if nobody is told about it. -/
theorem run_tryExec_silent
    {s : Child} (hNone : s.errorPipe = none) :
    (∃ h s', (c.tryExec a).run s = (.halted h, s')) ∨
      ∃ ex s',
        (c.tryExec a).run s = (.raised ex, s') ∧
          s'.errorPipe = none := by
  unfold tryExec
  rw [Command.run_handle, run_exec]
  cases a.executed with
  | none => exact Or.inl ⟨_, _, rfl⟩
  | some e =>
      simp only
      rw [Command.run_bind_returned
        (run_ifErrorPipe_none (by exact hNone) _)]
      cases exitStatusOf e with
      | some status => exact Or.inl ⟨_, _, rfl⟩
      | none => exact Or.inr ⟨_, _, rfl, hNone⟩

/- One that can be reported. -/
theorem run_tryExec_reports
    {s : Child} (hCan : s.CanReport) (hReports : Reports a) :
    ∃ h s', (c.tryExec a).run s = (.halted h, s') := by
  rcases hCan with ⟨p, hSome, hWrite⟩
  rcases hReports with ⟨⟨n, hErrnum⟩, m, hMessage⟩
  unfold tryExec
  rw [Command.run_handle, run_exec]
  cases a.executed with
  | none => exact ⟨_, _, rfl⟩
  | some e =>
      simp only
      rw [Command.run_bind,
        run_ifErrorPipe_some (by exact hSome),
        run_report hErrnum hMessage _ _ (by exact hSome)
          hWrite]
      exact ⟨_, _, rfl⟩

/- And one that cannot, because a write fails. -/
theorem run_tryExec_unreported
    {s : Child} {e : Errno} {p : Pipe}
    (hSome : s.errorPipe = some p)
    (hFails : a.executed = some e)
    (hNot : ¬ Reports a) :
    ∃ ex s',
      (c.tryExec a).run s = (.raised ex, s') ∧
        s'.HasReported := by
  unfold tryExec
  rw [Command.run_handle, run_exec, hFails]
  simp only
  rcases
      run_report_fails (a := a) e
        (Exn.apiError e (str "execvpe()")).what
        (s :=
          { s with execArgs := some (c.mArgv, c.mEnv) })
        (by exact hSome) (fun _ => hNot) with
    ⟨ex, s', hRun, hReported⟩
  refine ⟨ex, s', ?_, hReported⟩
  rw [Command.run_bind,
    run_ifErrorPipe_some (by exact hSome), hRun]

------------------------------------------------------------
-- The Body
------------------------------------------------------------

/- What comes behind closing the read end. -/
def rest : Method Child Unit := do
  c.postFork a
  if c.mAllowNoExe then
    Command.halt (.exit .success)
  else
    c.tryExec a

/- A failure before `execve` changes nothing. -/
theorem run_rest_early
    (hEarly : c.EarlyFails a) (s : Child) :
    ∃ ex, (c.rest a).run s = (.raised ex, s) := by
  unfold rest postFork
  by_cases hPrepare : c.PrepareFails a
  · rcases (c.attempt_prepare a).raises s hPrepare with
      ⟨ex, hRun⟩
    refine ⟨ex, ?_⟩
    rw [Command.run_bind, Command.run_bind_raised hRun]
  · rcases hEarly with hFails | ⟨ex, hCb⟩
    · exact absurd hFails hPrepare
    · have hRun :=
        (c.attempt_prepare a).returns s hPrepare
      refine ⟨ex, ?_⟩
      rw [Command.run_bind, Command.run_bind_returned hRun,
        run_callPostForkCb, hCb]

/- Otherwise it ends the process or gets to `execve`. -/
theorem run_rest
    (hEarly : ¬ c.EarlyFails a) (s : Child) :
    (∃ h s', (c.rest a).run s = (.halted h, s')) ∧
        ((∃ h, c.mPostForkCb = some (.halted h)) ∨
          c.mAllowNoExe = true) ∨
      (c.rest a).run s = (c.tryExec a).run s ∧
        (∀ h, c.mPostForkCb ≠ some (.halted h)) ∧
          c.mAllowNoExe = false := by
  unfold EarlyFails at hEarly
  rw [not_or] at hEarly
  have hRun := (c.attempt_prepare a).returns s hEarly.1
  have hPost :
      (c.postFork a).run s = c.callPostForkCb.run s := by
    unfold postFork
    rw [Command.run_bind_returned hRun]
  unfold rest
  rw [Command.run_bind, hPost, run_callPostForkCb]
  have hThen :
      (∃ h s',
          (if c.mAllowNoExe = true then
            Command.halt (.exit .success)
          else c.tryExec a).run s = (.halted h, s')) ∧
          c.mAllowNoExe = true ∨
        (if c.mAllowNoExe = true then
            Command.halt (.exit .success)
          else c.tryExec a).run s = (c.tryExec a).run s ∧
          c.mAllowNoExe = false := by
    cases c.mAllowNoExe with
    | true => exact Or.inl ⟨⟨_, _, rfl⟩, rfl⟩
    | false => exact Or.inr ⟨rfl, rfl⟩
  cases hCb : c.mPostForkCb with
  | none =>
      rcases hThen with ⟨hHalts, hAllow⟩ | ⟨hSame, hAllow⟩
      · exact Or.inl ⟨hHalts, Or.inr hAllow⟩
      · refine Or.inr ⟨hSame, ?_, hAllow⟩
        intro h hSome
        cases hSome
  | some outcome =>
      cases outcome with
      | returned done =>
          rcases hThen with
            ⟨hHalts, hAllow⟩ | ⟨hSame, hAllow⟩
          · exact Or.inl ⟨hHalts, Or.inr hAllow⟩
          · refine Or.inr ⟨hSame, ?_, hAllow⟩
            intro h hSome
            cases hSome
      | raised ex => exact absurd ⟨ex, hCb⟩ hEarly.2
      | halted h =>
          exact Or.inl ⟨⟨h, s, rfl⟩, Or.inl ⟨h, rfl⟩⟩

------------------------------------------------------------
-- How the Child Ends
------------------------------------------------------------

/- The handler of the outer `try` block. -/
def handler (ex : Exn) : Method Child Unit := do
  ifErrorPipe
    (reportPreExecErrorAndExit a .noError
      (if ex.isStd then ex.what
        else str "unhandled exception"))
  Command.halt (.exit .preExecError)

/- Without an error pipe there is nothing that can throw. -/
theorem run_handler_silent
    (ex : Exn) {s : Child} (hNone : s.errorPipe = none) :
    (handler a ex).run s =
      (.halted (.exit .preExecError), s) := by
  unfold handler
  rw [Command.run_bind_returned
    (run_ifErrorPipe_none hNone _)]
  rfl

theorem run_handler_reports
    (ex : Exn) {s : Child}
    (hCan : s.CanReport) (hReports : Reports a) :
    ∃ h s', (handler a ex).run s = (.halted h, s') := by
  rcases hCan with ⟨p, hSome, hWrite⟩
  rcases hReports with ⟨⟨n, hErrnum⟩, m, hMessage⟩
  unfold handler
  rw [Command.run_bind, run_ifErrorPipe_some hSome,
    run_report hErrnum hMessage _ _ hSome hWrite]
  exact ⟨_, _, rfl⟩

/- A report that fails leaves the handler. -/
theorem run_handler_unreported
    (ex : Exn) {s : Child} {p : Pipe}
    (hSome : s.errorPipe = some p)
    (hFails : p.haveWriteEnd = true → ¬ Reports a) :
    ∃ ex' s', (handler a ex).run s = (.raised ex', s') := by
  unfold handler
  rcases
      run_report_fails .noError
        (if ex.isStd then ex.what
          else str "unhandled exception") hSome hFails with
    ⟨ex', s', hRun, -⟩
  refine ⟨ex', s', ?_⟩
  apply Command.run_bind_raised
  rw [run_ifErrorPipe_some hSome]
  exact hRun

theorem runChild_eq :
    c.runChild a = (c.tryRun a).handle (handler a) :=
  rfl

theorem tryRun_eq :
    c.tryRun a =
      (ifErrorPipe (onPipe (Pipe.closeReadEnd a.closed)) >>=
        fun _ => c.rest a) :=
  rfl

/- A child that tells nobody ends in any case. -/
theorem runChild_ends_silent
    {s : Child} (hNone : s.errorPipe = none) :
    ∃ h s', (c.runChild a).run s = (.halted h, s') := by
  have hTry :
      (∃ h s', (c.tryRun a).run s = (.halted h, s')) ∨
        ∃ ex s',
          (c.tryRun a).run s = (.raised ex, s') ∧
            s'.errorPipe = none := by
    rw [tryRun_eq, Command.run_bind_returned
      (run_ifErrorPipe_none hNone _)]
    by_cases hEarly : c.EarlyFails a
    · rcases c.run_rest_early a hEarly s with ⟨ex, hRun⟩
      exact Or.inr ⟨ex, s, hRun, hNone⟩
    · rcases c.run_rest a hEarly s with
        ⟨hHalts, -⟩ | ⟨hSame, -⟩
      · exact Or.inl hHalts
      · rw [hSame]
        exact c.run_tryExec_silent a hNone
  rw [runChild_eq, Command.run_handle]
  rcases hTry with ⟨h, s', hRun⟩ | ⟨ex, s', hRun, hAfter⟩
  · rw [hRun]
    exact ⟨h, s', rfl⟩
  · rw [hRun]
    exact ⟨_, _, run_handler_silent a ex hAfter⟩

/- The body of a child that has an error pipe. -/
theorem run_tryRun
    {s : Child} {p : Pipe} (hSome : s.errorPipe = some p)
    (hRead : p.haveReadEnd = true) :
    ∃ s',
      s'.errorPipe = some { p with mReadEnd := {} } ∧
        (c.tryRun a).run s =
          match a.closed with
          | .ok () => (c.rest a).run s'
          | .error e =>
              (.raised (.apiError e (str "close()")), s') := by
  have hOwned : p.mReadEnd.owned ≠ [] := by
    unfold Pipe.haveReadEnd at hRead
    simp [FileDescriptor.owned, hRead]
  have hClose :=
    Pipe.run_closeReadEnd a.closed ⟨p, s.log⟩
  simp only [if_neg hOwned] at hClose
  refine
    ⟨{ s with
        errorPipe := some { p with mReadEnd := {} }
        log :=
          (p.mReadEnd.owned.map
            (.settled .closed)).reverse ++ s.log },
      rfl, ?_⟩
  rw [tryRun_eq, Command.run_bind, run_ifErrorPipe_some hSome]
  simp only [onPipe, Command.run_focus, hSome,
    Option.getD_some, hClose]
  cases a.closed with
  | ok done => rfl
  | error e => rfl

/- How the body ends if the child can report. -/
theorem run_tryRun_telling
    {s : Child} {p : Pipe} (hSome : s.errorPipe = some p)
    (hForward : c.mForwardChildErrors = true)
    (hRead : p.haveReadEnd = true)
    (hWrite : p.haveWriteEnd = true) :
    (∃ h s', (c.tryRun a).run s = (.halted h, s')) ∧
        (¬ c.StepFails a ∨ Reports a) ∨
      c.StepFails a ∧
        ∃ ex s' q,
          (c.tryRun a).run s = (.raised ex, s') ∧
            s'.errorPipe = some q ∧
            (Reports a → q.haveWriteEnd = true) := by
  rcases c.run_tryRun a hSome hRead with ⟨s', hPipe, hRun⟩
  rw [hRun]
  cases hClosed : a.closed with
  | error e =>
      refine Or.inr ⟨Or.inl ⟨hForward, ?_⟩, ?_⟩
      · rw [hClosed]
        intro hOk
        cases hOk
      · exact ⟨_, s', _, rfl, hPipe, fun _ => hWrite⟩
  | ok done =>
      simp only
      by_cases hEarly : c.EarlyFails a
      · rcases c.run_rest_early a hEarly s' with ⟨ex, hRest⟩
        rw [hRest]
        exact
          Or.inr
            ⟨Or.inr (Or.inl hEarly), ex, s', _, rfl, hPipe,
              fun _ => hWrite⟩
      · rcases c.run_rest a hEarly s' with
          ⟨⟨h, t, hRest⟩, hEnds⟩ | ⟨hSame, hGoes⟩
        · rw [hRest]
          refine Or.inl ⟨⟨h, t, rfl⟩, Or.inl ?_⟩
          rintro (hClose | hFails | hExec)
          · exact hClose.2 hClosed
          · exact hEarly hFails
          · rcases hEnds with ⟨h', hCb⟩ | hAllow
            · exact hExec.1 h' hCb
            · rw [hExec.2.1] at hAllow
              cases hAllow
        · rw [hSame]
          cases hExec : a.executed with
          | none =>
              refine
                Or.inl ⟨c.run_tryExec_works a hExec s',
                  Or.inl ?_⟩
              rintro (hClose | hFails | hFails)
              · exact hClose.2 hClosed
              · exact hEarly hFails
              · exact hFails.2.2 hExec
          | some e =>
              by_cases hReports : Reports a
              · exact
                  Or.inl
                    ⟨c.run_tryExec_reports a
                      ⟨_, hPipe, hWrite⟩ hReports,
                      Or.inr hReports⟩
              · rcases
                    c.run_tryExec_unreported a hPipe hExec
                      hReports with
                  ⟨ex, t, hThrows, q, hLeft, -⟩
                have hFails : c.ExecFails a := by
                  refine ⟨hGoes.1, hGoes.2, ?_⟩
                  rw [hExec]
                  exact Option.some_ne_none e
                exact
                  Or.inr
                    ⟨Or.inr (Or.inr hFails), ex, t, q,
                      hThrows, hLeft,
                      fun hYes => absurd hYes hReports⟩

/- And of one that can report. -/
theorem runChild_ends_telling
    {s : Child} {p : Pipe} (hSome : s.errorPipe = some p)
    (hForward : c.mForwardChildErrors = true)
    (hRead : p.haveReadEnd = true)
    (hWrite : p.haveWriteEnd = true) :
    (∃ h s', (c.runChild a).run s = (.halted h, s')) ↔
      ¬ c.StepFails a ∨ Reports a := by
  rw [runChild_eq, Command.run_handle]
  rcases
      c.run_tryRun_telling a hSome hForward hRead hWrite with
    ⟨⟨h, s', hRun⟩, hGood⟩ | ⟨hFails, ex, s', q, hRun, hPipe,
      hStill⟩
  · rw [hRun]
    exact iff_of_true ⟨h, s', rfl⟩ hGood
  · rw [hRun]
    by_cases hReports : Reports a
    · exact
        iff_of_true
          (run_handler_reports a ex
            ⟨q, hPipe, hStill hReports⟩ hReports)
          (Or.inr hReports)
    · rcases
          run_handler_unreported a ex hPipe
            (fun _ => hReports) with
        ⟨ex', t, hHandled⟩
      refine iff_of_false ?_ ?_
      · rintro ⟨h, t', hHalts⟩
        simp only [hHandled] at hHalts
        cases hHalts
      · rintro (hNot | hYes)
        · exact hNot hFails
        · exact hReports hYes

/-
  The child of `run` as it is after the fork. The pipe was
  made by the parent.
-/
def start (ends : NewPipe) : Child where
  errorPipe :=
    if c.mForwardChildErrors then some ends.pipe else none
  log := []
  sent := []
  execArgs := none

/-
  The child ends in `execve` or in `proc::exit` exactly if
  it need not report anything or the report is written. In
  any other case an exception leaves `runChild`.
-/
theorem runChild_ends_iff (ends : NewPipe) :
    (∃ h s',
      (c.runChild a).run (c.start ends) =
        (.halted h, s')) ↔
      c.mForwardChildErrors = false ∨ ¬ c.StepFails a ∨
        Reports a := by
  cases hForward : c.mForwardChildErrors with
  | false =>
      have hNone : (c.start ends).errorPipe = none := by
        simp [start, hForward]
      exact
        iff_of_true (c.runChild_ends_silent a hNone)
          (Or.inl rfl)
  | true =>
      have hSome :
          (c.start ends).errorPipe = some ends.pipe := by
        simp [start, hForward]
      rw [c.runChild_ends_telling a hSome hForward
        ends.haveReadEnd ends.haveWriteEnd]
      simp

/-
  The program is not found and the parent is gone. The first
  report fails with `EPIPE`. The outer handler reports this,
  to a write end that is not there any more.
-/
theorem broken_pipe_leaves_runChild :
    let c : ChildSetup :=
      { mExecutable := str "none"
        mArgv := [str "none"]
        mForwardChildErrors := true }
    let a : ChildAnswers :=
      { closed := .ok ()
        scheduled := .ok ()
        unblocked := .ok ()
        changedDir := .ok ()
        duplicated := fun _ => .ok ()
        flagged := fun _ => .ok ()
        executed := some .noEntry
        errnumWritten := .error .brokenPipe
        messageWritten := .error .brokenPipe }
    ((c.runChild a).run
        (c.start ⟨⟨3⟩, ⟨4⟩, by decide, by decide⟩)).1 =
      .raised (.apiError .badFd (str "write()")) := by
  rfl

end ChildSetup

end Cosmos
