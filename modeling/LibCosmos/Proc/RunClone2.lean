import LibCosmos.Foundation.Machine
import LibCosmos.IO.EventFile
import LibCosmos.Proc.ProcessFile
import LibCosmos.Proc.SubProc

/-
  Parent and child after a fork without `clone3()`
  (`runClone2` in `src/proc/ChildCloner.cxx`).

  The child waits for an event that the parent signals when
  it has a pidfd. If something fails then the parent kills
  the child and waits for it. Both go on independently; a
  step of the parent is one statement of the function.

  Main declarations:
    * `RunClone2.Answers`, `RunClone2.Handshake`
    * `RunClone2.parentStep`, `RunClone2.childStep`
    * `RunClone2.Step`, `RunClone2.Inv`
    * `RunClone2.handshake_safe`
-/

namespace Cosmos

namespace RunClone2

open Custody

------------------------------------------------------------
-- States
------------------------------------------------------------

/-
  What the kernel answers: to the parent, to whom a call of
  `pidfd_open()` that succeeds gives a descriptor, and to
  the child that reads the event.
-/
structure Answers where
  created : Sys FileNum
  forked : Sys ProcessID
  opened : Sys FileNum
  written : Sys UInt64
  closed : Sys Unit
  sent : Sys Unit
  collected : Sys SigInfo
  read : Sys UInt64
  opened_valid : ∀ fd, opened = .ok fd → fd ≠ .invalid

/- What became of the child. -/
inductive Child where
| unborn
| waiting
| proceeding
| zombie
| reaped
deriving DecidableEq, Repr

/- The child runs. -/
def Child.lives : Child → Bool
| .waiting => true
| .proceeding => true
| _ => false

/- It runs or can be waited for. -/
def Child.present : Child → Bool
| .unborn => false
| .reaped => false
| _ => true

/-
  The statement of `runClone2` that the parent comes to:
  the constructor of `ev`, `fork`, the constructor of
  `pidfile`, `ev.signal`, the hand-over, the destructor of
  `pidfile` behind an exception, and the two in the handler.
-/
inductive Phase where
| creating
| forking
| opening (pid : ProcessID)
| signalling (pid : ProcessID) (pidfd : FileDescriptor)
| handing (pid : ProcessID) (pidfd : FileDescriptor)
| unwinding (ex : Exn)
| killing (ex : Exn)
| waiting (ex : Exn)
| thrown (ex : Exn)
| returned (p : SubProc)
deriving DecidableEq, Repr

/- `runClone2` has returned or thrown in the parent. -/
def Phase.over : Phase → Bool
| .thrown _ => true
| .returned _ => true
| _ => false

/- How many statements there can be until then. -/
def Phase.left : Phase → Nat
| .creating => 7
| .forking => 6
| .opening _ => 5
| .signalling _ _ => 4
| .handing _ _ => 3
| .unwinding _ => 3
| .killing _ => 2
| .waiting _ => 1
| .thrown _ => 0
| .returned _ => 0

/-
  Both processes, the event they share, the log of the
  pidfds, and what happened: the event was written, the
  child got through, and it was sent `SIGKILL`.
-/
structure Handshake where
  event : EventFile
  pidfile : ProcessFile
  log : List (Entry FileNum)
  child : Child
  parent : Phase
  written : Bool
  passed : Bool
  killed : Bool
deriving DecidableEq

def start : Handshake where
  event := ⟨0⟩
  pidfile := {}
  log := []
  child := .unborn
  parent := .creating
  written := false
  passed := false
  killed := false

------------------------------------------------------------
-- The Code
------------------------------------------------------------

/- `UnsafeProcessFile::invalidate`. -/
def invalidate (p : ProcessFile) : ProcessFile :=
  ⟨p.mFd.reset⟩

/- `signal::send`, the `try` block in the handler. -/
def sendKill (sent : Sys Unit) : Method Handshake Unit :=
  Command.handle
    (do
      check "kill()" sent
      Command.modify fun s => { s with killed := true })
    -- a failure is only reported
    fun ex => if ex.isStd then pure () else Command.raise ex

/- The next statement of the parent. -/
def parentStep (a : Answers) (s : Handshake) : Handshake :=
  match s.parent with
  | .creating =>
      match (EventFile.create 0 a.created).run s.event with
      | (.returned _, event) =>
          { s with event := event, parent := .forking }
      | (.raised ex, _) => { s with parent := .thrown ex }
      | (.halted _, _) => s
  | .forking =>
      match (check "fork()" a.forked).run s with
      | (.returned pid, _) =>
          { s with child := .waiting, parent := .opening pid }
      | (.raised ex, _) => { s with parent := .thrown ex }
      | (.halted _, _) => s
  | .opening pid =>
      match (ProcessFile.openPid a.opened).run ⟨{}, s.log⟩ with
      | (.returned _, pidfile) =>
          { s with
            pidfile := pidfile.this
            log := pidfile.log
            parent := .signalling pid pidfile.this.mFd }
      | (.raised ex, pidfile) =>
          { s with log := pidfile.log, parent := .killing ex }
      | (.halted _, _) => s
  | .signalling pid pidfd =>
      match (EventFile.signal 1 a.written).run s.event with
      | (.returned _, event) =>
          { s with
            event := event
            written := a.written.isOk
            parent := .handing pid pidfd }
      | (.raised ex, event) =>
          { s with
            event := event
            written := a.written.isOk
            parent := .unwinding ex }
      | (.halted _, _) => s
  | .handing pid pidfd =>
      let frame :=
        ((ProcessFile.destroy a.closed).run
          ⟨invalidate s.pidfile, s.log⟩).2
      { s with
        pidfile := frame.this
        log := frame.log
        parent := .returned ⟨pid, pidfd⟩ }
  | .unwinding ex =>
      let frame :=
        ((ProcessFile.destroy a.closed).run
          ⟨s.pidfile, s.log⟩).2
      { s with
        pidfile := frame.this
        log := frame.log
        parent := .killing ex }
  | .killing ex =>
      match (sendKill a.sent).run s with
      | (.returned _, s') => { s' with parent := .waiting ex }
      | (.raised ex', s') => { s' with parent := .thrown ex' }
      | (.halted _, _) => s
  | .waiting ex =>
      match (Proc.wait false a.collected).run s with
      | (.returned _, _) =>
          { s with child := .reaped, parent := .thrown ex }
      | (.raised ex', _) => { s with parent := .thrown ex' }
      | (.halted _, _) => s
  | .thrown _ => s
  | .returned _ => s

/- The child in the `else` branch of the fork. -/
def childStep (a : Answers) (s : Handshake) : Handshake :=
  match (EventFile.wait a.read).run s.event with
  | (.returned _, event) =>
      { s with
        event := event
        child := .proceeding
        passed := true }
  | (.raised _, event) =>
      -- `proc::exit(ExitStatus::PRE_EXEC_ERROR)`
      { s with event := event, child := .zombie }
  | (.halted _, _) => s

/-
  Waiting for the child succeeds when it has ended; nothing
  else makes the parent wait.
-/
def ParentReady (a : Answers) (s : Handshake) : Prop :=
  match s.parent with
  | .waiting _ =>
      a.collected.isOk = true → s.child = .zombie
  | .thrown _ => False
  | .returned _ => False
  | _ => True

/-
  One of the processes goes on. The child can end by itself
  or through a signal, and at any time.
-/
inductive Step (a : Answers) :
    Handshake → Handshake → Prop where
| parent {s : Handshake} :
    ParentReady a s → Step a s (parentStep a s)
| child {s : Handshake} :
    s.child = .waiting → s.event.Answers a.read →
    Step a s (childStep a s)
| ended {s : Handshake} :
    s.child.lives = true →
    Step a s { s with child := .zombie }

/- What can come about. -/
def Reachable (a : Answers) (s : Handshake) : Prop :=
  Relation.ReflTransGen (Step a) start s

------------------------------------------------------------
-- What Is Promised
------------------------------------------------------------

/- Who can own the pidfd. -/
inductive Owner where
| pidfile
| subProc
deriving DecidableEq, Repr

def Handshake.holds (s : Handshake) : Owner → List FileNum
| .pidfile => s.pidfile.owned
| .subProc =>
    match s.parent with
    | .returned p => p.owned
    | _ => []

/-
  No statement of the handler fails: `kill()` reaches the
  child and `waitid()` waits for it.
-/
def Answers.CleansUp (a : Answers) : Prop :=
  a.sent.isOk = true ∧ a.collected.isOk = true

/- The parent has obtained a pidfd. -/
def Handshake.Obtained (a : Answers) (s : Handshake) : Prop :=
  ∃ fd, a.opened = .ok fd ∧ Entry.acquired fd ∈ s.log

/-
  What holds of the processes at any time: for a child that
  got through, for a parent that threw, and for one that
  returned a `SubProc`.
-/
structure Handshake.Safe
    (a : Answers) (s : Handshake) : Prop where
  passes :
    s.passed = true → s.Obtained a ∧ s.written = true
  throws :
    ∀ ex, s.parent = .thrown ex →
      (s.passed = true → s.written = true) ∧
      Books s.holds s.log ∅ ∧
      (s.child ≠ .unborn → a.CleansUp →
        s.killed = true ∧ s.child = .reaped)
  returns :
    ∀ p, s.parent = .returned p →
      a.forked = .ok p.mPid ∧
      ∃ fd, a.opened = .ok fd ∧ p.owned = [fd] ∧
        Books s.holds s.log {fd}

------------------------------------------------------------
-- The Invariant
------------------------------------------------------------

/- `pidfile` owns the pidfd, the only one so far. -/
def Handshake.Holding
    (a : Answers) (s : Handshake) (fd : FileNum) : Prop :=
  a.opened = .ok fd ∧ s.pidfile = ⟨⟨fd⟩⟩ ∧
    s.log = [.acquired fd]

/- There is no pidfd, or none any more. -/
def Handshake.Freed (s : Handshake) : Prop :=
  s.pidfile.owned = [] ∧ outstanding s.log = some ∅

/- What holds when the parent comes to a statement. -/
def Handshake.At (a : Answers) (s : Handshake) : Prop :=
  match s.parent with
  | .creating =>
      s.child = .unborn ∧ s.pidfile = {} ∧ s.log = [] ∧
        s.written = false
  | .forking =>
      s.child = .unborn ∧ s.pidfile = {} ∧ s.log = [] ∧
        s.written = false
  | .opening pid =>
      s.child.present = true ∧ a.forked = .ok pid ∧
        s.pidfile = {} ∧ s.log = [] ∧ s.written = false
  | .signalling pid pidfd =>
      s.child.present = true ∧ a.forked = .ok pid ∧
        s.Holding a pidfd.mFd ∧ s.written = false
  | .handing pid pidfd =>
      a.forked = .ok pid ∧ s.Holding a pidfd.mFd
  | .unwinding _ =>
      s.child.present = true ∧ ∃ fd, s.Holding a fd
  | .killing _ => s.child.present = true ∧ s.Freed
  | .waiting _ =>
      s.child.present = true ∧ s.Freed ∧
        (a.sent.isOk = true → s.killed = true)
  | .thrown _ =>
      s.Freed ∧
        (s.child ≠ .unborn → a.CleansUp →
          s.killed = true ∧ s.child = .reaped)
  | .returned p =>
      a.forked = .ok p.mPid ∧
        ∃ fd, a.opened = .ok fd ∧ p.mChildFd = ⟨fd⟩ ∧
          s.pidfile.owned = [] ∧ s.log = [.acquired fd]

/-
  The counter tells whether the event was written, and it is
  written after the pidfd was obtained.
-/
structure Inv (a : Answers) (s : Handshake) : Prop where
  quiet : s.written = false → s.event.counter = 0
  passes : s.passed = true → s.written = true
  writes : s.written = true → s.Obtained a
  stage : s.At a

theorem inv_start (a : Answers) : Inv a start where
  quiet _ := rfl
  passes hPassed := by
    cases hPassed
  writes hWritten := by
    cases hWritten
  stage := ⟨rfl, rfl, rfl, rfl⟩

/- The pidfd of an answer is one that is owned. -/
theorem Answers.owned_opened
    {a : Answers} {fd : FileNum}
    (hOpened : a.opened = .ok fd) :
    FileDescriptor.owned ⟨fd⟩ = [fd] :=
  FileDescriptor.owned_of_ne (a.opened_valid fd hOpened)

/- A log of one pidfd that was closed. -/
theorem outstanding_closed (fd : FileNum) :
    outstanding [.settled .closed fd, .acquired fd] =
      some ∅ := by
  simp [outstanding]

theorem freed_of_untouched
    {s : Handshake}
    (hFile : s.pidfile = {}) (hLog : s.log = []) :
    s.Freed := by
  constructor
  · rw [hFile]
    rfl
  · rw [hLog]
    rfl

/- The destructor of `pidfile` closes the pidfd. -/
theorem freed_of_destroyed
    {a : Answers} {s : Handshake} {fd : FileNum}
    (hHolding : s.Holding a fd) :
    ∃ p log,
      (ProcessFile.destroy a.closed).run
          ⟨s.pidfile, s.log⟩ = (.returned (), ⟨p, log⟩) ∧
        p.owned = [] ∧
        log = [.settled .closed fd, .acquired fd] := by
  rcases hHolding with ⟨hOpened, hFile, hLog⟩
  rcases
      ProcessFile.run_destroy a.closed
        ⟨s.pidfile, s.log⟩ with
    ⟨p, log, hRun, hNone, hClosed⟩
  refine ⟨p, log, hRun, hNone, ?_⟩
  have hOwned : s.pidfile.owned = [fd] := by
    rw [hFile]
    exact Answers.owned_opened hOpened
  simpa [hOwned, hLog] using hClosed

/- A file that was invalidated has nothing to close. -/
theorem run_destroy_invalidated
    (closed : Sys Unit) (p : ProcessFile)
    (log : List (Entry FileNum)) :
    ∃ p',
      (ProcessFile.destroy closed).run
          ⟨invalidate p, log⟩ = (.returned (), ⟨p', log⟩) ∧
        p'.owned = [] := by
  rcases ProcessFile.run_destroy closed
      ⟨invalidate p, log⟩ with
    ⟨p', log', hRun, hNone, hLog⟩
  have hSame : log' = log := by
    simpa [invalidate, ProcessFile.owned,
      FileDescriptor.reset] using hLog
  exact ⟨p', hSame ▸ hRun, hNone⟩

------------------------------------------------------------
-- Steps of the Parent
------------------------------------------------------------

section ParentSteps

variable {a : Answers} {s : Handshake} (hInv : Inv a s)

include hInv

theorem Inv.create (hParent : s.parent = .creating) :
    Inv a (parentStep a s) := by
  have hStage := hInv.stage
  unfold Handshake.At at hStage
  simp only [hParent] at hStage
  rcases hStage with ⟨hChild, hFile, hLog, hWritten⟩
  unfold parentStep
  simp only [hParent]
  cases a.created with
  | ok fd =>
      exact
        { quiet := fun _ => rfl
          passes := hInv.passes
          writes := hInv.writes
          stage := ⟨hChild, hFile, hLog, hWritten⟩ }
  | error e =>
      exact
        { quiet := hInv.quiet
          passes := hInv.passes
          writes := hInv.writes
          stage :=
            ⟨freed_of_untouched hFile hLog,
              fun hBorn => absurd hChild hBorn⟩ }

theorem Inv.fork (hParent : s.parent = .forking) :
    Inv a (parentStep a s) := by
  have hStage := hInv.stage
  unfold Handshake.At at hStage
  simp only [hParent] at hStage
  rcases hStage with ⟨hChild, hFile, hLog, hWritten⟩
  unfold parentStep
  simp only [hParent]
  cases hForked : a.forked with
  | ok pid =>
      exact
        { quiet := hInv.quiet
          passes := hInv.passes
          writes := hInv.writes
          stage := ⟨rfl, hForked, hFile, hLog, hWritten⟩ }
  | error e =>
      exact
        { quiet := hInv.quiet
          passes := hInv.passes
          writes := hInv.writes
          stage :=
            ⟨freed_of_untouched hFile hLog,
              fun hBorn => absurd hChild hBorn⟩ }

theorem Inv.openPid
    {pid : ProcessID} (hParent : s.parent = .opening pid) :
    Inv a (parentStep a s) := by
  have hStage := hInv.stage
  unfold Handshake.At at hStage
  simp only [hParent] at hStage
  rcases hStage with
    ⟨hPresent, hForked, hFile, hLog, hWritten⟩
  have hNot : s.written ≠ true := by simp [hWritten]
  unfold parentStep
  simp only [hParent]
  cases hOpened : a.opened with
  | ok fd =>
      have hHolding :
          Entry.acquired fd :: s.log = [.acquired fd] := by
        rw [hLog]
      exact
        { quiet := hInv.quiet
          passes := hInv.passes
          writes := fun hDone => absurd hDone hNot
          stage :=
            ⟨hPresent, hForked, ⟨hOpened, rfl, hHolding⟩,
              hWritten⟩ }
  | error e =>
      exact
        { quiet := hInv.quiet
          passes := hInv.passes
          writes := hInv.writes
          stage :=
            ⟨hPresent, freed_of_untouched hFile hLog⟩ }

theorem Inv.signal
    {pid : ProcessID} {pidfd : FileDescriptor}
    (hParent : s.parent = .signalling pid pidfd) :
    Inv a (parentStep a s) := by
  have hStage := hInv.stage
  unfold Handshake.At at hStage
  simp only [hParent] at hStage
  rcases hStage with
    ⟨hPresent, hForked, hHolding, hWritten⟩
  have hObtained : s.Obtained a :=
    ⟨pidfd.mFd, hHolding.1, by simp [hHolding.2.2]⟩
  have hEarly : s.passed ≠ true := by
    intro hPassed
    simp [hInv.passes hPassed] at hWritten
  unfold parentStep
  simp only [hParent]
  cases hAnswer : a.written with
  | ok bytes =>
      rw [EventFile.run_signal_ok]
      by_cases hShort : bytes ≠ EventFile.counterSize
      · rw [if_pos hShort]
        exact
          { quiet := fun hUnwritten => by cases hUnwritten
            passes := fun _ => rfl
            writes := fun _ => hObtained
            stage := ⟨hPresent, pidfd.mFd, hHolding⟩ }
      · rw [if_neg hShort]
        exact
          { quiet := fun hUnwritten => by cases hUnwritten
            passes := fun _ => rfl
            writes := fun _ => hObtained
            stage := ⟨hForked, hHolding⟩ }
  | error e =>
      rw [EventFile.run_signal_error]
      exact
        { quiet := fun _ => hInv.quiet hWritten
          passes := fun hPassed => absurd hPassed hEarly
          writes := fun hDone => by cases hDone
          stage := ⟨hPresent, pidfd.mFd, hHolding⟩ }

theorem Inv.handOver
    {pid : ProcessID} {pidfd : FileDescriptor}
    (hParent : s.parent = .handing pid pidfd) :
    Inv a (parentStep a s) := by
  have hStage := hInv.stage
  unfold Handshake.At at hStage
  simp only [hParent] at hStage
  rcases hStage with ⟨hForked, hOpened, hFile, hLog⟩
  rcases
      run_destroy_invalidated a.closed s.pidfile s.log with
    ⟨p, hRun, hNone⟩
  unfold parentStep
  simp only [hParent, hRun]
  exact
    { quiet := hInv.quiet
      passes := hInv.passes
      writes := hInv.writes
      stage :=
        ⟨hForked, pidfd.mFd, hOpened, rfl, hNone, hLog⟩ }

theorem Inv.unwind
    {ex : Exn} (hParent : s.parent = .unwinding ex) :
    Inv a (parentStep a s) := by
  have hStage := hInv.stage
  unfold Handshake.At at hStage
  simp only [hParent] at hStage
  rcases hStage with ⟨hPresent, fd, hHolding⟩
  rcases freed_of_destroyed hHolding with
    ⟨p, log, hRun, hNone, hLog⟩
  have hFreed : outstanding log = some ∅ := by
    rw [hLog]
    exact outstanding_closed fd
  unfold parentStep
  simp only [hParent, hRun]
  exact
    { quiet := hInv.quiet
      passes := hInv.passes
      writes := fun _ => ⟨fd, hHolding.1, by simp [hLog]⟩
      stage := ⟨hPresent, hNone, hFreed⟩ }

theorem Inv.kill
    {ex : Exn} (hParent : s.parent = .killing ex) :
    Inv a (parentStep a s) := by
  have hStage := hInv.stage
  unfold Handshake.At at hStage
  simp only [hParent] at hStage
  unfold parentStep
  simp only [hParent]
  cases hSent : a.sent with
  | ok =>
      exact
        { quiet := hInv.quiet
          passes := hInv.passes
          writes := hInv.writes
          stage :=
            ⟨hStage.1, hStage.2, fun _ => rfl⟩ }
  | error e =>
      have hFailed : a.sent.isOk ≠ true := by
        rw [hSent]
        simp [Except.isOk, Except.toBool]
      exact
        { quiet := hInv.quiet
          passes := hInv.passes
          writes := hInv.writes
          stage :=
            ⟨hStage.1, hStage.2,
              fun hOk => absurd hOk hFailed⟩ }

theorem Inv.collect
    {ex : Exn} (hParent : s.parent = .waiting ex) :
    Inv a (parentStep a s) := by
  have hStage := hInv.stage
  unfold Handshake.At at hStage
  simp only [hParent] at hStage
  rcases hStage with ⟨-, hFreed, hKilled⟩
  unfold parentStep
  simp only [hParent]
  cases hCollected : a.collected with
  | ok si =>
      simp only [Proc.wait, Command.run_bind, run_check_ok]
      exact
        { quiet := hInv.quiet
          passes := hInv.passes
          writes := hInv.writes
          stage :=
            ⟨hFreed, fun _ hClean =>
              ⟨hKilled hClean.1, rfl⟩⟩ }
  | error e =>
      have hFailed : a.collected.isOk ≠ true := by
        rw [hCollected]
        simp [Except.isOk, Except.toBool]
      exact
        { quiet := hInv.quiet
          passes := hInv.passes
          writes := hInv.writes
          stage :=
            ⟨hFreed, fun _ hClean =>
              absurd hClean.2 hFailed⟩ }

theorem Inv.parent : Inv a (parentStep a s) := by
  cases hParent : s.parent with
  | creating => exact hInv.create hParent
  | forking => exact hInv.fork hParent
  | opening pid => exact hInv.openPid hParent
  | signalling pid pidfd => exact hInv.signal hParent
  | handing pid pidfd => exact hInv.handOver hParent
  | unwinding ex => exact hInv.unwind hParent
  | killing ex => exact hInv.kill hParent
  | waiting ex => exact hInv.collect hParent
  | thrown ex =>
      unfold parentStep
      simp only [hParent]
      exact hInv
  | returned p =>
      unfold parentStep
      simp only [hParent]
      exact hInv

end ParentSteps

------------------------------------------------------------
-- Steps of the Child
------------------------------------------------------------

/- Nothing the parent relies on is up to a live child. -/
theorem at_of_lives
    {a : Answers} {s : Handshake}
    (hAt : s.At a) (hLives : s.child.lives = true)
    (event : EventFile) {child : Child} (passed : Bool)
    (hPresent : child.present = true) :
    ({ s with
      event := event
      child := child
      passed := passed } : Handshake).At a := by
  have hBorn : s.child ≠ .unborn := by
    intro hUnborn
    simp [hUnborn, Child.lives] at hLives
  have hHere : s.child ≠ .reaped := by
    intro hReaped
    simp [hReaped, Child.lives] at hLives
  unfold Handshake.At at hAt ⊢
  cases hParent : s.parent with
  | creating =>
      simp only [hParent] at hAt
      exact absurd hAt.1 hBorn
  | forking =>
      simp only [hParent] at hAt
      exact absurd hAt.1 hBorn
  | opening pid =>
      simp only [hParent] at hAt
      exact ⟨hPresent, hAt.2⟩
  | signalling pid pidfd =>
      simp only [hParent] at hAt
      exact ⟨hPresent, hAt.2⟩
  | handing pid pidfd =>
      simp only [hParent] at hAt
      exact hAt
  | unwinding ex =>
      simp only [hParent] at hAt
      exact ⟨hPresent, hAt.2⟩
  | killing ex =>
      simp only [hParent] at hAt
      exact ⟨hPresent, hAt.2⟩
  | waiting ex =>
      simp only [hParent] at hAt
      exact ⟨hPresent, hAt.2⟩
  | thrown ex =>
      simp only [hParent] at hAt
      refine ⟨hAt.1, fun _ hClean => ?_⟩
      exact absurd (hAt.2 hBorn hClean).2 hHere
  | returned p => simpa only [hParent] using hAt

theorem Inv.child
    {a : Answers} {s : Handshake}
    (hInv : Inv a s) (hWaiting : s.child = .waiting)
    (hAnswers : s.event.Answers a.read) :
    Inv a (childStep a s) := by
  have hLives : s.child.lives = true := by
    rw [hWaiting]
    rfl
  have hAt := at_of_lives hInv.stage hLives
  unfold childStep
  unfold EventFile.Answers at hAnswers
  cases hRead : a.read with
  | ok bytes =>
      -- the counter was set, so the event was written
      have hSet : s.event.counter ≠ 0 := by
        apply hAnswers
        rw [hRead]
        rfl
      have hWritten : s.written = true := by
        by_contra hNot
        apply hSet
        apply hInv.quiet
        simpa using hNot
      rw [EventFile.run_wait_ok]
      by_cases hShort : bytes ≠ EventFile.counterSize
      · rw [if_pos hShort]
        exact
          { quiet := fun _ => rfl
            passes := hInv.passes
            writes := hInv.writes
            stage := hAt _ _ rfl }
      · rw [if_neg hShort]
        exact
          { quiet := fun _ => rfl
            passes := fun _ => hWritten
            writes := hInv.writes
            stage := hAt _ _ rfl }
  | error e =>
      rw [EventFile.run_wait_error]
      exact
        { quiet := hInv.quiet
          passes := hInv.passes
          writes := hInv.writes
          stage := hAt _ _ rfl }

theorem Inv.step
    {a : Answers} {s s' : Handshake}
    (hInv : Inv a s) (hStep : Step a s s') : Inv a s' := by
  cases hStep with
  | parent hReady => exact hInv.parent
  | child hWaiting hAnswers =>
      exact hInv.child hWaiting hAnswers
  | ended hLives =>
      exact
        { quiet := hInv.quiet
          passes := hInv.passes
          writes := hInv.writes
          stage :=
            at_of_lives hInv.stage hLives _ _ rfl }

theorem inv_of_reachable
    {a : Answers} {s : Handshake} (hReach : Reachable a s) :
    Inv a s :=
  hReach.invariant (inv_start a) fun _ _ => Inv.step

------------------------------------------------------------
-- The Promises Are Kept
------------------------------------------------------------

/- Without a `SubProc` there is no owner but `pidfile`. -/
theorem books_of_freed
    {s : Handshake} {ex : Exn}
    (hParent : s.parent = .thrown ex) (hFreed : s.Freed) :
    Books s.holds s.log ∅ := by
  refine books_empty hFreed.2 ?_
  intro o
  cases o with
  | pidfile => exact hFreed.1
  | subProc =>
      unfold Handshake.holds
      simp only [hParent]

/- The `SubProc` has taken over. -/
theorem books_of_returned
    {s : Handshake} {p : SubProc} {fd : FileNum}
    (hParent : s.parent = .returned p)
    (hOwned : p.owned = [fd])
    (hFile : s.pidfile.owned = [])
    (hLog : s.log = [.acquired fd]) :
    Books s.holds s.log {fd} := by
  have hOut : outstanding s.log = some {fd} := by
    rw [hLog]
    rfl
  refine books_single (h := Owner.subProc) hOut ?_ ?_
  · unfold Handshake.holds
    simp only [hParent]
    exact hOwned
  · intro o hOther
    cases o with
    | pidfile => exact hFile
    | subProc => exact absurd rfl hOther

theorem Inv.safe
    {a : Answers} {s : Handshake} (hInv : Inv a s) :
    s.Safe a where
  passes hPassed := by
    have hWritten := hInv.passes hPassed
    exact ⟨hInv.writes hWritten, hWritten⟩
  throws ex hParent := by
    have hStage := hInv.stage
    unfold Handshake.At at hStage
    simp only [hParent] at hStage
    exact
      ⟨hInv.passes, books_of_freed hParent hStage.1,
        hStage.2⟩
  returns p hParent := by
    have hStage := hInv.stage
    unfold Handshake.At at hStage
    simp only [hParent] at hStage
    rcases hStage with
      ⟨hForked, fd, hOpened, hChildFd, hFile, hLog⟩
    have hOwned : p.owned = [fd] := by
      unfold SubProc.owned
      rw [hChildFd]
      exact Answers.owned_opened hOpened
    exact
      ⟨hForked, fd, hOpened, hOwned,
        books_of_returned hParent hOwned hFile hLog⟩

/-
  Whatever fails and however parent and child take turns:
  the child goes on only when the parent has a pidfd and
  signalled, a parent that throws has killed and reaped the
  child and holds no pidfd, and one that returns leaves the
  one pidfd to the `SubProc`.
-/
theorem handshake_safe
    (a : Answers) {s : Handshake}
    (hReach : Reachable a s) : s.Safe a :=
  (inv_of_reachable hReach).safe

/- Everything succeeds. -/
def smooth : Answers where
  created := .ok ⟨3⟩
  forked := .ok ⟨42⟩
  opened := .ok ⟨4⟩
  written := .ok 8
  closed := .ok ()
  sent := .ok ()
  collected := .error .noChild
  read := .ok 8
  opened_valid := by
    intro fd hOpened
    cases hOpened
    decide

/- The child goes on before the parent returns. -/
theorem reachable_smooth :
    Reachable smooth
      (parentStep smooth
        (childStep smooth
          (parentStep smooth
            (parentStep smooth
              (parentStep smooth
                (parentStep smooth start)))))) := by
  have hSignalled :
      Reachable smooth
        (parentStep smooth
          (parentStep smooth
            (parentStep smooth
              (parentStep smooth start)))) :=
    .tail
      (.tail
        (.tail
          (.tail .refl (.parent trivial))
          (.parent trivial))
        (.parent trivial))
      (.parent trivial)
  refine .tail (.tail hSignalled (.child rfl ?_)) ?_
  · intro _
    decide
  · exact .parent trivial

theorem handshake_safe_smooth :
    ∃ s : Handshake,
      s.parent = .returned ⟨⟨42⟩, ⟨⟨4⟩⟩⟩ ∧
        s.passed = true ∧ s.Safe smooth :=
  ⟨_, rfl, rfl, handshake_safe smooth reachable_smooth⟩

------------------------------------------------------------
-- Progress
------------------------------------------------------------

/- The parent has only so many statements ahead. -/
theorem left_parentStep
    (a : Answers) {s : Handshake}
    (hOver : s.parent.over = false) :
    (parentStep a s).parent.left < s.parent.left := by
  unfold parentStep
  cases hParent : s.parent with
  | creating =>
      cases a.created with
      | ok fd => exact Nat.lt_succ_self 6
      | error e => exact Nat.succ_pos 6
  | forking =>
      cases a.forked with
      | ok pid => exact Nat.lt_succ_self 5
      | error e => exact Nat.succ_pos 5
  | opening pid =>
      cases a.opened with
      | ok fd => exact Nat.lt_succ_self 4
      | error e =>
          have hLess : 2 < 5 := by omega
          exact hLess
  | signalling pid pidfd =>
      cases a.written with
      | ok bytes =>
          simp only [EventFile.run_signal_ok]
          by_cases hShort : bytes ≠ EventFile.counterSize
          · rw [if_pos hShort]
            exact Nat.lt_succ_self 3
          · rw [if_neg hShort]
            exact Nat.lt_succ_self 3
      | error e => exact Nat.lt_succ_self 3
  | handing pid pidfd => exact Nat.succ_pos 2
  | unwinding ex => exact Nat.lt_succ_self 2
  | killing ex =>
      cases a.sent with
      | ok => exact Nat.lt_succ_self 1
      | error e => exact Nat.lt_succ_self 1
  | waiting ex =>
      cases a.collected with
      | ok si =>
          simp only [Proc.wait, Command.run_bind,
            run_check_ok]
          exact Nat.succ_pos 0
      | error e => exact Nat.succ_pos 0
  | thrown ex =>
      rw [hParent] at hOver
      cases hOver
  | returned p =>
      rw [hParent] at hOver
      cases hOver

/-
  All it ever waits for is the end of a child that it has
  killed.
-/
theorem ready_or_waits
    {a : Answers} {s : Handshake}
    (hReach : Reachable a s) (hClean : a.CleansUp)
    (hOver : s.parent.over = false) :
    ParentReady a s ∨
      (s.child.lives = true ∧ s.killed = true) := by
  have hStage := (inv_of_reachable hReach).stage
  unfold Handshake.At at hStage
  unfold ParentReady
  cases hParent : s.parent with
  | waiting ex =>
      simp only [hParent] at hStage
      cases hChild : s.child with
      | zombie => exact Or.inl fun _ => rfl
      | waiting => exact Or.inr ⟨rfl, hStage.2.2 hClean.1⟩
      | proceeding =>
          exact Or.inr ⟨rfl, hStage.2.2 hClean.1⟩
      | unborn =>
          rw [hChild] at hStage
          cases hStage.1
      | reaped =>
          rw [hChild] at hStage
          cases hStage.1
  | thrown ex =>
      rw [hParent] at hOver
      cases hOver
  | returned p =>
      rw [hParent] at hOver
      cases hOver
  | _ => exact Or.inl trivial

end RunClone2

end Cosmos
