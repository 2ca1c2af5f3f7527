import LibCosmos.Foundation.Machine
import LibCosmos.Foundation.Places
import LibCosmos.FS.FileDescriptor
import LibCosmos.Proc.WaitStatus

/-
  Child processes and the objects that stand for them
  (`include/proc/SubProc.hxx`, `src/proc/SubProc.cxx`, and
  the failure path of `ChildCloner::run`).

  The kernel knows for every pidfd whether the child can
  still be waited for. A pidfd is acquired when a child is
  created; the log tells when it is closed.

  Main declarations:
    * `SubProc.wait`, `SubProc.waitTimed`, `SubProc.reset`
    * `SubProc.World`, `SubProc.Op`
    * `SubProc.LifeCycle`, `SubProc.TakesDump`
    * `SubProc.life_cycle_along_iff`
-/

namespace Cosmos

open Custody

------------------------------------------------------------
-- Objects and the Kernel
------------------------------------------------------------

/- `ProcessID`, an `enum class : pid_t`. -/
structure ProcessID where
  raw : Int32
deriving DecidableEq, Repr

def ProcessID.invalid : ProcessID := ⟨-1⟩

/- A `SubProc`. -/
structure SubProc where
  mPid : ProcessID := ProcessID.invalid
  mChildFd : FileDescriptor := {}
deriving DecidableEq, Repr

/- The flags that `SubProc::wait` looks at itself. -/
structure WaitFlags where
  noHang : Bool
  leaveInfo : Bool
deriving DecidableEq, Repr

/- What the kernel knows about the child of a pidfd. -/
inductive Fate where
| unknown
| alive (pid : ProcessID)
| gone
deriving DecidableEq, Repr

/- The child ends with this event. -/
def ChildEvent.ends : ChildEvent → Bool
| .exited _ => true
| .killed _ _ => true
| _ => false

namespace SubProc

/- `SubProc::running`. -/
def running (p : SubProc) : Bool :=
  p.mChildFd.valid

def owned (p : SubProc) : List FileNum :=
  p.mChildFd.owned

/- An object together with its process and the kernel. -/
structure Host where
  this : SubProc
  log : List (Entry FileNum)
  fate : FileNum → Fate

/- The child of the object is no longer there. -/
def Host.consume (s : Host) : Host :=
  if s.this.running then
    { s with
      fate :=
        Function.update s.fate s.this.mChildFd.mFd .gone }
  else s

------------------------------------------------------------
-- The Code
------------------------------------------------------------

/- A call of a method of `m_child_fd`. -/
def onChildFd {α : Type}
    (m : Method (Frame FileDescriptor) α) : Method Host α :=
  m.focus
    (fun s => ⟨s.this.mChildFd, s.log⟩)
    (fun t s =>
      { s with
        this := { s.this with mChildFd := t.this }
        log := t.log })

/- `SubProc::reset`. -/
def reset (closed : Sys Unit) : Method Host Unit := do
  Command.modify fun s =>
    { s with this := { s.this with mPid := .invalid } }
  onChildFd (FileDescriptor.close closed)

/-
  `waitid()` on the pidfd. Without `LEAVE_INFO` a child that
  ended is reaped, and `ECHILD` tells that it was before.
-/
def waitid (flags : WaitFlags) :
    Sys ChildReport → Method Host (Sys SigInfo)
| .ok report => do
    if report.event.ends && !flags.leaveInfo then
      Command.modify Host.consume
    pure (.ok report.info)
| .error e => do
    if e = .noChild then
      Command.modify Host.consume
    pure (.error e)

/- The `try` block of `SubProc::wait`. -/
def waitBody
    (flags : WaitFlags) (answer : Sys ChildReport)
    (closed : Sys Unit) :
    Method Host (Option ChildState) := do
  let info ← waitid flags answer
  let child ← Proc.wait flags.noHang info
  match child with
  | some state =>
      if !flags.leaveInfo &&
          (state.isExited || state.isKilled) then
        reset closed
  | none => pure ()
  pure child

/- Its `catch (const ApiError &)` block. -/
def waitHandler (closed : Sys Unit) (err : Exn) :
    Method Host (Option ChildState) := do
  match err with
  | .apiError errnum _ =>
      if errnum = .noChild then
        (reset closed).handle fun _ => pure ()
  | _ => pure ()
  Command.raise err

/- `SubProc::wait`. -/
def wait
    (flags : WaitFlags) (answer : Sys ChildReport)
    (closed : Sys Unit) : Method Host (Option ChildState) :=
  if flags.noHang then
    Command.raise
      (.usageError
        (str ("cannot use NO_HANG with SubProc, " ++
          "use waitTimed() instead")))
  else
    (waitBody flags answer closed).handle
      (waitHandler closed)

/-
  `SubProc::waitTimed`. The poller can throw, and it tells
  whether there is an event in time.
-/
def waitTimed
    (polled : Except Exn Bool)
    (flags : WaitFlags) (answer : Sys ChildReport)
    (closed : Sys Unit) : Method Host (Option ChildState) :=
  match polled with
  | .error ex => Command.raise ex
  | .ok false => pure none
  | .ok true => wait flags answer closed

/- `SubProc::kill`; sending the signal can throw. -/
def kill (sent : Except Exn Unit) : Method Host Unit :=
  match sent with
  | .error ex => Command.raise ex
  | .ok () => pure ()

/- The handler in `ChildCloner::run`, up to its `throw`. -/
def failurePath
    (sent : Except Exn Unit) (answer : Sys ChildReport)
    (closed : Sys Unit) : Method Host Unit := do
  (kill sent).handle fun ex =>
    if ex.isStd then pure () else Command.raise ex
  let _ ← wait ⟨false, false⟩ answer closed
  pure ()

------------------------------------------------------------
-- What Waiting Does
------------------------------------------------------------

/- The child is gone, and the object let go of it. -/
def Host.release (s : Host) : Host where
  this := {}
  log := s.this.owned.map (.settled .closed) ++ s.log
  fate := s.consume.fate

theorem run_reset (closed : Sys Unit) (s : Host) :
    (reset closed).run s =
      (if s.this.owned = [] then .returned ()
        else FileDescriptor.closeOutcome closed,
        { s with
          this := {}
          log :=
            s.this.owned.map (.settled .closed) ++
              s.log }) := by
  simp only [reset, onChildFd, Command.run_bind,
    Command.run_modify, Command.run_focus,
    FileDescriptor.run_close_owned]
  rfl

theorem consume_this (s : Host) :
    s.consume.this = s.this ∧ s.consume.log = s.log := by
  unfold Host.consume
  split <;> exact ⟨rfl, rfl⟩

/- A reset after the child was consumed. -/
theorem reset_consume (closed : Sys Unit) (s : Host) :
    ((reset closed).run s.consume).2 = s.release := by
  rcases consume_this s with ⟨hThis, hLog⟩
  rw [run_reset, hThis, hLog]
  rfl

/- The object lets go only once. -/
theorem reset_release (closed : Sys Unit) (s : Host) :
    (reset closed).run s.release =
      (.returned (), s.release) := by
  rw [run_reset]
  rfl

/- The state after waiting, by what the kernel reported. -/
def Host.waited
    (s : Host) (flags : WaitFlags) :
    Sys ChildReport → Host
| .ok report =>
    if flags.noHang || flags.leaveInfo then s
    else
      match report.event with
      | .exited _ => s.release
      | .killed _ false => s.release
      | .killed _ true => s.consume
      | _ => s
| .error e =>
    if flags.noHang = false ∧ e = .noChild then s.release
    else s

/- The events that make the object let go. -/
theorem lets_go_iff (report : ChildReport) :
    (report.state.isExited || report.state.isKilled) =
      match report.event with
      | .exited _ => true
      | .killed _ core => !core
      | _ => false := by
  have hEvent :
      report.state.event = report.event.siCode := rfl
  unfold ChildState.isExited ChildState.isKilled
  rw [hEvent]
  cases report.event with
  | exited code => rfl
  | killed sig core => cases core <;> rfl
  | stopped sig traced => cases traced <;> rfl
  | syscallStop => rfl
  | eventStop sig event => rfl
  | continued => rfl

/- The handler lets go if there is no child. -/
theorem run_waitHandler
    (closed : Sys Unit) (err : Exn) (s : Host) :
    ((waitHandler closed err).run s).2 =
      match err with
      | .apiError errnum _ =>
          if errnum = .noChild then
            ((reset closed).run s).2
          else s
      | _ => s := by
  cases err with
  | apiError errnum msg =>
      by_cases hNone : errnum = .noChild
      · simp only [waitHandler, hNone, if_true,
          Command.run_bind, Command.run_handle]
        rcases (reset closed).run s with
          ⟨⟨⟨⟩⟩ | ⟨ex⟩ | ⟨h⟩, s'⟩ <;> rfl
      · simp [waitHandler, hNone]
  | runtimeError msg => rfl
  | usageError msg => rfl
  | stdException text => rfl
  | nonStd => rfl

theorem run_waitBody_error
    (flags : WaitFlags) (e : Errno) (closed : Sys Unit)
    (s : Host) :
    (waitBody flags (.error e) closed).run s =
      (.raised (.apiError e (str "wait()")),
        if e = .noChild then s.consume else s) := by
  unfold waitBody waitid Proc.wait
  by_cases hNone : e = .noChild
  · simp [hNone, Command.run_bind]
  · simp [hNone, Command.run_bind]

/- A report that the object need not act on. -/
theorem run_waitBody_kept
    {flags : WaitFlags} {report : ChildReport}
    (closed : Sys Unit) (s : Host)
    (hKept :
      (!flags.leaveInfo &&
        (report.state.isExited || report.state.isKilled)) =
          false) :
    (waitBody flags (.ok report) closed).run s =
      (.returned (some report.state),
        if report.event.ends && !flags.leaveInfo then
          s.consume
        else s) := by
  unfold waitBody waitid
  cases hEnds : (report.event.ends && !flags.leaveInfo) with
  | true =>
      simp only [if_true, Command.run_bind,
        Command.run_modify, Command.run_pure, run_wait,
        hKept, hEnds]
      rfl
  | false =>
      simp only [Bool.false_eq_true, if_false,
        Command.run_bind, Command.run_pure, run_wait, hKept,
        hEnds]

/- A report on which it lets go of the child. -/
theorem run_waitBody_reset
    {flags : WaitFlags} {report : ChildReport}
    (closed : Sys Unit) (s : Host)
    (hEnds :
      (report.event.ends && !flags.leaveInfo) = true)
    (hGo :
      (!flags.leaveInfo &&
        (report.state.isExited || report.state.isKilled)) =
          true) :
    (waitBody flags (.ok report) closed).run s =
      (match ((reset closed).run s.consume).1 with
        | .returned _ => .returned (some report.state)
        | .raised ex => .raised ex
        | .halted h => .halted h,
        s.release) := by
  rw [← reset_consume closed]
  unfold waitBody waitid
  simp only [hEnds, if_true, Command.run_bind,
    Command.run_modify, Command.run_pure, run_wait, hGo]
  rcases (reset closed).run s.consume with
    ⟨⟨⟨⟩⟩ | ⟨ex⟩ | ⟨h⟩, s'⟩ <;> rfl

theorem run_waitHandler_release
    (closed : Sys Unit) (err : Exn) (s : Host) :
    ((waitHandler closed err).run s.release).2 =
      s.release := by
  rw [run_waitHandler]
  cases err with
  | apiError errnum msg =>
      simp only [reset_release, ite_self]
  | runtimeError msg => rfl
  | usageError msg => rfl
  | stdException text => rfl
  | nonStd => rfl

/- A report on which it lets go is one of an end. -/
theorem ends_of_lets_go
    {report : ChildReport}
    (hGo :
      (report.state.isExited || report.state.isKilled) =
        true) :
    report.event.ends = true := by
  rw [lets_go_iff] at hGo
  cases hEvent : report.event with
  | exited code => rfl
  | killed sig core => rfl
  | stopped sig traced => simp [hEvent] at hGo
  | syscallStop => simp [hEvent] at hGo
  | eventStop sig event => simp [hEvent] at hGo
  | continued => simp [hEvent] at hGo

/- The same in terms of what the code tests for. -/
theorem waited_ok
    {flags : WaitFlags} (report : ChildReport) (s : Host)
    (hHang : flags.noHang = false) :
    s.waited flags (.ok report) =
      if !flags.leaveInfo &&
          (report.state.isExited ||
            report.state.isKilled) then
        s.release
      else if report.event.ends && !flags.leaveInfo then
        s.consume
      else s := by
  rw [lets_go_iff]
  unfold Host.waited
  cases flags.leaveInfo with
  | true => simp [hHang]
  | false =>
      simp only [hHang, Bool.or_self,
        Bool.false_eq_true, if_false, Bool.not_false,
        Bool.true_and, Bool.and_true]
      cases report.event with
      | killed sig core => cases core <;> rfl
      | _ => rfl

/- A wait that reaps a child of which the object lets go. -/
theorem run_wait_release
    {flags : WaitFlags} {report : ChildReport}
    (closed : Sys Unit) (s : Host)
    (hHang : flags.noHang = false)
    (hGo :
      (!flags.leaveInfo &&
        (report.state.isExited || report.state.isKilled)) =
          true) :
    ((wait flags (.ok report) closed).run s).2 =
      s.release := by
  have hEnds :
      (report.event.ends && !flags.leaveInfo) = true := by
    rw [Bool.and_eq_true] at hGo
    rw [ends_of_lets_go hGo.2, hGo.1]
    rfl
  simp only [wait, hHang, Bool.false_eq_true, if_false,
    Command.run_handle,
    run_waitBody_reset closed s hEnds hGo]
  rcases ((reset closed).run s.consume).1 with
    ⟨⟨⟩⟩ | ⟨ex⟩ | ⟨h⟩
  · rfl
  · exact run_waitHandler_release closed ex s
  · rfl

/- What a call of `wait` leaves behind. -/
theorem run_wait_state
    (flags : WaitFlags) (answer : Sys ChildReport)
    (closed : Sys Unit) (s : Host) :
    ((wait flags answer closed).run s).2 =
      s.waited flags answer := by
  cases hHang : flags.noHang with
  | true =>
      cases answer <;> simp [wait, Host.waited, hHang]
  | false =>
      cases answer with
      | error e =>
          simp only [wait, hHang, Bool.false_eq_true,
            if_false, Command.run_handle,
            run_waitBody_error, run_waitHandler,
            Host.waited, true_and]
          by_cases hNone : e = .noChild
          · simp only [hNone, if_true, reset_consume]
          · simp only [hNone, if_false]
      | ok report =>
          rw [waited_ok report s hHang]
          cases hGo :
            (!flags.leaveInfo &&
              (report.state.isExited ||
                report.state.isKilled)) with
          | true =>
              rw [if_pos rfl]
              exact run_wait_release closed s hHang hGo
          | false =>
              simp only [wait, hHang, Bool.false_eq_true,
                if_false, Command.run_handle,
                run_waitBody_kept closed s hGo]

/-
  The wait reaps a child that dumped core. The object tests
  for `exited()` and `killed()` only, which both exclude it.
-/
def TakesDump
    (flags : WaitFlags) (answer : Sys ChildReport) : Prop :=
  flags.noHang = false ∧ flags.leaveInfo = false ∧
    ∃ report sig, answer = .ok report ∧
      report.event = .killed sig true

theorem waited_of_takesDump
    {flags : WaitFlags} {answer : Sys ChildReport}
    (hDump : TakesDump flags answer) (s : Host) :
    s.waited flags answer = s.consume := by
  rcases hDump with
    ⟨hHang, hLeave, report, sig, hAnswer, hEvent⟩
  simp [hAnswer, Host.waited, hHang, hLeave, hEvent]

/- Otherwise nothing happens, or the object lets go. -/
theorem waited_of_not_takesDump
    {flags : WaitFlags} {answer : Sys ChildReport}
    (hNot : ¬ TakesDump flags answer) (s : Host) :
    s.waited flags answer = s ∨
      s.waited flags answer = s.release := by
  cases answer with
  | error e =>
      simp only [Host.waited]
      split
      · exact Or.inr rfl
      · exact Or.inl rfl
  | ok report =>
      simp only [Host.waited]
      split
      · exact Or.inl rfl
      · next hFlags =>
          simp only [Bool.or_eq_true, not_or,
            Bool.not_eq_true] at hFlags
          cases hEvent : report.event with
          | exited code => exact Or.inr rfl
          | killed sig core =>
              cases core with
              | false => exact Or.inr rfl
              | true =>
                  exact
                    absurd
                      ⟨hFlags.1, hFlags.2, report, sig, rfl,
                        hEvent⟩
                      hNot
          | _ => exact Or.inl rfl

------------------------------------------------------------
-- Effects of the Methods
------------------------------------------------------------

theorem wait_effect
    {flags : WaitFlags} {answer : Sys ChildReport}
    (hNot : ¬ SubProc.TakesDump flags answer)
    (closed : Sys Unit) (s : Host) :
    ((SubProc.wait flags answer closed).run s).2 = s ∨
      ((SubProc.wait flags answer closed).run s).2 =
        s.release := by
  rw [run_wait_state]
  exact waited_of_not_takesDump hNot s

theorem waitTimed_effect
    {polled : Except Exn Bool}
    {flags : WaitFlags} {answer : Sys ChildReport}
    (hNot :
      ¬ (polled = .ok true ∧ SubProc.TakesDump flags answer))
    (closed : Sys Unit) (s : Host) :
    ((SubProc.waitTimed polled flags answer closed).run
        s).2 = s ∨
      ((SubProc.waitTimed polled flags answer closed).run
        s).2 = s.release := by
  cases polled with
  | error ex => exact Or.inl rfl
  | ok ready =>
      cases ready with
      | false => exact Or.inl rfl
      | true =>
          apply wait_effect
          intro hDump
          exact hNot ⟨rfl, hDump⟩

theorem kill_effect (sent : Except Exn Unit) (s : Host) :
    ((SubProc.kill sent).run s).2 = s := by
  cases sent <;> rfl

/- The failure path waits unless `kill` got out of it. -/
theorem run_failurePath_state
    (sent : Except Exn Unit) (answer : Sys ChildReport)
    (closed : Sys Unit) (s : Host) :
    ((failurePath sent answer closed).run s).2 =
      match sent with
      | .error ex =>
          if ex.isStd then
            s.waited ⟨false, false⟩ answer
          else s
      | .ok () => s.waited ⟨false, false⟩ answer := by
  have hWait :=
    run_wait_state ⟨false, false⟩ answer closed s
  have hThen :
      ((do
        let _ ←
          SubProc.wait ⟨false, false⟩ answer closed
        pure () : Method Host Unit).run s).2 =
        s.waited ⟨false, false⟩ answer := by
    rw [← hWait, Command.run_bind]
    rcases (SubProc.wait ⟨false, false⟩ answer closed).run s
      with ⟨⟨child⟩ | ⟨ex⟩ | ⟨h⟩, s'⟩ <;> rfl
  unfold failurePath SubProc.kill
  cases sent with
  | ok sent =>
      rw [Command.run_bind]
      exact hThen
  | error ex =>
      cases hStd : ex.isStd with
      | true =>
          rw [Command.run_bind]
          simp only [Command.run_handle, Command.run_raise,
            hStd, if_true, Command.run_pure]
          exact hThen
      | false =>
          rw [Command.run_bind]
          simp [Command.run_handle, hStd]

theorem failurePath_effect
    {sent : Except Exn Unit} {answer : Sys ChildReport}
    (hNot :
      ¬ ((∀ ex, sent = .error ex → ex.isStd = true) ∧
        SubProc.TakesDump ⟨false, false⟩ answer))
    (closed : Sys Unit) (s : Host) :
    ((failurePath sent answer closed).run s).2 = s ∨
      ((failurePath sent answer closed).run s).2 =
        s.release := by
  rw [run_failurePath_state]
  by_cases hDump : SubProc.TakesDump ⟨false, false⟩ answer
  · cases sent with
    | ok sent =>
        refine absurd ⟨?_, hDump⟩ hNot
        intro ex hError
        cases hError
    | error ex =>
        cases hStd : ex.isStd with
        | true =>
            refine absurd ⟨?_, hDump⟩ hNot
            intro other hError
            injection hError with hSame
            rw [← hSame]
            exact hStd
        | false =>
            simp only [hStd]
            exact Or.inl rfl
  · cases sent with
    | ok sent => exact waited_of_not_takesDump hDump s
    | error ex =>
        simp only
        split
        · exact waited_of_not_takesDump hDump s
        · exact Or.inl rfl

------------------------------------------------------------
-- Worlds
------------------------------------------------------------

/-
  The objects of a process, the log of its pidfds and what
  the kernel knows about them. `aborted` is the pidfd of the
  object that `fatal_error` was called for.
-/
structure World (ι : Type) where
  objs : ι → Option SubProc
  log : List (Entry FileNum)
  fate : FileNum → Fate
  aborted : Option FileNum

namespace World

variable {ι : Type} [DecidableEq ι]

/- The pidfds that the object at a place holds. -/
def held (w : World ι) : ι → List FileNum :=
  Places.held SubProc.owned w.objs

/- A new object at a place. -/
def create (w : World ι) (i : ι) : World ι :=
  { w with objs := Function.update w.objs i (some {}) }

/- `ChildCloner` made a child, which gets an object. -/
def spawn
    (w : World ι) (i : ι) (pid : ProcessID) (fd : FileNum) :
    World ι where
  objs := Function.update w.objs i (some ⟨pid, ⟨fd⟩⟩)
  log := .acquired fd :: w.log
  fate := Function.update w.fate fd (.alive pid)
  aborted := w.aborted

/- A method of the object at a place. -/
def act {α : Type}
    (w : World ι) (i : ι) (m : Method Host α) : World ι :=
  match w.objs i with
  | none => w
  | some obj =>
      let s := (m.run ⟨obj, w.log, w.fate⟩).2
      { objs := Function.update w.objs i (some s.this)
        log := s.log
        fate := s.fate
        aborted := w.aborted }

/- `operator=(SubProc &&)`, which may end the process. -/
def moveAssign (w : World ι) (i j : ι) : World ι :=
  match w.objs i, w.objs j with
  | some target, some source =>
      if target.running then
        { w with aborted := some target.mChildFd.mFd }
      else
        let objs :=
          Function.update w.objs i
            (some ⟨source.mPid, source.mChildFd⟩)
        { w with
          objs :=
            Function.update objs j
              (some ⟨.invalid, source.mChildFd.reset⟩) }
  | _, _ => w

/- `~SubProc`, which may end the process. -/
def destroy (w : World ι) (i : ι) : World ι :=
  match w.objs i with
  | none => w
  | some obj =>
      if obj.running then
        { w with aborted := some obj.mChildFd.mFd }
      else { w with objs := Function.update w.objs i none }

end World

/- Operations, with the answers of the system calls. -/
inductive Op (ι : Type) where
| create (i : ι)
| spawn (i : ι) (pid : ProcessID) (fd : FileNum)
| moveConstruct (i j : ι)
| moveAssign (i j : ι)
| wait (i : ι) (flags : WaitFlags)
    (answer : Sys ChildReport) (closed : Sys Unit)
| waitTimed (i : ι) (polled : Except Exn Bool)
    (flags : WaitFlags)
    (answer : Sys ChildReport) (closed : Sys Unit)
| kill (i : ι) (sent : Except Exn Unit)
| destroy (i : ι)
| runFails (i : ι) (pid : ProcessID) (fd : FileNum)
    (sent : Except Exn Unit)
    (answer : Sys ChildReport) (closed : Sys Unit)

section Worlds

variable {ι : Type} [DecidableEq ι]

/-
  The step of an operation. A failing `ChildCloner::run` has
  its object at a place of its own, which it leaves.
-/
def World.step (w : World ι) : Op ι → World ι
| .create i => w.create i
| .spawn i pid fd => w.spawn i pid fd
| .moveConstruct i j => (w.create i).moveAssign i j
| .moveAssign i j => w.moveAssign i j
| .wait i flags answer closed =>
    w.act i (SubProc.wait flags answer closed)
| .waitTimed i polled flags answer closed =>
    w.act i (SubProc.waitTimed polled flags answer closed)
| .kill i sent => w.act i (SubProc.kill sent)
| .destroy i => w.destroy i
| .runFails i pid fd sent answer closed =>
    ((w.spawn i pid fd).act i
      (failurePath sent answer closed)).destroy i

/- The kernel reports about children that exist. -/
def Reports (w : World ι) (i : ι) (answer : Sys ChildReport) :
    Prop :=
  ∀ report, answer = .ok report → w.held i ≠ []

/-
  Objects are created where there is none, and a new pidfd
  has a number that is not in use.
-/
def Op.Legal (w : World ι) : Op ι → Prop
| .create i => w.objs i = none
| .spawn i _ fd =>
    w.objs i = none ∧ fd ≠ .invalid ∧ ∀ k, fd ∉ w.held k
| .moveConstruct i j =>
    w.objs i = none ∧ (w.objs j).isSome
| .moveAssign i j => (w.objs i).isSome ∧ (w.objs j).isSome
| .wait i _ answer _ => Reports w i answer
| .waitTimed i _ _ answer _ => Reports w i answer
| .kill i _ => (w.objs i).isSome
| .destroy i => (w.objs i).isSome
| .runFails i _ fd _ _ _ =>
    w.objs i = none ∧ fd ≠ .invalid ∧ ∀ k, fd ∉ w.held k

/- A process that was aborted does nothing more. -/
def machine : Machine (World ι) (Op ι) where
  legal w op := w.aborted = none ∧ op.Legal w
  step := World.step

/- The operations that reap a child that dumped core. -/
def Op.TakesDump : Op ι → Prop
| .wait _ flags answer _ => SubProc.TakesDump flags answer
| .waitTimed _ polled flags answer _ =>
    polled = .ok true ∧ SubProc.TakesDump flags answer
| .runFails _ _ _ sent answer _ =>
    (∀ ex, sent = .error ex → ex.isStd = true) ∧
      SubProc.TakesDump ⟨false, false⟩ answer
| _ => False

/-
  What objects and children have to do with each other: a
  child that is gone has no object, and its pidfd was closed
  as often as it was opened; a child that is there has one
  object, which knows its PID. The process is not aborted
  because of a child that is gone.
-/
structure LifeCycle (w : World ι) : Prop where
  gone :
    ∀ fd, w.fate fd = .gone →
      (∀ i, fd ∉ w.held i) ∧
        w.log.count (.acquired fd) =
          w.log.count (.settled .closed fd)
  alive :
    ∀ fd pid, w.fate fd = .alive pid →
      (∃ i, w.objs i = some ⟨pid, ⟨fd⟩⟩) ∧
        w.log.count (.acquired fd) =
          w.log.count (.settled .closed fd) + 1
  held :
    ∀ i fd, fd ∈ w.held i → ∃ pid, w.fate fd = .alive pid
  single :
    ∀ i j fd, fd ∈ w.held i → fd ∈ w.held j → i = j
  safe :
    ∀ fd, w.aborted = some fd →
      ∃ pid, w.fate fd = .alive pid

------------------------------------------------------------
-- The Invariant
------------------------------------------------------------

structure Inv (w : World ι) : Prop where
  books : Sound w.held w.log
  closed : ∀ fd, Entry.settled .handedOut fd ∉ w.log
  known :
    ∀ i obj fd, w.objs i = some obj → fd ∈ obj.owned →
      w.fate fd = .alive obj.mPid
  alive :
    ∀ fd pid, w.fate fd = .alive pid → ∃ i, fd ∈ w.held i
  safe :
    ∀ fd, w.aborted = some fd →
      ∃ pid, w.fate fd = .alive pid

omit [DecidableEq ι] in
theorem mem_held_iff (w : World ι) (i : ι) (fd : FileNum) :
    fd ∈ w.held i ↔
      ∃ obj, w.objs i = some obj ∧ fd ∈ obj.owned := by
  unfold World.held Places.held
  cases w.objs i with
  | none => simp
  | some obj => simp

theorem mem_owned_iff (obj : SubProc) (fd : FileNum) :
    fd ∈ obj.owned ↔
      obj.mChildFd = ⟨fd⟩ ∧ fd ≠ .invalid := by
  rcases obj with ⟨pid, ⟨n⟩⟩
  unfold SubProc.owned FileDescriptor.owned
    FileDescriptor.valid
  by_cases hValid : n = FileNum.invalid
  · simp [hValid]
    intro hSame
    exact hSame.symm
  · simp [hValid]
    constructor
    · intro hSame
      rw [hSame]
      exact ⟨rfl, hValid⟩
    · rintro ⟨hSame, -⟩
      exact hSame.symm

omit [DecidableEq ι] in
theorem Inv.lifeCycle
    {w : World ι} (hInv : Inv w) : LifeCycle w where
  gone := by
    intro fd hGone
    have hNone : ∀ i, fd ∉ w.held i := by
      intro i hMem
      rcases (mem_held_iff w i fd).mp hMem with
        ⟨obj, hObj, hOwned⟩
      have hAlive := hInv.known i obj fd hObj hOwned
      rw [hGone] at hAlive
      cases hAlive
    refine ⟨hNone, ?_⟩
    rcases hInv.books.count_acquired fd with
      ⟨⟨i, hMem⟩, -⟩ | ⟨-, hCount⟩
    · exact absurd hMem (hNone i)
    · rw [List.count_eq_zero.mpr (hInv.closed fd)] at hCount
      exact hCount
  alive := by
    intro fd pid hAlive
    rcases hInv.alive fd pid hAlive with ⟨i, hMem⟩
    constructor
    · rcases (mem_held_iff w i fd).mp hMem with
        ⟨obj, hObj, hOwned⟩
      have hKnown := hInv.known i obj fd hObj hOwned
      rw [hAlive] at hKnown
      injection hKnown with hPid
      rcases (mem_owned_iff obj fd).mp hOwned with ⟨hFd, -⟩
      refine ⟨i, ?_⟩
      rw [hObj, hPid, ← hFd]
    · rcases hInv.books.count_acquired fd with
        ⟨-, hCount⟩ | ⟨hNone, -⟩
      · rw [List.count_eq_zero.mpr (hInv.closed fd)]
          at hCount
        exact hCount
      · exact absurd hMem (hNone i)
  held := by
    intro i fd hMem
    rcases (mem_held_iff w i fd).mp hMem with
      ⟨obj, hObj, hOwned⟩
    exact ⟨obj.mPid, hInv.known i obj fd hObj hOwned⟩
  single := fun i j fd hFirst hSecond =>
    hInv.books.single hFirst hSecond
  safe := hInv.safe

------------------------------------------------------------
-- Steps
------------------------------------------------------------

/- One object is replaced by one that holds the same. -/
theorem Inv.replace
    {w : World ι} (hInv : Inv w)
    (i : ι) (obj : Option SubProc)
    (hSame :
      Places.heldBy SubProc.owned obj = w.held i)
    (hPid :
      ∀ new fd, obj = some new → fd ∈ new.owned →
        w.fate fd = .alive new.mPid) :
    Inv { w with objs := Function.update w.objs i obj } := by
  have hHeld :
      (World.held
        { w with objs := Function.update w.objs i obj }) =
        w.held := by
    unfold World.held at hSame ⊢
    rw [Places.held_update, hSame, Function.update_eq_self]
  refine
    { books := ?_
      closed := hInv.closed
      known := ?_
      alive := ?_
      safe := hInv.safe }
  · rw [hHeld]
    exact hInv.books
  · intro k other fd hOther hMem
    simp only at hOther ⊢
    by_cases hk : k = i
    · rw [hk, Function.update_self] at hOther
      exact hPid other fd hOther hMem
    · rw [Function.update_of_ne hk] at hOther
      exact hInv.known k other fd hOther hMem
  · rw [hHeld]
    exact hInv.alive

theorem Inv.create
    {w : World ι} (hInv : Inv w)
    {i : ι} (hNone : w.objs i = none) :
    Inv (w.create i) := by
  apply hInv.replace
  · unfold World.held Places.held
    rw [hNone]
    rfl
  · intro new fd hNew hMem
    injection hNew with hNew
    rw [← hNew] at hMem
    exact absurd hMem List.not_mem_nil

omit [DecidableEq ι] in
theorem held_of_none
    {w : World ι} {i : ι} (hNone : w.objs i = none) :
    w.held i = [] := by
  unfold World.held Places.held
  rw [hNone]
  rfl

theorem Inv.spawn
    {w : World ι} (hInv : Inv w)
    {i : ι} {pid : ProcessID} {fd : FileNum}
    (hNone : w.objs i = none) (hValid : fd ≠ .invalid)
    (hFresh : ∀ k, fd ∉ w.held k) :
    Inv (w.spawn i pid fd) := by
  have hOwned : SubProc.owned ⟨pid, ⟨fd⟩⟩ = [fd] :=
    FileDescriptor.owned_of_ne hValid
  have hHeld :
      (w.spawn i pid fd).held =
        Function.update w.held i [fd] := by
    unfold World.held World.spawn
    rw [Places.held_update, Places.heldBy_some, hOwned]
  refine
    { books := ?_
      closed := ?_
      known := ?_
      alive := ?_
      safe := ?_ }
  · rw [hHeld]
    apply hInv.books.acquire
    · rw [held_of_none hNone]
    · exact hFresh
  · intro other hMem
    rcases List.mem_cons.mp hMem with hHead | hTail
    · cases hHead
    · exact hInv.closed other hTail
  · intro k obj other hObj hMem
    simp only [World.spawn] at hObj ⊢
    by_cases hk : k = i
    · rw [hk, Function.update_self] at hObj
      injection hObj with hObj
      rw [← hObj, hOwned, List.mem_singleton] at hMem
      rw [hMem, Function.update_self, ← hObj]
    · rw [Function.update_of_ne hk] at hObj
      have hOther : other ≠ fd := by
        intro hSame
        rw [hSame] at hMem
        exact
          hFresh k
            ((mem_held_iff w k fd).mpr ⟨obj, hObj, hMem⟩)
      rw [Function.update_of_ne hOther]
      exact hInv.known k obj other hObj hMem
  · intro other pid' hAlive
    rw [hHeld]
    simp only [World.spawn] at hAlive
    by_cases hSame : other = fd
    · refine ⟨i, ?_⟩
      rw [Function.update_self, hSame]
      exact List.mem_singleton.mpr rfl
    · rw [Function.update_of_ne hSame] at hAlive
      rcases hInv.alive other pid' hAlive with ⟨k, hMem⟩
      have hk : k ≠ i := by
        intro hPlace
        rw [hPlace, held_of_none hNone] at hMem
        exact absurd hMem List.not_mem_nil
      refine ⟨k, ?_⟩
      rw [Function.update_of_ne hk]
      exact hMem
  · intro other hAborted
    rcases hInv.safe other hAborted with ⟨pid', hAlive⟩
    simp only [World.spawn]
    by_cases hSame : other = fd
    · rw [hSame, Function.update_self]
      exact ⟨pid, rfl⟩
    · rw [Function.update_of_ne hSame]
      exact ⟨pid', hAlive⟩

omit [DecidableEq ι] in
theorem held_of_some
    {w : World ι} {i : ι} {obj : SubProc}
    (hObj : w.objs i = some obj) : w.held i = obj.owned := by
  unfold World.held Places.held
  rw [hObj]
  rfl

theorem owned_of_running
    {obj : SubProc} (hRunning : obj.running = true) :
    obj.owned = [obj.mChildFd.mFd] := by
  unfold SubProc.running at hRunning
  unfold SubProc.owned FileDescriptor.owned
  rw [if_pos hRunning]

theorem owned_of_not_running
    {obj : SubProc} (hNot : ¬ obj.running = true) :
    obj.owned = [] := by
  unfold SubProc.running at hNot
  unfold SubProc.owned FileDescriptor.owned
  rw [if_neg hNot]

/- The object at a place lets go of its child. -/
theorem Inv.release
    {w : World ι} (hInv : Inv w)
    (hRuns : w.aborted = none)
    {i : ι} {obj : SubProc}
    (hObj : w.objs i = some obj)
    (hRunning : obj.running = true) :
    Inv
      { objs := Function.update w.objs i (some {})
        log := .settled .closed obj.mChildFd.mFd :: w.log
        fate :=
          Function.update w.fate obj.mChildFd.mFd .gone
        aborted := w.aborted } := by
  have hHere : w.held i = [obj.mChildFd.mFd] :=
    (held_of_some hObj).trans (owned_of_running hRunning)
  have hMem : obj.mChildFd.mFd ∈ w.held i := by
    rw [hHere]
    exact List.mem_singleton.mpr rfl
  have hHeld :
      Places.held SubProc.owned
          (Function.update w.objs i (some {})) =
        Function.update w.held i [] := by
    rw [Places.held_update]
    rfl
  refine
    { books := ?_
      closed := ?_
      known := ?_
      alive := ?_
      safe := ?_ }
  · unfold World.held
    rw [hHeld]
    apply hInv.books.settle
    rw [hHere]
  · intro other hEntry
    rcases List.mem_cons.mp hEntry with hHead | hTail
    · cases hHead
    · exact hInv.closed other hTail
  · intro k new other hNew hOther
    simp only at hNew ⊢
    by_cases hk : k = i
    · rw [hk, Function.update_self] at hNew
      injection hNew with hNew
      rw [← hNew] at hOther
      exact absurd hOther List.not_mem_nil
    · rw [Function.update_of_ne hk] at hNew
      have hNe : other ≠ obj.mChildFd.mFd := by
        intro hSame
        have hHolds :=
          (mem_held_iff w k other).mpr ⟨new, hNew, hOther⟩
        rw [hSame] at hHolds
        exact hk (hInv.books.single hHolds hMem)
      rw [Function.update_of_ne hNe]
      exact hInv.known k new other hNew hOther
  · intro other pid hAlive
    simp only at hAlive
    unfold World.held
    rw [hHeld]
    by_cases hSame : other = obj.mChildFd.mFd
    · rw [hSame, Function.update_self] at hAlive
      cases hAlive
    · rw [Function.update_of_ne hSame] at hAlive
      rcases hInv.alive other pid hAlive with ⟨k, hOther⟩
      have hk : k ≠ i := by
        intro hPlace
        rw [hPlace, hHere, List.mem_singleton] at hOther
        exact hSame hOther
      refine ⟨k, ?_⟩
      rw [Function.update_of_ne hk]
      exact hOther
  · intro other hAborted
    rw [hRuns] at hAborted
    cases hAborted

/- A method that does nothing, or lets go of the child. -/
theorem Inv.act
    {w : World ι} (hInv : Inv w)
    (hRuns : w.aborted = none)
    (i : ι) {α : Type} {m : Method Host α}
    (hEffect :
      ∀ s, (m.run s).2 = s ∨ (m.run s).2 = s.release) :
    Inv (w.act i m) := by
  unfold World.act
  cases hObj : w.objs i with
  | none => exact hInv
  | some obj =>
      simp only
      rcases hEffect ⟨obj, w.log, w.fate⟩ with hSame | hLet
      · have hKeep :
            Function.update w.objs i (some obj) = w.objs := by
          rw [← hObj]
          exact Function.update_eq_self i w.objs
        rw [hSame, hKeep]
        exact hInv
      · rw [hLet]
        by_cases hRunning : obj.running = true
        · simp only [Host.release, Host.consume, hRunning,
            if_true, owned_of_running hRunning,
            List.map_cons, List.map_nil,
            List.singleton_append]
          exact hInv.release hRuns hObj hRunning
        · have hOwned := owned_of_not_running hRunning
          simp only [Host.release, Host.consume, hRunning,
            hOwned, List.map_nil, List.nil_append]
          apply hInv.replace
          · rw [held_of_some hObj, hOwned]
            rfl
          · intro new fd hNew hMem
            injection hNew with hNew
            rw [← hNew] at hMem
            exact absurd hMem List.not_mem_nil

/- An object that is running ends the process instead. -/
omit [DecidableEq ι] in
theorem Inv.abort
    {w : World ι} (hInv : Inv w)
    {i : ι} {obj : SubProc}
    (hObj : w.objs i = some obj)
    (hRunning : obj.running = true) :
    Inv { w with aborted := some obj.mChildFd.mFd } where
  books := hInv.books
  closed := hInv.closed
  known := hInv.known
  alive := hInv.alive
  safe := by
    intro fd hAborted
    injection hAborted with hFd
    refine ⟨obj.mPid, hInv.known i obj fd hObj ?_⟩
    rw [owned_of_running hRunning, hFd]
    exact List.mem_singleton.mpr rfl

theorem Inv.destroy
    {w : World ι} (hInv : Inv w) (i : ι) :
    Inv (w.destroy i) := by
  unfold World.destroy
  cases hObj : w.objs i with
  | none => exact hInv
  | some obj =>
      by_cases hRunning : obj.running = true
      · simp only [hRunning, if_true]
        exact hInv.abort hObj hRunning
      · simp only [hRunning]
        apply hInv.replace
        · rw [held_of_some hObj,
            owned_of_not_running hRunning]
          rfl
        · intro new fd hNew _
          cases hNew

/- The child of one object goes to one that has none. -/
theorem Inv.move
    {w : World ι} (hInv : Inv w) {i j : ι}
    {target source : SubProc}
    (hTarget : w.objs i = some target)
    (hNot : ¬ target.running = true)
    (hSource : w.objs j = some source) :
    Inv
      { w with
        objs :=
          Function.update
            (Function.update w.objs i
              (some ⟨source.mPid, source.mChildFd⟩))
            j (some ⟨.invalid, source.mChildFd.reset⟩) } := by
  have hEmpty : w.held i = [] :=
    (held_of_some hTarget).trans (owned_of_not_running hNot)
  have hTaken :
      Places.heldBy SubProc.owned
          (some ⟨source.mPid, source.mChildFd⟩) =
        w.held j :=
    (held_of_some hSource).symm
  have hLeft :
      Places.heldBy SubProc.owned
          (some ⟨.invalid, source.mChildFd.reset⟩) = [] :=
    rfl
  have hHeld :
      Places.held SubProc.owned
          (Function.update
            (Function.update w.objs i
              (some ⟨source.mPid, source.mChildFd⟩))
            j (some ⟨.invalid, source.mChildFd.reset⟩)) =
        Function.update
          (Function.update w.held i (w.held j)) j [] :=
    Places.held_move hTaken hLeft
  refine
    { books :=
        Places.sound_of_move hInv.books hTaken hLeft hEmpty
      closed := hInv.closed
      known := ?_
      alive := ?_
      safe := hInv.safe }
  · intro k new fd hNew hMem
    simp only at hNew ⊢
    by_cases hj : k = j
    · rw [hj, Function.update_self] at hNew
      injection hNew with hNew
      rw [← hNew] at hMem
      exact absurd hMem List.not_mem_nil
    · rw [Function.update_of_ne hj] at hNew
      by_cases hi : k = i
      · rw [hi, Function.update_self] at hNew
        injection hNew with hNew
        rw [← hNew] at hMem ⊢
        exact hInv.known j source fd hSource hMem
      · rw [Function.update_of_ne hi] at hNew
        exact hInv.known k new fd hNew hMem
  · intro fd pid hAlive
    rcases hInv.alive fd pid hAlive with ⟨k, hMem⟩
    have hi : k ≠ i := by
      intro hSame
      rw [hSame, hEmpty] at hMem
      exact absurd hMem List.not_mem_nil
    unfold World.held
    rw [hHeld]
    by_cases hj : k = j
    · have hij : i ≠ j := by
        intro hSame
        exact hi (hj.trans hSame.symm)
      rw [hj] at hMem
      refine ⟨i, ?_⟩
      rw [Function.update_of_ne hij, Function.update_self]
      exact hMem
    · refine ⟨k, ?_⟩
      rw [Function.update_of_ne hj, Function.update_of_ne hi]
      exact hMem

theorem Inv.moveAssign
    {w : World ι} (hInv : Inv w) (i j : ι) :
    Inv (w.moveAssign i j) := by
  unfold World.moveAssign
  cases hTarget : w.objs i with
  | none => exact hInv
  | some target =>
      cases hSource : w.objs j with
      | none => exact hInv
      | some source =>
          by_cases hRunning : target.running = true
          · simp only [hRunning, if_true]
            exact hInv.abort hTarget hRunning
          · simp only [hRunning]
            exact hInv.move hTarget hRunning hSource

------------------------------------------------------------
-- Runs
------------------------------------------------------------

/- An operation that reaps no dumped child. -/
theorem Inv.step
    {w : World ι} {op : Op ι}
    (hInv : Inv w) (hRuns : w.aborted = none)
    (hLegal : op.Legal w) (hNot : ¬ op.TakesDump) :
    Inv (w.step op) := by
  cases op with
  | create i => exact hInv.create hLegal
  | spawn i pid fd =>
      exact hInv.spawn hLegal.1 hLegal.2.1 hLegal.2.2
  | moveConstruct i j =>
      exact (hInv.create hLegal.1).moveAssign i j
  | moveAssign i j => exact hInv.moveAssign i j
  | wait i flags answer closed =>
      exact hInv.act hRuns i (wait_effect hNot closed)
  | waitTimed i polled flags answer closed =>
      exact hInv.act hRuns i (waitTimed_effect hNot closed)
  | kill i sent =>
      apply hInv.act hRuns i
      intro s
      exact Or.inl (kill_effect sent s)
  | destroy i => exact hInv.destroy i
  | runFails i pid fd sent answer closed =>
      have hSpawned : Inv (w.spawn i pid fd) :=
        hInv.spawn hLegal.1 hLegal.2.1 hLegal.2.2
      exact
        (hSpawned.act hRuns i
          (failurePath_effect hNot closed)).destroy i

/- An object that stands for a child that is gone. -/
omit [DecidableEq ι] in
theorem not_lifeCycle_of_gone
    {w : World ι} {i : ι} {obj : SubProc}
    (hObj : w.objs i = some obj)
    (hRunning : obj.running = true)
    (hGone : w.fate obj.mChildFd.mFd = .gone) :
    ¬ LifeCycle w := by
  intro hCycle
  apply (hCycle.gone _ hGone).1 i
  rw [held_of_some hObj, owned_of_running hRunning]
  exact List.mem_singleton.mpr rfl

/- The child of an object is reaped without telling it. -/
theorem act_of_consume
    {w : World ι} {i : ι} {obj : SubProc} {α : Type}
    {m : Method Host α}
    (hObj : w.objs i = some obj)
    (hRunning : obj.running = true)
    (hEffect : ∀ s, (m.run s).2 = s.consume) :
    (w.act i m).objs i = some obj ∧
      (w.act i m).fate obj.mChildFd.mFd = .gone := by
  unfold World.act
  rw [hObj]
  simp only [hEffect]
  unfold Host.consume
  simp [hRunning]

/- The destructor of a running object frees nothing. -/
theorem destroy_of_running
    {w : World ι} {i : ι} {obj : SubProc}
    (hObj : w.objs i = some obj)
    (hRunning : obj.running = true) :
    w.destroy i =
      { w with aborted := some obj.mChildFd.mFd } := by
  unfold World.destroy
  simp only [hObj, hRunning, if_true]

/- Somebody is reported about, who is not reaped yet. -/
omit [DecidableEq ι] in
theorem Reports.running
    {w : World ι} {i : ι} {flags : WaitFlags}
    {answer : Sys ChildReport}
    (hReports : Reports w i answer)
    (hDump : SubProc.TakesDump flags answer) :
    ∃ obj, w.objs i = some obj ∧ obj.running = true := by
  rcases hDump with ⟨-, -, report, -, hAnswer, -⟩
  have hHeld := hReports report hAnswer
  cases hObj : w.objs i with
  | none => exact absurd (held_of_none hObj) hHeld
  | some obj =>
      refine ⟨obj, rfl, ?_⟩
      by_contra hNot
      apply hHeld
      rw [held_of_some hObj, owned_of_not_running hNot]

theorem not_lifeCycle_of_takesDump
    {w : World ι} {op : Op ι}
    (hLegal : op.Legal w) (hDump : op.TakesDump) :
    ¬ LifeCycle (w.step op) := by
  cases op with
  | create i => exact absurd hDump id
  | spawn i pid fd => exact absurd hDump id
  | moveConstruct i j => exact absurd hDump id
  | moveAssign i j => exact absurd hDump id
  | kill i sent => exact absurd hDump id
  | destroy i => exact absurd hDump id
  | wait i flags answer closed =>
      rcases Reports.running hLegal hDump with
        ⟨obj, hObj, hRunning⟩
      have hAfter :=
        act_of_consume hObj hRunning
          (m := SubProc.wait flags answer closed) fun s => by
            rw [run_wait_state, waited_of_takesDump hDump]
      exact
        not_lifeCycle_of_gone hAfter.1 hRunning hAfter.2
  | waitTimed i polled flags answer closed =>
      rcases hDump with ⟨rfl, hDump⟩
      rcases Reports.running hLegal hDump with
        ⟨obj, hObj, hRunning⟩
      have hAfter :=
        act_of_consume hObj hRunning
          (m := SubProc.waitTimed (.ok true) flags answer
            closed) fun s => by
            unfold SubProc.waitTimed
            rw [run_wait_state, waited_of_takesDump hDump]
      exact
        not_lifeCycle_of_gone hAfter.1 hRunning hAfter.2
  | runFails i pid fd sent answer closed =>
      rcases hDump with ⟨hStd, hDump⟩
      have hObj :
          (w.spawn i pid fd).objs i = some ⟨pid, ⟨fd⟩⟩ :=
        Function.update_self i _ w.objs
      have hRunning :
          SubProc.running ⟨pid, ⟨fd⟩⟩ = true := by
        simp [SubProc.running, FileDescriptor.valid,
          hLegal.2.1]
      have hAfter :=
        act_of_consume hObj hRunning
          (m := failurePath sent answer closed) fun s => by
            rw [run_failurePath_state]
            cases sent with
            | ok sent => exact waited_of_takesDump hDump s
            | error ex =>
                simp only [hStd ex rfl, if_true]
                exact waited_of_takesDump hDump s
      have hStep :
          w.step (.runFails i pid fd sent answer closed) =
            { (w.spawn i pid fd).act i
                (failurePath sent answer closed) with
              aborted := some fd } :=
        destroy_of_running hAfter.1 hRunning
      rw [hStep]
      exact
        not_lifeCycle_of_gone hAfter.1 hRunning hAfter.2

/- No objects, no children. -/
def start : World ι where
  objs := fun _ => none
  log := []
  fate := fun _ => .unknown
  aborted := none

omit [DecidableEq ι] in
theorem inv_start : Inv (start : World ι) where
  books := sound_nil fun _ => rfl
  closed := fun _ => List.not_mem_nil
  known := by
    intro i obj fd hObj
    cases hObj
  alive := by
    intro fd pid hAlive
    cases hAlive
  safe := by
    intro fd hAborted
    cases hAborted

/-
  In every run objects and children keep in step exactly as
  long as no child that dumped core is reaped.
-/
theorem life_cycle_along_iff
    (ops : List (Op ι))
    (hLegal : machine.Legal start ops) :
    machine.Along (fun _ _ w => LifeCycle w) start ops ↔
      machine.Along (fun _ op _ => ¬ op.TakesDump)
        start ops := by
  refine
    Machine.along_iff_of_invariant Inv
      ?_ ?_ ops start inv_start hLegal
  · intro w op hInv hOp hNot
    have hStep := hInv.step hOp.1 hOp.2 hNot
    exact ⟨hStep, hStep.lifeCycle⟩
  · intro w op _ hOp hDump
    exact
      not_lifeCycle_of_takesDump hOp.2
        (Classical.not_not.mp hDump)

/- A child with PID 7 and what `waitid()` says about it. -/
def reportOf (event : ChildEvent) : ChildReport where
  event := event
  pid := 7
  uid := 0
  utime := 0
  stime := 0
  pid_ne_zero := by decide

omit [DecidableEq ι] in
theorem not_takesDump_exit
    (flags : WaitFlags) (code : UInt8) :
    ¬ SubProc.TakesDump flags
      (.ok (reportOf (.exited code))) := by
  rintro ⟨-, -, report, sig, hAnswer, hEvent⟩
  cases hAnswer
  cases hEvent

/-
  A look that leaves the child, a failing poll, a wait that
  gets it, a move and the end of both objects.
-/
theorem life_cycle_along_exit :
    machine.Along (fun _ _ w => LifeCycle w) start
      [.spawn true ⟨7⟩ ⟨3⟩,
        .wait true ⟨false, true⟩
          (.ok (reportOf (.exited 0))) (.ok ()),
        .waitTimed true (.ok false) ⟨false, false⟩
          (.ok (reportOf (.exited 0))) (.ok ()),
        .wait true ⟨false, false⟩
          (.ok (reportOf (.exited 0))) (.ok ()),
        .moveConstruct false true,
        .destroy true,
        .destroy false] := by
  refine
    (life_cycle_along_iff
      [.spawn true ⟨7⟩ ⟨3⟩,
        .wait true ⟨false, true⟩
          (.ok (reportOf (.exited 0))) (.ok ()),
        .waitTimed true (.ok false) ⟨false, false⟩
          (.ok (reportOf (.exited 0))) (.ok ()),
        .wait true ⟨false, false⟩
          (.ok (reportOf (.exited 0))) (.ok ()),
        .moveConstruct false true,
        .destroy true,
        .destroy false] ?_).mpr ?_
  · refine
      ⟨⟨rfl, rfl, by decide, ?_⟩, ⟨rfl, ?_⟩, ⟨rfl, ?_⟩,
        ⟨rfl, ?_⟩, ⟨rfl, rfl, rfl⟩, ⟨rfl, rfl⟩, ⟨rfl, rfl⟩,
        trivial⟩
    · intro place
      exact List.not_mem_nil
    all_goals
      intro report _
      exact List.cons_ne_nil _ _
  · refine
      ⟨id, not_takesDump_exit _ 0, ?_,
        not_takesDump_exit _ 0, id, id, id, trivial⟩
    rintro ⟨hPolled, -⟩
    cases hPolled

/-
  A child that was killed and dumped core. The object does
  not let go of it, so its destructor ends the process.
-/
theorem dumped_child_aborts :
    let ops : List (Op Unit) :=
      [.spawn () ⟨7⟩ ⟨3⟩,
        .wait () ⟨false, false⟩
          (.ok (reportOf
            (.killed ⟨11, by decide, by decide⟩ true)))
          (.ok ()),
        .destroy ()]
    machine.Legal start ops ∧
      ¬ machine.Along (fun _ _ w => LifeCycle w) start ops ∧
      (machine.run start ops).fate ⟨3⟩ = .gone ∧
      (machine.run start ops).aborted = some ⟨3⟩ := by
  intro ops
  refine ⟨?_, ?_, rfl, rfl⟩
  · refine
      ⟨⟨rfl, rfl, by decide, ?_⟩, ⟨rfl, ?_⟩, ⟨rfl, rfl⟩,
        trivial⟩
    · intro k
      exact List.not_mem_nil
    · intro report _
      exact List.cons_ne_nil _ _
  · rintro ⟨-, hWait, -⟩
    exact
      (hWait.gone ⟨3⟩ rfl).1 () (List.mem_singleton.mpr rfl)

end Worlds

end SubProc

end Cosmos

