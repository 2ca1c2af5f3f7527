import LibCosmos.FS.FileDescriptor

/-
  File and directory objects that own a descriptor or
  borrow it (`include/fs/FileBase.hxx`,
  `include/fs/FDFile.hxx`, `include/fs/File.hxx`,
  `include/fs/Directory.hxx` and their sources).

  Main declarations:
    * `fsOpen`
    * `FDFile`, `FDFile.close`, `FDFile.openFd`,
      `FDFile.takeOwnership`, `FDFile.releaseOwnership`
    * `FDFile.openPath`, of the derived class `File`
    * `Directory`, `Directory.close`, `Directory.openFd`,
      `Directory.openPath`
    * the `trade` lemma of each method
-/

namespace Cosmos

open Custody

------------------------------------------------------------
-- Opening by Path
------------------------------------------------------------

/-
  A call of `fs::open` or `fs::open_at`: whether the flags
  contain `CREATE` or `TMPFILE`, whether a file mode is
  passed, and what the kernel answers.
-/
structure PathOpen where
  creating : Bool
  hasMode : Bool
  answer : Sys FileNum

/- `fs::open`; `fs::open_at` has the same code. -/
def fsOpen {T : Type} (label : String) (call : PathOpen) :
    Method (Frame T) FileDescriptor :=
  if call.creating && !call.hasMode then
    Command.raise
      (.usageError
        (str ("the given open flags require an " ++
          "fmode argument")))
  else do
    let fd ← acquire label call.answer
    pure ⟨fd⟩

/- The descriptor that the call yields, if it does. -/
def PathOpen.result (call : PathOpen) : Option FileNum :=
  if call.creating && !call.hasMode then none
  else
    match call.answer with
    | .ok fd => some fd
    | .error _ => none

theorem run_fsOpen_of_some
    {T : Type} {call : PathOpen} {fd : FileNum}
    (hResult : call.result = some fd)
    (label : String) (s : Frame T) :
    (fsOpen label call).run s =
      (.returned ⟨fd⟩,
        { s with log := .acquired fd :: s.log }) := by
  unfold PathOpen.result at hResult
  unfold fsOpen
  split at hResult
  · cases hResult
  · next hMode =>
      simp only [hMode]
      cases hAnswer : call.answer with
      | ok d =>
          simp only [hAnswer, Option.some.injEq] at hResult
          subst hResult
          rfl
      | error e => simp [hAnswer] at hResult

theorem run_fsOpen_of_none
    {T : Type} {call : PathOpen}
    (hResult : call.result = none)
    (label : String) (s : Frame T) :
    ∃ ex, (fsOpen label call).run s = (.raised ex, s) := by
  unfold PathOpen.result at hResult
  unfold fsOpen
  split at hResult
  · next hMode =>
      simp only [hMode]
      exact ⟨_, rfl⟩
  · next hMode =>
      simp only [hMode]
      cases hAnswer : call.answer with
      | ok d => simp [hAnswer] at hResult
      | error e => exact ⟨_, rfl⟩

------------------------------------------------------------
-- FDFile and File
------------------------------------------------------------

structure FDFile where
  mFd : FileDescriptor := {}
  mAutoClose : Bool := true
deriving DecidableEq, Repr

namespace FDFile

/- What the object has under its ownership. -/
def owned (f : FDFile) : List FileNum :=
  if f.mAutoClose then f.mFd.owned else []

/- `FileBase::close`, of the base class. -/
def baseClose (closed : Sys Unit) :
    Method (Frame FDFile) Unit := do
  let f ← Frame.self
  if f.mFd.valid then
    Frame.member FDFile.mFd (fun fd f => { f with mFd := fd })
      (FileDescriptor.close closed)
  else pure ()

/- `FDFile::close`. -/
def close (closed : Sys Unit) :
    Method (Frame FDFile) Unit := do
  let f ← Frame.self
  if !f.mAutoClose then
    Frame.assign fun f =>
      { mFd := f.mFd.reset, mAutoClose := true }
  else baseClose closed

/- `FDFile::open`. -/
def openFd (fd : FileDescriptor) (autoClose : Bool) :
    Method (Frame FDFile) Unit := do
  let f ← Frame.self
  Frame.assign fun f => { f with mFd := fd }
  Frame.assign fun f => { f with mAutoClose := autoClose }
  if autoClose then Frame.entrust f.owned fd else pure ()

/- `File::open` with a path; `label` names the system call. -/
def openPath
    (label : String) (closed : Sys Unit) (call : PathOpen) :
    Method (Frame FDFile) Unit := do
  close closed
  let fd ← fsOpen label call
  Frame.assign fun f => { f with mFd := fd }

/- `FDFile::takeOwnership`. -/
def takeOwnership : Method (Frame FDFile) FileDescriptor := do
  let f ← Frame.self
  Frame.assign fun f => { f with mFd := f.mFd.reset }
  Frame.handOut f.owned
  pure f.mFd

/- `FDFile::releaseOwnership`. -/
def releaseOwnership : Method (Frame FDFile) Unit := do
  let f ← Frame.self
  Frame.assign fun f => { f with mAutoClose := false }
  Frame.handOut f.owned

/- `~FDFile` and after it `~FileBase`. -/
def destroy (closed : Sys Unit) :
    Method (Frame FDFile) Unit := do
  let f ← Frame.self
  if !f.mAutoClose then close closed else pure ()
  -- failing to close is only reported
  (baseClose closed).handle fun _ => pure ()

theorem run_baseClose
    (closed : Sys Unit) (s : Frame FDFile) :
    (baseClose closed).run s =
      (if s.this.mFd.owned = [] then .returned ()
        else FileDescriptor.closeOutcome closed,
        { this := { s.this with mFd := {} }
          log :=
            (s.this.mFd.owned.map
              (.settled .closed)).reverse ++ s.log }) := by
  rcases s with ⟨⟨⟨fd⟩, autoClose⟩, log⟩
  by_cases hValid : fd = FileNum.invalid
  · simp [baseClose, Command.run_bind, hValid,
      FileDescriptor.owned, FileDescriptor.valid]
  · simp [baseClose, Command.run_bind, hValid,
      FileDescriptor.owned, FileDescriptor.valid,
      Frame.member, FileDescriptor.run_close_owned]

/- Closing an object settles what it owned. -/
theorem run_close
    (closed : Sys Unit) (s : Frame FDFile) :
    (close closed).run s =
      (if s.this.owned = [] then .returned ()
        else FileDescriptor.closeOutcome closed,
        { this := {}
          log :=
            (s.this.owned.map
              (.settled .closed)).reverse ++ s.log }) := by
  rcases s with ⟨⟨fd, autoClose⟩, log⟩
  cases autoClose with
  | false =>
      simp [close, Command.run_bind, owned,
        FileDescriptor.reset]
  | true =>
      simp [close, Command.run_bind, owned, run_baseClose]

/- What closing an object amounts to. -/
theorem trade_close
    (free : FileNum → Prop)
    (closed : Sys Unit) (s : Frame FDFile) :
    Trade free s.this.owned s.log []
      ((close closed).run s).2.log := by
  rw [run_close]
  simpa using
    Trade.settleAll free .closed [] s.this.owned s.log

/- Taking a descriptor settles nothing. -/
theorem run_openFd
    (fd : FileDescriptor) (autoClose : Bool)
    (s : Frame FDFile) :
    (openFd fd autoClose).run s =
      (.returned (),
        { this := { mFd := fd, mAutoClose := autoClose }
          log :=
            if autoClose &&
                (fd.valid &&
                  !s.this.owned.contains fd.mFd) then
              .acquired fd.mFd :: s.log
            else s.log }) := by
  cases autoClose with
  | false => rfl
  | true =>
      simp only [openFd, Command.run_bind, Frame.run_self,
        Frame.run_assign, if_true, Frame.run_entrust,
        Bool.true_and]

theorem trade_openFd
    {free : FileNum → Prop}
    {fd : FileDescriptor} {autoClose : Bool}
    {s : Frame FDFile}
    (hFree :
      autoClose = true → fd.valid = true → free fd.mFd)
    (hMine :
      s.this.owned = [] ∨
        autoClose = true ∧ s.this.owned = fd.owned) :
    Trade free s.this.owned s.log
      ((openFd fd autoClose).run s).2.this.owned
      ((openFd fd autoClose).run s).2.log := by
  rw [run_openFd]
  exact trade_taken hFree hMine

theorem trade_openPath
    {free : FileNum → Prop}
    {label : String} {closed : Sys Unit} {call : PathOpen}
    {s : Frame FDFile}
    (hFree :
      ∀ fd, call.result = some fd →
        fd ≠ FileNum.invalid ∧ free fd) :
    Trade free s.this.owned s.log
      ((openPath label closed call).run s).2.this.owned
      ((openPath label closed call).run s).2.log := by
  have hClose := trade_close free closed s
  simp only [openPath, Command.run_bind]
  rw [run_close] at hClose ⊢
  generalize
    (s.this.owned.map (Entry.settled Way.closed)).reverse ++
      s.log = log at hClose ⊢
  by_cases hStop :
      s.this.owned ≠ [] ∧ ∃ e, closed = .error e
  · rcases hStop with ⟨hOwned, e, rfl⟩
    simp only [hOwned, if_false,
      FileDescriptor.closeOutcome]
    exact hClose
  · have hGo :
        (if s.this.owned = [] then .returned ()
          else FileDescriptor.closeOutcome closed) =
          (.returned () : Outcome Halt Exn Unit) := by
      by_cases hOwned : s.this.owned = []
      · simp [hOwned]
      · cases closed with
        | ok => simp [FileDescriptor.closeOutcome]
        | error e => exact absurd ⟨hOwned, e, rfl⟩ hStop
    simp only [hGo]
    cases hResult : call.result with
    | none =>
        rcases run_fsOpen_of_none hResult label
          (⟨{}, log⟩ : Frame FDFile) with ⟨ex, hOpen⟩
        simp only [hOpen]
        exact hClose
    | some fd =>
        rcases hFree fd hResult with ⟨hValid, hIsFree⟩
        simp only [run_fsOpen_of_some hResult label,
          Frame.run_assign, owned,
          FileDescriptor.owned_of_ne hValid, if_true]
        exact
          .acquire hClose hIsFree List.not_mem_nil (.refl _)

/- After a failure to open nothing is owned. -/
theorem owned_of_openPath_fails
    {label : String} {closed : Sys Unit} {call : PathOpen}
    {s : Frame FDFile}
    (hFails :
      ((openPath label closed call).run s).1 ≠
        .returned ()) :
    ((openPath label closed call).run s).2.this.owned =
      [] := by
  simp only [openPath, Command.run_bind, run_close]
    at hFails ⊢
  rcases
      FileDescriptor.closeOutcome_cases s.this.owned
        closed with
    hDone | ⟨ex, hDone⟩
  · simp only [hDone] at hFails ⊢
    cases hResult : call.result with
    | none =>
        rcases run_fsOpen_of_none hResult label
          (⟨{}, (s.this.owned.map
            (.settled .closed)).reverse ++ s.log⟩
              : Frame FDFile) with ⟨ex, hOpen⟩
        simp only [hOpen]
        rfl
    | some fd =>
        simp only [run_fsOpen_of_some hResult label] at hFails
        exact absurd rfl hFails
  · simp only [hDone]
    rfl

theorem trade_takeOwnership
    {free : FileNum → Prop} (s : Frame FDFile) :
    Trade free s.this.owned s.log
      (takeOwnership.run s).2.this.owned
      (takeOwnership.run s).2.log := by
  simp only [takeOwnership, Command.run_bind,
    Frame.run_self, Frame.run_assign, Frame.run_handOut,
    Command.run_pure, FileDescriptor.reset]
  have hNone :
      owned
          { s.this with mFd := ⟨FileNum.invalid⟩ } = [] := by
    simp [owned]
  rw [hNone]
  simpa using
    Trade.settleAll free .handedOut [] s.this.owned s.log

theorem trade_releaseOwnership
    {free : FileNum → Prop} (s : Frame FDFile) :
    Trade free s.this.owned s.log
      (releaseOwnership.run s).2.this.owned
      (releaseOwnership.run s).2.log := by
  simp only [releaseOwnership, Command.run_bind,
    Frame.run_self, Frame.run_assign, Frame.run_handOut]
  simpa [owned] using
    Trade.settleAll free .handedOut [] s.this.owned s.log

/- The destructor returns and leaves nothing owned. -/
theorem run_destroy
    (closed : Sys Unit) (s : Frame FDFile) :
    ∃ f log,
      (destroy closed).run s =
          (.returned (), { this := f, log := log }) ∧
        f.owned = [] ∧
        log =
          (s.this.owned.map
            (.settled .closed)).reverse ++ s.log := by
  rcases s with ⟨⟨fd, autoClose⟩, log⟩
  cases autoClose with
  | false =>
      refine ⟨{}, log, ?_, rfl, rfl⟩
      simp [destroy, Command.run_bind, run_close,
        Command.run_handle, run_baseClose, owned]
  | true =>
      refine ⟨{}, _, ?_, rfl, rfl⟩
      by_cases hOwned : fd.owned = []
      · simp [destroy, Command.run_bind,
          Command.run_handle, run_baseClose, owned, hOwned]
      · cases closed <;>
          simp [destroy, Command.run_bind,
            Command.run_handle, run_baseClose, owned,
            hOwned, FileDescriptor.closeOutcome]

end FDFile

------------------------------------------------------------
-- Directory
------------------------------------------------------------

structure Directory where
  mFd : FileDescriptor := {}
  mAutoClose : Bool := true
deriving DecidableEq, Repr

namespace Directory

def owned (d : Directory) : List FileNum :=
  if d.mAutoClose then d.mFd.owned else []

/- `Directory::close`. -/
def close (closed : Sys Unit) :
    Method (Frame Directory) Unit := do
  let d ← Frame.self
  if !d.mFd.valid then pure ()
  else do
    if d.mAutoClose then
      Frame.member Directory.mFd
        (fun fd d => { d with mFd := fd })
        (FileDescriptor.close closed)
    else
      Frame.assign fun d => { d with mFd := d.mFd.reset }
    Frame.assign fun d => { d with mAutoClose := true }

/- `Directory::open` with a descriptor. -/
def openFd (fd : FileDescriptor) (autoClose : Bool) :
    Method (Frame Directory) Unit := do
  let d ← Frame.self
  Frame.assign fun d => { d with mFd := fd }
  Frame.assign fun d => { d with mAutoClose := autoClose }
  if autoClose then Frame.entrust d.owned fd else pure ()

/-
  `Directory::open` with a path. No file mode is passed on,
  and nothing is closed.
-/
def openPath
    (label : String) (creating : Bool)
    (answer : Sys FileNum) :
    Method (Frame Directory) Unit := do
  Frame.assign fun d => { d with mAutoClose := true }
  let fd ← fsOpen label
    { creating := creating, hasMode := false,
      answer := answer }
  Frame.assign fun d => { d with mFd := fd }

/- `~Directory`. -/
def destroy (closed : Sys Unit) :
    Method (Frame Directory) Unit :=
  -- failing to close is only reported
  (close closed).handle fun _ => pure ()

theorem run_close
    (closed : Sys Unit) (s : Frame Directory) :
    ∃ outcome d,
      (close closed).run s =
          (outcome,
            { this := d
              log :=
                (s.this.owned.map
                  (.settled .closed)).reverse ++ s.log }) ∧
        d.owned = [] ∧
        ∀ h, outcome ≠ .halted h := by
  rcases s with ⟨⟨⟨fd⟩, autoClose⟩, log⟩
  by_cases hValid : fd = FileNum.invalid
  · refine ⟨.returned (), ⟨⟨fd⟩, autoClose⟩, ?_, ?_, ?_⟩
    · simp [close, Command.run_bind, owned, hValid,
        FileDescriptor.owned, FileDescriptor.valid]
    · simp [owned, FileDescriptor.owned,
        FileDescriptor.valid, hValid]
    · intro h hEq
      cases hEq
  · cases autoClose with
    | false =>
        refine ⟨.returned (), {}, ?_, rfl, ?_⟩
        · simp [close, Command.run_bind, owned, hValid,
            FileDescriptor.valid, FileDescriptor.reset]
        · intro h hEq
          cases hEq
    | true =>
        refine
          ⟨FileDescriptor.closeOutcome closed, {}, ?_, rfl,
            ?_⟩
        · cases closed <;>
            simp [close, Command.run_bind, owned, hValid,
              FileDescriptor.owned, FileDescriptor.valid,
              Frame.member, FileDescriptor.run_close_owned,
              FileDescriptor.closeOutcome]
        · intro h hEq
          cases closed <;> cases hEq

theorem trade_close
    {free : FileNum → Prop}
    (closed : Sys Unit) (s : Frame Directory) :
    Trade free s.this.owned s.log
      ((close closed).run s).2.this.owned
      ((close closed).run s).2.log := by
  rcases run_close closed s with ⟨outcome, d, hRun, hNone, -⟩
  rw [hRun, hNone]
  simpa using
    Trade.settleAll free .closed [] s.this.owned s.log

/- Taking a descriptor settles nothing. -/
theorem run_openFd
    (fd : FileDescriptor) (autoClose : Bool)
    (s : Frame Directory) :
    (openFd fd autoClose).run s =
      (.returned (),
        { this := { mFd := fd, mAutoClose := autoClose }
          log :=
            if autoClose &&
                (fd.valid &&
                  !s.this.owned.contains fd.mFd) then
              .acquired fd.mFd :: s.log
            else s.log }) := by
  cases autoClose with
  | false => rfl
  | true =>
      simp only [openFd, Command.run_bind, Frame.run_self,
        Frame.run_assign, if_true, Frame.run_entrust,
        Bool.true_and]

theorem trade_openFd
    {free : FileNum → Prop}
    {fd : FileDescriptor} {autoClose : Bool}
    {s : Frame Directory}
    (hFree :
      autoClose = true → fd.valid = true → free fd.mFd)
    (hMine :
      s.this.owned = [] ∨
        autoClose = true ∧ s.this.owned = fd.owned) :
    Trade free s.this.owned s.log
      ((openFd fd autoClose).run s).2.this.owned
      ((openFd fd autoClose).run s).2.log := by
  rw [run_openFd]
  exact trade_taken hFree hMine

/- What opening by path leaves behind. -/
theorem run_openPath
    (label : String) (creating : Bool)
    (answer : Sys FileNum) (s : Frame Directory) :
    ((openPath label creating answer).run s).2 =
      match PathOpen.result ⟨creating, false, answer⟩ with
      | some fd =>
          { this := { mFd := ⟨fd⟩, mAutoClose := true }
            log := .acquired fd :: s.log }
      | none =>
          { s with this := { s.this with mAutoClose := true } } := by
  simp only [openPath, Command.run_bind, Frame.run_assign]
  cases hResult :
      PathOpen.result ⟨creating, false, answer⟩ with
  | some fd =>
      simp only [run_fsOpen_of_some hResult label]
  | none =>
      rcases run_fsOpen_of_none hResult label
          ({ s with
              this := { s.this with mAutoClose := true } }
            : Frame Directory) with ⟨ex, hOpen⟩
      simp only [hOpen]

/- A failure to open takes hold of what was stored. -/
theorem owned_of_openPath_fails
    {label : String} {creating : Bool}
    {answer : Sys FileNum} {s : Frame Directory}
    (hFails :
      ((openPath label creating answer).run s).1 ≠
        .returned ()) :
    ((openPath label creating answer).run s).2.this.owned =
      s.this.mFd.owned := by
  simp only [run_openPath]
  cases hResult :
      PathOpen.result ⟨creating, false, answer⟩ with
  | none => simp [owned]
  | some fd =>
      simp only [openPath, Command.run_bind,
        Frame.run_assign,
        run_fsOpen_of_some hResult label] at hFails
      exact absurd rfl hFails

/-
  Opening by path is sound on an object that has nothing to
  lose, or that keeps what it owns because it fails.
-/
theorem trade_openPath
    {free : FileNum → Prop}
    {label : String} {creating : Bool}
    {answer : Sys FileNum} {s : Frame Directory}
    (hFree :
      ∀ fd,
        PathOpen.result ⟨creating, false, answer⟩ = some fd →
        fd ≠ FileNum.invalid ∧ free fd)
    (hMine :
      match PathOpen.result ⟨creating, false, answer⟩ with
      | some _ => s.this.owned = []
      | none => s.this.owned = s.this.mFd.owned) :
    Trade free s.this.owned s.log
      ((openPath label creating answer).run s).2.this.owned
      ((openPath label creating answer).run s).2.log := by
  rw [run_openPath]
  cases hResult :
      PathOpen.result ⟨creating, false, answer⟩ with
  | some fd =>
      rcases hFree fd hResult with ⟨hValid, hIsFree⟩
      rw [hResult] at hMine
      simp only [owned, FileDescriptor.owned_of_ne hValid,
        if_true] at hMine ⊢
      rw [hMine]
      exact
        .acquire .refl hIsFree List.not_mem_nil (.refl _)
  | none =>
      rw [hResult] at hMine
      have hSame :
          owned { s.this with mAutoClose := true } =
            s.this.owned := by
        simpa [owned] using hMine.symm
      simp only [hSame]
      exact .refl

theorem run_destroy
    (closed : Sys Unit) (s : Frame Directory) :
    ∃ d log,
      (destroy closed).run s =
          (.returned (), { this := d, log := log }) ∧
        d.owned = [] ∧
        log =
          (s.this.owned.map
            (.settled .closed)).reverse ++ s.log := by
  rcases run_close closed s with
    ⟨outcome, d, hRun, hNone, hHalt⟩
  refine ⟨d, _, ?_, hNone, rfl⟩
  simp only [destroy, Command.run_handle, hRun]
  cases outcome with
  | returned => rfl
  | raised => rfl
  | halted h => exact absurd rfl (hHalt h)

end Directory

end Cosmos
