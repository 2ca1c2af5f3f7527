import LibCosmos.FS.FileDescriptor

/-
  Pipe objects, which own up to two descriptors
  (`include/io/Pipe.hxx`, `src/io/Pipe.cxx`).

  Main declarations:
    * `Pipe.create`, `Pipe.closeReadEnd`,
      `Pipe.closeWriteEnd`
    * `Pipe.takeReadEndOwnership`,
      `Pipe.takeWriteEndOwnership`
    * `Pipe.destroy`
    * the `trade` lemma of each method
-/

namespace Cosmos

open Custody

structure Pipe where
  mReadEnd : FileDescriptor := {}
  mWriteEnd : FileDescriptor := {}
deriving DecidableEq, Repr

namespace Pipe

/- `PIPE_BUF` on Linux. -/
def maxAtomicWriteSize : Nat := 4096

def owned (p : Pipe) : List FileNum :=
  p.mReadEnd.owned ++ p.mWriteEnd.owned

def haveReadEnd (p : Pipe) : Bool := p.mReadEnd.valid

def haveWriteEnd (p : Pipe) : Bool := p.mWriteEnd.valid

------------------------------------------------------------
-- Operations
------------------------------------------------------------

/- The body of `Pipe::Pipe`. -/
def create (answer : Sys (FileNum × FileNum)) :
    Method (Frame Pipe) Unit := do
  let ends ← check "pipe2()" answer
  Frame.record (.acquired ends.1)
  Frame.record (.acquired ends.2)
  Frame.assign fun p => { p with mReadEnd := ⟨ends.1⟩ }
  Frame.assign fun p => { p with mWriteEnd := ⟨ends.2⟩ }

def closeReadEnd (closed : Sys Unit) :
    Method (Frame Pipe) Unit := do
  let p ← Frame.self
  if p.haveReadEnd then
    Frame.member Pipe.mReadEnd
      (fun fd p => { p with mReadEnd := fd })
      (FileDescriptor.close closed)
  else pure ()

def closeWriteEnd (closed : Sys Unit) :
    Method (Frame Pipe) Unit := do
  let p ← Frame.self
  if p.haveWriteEnd then
    Frame.member Pipe.mWriteEnd
      (fun fd p => { p with mWriteEnd := fd })
      (FileDescriptor.close closed)
  else pure ()

def takeReadEndOwnership :
    Method (Frame Pipe) FileDescriptor := do
  let p ← Frame.self
  Frame.assign fun p =>
    { p with mReadEnd := p.mReadEnd.reset }
  Frame.handOut p.mReadEnd.owned
  pure p.mReadEnd

def takeWriteEndOwnership :
    Method (Frame Pipe) FileDescriptor := do
  let p ← Frame.self
  Frame.assign fun p =>
    { p with mWriteEnd := p.mWriteEnd.reset }
  Frame.handOut p.mWriteEnd.owned
  pure p.mWriteEnd

/-
  `~Pipe`. It is implicitly `noexcept`, so an error of
  `close()` ends the process.
-/
def destroy (closed closed' : Sys Unit) :
    Method (Frame Pipe) Unit :=
  (do closeReadEnd closed
      closeWriteEnd closed').handle
    fun _ => Command.halt .terminate

------------------------------------------------------------
-- What Each Operation Does
------------------------------------------------------------

theorem run_closeReadEnd
    (closed : Sys Unit) (s : Frame Pipe) :
    (closeReadEnd closed).run s =
      (if s.this.mReadEnd.owned = [] then .returned ()
        else FileDescriptor.closeOutcome closed,
        { this := { s.this with mReadEnd := {} }
          log :=
            (s.this.mReadEnd.owned.map
              (.settled .closed)).reverse ++ s.log }) := by
  rcases s with ⟨⟨⟨fd⟩, writeEnd⟩, log⟩
  by_cases hValid : fd = FileNum.invalid
  · simp [closeReadEnd, Command.run_bind, haveReadEnd,
      hValid, FileDescriptor.owned, FileDescriptor.valid]
  · simp [closeReadEnd, Command.run_bind, haveReadEnd,
      hValid, FileDescriptor.owned, FileDescriptor.valid,
      Frame.member, FileDescriptor.run_close_owned]

theorem run_closeWriteEnd
    (closed : Sys Unit) (s : Frame Pipe) :
    (closeWriteEnd closed).run s =
      (if s.this.mWriteEnd.owned = [] then .returned ()
        else FileDescriptor.closeOutcome closed,
        { this := { s.this with mWriteEnd := {} }
          log :=
            (s.this.mWriteEnd.owned.map
              (.settled .closed)).reverse ++ s.log }) := by
  rcases s with ⟨⟨readEnd, ⟨fd⟩⟩, log⟩
  by_cases hValid : fd = FileNum.invalid
  · simp [closeWriteEnd, Command.run_bind, haveWriteEnd,
      hValid, FileDescriptor.owned, FileDescriptor.valid]
  · simp [closeWriteEnd, Command.run_bind, haveWriteEnd,
      hValid, FileDescriptor.owned, FileDescriptor.valid,
      Frame.member, FileDescriptor.run_close_owned]

/- The read end leaves first, whatever the write end is. -/
theorem trade_settle_read
    (free : FileNum → Prop) {log : List (Entry FileNum)}
    (way : Way) (p : Pipe) :
    Trade free p.owned log p.mWriteEnd.owned
      ((p.mReadEnd.owned.map (.settled way)).reverse ++
        log) :=
  Trade.settleAll free way p.mWriteEnd.owned
    p.mReadEnd.owned log

theorem trade_settle_write
    (free : FileNum → Prop) {log : List (Entry FileNum)}
    (way : Way) (p : Pipe) :
    Trade free p.owned log p.mReadEnd.owned
      ((p.mWriteEnd.owned.map (.settled way)).reverse ++
        log) := by
  have hSwap : Trade free p.owned log
      (p.mWriteEnd.owned ++ p.mReadEnd.owned) log :=
    .keep List.perm_append_comm
  exact
    hSwap.trans
      (Trade.settleAll free way p.mReadEnd.owned
        p.mWriteEnd.owned log)

theorem trade_create
    {free : FileNum → Prop}
    {answer : Sys (FileNum × FileNum)}
    {log : List (Entry FileNum)}
    (hFree :
      ∀ ends, answer = .ok ends →
        ends.1 ≠ FileNum.invalid ∧ free ends.1 ∧
          ends.2 ≠ FileNum.invalid ∧ free ends.2 ∧
            ends.1 ≠ ends.2) :
    Trade free [] log
      ((create answer).run ⟨{}, log⟩).2.this.owned
      ((create answer).run ⟨{}, log⟩).2.log := by
  cases answer with
  | error e => exact .refl
  | ok ends =>
      rcases hFree ends rfl with
        ⟨hRead, hReadFree, hWrite, hWriteFree, hNe⟩
      have hRun :
          (create (.ok ends)).run ⟨{}, log⟩ =
            (.returned (),
              { this := ⟨⟨ends.1⟩, ⟨ends.2⟩⟩
                log :=
                  .acquired ends.2 :: .acquired ends.1 ::
                    log }) := rfl
      rw [hRun]
      simp only [owned, FileDescriptor.owned_of_ne hRead,
        FileDescriptor.owned_of_ne hWrite]
      refine
        .acquire
          (.acquire .refl hReadFree List.not_mem_nil
            (.refl _))
          hWriteFree ?_ (.swap _ _ _)
      simpa using hNe.symm

theorem trade_closeReadEnd
    (free : FileNum → Prop)
    (closed : Sys Unit) (s : Frame Pipe) :
    Trade free s.this.owned s.log
      ((closeReadEnd closed).run s).2.this.owned
      ((closeReadEnd closed).run s).2.log := by
  rw [run_closeReadEnd]
  exact trade_settle_read free .closed s.this

theorem trade_closeWriteEnd
    (free : FileNum → Prop)
    (closed : Sys Unit) (s : Frame Pipe) :
    Trade free s.this.owned s.log
      ((closeWriteEnd closed).run s).2.this.owned
      ((closeWriteEnd closed).run s).2.log := by
  rw [run_closeWriteEnd]
  simpa [owned] using
    trade_settle_write free .closed s.this

theorem trade_takeReadEndOwnership
    (free : FileNum → Prop) (s : Frame Pipe) :
    Trade free s.this.owned s.log
      (takeReadEndOwnership.run s).2.this.owned
      (takeReadEndOwnership.run s).2.log := by
  simp only [takeReadEndOwnership, Command.run_bind,
    Frame.run_self, Frame.run_assign, Frame.run_handOut,
    Command.run_pure, FileDescriptor.reset]
  exact trade_settle_read free .handedOut s.this

theorem trade_takeWriteEndOwnership
    (free : FileNum → Prop) (s : Frame Pipe) :
    Trade free s.this.owned s.log
      (takeWriteEndOwnership.run s).2.this.owned
      (takeWriteEndOwnership.run s).2.log := by
  simp only [takeWriteEndOwnership, Command.run_bind,
    Frame.run_self, Frame.run_assign, Frame.run_handOut,
    Command.run_pure, FileDescriptor.reset]
  simpa [owned] using
    trade_settle_write free .handedOut s.this

/-
  The destructor either settles both ends or ends the
  process at the first end that fails to close.
-/
theorem trade_destroy
    (free : FileNum → Prop)
    (closed closed' : Sys Unit) (s : Frame Pipe) :
    Trade free s.this.owned s.log
        ((destroy closed closed').run s).2.this.owned
        ((destroy closed closed').run s).2.log ∧
      (((destroy closed closed').run s).1 =
          .halted .terminate ∨
        ((destroy closed closed').run s).1 =
            .returned () ∧
          ((destroy closed closed').run s).2.this.owned =
            []) := by
  have hRead := trade_closeReadEnd free closed s
  simp only [destroy, Command.run_handle, Command.run_bind]
  rw [run_closeReadEnd] at hRead ⊢
  rcases
      FileDescriptor.closeOutcome_cases
        s.this.mReadEnd.owned closed with
    hFirst | ⟨ex, hFirst⟩
  · simp only [hFirst] at hRead ⊢
    have hBoth :=
      hRead.trans
        (trade_closeWriteEnd free closed'
          { this := { s.this with mReadEnd := {} }
            log :=
              (s.this.mReadEnd.owned.map
                (.settled .closed)).reverse ++ s.log })
    rw [run_closeWriteEnd] at hBoth ⊢
    rcases
        FileDescriptor.closeOutcome_cases
          s.this.mWriteEnd.owned closed' with
      hSecond | ⟨ex, hSecond⟩
    · simp only [hSecond] at hBoth ⊢
      exact ⟨hBoth, Or.inr ⟨trivial, rfl⟩⟩
    · simp only [hSecond] at hBoth ⊢
      exact ⟨hBoth, Or.inl rfl⟩
  · simp only [hFirst] at hRead ⊢
    exact ⟨hRead, Or.inl rfl⟩

end Pipe

end Cosmos
