import LibCosmos.Core.Types
import LibCosmos.Foundation.Custody

/-
  File descriptors as the library's objects use them, and
  the log of what the kernel opened and was asked to close
  (`include/fs/FileDescriptor.hxx`,
  `src/fs/FileDescriptor.cxx`).

  The answer of a system call is an argument of the method
  that makes the call. A call of `close()` releases the
  descriptor also when it reports an error.

  Main declarations:
    * `Sys`, `Frame`, `Frame.entrust`, `Frame.handOut`
    * `FileDescriptor.close`, `FileDescriptor.closeLocal`
    * `FileDescriptor.run_close`,
      `FileDescriptor.run_close_owned`
-/

namespace Cosmos

open Custody

------------------------------------------------------------
-- System Calls and Their Log
------------------------------------------------------------

/- What a system call answers: a result or an errno. -/
abbrev Sys (α : Type) : Type := Except Errno α

/- An object and the descriptor log of its process. -/
structure Frame (T : Type) where
  this : T
  log : List (Custody.Entry FileNum)

namespace Frame

variable {T α : Type}

/- Note an event in the log. -/
def record (entry : Custody.Entry FileNum) :
    Method (Frame T) Unit :=
  Command.modify fun s => { s with log := entry :: s.log }

@[simp] theorem run_record
    (entry : Custody.Entry FileNum) (s : Frame T) :
    (record entry).run s =
      (.returned (), { s with log := entry :: s.log }) :=
  rfl

/- `m_… = value` on the object. -/
def assign (f : T → T) : Method (Frame T) Unit :=
  Command.modify fun s => { s with this := f s.this }

@[simp] theorem run_assign (f : T → T) (s : Frame T) :
    (assign f).run s =
      (.returned (), { s with this := f s.this }) :=
  rfl

/- A call of a method of a member of the object. -/
def member {U : Type}
    (read : T → U)
    (write : U → T → T)
    (m : Method (Frame U) α) : Method (Frame T) α :=
  m.focus
    (fun s => ⟨read s.this, s.log⟩)
    (fun t s => ⟨write t.this s.this, t.log⟩)

/- The object itself. -/
def self : Method (Frame T) T := do
  let s ← Command.get
  pure s.this

@[simp] theorem run_self (s : Frame T) :
    (self : Method (Frame T) T).run s =
      (.returned s.this, s) :=
  rfl

end Frame

/- `throw ApiError{msg}` after a call that set errno. -/
def throwApi {σ α : Type} (e : Errno) (msg : String) :
    Method σ α :=
  Command.raise (.apiError e (str msg))

@[simp] theorem run_throwApi
    {σ α : Type} (e : Errno) (msg : String) (s : σ) :
    (throwApi e msg : Method σ α).run s =
      (.raised (.apiError e (str msg)), s) :=
  rfl

/- The result of a system call, or the error it reports. -/
def check {σ α : Type} (msg : String) :
    Sys α → Method σ α
| .ok a => pure a
| .error e => throwApi e msg

@[simp] theorem run_check_ok
    {σ α : Type} (msg : String) (a : α) (s : σ) :
    (check msg (.ok a) : Method σ α).run s =
      (.returned a, s) :=
  rfl

@[simp] theorem run_check_error
    {σ α : Type} (msg : String) (e : Errno) (s : σ) :
    (check msg (.error e) : Method σ α).run s =
      (.raised (.apiError e (str msg)), s) :=
  rfl

/- A system call that opens a descriptor. -/
def acquire {T : Type} (msg : String) (answer : Sys FileNum) :
    Method (Frame T) FileNum := do
  let fd ← check msg answer
  Frame.record (.acquired fd)
  pure fd

@[simp] theorem run_acquire_ok
    {T : Type} (msg : String) (fd : FileNum) (s : Frame T) :
    (acquire msg (.ok fd)).run s =
      (.returned fd,
        { s with log := .acquired fd :: s.log }) :=
  rfl

@[simp] theorem run_acquire_error
    {T : Type} (msg : String) (e : Errno) (s : Frame T) :
    (acquire msg (.error e)).run s =
      (.raised (.apiError e (str msg)), s) :=
  rfl

------------------------------------------------------------
-- File Descriptors
------------------------------------------------------------

/- A plain descriptor object; it closes nothing itself. -/
structure FileDescriptor where
  mFd : FileNum := FileNum.invalid
deriving DecidableEq, Repr

namespace FileDescriptor

def valid (fd : FileDescriptor) : Bool :=
  fd.mFd != FileNum.invalid

/- `FileDescriptor::reset` without an argument. -/
def reset (_ : FileDescriptor) : FileDescriptor :=
  ⟨FileNum.invalid⟩

/- What an object with this member owns. -/
def owned (fd : FileDescriptor) : List FileNum :=
  if fd.valid then [fd.mFd] else []

@[simp] theorem owned_invalid :
    owned ⟨FileNum.invalid⟩ = [] := rfl

theorem owned_of_ne
    {n : FileNum} (hValid : n ≠ FileNum.invalid) :
    owned ⟨n⟩ = [n] := by
  simp [owned, valid, hValid]

/- `FileDescriptor::close`. -/
def close (answer : Sys Unit) :
    Method (Frame FileDescriptor) Unit := do
  let fd ← Frame.self
  if fd.valid then do
    Frame.assign reset
    Frame.record (.settled .closed fd.mFd)
    check "close()" answer
  else
    pure ()

/- `close()` on a descriptor object that is a local. -/
def closeLocal {T : Type} (fd : FileNum) (answer : Sys Unit) :
    Method (Frame T) Unit :=
  (close answer).focus
    (fun s => ⟨⟨fd⟩, s.log⟩)
    (fun t s => { s with log := t.log })

/- The outcome of a call of `::close`. -/
def closeOutcome : Sys Unit → Outcome Halt Exn Unit
| .ok () => .returned ()
| .error e => .raised (.apiError e (str "close()"))

/- Closing what may be owned returns or throws. -/
theorem closeOutcome_cases
    (mine : List FileNum) (answer : Sys Unit) :
    (if mine = [] then .returned ()
        else closeOutcome answer) =
      (.returned () : Outcome Halt Exn Unit) ∨
    ∃ ex,
      (if mine = [] then .returned ()
        else closeOutcome answer) =
        (.raised ex : Outcome Halt Exn Unit) := by
  by_cases hNone : mine = []
  · exact Or.inl (by simp [hNone])
  · cases answer with
    | ok => exact Or.inl (by simp [closeOutcome])
    | error e =>
        exact Or.inr ⟨_, by simp [hNone, closeOutcome]; rfl⟩

theorem run_close
    (answer : Sys Unit) (s : Frame FileDescriptor) :
    (close answer).run s =
      if s.this.valid then
        (closeOutcome answer,
          { this := ⟨FileNum.invalid⟩
            log := .settled .closed s.this.mFd :: s.log })
      else (.returned (), s) := by
  by_cases hValid : s.this.valid = true
  · cases answer <;>
      simp [close, Command.run_bind, hValid, reset,
        closeOutcome]
  · simp [close, Command.run_bind, hValid]

/- What is left of a descriptor after `close()`. -/
theorem run_close_owned
    (answer : Sys Unit) (s : Frame FileDescriptor) :
    (close answer).run s =
      (if s.this.owned = [] then .returned ()
        else closeOutcome answer,
        { this := ⟨FileNum.invalid⟩
          log :=
            s.this.owned.map (.settled .closed) ++
              s.log }) := by
  rcases s with ⟨⟨fd⟩, log⟩
  by_cases hValid : fd = FileNum.invalid
  · simp [run_close, owned, valid, hValid]
  · simp [run_close, owned, valid, hValid]

theorem run_closeLocal
    {T : Type} (fd : FileNum) (answer : Sys Unit)
    (s : Frame T) :
    (closeLocal fd answer).run s =
      if fd ≠ FileNum.invalid then
        (closeOutcome answer,
          { s with log := .settled .closed fd :: s.log })
      else (.returned (), s) := by
  by_cases hValid : fd = FileNum.invalid
  · simp [closeLocal, run_close, valid, hValid]
  · simp [closeLocal, run_close, valid, hValid]

end FileDescriptor

------------------------------------------------------------
-- Passing Ownership
------------------------------------------------------------

/-
  The caller puts a descriptor under the ownership of an
  object. One that the object owns already is not a new
  acquisition.
-/
def Frame.entrust {T : Type}
    (mine : List FileNum) (fd : FileDescriptor) :
    Method (Frame T) Unit :=
  if fd.valid && !mine.contains fd.mFd then
    Frame.record (.acquired fd.mFd)
  else pure ()

/- The caller gets what an object owns. -/
def Frame.handOut {T : Type} (mine : List FileNum) :
    Method (Frame T) Unit :=
  Command.forEach
    (fun fd => Frame.record (.settled .handedOut fd)) mine

theorem Frame.run_handOut {T : Type} (mine : List FileNum) :
    ∀ s : Frame T,
      (Frame.handOut mine).run s =
        (.returned (),
          { s with
            log :=
              (mine.map (.settled .handedOut)).reverse ++
                s.log }) := by
  induction mine with
  | nil =>
      intro s
      rfl
  | cons fd rest ih =>
      intro s
      have hRest := ih
        { s with log := .settled .handedOut fd :: s.log }
      simp only [Frame.handOut] at hRest
      simp only [Frame.handOut, Command.forEach,
        Command.run_bind, Frame.run_record, hRest]
      simp

theorem Frame.run_entrust {T : Type}
    (mine : List FileNum) (fd : FileDescriptor)
    (s : Frame T) :
    (Frame.entrust mine fd).run s =
      (.returned (),
        { s with
          log :=
            if fd.valid && !mine.contains fd.mFd then
              .acquired fd.mFd :: s.log
            else s.log }) := by
  unfold Frame.entrust
  split <;> rfl

/-
  Taking over a descriptor that is free, or that the object
  owns already.
-/
theorem trade_entrust
    {free : FileNum → Prop} {log : List (Entry FileNum)}
    {mine : List FileNum} {fd : FileDescriptor}
    (hFree : fd.valid = true → free fd.mFd)
    (hMine : mine = [] ∨ mine = fd.owned) :
    Trade free mine log fd.owned
      (if fd.valid && !mine.contains fd.mFd then
        .acquired fd.mFd :: log
      else log) := by
  by_cases hValid : fd.valid = true
  · have hOwned : fd.owned = [fd.mFd] := by
      simp [FileDescriptor.owned, hValid]
    rcases hMine with rfl | rfl
    · simp only [hValid, hOwned, List.contains_nil,
        Bool.not_false, Bool.and_self, if_true]
      exact
        .acquire .refl (hFree hValid) List.not_mem_nil
          (.refl _)
    · simp only [hOwned, List.contains_cons, beq_self_eq_true,
        Bool.true_or, Bool.not_true, Bool.and_false,
        Bool.false_eq_true, if_false]
      exact .refl
  · have hOwned : fd.owned = [] := by
      simp [FileDescriptor.owned, hValid]
    have hNone : mine = [] := by
      rcases hMine with hMine | hMine
      · exact hMine
      · exact hMine.trans hOwned
    simp only [hValid, hOwned, hNone, Bool.false_and,
      Bool.false_eq_true, if_false]
    exact .refl

/-
  An object that had nothing, or only this descriptor, gets
  one together with the say who closes it.
-/
theorem trade_taken
    {free : FileNum → Prop} {log : List (Entry FileNum)}
    {mine : List FileNum} {fd : FileDescriptor}
    {autoClose : Bool}
    (hFree :
      autoClose = true → fd.valid = true → free fd.mFd)
    (hMine :
      mine = [] ∨ autoClose = true ∧ mine = fd.owned) :
    Trade free mine log
      (if autoClose then fd.owned else [])
      (if autoClose &&
          (fd.valid && !mine.contains fd.mFd) then
        .acquired fd.mFd :: log
      else log) := by
  cases autoClose with
  | false =>
      have hNone : mine = [] := by
        rcases hMine with hMine | ⟨hAuto, -⟩
        · exact hMine
        · cases hAuto
      rw [hNone]
      exact .refl
  | true =>
      simp only [Bool.true_and, if_true]
      exact
        trade_entrust (hFree rfl)
          (hMine.imp_right fun hBoth => hBoth.2)

end Cosmos
