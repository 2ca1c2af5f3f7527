import LibCosmos.FS.FileDescriptor

/-
  Process file objects, the owners of pidfds
  (`include/proc/ProcessFile.hxx`,
  `src/proc/ProcessFile.cxx`).

  Main declarations:
    * `ProcessFile.openPid`, `ProcessFile.wrap`,
      `ProcessFile.close`, `ProcessFile.destroy`
    * the `trade` lemma of each method
-/

namespace Cosmos

open Custody

structure ProcessFile where
  mFd : FileDescriptor := {}
deriving DecidableEq, Repr

namespace ProcessFile

def owned (p : ProcessFile) : List FileNum :=
  p.mFd.owned

/- The body of `ProcessFile::ProcessFile(const ProcessID)`. -/
def openPid (answer : Sys FileNum) :
    Method (Frame ProcessFile) Unit := do
  let fd ← acquire "pidfd_open()" answer
  Frame.assign fun _ => ⟨⟨fd⟩⟩

/- `ProcessFile::ProcessFile(const PidFD)`. -/
def wrap (fd : FileDescriptor) :
    Method (Frame ProcessFile) Unit := do
  let p ← Frame.self
  Frame.assign fun _ => ⟨fd⟩
  Frame.entrust p.owned fd

/- `ProcessFile::close`. -/
def close (closed : Sys Unit) :
    Method (Frame ProcessFile) Unit :=
  Frame.member ProcessFile.mFd (fun fd _ => ⟨fd⟩)
    (FileDescriptor.close closed)

/- `~ProcessFile`. -/
def destroy (closed : Sys Unit) :
    Method (Frame ProcessFile) Unit :=
  -- failing to close is only reported
  (close closed).handle fun _ => pure ()

theorem run_close
    (closed : Sys Unit) (s : Frame ProcessFile) :
    (close closed).run s =
      (if s.this.owned = [] then .returned ()
        else FileDescriptor.closeOutcome closed,
        { this := {}
          log :=
            (s.this.owned.map
              (.settled .closed)).reverse ++ s.log }) := by
  rcases s with ⟨⟨⟨fd⟩⟩, log⟩
  by_cases hValid : fd = FileNum.invalid
  · simp [close, Frame.member, owned, hValid,
      FileDescriptor.owned, FileDescriptor.valid,
      FileDescriptor.run_close_owned]
  · simp [close, Frame.member, owned, hValid,
      FileDescriptor.owned, FileDescriptor.valid,
      FileDescriptor.run_close_owned]

theorem trade_openPid
    {free : FileNum → Prop} {answer : Sys FileNum}
    {log : List (Entry FileNum)}
    (hFree :
      ∀ fd, answer = .ok fd →
        fd ≠ FileNum.invalid ∧ free fd) :
    Trade free [] log
      ((openPid answer).run ⟨{}, log⟩).2.this.owned
      ((openPid answer).run ⟨{}, log⟩).2.log := by
  cases answer with
  | error e => exact .refl
  | ok fd =>
      rcases hFree fd rfl with ⟨hValid, hIsFree⟩
      have hRun :
          (openPid (.ok fd)).run ⟨{}, log⟩ =
            (.returned (),
              { this := ⟨⟨fd⟩⟩
                log := .acquired fd :: log }) := rfl
      rw [hRun]
      simp only [owned, FileDescriptor.owned_of_ne hValid]
      exact
        .acquire .refl hIsFree List.not_mem_nil (.refl _)

theorem trade_wrap
    {free : FileNum → Prop} {fd : FileDescriptor}
    {log : List (Entry FileNum)}
    (hFree : fd.valid = true → free fd.mFd) :
    Trade free [] log
      ((wrap fd).run ⟨{}, log⟩).2.this.owned
      ((wrap fd).run ⟨{}, log⟩).2.log := by
  simp only [wrap, Command.run_bind, Frame.run_self,
    Frame.run_assign, Frame.run_entrust]
  exact trade_entrust hFree (Or.inl rfl)

theorem trade_close
    {free : FileNum → Prop}
    (closed : Sys Unit) (s : Frame ProcessFile) :
    Trade free s.this.owned s.log
      ((close closed).run s).2.this.owned
      ((close closed).run s).2.log := by
  have hAll :=
    Trade.settleAll free .closed [] s.this.owned s.log
  rw [List.append_nil] at hAll
  rw [run_close]
  exact hAll

theorem run_destroy
    (closed : Sys Unit) (s : Frame ProcessFile) :
    ∃ p log,
      (destroy closed).run s =
          (.returned (), { this := p, log := log }) ∧
        p.owned = [] ∧
        log =
          (s.this.owned.map
            (.settled .closed)).reverse ++ s.log := by
  refine ⟨{}, _, ?_, rfl, rfl⟩
  simp only [destroy, Command.run_handle, run_close]
  rcases
      FileDescriptor.closeOutcome_cases s.this.owned
        closed with
    hDone | ⟨ex, hDone⟩
  · simp only [hDone]
  · simp only [hDone, Command.run_pure]

end ProcessFile

end Cosmos
