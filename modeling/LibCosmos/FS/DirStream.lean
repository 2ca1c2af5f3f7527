import LibCosmos.FS.FileDescriptor
import LibCosmos.Foundation.Machine

/-
  Directory streams and the descriptors they open
  (`src/fs/DirStream.cxx`, `include/fs/DirStream.hxx`).

  Main declarations:
    * `DirStream.openPath`, `DirStream.openFd`,
      `DirStream.openAt`, `DirStream.close`
    * `DirStream.Conserved`, `DirStream.Faulty`
    * `DirStream.conserved_along_iff`
-/

namespace Cosmos

open Custody

/-
  A `DIR*` stands for the descriptor that the stream reads
  from, a null pointer is `none`.
-/
structure DirStream where
  mStream : Option FileNum
deriving DecidableEq, Repr

namespace DirStream

------------------------------------------------------------
-- Operations
------------------------------------------------------------

def isOpen (d : DirStream) : Bool :=
  d.mStream.isSome

/-
  `DirStream::close`. Like `::close`, `closedir()` releases
  the descriptor also when it fails.
-/
def close (closed : Sys Unit) :
    Method (Frame DirStream) Unit := do
  let d ← Frame.self
  match d.mStream with
  | none => pure ()
  | some fd => do
      Frame.record (.settled .closed fd)
      Frame.assign fun _ => ⟨none⟩
      check "closedir()" closed

/- `DirStream::open(const FileNum)`. -/
def openNum (fd : FileNum) :
    Sys Unit → Method (Frame DirStream) Unit
| .ok () => Frame.assign fun _ => ⟨some fd⟩
| .error e => do
    Frame.assign fun _ => ⟨none⟩
    throwApi e "fdopendir()"

/- `DirStream::open(const SysString, const FollowSymlinks)`. -/
def openPath
    (closed : Sys Unit)
    (opened : Sys FileNum)
    (streamed : Sys Unit)
    (cleaned : Sys Unit) :
    Method (Frame DirStream) Unit := do
  close closed
  let fd ← acquire "open(O_DIRECTORY)" opened
  (openNum fd streamed).handle fun ex => do
    (FileDescriptor.closeLocal fd cleaned).handle
      fun _ => pure ()
    Command.raise ex

/- `DirStream::open(const DirFD)`. -/
def openFd
    (closed : Sys Unit)
    (duplicated : Sys FileNum)
    (streamed : Sys Unit) :
    Method (Frame DirStream) Unit := do
  close closed
  let duplicate ← acquire "fcntl(F_DUPFD)" duplicated
  openNum duplicate streamed

/- `DirStream::open(const DirFD, const SysString)`. -/
def openAt
    (opened : Sys FileNum)
    (streamed : Sys Unit) :
    Method (Frame DirStream) Unit := do
  let fd ← acquire "openat" opened
  -- ownership is transferred to the stream
  openNum fd streamed

/- A call together with what the kernel answers in it. -/
inductive Call where
| openPath
    (closed : Sys Unit) (opened : Sys FileNum)
    (streamed cleaned : Sys Unit)
| openFd
    (closed : Sys Unit) (duplicated : Sys FileNum)
    (streamed : Sys Unit)
| openAt (opened : Sys FileNum) (streamed : Sys Unit)
| close (closed : Sys Unit)

def Call.perform : Call → Method (Frame DirStream) Unit
| .openPath closed opened streamed cleaned =>
    DirStream.openPath closed opened streamed cleaned
| .openFd closed duplicated streamed =>
    DirStream.openFd closed duplicated streamed
| .openAt opened streamed =>
    DirStream.openAt opened streamed
| .close closed => DirStream.close closed

def Call.isOpen : Call → Bool
| .close _ => false
| _ => true

------------------------------------------------------------
-- What Each Operation Does
------------------------------------------------------------

/- The frame once the stream is closed. -/
def closedFrame (s : Frame DirStream) : Frame DirStream :=
  match s.this.mStream with
  | none => s
  | some fd =>
      { this := ⟨none⟩
        log := .settled .closed fd :: s.log }

/- Closing reports an error. -/
def CloseFails
    (s : Frame DirStream) (closed : Sys Unit) : Prop :=
  s.this.isOpen = true ∧ ∃ e, closed = .error e

theorem closedFrame_mStream (s : Frame DirStream) :
    (closedFrame s).this.mStream = none := by
  unfold closedFrame
  split
  · assumption
  · rfl

/- Closing never keeps the association. -/
theorem run_close_snd
    (closed : Sys Unit) (s : Frame DirStream) :
    ((close closed).run s).2 = closedFrame s := by
  rcases s with ⟨⟨_ | fd⟩, log⟩
  · rfl
  · cases closed <;> rfl

theorem run_close_of_fails
    {closed : Sys Unit} {s : Frame DirStream}
    (hFails : CloseFails s closed) :
    ∃ ex, (close closed).run s = (.raised ex, closedFrame s) := by
  rcases hFails with ⟨hOpen, e, rfl⟩
  rcases s with ⟨⟨_ | fd⟩, log⟩
  · cases hOpen
  · exact ⟨_, rfl⟩

theorem run_close_of_not_fails
    {closed : Sys Unit} {s : Frame DirStream}
    (hFails : ¬ CloseFails s closed) :
    (close closed).run s = (.returned (), closedFrame s) := by
  rcases s with ⟨⟨_ | fd⟩, log⟩
  · rfl
  · cases closed with
    | ok => rfl
    | error e => exact absurd ⟨rfl, e, rfl⟩ hFails

/- Where `openPath` ends once the old stream is closed. -/
theorem run_openPath
    {closed : Sys Unit} {s : Frame DirStream}
    (hFails : ¬ CloseFails s closed)
    (opened : Sys FileNum)
    (streamed cleaned : Sys Unit) :
    (openPath closed opened streamed cleaned).run s =
      match opened, streamed with
      | .error e, _ =>
          (.raised (.apiError e (str "open(O_DIRECTORY)")),
            closedFrame s)
      | .ok fd, .ok () =>
          (.returned (),
            { this := ⟨some fd⟩
              log := .acquired fd :: (closedFrame s).log })
      | .ok fd, .error e =>
          (.raised (.apiError e (str "fdopendir()")),
            { this := ⟨none⟩
              log :=
                if fd ≠ FileNum.invalid then
                  .settled .closed fd :: .acquired fd ::
                    (closedFrame s).log
                else .acquired fd :: (closedFrame s).log }) := by
  simp only [openPath, Command.run_bind,
    run_close_of_not_fails hFails]
  cases opened with
  | error e => rfl
  | ok fd =>
      cases streamed with
      | ok => rfl
      | error e =>
          simp only [run_acquire_ok, Command.run_handle,
            openNum, Command.run_bind, Frame.run_assign,
            run_throwApi, FileDescriptor.run_closeLocal]
          by_cases hValid : fd = FileNum.invalid
          · simp [hValid]
          · cases cleaned <;>
              simp [hValid, FileDescriptor.closeOutcome]

theorem run_openFd
    {closed : Sys Unit} {s : Frame DirStream}
    (hFails : ¬ CloseFails s closed)
    (duplicated : Sys FileNum)
    (streamed : Sys Unit) :
    (openFd closed duplicated streamed).run s =
      match duplicated, streamed with
      | .error e, _ =>
          (.raised (.apiError e (str "fcntl(F_DUPFD)")),
            closedFrame s)
      | .ok fd, .ok () =>
          (.returned (),
            { this := ⟨some fd⟩
              log := .acquired fd :: (closedFrame s).log })
      | .ok fd, .error e =>
          (.raised (.apiError e (str "fdopendir()")),
            { this := ⟨none⟩
              log := .acquired fd :: (closedFrame s).log }) := by
  simp only [openFd, Command.run_bind,
    run_close_of_not_fails hFails]
  cases duplicated with
  | error e => rfl
  | ok fd => cases streamed <;> rfl

/- `openAt` does not look at the old association. -/
theorem run_openAt
    (opened : Sys FileNum)
    (streamed : Sys Unit)
    (s : Frame DirStream) :
    (openAt opened streamed).run s =
      match opened, streamed with
      | .error e, _ =>
          (.raised (.apiError e (str "openat")), s)
      | .ok fd, .ok () =>
          (.returned (),
            { this := ⟨some fd⟩
              log := .acquired fd :: s.log })
      | .ok fd, .error e =>
          (.raised (.apiError e (str "fdopendir()")),
            { this := ⟨none⟩
              log := .acquired fd :: s.log }) := by
  cases opened with
  | error e => rfl
  | ok fd => cases streamed <;> rfl

/- An open whose implicit close fails does nothing more. -/
theorem run_openPath_of_fails
    {closed : Sys Unit} {s : Frame DirStream}
    (hFails : CloseFails s closed)
    (opened : Sys FileNum)
    (streamed cleaned : Sys Unit) :
    ((openPath closed opened streamed cleaned).run s).2 =
      closedFrame s := by
  rcases run_close_of_fails hFails with ⟨ex, hClose⟩
  simp [openPath, Command.run_bind, hClose]

theorem run_openFd_of_fails
    {closed : Sys Unit} {s : Frame DirStream}
    (hFails : CloseFails s closed)
    (duplicated : Sys FileNum)
    (streamed : Sys Unit) :
    ((openFd closed duplicated streamed).run s).2 =
      closedFrame s := by
  rcases run_close_of_fails hFails with ⟨ex, hClose⟩
  simp [openFd, Command.run_bind, hClose]

------------------------------------------------------------
-- Conservation
------------------------------------------------------------

/- The descriptors that the stream is associated with. -/
def descriptors (d : DirStream) : Finset FileNum :=
  match d.mStream with
  | none => ∅
  | some fd => {fd}

/-
  What is opened and not yet closed is the descriptor of
  the stream.
-/
def Balanced (s : Frame DirStream) : Prop :=
  outstanding s.log = some s.this.descriptors

/-
  A call keeps the balance; an open closes the previous
  association first and leaves nothing behind when it fails.
-/
structure Conserved
    (s : Frame DirStream)
    (call : Call)
    (s' : Frame DirStream) : Prop where
  balanced : Balanced s'
  closesPrevious :
    call.isOpen = true →
      ∀ fd, s.this.mStream = some fd →
        (.settled .closed fd :: s.log) <:+ s'.log
  failing :
    call.isOpen = true →
      (∃ ex, (call.perform.run s).1 = .raised ex) →
      outstanding s'.log = some ∅

/- A descriptor that the kernel can hand out. -/
def Fresh (s : Frame DirStream) (fd : FileNum) : Prop :=
  fd ≠ FileNum.invalid ∧
    ∀ out, outstanding s.log = some out → fd ∉ out

/-
  The kernel hands out only valid numbers that are not in
  use when it is asked.
-/
def Call.Legal (s : Frame DirStream) : Call → Prop
| .openPath _ opened _ _ =>
    ∀ fd, opened = .ok fd → Fresh (closedFrame s) fd
| .openFd _ duplicated _ =>
    ∀ fd, duplicated = .ok fd → Fresh (closedFrame s) fd
| .openAt opened _ =>
    ∀ fd, opened = .ok fd → Fresh s fd
| .close _ => True

/-
  The calls that lose a descriptor: `fdopendir()` fails on
  the duplicate that `openFd` made or on the descriptor that
  `openAt` opened, or `openAt` meets an associated stream.
-/
def Call.Faulty (s : Frame DirStream) : Call → Prop
| .openPath .. => False
| .openFd closed duplicated streamed =>
    ¬ CloseFails s closed ∧
      (∃ fd, duplicated = .ok fd) ∧
      ∃ e, streamed = .error e
| .openAt opened streamed =>
    s.this.isOpen = true ∨
      (∃ fd, opened = .ok fd) ∧ ∃ e, streamed = .error e
| .close _ => False

/- Directory streams driven by calls. -/
def machine : Machine (Frame DirStream) Call where
  legal s call := call.Legal s
  step s call := (call.perform.run s).2

/- A new stream in a process that has opened nothing. -/
def start : Frame DirStream where
  this := ⟨none⟩
  log := []

theorem balanced_start : Balanced start := rfl

theorem outstanding_closedFrame
    {s : Frame DirStream} (hBalanced : Balanced s) :
    outstanding (closedFrame s).log = some ∅ := by
  rcases s with ⟨⟨_ | fd⟩, log⟩
  · exact hBalanced
  · have hOut : outstanding log = some {fd} := hBalanced
    simp [closedFrame,
      outstanding_settled .closed hOut
        (Finset.mem_singleton_self fd)]

/- The closing of the previous association is on record. -/
theorem closed_suffix
    {s : Frame DirStream} {fd : FileNum}
    (hStream : s.this.mStream = some fd) :
    (closedFrame s).log =
      .settled .closed fd :: s.log := by
  rcases s with ⟨⟨_ | d⟩, log⟩
  · cases hStream
  · cases hStream
    rfl

theorem outstanding_single
    {log : List (Entry FileNum)} (fd : FileNum)
    (hLog : outstanding log = some ∅) :
    outstanding (.acquired fd :: log) = some {fd} := by
  rw [outstanding_acquired hLog (Finset.notMem_empty fd)]
  rfl

theorem outstanding_returned
    {log : List (Entry FileNum)} (fd : FileNum)
    (hLog : outstanding log = some ∅) :
    outstanding
        (.settled .closed fd :: .acquired fd :: log) =
      some ∅ := by
  rw [outstanding_settled .closed
    (outstanding_single fd hLog)
    (Finset.mem_singleton_self fd)]
  simp

/- The old association is closed before anything else. -/
theorem suffix_of_closedFrame
    {s : Frame DirStream}
    {log : List (Entry FileNum)}
    (hSuffix : (closedFrame s).log <:+ log) :
    ∀ fd, s.this.mStream = some fd →
      (.settled .closed fd :: s.log) <:+ log := by
  intro fd hStream
  rw [← closed_suffix hStream]
  exact hSuffix

/- A call that leaves the stream without association. -/
theorem conserved_of_closed
    {s s' : Frame DirStream} {call : Call}
    (hStream : s'.this.mStream = none)
    (hLog : outstanding s'.log = some ∅)
    (hSuffix : (closedFrame s).log <:+ s'.log) :
    Conserved s call s' where
  balanced := by simp [Balanced, descriptors, hStream, hLog]
  closesPrevious _ := suffix_of_closedFrame hSuffix
  failing _ _ := hLog

/- A call that leaves the stream with a new association. -/
theorem conserved_of_opened
    {s s' : Frame DirStream} {call : Call} {fd : FileNum}
    (hStream : s'.this.mStream = some fd)
    (hLog : outstanding s'.log = some {fd})
    (hSuffix : (closedFrame s).log <:+ s'.log)
    (hReturned : (call.perform.run s).1 = .returned ()) :
    Conserved s call s' where
  balanced := by simp [Balanced, descriptors, hStream, hLog]
  closesPrevious _ := suffix_of_closedFrame hSuffix
  failing _ hRaised := by
    rcases hRaised with ⟨ex, hRaised⟩
    rw [hReturned] at hRaised
    cases hRaised

theorem conserved_closedFrame
    {s : Frame DirStream} {call : Call}
    (hBalanced : Balanced s) :
    Conserved s call (closedFrame s) :=
  conserved_of_closed (closedFrame_mStream s)
    (outstanding_closedFrame hBalanced) List.suffix_rfl

theorem conserved_openPath
    {s : Frame DirStream}
    (hBalanced : Balanced s)
    (closed : Sys Unit) (opened : Sys FileNum)
    (streamed cleaned : Sys Unit)
    (hLegal :
      (Call.openPath closed opened streamed cleaned).Legal s) :
    Conserved s (.openPath closed opened streamed cleaned)
      ((openPath closed opened streamed cleaned).run s).2 := by
  have hEmpty := outstanding_closedFrame hBalanced
  by_cases hFails : CloseFails s closed
  · rw [run_openPath_of_fails hFails]
    exact conserved_closedFrame hBalanced
  · have hRun :=
      run_openPath hFails opened streamed cleaned
    rw [hRun]
    cases opened with
    | error e => exact conserved_closedFrame hBalanced
    | ok fd =>
        have hValid : fd ≠ FileNum.invalid :=
          (hLegal fd rfl).1
        cases streamed with
        | ok =>
            exact
              conserved_of_opened rfl
                (outstanding_single fd hEmpty)
                (List.suffix_cons _ _)
                (congrArg Prod.fst hRun)
        | error e =>
            simp only [hValid, ne_eq, not_false_eq_true,
              if_true]
            refine
              conserved_of_closed rfl
                (outstanding_returned fd hEmpty) ?_
            exact
              (List.suffix_cons _ _).trans
                (List.suffix_cons _ _)

theorem conserved_openFd
    {s : Frame DirStream}
    (hBalanced : Balanced s)
    (closed : Sys Unit) (duplicated : Sys FileNum)
    (streamed : Sys Unit)
    (hSound :
      ¬ (Call.openFd closed duplicated streamed).Faulty s) :
    Conserved s (.openFd closed duplicated streamed)
      ((openFd closed duplicated streamed).run s).2 := by
  have hEmpty := outstanding_closedFrame hBalanced
  by_cases hFails : CloseFails s closed
  · rw [run_openFd_of_fails hFails]
    exact conserved_closedFrame hBalanced
  · have hRun := run_openFd hFails duplicated streamed
    rw [hRun]
    cases duplicated with
    | error e => exact conserved_closedFrame hBalanced
    | ok fd =>
        cases streamed with
        | ok =>
            exact
              conserved_of_opened rfl
                (outstanding_single fd hEmpty)
                (List.suffix_cons _ _)
                (congrArg Prod.fst hRun)
        | error e =>
            exact
              absurd ⟨hFails, ⟨fd, rfl⟩, e, rfl⟩ hSound

theorem conserved_openAt
    {s : Frame DirStream}
    (hBalanced : Balanced s)
    (opened : Sys FileNum)
    (streamed : Sys Unit)
    (hSound : ¬ (Call.openAt opened streamed).Faulty s) :
    Conserved s (.openAt opened streamed)
      ((openAt opened streamed).run s).2 := by
  have hNotOpen : s.this.mStream = none := by
    cases hStream : s.this.mStream with
    | none => rfl
    | some fd =>
        exact
          absurd (Or.inl (by simp [isOpen, hStream])) hSound
  have hClosed : closedFrame s = s := by
    simp [closedFrame, hNotOpen]
  have hEmpty := outstanding_closedFrame hBalanced
  rw [hClosed] at hEmpty
  have hRun := run_openAt opened streamed s
  rw [hRun]
  cases opened with
  | error e =>
      have hSame :
          Conserved s (.openAt (.error e) streamed)
            (closedFrame s) :=
        conserved_closedFrame hBalanced
      rwa [hClosed] at hSame
  | ok fd =>
      cases streamed with
      | ok =>
          refine
            conserved_of_opened rfl
              (outstanding_single fd hEmpty) ?_
              (congrArg Prod.fst hRun)
          rw [hClosed]
          exact List.suffix_cons _ _
      | error e =>
          exact
            absurd (Or.inr ⟨⟨fd, rfl⟩, e, rfl⟩) hSound

------------------------------------------------------------
-- Calls That Lose a Descriptor
------------------------------------------------------------

/- The duplicate stays open when `fdopendir()` fails. -/
theorem not_conserved_openFd
    {s : Frame DirStream}
    (hBalanced : Balanced s)
    {closed : Sys Unit} {duplicated : Sys FileNum}
    {streamed : Sys Unit}
    (hFaulty :
      (Call.openFd closed duplicated streamed).Faulty s) :
    ¬ Conserved s (.openFd closed duplicated streamed)
      ((openFd closed duplicated streamed).run s).2 := by
  rcases hFaulty with ⟨hFails, ⟨fd, rfl⟩, e, rfl⟩
  intro hConserved
  have hLog := hConserved.balanced
  rw [run_openFd hFails] at hLog
  have hLeft :=
    outstanding_single fd (outstanding_closedFrame hBalanced)
  rw [Balanced, hLeft] at hLog
  simp [descriptors] at hLog

/-
  `openAt` closes no old association, and the descriptor it
  opened stays open when `fdopendir()` fails.
-/
theorem not_conserved_openAt
    {s : Frame DirStream}
    (hBalanced : Balanced s)
    {opened : Sys FileNum} {streamed : Sys Unit}
    (hFaulty : (Call.openAt opened streamed).Faulty s) :
    ¬ Conserved s (.openAt opened streamed)
      ((openAt opened streamed).run s).2 := by
  intro hConserved
  by_cases hOpen : s.this.isOpen = true
  · rcases Option.isSome_iff_exists.mp hOpen with
      ⟨old, hStream⟩
    have hSuffix :=
      hConserved.closesPrevious rfl old hStream
    rw [run_openAt] at hSuffix
    have hShort : ∀ entry : Entry FileNum,
        (.settled .closed old :: s.log) <:+
          (entry :: s.log) →
        entry = .settled .closed old := by
      intro entry hEnd
      have hEq :=
        hEnd.eq_of_length (by simp)
      exact (List.cons.inj hEq).1.symm
    cases opened with
    | error e =>
        have hLength := hSuffix.length_le
        simp only [List.length_cons] at hLength
        omega
    | ok fd =>
        cases streamed <;> cases hShort _ hSuffix
  · rcases hFaulty with hFaulty | ⟨⟨fd, rfl⟩, e, rfl⟩
    · exact hOpen hFaulty
    · have hStream : s.this.mStream = none := by
        simpa [isOpen] using hOpen
      have hClosed : closedFrame s = s := by
        simp [closedFrame, hStream]
      have hEmpty := outstanding_closedFrame hBalanced
      rw [hClosed] at hEmpty
      have hLog := hConserved.balanced
      rw [run_openAt, Balanced,
        outstanding_single fd hEmpty] at hLog
      simp [descriptors] at hLog

------------------------------------------------------------
-- Runs
------------------------------------------------------------

/-
  Along a run of calls on one stream the descriptors are
  conserved exactly as long as no call is faulty.
-/
theorem conserved_along_iff
    (calls : List Call)
    (hLegal : machine.Legal start calls) :
    machine.Along Conserved start calls ↔
      machine.Along (fun s call _ => ¬ call.Faulty s)
        start calls := by
  refine
    Machine.along_iff_of_invariant Balanced
      ?_ ?_ calls start balanced_start hLegal
  · intro s call hBalanced hCall hSound
    suffices hStep : Conserved s call (machine.step s call)
      from ⟨hStep.balanced, hStep⟩
    cases call with
    | openPath closed opened streamed cleaned =>
        exact
          conserved_openPath hBalanced closed opened streamed
            cleaned hCall
    | openFd closed duplicated streamed =>
        exact
          conserved_openFd hBalanced closed duplicated
            streamed hSound
    | openAt opened streamed =>
        exact
          conserved_openAt hBalanced opened streamed hSound
    | close closed =>
        have hClose :
            machine.step s (.close closed) =
              closedFrame s :=
          run_close_snd closed s
        rw [hClose]
        exact conserved_closedFrame hBalanced
  · intro s call hBalanced _ hFaulty
    cases call with
    | openPath => exact absurd id hFaulty
    | openFd =>
        exact
          not_conserved_openFd hBalanced
            (Classical.not_not.mp hFaulty)
    | openAt =>
        exact
          not_conserved_openAt hBalanced
            (Classical.not_not.mp hFaulty)
    | close => exact absurd id hFaulty

/-
  Opening a path, reopening by descriptor with the freed
  number, closing with an error, opening below a directory.
-/
theorem conserved_along_reopen :
    machine.Along Conserved start
      [.openPath (.ok ()) (.ok ⟨3⟩) (.ok ()) (.ok ()),
        .openFd (.ok ()) (.ok ⟨3⟩) (.ok ()),
        .close (.error .interrupted),
        .openAt (.ok ⟨4⟩) (.ok ())] := by
  refine
    (conserved_along_iff
      [.openPath (.ok ()) (.ok ⟨3⟩) (.ok ()) (.ok ()),
        .openFd (.ok ()) (.ok ⟨3⟩) (.ok ()),
        .close (.error .interrupted),
        .openAt (.ok ⟨4⟩) (.ok ())] ?_).mpr ?_
  · refine ⟨?_, ?_, trivial, ?_, trivial⟩
    · rintro fd ⟨⟩
      refine ⟨by decide, ?_⟩
      rintro out ⟨⟩
      decide
    · rintro fd ⟨⟩
      refine ⟨by decide, ?_⟩
      rintro out hOut
      have hOut' : some (∅ : Finset FileNum) = some out :=
        hOut
      cases hOut'
      decide
    · rintro fd ⟨⟩
      refine ⟨by decide, ?_⟩
      rintro out hOut
      have hOut' : some (∅ : Finset FileNum) = some out :=
        hOut
      cases hOut'
      decide
  · refine ⟨id, ?_, id, ?_, trivial⟩
    · rintro ⟨-, -, e, hStreamed⟩
      cases hStreamed
    · rintro (hOpen | ⟨-, e, hStreamed⟩)
      · cases hOpen
      · cases hStreamed

/-
  `open(DirFD)` on a new stream whose `fdopendir()` fails
  with ENOTDIR: the stream is closed, but the duplicate 4 is
  still open.
-/
theorem openFd_leaks_duplicate :
    machine.Legal start
        [.openFd (.ok ()) (.ok ⟨4⟩) (.error .notADir)] ∧
      (machine.run start
        [.openFd (.ok ()) (.ok ⟨4⟩)
          (.error .notADir)]).this.isOpen = false ∧
      outstanding (machine.run start
        [.openFd (.ok ()) (.ok ⟨4⟩)
          (.error .notADir)]).log = some {⟨4⟩} ∧
      ¬ machine.Along Conserved start
        [.openFd (.ok ()) (.ok ⟨4⟩) (.error .notADir)] := by
  refine ⟨⟨?_, trivial⟩, rfl, by decide, ?_⟩
  · rintro fd ⟨⟩
    refine ⟨by decide, ?_⟩
    rintro out ⟨⟩
    decide
  · rintro ⟨hConserved, -⟩
    have hBalance : some {⟨4⟩} = some (∅ : Finset FileNum) :=
      hConserved.balanced
    exact absurd hBalance (by decide)

end DirStream

end Cosmos
