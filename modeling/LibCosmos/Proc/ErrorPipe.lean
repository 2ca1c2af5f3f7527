import LibCosmos.Foundation.Machine
import LibCosmos.Foundation.Packets
import LibCosmos.Proc.RunChild

/-
  How errors get from a child to its parent
  (`reportPreExecErrorAndExit`, `handlePreExecError` and
  `run` in `src/proc/ChildCloner.cxx`).

  The error pipe keeps packets apart. The child writes to it
  and exits, or executes its program; the parent reads from
  it. If it gets an error then it kills the child and waits
  for it before it throws.

  Main declarations:
    * `ErrorPipe.Report`, `ErrorPipe.Report.packets`
    * `ErrorPipe.handlePreExecError`
    * `ErrorPipe.Family`, `ErrorPipe.Step`
    * `ErrorPipe.delivered_iff`
-/

namespace Cosmos

namespace ErrorPipe

open Packets

------------------------------------------------------------
-- The Child
------------------------------------------------------------

/-
  What the child has to tell: an error, or nothing, because
  it executes its program or exits.
-/
inductive Report where
| silent
| error (errnum : Errno) (description : Str)
deriving DecidableEq, Repr

/- What is written for it. -/
def Report.writes : Report → List (List Byte)
| .silent => []
| .error errnum description =>
    [intBytes.encode errnum.raw, description]

theorem maxAtomicWriteSize_pos :
    0 < Pipe.maxAtomicWriteSize := by
  decide

/- The packets that the pipe makes of it. -/
def Report.packets (report : Report) : List (List Byte) :=
  report.writes.flatMap (split maxAtomicWriteSize_pos)

/- These are the writes of `reportPreExecErrorAndExit`. -/
theorem sent_of_report
    {a : ChildAnswers} {errnum : Errno} {description : Str}
    (hErrnum : a.errnumWritten = .ok intBytes.size)
    (hMessage : a.messageWritten = .ok description.length)
    {s : Child} {p : Pipe} (hSome : s.errorPipe = some p)
    (hWrite : p.haveWriteEnd = true) :
    ((Child.reportPreExecErrorAndExit a errnum
      description).run s).2.sent =
        s.sent ++ (Report.error errnum description).writes := by
  have hAll := intBytes.size_encode errnum.raw
  rw [Child.run_report hErrnum hMessage errnum description
    hSome hWrite]
  simp only [← hAll, List.take_length, Report.writes,
    List.append_assoc, List.singleton_append]

------------------------------------------------------------
-- The Parent
------------------------------------------------------------

/- Where `handlePreExecError` is. -/
inductive Receiver where
| atErrnum
| atMessage (errnum : Errno)
| ended (result : Except Exn Unit)

/- The exception for an error of the child. -/
def childError (errnum : Errno) (message : Str) : Exn :=
  if errnum = .noError then .runtimeError message
  else .apiError errnum message

/-
  What it does with what `read` returned, which is at most
  one packet and not more than the size of its buffer.
-/
def receive : Receiver → Option (List Byte) → Receiver
| .atErrnum, none => .ended (.ok ())
| .atErrnum, some packet =>
    let buf := packet.take Pipe.maxAtomicWriteSize
    if buf.length ≠ intBytes.size then
      .ended (.error (.runtimeError
        (str "bad error code read from error pipe")))
    else
      .atMessage ⟨intBytes.decode buf⟩
| .atMessage _, none =>
    .ended (.error (.runtimeError
      (str "missing error message from error pipe")))
| .atMessage errnum, some packet =>
    let message := packet.take Pipe.maxAtomicWriteSize
    .ended (.error (childError errnum message))
| .ended result, _ => .ended result

/- `ChildCloner::handlePreExecError`. -/
def handlePreExecError : Reader (List Byte) Receiver where
  next := receive
  done
  | .ended _ => true
  | _ => false
  done_end := by
    intro s
    cases s <;> rfl

/- What it comes to for a child. -/
def received (report : Report) : Receiver :=
  handlePreExecError.feed .atErrnum report.packets

/- What it is to come to. -/
def Report.promised : Report → Except Exn Unit
| .silent => .ok ()
| .error errnum description =>
    .error (childError errnum description)

/- An error comes with a text that fits a packet. -/
def Report.Fits : Report → Prop
| .silent => True
| .error _ description =>
    description ≠ [] ∧
      description.length ≤ Pipe.maxAtomicWriteSize

------------------------------------------------------------
-- Reports That Get Through
------------------------------------------------------------

theorem feed_errnum
    (errnum : Errno) (packets : List (List Byte)) :
    handlePreExecError.feed .atErrnum
        (intBytes.encode errnum.raw :: packets) =
      handlePreExecError.feed (.atMessage errnum)
        packets := by
  have hSize := intBytes.size_encode errnum.raw
  have hTake :
      (intBytes.encode errnum.raw).take
          Pipe.maxAtomicWriteSize =
        intBytes.encode errnum.raw := by
    apply List.take_of_length_le
    rw [hSize]
    decide
  have hNext :
      receive .atErrnum
          (some (intBytes.encode errnum.raw)) =
        .atMessage errnum := by
    simp only [receive, hTake, hSize,
      intBytes.decode_encode, ne_eq, not_true_eq_false,
      if_false]
  rw [Reader.feed]
  simp only [handlePreExecError, hNext, Bool.false_eq_true,
    if_false]

theorem packets_error
    (errnum : Errno) (description : Str) :
    (Report.error errnum description).packets =
      intBytes.encode errnum.raw ::
        split maxAtomicWriteSize_pos description := by
  have hSize := intBytes.size_encode errnum.raw
  have hSome : intBytes.encode errnum.raw ≠ [] := by
    intro hNone
    rw [hNone] at hSize
    cases hSize
  have hOne :=
    split_of_le maxAtomicWriteSize_pos hSome
      (by rw [hSize]; decide)
  simp [Report.packets, Report.writes, hOne]

/- Without a text there is no second packet. -/
theorem received_empty (errnum : Errno) :
    received (.error errnum []) =
      .ended (.error (.runtimeError
        (str "missing error message from error pipe"))) := by
  unfold received
  rw [packets_error, feed_errnum, split_nil]
  rfl

/- Of the text the first packet is all that arrives. -/
theorem received_text
    (errnum : Errno) {description : Str}
    (hSome : description ≠ []) :
    received (.error errnum description) =
      .ended (.error (childError errnum
        (description.take Pipe.maxAtomicWriteSize))) := by
  have hTake :
      (description.take Pipe.maxAtomicWriteSize).take
          Pipe.maxAtomicWriteSize =
        description.take Pipe.maxAtomicWriteSize :=
    List.take_take.trans (by rw [Nat.min_self])
  unfold received
  rw [packets_error, feed_errnum,
    split_of_ne maxAtomicWriteSize_pos hSome, Reader.feed]
  simp only [handlePreExecError, receive, hTake,
    Bool.false_eq_true, if_false]
  exact Reader.feed_of_done _ rfl _

theorem childError_inj
    {errnum : Errno} {message message' : Str}
    (hSame :
      childError errnum message =
        childError errnum message') :
    message = message' := by
  unfold childError at hSame
  split at hSame
  · injection hSame
  · injection hSame

/- Exactly the texts that fit arrive as they are. -/
theorem received_iff (report : Report) :
    received report = .ended report.promised ↔
      report.Fits := by
  cases report with
  | silent => exact iff_of_true rfl trivial
  | error errnum description =>
      by_cases hSome : description = []
      · rw [hSome, received_empty]
        refine iff_of_false ?_ (fun hFits => hFits.1 rfl)
        intro hSame
        injection hSame with hSame
        injection hSame with hSame
        unfold childError at hSame
        by_cases hNo : errnum = .noError
        · rw [if_pos hNo] at hSame
          cases hSame
        · rw [if_neg hNo] at hSame
          cases hSame
      · rw [received_text errnum hSome]
        unfold Report.promised Report.Fits
        constructor
        · intro hSame
          injection hSame with hSame
          injection hSame with hSame
          exact
            ⟨hSome,
              List.take_eq_self_iff _ |>.mp
                (childError_inj hSame)⟩
        · rintro ⟨-, hFits⟩
          rw [List.take_of_length_le hFits]

------------------------------------------------------------
-- Parent and Child
------------------------------------------------------------

/- What became of the process of the child. -/
inductive Life where
| running
| zombie
| reaped
deriving DecidableEq, Repr

/-
  Where `run` is in the parent: in `handlePreExecError`, in
  its handler behind `kill`, or at its end with a `SubProc`
  or an exception.
-/
inductive Phase where
| handling
| waiting (ex : Exn)
| returned
| thrown (ex : Exn)
deriving DecidableEq, Repr

/- A child and its parent. -/
structure Family where
  link : Link (List Byte) Receiver
  child : Life
  parent : Phase

/-
  Every process goes on by itself. The child writes, closes
  the pipe by `execve` or on its way to the end, and ends at
  any time after that; or it is killed.
-/
inductive Step : Family → Family → Prop where
| communicate
    (f : Family) (link : Link (List Byte) Receiver) :
    Packets.Step handlePreExecError f.link link →
    Step f { f with link := link }
| exit (f : Family) :
    f.child = .running → f.link.isOpen = false →
    Step f { f with child := .zombie }
| succeed (f : Family) :
    f.parent = .handling →
    f.link.reader = .ended (.ok ()) →
    Step f { f with parent := .returned }
| kill (f : Family) (ex : Exn) :
    f.parent = .handling →
    f.link.reader = .ended (.error ex) →
    Step f { f with parent := .waiting ex }
| die (f : Family) (ex : Exn) :
    f.parent = .waiting ex → f.child = .running →
    Step f
      { f with
        link := { f.link with todo := [], isOpen := false }
        child := .zombie }
| wait (f : Family) (ex : Exn) :
    f.parent = .waiting ex → f.child = .zombie →
    Step f
      { f with
        child := .reaped
        parent := .thrown ex }

/- After the fork, for a child with this to tell. -/
def start (report : Report) : Family where
  link := ⟨report.packets, [], true, .atErrnum⟩
  child := .running
  parent := .handling

/- What the phase says about the result. -/
def Phase.Agrees : Phase → Receiver → Prop
| .handling, _ => True
| .waiting ex, s => s = .ended (.error ex)
| .returned, s => s = .ended (.ok ())
| .thrown ex, s => s = .ended (.error ex)

/-
  What holds all the time: the parent is on its way to what
  was received, and only who threw has reaped the child.
-/
structure Inv (report : Report) (f : Family) : Prop where
  outcome :
    f.link.outcome handlePreExecError = received report
  whole : f.link.Whole
  agrees : f.parent.Agrees f.link.reader
  reaped : f.child = .reaped ↔ ∃ ex, f.parent = .thrown ex

/- A run is over when `run` has returned or thrown. -/
def Phase.over : Phase → Bool
| .returned => true
| .thrown _ => true
| _ => false

theorem inv_start (report : Report) :
    Inv report (start report) where
  outcome := rfl
  whole := by
    intro hClosed
    cases hClosed
  agrees := trivial
  reaped := by
    constructor
    · intro hReaped
      cases hReaped
    · rintro ⟨ex, hThrown⟩
      cases hThrown

/- Who got the result reads no more. -/
theorem done_of_agrees
    {f : Family} (hPhase : f.parent ≠ .handling)
    (hAgrees : f.parent.Agrees f.link.reader) :
    handlePreExecError.done f.link.reader = true := by
  cases hParent : f.parent with
  | handling => exact absurd hParent hPhase
  | waiting ex =>
      rw [hParent] at hAgrees
      rw [hAgrees]
      rfl
  | returned =>
      rw [hParent] at hAgrees
      rw [hAgrees]
      rfl
  | thrown ex =>
      rw [hParent] at hAgrees
      rw [hAgrees]
      rfl

/- A reader that is done keeps its result. -/
theorem reader_eq_of_done
    {link link' : Link (List Byte) Receiver}
    (hStep : Packets.Step handlePreExecError link link')
    (hDone : handlePreExecError.done link.reader = true) :
    link'.reader = link.reader := by
  cases hStep with
  | put p todo queue s => rfl
  | close queue s => rfl
  | get p todo queue o s hMore =>
      rw [hMore] at hDone
      cases hDone
  | finish todo s hMore =>
      rw [hMore] at hDone
      cases hDone

theorem Inv.step
    {report : Report} {f f' : Family}
    (hInv : Inv report f) (hStep : Step f f') :
    Inv report f' := by
  cases hStep with
  | communicate link hLink =>
      refine
        { outcome :=
            (hLink.outcome_eq hInv.whole).trans hInv.outcome
          whole := hLink.whole hInv.whole
          agrees := ?_
          reaped := hInv.reaped }
      by_cases hPhase : f.parent = .handling
      · simp only [hPhase]
        trivial
      · have hDone := done_of_agrees hPhase hInv.agrees
        simp only [reader_eq_of_done hLink hDone]
        exact hInv.agrees
  | exit hRunning hClosed =>
      refine
        { outcome := hInv.outcome
          whole := hInv.whole
          agrees := hInv.agrees
          reaped := ?_ }
      rw [← hInv.reaped, hRunning]
      simp
  | succeed hHandling hResult =>
      refine
        { outcome := hInv.outcome
          whole := hInv.whole
          agrees := hResult
          reaped := ?_ }
      have hNot := hInv.reaped
      rw [hHandling] at hNot
      simpa using hNot
  | kill ex hHandling hResult =>
      refine
        { outcome := hInv.outcome
          whole := hInv.whole
          agrees := hResult
          reaped := ?_ }
      have hNot := hInv.reaped
      rw [hHandling] at hNot
      simpa using hNot
  | die ex hWaiting hRunning =>
      have hPhase : f.parent ≠ .handling := by
        rw [hWaiting]
        intro hSame
        cases hSame
      have hDone := done_of_agrees hPhase hInv.agrees
      refine
        { outcome := ?_
          whole := fun _ => rfl
          agrees := hInv.agrees
          reaped := ?_ }
      · have hOutcome := hInv.outcome
        rw [Link.reader_of_done hDone] at hOutcome
        rw [← hOutcome]
        exact Link.reader_of_done hDone
      · rw [← hInv.reaped, hRunning]
        simp
  | wait ex hWaiting hZombie =>
      refine
        { outcome := hInv.outcome
          whole := hInv.whole
          agrees := ?_
          reaped := ?_ }
      · have hAgrees := hInv.agrees
        rw [hWaiting] at hAgrees
        exact hAgrees
      · simp

------------------------------------------------------------
-- Runs
------------------------------------------------------------

/- In a run from the start. -/
abbrev Reaches (f f' : Family) : Prop :=
  Relation.ReflTransGen Step f f'

theorem inv_reaches
    {report : Report} {f : Family}
    (hReach : Reaches (start report) f) : Inv report f :=
  hReach.invariant (inv_start report) fun _ _ hInv hStep =>
    hInv.step hStep

def Life.weight : Life → Nat
| .running => 1
| _ => 0

def Phase.weight : Phase → Nat
| .handling => 2
| .waiting _ => 1
| _ => 0

def Family.measure (f : Family) : Nat :=
  f.link.measure handlePreExecError + f.child.weight +
    f.parent.weight

/- There are only so many steps. -/
theorem Step.measure_lt
    {f f' : Family} (hStep : Step f f') :
    f'.measure < f.measure := by
  cases hStep with
  | communicate link hLink =>
      have hLess := hLink.measure_lt
      simp only [Family.measure]
      omega
  | exit hRunning hClosed =>
      simp [Family.measure, hRunning, Life.weight]
  | succeed hHandling hResult =>
      simp [Family.measure, hHandling, Phase.weight]
  | kill ex hHandling hResult =>
      simp [Family.measure, hHandling, Phase.weight]
  | die ex hWaiting hRunning =>
      simp only [Family.measure, Link.measure, hRunning,
        Life.weight, List.length_nil]
      simp only [Bool.false_eq_true, if_false]
      omega
  | wait ex hWaiting hZombie =>
      simp [Family.measure, hWaiting, hZombie, Phase.weight,
        Life.weight]

/- Until the run is over somebody can go on. -/
theorem Inv.progress
    {report : Report} {f : Family} (hInv : Inv report f)
    (hMore : f.parent.over = false) :
    ∃ f', Step f f' := by
  cases hParent : f.parent with
  | returned =>
      rw [hParent] at hMore
      cases hMore
  | thrown ex =>
      rw [hParent] at hMore
      cases hMore
  | handling =>
      cases hReader : f.link.reader with
      | ended result =>
          cases result with
          | ok done => exact ⟨_, .succeed f hParent hReader⟩
          | error ex => exact ⟨_, .kill f ex hParent hReader⟩
      | atErrnum =>
          rcases
              Link.progress (R := handlePreExecError)
                hInv.whole (by rw [hReader]; rfl) with
            ⟨link, hLink⟩
          exact ⟨_, .communicate f link hLink⟩
      | atMessage errnum =>
          rcases
              Link.progress (R := handlePreExecError)
                hInv.whole (by rw [hReader]; rfl) with
            ⟨link, hLink⟩
          exact ⟨_, .communicate f link hLink⟩
  | waiting ex =>
      cases hChild : f.child with
      | running => exact ⟨_, .die f ex hParent hChild⟩
      | zombie => exact ⟨_, .wait f ex hParent hChild⟩
      | reaped =>
          rcases hInv.reaped.mp hChild with ⟨ex', hThrown⟩
          rw [hParent] at hThrown
          cases hThrown

/- So that every run can be brought to its end. -/
theorem reaches_over
    {report : Report} {f : Family}
    (hReach : Reaches (start report) f) :
    ∃ f', Reaches (start report) f' ∧
      f'.parent.over = true := by
  induction hMeasure : f.measure using Nat.strong_induction_on
    generalizing f with
  | _ n ih =>
      by_cases hOver : f.parent.over = true
      · exact ⟨f, hReach, hOver⟩
      · rw [Bool.not_eq_true] at hOver
        rcases (inv_reaches hReach).progress hOver with
          ⟨f', hStep⟩
        have hLess := hStep.measure_lt
        rw [hMeasure] at hLess
        exact
          ih f'.measure hLess (hReach.tail hStep) rfl

/- How `run` is to end. -/
def Report.outcome (report : Report) : Phase :=
  match report.promised with
  | .ok () => .returned
  | .error ex => .thrown ex

/- At the end the parent has got what was received. -/
theorem Inv.received_of_over
    {report : Report} {f : Family} (hInv : Inv report f)
    (hOver : f.parent.over = true) :
    f.parent = report.outcome ↔
      received report = .ended report.promised := by
  have hPhase : f.parent ≠ .handling := by
    intro hHandling
    rw [hHandling] at hOver
    cases hOver
  have hDone := done_of_agrees hPhase hInv.agrees
  have hReader : received report = f.link.reader :=
    hInv.outcome.symm.trans (Link.reader_of_done hDone)
  have hAgrees := hInv.agrees
  rw [hReader]
  unfold Report.outcome
  cases hParent : f.parent with
  | handling => exact absurd hParent hPhase
  | waiting ex =>
      rw [hParent] at hOver
      cases hOver
  | returned =>
      rw [hParent] at hAgrees
      rw [hAgrees]
      cases report.promised <;> simp
  | thrown ex =>
      rw [hParent] at hAgrees
      rw [hAgrees]
      cases report.promised <;> simp

/-
  In every interleaving `run` ends, and as it is to end: an
  error is thrown when the child was reaped, and a `SubProc`
  is returned for a child that was not.
-/
structure Delivered (report : Report) : Prop where
  result :
    ∀ f, Reaches (start report) f → f.parent.over = true →
      f.parent = report.outcome ∧
        (f.child = .reaped ↔ ∃ ex, f.parent = .thrown ex)
  goesOn :
    ∀ f, Reaches (start report) f → f.parent.over = false →
      ∃ f', Step f f'
  finite :
    ¬ ∃ run : Nat → Family, run 0 = start report ∧
      ∀ n, Step (run n) (run (n + 1))

/- A number that gets smaller in every step. -/
theorem not_endless
    (run : Nat → Family)
    (hRun : ∀ n, Step (run n) (run (n + 1))) : False := by
  have hLess :
      ∀ n, (run n).measure + n ≤ (run 0).measure := by
    intro n
    induction n with
    | zero => exact Nat.le_refl _
    | succ n ih =>
        have hStep := (hRun n).measure_lt
        omega
  have hFar := hLess ((run 0).measure + 1)
  omega

theorem Delivered.received
    {report : Report} (hDelivered : Delivered report) :
    received report = .ended report.promised := by
  have hStart : Reaches (start report) (start report) := .refl
  rcases reaches_over hStart with ⟨f, hReach, hOver⟩
  exact
    ((inv_reaches hReach).received_of_over hOver).mp
      (hDelivered.result f hReach hOver).1

theorem Delivered.of_received
    {report : Report}
    (hReceived :
      ErrorPipe.received report = .ended report.promised) :
    Delivered report where
  result := by
    intro f hReach hOver
    have hInv := inv_reaches hReach
    exact
      ⟨(hInv.received_of_over hOver).mpr hReceived,
        hInv.reaped⟩
  goesOn := fun f hReach => (inv_reaches hReach).progress
  finite := by
    rintro ⟨run, -, hRun⟩
    exact not_endless run hRun

/-
  What the child reports is delivered exactly if the text of
  an error is not empty and fits a packet.
-/
theorem delivered_iff (report : Report) :
    Delivered report ↔ report.Fits := by
  rw [← received_iff]
  exact ⟨Delivered.received, Delivered.of_received⟩

/- An error without a text, and what the parent throws. -/
theorem empty_text_is_not_delivered :
    received (.error .noEntry []) =
        .ended (.error (.runtimeError
          (str "missing error message from error pipe"))) ∧
      ¬ Delivered (.error .noEntry []) := by
  refine ⟨received_empty .noEntry, ?_⟩
  intro hDelivered
  have hReceived := hDelivered.received
  rw [received_empty] at hReceived
  cases hReceived

end ErrorPipe

end Cosmos
