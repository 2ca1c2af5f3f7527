import LibCosmos.Core.BitMask
import LibCosmos.Foundation.Machine
import LibCosmos.FS.FileDescriptor

/-
  The members of `FileDescriptor` for seals and for the size
  of a pipe (`src/fs/FileDescriptor.cxx`).

  The kernel stores both for an open file. Which calls of
  `fcntl()` fail, and what size it makes of the one that is
  asked for, is up to it.

  Main declarations:
    * `Fcntl.accessor`, `Fcntl.addSeals`, `Fcntl.getSeals`
    * `Fcntl.getPipeSize`, `Fcntl.setPipeSize`
    * `Fcntl.Right`, `Fcntl.Fit`
    * `Fcntl.calls_right_iff`
-/

namespace Cosmos

namespace Fcntl

------------------------------------------------------------
-- The Kernel
------------------------------------------------------------

abbrev SealFlags : Type := BitMask 32

structure OpenFile where
  pipeSize : Int32
  seals : SealFlags
deriving DecidableEq, Repr

inductive Call where
| addSeals (flags : SealFlags)
| getSeals
| getPipeSize
| setPipeSize (newSize : Int32)
deriving DecidableEq, Repr

/- What a call that does not fail makes of the file. -/
def Call.effect (size : Int32) (file : OpenFile) :
    Call → OpenFile
| addSeals flags =>
    { file with seals := file.seals.setMask flags }
| getSeals => file
| getPipeSize => file
| setPipeSize _ => { file with pipeSize := size }

/- What `fcntl()` returns then. -/
def Call.value (file : OpenFile) : Call → Int32
| addSeals _ => 0
| getSeals => Int32.ofBitVec file.seals.raw
| getPipeSize => file.pipeSize
| setPipeSize _ => file.pipeSize

/-
  The open file and `errno`. The seals the file had at first
  and what was added since then are for the record.
-/
structure Session where
  file : OpenFile
  errno : Errno
  initial : SealFlags
  added : List SealFlags

def start (file : OpenFile) (errno : Errno) : Session where
  file := file
  errno := errno
  initial := file.seals
  added := []

/- The union of all seals that were added successfully. -/
def Session.union (s : Session) : SealFlags :=
  s.added.foldr (fun flags mask => mask.setMask flags)
    s.initial

def Call.newSeals : Call → List SealFlags
| addSeals flags => [flags]
| _ => []

/-
  `FileDescriptor::fcntl`. The answer is an error or the
  size that `F_SETPIPE_SZ` leads to.
-/
def fcntl (call : Call) (answer : Sys Int32) :
    Method Session Int32 where
  run s :=
    match answer with
    | .error e => (.returned (-1), { s with errno := e })
    | .ok size =>
        (.returned (call.value (call.effect size s.file)),
          { s with
            file := call.effect size s.file
            added := call.newSeals ++ s.added })

------------------------------------------------------------
-- The Code
------------------------------------------------------------

/- `throw ApiError{label}`. -/
def throwErrno {α : Type} (label : String) :
    Method Session α where
  run s := (.raised (.apiError s.errno (str label)), s)

/- What all these functions do with the result. -/
def accessor
    (bad : Int32 → Bool) (label : String)
    (call : Call) (answer : Sys Int32) :
    Method Session Int32 := do
  let res ← fcntl call answer
  if bad res then throwErrno label else pure res

def nonZero (res : Int32) : Bool := res != 0

def addSeals (flags : SealFlags) (answer : Sys Int32) :
    Method Session Unit := do
  let _ ←
    accessor nonZero "fcntl(F_ADD_SEALS)" (.addSeals flags)
      answer
  pure ()

def getSeals (answer : Sys Int32) :
    Method Session SealFlags := do
  let res ←
    accessor nonZero "fcntl(F_GET_SEALS)" .getSeals answer
  pure ⟨res.toBitVec⟩

def getPipeSize (answer : Sys Int32) :
    Method Session Int32 :=
  accessor nonZero "fcntl(F_GETPIP_SZ)" .getPipeSize answer

def setPipeSize (newSize : Int32) (answer : Sys Int32) :
    Method Session Int32 :=
  accessor nonZero "fcntl(F_SETPIP_SZ)"
    (.setPipeSize newSize) answer

------------------------------------------------------------
-- Sequences of Calls
------------------------------------------------------------

inductive Result where
| done
| seals (flags : SealFlags)
| size (n : Int32)
deriving DecidableEq, Repr

def perform (answer : Sys Int32) :
    Call → Method Session Result
| .addSeals flags => do
    addSeals flags answer
    pure .done
| .getSeals => do
    let flags ← getSeals answer
    pure (.seals flags)
| .getPipeSize => do
    let n ← getPipeSize answer
    pure (.size n)
| .setPipeSize newSize => do
    let n ← setPipeSize newSize answer
    pure (.size n)

def Call.label : Call → String
| addSeals _ => "fcntl(F_ADD_SEALS)"
| getSeals => "fcntl(F_GET_SEALS)"
| getPipeSize => "fcntl(F_GETPIP_SZ)"
| setPipeSize _ => "fcntl(F_SETPIP_SZ)"

structure Input where
  call : Call
  answer : Sys Int32

/- All seals there are. -/
def allSeals : BitVec 32 := 0x3f

/- The kernel takes no other seals, and sizes are sizes. -/
def Call.Accepted (size : Int32) : Call → Prop
| addSeals flags => flags.raw &&& ~~~allSeals = 0
| setPipeSize _ => 0 ≤ size
| _ => True

def machine : Machine Session Input where
  legal _ i := ∀ size, i.answer = .ok size →
    i.call.Accepted size
  step s i := ((perform i.answer i.call).run s).2

/- What a call that did not fail has to return. -/
def expected (s : Session) (size : Int32) : Call → Result
| .addSeals _ => .done
| .getSeals => .seals s.union
| .getPipeSize => .size s.file.pipeSize
| .setPipeSize _ => .size size

/-
  A call throws just if its `fcntl()` returned -1, and then
  the error of it.
-/
structure Right (s : Session) (i : Input) (_ : Session) :
    Prop where
  throws :
    (∃ ex, ((perform i.answer i.call).run s).1 =
        .raised ex) ↔
      ((fcntl i.call i.answer).run s).1 = .returned (-1)
  failed :
    ∀ e, i.answer = .error e →
      ((perform i.answer i.call).run s).1 =
        .raised (.apiError e (str i.call.label))
  returned :
    ∀ size, i.answer = .ok size →
      ((perform i.answer i.call).run s).1 =
        .returned (expected s size i.call)

/- The call fails, or its `fcntl()` returns zero. -/
def Fit (s : Session) (i : Input) : Prop :=
  match i.call, i.answer with
  | _, .error _ => True
  | .addSeals _, .ok _ => True
  | .getSeals, .ok _ => s.file.seals.raw = 0
  | .getPipeSize, .ok _ => s.file.pipeSize = 0
  | .setPipeSize _, .ok size => size = 0

------------------------------------------------------------
-- One Call
------------------------------------------------------------

/- What a function makes of the result of `fcntl()`. -/
def Call.result (res : Int32) : Call → Result
| addSeals _ => .done
| getSeals => .seals ⟨res.toBitVec⟩
| getPipeSize => .size res
| setPipeSize _ => .size res

/- Every function takes zero for success and nothing else. -/
theorem run_perform
    {call : Call} {answer : Sys Int32} {s s' : Session}
    {res : Int32}
    (hCall :
      (fcntl call answer).run s = (.returned res, s')) :
    (perform answer call).run s =
      if res = 0 then (.returned (call.result res), s')
      else
        (.raised (.apiError s'.errno (str call.label)),
          s') := by
  have hAccessor : ∀ label,
      (accessor nonZero label call answer).run s =
        if res = 0 then (.returned res, s')
        else
          (.raised (.apiError s'.errno (str label)), s') := by
    intro label
    unfold accessor
    rw [Command.run_bind_returned hCall, Command.run_ite]
    by_cases hZero : res = 0
    · simp [nonZero, hZero]
    · simp [nonZero, hZero, throwErrno]
  by_cases hZero : res = 0
  · simp only [if_pos hZero] at hAccessor ⊢
    cases call with
    | addSeals flags =>
        simp [perform, addSeals, Command.run_bind, hAccessor,
          Call.result]
    | getSeals =>
        simp [perform, getSeals, Command.run_bind, hAccessor,
          Call.result]
    | getPipeSize =>
        simp [perform, getPipeSize, Command.run_bind,
          hAccessor, Call.result]
    | setPipeSize newSize =>
        simp [perform, setPipeSize, Command.run_bind,
          hAccessor, Call.result]
  · simp only [if_neg hZero] at hAccessor ⊢
    cases call with
    | addSeals flags =>
        simp [perform, addSeals, Command.run_bind, hAccessor,
          Call.label]
    | getSeals =>
        simp [perform, getSeals, Command.run_bind, hAccessor,
          Call.label]
    | getPipeSize =>
        simp [perform, getPipeSize, Command.run_bind,
          hAccessor, Call.label]
    | setPipeSize newSize =>
        simp [perform, setPipeSize, Command.run_bind,
          hAccessor, Call.label]

theorem run_fcntl_error
    (call : Call) (e : Errno) (s : Session) :
    (fcntl call (.error e)).run s =
      (.returned (-1), { s with errno := e }) := rfl

theorem run_fcntl_ok
    (call : Call) (size : Int32) (s : Session) :
    (fcntl call (.ok size)).run s =
      (.returned (call.value (call.effect size s.file)),
        { s with
          file := call.effect size s.file
          added := call.newSeals ++ s.added }) := rfl

------------------------------------------------------------
-- Sound Sessions
------------------------------------------------------------

/- The file has known seals, and its size is one. -/
structure OpenFile.Sound (file : OpenFile) : Prop where
  known : file.seals.raw &&& ~~~allSeals = 0
  nonneg : 0 ≤ file.pipeSize

/- The kernel has the union of what was added. -/
structure Session.Kept (s : Session) : Prop where
  sound : s.file.Sound
  union : s.file.seals = s.union

theorem kept_start
    {file : OpenFile} (hSound : file.Sound) (errno : Errno) :
    (start file errno).Kept where
  sound := hSound
  union := rfl

theorem kept_step
    {s : Session} (hKept : s.Kept) {i : Input}
    (hLegal : machine.legal s i) :
    (machine.step s i).Kept := by
  have hState : ∀ res s',
      (fcntl i.call i.answer).run s = (.returned res, s') →
      machine.step s i = s' := by
    intro res s' hCall
    simp only [machine]
    rw [run_perform hCall]
    split <;> rfl
  rcases i with ⟨call, answer⟩
  cases answer with
  | error e =>
      rw [hState _ _ (run_fcntl_error call e s)]
      exact
        { sound := hKept.sound
          union := hKept.union }
  | ok size =>
      rw [hState _ _ (run_fcntl_ok call size s)]
      have hAccepted := hLegal size rfl
      cases call with
      | addSeals flags =>
          refine
            { sound :=
                { known := ?_
                  nonneg := hKept.sound.nonneg }
              union := ?_ }
          · have hOld := hKept.sound.known
            unfold Call.Accepted at hAccepted
            simp only [BitMask.raw] at hOld hAccepted
            simp only [Call.effect, BitMask.setMask,
              BitMask.raw]
            rw [BitVec.and_or_distrib_right, hOld, hAccepted]
            rfl
          · simp only [Call.effect, hKept.union]
            rfl
      | getSeals =>
          exact
            { sound := hKept.sound
              union := hKept.union }
      | getPipeSize =>
          exact
            { sound := hKept.sound
              union := hKept.union }
      | setPipeSize newSize =>
          exact
            { sound :=
                { known := hKept.sound.known
                  nonneg := hAccepted }
              union := hKept.union }

/- What `fcntl()` returns for success is not -1. -/
theorem value_ne
    {s : Session} (hKept : s.Kept) {call : Call}
    {size : Int32} (hAccepted : call.Accepted size) :
    call.value (call.effect size s.file) ≠ -1 := by
  have hSize : ∀ n : Int32, 0 ≤ n → n ≠ -1 := by
    rintro n hNonneg rfl
    exact absurd hNonneg (by decide)
  cases call with
  | addSeals flags =>
      have hZero : (0 : Int32) ≠ -1 := by decide
      exact hZero
  | getSeals =>
      intro hMinus
      have hAll : s.file.seals.raw = (-1 : Int32).toBitVec :=
        congrArg Int32.toBitVec hMinus
      have hKnown := hKept.sound.known
      rw [hAll] at hKnown
      exact absurd hKnown (by decide)
  | getPipeSize => exact hSize _ hKept.sound.nonneg
  | setPipeSize newSize => exact hSize _ hAccepted

------------------------------------------------------------
-- Right Calls
------------------------------------------------------------

theorem right_error
    (s s' : Session) (call : Call) (e : Errno) :
    Right s ⟨call, .error e⟩ s' := by
  have hRun := run_perform (run_fcntl_error call e s)
  rw [if_neg (by decide)] at hRun
  refine
    { throws := ?_
      failed := ?_
      returned := ?_ }
  · rw [hRun]
    exact iff_of_true ⟨_, rfl⟩ rfl
  · rintro e' hAnswer
    cases hAnswer
    rw [hRun]
  · rintro size hAnswer
    cases hAnswer

/- A success has to look like zero. -/
theorem right_ok_iff
    {s : Session} (hKept : s.Kept) (s' : Session)
    {call : Call} {size : Int32}
    (hAccepted : call.Accepted size) :
    Right s ⟨call, .ok size⟩ s' ↔
      call.value (call.effect size s.file) = 0 := by
  have hRun := run_perform (run_fcntl_ok call size s)
  have hSuccess := value_ne hKept hAccepted
  constructor
  · intro hRight
    by_contra hValue
    rw [if_neg hValue] at hRun
    have hReturned := hRight.returned size rfl
    rw [hRun] at hReturned
    cases hReturned
  · intro hValue
    rw [if_pos hValue] at hRun
    refine
      { throws := ?_
        failed := ?_
        returned := ?_ }
    · rw [hRun]
      refine iff_of_false ?_ ?_
      · rintro ⟨ex, hRaised⟩
        cases hRaised
      · intro hMinus
        exact hSuccess (Outcome.returned.inj hMinus)
    · rintro e hAnswer
      cases hAnswer
    · rintro size' hAnswer
      cases hAnswer
      rw [hRun]
      cases call with
      | addSeals flags => rfl
      | getSeals =>
          unfold expected
          rw [← hKept.union]
          rfl
      | getPipeSize => rfl
      | setPipeSize newSize => rfl

theorem fit_ok_iff
    (s : Session) (call : Call) (size : Int32) :
    Fit s ⟨call, .ok size⟩ ↔
      call.value (call.effect size s.file) = 0 := by
  cases call with
  | addSeals flags => exact iff_of_true trivial rfl
  | getSeals =>
      constructor
      · intro hNone
        exact congrArg Int32.ofBitVec hNone
      · intro hZero
        exact congrArg Int32.toBitVec hZero
  | getPipeSize => exact Iff.rfl
  | setPipeSize newSize => exact Iff.rfl

/-
  All calls of a run are right exactly if each of them fails
  or returns zero from the kernel.
-/
theorem calls_right_iff
    {file : OpenFile} (hSound : file.Sound) (errno : Errno)
    {inputs : List Input}
    (hLegal : machine.Legal (start file errno) inputs) :
    machine.Along Right (start file errno) inputs ↔
      machine.Along (fun s i _ => Fit s i)
        (start file errno) inputs := by
  have hIff : ∀ s i, Session.Kept s → machine.legal s i →
      (Right s i (machine.step s i) ↔ Fit s i) := by
    rintro s ⟨call, answer⟩ hKept hLegal
    cases answer with
    | error e =>
        refine iff_of_true (right_error s _ call e) ?_
        cases call <;> trivial
    | ok size =>
        rw [right_ok_iff hKept _ (hLegal size rfl),
          fit_ok_iff]
  refine
    Machine.along_iff_of_invariant Session.Kept ?_ ?_ inputs
      (start file errno) (kept_start hSound errno) hLegal
  · intro s i hKept hLegal hFit
    exact
      ⟨kept_step hKept hLegal,
        (hIff s i hKept hLegal).mpr hFit⟩
  · intro s i hKept hLegal hNot hRight
    exact hNot ((hIff s i hKept hLegal).mp hRight)

/- Seals are added to a file that has none. -/
theorem right_along_sealing :
    machine.Along Right
        (start ⟨0, ⟨0⟩⟩ .noError)
        [⟨.getSeals, .ok 0⟩, ⟨.addSeals ⟨6⟩, .ok 0⟩,
          ⟨.getSeals, .error .badFd⟩] ↔
      machine.Along (fun s i _ => Fit s i)
        (start ⟨0, ⟨0⟩⟩ .noError)
        [⟨.getSeals, .ok 0⟩, ⟨.addSeals ⟨6⟩, .ok 0⟩,
          ⟨.getSeals, .error .badFd⟩] := by
  refine
    calls_right_iff
      { known := by decide
        nonneg := by decide }
      .noError ⟨?_, ?_, ?_, trivial⟩
  · intro size _
    trivial
  · intro size _
    rfl
  · intro size hAnswer
    cases hAnswer

/- A pipe of the usual size, and a file with two seals. -/
theorem not_right_along_pipe :
    ¬ machine.Along Right
        (start ⟨65536, ⟨0⟩⟩ .noError)
        [⟨.getPipeSize, .ok 0⟩] ∧
      ¬ machine.Along Right
        (start ⟨0, ⟨0⟩⟩ .noError)
        [⟨.addSeals ⟨6⟩, .ok 0⟩, ⟨.getSeals, .ok 0⟩] := by
  refine ⟨?_, ?_⟩
  · rintro ⟨hRight, -⟩
    have hReturned := hRight.returned 0 rfl
    rw [run_perform (run_fcntl_ok _ _ _),
      if_neg (by decide)] at hReturned
    cases hReturned
  · rintro ⟨-, hRight, -⟩
    have hReturned := hRight.returned 0 rfl
    rw [run_perform (run_fcntl_ok _ _ _),
      if_neg (by decide)] at hReturned
    cases hReturned

end Fcntl

end Cosmos
