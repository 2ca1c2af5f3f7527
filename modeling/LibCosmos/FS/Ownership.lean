import LibCosmos.FS.FDFile
import LibCosmos.Foundation.Machine
import LibCosmos.Foundation.Places
import LibCosmos.IO.Pipe
import LibCosmos.Proc.ProcessFile

/-
  Objects of the descriptor-owning classes that live in one
  process and pass descriptors among each other.

  Main declarations:
    * `Ownership.World`, `Ownership.Op`
    * `Ownership.moveAssign` and `Ownership.moveAssign_eq`
    * `Ownership.Op.Legal`, `Ownership.Op.Faulty`
    * `Ownership.Conserved`
    * `Ownership.owned_conserved_iff`
-/

namespace Cosmos

namespace Ownership

open Custody

------------------------------------------------------------
-- Objects
------------------------------------------------------------

/- An object of one of the owning classes. -/
inductive Owner where
| file (f : FDFile)
| directory (d : Directory)
| pipe (p : Pipe)
| processFile (p : ProcessFile)
deriving DecidableEq, Repr

namespace Owner

def owned : Owner → List FileNum
| .file f => f.owned
| .directory d => d.owned
| .pipe p => p.owned
| .processFile p => p.owned

/- A default constructed object of the same class. -/
def blank : Owner → Owner
| .file _ => .file {}
| .directory _ => .directory {}
| .pipe _ => .pipe {}
| .processFile _ => .processFile {}

theorem owned_blank (o : Owner) : o.blank.owned = [] := by
  cases o <;> rfl

def SameClass : Owner → Owner → Prop
| .file _, .file _ => True
| .directory _, .directory _ => True
| .pipe _, .pipe _ => True
| .processFile _, .processFile _ => True
| _, _ => False

theorem sameClass_blank (o : Owner) :
    SameClass o.blank o := by
  cases o <;> trivial

end Owner

/- What lives at a place, if something does, owns. -/
def ownedBy : Option Owner → List FileNum
| none => []
| some o => o.owned

------------------------------------------------------------
-- Move Assignment
------------------------------------------------------------

section Moves

variable {ι : Type} [DecidableEq ι]

/-
  One assignment to members of the object at `h`, which may
  read members of the object at `k`. The two may be the same
  object.
-/
def assignAt
    (h k : ι)
    (f : Owner → Owner → Owner)
    (objs : ι → Option Owner) : ι → Option Owner :=
  match objs h, objs k with
  | some a, some b => Function.update objs h (some (f a b))
  | _, _ => objs

def onFiles (f : FDFile → FDFile → FDFile) :
    Owner → Owner → Owner
| .file a, .file b => .file (f a b)
| a, _ => a

def onDirectories
    (f : Directory → Directory → Directory) :
    Owner → Owner → Owner
| .directory a, .directory b => .directory (f a b)
| a, _ => a

def onPipes (f : Pipe → Pipe → Pipe) :
    Owner → Owner → Owner
| .pipe a, .pipe b => .pipe (f a b)
| a, _ => a

def onProcessFiles
    (f : ProcessFile → ProcessFile → ProcessFile) :
    Owner → Owner → Owner
| .processFile a, .processFile b => .processFile (f a b)
| a, _ => a

/- `FDFile::operator=` and in it `FileBase::operator=`. -/
def moveAssignFile
    (h k : ι) (objs : ι → Option Owner) :
    ι → Option Owner :=
  let objs := assignAt h k (onFiles fun self other =>
    { self with mAutoClose := other.mAutoClose }) objs
  let objs := assignAt k k (onFiles fun other _ =>
    { other with mAutoClose := true }) objs
  let objs := assignAt h k (onFiles fun self other =>
    { self with mFd := other.mFd }) objs
  assignAt k k (onFiles fun other _ =>
    { other with mFd := other.mFd.reset }) objs

/- `Directory::operator=`. -/
def moveAssignDirectory
    (h k : ι) (objs : ι → Option Owner) :
    ι → Option Owner :=
  let objs := assignAt h k (onDirectories fun self other =>
    { self with mAutoClose := other.mAutoClose }) objs
  let objs := assignAt h k (onDirectories fun self other =>
    { self with mFd := other.mFd }) objs
  let objs := assignAt k k (onDirectories fun other _ =>
    { other with mAutoClose := true }) objs
  assignAt k k (onDirectories fun other _ =>
    { other with mFd := other.mFd.reset }) objs

/- `Pipe::operator=`. -/
def moveAssignPipe
    (h k : ι) (objs : ι → Option Owner) :
    ι → Option Owner :=
  let objs := assignAt h k (onPipes fun self other =>
    { self with mReadEnd := other.mReadEnd }) objs
  let objs := assignAt h k (onPipes fun self other =>
    { self with mWriteEnd := other.mWriteEnd }) objs
  let objs := assignAt k k (onPipes fun other _ =>
    { other with mReadEnd := other.mReadEnd.reset }) objs
  assignAt k k (onPipes fun other _ =>
    { other with mWriteEnd := other.mWriteEnd.reset }) objs

/- `ProcessFile::operator=`. -/
def moveAssignProcessFile
    (h k : ι) (objs : ι → Option Owner) :
    ι → Option Owner :=
  let objs := assignAt h k (onProcessFiles fun _ other =>
    { mFd := other.mFd }) objs
  assignAt k k (onProcessFiles fun other _ =>
    { mFd := other.mFd.reset }) objs

/- The move assignment of the class of the object at `h`. -/
def moveAssign
    (h k : ι) (objs : ι → Option Owner) :
    ι → Option Owner :=
  match objs h with
  | some (.file _) => moveAssignFile h k objs
  | some (.directory _) => moveAssignDirectory h k objs
  | some (.pipe _) => moveAssignPipe h k objs
  | some (.processFile _) => moveAssignProcessFile h k objs
  | none => objs

/- Move construction: default members, then assignment. -/
def moveConstruct
    (h k : ι) (objs : ι → Option Owner) :
    ι → Option Owner :=
  match objs k with
  | some b =>
      moveAssign h k (Function.update objs h (some b.blank))
  | none => objs

/-
  Every class moves in the same way: the target becomes what
  the source was and then the source becomes blank, which on
  self-move is the last word.
-/
theorem moveAssign_eq
    {h k : ι} {a b : Owner}
    {objs : ι → Option Owner}
    (hSelf : objs h = some a)
    (hOther : objs k = some b)
    (hClass : Owner.SameClass a b) :
    moveAssign h k objs =
      Function.update
        (Function.update objs h (some b)) k
        (some b.blank) := by
  have hCases :
      (∃ f g, a = .file f ∧ b = .file g) ∨
      (∃ f g, a = .directory f ∧ b = .directory g) ∨
      (∃ f g, a = .pipe f ∧ b = .pipe g) ∨
      (∃ f g, a = .processFile f ∧ b = .processFile g) := by
    cases a <;> cases b <;>
      simp_all [Owner.SameClass]
  by_cases hSame : h = k
  · subst hSame
    have hEq : a = b :=
      Option.some.inj (hSelf.symm.trans hOther)
    rcases hCases with
      ⟨f, g, rfl, rfl⟩ | ⟨f, g, rfl, rfl⟩ |
        ⟨f, g, rfl, rfl⟩ | ⟨f, g, rfl, rfl⟩ <;>
    cases hEq <;>
    simp [moveAssign, moveAssignFile, moveAssignDirectory,
      moveAssignPipe, moveAssignProcessFile, assignAt,
      onFiles, onDirectories, onPipes, onProcessFiles,
      FileDescriptor.reset, Owner.blank, hSelf]
  · have hSwap : k ≠ h := fun hEq => hSame hEq.symm
    funext i
    rcases hCases with
      ⟨f, g, rfl, rfl⟩ | ⟨f, g, rfl, rfl⟩ |
        ⟨f, g, rfl, rfl⟩ | ⟨f, g, rfl, rfl⟩ <;>
    by_cases hi : i = k <;> by_cases hj : i = h <;>
    simp [moveAssign, moveAssignFile, moveAssignDirectory,
      moveAssignPipe, moveAssignProcessFile, assignAt,
      onFiles, onDirectories, onPipes, onProcessFiles,
      FileDescriptor.reset, Owner.blank, hSelf, hOther,
      hSame, hSwap, hi, hj]

end Moves

------------------------------------------------------------
-- Member Functions and Constructors
------------------------------------------------------------

/- A call of a member function, with the kernel's answers. -/
inductive Call where
| fileOpenFd (fd : FileDescriptor) (autoClose : Bool)
| fileOpenPath
    (label : String) (closed : Sys Unit) (call : PathOpen)
| fileClose (closed : Sys Unit)
| fileTakeOwnership
| fileReleaseOwnership
| directoryOpenFd (fd : FileDescriptor) (autoClose : Bool)
| directoryOpenPath
    (label : String) (creating : Bool)
    (answer : Sys FileNum)
| directoryClose (closed : Sys Unit)
| pipeCloseReadEnd (closed : Sys Unit)
| pipeCloseWriteEnd (closed : Sys Unit)
| pipeTakeReadEndOwnership
| pipeTakeWriteEndOwnership
| processFileClose (closed : Sys Unit)

/- The object and the log after a member function. -/
def after {T α : Type}
    (wrap : T → Owner) (m : Method (Frame T) α)
    (this : T) (log : List (Entry FileNum)) :
    Owner × List (Entry FileNum) :=
  (wrap (m.run ⟨this, log⟩).2.this,
    (m.run ⟨this, log⟩).2.log)

/- A call on an object; other classes lack the function. -/
def Call.perform :
    Call → Owner → List (Entry FileNum) →
    Owner × List (Entry FileNum)
| .fileOpenFd fd autoClose, .file f, log =>
    after .file (FDFile.openFd fd autoClose) f log
| .fileOpenPath label closed call, .file f, log =>
    after .file (FDFile.openPath label closed call) f log
| .fileClose closed, .file f, log =>
    after .file (FDFile.close closed) f log
| .fileTakeOwnership, .file f, log =>
    after .file FDFile.takeOwnership f log
| .fileReleaseOwnership, .file f, log =>
    after .file FDFile.releaseOwnership f log
| .directoryOpenFd fd autoClose, .directory d, log =>
    after .directory (Directory.openFd fd autoClose) d log
| .directoryOpenPath label creating answer,
    .directory d, log =>
    after .directory
      (Directory.openPath label creating answer) d log
| .directoryClose closed, .directory d, log =>
    after .directory (Directory.close closed) d log
| .pipeCloseReadEnd closed, .pipe p, log =>
    after .pipe (Pipe.closeReadEnd closed) p log
| .pipeCloseWriteEnd closed, .pipe p, log =>
    after .pipe (Pipe.closeWriteEnd closed) p log
| .pipeTakeReadEndOwnership, .pipe p, log =>
    after .pipe Pipe.takeReadEndOwnership p log
| .pipeTakeWriteEndOwnership, .pipe p, log =>
    after .pipe Pipe.takeWriteEndOwnership p log
| .processFileClose closed, .processFile p, log =>
    after .processFile (ProcessFile.close closed) p log
| _, o, log => (o, log)

/- A constructor, with the kernel's answers. -/
inductive Construct where
| file
| fileFd (fd : FileDescriptor) (autoClose : Bool)
| filePath (label : String) (call : PathOpen)
| directory
| directoryFd (fd : FileDescriptor) (autoClose : Bool)
| directoryPath
    (label : String) (creating : Bool)
    (answer : Sys FileNum)
| pipe (answer : Sys (FileNum × FileNum))
| processFile (answer : Sys FileNum)
| processFileFd (fd : FileDescriptor)

/-
  A constructor body on default members. When it throws
  there is no object, and its members hold nothing.
-/
def built {T : Type}
    (wrap : T → Owner) (m : Method (Frame T) Unit)
    (init : T) (log : List (Entry FileNum)) :
    Option Owner × List (Entry FileNum) :=
  match m.run ⟨init, log⟩ with
  | (.returned (), s) => (some (wrap s.this), s.log)
  | (_, s) => (none, s.log)

def Construct.perform :
    Construct → List (Entry FileNum) →
    Option Owner × List (Entry FileNum)
| .file, log => (some (.file {}), log)
| .fileFd fd autoClose, log =>
    built .file (FDFile.openFd fd autoClose) {} log
| .filePath label call, log =>
    built .file
      (FDFile.openPath label (.ok ()) call) {} log
| .directory, log => (some (.directory {}), log)
| .directoryFd fd autoClose, log =>
    built .directory (Directory.openFd fd autoClose) {} log
| .directoryPath label creating answer, log =>
    built .directory
      (Directory.openPath label creating answer) {} log
| .pipe answer, log => built .pipe (Pipe.create answer) {} log
| .processFile answer, log =>
    built .processFile (ProcessFile.openPid answer) {} log
| .processFileFd fd, log =>
    built .processFile (ProcessFile.wrap fd) {} log

/- The destructor and whether it lets the process go on. -/
def Owner.destroy (closed closed' : Sys Unit) :
    Owner → List (Entry FileNum) →
    Bool × Owner × List (Entry FileNum)
| .file f, log =>
    (true, after .file (FDFile.destroy closed) f log)
| .directory d, log =>
    (true, after .directory (Directory.destroy closed) d log)
| .pipe p, log =>
    (((Pipe.destroy closed closed').run ⟨p, log⟩).1 =
        .returned (),
      after .pipe (Pipe.destroy closed closed') p log)
| .processFile p, log =>
    (true,
      after .processFile (ProcessFile.destroy closed) p log)

------------------------------------------------------------
-- The World and Its Operations
------------------------------------------------------------

/-
  The live objects by their places, the descriptor log, and
  whether `std::terminate` was called.
-/
structure World (ι : Type) where
  objs : ι → Option Owner
  log : List (Entry FileNum)
  ended : Bool

def World.owned {ι : Type} (w : World ι) (h : ι) :
    List FileNum :=
  ownedBy (w.objs h)

inductive Op (ι : Type) where
| construct (h : ι) (c : Construct)
| moveConstruct (h k : ι)
| moveAssign (h k : ι)
| call (h : ι) (c : Call)
| destroy (h : ι) (closed closed' : Sys Unit)

section Worlds

variable {ι : Type} [DecidableEq ι]

def World.step (w : World ι) : Op ι → World ι
| .construct h c =>
    { w with
      objs := Function.update w.objs h (c.perform w.log).1
      log := (c.perform w.log).2 }
| .moveConstruct h k =>
    { w with objs := Ownership.moveConstruct h k w.objs }
| .moveAssign h k =>
    { w with objs := Ownership.moveAssign h k w.objs }
| .call h c =>
    match w.objs h with
    | some o =>
        { w with
          objs :=
            Function.update w.objs h
              (some (c.perform o w.log).1)
          log := (c.perform o w.log).2 }
    | none => w
| .destroy h closed closed' =>
    match w.objs h with
    | some o =>
        let r := o.destroy closed closed' w.log
        { objs :=
            Function.update w.objs h
              (if r.1 then none else some r.2.1)
          log := r.2.2
          ended := !r.1 }
    | none => w

/- A process in which no object was made yet. -/
def start : World ι where
  objs _ := none
  log := []
  ended := false

------------------------------------------------------------
-- Legal and Faulty Operations
------------------------------------------------------------

/-
  What the caller may put under the ownership of an object
  and what the kernel may return: a descriptor that is
  `free`. The kernel moreover never returns a number that is
  open.
-/
def Call.Legal (free : FileNum → Prop) :
    Call → Owner → Prop
| .fileOpenFd fd autoClose, .file _ =>
    autoClose = true → fd.valid = true → free fd.mFd
| .fileOpenPath _ _ call, .file _ =>
    ∀ fd, call.result = some fd →
      fd ≠ FileNum.invalid ∧ free fd
| .fileClose _, .file _ => True
| .fileTakeOwnership, .file _ => True
| .fileReleaseOwnership, .file _ => True
| .directoryOpenFd fd autoClose, .directory _ =>
    autoClose = true → fd.valid = true → free fd.mFd
| .directoryOpenPath _ creating answer, .directory d =>
    ∀ fd,
      PathOpen.result ⟨creating, false, answer⟩ = some fd →
      fd ≠ FileNum.invalid ∧ free fd ∧ fd ∉ d.owned
| .directoryClose _, .directory _ => True
| .pipeCloseReadEnd _, .pipe _ => True
| .pipeCloseWriteEnd _, .pipe _ => True
| .pipeTakeReadEndOwnership, .pipe _ => True
| .pipeTakeWriteEndOwnership, .pipe _ => True
| .processFileClose _, .processFile _ => True
| _, _ => False

def Construct.Legal (free : FileNum → Prop) :
    Construct → Prop
| .file => True
| .fileFd fd autoClose =>
    autoClose = true → fd.valid = true → free fd.mFd
| .filePath _ call =>
    ∀ fd, call.result = some fd →
      fd ≠ FileNum.invalid ∧ free fd
| .directory => True
| .directoryFd fd autoClose =>
    autoClose = true → fd.valid = true → free fd.mFd
| .directoryPath _ creating answer =>
    ∀ fd,
      PathOpen.result ⟨creating, false, answer⟩ = some fd →
      fd ≠ FileNum.invalid ∧ free fd
| .pipe answer =>
    ∀ ends, answer = .ok ends →
      ends.1 ≠ FileNum.invalid ∧ free ends.1 ∧
        ends.2 ≠ FileNum.invalid ∧ free ends.2 ∧
          ends.1 ≠ ends.2
| .processFile answer =>
    ∀ fd, answer = .ok fd →
      fd ≠ FileNum.invalid ∧ free fd
| .processFileFd fd => fd.valid = true → free fd.mFd

/- No other object owns the descriptor. -/
def World.Free (w : World ι) (h : ι) (fd : FileNum) :
    Prop :=
  ∀ k, k ≠ h → fd ∉ w.owned k

/-
  Operations make sense on live objects of the right class.
  After `std::terminate` there are none.
-/
def Op.Legal (w : World ι) (op : Op ι) : Prop :=
  w.ended = false ∧
    match op with
    | .construct h c =>
        w.objs h = none ∧ c.Legal (w.Free h)
    | .moveConstruct h k =>
        w.objs h = none ∧ ∃ b, w.objs k = some b
    | .moveAssign h k =>
        ∃ a b, w.objs h = some a ∧ w.objs k = some b ∧
          Owner.SameClass a b
    | .call h c =>
        ∃ o, w.objs h = some o ∧ c.Legal (w.Free h) o
    | .destroy h _ _ => ∃ o, w.objs h = some o

/-
  The member functions that lose track: taking a descriptor
  while another one is owned, and `Directory::open` with a
  path, which drops what the object owns when it succeeds
  and claims what the object borrows when it fails.
-/
def Call.Faulty : Call → Owner → Prop
| .fileOpenFd fd autoClose, .file f =>
    f.owned ≠ [] ∧
      ¬ (autoClose = true ∧ f.owned = fd.owned)
| .directoryOpenFd fd autoClose, .directory d =>
    d.owned ≠ [] ∧
      ¬ (autoClose = true ∧ d.owned = fd.owned)
| .directoryOpenPath _ creating answer, .directory d =>
    match PathOpen.result ⟨creating, false, answer⟩ with
    | some _ => d.owned ≠ []
    | none => d.owned ≠ d.mFd.owned
| _, _ => False

/- Moving onto an object that owns something loses it. -/
def Op.Faulty (w : World ι) : Op ι → Prop
| .moveAssign h _ => w.owned h ≠ []
| .call h c => ∃ o, w.objs h = some o ∧ c.Faulty o
| _ => False

/-
  The conservation of owned descriptors. The books are
  sound, so each descriptor that came under ownership was
  closed or handed out once or has exactly one live owner,
  and one that never did is never closed.
-/
structure Conserved (w : World ι) : Prop where
  sound : Sound w.owned w.log
  accounted :
    ∀ fd,
      ((∃ h, fd ∈ w.owned h) ∧
        w.log.count (.acquired fd) =
          w.log.count (.settled .closed fd) +
            w.log.count (.settled .handedOut fd) + 1) ∨
      ((∀ h, fd ∉ w.owned h) ∧
        w.log.count (.acquired fd) =
          w.log.count (.settled .closed fd) +
            w.log.count (.settled .handedOut fd))
  single :
    ∀ fd h k, fd ∈ w.owned h → fd ∈ w.owned k → h = k

omit [DecidableEq ι] in
theorem Conserved.of_sound
    {w : World ι} (hSound : Sound w.owned w.log) :
    Conserved w where
  sound := hSound
  accounted := hSound.count_acquired
  single _ _ _ hHeld hHeld' := hSound.single hHeld hHeld'

omit [DecidableEq ι] in
/- What never came under ownership is never closed. -/
theorem Conserved.borrowed_not_closed
    {w : World ι} (hConserved : Conserved w)
    {fd : FileNum}
    (hBorrowed : w.log.count (.acquired fd) = 0) :
    w.log.count (.settled .closed fd) = 0 := by
  rcases hConserved.accounted fd with hHeld | hSettled
  · omega
  · omega

------------------------------------------------------------
-- Operations Are Trades
------------------------------------------------------------

theorem trade_call
    {free : FileNum → Prop} {c : Call} {o : Owner}
    {log : List (Entry FileNum)}
    (hLegal : c.Legal free o)
    (hSound : ¬ c.Faulty o) :
    Trade free o.owned log (c.perform o log).1.owned
      (c.perform o log).2 := by
  cases o with
  | file f =>
      cases c with
      | fileOpenFd fd autoClose =>
          refine FDFile.trade_openFd (s := ⟨f, log⟩) hLegal ?_
          by_cases hNone : f.owned = []
          · exact Or.inl hNone
          · exact
              Or.inr
                (Classical.not_not.mp fun hOther =>
                  hSound ⟨hNone, hOther⟩)
      | fileOpenPath label closed call =>
          exact FDFile.trade_openPath (s := ⟨f, log⟩) hLegal
      | fileClose closed =>
          have hClose :=
            FDFile.trade_close free closed ⟨f, log⟩
          simp only [Call.perform, after, Owner.owned]
          rw [FDFile.run_close] at hClose ⊢
          exact hClose
      | fileTakeOwnership =>
          exact FDFile.trade_takeOwnership ⟨f, log⟩
      | fileReleaseOwnership =>
          exact FDFile.trade_releaseOwnership ⟨f, log⟩
      | _ => exact hLegal.elim
  | directory d =>
      cases c with
      | directoryOpenFd fd autoClose =>
          refine
            Directory.trade_openFd (s := ⟨d, log⟩) hLegal ?_
          by_cases hNone : d.owned = []
          · exact Or.inl hNone
          · exact
              Or.inr
                (Classical.not_not.mp fun hOther =>
                  hSound ⟨hNone, hOther⟩)
      | directoryOpenPath label creating answer =>
          refine
            Directory.trade_openPath (s := ⟨d, log⟩)
              (fun fd hResult =>
                ⟨(hLegal fd hResult).1,
                  (hLegal fd hResult).2.1⟩) ?_
          simp only [Call.Faulty] at hSound
          split
          · next hResult =>
              simpa only [hResult, ne_eq,
                Classical.not_not] using hSound
          · next hResult =>
              simpa only [hResult, ne_eq,
                Classical.not_not] using hSound
      | directoryClose closed =>
          exact Directory.trade_close closed ⟨d, log⟩
      | _ => exact hLegal.elim
  | pipe p =>
      cases c with
      | pipeCloseReadEnd closed =>
          exact
            Pipe.trade_closeReadEnd free closed ⟨p, log⟩
      | pipeCloseWriteEnd closed =>
          exact
            Pipe.trade_closeWriteEnd free closed ⟨p, log⟩
      | pipeTakeReadEndOwnership =>
          exact
            Pipe.trade_takeReadEndOwnership free ⟨p, log⟩
      | pipeTakeWriteEndOwnership =>
          exact
            Pipe.trade_takeWriteEndOwnership free ⟨p, log⟩
      | _ => exact hLegal.elim
  | processFile p =>
      cases c with
      | processFileClose closed =>
          exact ProcessFile.trade_close closed ⟨p, log⟩
      | _ => exact hLegal.elim

/-
  A constructor body trades for the new object; if it throws
  it has left its members without a descriptor.
-/
theorem trade_built
    {free : FileNum → Prop} {T : Type}
    {wrap : T → Owner} {owned : T → List FileNum}
    {m : Method (Frame T) Unit} {init : T}
    {log : List (Entry FileNum)}
    (hWrap : ∀ t, (wrap t).owned = owned t)
    (hTrade :
      Trade free [] log (owned (m.run ⟨init, log⟩).2.this)
        (m.run ⟨init, log⟩).2.log)
    (hThrow :
      (m.run ⟨init, log⟩).1 ≠ .returned () →
        owned (m.run ⟨init, log⟩).2.this = []) :
    Trade free [] log (ownedBy (built wrap m init log).1)
      (built wrap m init log).2 := by
  unfold built
  cases hRun : m.run ⟨init, log⟩ with
  | mk outcome s =>
      rw [hRun] at hTrade hThrow
      cases outcome with
      | returned =>
          simp only [ownedBy, hWrap]
          exact hTrade
      | raised ex =>
          rw [hThrow (by simp)] at hTrade
          exact hTrade
      | halted h =>
          rw [hThrow (by simp)] at hTrade
          exact hTrade

theorem trade_construct
    {free : FileNum → Prop} {c : Construct}
    {log : List (Entry FileNum)}
    (hLegal : c.Legal free) :
    Trade free [] log (ownedBy (c.perform log).1)
      (c.perform log).2 := by
  cases c with
  | file => exact .refl
  | directory => exact .refl
  | fileFd fd autoClose =>
      refine
        trade_built (fun _ => rfl)
          (FDFile.trade_openFd (s := ⟨{}, log⟩) hLegal
            (Or.inl rfl)) ?_
      intro hThrow
      rw [FDFile.run_openFd] at hThrow
      exact absurd rfl hThrow
  | filePath label call =>
      exact
        trade_built (fun _ => rfl)
          (FDFile.trade_openPath (s := ⟨{}, log⟩) hLegal)
          FDFile.owned_of_openPath_fails
  | directoryFd fd autoClose =>
      refine
        trade_built (fun _ => rfl)
          (Directory.trade_openFd (s := ⟨{}, log⟩) hLegal
            (Or.inl rfl)) ?_
      intro hThrow
      rw [Directory.run_openFd] at hThrow
      exact absurd rfl hThrow
  | directoryPath label creating answer =>
      refine
        trade_built (fun _ => rfl)
          (Directory.trade_openPath (s := ⟨{}, log⟩) hLegal
            ?_)
          Directory.owned_of_openPath_fails
      split <;> rfl
  | pipe answer =>
      refine
        trade_built (fun _ => rfl)
          (Pipe.trade_create hLegal) ?_
      intro hThrow
      cases answer with
      | error e => rfl
      | ok ends => exact absurd rfl hThrow
  | processFile answer =>
      refine
        trade_built (fun _ => rfl)
          (ProcessFile.trade_openPid hLegal) ?_
      intro hThrow
      cases answer with
      | error e => rfl
      | ok fd => exact absurd rfl hThrow
  | processFileFd fd =>
      refine
        trade_built (fun _ => rfl)
          (ProcessFile.trade_wrap hLegal) ?_
      intro hThrow
      simp [ProcessFile.wrap, Command.run_bind,
        Frame.run_entrust] at hThrow

theorem trade_destroy
    {free : FileNum → Prop} (o : Owner)
    (closed closed' : Sys Unit)
    (log : List (Entry FileNum)) :
    Trade free o.owned log
      (ownedBy
        (if (o.destroy closed closed' log).1 then none
          else some (o.destroy closed closed' log).2.1))
      (o.destroy closed closed' log).2.2 := by
  have hClosed : ∀ mine : List FileNum,
      Trade free mine log []
        ((mine.map (.settled .closed)).reverse ++ log) := by
    intro mine
    simpa using Trade.settleAll free .closed [] mine log
  cases o with
  | file f =>
      rcases FDFile.run_destroy closed ⟨f, log⟩ with
        ⟨f', log', hRun, -, hLog⟩
      simp only [Owner.destroy, after, hRun, if_true, ownedBy,
        Owner.owned, hLog]
      exact hClosed f.owned
  | directory d =>
      rcases Directory.run_destroy closed ⟨d, log⟩ with
        ⟨d', log', hRun, -, hLog⟩
      simp only [Owner.destroy, after, hRun, if_true, ownedBy,
        Owner.owned, hLog]
      exact hClosed d.owned
  | processFile p =>
      rcases ProcessFile.run_destroy closed ⟨p, log⟩ with
        ⟨p', log', hRun, -, hLog⟩
      simp only [Owner.destroy, after, hRun, if_true, ownedBy,
        Owner.owned, hLog]
      exact hClosed p.owned
  | pipe p =>
      rcases
          Pipe.trade_destroy free closed closed'
            ⟨p, log⟩ with
        ⟨hTrade, hEnd | ⟨hEnd, hNone⟩⟩
      · simp only [Owner.destroy, after, hEnd, ownedBy,
          Owner.owned]
        exact hTrade
      · rw [hNone] at hTrade
        simp only [Owner.destroy, after, hEnd, ownedBy,
          Owner.owned]
        exact hTrade

------------------------------------------------------------
-- Sound Steps
------------------------------------------------------------

/- The owners are objects at places. -/
omit [DecidableEq ι] in
theorem owned_eq_held (w : World ι) :
    w.owned = Places.held Owner.owned w.objs := by
  funext h
  unfold World.owned Places.held
  cases w.objs h <;> rfl

/- What is owned after a place got another object. -/
theorem owned_update
    (objs : ι → Option Owner) (h : ι) (x : Option Owner)
    (log log' : List (Entry FileNum)) (e e' : Bool) :
    (World.mk (Function.update objs h x) log e).owned =
      Function.update (World.mk objs log' e').owned h
        (ownedBy x) := by
  rw [owned_eq_held, owned_eq_held, Places.held_update]
  cases x <;> rfl

/- A trade of the object at one place. -/
theorem sound_of_trade
    {w : World ι} {h : ι} {x : Option Owner}
    {log : List (Entry FileNum)} {e : Bool}
    (hSound : Sound w.owned w.log)
    (hTrade :
      Trade (w.Free h) (w.owned h) w.log (ownedBy x) log) :
    Sound (World.mk (Function.update w.objs h x) log e).owned
      log := by
  rw [owned_update w.objs h x log w.log e w.ended]
  exact hSound.trade hTrade rfl fun _ hFree => hFree

/- The objects after a move. -/
theorem objs_moveAssign
    {w : World ι} {h k : ι} {a b : Owner}
    (hSelf : w.objs h = some a)
    (hOther : w.objs k = some b)
    (hClass : Owner.SameClass a b) :
    (w.step (.moveAssign h k)).objs =
      Function.update
        (Function.update w.objs h (some b)) k
        (some b.blank) := by
  simp only [World.step, moveAssign_eq hSelf hOther hClass]

omit [DecidableEq ι] in
theorem heldBy_of_objs
    {w : World ι} {k : ι} {b : Owner}
    (hOther : w.objs k = some b) :
    Places.heldBy Owner.owned (some b) =
      Places.held Owner.owned w.objs k := by
  unfold Places.held
  rw [hOther]

/- Moving onto an object that owns nothing. -/
theorem sound_moveAssign
    {w : World ι} {h k : ι}
    (hSound : Sound w.owned w.log)
    (hLegal : (Op.moveAssign h k).Legal w)
    (hNone : w.owned h = []) :
    Sound (w.step (.moveAssign h k)).owned w.log := by
  rcases hLegal.2 with ⟨a, b, hSelf, hOther, hClass⟩
  rw [owned_eq_held] at hSound hNone
  rw [owned_eq_held, objs_moveAssign hSelf hOther hClass]
  exact
    Places.sound_of_move hSound (heldBy_of_objs hOther)
      (Owner.owned_blank b) hNone

/- Move construction, at a place where nothing lives. -/
theorem sound_moveConstruct
    {w : World ι} {h k : ι}
    (hSound : Sound w.owned w.log)
    (hLegal : (Op.moveConstruct h k).Legal w) :
    Sound (w.step (.moveConstruct h k)).owned w.log := by
  rcases hLegal with ⟨hEnded, hFresh, b, hOther⟩
  have hSame : h ≠ k := by
    rintro rfl
    rw [hFresh] at hOther
    cases hOther
  let w' : World ι :=
    { w with
      objs := Function.update w.objs h (some b.blank) }
  have hOwned : w'.owned = w.owned := by
    have hBlank :
        w'.owned =
          Function.update w.owned h
            (ownedBy (some b.blank)) :=
      owned_update w.objs h _ w.log w.log w.ended w.ended
    have hNone : w.owned h = [] := by
      simp only [World.owned, hFresh, ownedBy]
    rw [hBlank]
    simp only [ownedBy, Owner.owned_blank]
    rw [← hNone, Function.update_eq_self]
  have hLegal' : (Op.moveAssign h k).Legal w' := by
    refine
      ⟨hEnded, b.blank, b, Function.update_self _ _ _, ?_,
        Owner.sameClass_blank b⟩
    have hKeep : w'.objs k = w.objs k :=
      Function.update_of_ne (fun hEq => hSame hEq.symm) _ _
    rw [hKeep, hOther]
  have hStep :
      w.step (.moveConstruct h k) =
        w'.step (.moveAssign h k) := by
    simp only [World.step, Ownership.moveConstruct, hOther,
      w']
  rw [hStep]
  refine sound_moveAssign (w := w') ?_ hLegal' ?_
  · rw [hOwned]
    exact hSound
  · simp [World.owned, w', ownedBy, Owner.owned_blank]

/- A step that is not faulty keeps the books sound. -/
theorem sound_step
    {w : World ι} {op : Op ι}
    (hSound : Sound w.owned w.log)
    (hLegal : op.Legal w)
    (hGood : ¬ op.Faulty w) :
    Sound (w.step op).owned (w.step op).log := by
  cases op with
  | construct h c =>
      rcases hLegal with ⟨-, hFresh, hLegal⟩
      refine sound_of_trade hSound ?_
      have hNone : w.owned h = [] := by
        simp only [World.owned, hFresh, ownedBy]
      rw [hNone]
      exact trade_construct hLegal
  | moveConstruct h k =>
      exact sound_moveConstruct hSound hLegal
  | moveAssign h k =>
      exact
        sound_moveAssign hSound hLegal
          (Classical.not_not.mp hGood)
  | call h c =>
      rcases hLegal with ⟨-, o, hObj, hLegal⟩
      simp only [World.step, hObj]
      refine sound_of_trade hSound ?_
      have hOwned : w.owned h = o.owned := by
        simp only [World.owned, hObj, ownedBy]
      rw [hOwned]
      exact
        trade_call hLegal fun hFaulty =>
          hGood ⟨o, hObj, hFaulty⟩
  | destroy h closed closed' =>
      rcases hLegal with ⟨-, o, hObj⟩
      simp only [World.step, hObj]
      refine sound_of_trade hSound ?_
      have hOwned : w.owned h = o.owned := by
        simp only [World.owned, hObj, ownedBy]
      rw [hOwned]
      exact trade_destroy o closed closed' w.log

------------------------------------------------------------
-- Steps That Lose Track
------------------------------------------------------------

/- A call that forgets a descriptor breaks the books. -/
theorem not_sound_of_forgetting
    {w : World ι} {h : ι} {c : Call} {o : Owner}
    {fd : FileNum} (new : List (Entry FileNum))
    (hSound : Sound w.owned w.log)
    (hObj : w.objs h = some o)
    (hHeld : fd ∈ o.owned)
    (hLog : (c.perform o w.log).2 = new ++ w.log)
    (hNot : ∀ way, Entry.settled way fd ∉ new)
    (hMine : fd ∉ (c.perform o w.log).1.owned) :
    ¬ Sound (w.step (.call h c)).owned
      (w.step (.call h c)).log := by
  have hOwned : w.owned h = o.owned := by
    simp only [World.owned, hObj, ownedBy]
  simp only [World.step, hObj, hLog]
  rw [owned_update w.objs h _ _ w.log _ w.ended]
  exact
    not_sound_of_forgotten new hSound (hOwned ▸ hHeld) hNot
      hMine

/- An owned descriptor and the one that takes its place. -/
theorem exists_lost
    {mine : List FileNum} {fd other : FileDescriptor}
    {autoClose : Bool}
    (hMine : mine = [] ∨ mine = other.owned)
    (hOwner : mine ≠ [])
    (hOther : ¬ (autoClose = true ∧ mine = fd.owned)) :
    ∃ d ∈ mine,
      d ∉ if autoClose then fd.owned else [] := by
  have hOwned : mine = other.owned :=
    hMine.resolve_left hOwner
  have hValid : other.valid = true := by
    by_contra hInvalid
    exact
      hOwner
        (by simp [hOwned, FileDescriptor.owned, hInvalid])
  have hSingle : mine = [other.mFd] := by
    simp [hOwned, FileDescriptor.owned, hValid]
  refine ⟨other.mFd, by simp [hSingle], ?_⟩
  cases autoClose with
  | false => simp
  | true =>
      rw [if_pos rfl]
      intro hSame
      refine hOther ⟨rfl, ?_⟩
      unfold FileDescriptor.owned at hSame ⊢
      split at hSame
      · next hNew =>
          rw [List.mem_singleton] at hSame
          rw [if_pos hNew, hSingle, hSame]
      · cases hSame

/- Both `open` functions forget what they owned before. -/
theorem not_sound_openFd
    {w : World ι} {h : ι} {c : Call} {o : Owner}
    {fd other : FileDescriptor} {autoClose owning : Bool}
    (hSound : Sound w.owned w.log)
    (hObj : w.objs h = some o)
    (hMine :
      o.owned = if owning then other.owned else [])
    (hFaulty :
      o.owned ≠ [] ∧
        ¬ (autoClose = true ∧ o.owned = fd.owned))
    (hLog :
      (c.perform o w.log).2 =
        if autoClose &&
            (fd.valid && !o.owned.contains fd.mFd) then
          .acquired fd.mFd :: w.log
        else w.log)
    (hOwned :
      (c.perform o w.log).1.owned =
        if autoClose then fd.owned else []) :
    ¬ Sound (w.step (.call h c)).owned
      (w.step (.call h c)).log := by
  have hCases : o.owned = [] ∨ o.owned = other.owned := by
    rw [hMine]
    split
    · exact Or.inr rfl
    · exact Or.inl rfl
  rcases exists_lost hCases hFaulty.1 hFaulty.2 with
    ⟨d, hHeld, hLost⟩
  refine
    not_sound_of_forgetting
      (if autoClose &&
            (fd.valid && !o.owned.contains fd.mFd) then
          [.acquired fd.mFd]
        else []) hSound hObj hHeld ?_ ?_ ?_
  · rw [hLog]
    split <;> rfl
  · intro way hNew
    split at hNew <;> simp at hNew
  · rw [hOwned]
    exact hLost

/-
  Opening a directory forgets what it owned, or if it fails
  makes a borrowed descriptor its own.
-/
theorem not_sound_openPath
    {w : World ι} {h : ι} {d : Directory} {label : String}
    {creating : Bool} {answer : Sys FileNum}
    (hSound : Sound w.owned w.log)
    (hObj : w.objs h = some (.directory d))
    (hLegal :
      (Call.directoryOpenPath label creating answer).Legal
        (w.Free h) (.directory d))
    (hFaulty :
      (Call.directoryOpenPath label creating answer).Faulty
        (.directory d)) :
    ¬ Sound
      (w.step
        (.call h
          (.directoryOpenPath label creating answer))).owned
      (w.step
        (.call h
          (.directoryOpenPath label creating
            answer))).log := by
  cases hResult :
      PathOpen.result ⟨creating, false, answer⟩ with
  | some fd =>
      simp only [Call.Faulty, hResult] at hFaulty
      rcases List.exists_mem_of_ne_nil _ hFaulty with
        ⟨d', hHeld⟩
      rcases hLegal fd hResult with ⟨hValid, -, hNotOpen⟩
      refine
        not_sound_of_forgetting
          [.acquired fd] hSound hObj hHeld ?_ ?_ ?_
      · simp only [Call.perform, after,
          Directory.run_openPath, hResult]
        rfl
      · intro way hNew
        simp at hNew
      · simp only [Call.perform, after,
          Directory.run_openPath, hResult,
          Owner.owned, Directory.owned, if_true,
          FileDescriptor.owned_of_ne hValid,
          List.mem_singleton]
        rintro rfl
        exact hNotOpen hHeld
  | none =>
      simp only [Call.Faulty, hResult] at hFaulty
      have hAuto : d.mAutoClose = false := by
        by_contra hAuto
        exact hFaulty (by simp [Directory.owned, hAuto])
      have hNothing : d.owned = [] := by
        simp [Directory.owned, hAuto]
      have hOwned : w.owned h = [] := by
        simp only [World.owned, hObj, ownedBy, Owner.owned,
          hNothing]
      have hBorrowed : d.mFd.owned ≠ [] := by
        intro hNone
        exact hFaulty (hNothing.trans hNone.symm)
      rcases List.exists_mem_of_ne_nil _ hBorrowed with
        ⟨fd, hHeld⟩
      simp only [World.step, hObj, Call.perform, after,
        Directory.run_openPath, hResult]
      rw [owned_update w.objs h _ _ w.log _ w.ended]
      refine
        not_sound_of_phantom (h := h) (r := fd)
          hSound ?_ ?_ ?_
      · intro k hk
        rw [Function.update_of_ne hk]
      · rw [hOwned]
        exact List.not_mem_nil
      · rw [Function.update_self]
        exact hHeld

/- Each faulty member function breaks the books. -/
theorem not_sound_call
    {w : World ι} {h : ι} {c : Call} {o : Owner}
    (hSound : Sound w.owned w.log)
    (hObj : w.objs h = some o)
    (hLegal : c.Legal (w.Free h) o)
    (hFaulty : c.Faulty o) :
    ¬ Sound (w.step (.call h c)).owned
      (w.step (.call h c)).log := by
  cases o with
  | file f =>
      cases c with
      | fileOpenFd fd autoClose =>
          refine
            not_sound_openFd hSound hObj rfl hFaulty ?_ ?_
          · simp only [Call.perform, after, FDFile.run_openFd]
            rfl
          · simp only [Call.perform, after, FDFile.run_openFd,
              Owner.owned, FDFile.owned]
      | _ => exact hFaulty.elim
  | directory d =>
      cases c with
      | directoryOpenFd fd autoClose =>
          refine
            not_sound_openFd hSound hObj rfl hFaulty ?_ ?_
          · simp only [Call.perform, after,
              Directory.run_openFd]
            rfl
          · simp only [Call.perform, after,
              Directory.run_openFd, Owner.owned,
              Directory.owned]
      | directoryOpenPath label creating answer =>
          exact
            not_sound_openPath hSound hObj hLegal hFaulty
      | _ => exact hFaulty.elim
  | pipe p => cases c <;> exact hFaulty.elim
  | processFile p => cases c <;> exact hFaulty.elim

theorem not_sound_moveAssign
    {w : World ι} {h k : ι}
    (hSound : Sound w.owned w.log)
    (hLegal : (Op.moveAssign h k).Legal w)
    (hOwner : w.owned h ≠ []) :
    ¬ Sound (w.step (.moveAssign h k)).owned w.log := by
  rcases hLegal.2 with ⟨a, b, hSelf, hOther, hClass⟩
  rw [owned_eq_held] at hSound hOwner
  rw [owned_eq_held, objs_moveAssign hSelf hOther hClass]
  exact
    Places.not_sound_of_move hSound (heldBy_of_objs hOther)
      (Owner.owned_blank b) hOwner

------------------------------------------------------------
-- Runs
------------------------------------------------------------

/- Owning objects driven by operations on them. -/
def machine : Machine (World ι) (Op ι) where
  legal w op := op.Legal w
  step := World.step

omit [DecidableEq ι] in
theorem conserved_start : Conserved (start : World ι) :=
  .of_sound (sound_nil fun _ => rfl)

/-
  In a run of operations on any number of objects the owned
  descriptors are conserved in every state exactly as long
  as no operation is faulty.
-/
theorem owned_conserved_iff
    (ops : List (Op ι))
    (hLegal : machine.Legal start ops) :
    machine.Along (fun _ _ w => Conserved w) start ops ↔
      machine.Along (fun w op _ => ¬ op.Faulty w)
        start ops := by
  refine
    Machine.along_iff_of_invariant Conserved
      ?_ ?_ ops start conserved_start hLegal
  · intro w op hConserved hOp hGood
    have hSound := sound_step hConserved.sound hOp hGood
    exact ⟨.of_sound hSound, .of_sound hSound⟩
  · intro w op hConserved hOp hFaulty hAfter
    replace hFaulty := Classical.not_not.mp hFaulty
    cases op with
    | construct => exact hFaulty
    | moveConstruct => exact hFaulty
    | destroy => exact hFaulty
    | moveAssign h k =>
        exact
          not_sound_moveAssign hConserved.sound hOp hFaulty
            hAfter.sound
    | call h c =>
        rcases hFaulty with ⟨o, hObj, hFaulty⟩
        rcases hOp with ⟨-, o', hObj', hLegal⟩
        have hSame : o' = o :=
          Option.some.inj (hObj'.symm.trans hObj)
        subst hSame
        exact
          not_sound_call hConserved.sound hObj hLegal hFaulty
            hAfter.sound

end Worlds

/-
  A file object that takes descriptor 3, moves to a second
  object and is reopened by path.
-/
theorem owned_conserved_moved_file :
    machine.Along (fun _ _ w => Conserved w)
      (start : World Bool)
      [.construct true (.fileFd ⟨⟨3⟩⟩ true),
        .moveConstruct false true,
        .call true
          (.fileOpenPath "open" (.ok ())
            ⟨false, false, .ok ⟨4⟩⟩)] := by
  refine
    (owned_conserved_iff
      [.construct true (.fileFd ⟨⟨3⟩⟩ true),
        .moveConstruct false true,
        .call true
          (.fileOpenPath "open" (.ok ())
            ⟨false, false, .ok ⟨4⟩⟩)] ?_).mpr ?_
  · refine
      ⟨⟨rfl, rfl, fun _ _ k _ => List.not_mem_nil⟩,
        ⟨rfl, rfl, .file ⟨⟨⟨3⟩⟩, true⟩, rfl⟩,
        ⟨rfl, .file {}, rfl, ?_⟩, trivial⟩
    rintro fd ⟨⟩
    refine ⟨by decide, ?_⟩
    intro k hk
    cases k with
    | true => exact absurd rfl hk
    | false => decide
  · refine ⟨id, id, ?_, trivial⟩
    rintro ⟨o, hObj, hFaulty⟩
    cases hObj
    exact hFaulty

/-
  Move assignment of an open file onto an open file: the
  descriptor 3 of the target is lost.
-/
theorem moveAssign_loses_target :
    machine.Legal (start : World Bool)
        [.construct true (.fileFd ⟨⟨3⟩⟩ true),
          .construct false (.fileFd ⟨⟨4⟩⟩ true),
          .moveAssign true false] ∧
      (machine.run (start : World Bool)
          [.construct true (.fileFd ⟨⟨3⟩⟩ true),
            .construct false (.fileFd ⟨⟨4⟩⟩ true),
            .moveAssign true false]).log =
        [.acquired ⟨4⟩, .acquired ⟨3⟩] ∧
      (∀ h, (⟨3⟩ : FileNum) ∉
        (machine.run (start : World Bool)
          [.construct true (.fileFd ⟨⟨3⟩⟩ true),
            .construct false (.fileFd ⟨⟨4⟩⟩ true),
            .moveAssign true false]).owned h) ∧
      ¬ machine.Along (fun _ _ w => Conserved w)
        (start : World Bool)
        [.construct true (.fileFd ⟨⟨3⟩⟩ true),
          .construct false (.fileFd ⟨⟨4⟩⟩ true),
          .moveAssign true false] := by
  have hLost : ∀ h, (⟨3⟩ : FileNum) ∉
      (machine.run (start : World Bool)
        [.construct true (.fileFd ⟨⟨3⟩⟩ true),
          .construct false (.fileFd ⟨⟨4⟩⟩ true),
          .moveAssign true false]).owned h := by decide
  refine
    ⟨⟨⟨rfl, rfl, fun _ _ k _ => List.not_mem_nil⟩,
      ⟨rfl, rfl, ?_⟩,
      ⟨rfl, .file ⟨⟨⟨3⟩⟩, true⟩, .file ⟨⟨⟨4⟩⟩, true⟩, rfl,
        rfl, trivial⟩, trivial⟩, rfl, hLost, ?_⟩
  · intro _ _ k hk
    cases k with
    | true => decide
    | false => exact absurd rfl hk
  · rintro ⟨-, -, hConserved, -⟩
    rcases hConserved.accounted ⟨3⟩ with
      ⟨⟨h, hHeld⟩, -⟩ | ⟨-, hCount⟩
    · exact hLost h hHeld
    · exact absurd hCount (by decide)

end Ownership

end Cosmos
