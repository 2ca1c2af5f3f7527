import LibCosmos.Core.Types
import LibCosmos.Foundation.Machine
import Mathlib.Logic.Function.Basic

/-
  Locks of a thread and the guard objects that hold them
  (`include/thread/Mutex.hxx`, `include/thread/RWLock.hxx`,
  `ResourceGuard` in `include/utils.hxx`).

  A lock is what it is for the one thread: it holds it or it
  does not. What a call of the kernel does to other threads
  is left out.

  Main declarations:
    * `LockCall`, `LockCall.effect`
    * `ResourceGuard.around`, `ResourceGuard.destroy`
    * `Guard`, `Guard.construct`, `Guard.destroy`
    * `Guard.Entered`, `Guard.Balanced`
    * `Guard.balanced_along_iff`
-/

namespace Cosmos

namespace Errno

def permission : Errno := ⟨1⟩
def deadlock : Errno := ⟨35⟩

end Errno

------------------------------------------------------------
-- Locks
------------------------------------------------------------

/- How a thread holds an `RWLock`; `more` may be 0. -/
inductive RWHold where
| free
| reading (more : Nat)
| writing
deriving DecidableEq, Repr

/- The mutexes `M` and the read-write locks `R`. -/
structure Locks (M R : Type) where
  mutexes : M → Bool
  rwlocks : R → RWHold

/- A function of the pthread library, with its lock. -/
inductive LockCall (M R : Type) where
| mutexLock (m : M)
| mutexUnlock (m : M)
| rwlockRead (r : R)
| rwlockWrite (r : R)
| rwlockUnlock (r : R)

/-
  A thread with its locks, its `errno` variable and the
  calls it made, newest first, each with its success.
-/
structure Thread (M R : Type) where
  locks : Locks M R
  errno : Errno
  calls : List (LockCall M R × Bool)

section Calls

variable {M R : Type} [DecidableEq M] [DecidableEq R]

def Locks.setMutex
    (locks : Locks M R) (m : M) (held : Bool) : Locks M R :=
  { locks with
    mutexes := Function.update locks.mutexes m held }

def Locks.setRWLock
    (locks : Locks M R) (r : R) (hold : RWHold) :
    Locks M R :=
  { locks with
    rwlocks := Function.update locks.rwlocks r hold }

/- What a successful call does, where it can be successful. -/
def LockCall.effect (locks : Locks M R) :
    LockCall M R → Option (Locks M R)
| .mutexLock m =>
    if locks.mutexes m then none
    else some (locks.setMutex m true)
| .mutexUnlock m =>
    if locks.mutexes m then some (locks.setMutex m false)
    else none
| .rwlockRead r =>
    match locks.rwlocks r with
    | .free => some (locks.setRWLock r (.reading 0))
    | .reading more =>
        some (locks.setRWLock r (.reading (more + 1)))
    | .writing => none
| .rwlockWrite r =>
    match locks.rwlocks r with
    | .free => some (locks.setRWLock r .writing)
    | _ => none
| .rwlockUnlock r =>
    match locks.rwlocks r with
    | .free => none
    | .reading 0 => some (locks.setRWLock r .free)
    | .reading (more + 1) =>
        some (locks.setRWLock r (.reading more))
    | .writing => some (locks.setRWLock r .free)

/- What an unsuccessful call returns in any case. -/
def LockCall.refusal : LockCall M R → Errno
| .mutexLock _ => .deadlock
| .mutexUnlock _ => .permission
| .rwlockRead _ => .deadlock
| .rwlockWrite _ => .deadlock
| .rwlockUnlock _ => .permission

/- The answer of a kernel that succeeds if it can. -/
def LockCall.answer
    (call : LockCall M R) (locks : Locks M R) :
    Option Errno :=
  match call.effect locks with
  | some _ => none
  | none => some call.refusal

/- A call that the kernel answers in the given way. -/
def LockCall.invoke
    (call : LockCall M R) (answer : Option Errno) :
    Method (Thread M R) (Option Errno) where
  run t :=
    match answer with
    | none =>
        (.returned none,
          { t with
            locks := (call.effect t.locks).getD t.locks
            calls := (call, true) :: t.calls })
    | some errnum =>
        (.returned (some errnum),
          { t with calls := (call, false) :: t.calls })

------------------------------------------------------------
-- Mutex and RWLock
------------------------------------------------------------

def Mutex.lock (m : M) (answer : Option Errno) :
    Method (Thread M R) Unit := do
  let lockRes ← (LockCall.mutexLock m).invoke answer
  match lockRes with
  | some errnum =>
      Command.raise
        (.apiError errnum (str "pthread_mutex_lock()"))
  | none => pure ()

def Mutex.unlock (m : M) (answer : Option Errno) :
    Method (Thread M R) Unit := do
  let unlockRes ← (LockCall.mutexUnlock m).invoke answer
  match unlockRes with
  | some errnum =>
      Command.raise
        (.apiError errnum (str "pthread_mutex_unlock()"))
  | none => pure ()

/-
  The calls of the read-write lock return their error but
  the exception takes the one in `errno`.
-/
def RWLock.check
    (call : LockCall M R) (label : String)
    (answer : Option Errno) :
    Method (Thread M R) Unit := do
  let res ← call.invoke answer
  match res with
  | some _ =>
      let t ← Command.get
      Command.raise (.apiError t.errno (str label))
  | none => pure ()

def RWLock.readlock (r : R) (answer : Option Errno) :
    Method (Thread M R) Unit :=
  RWLock.check (.rwlockRead r) "pthread_rwlock_rdlock()"
    answer

def RWLock.writelock (r : R) (answer : Option Errno) :
    Method (Thread M R) Unit :=
  RWLock.check (.rwlockWrite r) "pthread_rwlock_wrlock()"
    answer

def RWLock.unlock (r : R) (answer : Option Errno) :
    Method (Thread M R) Unit :=
  RWLock.check (.rwlockUnlock r) "pthread_rwlock_unlock()"
    answer

end Calls

------------------------------------------------------------
-- ResourceGuard
------------------------------------------------------------

namespace ResourceGuard

variable {T : Type}

/-
  The destructor. No guard is ever disarmed. Destructors are
  `noexcept`.
-/
def destroy (cleaner : Method T Unit) : Method T Unit :=
  cleaner.handle fun _ => Command.halt .terminate

/-
  The constructor of a derived class. Its body runs when the
  base class object is complete, so that an exception in it
  runs the destructor of the base class.
-/
def around (cleaner body : Method T Unit) :
    Method T Unit :=
  body.handle fun e => do
    destroy cleaner
    Command.raise e

end ResourceGuard

------------------------------------------------------------
-- Guards
------------------------------------------------------------

/- A guard object of one of the four classes. -/
inductive Guard (M R : Type) where
| mutexGuard (m : M)
| mutexReverseGuard (m : M)
| readLockGuard (r : R)
| writeLockGuard (r : R)

namespace Guard

variable {M R : Type} [DecidableEq M] [DecidableEq R]

/- The call in the constructor and the one that undoes it. -/
def enter : Guard M R → LockCall M R
| .mutexGuard m => .mutexLock m
| .mutexReverseGuard m => .mutexUnlock m
| .readLockGuard r => .rwlockRead r
| .writeLockGuard r => .rwlockWrite r

def leave : Guard M R → LockCall M R
| .mutexGuard m => .mutexUnlock m
| .mutexReverseGuard m => .mutexLock m
| .readLockGuard r => .rwlockUnlock r
| .writeLockGuard r => .rwlockUnlock r

/- The function that is given to the base class. -/
def cleaner (g : Guard M R) : Method (Thread M R) Unit := do
  let t ← Command.get
  let answer := g.leave.answer t.locks
  match g with
  | .mutexGuard m => Mutex.unlock m answer
  | .mutexReverseGuard m => Mutex.lock m answer
  | .readLockGuard r => RWLock.unlock r answer
  | .writeLockGuard r => RWLock.unlock r answer

def body (g : Guard M R) (answer : Option Errno) :
    Method (Thread M R) Unit :=
  match g with
  | .mutexGuard m => Mutex.lock m answer
  | .mutexReverseGuard m => Mutex.unlock m answer
  | .readLockGuard r => RWLock.readlock r answer
  | .writeLockGuard r => RWLock.writelock r answer

def construct (g : Guard M R) (answer : Option Errno) :
    Method (Thread M R) Unit :=
  ResourceGuard.around g.cleaner (g.body answer)

def destroy (g : Guard M R) : Method (Thread M R) Unit :=
  ResourceGuard.destroy g.cleaner

/- A function of a lock makes its call and may throw. -/
theorem run_body
    (g : Guard M R) (answer : Option Errno)
    (t : Thread M R) :
    (∃ e, answer ≠ none ∧
      (g.body answer).run t =
        (.raised e,
          { t with
            calls := (g.enter, false) :: t.calls })) ∨
    (answer = none ∧
      (g.body answer).run t =
        (.returned (),
          { t with
            locks := (g.enter.effect t.locks).getD t.locks
            calls := (g.enter, true) :: t.calls })) := by
  cases answer with
  | none =>
      right
      cases g <;> exact ⟨rfl, rfl⟩
  | some errnum =>
      left
      cases g with
      | mutexGuard m => exact ⟨_, by simp, rfl⟩
      | mutexReverseGuard m => exact ⟨_, by simp, rfl⟩
      | readLockGuard r => exact ⟨_, by simp, rfl⟩
      | writeLockGuard r => exact ⟨_, by simp, rfl⟩

/- A cleaner that can undo what was done. -/
theorem run_cleaner_of_some
    {g : Guard M R} {t : Thread M R} {locks : Locks M R}
    (hEffect : g.leave.effect t.locks = some locks) :
    g.cleaner.run t =
      (.returned (),
        { t with
          locks := locks
          calls := (g.leave, true) :: t.calls }) := by
  have hAnswer : g.leave.answer t.locks = none := by
    simp [LockCall.answer, hEffect]
  unfold cleaner
  simp only [Command.run_bind, Command.run_get, hAnswer]
  cases g <;>
    simp only [leave] at hEffect <;>
    simp [Mutex.lock, Mutex.unlock, RWLock.unlock,
      RWLock.check, LockCall.invoke, Command.run_bind, leave,
      hEffect]

/- A cleaner that finds nothing to undo throws. -/
theorem run_cleaner_of_none
    {g : Guard M R} {t : Thread M R}
    (hEffect : g.leave.effect t.locks = none) :
    ∃ e, g.cleaner.run t =
      (.raised e,
        { t with
          calls := (g.leave, false) :: t.calls }) := by
  have hAnswer :
      g.leave.answer t.locks = some g.leave.refusal := by
    simp [LockCall.answer, hEffect]
  unfold cleaner
  simp only [Command.run_bind, Command.run_get, hAnswer]
  cases g <;>
    simp [Mutex.lock, Mutex.unlock, RWLock.unlock,
      RWLock.check, LockCall.invoke, Command.run_bind, leave]

------------------------------------------------------------
-- Nested Guards
------------------------------------------------------------

/- Setting a lock to what it was before. -/
omit [DecidableEq R] in
theorem setMutex_back
    {locks : Locks M R} {m : M} {held now : Bool}
    (hHeld : locks.mutexes m = held) :
    (locks.setMutex m now).setMutex m held = locks := by
  simp [Locks.setMutex, ← hHeld]

omit [DecidableEq M] in
theorem setRWLock_back
    {locks : Locks M R} {r : R} {hold now : RWHold}
    (hHold : locks.rwlocks r = hold) :
    (locks.setRWLock r now).setRWLock r hold = locks := by
  simp [Locks.setRWLock, ← hHold]

omit [DecidableEq R] in
@[simp] theorem mutexes_setMutex
    (locks : Locks M R) (m : M) (held : Bool) :
    (locks.setMutex m held).mutexes m = held := by
  simp [Locks.setMutex]

omit [DecidableEq M] in
@[simp] theorem rwlocks_setRWLock
    (locks : Locks M R) (r : R) (hold : RWHold) :
    (locks.setRWLock r hold).rwlocks r = hold := by
  simp [Locks.setRWLock]

/- A guard undoes what it did. -/
theorem effect_leave
    {g : Guard M R} {before after : Locks M R}
    (hEnter : g.enter.effect before = some after) :
    g.leave.effect after = some before := by
  cases g with
  | mutexGuard m =>
      cases hHeld : before.mutexes m with
      | true => simp [enter, LockCall.effect, hHeld] at hEnter
      | false =>
          simp [enter, LockCall.effect, hHeld] at hEnter
          subst hEnter
          simp [leave, LockCall.effect, setMutex_back hHeld]
  | mutexReverseGuard m =>
      cases hHeld : before.mutexes m with
      | false => simp [enter, LockCall.effect, hHeld] at hEnter
      | true =>
          simp [enter, LockCall.effect, hHeld] at hEnter
          subst hEnter
          simp [leave, LockCall.effect, setMutex_back hHeld]
  | readLockGuard r =>
      cases hHold : before.rwlocks r with
      | free =>
          simp [enter, LockCall.effect, hHold] at hEnter
          subst hEnter
          simp [leave, LockCall.effect, setRWLock_back hHold]
      | reading more =>
          simp [enter, LockCall.effect, hHold] at hEnter
          subst hEnter
          simp [leave, LockCall.effect, setRWLock_back hHold]
      | writing =>
          simp [enter, LockCall.effect, hHold] at hEnter
  | writeLockGuard r =>
      cases hHold : before.rwlocks r with
      | free =>
          simp [enter, LockCall.effect, hHold] at hEnter
          subst hEnter
          simp [leave, LockCall.effect, setRWLock_back hHold]
      | reading more =>
          simp [enter, LockCall.effect, hHold] at hEnter
      | writing =>
          simp [enter, LockCall.effect, hHold] at hEnter

/-
  A thread with the guards that are alive, the innermost
  first, and whether `std::terminate` was called.
-/
structure Scope (M R : Type) where
  thread : Thread M R
  guards : List (Guard M R)
  ended : Bool

/-
  A guard is constructed at the inside, with the kernel's
  answer, or the innermost one is destroyed.
-/
inductive Op (M R : Type) where
| construct (g : Guard M R) (answer : Option Errno)
| destroy

def Scope.step (s : Scope M R) : Op M R → Scope M R
| .construct g answer =>
    match (g.construct answer).run s.thread with
    | (.returned _, t) =>
        { s with thread := t, guards := g :: s.guards }
    | (.raised _, t) => { s with thread := t }
    | (.halted _, t) => { s with thread := t, ended := true }
| .destroy =>
    match s.guards with
    | [] => s
    | g :: rest =>
        match g.destroy.run s.thread with
        | (.halted _, t) =>
            { s with thread := t, ended := true }
        | (_, t) => { s with thread := t, guards := rest }

/-
  The kernel may fail with any error, and does not succeed
  in what cannot be done. An `unlock` of a normal mutex that
  is not held is undefined behaviour: in a build where it
  reports success it is excluded as well.
-/
def Op.Legal (s : Scope M R) : Op M R → Prop
| .construct g none =>
    s.ended = false ∧ g.enter.effect s.thread.locks ≠ none
| .construct _ (some errnum) =>
    s.ended = false ∧ errnum ≠ .noError
| .destroy => s.ended = false ∧ s.guards ≠ []

/- The call in a constructor fails. -/
def Op.Fails : Op M R → Prop
| .construct _ (some _) => True
| _ => False

/-
  The locks are what the guards made of the initial ones,
  the outermost guard first.
-/
def Entered (initial : Locks M R) :
    List (Guard M R) → Locks M R → Prop
| [], locks => locks = initial
| g :: guards, locks =>
    ∃ before, Entered initial guards before ∧
      g.enter.effect before = some locks

/-
  What one operation has to do. Every call to undo something
  is in the list of calls, with its success.
-/
structure Balanced
    (initial : Locks M R)
    (s : Scope M R) (op : Op M R)
    (s' : Scope M R) : Prop where
  alive : s'.ended = false
  constructed :
    ∀ g, op = .construct g none →
      s'.guards = g :: s.guards ∧
        s'.thread.calls = (g.enter, true) :: s.thread.calls
  refused :
    ∀ g errnum, op = .construct g (some errnum) →
      s'.guards = s.guards ∧
        s'.thread.locks = s.thread.locks ∧
        s'.thread.calls = (g.enter, false) :: s.thread.calls
  destroyed :
    op = .destroy →
      ∃ g, s.guards = g :: s'.guards ∧
        s'.thread.calls = (g.leave, true) :: s.thread.calls ∧
        g.leave.effect s.thread.locks =
          some s'.thread.locks
  entered : Entered initial s'.guards s'.thread.locks
  done : s'.guards = [] → s'.thread.locks = initial

------------------------------------------------------------
-- One Operation
------------------------------------------------------------

/- A constructor whose call succeeds. -/
theorem run_construct_ok
    {g : Guard M R} {t : Thread M R} {locks : Locks M R}
    (hEffect : g.enter.effect t.locks = some locks) :
    (g.construct none).run t =
      (.returned (),
        { t with
          locks := locks
          calls := (g.enter, true) :: t.calls }) := by
  rcases run_body g none t with ⟨_, hSome, _⟩ | ⟨-, hRun⟩
  · exact absurd rfl hSome
  · unfold construct ResourceGuard.around
    rw [Command.run_handle, hRun, hEffect]
    rfl

/-
  A constructor whose call fails runs the cleaner, which
  calls the kernel a second time.
-/
theorem calls_construct_fails
    (g : Guard M R) (errnum : Errno) (t : Thread M R) :
    ∃ success,
      ((g.construct (some errnum)).run t).2.calls =
        (g.leave, success) :: (g.enter, false) :: t.calls := by
  rcases run_body g (some errnum) t with
    ⟨e, -, hRun⟩ | ⟨hNone, -⟩
  · unfold construct ResourceGuard.around
    rw [Command.run_handle, hRun]
    simp only [ResourceGuard.destroy, Command.run_bind,
      Command.run_handle]
    cases hEffect : g.leave.effect t.locks with
    | none =>
        rcases run_cleaner_of_none
            (t := { t with
              calls := (g.enter, false) :: t.calls })
            hEffect with ⟨e', hClean⟩
        refine ⟨false, ?_⟩
        rw [hClean]
        rfl
    | some locks =>
        refine ⟨true, ?_⟩
        rw [run_cleaner_of_some
          (t := { t with
            calls := (g.enter, false) :: t.calls }) hEffect]
        rfl
  · cases hNone

theorem run_destroy_ok
    {g : Guard M R} {t : Thread M R} {locks : Locks M R}
    (hEffect : g.leave.effect t.locks = some locks) :
    g.destroy.run t =
      (.returned (),
        { t with
          locks := locks
          calls := (g.leave, true) :: t.calls }) := by
  unfold destroy ResourceGuard.destroy
  rw [Command.run_handle, run_cleaner_of_some hEffect]

/- The locks at the start of a thread's guards. -/
def Holds (initial : Locks M R) (s : Scope M R) : Prop :=
  Entered initial s.guards s.thread.locks

theorem step_construct
    {initial : Locks M R} {s : Scope M R} {g : Guard M R}
    (hHolds : Holds initial s)
    (hLegal : (Op.construct g none).Legal s) :
    Balanced initial s (.construct g none)
      (s.step (.construct g none)) := by
  rcases hLegal with ⟨hAlive, hCan⟩
  rcases Option.ne_none_iff_exists'.mp hCan with
    ⟨locks, hEffect⟩
  have hStep : s.step (.construct g none) =
      { s with
        thread :=
          { s.thread with
            locks := locks
            calls := (g.enter, true) :: s.thread.calls }
        guards := g :: s.guards } := by
    unfold Scope.step
    simp only [run_construct_ok hEffect]
  rw [hStep]
  exact
    { alive := hAlive
      constructed := by
        rintro h ⟨⟩
        exact ⟨rfl, rfl⟩
      refused := by
        rintro h errnum ⟨⟩
      destroyed := by
        rintro ⟨⟩
      entered := ⟨s.thread.locks, hHolds, hEffect⟩
      done := by
        rintro ⟨⟩ }

theorem step_destroy
    {initial : Locks M R} {s : Scope M R}
    (hHolds : Holds initial s)
    (hLegal : Op.destroy.Legal s) :
    Balanced initial s .destroy (s.step .destroy) := by
  rcases s with ⟨t, guards, ended⟩
  rcases hLegal with ⟨hAlive, hSome⟩
  cases guards with
  | nil => exact absurd rfl hSome
  | cons g guards =>
      rcases hHolds with ⟨before, hEntered, hEnter⟩
      have hLeave := effect_leave hEnter
      have hStep :
          Scope.step ⟨t, g :: guards, ended⟩ .destroy =
            ⟨{ t with
                locks := before
                calls := (g.leave, true) :: t.calls },
              guards, ended⟩ := by
        unfold Scope.step
        simp only [run_destroy_ok hLeave]
      rw [hStep]
      exact
        { alive := hAlive
          constructed := by
            rintro h ⟨⟩
          refused := by
            rintro h errnum ⟨⟩
          destroyed := fun _ => ⟨g, rfl, rfl, hLeave⟩
          entered := hEntered
          done := by
            rintro rfl
            exact hEntered }

/-
  A guard whose constructor fails makes a call to undo what
  was never done.
-/
theorem not_balanced_of_fails
    {initial : Locks M R} {s : Scope M R}
    (g : Guard M R) (errnum : Errno) :
    ¬ Balanced initial s (.construct g (some errnum))
      (s.step (.construct g (some errnum))) := by
  intro hBalanced
  have hThread :
      (s.step (.construct g (some errnum))).thread =
        ((g.construct (some errnum)).run s.thread).2 := by
    simp only [Scope.step]
    rcases (g.construct (some errnum)).run s.thread with
      ⟨⟨⟩ | ⟨⟩ | ⟨⟩, t⟩ <;> rfl
  rcases calls_construct_fails g errnum s.thread with
    ⟨success, hCalls⟩
  have hAfter := (hBalanced.refused g errnum rfl).2.2
  rw [hThread, hCalls] at hAfter
  have hLength := congrArg List.length hAfter
  simp at hLength

------------------------------------------------------------
-- Runs
------------------------------------------------------------

/- A thread that nests guards. -/
def machine : Machine (Scope M R) (Op M R) where
  legal s op := op.Legal s
  step := Scope.step

/- A thread without guards, whatever it holds. -/
def start (initial : Locks M R) : Scope M R where
  thread := ⟨initial, .noError, []⟩
  guards := []
  ended := false

/-
  The guards keep the balance in every nesting exactly as
  long as no call in one of their constructors fails.
-/
theorem balanced_along_iff
    (initial : Locks M R)
    (ops : List (Op M R))
    (hLegal : machine.Legal (start initial) ops) :
    machine.Along (Balanced initial) (start initial) ops ↔
      machine.Along (fun _ op _ => ¬ op.Fails)
        (start initial) ops := by
  refine
    Machine.along_iff_of_invariant (Holds initial)
      ?_ ?_ ops (start initial) rfl hLegal
  · intro s op hHolds hOp hGood
    have hBalanced :
        Balanced initial s op (machine.step s op) := by
      cases op with
      | construct g answer =>
          cases answer with
          | none => exact step_construct hHolds hOp
          | some errnum => exact absurd trivial hGood
      | destroy => exact step_destroy hHolds hOp
    exact ⟨hBalanced.entered, hBalanced⟩
  · intro s op _ _ hFails hBalanced
    cases op with
    | destroy => exact hFails id
    | construct g answer =>
        cases answer with
        | none => exact hFails id
        | some errnum =>
            exact not_balanced_of_fails g errnum hBalanced

/-
  A mutex that is unlocked for a while, with two readers
  inside of each other.
-/
theorem balanced_along_nested :
    machine.Along
      (Balanced ⟨fun _ => false, fun _ => .free⟩)
      (start (M := Unit) (R := Unit)
        ⟨fun _ => false, fun _ => .free⟩)
      [.construct (.mutexGuard ()) none,
        .construct (.readLockGuard ()) none,
        .construct (.mutexReverseGuard ()) none,
        .construct (.readLockGuard ()) none,
        .destroy, .destroy, .destroy, .destroy] := by
  refine
    (balanced_along_iff ⟨fun _ => false, fun _ => .free⟩
      [.construct (.mutexGuard ()) none,
        .construct (.readLockGuard ()) none,
        .construct (.mutexReverseGuard ()) none,
        .construct (.readLockGuard ()) none,
        .destroy, .destroy, .destroy, .destroy] ?_).mpr ?_
  · exact
      ⟨⟨rfl, nofun⟩, ⟨rfl, nofun⟩, ⟨rfl, nofun⟩,
        ⟨rfl, nofun⟩, ⟨rfl, nofun⟩, ⟨rfl, nofun⟩,
        ⟨rfl, nofun⟩, ⟨rfl, nofun⟩, trivial⟩
  · exact ⟨id, id, id, id, id, id, id, id, trivial⟩

/-
  A second guard for a mutex that the thread holds. The
  kernel refuses the lock, and the mutex of the first guard
  is unlocked while the guard lives on.
-/
theorem second_guard_unlocks :
    machine.Legal
        (start (M := Unit) (R := Unit)
          ⟨fun _ => false, fun _ => .free⟩)
        [.construct (.mutexGuard ()) none,
          .construct (.mutexGuard ()) (some .deadlock)] ∧
      (machine.run
          (start (M := Unit) (R := Unit)
            ⟨fun _ => false, fun _ => .free⟩)
          [.construct (.mutexGuard ()) none,
            .construct (.mutexGuard ())
              (some .deadlock)]).thread.locks.mutexes () =
        false ∧
      ¬ machine.Along
        (Balanced ⟨fun _ => false, fun _ => .free⟩)
        (start (M := Unit) (R := Unit)
          ⟨fun _ => false, fun _ => .free⟩)
        [.construct (.mutexGuard ()) none,
          .construct (.mutexGuard ()) (some .deadlock)] := by
  refine ⟨⟨⟨rfl, nofun⟩, ⟨rfl, by decide⟩, trivial⟩,
    rfl, ?_⟩
  rintro ⟨-, hBalanced, -⟩
  exact not_balanced_of_fails _ _ hBalanced

end Guard

end Cosmos
