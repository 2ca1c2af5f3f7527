import LibCosmos.FS.FileDescriptor
import LibCosmos.Foundation.Machine
import Mathlib.Data.Finset.Card

/-
  Thread objects and the OS threads they own
  (`src/thread/PosixThread.cxx`,
  `include/thread/PosixThread.hxx`).

  The log holds the threads that were started, joined
  (`closed`) and detached (`handedOut`).

  Main declarations:
    * `PosixThread.construct`, `PosixThread.moveAssign`,
      `PosixThread.joinWith`, `PosixThread.detach`
    * `PosixThread.Conserved`, `PosixThread.Conforming`,
      `PosixThread.Faulty`
    * `PosixThread.threads_conserved_along_iff`
-/

namespace Cosmos

open Custody

------------------------------------------------------------
-- Objects and the Process
------------------------------------------------------------

/- A `pthread_t`. -/
abbrev ThreadHandle := UInt64

/- `pthread::ExitValue` and `pthread::ThreadArg`. -/
abbrev ExitValue := Int64
abbrev ThreadArg := Int64

/- The two kinds of entry functions, by their address. -/
inductive ThreadEntry where
| posixEntry (function : UInt64)
| entry (function : UInt64)
deriving DecidableEq, Repr

/- What the starting thread gets to know. -/
structure ThreadContext where
  entry : ThreadEntry
  arg : ThreadArg
  name : Str
deriving DecidableEq, Repr

/- A thread object. -/
structure PosixThread where
  mPthread : Option ThreadHandle
  mName : Str
deriving DecidableEq, Repr

namespace PosixThread

/- A default-constructed object. -/
def empty : PosixThread where
  mPthread := none
  mName := []

def joinable (t : PosixThread) : Bool :=
  t.mPthread.isSome

/- The thread object at an address. -/
abbrev ObjectId := Nat

/-
  The objects of the process, the counter of the module and
  what the kernel was asked for.
-/
structure World where
  objects : ObjectId → Option PosixThread
  numThreads : Nat
  started : List (ThreadHandle × ThreadContext)
  log : List (Entry ThreadHandle)

namespace World

def object (w : World) (o : ObjectId) : PosixThread :=
  (w.objects o).getD PosixThread.empty

/- The threads that an object holds. -/
def holds (w : World) (o : ObjectId) : List ThreadHandle :=
  (w.object o).mPthread.toList

def put (o : ObjectId) (t : PosixThread) (w : World) :
    World :=
  { w with objects := Function.update w.objects o (some t) }

/- The end of the lifetime of an object. -/
def drop (o : ObjectId) (w : World) : World :=
  { w with objects := Function.update w.objects o none }

theorem object_put
    (o : ObjectId) (t : PosixThread) (w : World) :
    (w.put o t).object = Function.update w.object o t := by
  funext k
  by_cases hEq : k = o
  · subst hEq
    simp [object, put]
  · simp [object, put, hEq]

theorem object_drop (o : ObjectId) (w : World) :
    (w.drop o).object =
      Function.update w.object o PosixThread.empty := by
  funext k
  by_cases hEq : k = o
  · subst hEq
    simp [object, drop]
  · simp [object, drop, hEq]

theorem holds_of_object
    {w w' : World} {o : ObjectId} {t : PosixThread}
    (hObject : w'.object = Function.update w.object o t) :
    w'.holds =
      Function.update w.holds o t.mPthread.toList := by
  funext k
  unfold holds
  rw [hObject]
  by_cases hEq : k = o
  · subst hEq
    rw [Function.update_self, Function.update_self]
  · rw [Function.update_of_ne hEq, Function.update_of_ne hEq]

end World

------------------------------------------------------------
-- Operations
------------------------------------------------------------

section Operations

variable (this : ObjectId)

def self : Method World PosixThread := do
  let w ← Command.get
  pure (w.object this)

def assign (t : PosixThread) : Method World Unit :=
  Command.modify fun w => w.put this t

/- The kernel joined or detached a thread. -/
def settle (way : Way) (handle : ThreadHandle) :
    Method World Unit :=
  Command.modify fun w =>
    { w with log := .settled way handle :: w.log }

/- `PosixThread::buildName`. -/
def buildName (name : Str) (nr : Nat) : Str :=
  if name ≠ [] then name
  else str "thread<" ++ str (toString nr) ++ str ">"

/- `create_thread`; at most 15 bytes of the name are used. -/
def createThread
    (context : ThreadContext)
    (name : Option Str)
    (created : Sys ThreadHandle) :
    Method World ThreadHandle := do
  let context :=
    match name with
    | some name => { context with name := name.take 15 }
    | none => context
  let handle ← check "pthread_create()" created
  Command.modify fun w =>
    { w with
      started := (handle, context) :: w.started
      log := .acquired handle :: w.log }
  pure handle

/-
  The constructors that start a thread. A name that is
  `none` is a default-constructed `string_view`.
-/
def construct
    (context : ThreadContext)
    (name : Option Str)
    (created : Sys ThreadHandle) :
    Method World Unit := do
  Command.modify fun w =>
    { w with numThreads := w.numThreads + 1 }
  let w ← Command.get
  let name' := buildName (name.getD []) w.numThreads
  assign this ⟨some 0, name'⟩
  (do
    let handle ← createThread context name created
    assign this ⟨some handle, name'⟩).handle fun _ =>
      -- `catch (...)`: the error is not thrown again
      assign this ⟨none, name'⟩

def constructPosix
    (function : UInt64) (arg : ThreadArg)
    (name : Option Str)
    (created : Sys ThreadHandle) : Method World Unit :=
  construct this ⟨.posixEntry function, arg, []⟩ name created

def constructEntry
    (function : UInt64)
    (name : Option Str)
    (created : Sys ThreadHandle) : Method World Unit :=
  construct this ⟨.entry function, 0, []⟩ name created

def constructEmpty : Method World Unit :=
  assign this empty

/-
  `operator=(PosixThread &&)`. The handle of the source is
  read without asking whether there is one; `junk` is what
  an empty `std::optional` gives then.
-/
def moveAssign (other : ObjectId) (junk : ThreadHandle) :
    Method World Unit := do
  let t ← self this
  if t.joinable then
    Command.halt
      (.fatalError (str "moving into not-yet-joined thread"))
  else do
    let source ← self other
    assign this ⟨some (source.mPthread.getD junk),
      source.mName⟩
    assign other empty

def moveConstruct (other : ObjectId) (junk : ThreadHandle) :
    Method World Unit := do
  constructEmpty this
  moveAssign this other junk

/- `~PosixThread`. -/
def destroy : Method World Unit := do
  let t ← self this
  if t.joinable then
    Command.halt (.fatalError
      (str "Thread " ++ t.mName ++
        str " destroyed but not joined!"))
  else
    Command.modify (World.drop this)

/- `PosixThread::assertJoinConditions`. -/
def assertJoinConditions (caller : ThreadHandle) :
    Method World Unit := do
  let t ← self this
  if t.joinable = false then
    Command.raise (.usageError (str
      "Attempted to join non-joinable thread (empty or detached)"))
  else if t.mPthread = some caller then
    Command.raise (.usageError (str "Attempted to join self"))
  else
    pure ()

/- `PosixThread::reset`. -/
def reset : Method World Unit := do
  let t ← self this
  if t.joinable then do
    Command.modify fun w =>
      { w with numThreads := w.numThreads - 1 }
    assign this empty
  else
    pure ()

/- The kernel let go of the thread, so reset the object. -/
def release (way : Way) : Method World Unit := do
  let t ← self this
  Command.forEach (settle way) t.mPthread.toList
  reset this

/-
  The shape of the three joins: `failed` tells what becomes
  of an error of the system call.
-/
def joinWith {α : Type}
    (failed : Errno → Method World α)
    (done : ExitValue → α)
    (caller : ThreadHandle)
    (joined : Sys ExitValue) : Method World α := do
  assertJoinConditions this caller
  match joined with
  | .error e => failed e
  | .ok value => do
      release this .closed
      pure (done value)

def join
    (caller : ThreadHandle)
    (joined : Sys ExitValue) : Method World ExitValue :=
  joinWith this (fun e => throwApi e "pthread_join()") id
    caller joined

def tryJoin
    (caller : ThreadHandle)
    (joined : Sys ExitValue) :
    Method World (Option ExitValue) :=
  joinWith this
    (fun e =>
      if e = .busy then pure none
      else throwApi e "pthread_tryjoin_np()")
    some caller joined

def joinTimed
    (caller : ThreadHandle)
    (joined : Sys ExitValue) :
    Method World (Option ExitValue) :=
  joinWith this
    (fun e =>
      if e = .timedOut then pure none
      else throwApi e "pthread_timedjoin_np()")
    some caller joined

def detach (detached : Sys Unit) : Method World Unit := do
  let t ← self this
  if t.joinable = false then
    Command.raise (.usageError (str
      "Attempted to detach a non-joinable thread (empty or already detached)"))
  else do
    check "pthread_detach()" detached
    release this .handedOut

end Operations

------------------------------------------------------------
-- Runs
------------------------------------------------------------

/- A call together with what the kernel answers in it. -/
inductive Call where
| constructEmpty (this : ObjectId)
| constructPosix
    (this : ObjectId) (function : UInt64) (arg : ThreadArg)
    (name : Option Str) (created : Sys ThreadHandle)
| constructEntry
    (this : ObjectId) (function : UInt64)
    (name : Option Str) (created : Sys ThreadHandle)
| moveConstruct
    (this other : ObjectId) (junk : ThreadHandle)
| moveAssign (this other : ObjectId) (junk : ThreadHandle)
| join
    (this : ObjectId) (caller : ThreadHandle)
    (joined : Sys ExitValue)
| tryJoin
    (this : ObjectId) (caller : ThreadHandle)
    (joined : Sys ExitValue)
| joinTimed
    (this : ObjectId) (caller : ThreadHandle)
    (joined : Sys ExitValue)
| detach (this : ObjectId) (detached : Sys Unit)
| destroy (this : ObjectId)

namespace Call

/- Perform the call; `false` is a join that has to wait. -/
def perform : Call → Method World Bool
| .constructEmpty this => do
    PosixThread.constructEmpty this
    pure true
| .constructPosix this function arg name created => do
    PosixThread.constructPosix this function arg name created
    pure true
| .constructEntry this function name created => do
    PosixThread.constructEntry this function name created
    pure true
| .moveConstruct this other junk => do
    PosixThread.moveConstruct this other junk
    pure true
| .moveAssign this other junk => do
    PosixThread.moveAssign this other junk
    pure true
| .join this caller joined => do
    let _ ← PosixThread.join this caller joined
    pure true
| .tryJoin this caller joined => do
    let value ← PosixThread.tryJoin this caller joined
    pure value.isSome
| .joinTimed this caller joined => do
    let value ← PosixThread.joinTimed this caller joined
    pure value.isSome
| .detach this detached => do
    PosixThread.detach this detached
    pure true
| .destroy this => do
    PosixThread.destroy this
    pure true

/- Joins and detaching. -/
def isEnding : Call → Bool
| .join .. => true
| .tryJoin .. => true
| .joinTimed .. => true
| .detach .. => true
| _ => false

/- What `pthread_create()` answers, where it is called. -/
def created : Call → Option (Sys ThreadHandle)
| .constructPosix _ _ _ _ created => some created
| .constructEntry _ _ _ created => some created
| _ => none

end Call

/- The world, and whether the process was ended. -/
structure Session where
  world : World
  ended : Bool

def start : Session where
  world :=
    { objects := fun _ => none
      numThreads := 0
      started := []
      log := [] }
  ended := false

def outcome (s : Session) (call : Call) :
    Outcome Halt Exn Bool :=
  (call.perform.run s.world).1

def step (s : Session) (call : Call) : Session where
  world := (call.perform.run s.world).2
  ended :=
    match outcome s call with
    | .halted _ => true
    | _ => false

/- The handle of a running thread is not given out again. -/
def Fresh (w : World) (created : Sys ThreadHandle) : Prop :=
  ∀ handle, created = .ok handle →
    ∀ out, outstanding w.log = some out → handle ∉ out

/- Objects are constructed once and used while they live. -/
def Call.Scoped (w : World) : Call → Prop
| .constructEmpty this => w.objects this = none
| .constructPosix this _ _ _ created =>
    w.objects this = none ∧ Fresh w created
| .constructEntry this _ _ created =>
    w.objects this = none ∧ Fresh w created
| .moveConstruct this other _ =>
    w.objects this = none ∧ w.objects other ≠ none
| .moveAssign this other _ =>
    w.objects this ≠ none ∧ w.objects other ≠ none
| .join this _ _ => w.objects this ≠ none
| .tryJoin this _ _ => w.objects this ≠ none
| .joinTimed this _ _ => w.objects this ≠ none
| .detach this _ => w.objects this ≠ none
| .destroy this => w.objects this ≠ none

def machine : Machine Session Call where
  legal s call := s.ended = false ∧ call.Scoped s.world
  step := step

------------------------------------------------------------
-- Specification
------------------------------------------------------------

/- A thread was started and neither joined nor detached. -/
def Alive (w : World) (handle : ThreadHandle) : Prop :=
  ∃ out, outstanding w.log = some out ∧ handle ∈ out

/- Exactly the objects that are not joinable are nameless. -/
def Named (object : ObjectId → PosixThread) : Prop :=
  ∀ o, (object o).mName = [] ↔ (object o).joinable = false

/- There are `n` joinable objects. -/
def Counted (object : ObjectId → PosixThread) (n : Nat) :
    Prop :=
  ∃ joinables : Finset ObjectId,
    (∀ o, o ∈ joinables ↔ (object o).joinable = true) ∧
    n = joinables.card

/-
  Objects, names, the counter and the OS threads agree:
  every thread that is alive belongs to one object.
-/
structure Conserved (w : World) : Prop where
  owned : Sound w.holds w.log
  joinable_iff :
    ∀ o, (w.object o).joinable = true ↔
      ∃ handle, (w.object o).mPthread = some handle ∧
        Alive w handle ∧
        ∀ k, (w.object k).mPthread = some handle → k = o
  named : Named w.object
  counted : Counted w.object w.numThreads

/- What is claimed of one call. -/
structure Conforming
    (s : Session) (call : Call) (s' : Session) : Prop where
  conserved : Conserved s'.world
  createFails :
    ∀ e, call.created = some (.error e) →
      outcome s call =
          .raised (.apiError e (str "pthread_create()")) ∧
        s'.world.started = s.world.started
  unchanged :
    call.isEnding = true →
      outcome s call ≠ .returned true →
      s'.world = s.world

/-
  A thread cannot be created, or an empty object is moved
  to another one that is empty.
-/
def Faulty (s : Session) : Call → Prop
| .constructPosix _ _ _ _ created =>
    ∃ e, created = .error e
| .constructEntry _ _ _ created =>
    ∃ e, created = .error e
| .moveConstruct _ other _ =>
    (s.world.object other).joinable = false
| .moveAssign this other _ =>
    this ≠ other ∧
      (s.world.object this).joinable = false ∧
      (s.world.object other).joinable = false
| _ => False

------------------------------------------------------------
-- What Each Operation Does
------------------------------------------------------------

theorem buildName_ne_nil (name : Str) (nr : Nat) :
    buildName name nr ≠ [] := by
  unfold buildName
  by_cases hName : name ≠ []
  · rw [if_pos hName]
    exact hName
  · rw [if_neg hName]
    intro hNil
    have hPrefix := congrArg List.length hNil
    simp [str] at hPrefix

/- A started thread, as far as the books go. -/
theorem run_construct_ok
    (this : ObjectId) (context : ThreadContext)
    (name : Option Str) (handle : ThreadHandle)
    (w : World) :
    ∃ w' : World,
      (construct this context name (.ok handle)).run w =
        (.returned (), w') ∧
      w'.object = Function.update w.object this
        ⟨some handle,
          buildName (name.getD []) (w.numThreads + 1)⟩ ∧
      w'.numThreads = w.numThreads + 1 ∧
      w'.log = .acquired handle :: w.log := by
  refine ⟨_, rfl, ?_, rfl, rfl⟩
  rw [World.object_put]
  funext k
  by_cases hEq : k = this
  · subst hEq
    rw [Function.update_self, Function.update_self]
  · rw [Function.update_of_ne hEq, Function.update_of_ne hEq]
    exact
      congrFun (World.object_put this _ _) k |>.trans
        (Function.update_of_ne hEq _ _)

/- The error of `pthread_create()` is lost. -/
theorem run_construct_error
    (this : ObjectId) (context : ThreadContext)
    (name : Option Str) (e : Errno) (w : World) :
    ((construct this context name (.error e)).run w).1 =
      .returned () :=
  rfl

/- The world after a thread was joined or detached. -/
def ended
    (this : ObjectId) (way : Way) (handle : ThreadHandle)
    (w : World) : World :=
  World.put this empty
    { w with
      numThreads := w.numThreads - 1
      log := .settled way handle :: w.log }

theorem run_assertJoinConditions_cases
    (this : ObjectId) (caller : ThreadHandle) (w : World) :
    (∃ ex, (assertJoinConditions this caller).run w =
      (.raised ex, w)) ∨
    ((w.object this).joinable = true ∧
      (assertJoinConditions this caller).run w =
        (.returned (), w)) := by
  unfold assertJoinConditions self
  simp only [Command.run_bind, Command.run_get,
    Command.run_pure, Command.run_ite]
  by_cases hJoinable : (w.object this).joinable = false
  · left
    rw [if_pos hJoinable]
    exact ⟨_, rfl⟩
  · rw [if_neg hJoinable]
    by_cases hSelf : (w.object this).mPthread = some caller
    · left
      rw [if_pos hSelf]
      exact ⟨_, rfl⟩
    · right
      rw [if_neg hSelf]
      exact ⟨by simpa using hJoinable, rfl⟩

theorem run_release
    {this : ObjectId} {handle : ThreadHandle} {w : World}
    (way : Way)
    (hHandle : (w.object this).mPthread = some handle) :
    (release this way).run w =
      (.returned (), ended this way handle w) := by
  have hSettle :
      (Command.forEach (settle way)
          (w.object this).mPthread.toList).run w =
        (.returned (),
          { w with log := .settled way handle :: w.log }) := by
    rw [hHandle]
    rfl
  have hJoinable :
      (World.object
        { w with log := .settled way handle :: w.log }
        this).joinable = true :=
    Option.isSome_iff_exists.mpr ⟨handle, hHandle⟩
  unfold release reset self
  simp only [Command.run_bind, Command.run_get,
    Command.run_pure, hSettle, hJoinable, if_true]
  rfl

/-
  A join changes nothing, or the kernel joined the thread
  and the object is empty.
-/
theorem run_joinWith_cases
    {α : Type} (this : ObjectId)
    (failed : Errno → Method World α) (done : ExitValue → α)
    (caller : ThreadHandle) (joined : Sys ExitValue)
    (w : World)
    (hFailed : ∀ e w, ((failed e).run w).2 = w) :
    ((joinWith this failed done caller joined).run w).2 = w ∨
    ∃ handle value,
      (w.object this).mPthread = some handle ∧
      (joinWith this failed done caller joined).run w =
        (.returned (done value),
          ended this .closed handle w) := by
  unfold joinWith
  rcases run_assertJoinConditions_cases this caller w with
    ⟨ex, hRun⟩ | ⟨hJoinable, hRun⟩
  · left
    rw [Command.run_bind, hRun]
  · rw [Command.run_bind, hRun]
    cases joined with
    | error e =>
        left
        exact hFailed e w
    | ok value =>
        right
        rcases Option.isSome_iff_exists.mp hJoinable with
          ⟨handle, hHandle⟩
        refine ⟨handle, value, hHandle, ?_⟩
        simp only [Command.run_bind,
          run_release .closed hHandle]
        rfl

theorem run_detach_cases
    (this : ObjectId) (detached : Sys Unit) (w : World) :
    ((∃ ex, ((detach this detached).run w).1 = .raised ex) ∧
      ((detach this detached).run w).2 = w) ∨
    ∃ handle,
      (w.object this).mPthread = some handle ∧
      (detach this detached).run w =
        (.returned (), ended this .handedOut handle w) := by
  unfold detach self
  simp only [Command.run_bind, Command.run_get,
    Command.run_pure, Command.run_ite]
  by_cases hJoinable : (w.object this).joinable = false
  · left
    rw [if_pos hJoinable]
    exact ⟨⟨_, rfl⟩, rfl⟩
  · rw [if_neg hJoinable]
    cases detached with
    | error e =>
        left
        exact ⟨⟨_, rfl⟩, rfl⟩
    | ok =>
        right
        rcases Option.ne_none_iff_exists'.mp
          (fun hNone => hJoinable
            (congrArg Option.isSome hNone)) with
          ⟨handle, hHandle⟩
        refine ⟨handle, hHandle, ?_⟩
        simp only [run_check_ok]
        exact run_release .handedOut hHandle

/-
  Moving into an empty object takes what the source has; a
  source that has nothing gives `junk`.
-/
theorem run_moveAssign
    {this other : ObjectId} {junk : ThreadHandle} {w : World}
    (hEmpty : (w.object this).joinable = false) :
    (moveAssign this other junk).run w =
      (.returned (),
        (w.put this
          ⟨some ((w.object other).mPthread.getD junk),
            (w.object other).mName⟩).put other empty) := by
  unfold moveAssign self
  simp only [Command.run_bind, Command.run_get,
    Command.run_pure, Command.run_ite, hEmpty]
  rfl

theorem run_moveAssign_joinable
    {this other : ObjectId} {junk : ThreadHandle} {w : World}
    (hJoinable : (w.object this).joinable = true) :
    (moveAssign this other junk).run w =
      (.halted (.fatalError
        (str "moving into not-yet-joined thread")), w) := by
  unfold moveAssign self
  simp only [Command.run_bind, Command.run_get,
    Command.run_pure, Command.run_ite, hJoinable]
  rfl

------------------------------------------------------------
-- Keeping the Books
------------------------------------------------------------

theorem mem_holds_iff
    {w : World} {o : ObjectId} {handle : ThreadHandle} :
    handle ∈ w.holds o ↔
      (w.object o).mPthread = some handle := by
  unfold World.holds
  rw [Option.mem_toList]

theorem joinable_iff_exists
    {w : World} {o : ObjectId} :
    (w.object o).joinable = true ↔
      ∃ handle, (w.object o).mPthread = some handle :=
  Option.isSome_iff_exists

/- In sound books an object that is joinable owns. -/
theorem joinable_iff_of_sound
    {w : World} (hSound : Sound w.holds w.log)
    (o : ObjectId) :
    (w.object o).joinable = true ↔
      ∃ handle, (w.object o).mPthread = some handle ∧
        Alive w handle ∧
        ∀ k, (w.object k).mPthread = some handle → k = o := by
  rw [joinable_iff_exists]
  constructor
  · intro hJoinable
    rcases hJoinable with ⟨handle, hHandle⟩
    rcases hSound with ⟨out, hBooks⟩
    have hHeld := mem_holds_iff.mpr hHandle
    refine
      ⟨handle, hHandle,
        ⟨out, hBooks.replay, (hBooks.held handle).mpr
          ⟨o, hHeld⟩⟩, ?_⟩
    intro k hOther
    exact
      hBooks.single k o handle (mem_holds_iff.mpr hOther)
        hHeld
  · intro hOwns
    rcases hOwns with ⟨handle, hHandle, -⟩
    exact ⟨handle, hHandle⟩

theorem Named.update
    {object : ObjectId → PosixThread}
    (hNamed : Named object)
    (o : ObjectId) {t : PosixThread}
    (hOne : t.mName = [] ↔ t.joinable = false) :
    Named (Function.update object o t) := by
  intro k
  by_cases hEq : k = o
  · subst hEq
    rw [Function.update_self]
    exact hOne
  · rw [Function.update_of_ne hEq]
    exact hNamed k

/- One more object is joinable. -/
theorem Counted.insert
    {object : ObjectId → PosixThread} {n : Nat}
    (hCounted : Counted object n)
    {o : ObjectId} {t : PosixThread}
    (hBefore : (object o).joinable = false)
    (hAfter : t.joinable = true) :
    Counted (Function.update object o t) (n + 1) := by
  rcases hCounted with ⟨joinables, hMem, hCard⟩
  have hNot : o ∉ joinables := by
    rw [hMem, hBefore]
    exact Bool.false_ne_true
  refine ⟨Insert.insert o joinables, ?_, ?_⟩
  · intro k
    rw [Finset.mem_insert]
    by_cases hEq : k = o
    · subst hEq
      rw [Function.update_self]
      exact ⟨fun _ => hAfter, fun _ => Or.inl rfl⟩
    · rw [Function.update_of_ne hEq, hMem k]
      constructor
      · intro hOr
        exact hOr.resolve_left hEq
      · intro hJoinable
        exact Or.inr hJoinable
  · rw [hCard, Finset.card_insert_of_notMem hNot]

/- One object is no longer joinable. -/
theorem Counted.erase
    {object : ObjectId → PosixThread} {n : Nat}
    (hCounted : Counted object n)
    {o : ObjectId} {t : PosixThread}
    (hBefore : (object o).joinable = true)
    (hAfter : t.joinable = false) :
    Counted (Function.update object o t) (n - 1) := by
  rcases hCounted with ⟨joinables, hMem, hCard⟩
  refine ⟨joinables.erase o, ?_, ?_⟩
  · intro k
    rw [Finset.mem_erase]
    by_cases hEq : k = o
    · subst hEq
      rw [Function.update_self, hAfter]
      constructor
      · intro hBoth
        exact absurd rfl hBoth.1
      · intro hJoinable
        cases hJoinable
    · rw [Function.update_of_ne hEq, hMem k]
      constructor
      · intro hBoth
        exact hBoth.2
      · intro hJoinable
        exact ⟨hEq, hJoinable⟩
  · rw [hCard,
      Finset.card_erase_of_mem ((hMem o).mpr hBefore)]

/- The fields, with ownership said once. -/
theorem conserved_of
    {w : World}
    (hSound : Sound w.holds w.log)
    (hNamed : Named w.object)
    (hCounted : Counted w.object w.numThreads) :
    Conserved w where
  owned := hSound
  joinable_iff := joinable_iff_of_sound hSound
  named := hNamed
  counted := hCounted

theorem conserved_start : Conserved start.world := by
  apply conserved_of
  · exact sound_nil fun _ => rfl
  · intro o
    exact ⟨fun _ => rfl, fun _ => rfl⟩
  · refine ⟨∅, ?_, rfl⟩
    intro o
    constructor
    · intro hMem
      cases hMem
    · intro hJoinable
      cases hJoinable

/- Nothing that counts has changed. -/
theorem conserved_same
    {w w' : World} (hConserved : Conserved w)
    (hObject : w'.object = w.object)
    (hLog : w'.log = w.log)
    (hNum : w'.numThreads = w.numThreads) :
    Conserved w' := by
  have hHolds : w'.holds = w.holds := by
    funext o
    unfold World.holds
    rw [hObject]
  apply conserved_of
  · rw [hHolds, hLog]
    exact hConserved.owned
  · rw [hObject]
    exact hConserved.named
  · rw [hObject, hNum]
    exact hConserved.counted

/- An object that is not joinable is like a new one. -/
theorem Conserved.object_eq_empty
    {w : World} (hConserved : Conserved w)
    {o : ObjectId}
    (hEmpty : (w.object o).joinable = false) :
    w.object o = empty := by
  have hName := (hConserved.named o).mpr hEmpty
  have hHandle : (w.object o).mPthread = none := by
    simpa [joinable] using hEmpty
  unfold empty
  rw [← hHandle, ← hName]

theorem Conserved.update_empty
    {w : World} (hConserved : Conserved w)
    {o : ObjectId}
    (hEmpty : (w.object o).joinable = false) :
    Function.update w.object o empty = w.object := by
  rw [← hConserved.object_eq_empty hEmpty]
  exact Function.update_eq_self o w.object

/- An object that was empty owns a new thread. -/
theorem conserved_started
    {w w' : World} (hConserved : Conserved w)
    {o : ObjectId} {handle : ThreadHandle} {name : Str}
    (hEmpty : (w.object o).joinable = false)
    (hFresh : Fresh w (.ok handle))
    (hName : name ≠ [])
    (hObject :
      w'.object =
        Function.update w.object o ⟨some handle, name⟩)
    (hNum : w'.numThreads = w.numThreads + 1)
    (hLog : w'.log = .acquired handle :: w.log) :
    Conserved w' := by
  have hNobody : ∀ k, handle ∉ w.holds k := by
    intro k hHeld
    rcases hConserved.owned with ⟨out, hBooks⟩
    exact
      hFresh handle rfl out hBooks.replay
        ((hBooks.held handle).mpr ⟨k, hHeld⟩)
  have hNone : w.holds o = [] := by
    unfold World.holds
    rw [hConserved.object_eq_empty hEmpty]
    rfl
  apply conserved_of
  · rw [World.holds_of_object hObject, hLog]
    apply hConserved.owned.acquire ?_ hNobody
    rw [hNone]
    exact .refl _
  · rw [hObject]
    apply hConserved.named.update
    constructor
    · intro hNil
      exact absurd hNil hName
    · intro hNot
      cases hNot
  · rw [hObject, hNum]
    exact hConserved.counted.insert hEmpty rfl

/- The thread of an object was joined or detached. -/
theorem conserved_ended
    {w : World} (hConserved : Conserved w)
    {o : ObjectId} {handle : ThreadHandle} (way : Way)
    (hHandle : (w.object o).mPthread = some handle) :
    Conserved (ended o way handle w) := by
  have hObject :
      (ended o way handle w).object =
        Function.update w.object o empty :=
    World.object_put o empty _
  have hHolds : w.holds o = [handle] := by
    unfold World.holds
    rw [hHandle]
    rfl
  apply conserved_of
  · rw [World.holds_of_object hObject]
    apply hConserved.owned.settle way
    rw [hHolds]
    exact .refl _
  · rw [hObject]
    exact
      hConserved.named.update o
        ⟨fun _ => rfl, fun _ => rfl⟩
  · rw [hObject]
    exact
      hConserved.counted.erase
        (joinable_iff_exists.mpr ⟨handle, hHandle⟩) rfl

/- A thread changed its object. -/
theorem conserved_moved
    {w w' : World} (hConserved : Conserved w)
    {this other : ObjectId} {handle : ThreadHandle}
    (hNe : this ≠ other)
    (hEmpty : (w.object this).joinable = false)
    (hHandle : (w.object other).mPthread = some handle)
    (hObject :
      w'.object =
        Function.update
          (Function.update w.object this
            ⟨some handle, (w.object other).mName⟩)
          other empty)
    (hNum : w'.numThreads = w.numThreads)
    (hLog : w'.log = w.log) :
    Conserved w' := by
  have hJoinable : (w.object other).joinable = true :=
    joinable_iff_exists.mpr ⟨handle, hHandle⟩
  have hNone : w.holds this = [] := by
    unfold World.holds
    rw [hConserved.object_eq_empty hEmpty]
    rfl
  have hHolds :
      w'.holds =
        Function.update
          (Function.update w.holds this (w.holds other))
          other [] := by
    funext k
    unfold World.holds
    rw [hObject]
    by_cases hOther : k = other
    · subst hOther
      rw [Function.update_self, Function.update_self]
      rfl
    · rw [Function.update_of_ne hOther,
        Function.update_of_ne hOther]
      by_cases hThis : k = this
      · subst hThis
        rw [Function.update_self, Function.update_self,
          hHandle]
      · rw [Function.update_of_ne hThis,
          Function.update_of_ne hThis]
  apply conserved_of
  · rw [hHolds, hLog]
    exact hConserved.owned.transfer hNe hNone
  · rw [hObject]
    apply Named.update ?_ other ⟨fun _ => rfl, fun _ => rfl⟩
    apply hConserved.named.update
    rw [hConserved.named other, hJoinable]
    rfl
  · have hMore :
        Counted
          (Function.update w.object this
            ⟨some handle, (w.object other).mName⟩)
          (w.numThreads + 1) :=
      hConserved.counted.insert hEmpty rfl
    have hSource :
        (Function.update w.object this
          ⟨some handle, (w.object other).mName⟩
          other).joinable = true := by
      rw [Function.update_of_ne hNe.symm]
      exact hJoinable
    rw [hObject, hNum]
    exact hMore.erase hSource rfl

/-
  An object that got a handle from nowhere breaks the books.
-/
theorem not_conserved_of_junk
    {w w' : World} (hConserved : Conserved w)
    {this other : ObjectId}
    (junk : ThreadHandle) (name : Str)
    (hNe : this ≠ other)
    (hThis : (w.object this).joinable = false)
    (hOther : (w.object other).joinable = false)
    (hObject :
      w'.object =
        Function.update
          (Function.update w.object this
            ⟨some junk, name⟩)
          other empty)
    (hLog : w'.log = w.log) :
    ¬ Conserved w' := by
  intro hAfter
  have hSound := hAfter.owned
  rw [hLog] at hSound
  have hPhantom : junk ∈ w'.holds this := by
    rw [mem_holds_iff, hObject, Function.update_of_ne hNe,
      Function.update_self]
  have hNew : junk ∉ w.holds this := by
    rw [mem_holds_iff, hConserved.object_eq_empty hThis]
    intro hNone
    cases hNone
  refine
    not_sound_of_phantom hConserved.owned ?_ hNew hPhantom
      hSound
  intro k hNotThis
  unfold World.holds
  rw [hObject]
  by_cases hEq : k = other
  · subst hEq
    rw [Function.update_self,
      hConserved.object_eq_empty hOther]
  · rw [Function.update_of_ne hEq,
      Function.update_of_ne hNotThis]

------------------------------------------------------------
-- Steps
------------------------------------------------------------

/- A call followed by the report that it is done. -/
theorem run_then_true
    {α : Type} {m : Method World α} {w w' : World}
    {a : α} (hRun : m.run w = (.returned a, w')) :
    (do
      let _ ← m
      pure true : Method World Bool).run w =
      (.returned true, w') := by
  rw [Command.run_bind, hRun]
  rfl

theorem run_then_true_snd
    {α : Type} (m : Method World α) (w : World) :
    ((do
      let _ ← m
      pure true : Method World Bool).run w).2 =
      (m.run w).2 := by
  rw [Command.run_bind]
  rcases m.run w with ⟨⟨a⟩ | ⟨e⟩ | ⟨h⟩, w'⟩ <;> rfl

/- A call that neither ends a thread nor creates one. -/
theorem conforming_other
    {s : Session} {call : Call}
    (hConserved : Conserved (step s call).world)
    (hCreated : call.created = none)
    (hEnding : call.isEnding = false) :
    Conforming s call (step s call) where
  conserved := hConserved
  createFails := by
    intro e hAnswer
    rw [hCreated] at hAnswer
    cases hAnswer
  unchanged := by
    intro hEnds
    rw [hEnding] at hEnds
    cases hEnds

/- A constructor that starts a thread. -/
theorem conforming_construct
    {s : Session} {call : Call}
    (hConserved : Conserved s.world)
    {this : ObjectId} {context : ThreadContext}
    {name : Option Str} {handle : ThreadHandle}
    (hPerform :
      call.perform = (do
        construct this context name (.ok handle)
        pure true))
    (hCreated : call.created = some (.ok handle))
    (hEnding : call.isEnding = false)
    (hNew : s.world.objects this = none)
    (hFresh : Fresh s.world (.ok handle)) :
    Conforming s call (step s call) := by
  have hEmpty : (s.world.object this).joinable = false := by
    unfold World.object
    rw [hNew]
    rfl
  rcases run_construct_ok this context name handle s.world
    with ⟨w', hRun, hObject, hNum, hLog⟩
  have hWorld : (step s call).world = w' := by
    have hCall : call.perform.run s.world =
        (.returned true, w') := by
      rw [hPerform]
      exact run_then_true hRun
    unfold step
    rw [hCall]
  refine
    { conserved := ?_
      createFails := ?_
      unchanged := ?_ }
  · rw [hWorld]
    exact
      conserved_started hConserved hEmpty hFresh
        (buildName_ne_nil _ _) hObject hNum hLog
  · intro e hAnswer
    rw [hCreated] at hAnswer
    cases hAnswer
  · intro hEnds
    rw [hEnding] at hEnds
    cases hEnds

/- A constructor whose thread cannot be created returns. -/
theorem not_conforming_construct
    {s s' : Session} {call : Call}
    {this : ObjectId} {context : ThreadContext}
    {name : Option Str} {e : Errno}
    (hPerform :
      call.perform = (do
        construct this context name (.error e)
        pure true))
    (hCreated : call.created = some (.error e)) :
    ¬ Conforming s call s' := by
  intro hConforming
  have hRaised := (hConforming.createFails e hCreated).1
  unfold outcome at hRaised
  rw [hPerform] at hRaised
  cases hRaised

/-
  A join or a detach that left everything alone, or ended
  the thread of its object.
-/
theorem conforming_ending
    {s : Session} {call : Call}
    (hConserved : Conserved s.world)
    (hCreated : call.created = none)
    (hCases :
      (call.perform.run s.world).2 = s.world ∨
      ∃ this way handle,
        (s.world.object this).mPthread = some handle ∧
        call.perform.run s.world =
          (.returned true, ended this way handle s.world)) :
    Conforming s call (step s call) := by
  have hCreateFails :
      ∀ e, call.created = some (.error e) → False := by
    intro e hAnswer
    rw [hCreated] at hAnswer
    cases hAnswer
  rcases hCases with hSame |
    ⟨this, way, handle, hHandle, hRun⟩
  · exact
      { conserved := by
          have hWorld : (step s call).world = s.world := hSame
          rw [hWorld]
          exact hConserved
        createFails := fun e hAnswer =>
          (hCreateFails e hAnswer).elim
        unchanged := fun _ _ => hSame }
  · exact
      { conserved := by
          have hWorld :
              (step s call).world =
                ended this way handle s.world :=
            congrArg Prod.snd hRun
          rw [hWorld]
          exact conserved_ended hConserved way hHandle
        createFails := fun e hAnswer =>
          (hCreateFails e hAnswer).elim
        unchanged := fun _ hNot =>
          absurd (congrArg Prod.fst hRun) hNot }

/- The joins that may have to wait. -/
theorem run_waiting_cases
    {this : ObjectId} {notYet : Errno} {msg : String}
    (caller : ThreadHandle) (joined : Sys ExitValue)
    (w : World)
    {m : Method World (Option ExitValue)}
    (hJoin :
      m = joinWith this
        (fun e =>
          if e = notYet then pure none else throwApi e msg)
        some caller joined) :
    ((do
      let value ← m
      pure value.isSome : Method World Bool).run w).2 = w ∨
    ∃ this way handle,
      (w.object this).mPthread = some handle ∧
      (do
        let value ← m
        pure value.isSome : Method World Bool).run w =
        (.returned true, ended this way handle w) := by
  have hFailed :
      ∀ (e : Errno) (w : World),
        ((if e = notYet then pure none
            else throwApi e msg :
          Method World (Option ExitValue)).run w).2 = w := by
    intro e w
    rw [Command.run_ite]
    split <;> rfl
  rw [hJoin]
  rcases run_joinWith_cases this _ some caller joined w
      hFailed with
    hSame | ⟨handle, value, hHandle, hRun⟩
  · left
    rw [Command.run_bind]
    revert hSame
    rcases (joinWith this
      (fun e =>
        if e = notYet then pure none else throwApi e msg)
      some caller joined).run w with ⟨⟨a⟩ | ⟨e⟩ | ⟨h⟩, w'⟩
      <;> intro hSame <;> exact hSame
  · right
    refine ⟨this, .closed, handle, hHandle, ?_⟩
    rw [Command.run_bind, hRun]
    rfl

/- Moving, where the source has a thread or is the target. -/
theorem conserved_moveAssign
    {w : World} (hConserved : Conserved w)
    {this other : ObjectId} (junk : ThreadHandle)
    (hSource :
      this = other ∨
        (w.object this).joinable = true ∨
        (w.object other).joinable = true) :
    Conserved ((moveAssign this other junk).run w).2 := by
  by_cases hJoinable : (w.object this).joinable = true
  · rw [run_moveAssign_joinable hJoinable]
    exact hConserved
  · have hEmpty : (w.object this).joinable = false := by
      simpa using hJoinable
    rw [run_moveAssign hEmpty]
    by_cases hSelf : this = other
    · subst hSelf
      refine conserved_same hConserved ?_ rfl rfl
      rw [World.object_put, World.object_put,
        Function.update_idem]
      exact hConserved.update_empty hEmpty
    · have hOther : (w.object other).joinable = true := by
        rcases hSource with hEq | hThis | hOther
        · exact absurd hEq hSelf
        · exact absurd hThis hJoinable
        · exact hOther
      rcases joinable_iff_exists.mp hOther with
        ⟨handle, hHandle⟩
      refine
        conserved_moved hConserved hSelf hEmpty hHandle ?_
          rfl rfl
      rw [World.object_put, World.object_put, hHandle]
      rfl

/- A new object changes nothing that counts. -/
theorem conserved_put_empty
    {w : World} (hConserved : Conserved w)
    {this : ObjectId} (hNew : w.objects this = none) :
    Conserved (w.put this empty) := by
  have hEmpty : (w.object this).joinable = false := by
    unfold World.object
    rw [hNew]
    rfl
  refine conserved_same hConserved ?_ rfl rfl
  rw [World.object_put]
  exact hConserved.update_empty hEmpty

/- A new object that takes over a thread. -/
theorem conserved_moveConstruct
    {w : World} (hConserved : Conserved w)
    {this other : ObjectId}
    (hNew : w.objects this = none)
    (hLive : w.objects other ≠ none)
    (hOther : (w.object other).joinable = true)
    (junk : ThreadHandle) :
    Conserved
      ((moveAssign this other junk).run
        (w.put this empty)).2 := by
  have hNe : this ≠ other := by
    rintro rfl
    exact hLive hNew
  apply
    conserved_moveAssign
      (conserved_put_empty hConserved hNew)
  right; right
  rw [World.object_put, Function.update_of_ne hNe.symm]
  exact hOther

theorem conserved_destroy
    {w : World} (hConserved : Conserved w)
    (this : ObjectId) :
    Conserved ((destroy this).run w).2 := by
  unfold destroy self
  simp only [Command.run_bind, Command.run_get,
    Command.run_pure, Command.run_ite]
  by_cases hJoinable : (w.object this).joinable = true
  · rw [if_pos hJoinable]
    exact hConserved
  · have hEmpty : (w.object this).joinable = false := by
      simpa using hJoinable
    rw [if_neg hJoinable]
    refine conserved_same hConserved ?_ rfl rfl
    exact
      (World.object_drop this w).trans
        (hConserved.update_empty hEmpty)

/- What every call does that is not faulty. -/
theorem conforming_of_not_faulty
    {s : Session} {call : Call}
    (hConserved : Conserved s.world)
    (hLegal : machine.legal s call)
    (hFine : ¬ Faulty s call) :
    Conforming s call (step s call) := by
  have hScoped : call.Scoped s.world := hLegal.2
  cases call with
  | constructEmpty this =>
      exact
        conforming_other
          (conserved_put_empty hConserved hScoped) rfl rfl
  | constructPosix this function arg name created =>
      cases created with
      | error e => exact absurd ⟨e, rfl⟩ hFine
      | ok handle =>
          exact
            conforming_construct hConserved rfl rfl rfl
              hScoped.1 hScoped.2
  | constructEntry this function name created =>
      cases created with
      | error e => exact absurd ⟨e, rfl⟩ hFine
      | ok handle =>
          exact
            conforming_construct hConserved rfl rfl rfl
              hScoped.1 hScoped.2
  | moveConstruct this other junk =>
      apply conforming_other ?_ rfl rfl
      have hOther :
          (s.world.object other).joinable = true := by
        simpa [Faulty] using hFine
      have hWorld :
          (step s (.moveConstruct this other junk)).world =
            ((moveAssign this other junk).run
              (s.world.put this empty)).2 :=
        run_then_true_snd _ _
      rw [hWorld]
      exact
        conserved_moveConstruct hConserved hScoped.1
          hScoped.2 hOther junk
  | moveAssign this other junk =>
      apply conforming_other ?_ rfl rfl
      have hWorld :
          (step s (.moveAssign this other junk)).world =
            ((moveAssign this other junk).run s.world).2 :=
        run_then_true_snd _ _
      rw [hWorld]
      apply conserved_moveAssign hConserved
      by_contra hNone
      simp only [not_or, Bool.not_eq_true] at hNone
      exact hFine hNone
  | join this caller joined =>
      apply conforming_ending hConserved rfl
      rcases run_joinWith_cases this
          (fun e => throwApi e "pthread_join()") id caller
          joined s.world (fun e w => rfl) with
        hSame | ⟨handle, value, hHandle, hRun⟩
      · left
        exact (run_then_true_snd _ _).trans hSame
      · right
        exact
          ⟨this, .closed, handle, hHandle,
            run_then_true hRun⟩
  | tryJoin this caller joined =>
      apply conforming_ending hConserved rfl
      exact run_waiting_cases caller joined s.world rfl
  | joinTimed this caller joined =>
      apply conforming_ending hConserved rfl
      exact run_waiting_cases caller joined s.world rfl
  | detach this detached =>
      apply conforming_ending hConserved rfl
      rcases run_detach_cases this detached s.world with
        ⟨-, hSame⟩ | ⟨handle, hHandle, hRun⟩
      · left
        exact (run_then_true_snd _ _).trans hSame
      · right
        exact
          ⟨this, .handedOut, handle, hHandle,
            run_then_true hRun⟩
  | destroy this =>
      apply conforming_other ?_ rfl rfl
      have hWorld :
          (step s (.destroy this)).world =
            ((destroy this).run s.world).2 :=
        run_then_true_snd _ _
      rw [hWorld]
      exact conserved_destroy hConserved this

/- Moving from an empty object makes up a thread. -/
theorem not_conserved_moveAssign
    {w w' : World} (hConserved : Conserved w')
    {this other : ObjectId} (junk : ThreadHandle)
    (hObject : w.object = w'.object)
    (hLog : w.log = w'.log)
    (hNe : this ≠ other)
    (hThis : (w.object this).joinable = false)
    (hOther : (w.object other).joinable = false) :
    ¬ Conserved ((moveAssign this other junk).run w).2 := by
  rw [run_moveAssign hThis]
  rw [hObject] at hThis hOther
  have hNone : (w.object other).mPthread = none := by
    rw [hObject, hConserved.object_eq_empty hOther]
    rfl
  refine
    not_conserved_of_junk hConserved junk
      (w.object other).mName hNe hThis hOther ?_ hLog
  rw [World.object_put, World.object_put, hNone, hObject]
  rfl

theorem not_conforming_of_faulty
    {s : Session} {call : Call}
    (hConserved : Conserved s.world)
    (hLegal : machine.legal s call)
    (hFaulty : Faulty s call) :
    ¬ Conforming s call (step s call) := by
  have hScoped : call.Scoped s.world := hLegal.2
  cases call with
  | constructPosix this function arg name created =>
      rcases hFaulty with ⟨e, hError⟩
      subst hError
      exact not_conforming_construct rfl rfl
  | constructEntry this function name created =>
      rcases hFaulty with ⟨e, hError⟩
      subst hError
      exact not_conforming_construct rfl rfl
  | moveConstruct this other junk =>
      intro hConforming
      have hNe : this ≠ other := by
        intro hEq
        exact hScoped.2 (hEq ▸ hScoped.1)
      have hEmpty :
          (s.world.object this).joinable = false := by
        unfold World.object
        rw [hScoped.1]
        rfl
      have hSame :
          (s.world.put this empty).object =
            s.world.object := by
        rw [World.object_put]
        exact hConserved.update_empty hEmpty
      have hWorld :
          (step s (.moveConstruct this other junk)).world =
            ((moveAssign this other junk).run
              (s.world.put this empty)).2 :=
        run_then_true_snd _ _
      have hAfter := hConforming.conserved
      rw [hWorld] at hAfter
      refine
        not_conserved_moveAssign hConserved junk hSame rfl hNe
          ?_ ?_ hAfter
      · rw [hSame]
        exact hEmpty
      · rw [hSame]
        exact hFaulty
  | moveAssign this other junk =>
      intro hConforming
      have hWorld :
          (step s (.moveAssign this other junk)).world =
            ((moveAssign this other junk).run s.world).2 :=
        run_then_true_snd _ _
      have hAfter := hConforming.conserved
      rw [hWorld] at hAfter
      exact
        not_conserved_moveAssign hConserved junk rfl rfl
          hFaulty.1 hFaulty.2.1 hFaulty.2.2 hAfter
  | constructEmpty => exact hFaulty.elim
  | join => exact hFaulty.elim
  | tryJoin => exact hFaulty.elim
  | joinTimed => exact hFaulty.elim
  | detach => exact hFaulty.elim
  | destroy => exact hFaulty.elim

------------------------------------------------------------
-- Whole Runs
------------------------------------------------------------

/-
  Objects, names, counter and threads agree along exactly
  the runs in which every thread can be created and no
  empty object is moved to another empty one.
-/
theorem threads_conserved_along_iff
    (calls : List Call)
    (hLegal : machine.Legal start calls) :
    machine.Along Conforming start calls ↔
      machine.Along (fun s call _ => ¬ Faulty s call)
        start calls := by
  apply Machine.along_iff_of_invariant
    (fun s : Session => Conserved s.world) ?_ ?_ calls start
    conserved_start hLegal
  · intro s call hConserved hCall hFine
    have hConforming :=
      conforming_of_not_faulty hConserved hCall hFine
    exact ⟨hConforming.conserved, hConforming⟩
  · intro s call hConserved hCall hFaulty
    exact
      not_conforming_of_faulty hConserved hCall
        (Classical.not_not.mp hFaulty)

/- A thread that is started, moved and joined. -/
theorem conserved_along_joined :
    machine.Along Conforming start
      [.constructEntry 0 1 none (.ok 7),
        .moveConstruct 1 0 0, .tryJoin 1 9 (.error .busy),
        .join 1 9 (.ok 0)] := by
  refine
    (threads_conserved_along_iff
      [.constructEntry 0 1 none (.ok 7),
        .moveConstruct 1 0 0, .tryJoin 1 9 (.error .busy),
        .join 1 9 (.ok 0)] ?_).mpr ?_
  · refine
      ⟨⟨rfl, rfl, ?_⟩, ⟨rfl, rfl, ?_⟩, ⟨rfl, ?_⟩, ⟨rfl, ?_⟩,
        trivial⟩
    · intro handle _ out hOut
      have hNone : (∅ : Finset ThreadHandle) = out :=
        Option.some.inj hOut
      rw [← hNone]
      exact Finset.notMem_empty handle
    · exact Option.some_ne_none _
    · exact Option.some_ne_none _
    · exact Option.some_ne_none _
  · refine ⟨?_, ?_, id, id, trivial⟩
    · intro hFaulty
      rcases hFaulty with ⟨e, hError⟩
      cases hError
    · intro hFaulty
      cases hFaulty

/-
  `pthread_create()` fails with EAGAIN: the constructor
  returns, and the empty object has a name and is counted.
-/
theorem construct_swallows_error :
    machine.Legal start
        [.constructEntry 0 1 none (.error .again)] ∧
      outcome start
          (.constructEntry 0 1 none (.error .again)) =
        .returned true ∧
      ((machine.run start
        [.constructEntry 0 1 none
          (.error .again)]).world.object 0).joinable =
        false ∧
      ((machine.run start
        [.constructEntry 0 1 none
          (.error .again)]).world.object 0).mName =
        str "thread<1>" ∧
      (machine.run start
        [.constructEntry 0 1 none
          (.error .again)]).world.numThreads = 1 ∧
      ¬ machine.Along Conforming start
        [.constructEntry 0 1 none (.error .again)] := by
  refine
    ⟨⟨⟨rfl, rfl, ?_⟩, trivial⟩, rfl, rfl, by decide, rfl, ?_⟩
  · intro handle hAnswer
    cases hAnswer
  · intro hAlong
    exact not_conforming_construct rfl rfl hAlong.1

end PosixThread

end Cosmos
