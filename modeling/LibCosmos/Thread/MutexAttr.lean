import LibCosmos.Core.InitFailure
import LibCosmos.IO.Color

/-
  The attribute object that all mutexes are made with
  (`src/thread/Mutex.cxx`), over the initialization of the
  library with all of its objects (`src/cosmos.cxx`,
  `src/io/colors.cxx`).

  `debug` is `DEBUG_MUTEX`. `init()` of the library can fail
  in the attribute's object, which comes first, and in the
  check of the standard streams, which comes last. The
  detection of Valgrind in between cannot fail.

  Main declarations:
    * `MutexAttr.World`, `MutexAttr.initables`
    * `MutexAttr.construct`, `MutexAttr.machine`
    * `MutexAttr.Proper`, `MutexAttr.Kept`
    * `MutexAttr.Fit`
    * `MutexAttr.lifetime_along_iff`
-/

namespace Cosmos

namespace MutexAttr

open Library (Event)

------------------------------------------------------------
-- Calls of the pthread Library
------------------------------------------------------------

/-
  A `pthread_mutexattr_t`: memory of any content, or what
  `pthread_mutexattr_init()` has left, or this with a type.
-/
inductive Attr where
| raw
| initialized
| ready
deriving DecidableEq, Repr

/- Calls with the state of their argument and the result. -/
inductive PthreadCall where
| mutexattrInit (res : Int32)
| mutexattrSettype (on : Attr) (res : Int32)
| mutexattrDestroy (on : Attr) (res : Int32)
| mutexInit (attr : Option Attr) (res : Int32)
deriving DecidableEq, Repr

/-
  `m_attr` and the calls so far, newest first, and what is
  known of the standard streams.
-/
structure World where
  attr : Attr
  calls : List PthreadCall
  detection : Color.Detection
deriving DecidableEq, Repr

namespace World

/- What is not initialized successfully is of no use. -/
def mutexattrInit (res : Int32) (w : World) : World :=
  { w with
    attr := if res = 0 then .initialized else .raw
    calls := .mutexattrInit res :: w.calls }

def mutexattrSettype (res : Int32) (w : World) : World :=
  { w with
    attr :=
      if w.attr ≠ .raw ∧ res = 0 then .ready else w.attr
    calls := .mutexattrSettype w.attr res :: w.calls }

def mutexattrDestroy (res : Int32) (w : World) : World :=
  { w with
    attr := .raw
    calls := .mutexattrDestroy w.attr res :: w.calls }

def mutexInit
    (attr : Option Attr) (res : Int32) (w : World) : World :=
  { w with calls := .mutexInit attr res :: w.calls }

def detected (d : Color.Detection) (w : World) : World :=
  { w with detection := d }

end World

/-
  The results of the functions in a call of the library, and
  the environment of the process.
-/
structure Codes where
  mutexattrInit : Int32
  mutexattrSettype : Int32
  mutexattrDestroy : Int32
  getEnvVar : Str → Option Str
  isattyOutput : Sys Unit
  isattyError : Sys Unit

------------------------------------------------------------
-- The Code
------------------------------------------------------------

/- The priorities, and with them the objects. -/
inductive InitPrio where
| mutexAttr
| runningOnValgrind
| checkStdioTtys
deriving DecidableEq, Repr

/- An exception object that nobody throws. -/
def unthrown {σ : Type} (_ : Exn) :
    Command σ Empty Exn Unit :=
  pure ()

/- `ApiError("pthread_mutexattr_init()", err)`. -/
def dropError (res : Int32) : Command World Empty Exn Unit :=
  if res ≠ 0 then
    unthrown
      (.apiError ⟨res⟩ (str "pthread_mutexattr_init()"))
  else pure ()

/- `throw ApiError{label, err}`. -/
def throwApiError {σ : Type} (res : Int32) (label : String) :
    Command σ Empty Exn Unit :=
  if res ≠ 0 then .raise (.apiError ⟨res⟩ (str label))
  else pure ()

variable (debug : Bool)

/- `MutexAttr::libInit`. -/
def libInit (codes : Codes) : Command World Empty Exn Unit :=
  if ¬ debug then pure ()
  else do
    .modify (World.mutexattrInit codes.mutexattrInit)
    dropError codes.mutexattrInit
    .modify (World.mutexattrSettype codes.mutexattrSettype)
    throwApiError codes.mutexattrSettype
      "pthread_mutexattr_settype()"

/- `MutexAttr::libExit`. -/
def libExit (codes : Codes) : Command World Empty Exn Unit :=
  if ¬ debug then pure ()
  else .modify (World.mutexattrDestroy codes.mutexattrDestroy)

/- `CheckStdioTTYsInit::libInit`. -/
def checkStdioTtys (codes : Codes) :
    Command World Empty Exn Unit :=
  (Color.refreshTTYDetection codes.getEnvVar
    codes.isattyOutput codes.isattyError).focus
    World.detection World.detected

/- All objects of the library. -/
def initables : Initables Codes World InitPrio where
  libInit codes o :=
    match o with
    | .mutexAttr => libInit debug codes
    | .runningOnValgrind => pure ()
    | .checkStdioTtys => checkStdioTtys codes
  libExit codes o :=
    match o with
    | .mutexAttr => libExit debug codes
    | .runningOnValgrind => pure ()
    | .checkStdioTtys => pure ()

def registry : Registry InitPrio InitPrio where
  initData :=
    some
      [(.mutexAttr, .mutexAttr),
        (.runningOnValgrind, .runningOnValgrind),
        (.checkStdioTtys, .checkStdioTtys)]
  nodup := by decide

abbrev State : Type :=
  Initables.State InitPrio World InitPrio

abbrev Code (α : Type) : Type :=
  Initables.Code InitPrio World InitPrio α

/- A process before its first call. -/
def start : State :=
  Initables.start registry
    { attr := .raw, calls := [], detection := ⟨false, false⟩ }

/- The check in `MutexAttr::getAttr`. -/
def checkInitialized : Code Unit := do
  let s ← .get
  if s.lib.libInitialized .mutexAttr then pure ()
  else
    unthrown
      (.usageError (str "libcosmos was not initialized"))

/- `MutexAttr::getAttr`. A null pointer has no state. -/
def getAttr : Code (Option Attr) := do
  checkInitialized
  let s ← .get
  pure (if debug then some s.world.attr else none)

/- The constructor of `Mutex`. -/
def construct (res : Int32) : Code Unit := do
  let attr ← getAttr debug
  .modify fun s => s.setWorld (s.world.mutexInit attr res)
  throwApiError res "pthread_mutex_init()"

inductive Op where
| init (codes : Codes)
| finish (codes : Codes)
| construct (res : Int32)

def perform : Op → Code Unit
| .init codes => (initables debug).init codes
| .finish codes => (initables debug).finish codes
| .construct res => construct debug res

/- A process that goes on after an exception. -/
def machine : Machine State Op where
  legal _ _ := True
  step s op := ((perform debug op).run s).2

------------------------------------------------------------
-- What the Attribute Is For
------------------------------------------------------------

/- What is used is initialized, for a mutex with the type. -/
def Proper : PthreadCall → Prop
| .mutexattrInit _ => True
| .mutexattrSettype on _ => on ≠ .raw
| .mutexattrDestroy on _ => on ≠ .raw
| .mutexInit none _ => True
| .mutexInit (some attr) _ => attr = .ready

/-
  The last that happened to the object is a `libInit` that
  succeeded.
-/
def Up
    (log : List (Event InitPrio)) (o : InitPrio) : Prop :=
  (log.filter fun event => event.object = o).getLast? =
    some (.libInit o)

instance (log : List (Event InitPrio)) (o : InitPrio) :
    Decidable (Up log o) :=
  inferInstanceAs
    (Decidable
      ((log.filter fun event => event.object = o).getLast? =
        some (.libInit o)))

/- The library is initialized when all of its objects are. -/
def Initialized (log : List (Event InitPrio)) : Prop :=
  ∀ o, Up log o

structure Kept (s : State) (op : Op) (s' : State) :
    Prop where
  proper : ∀ c ∈ s'.world.calls, Proper c
  refused :
    ∀ res, op = .construct res → ¬ Initialized s.lib.log →
      (perform debug op).run s =
        (.raised
          (.usageError (str "libcosmos was not initialized")),
          s)
  reported :
    ∀ codes, op = .init codes → debug →
      s.lib.initCounter = 0 →
      codes.mutexattrInit ≠ 0 ∨ codes.mutexattrSettype ≠ 0 →
      ∃ exn, ((perform debug op).run s).1 = .raised exn

/- The newest call on the life of the attribute began it. -/
def Begun : List PthreadCall → Prop
| [] => False
| .mutexattrInit _ :: _ => True
| .mutexattrDestroy _ _ :: _ => False
| .mutexattrSettype _ _ :: calls => Begun calls
| .mutexInit _ _ :: calls => Begun calls

/- The newest setting of the type succeeded. -/
def TypeSet : List PthreadCall → Prop
| [] => False
| .mutexattrSettype _ res :: _ => res = 0
| .mutexattrInit _ :: calls => TypeSet calls
| .mutexattrDestroy _ _ :: calls => TypeSet calls
| .mutexInit _ _ :: calls => TypeSet calls

/-
  The operations that keep the promises. A counter that
  wraps can end the attribute twice, or set it up again
  under the mutexes.
-/
def Fit (s : State) : Op → Prop
| .init codes =>
    debug → s.lib.initCounter = 0 → codes.mutexattrInit = 0
| .finish _ =>
    debug → s.lib.initCounter = 1 → Begun s.world.calls
| .construct _ =>
    Initialized s.lib.log ∧
      (debug → TypeSet s.world.calls)

------------------------------------------------------------
-- The Life of the Attribute
------------------------------------------------------------

/- The calls of `libInit` and `libExit`. -/
def World.setUp (codes : Codes) (w : World) : World :=
  (w.mutexattrInit codes.mutexattrInit).mutexattrSettype
    codes.mutexattrSettype

/- What the calls so far have made of the attribute. -/
structure Sound
    (log : List (Event InitPrio)) (w : World) : Prop where
  proper : ∀ c ∈ w.calls, Proper c
  raw : debug → (w.attr = .raw ↔ ¬ Begun w.calls)
  ready :
    debug →
      (w.attr = .ready ↔ Begun w.calls ∧ TypeSet w.calls)
  begun : debug → Initialized log → Begun w.calls

variable {debug} {log log' : List (Event InitPrio)}
  {w : World} {codes : Codes}

/- Without `DEBUG_MUTEX` there is no attribute. -/
theorem Sound.of_not_debug
    (hSound : Sound false log w) : Sound false log' w :=
  { proper := hSound.proper
    raw := by simp
    ready := by simp
    begun := by simp }

theorem Sound.setUp
    (hSound : Sound true log w)
    (hInit : codes.mutexattrInit = 0) :
    Sound true log' (w.setUp codes) := by
  have hAttr : (w.setUp codes).attr =
      if codes.mutexattrSettype = 0 then .ready
      else .initialized := by
    simp [World.setUp, World.mutexattrInit,
      World.mutexattrSettype, hInit]
  have hCalls : (w.setUp codes).calls =
      .mutexattrSettype .initialized codes.mutexattrSettype ::
        .mutexattrInit codes.mutexattrInit :: w.calls := by
    simp [World.setUp, World.mutexattrInit,
      World.mutexattrSettype, hInit]
  have hBegun : Begun (w.setUp codes).calls := by
    rw [hCalls]
    trivial
  refine
    { proper := ?_
      raw := fun _ => ?_
      ready := fun _ => ?_
      begun := fun _ _ => hBegun }
  · rw [hCalls]
    intro c hMem
    rcases List.mem_cons.mp hMem with rfl | hMem
    · exact Attr.noConfusion
    rcases List.mem_cons.mp hMem with rfl | hMem
    · trivial
    · exact hSound.proper c hMem
  · rw [hAttr]
    refine iff_of_false ?_ (not_not.mpr hBegun)
    split <;> exact Attr.noConfusion
  · have hSet : TypeSet (w.setUp codes).calls ↔
        codes.mutexattrSettype = 0 := by
      rw [hCalls]
      exact Iff.rfl
    rw [hAttr, hSet]
    by_cases hZero : codes.mutexattrSettype = 0
    · simp [hZero, hBegun]
    · simp [hZero]

theorem Sound.mutexattrDestroy
    {res : Int32}
    (hSound : Sound true log w)
    (hBegun : Begun w.calls)
    (hEnded : ¬ Initialized log') :
    Sound true log' (w.mutexattrDestroy res) :=
  { proper := by
      intro c hMem
      rcases List.mem_cons.mp hMem with rfl | hMem
      · exact fun hRaw => (hSound.raw rfl).mp hRaw hBegun
      · exact hSound.proper c hMem
    raw := fun _ => iff_of_true rfl id
    ready := fun _ =>
      iff_of_false Attr.noConfusion fun hNew => hNew.1
    begun := fun _ hNot => absurd hNot hEnded }

/- A mutex leaves the attribute as it is. -/
theorem Sound.mutexInit
    {attr : Option Attr} {res : Int32}
    (hSound : Sound debug log w)
    (hProper : Proper (.mutexInit attr res)) :
    Sound debug log (w.mutexInit attr res) :=
  { proper := by
      intro c hMem
      rcases List.mem_cons.mp hMem with rfl | hMem
      · exact hProper
      · exact hSound.proper c hMem
    raw := hSound.raw
    ready := hSound.ready
    begun := hSound.begun }

------------------------------------------------------------
-- Single Operations
------------------------------------------------------------

/- What `libInit` and `libExit` do to the attribute. -/
def started (debug : Bool) (codes : Codes) (w : World) :
    World :=
  if debug then w.setUp codes else w

def stopped (debug : Bool) (codes : Codes) (w : World) :
    World :=
  if debug then w.mutexattrDestroy codes.mutexattrDestroy
  else w

theorem run_libInit
    (debug : Bool) (codes : Codes) (w : World) :
    (libInit debug codes).run w =
      (if debug ∧ codes.mutexattrSettype ≠ 0 then
        .raised
          (.apiError ⟨codes.mutexattrSettype⟩
            (str "pthread_mutexattr_settype()"))
      else .returned (),
      started debug codes w) := by
  have hDrop : ∀ res w,
      (dropError res).run w = (.returned (), w) := by
    intro res w
    unfold dropError
    split <;> rfl
  cases debug with
  | false => rfl
  | true =>
      unfold libInit
      rw [if_neg (by simp), Command.run_bind,
        Command.run_modify]
      simp only
      rw [Command.run_bind, hDrop]
      simp only
      rw [Command.run_bind, Command.run_modify]
      simp only
      unfold throwApiError
      by_cases hZero : codes.mutexattrSettype = 0
      · simp [hZero, started, World.setUp]
      · simp [hZero, started, World.setUp]

/- What `registry` has, as a list. -/
def entries : List (InitPrio × InitPrio) :=
  registry.initData.getD []

/- The set-up of the attribute succeeds. -/
def Works (debug : Bool) (codes : Codes) : Prop :=
  debug → codes.mutexattrSettype = 0

/- The attribute's object comes first. -/
theorem run_focus_libInit
    (debug : Bool) (codes : Codes) (s : State) :
    (((initables debug).libInit codes .mutexAttr).focus
        Initables.State.world
        Initables.State.setWorld).run s =
      (((libInit debug codes).run s.world).1,
        s.setWorld (started debug codes s.world)) := by
  have hRun := run_libInit debug codes s.world
  rw [Command.run_focus]
  exact congrArg
    (fun r => (((libInit debug codes).run s.world).1,
      s.setWorld r)) (congrArg Prod.snd hRun)

/- The check of the standard streams returns or throws. -/
theorem run_focus_checkStdioTtys
    (debug : Bool) (codes : Codes) (s : State) :
    ∃ outcome d,
      (((initables debug).libInit codes .checkStdioTtys).focus
          Initables.State.world
          Initables.State.setWorld).run s =
        (outcome, s.setWorld (s.world.detected d)) ∧
      (outcome = .returned () ∨
        ∃ exn, outcome = .raised exn) := by
  refine ⟨_, _, rfl, ?_⟩
  generalize (Command.run _ _).1 = outcome
  cases outcome with
  | halted h => exact h.elim
  | returned _ => exact Or.inl rfl
  | raised exn => exact Or.inr ⟨exn, rfl⟩

/-
  What a first round leaves: the objects in `passed` are
  initialized, and the attribute is as its `libInit` left it.
-/
structure Round
    (debug : Bool) (codes : Codes) (s : State)
    (passed : List (InitPrio × InitPrio)) (s' : State) :
    Prop where
  lib : s'.lib = Library.initObjects passed s.lib
  attr : s'.world.attr = (started debug codes s.world).attr
  calls :
    s'.world.calls = (started debug codes s.world).calls

/- The attribute's object fails before all others. -/
theorem run_initLoop_of_not_works
    (hFails : ¬ Works debug codes) (s : State) :
    ∃ exn s',
      ((initables debug).initLoop codes entries).run s =
          (.raised exn, s') ∧
        Round debug codes s [] s' := by
  have hBad : debug ∧ codes.mutexattrSettype ≠ 0 :=
    Classical.not_imp.mp hFails
  have hFirst := run_focus_libInit debug codes s
  rw [run_libInit, if_pos hBad] at hFirst
  exact
    ⟨_, _, Command.run_bind_raised hFirst _,
      { lib := rfl, attr := rfl, calls := rfl }⟩

/- With the check of the streams the round works or fails. -/
theorem run_initLoop_of_works
    (hWorks : Works debug codes) (s : State) :
    (∃ s',
      ((initables debug).initLoop codes entries).run s =
          (.returned (), s') ∧
        Round debug codes s entries s') ∨
      ∃ exn s',
        ((initables debug).initLoop codes entries).run s =
            (.raised exn, s') ∧
          Round debug codes s (entries.take 2) s' := by
  have hFine :
      ¬ (debug ∧ codes.mutexattrSettype ≠ 0) :=
    fun hFails => hFails.2 (hWorks hFails.1)
  have hFirst := run_focus_libInit debug codes s
  rw [run_libInit, if_neg hFine] at hFirst
  let s₂ : State :=
    { s with
      lib := Library.initObjects (entries.take 2) s.lib
      world := started debug codes s.world }
  have hTwo :
      ((initables debug).initLoop codes entries).run s =
        ((initables debug).initLoop codes
          (entries.drop 2)).run s₂ := by
    unfold entries registry
    rw [Option.getD_some, Initables.initLoop,
      Command.run_bind_returned hFirst]
    rfl
  rcases run_focus_checkStdioTtys debug codes s₂ with
    ⟨outcome, d, hCheck, rfl | ⟨exn, rfl⟩⟩
  · left
    have hEnd :
        ((initables debug).initLoop codes
            (entries.drop 2)).run s₂ =
          (.returned (),
            (s₂.setWorld (s₂.world.detected d)).initialized
              .checkStdioTtys) :=
      Command.run_bind_returned hCheck _
    exact
      ⟨_, hTwo.trans hEnd,
        { lib := rfl, attr := rfl, calls := rfl }⟩
  · right
    exact
      ⟨exn, _, hTwo.trans (Command.run_bind_raised hCheck _),
        { lib := rfl, attr := rfl, calls := rfl }⟩

theorem run_exitLoop (codes : Codes) (s : State) :
    ((initables debug).exitLoop codes entries.reverse).run
        s =
      (.returned (),
        { s with
          lib := Library.exitObjects entries.reverse s.lib
          world := stopped debug codes s.world }) := by
  cases debug <;> rfl

------------------------------------------------------------
-- What the Log Says
------------------------------------------------------------

/- A round that succeeds initializes the library. -/
theorem initialized_startup
    (log : List (Event InitPrio)) :
    Initialized
      (log ++ (entries.map Prod.snd).map .libInit) := by
  intro o
  unfold Up entries registry
  cases o <;> simp [List.filter_append, Event.object]

/- A round that fails leaves one object as it was. -/
theorem up_checkStdioTtys
    (log : List (Event InitPrio))
    {passed : List (InitPrio × InitPrio)}
    (hPassed : passed = [] ∨ passed = entries.take 2) :
    Up (log ++ (passed.map Prod.snd).map .libInit)
        .checkStdioTtys ↔
      Up log .checkStdioTtys := by
  unfold Up
  rcases hPassed with hPassed | hPassed
  · subst hPassed
    simp
  · subst hPassed
    simp [entries, registry, List.filter_append, Event.object]

theorem not_up_shutdown
    (log : List (Event InitPrio)) (o : InitPrio) :
    ¬ Up
      (log ++ (entries.reverse.map Prod.snd).map .libExit)
      o := by
  unfold Up entries registry
  cases o <;> simp [List.filter_append, Event.object]

theorem not_up_start (o : InitPrio) :
    ¬ Up start.lib.log o := by
  unfold Up start Initables.start
  simp

------------------------------------------------------------
-- Histories
------------------------------------------------------------

/- The state between operations that keep the promises. -/
structure Inv (debug : Bool) (s : State) : Prop where
  initData : s.lib.initData = registry.initData
  sound : Sound debug s.lib.log s.world

theorem Inv.getD_initData
    {s : State} (hInv : Inv debug s) :
    s.lib.initData.getD [] = entries := by
  rw [hInv.initData]
  rfl

theorem inv_start : Inv debug start :=
  { initData := rfl
    sound :=
      { proper := by simp [start, Initables.start]
        raw := by simp [start, Initables.start, Begun]
        ready := by simp [start, Initables.start, Begun]
        begun := by
          intro _ hNot
          exact absurd (hNot .mutexAttr) (not_up_start _) } }

theorem Sound.started
    (hSound : Sound debug log w)
    (hInit : debug → codes.mutexattrInit = 0) :
    Sound debug log' (started debug codes w) := by
  cases debug with
  | false => exact hSound.of_not_debug
  | true => exact hSound.setUp (hInit rfl)

theorem Sound.stopped
    (hSound : Sound debug log w)
    (hBegun : debug → Begun w.calls)
    (hEnded : ¬ Initialized log') :
    Sound debug log' (stopped debug codes w) := by
  cases debug with
  | false => exact hSound.of_not_debug
  | true =>
      exact hSound.mutexattrDestroy (hBegun rfl) hEnded

/- Only the attribute and the calls on it matter. -/
theorem Sound.congr
    {w' : World} (hSound : Sound debug log w)
    (hAttr : w'.attr = w.attr) (hCalls : w'.calls = w.calls) :
    Sound debug log w' := by
  rcases w with ⟨attr, calls, d⟩
  rcases w' with ⟨attr', calls', d'⟩
  cases hAttr
  cases hCalls
  exact
    { proper := hSound.proper
      raw := hSound.raw
      ready := hSound.ready
      begun := hSound.begun }

variable {s s' : State}
  {passed : List (InitPrio × InitPrio)}

/- A first call of `init` of the library. -/
theorem Inv.run_init_of_works
    (hInv : Inv debug s)
    (hZero : s.lib.initCounter = 0)
    (hWorks : Works debug codes) :
    (∃ s',
      ((initables debug).init codes).run s =
          (.returned (), s') ∧
        Round debug codes s.countInit entries s') ∨
      ∃ exn s',
        ((initables debug).init codes).run s =
            (.raised exn, s') ∧
          Round debug codes s.countInit (entries.take 2)
            s' := by
  rw [Initables.run_init_of_eq codes hZero,
    hInv.getD_initData]
  exact run_initLoop_of_works hWorks s.countInit

theorem Inv.run_init_of_not_works
    (hInv : Inv debug s)
    (hZero : s.lib.initCounter = 0)
    (hFails : ¬ Works debug codes) :
    ∃ exn s',
      ((initables debug).init codes).run s =
          (.raised exn, s') ∧
        Round debug codes s.countInit [] s' := by
  rw [Initables.run_init_of_eq codes hZero,
    hInv.getD_initData]
  exact run_initLoop_of_not_works hFails s.countInit

/- In either case there was a round, whole or not. -/
theorem Inv.round_init
    (hInv : Inv debug s) (codes : Codes)
    (hZero : s.lib.initCounter = 0) :
    (Works debug codes ∧
        Round debug codes s.countInit entries
          (((initables debug).init codes).run s).2) ∨
      ∃ passed, (passed = [] ∨ passed = entries.take 2) ∧
        Round debug codes s.countInit passed
          (((initables debug).init codes).run s).2 := by
  by_cases hWorks : Works debug codes
  · rcases hInv.run_init_of_works hZero hWorks with
      ⟨s', hRun, hRound⟩ | ⟨exn, s', hRun, hRound⟩
    · left
      rw [hRun]
      exact ⟨hWorks, hRound⟩
    · right
      rw [hRun]
      exact ⟨_, Or.inr rfl, hRound⟩
  · rcases hInv.run_init_of_not_works hZero hWorks with
      ⟨exn, s', hRun, hRound⟩
    right
    rw [hRun]
    exact ⟨[], Or.inl rfl, hRound⟩

/- Either way the attribute is what `libInit` made of it. -/
theorem Inv.calls_init
    (hInv : Inv debug s)
    (hZero : s.lib.initCounter = 0) :
    (((initables debug).init codes).run s).2.world.calls =
      (started debug codes s.world).calls := by
  rcases hInv.round_init codes hZero with
    ⟨-, hRound⟩ | ⟨passed, -, hRound⟩
  · exact hRound.calls
  · exact hRound.calls

/- A first call that returns initializes the library. -/
theorem Inv.initialized_init
    (hInv : Inv debug s)
    (hZero : s.lib.initCounter = 0)
    (hReturns :
      (((initables debug).init codes).run s).1 =
        .returned ()) :
    Initialized
      (((initables debug).init codes).run s).2.lib.log := by
  have hWorks : Works debug codes := by
    by_contra hFails
    rcases hInv.run_init_of_not_works hZero hFails with
      ⟨exn, s', hRun, -⟩
    rw [hRun] at hReturns
    cases hReturns
  rcases hInv.run_init_of_works hZero hWorks with
    ⟨s', hRun, hRound⟩ | ⟨exn, s', hRun, -⟩
  · rw [hRun, hRound.lib, Library.initObjects_eq]
    exact initialized_startup _
  · rw [hRun] at hReturns
    cases hReturns

/- The attribute is sound after any round. -/
theorem Inv.of_round
    (hInv : Inv debug s)
    (hInit : debug → codes.mutexattrInit = 0)
    (hRound : Round debug codes s.countInit passed s') :
    Inv debug s' where
  initData := by
    rw [hRound.lib, Library.initObjects_eq]
    exact hInv.initData
  sound :=
    (hInv.sound.started hInit).congr hRound.attr hRound.calls

/- The call of `finish` that closes the first of `init`. -/
theorem Inv.run_finish
    (hInv : Inv debug s)
    (hOne : s.lib.initCounter = 1) :
    ((initables debug).finish codes).run s =
      (.returned (),
        { s.countFinish with
          lib :=
            Library.exitObjects entries.reverse
              s.countFinish.lib
          world := stopped debug codes s.world }) := by
  have hZero : s.lib.initCounter - 1 = 0 := by
    rw [hOne]
    rfl
  rw [Initables.run_finish_of_eq codes hZero,
    hInv.getD_initData, run_exitLoop]
  rfl

theorem run_finish_of_ne_one
    (hNe : s.lib.initCounter ≠ 1) :
    ((initables debug).finish codes).run s =
      (.returned (), s.countFinish) := by
  apply Initables.run_finish_of_ne codes
  intro hZero
  apply hNe
  have hSum := congrArg (· + 1) hZero
  simp only [BitVec.sub_add_cancel] at hSum
  exact hSum

theorem run_construct (res : Int32) (s : State) :
    (construct debug res).run s =
      (if res ≠ 0 then
        .raised
          (.apiError ⟨res⟩ (str "pthread_mutex_init()"))
      else .returned (),
      s.setWorld
        (s.world.mutexInit
          (if debug then some s.world.attr else none)
          res)) := by
  have hCheck :
      checkInitialized.run s = (.returned (), s) := by
    unfold checkInitialized
    rw [Command.run_bind, Command.run_get]
    simp only
    split <;> rfl
  have hAttr : (getAttr debug).run s =
      (.returned
        (if debug then some s.world.attr else none), s) := by
    unfold getAttr
    rw [Command.run_bind_returned hCheck]
    rfl
  unfold construct
  rw [Command.run_bind_returned hAttr, Command.run_bind,
    Command.run_modify]
  simp only
  unfold throwApiError
  split <;> rfl

------------------------------------------------------------
-- Operations That Keep the Promises
------------------------------------------------------------

theorem Inv.init
    (hInv : Inv debug s) (hFit : Fit debug s (.init codes)) :
    Inv debug (((initables debug).init codes).run s).2 := by
  by_cases hZero : s.lib.initCounter = 0
  · have hInit : debug → codes.mutexattrInit = 0 :=
      fun hDebug => hFit hDebug hZero
    rcases hInv.round_init codes hZero with
      ⟨-, hRound⟩ | ⟨passed, -, hRound⟩
    · exact hInv.of_round hInit hRound
    · exact hInv.of_round hInit hRound
  · rw [Initables.run_init_of_ne codes hZero]
    exact
      { initData := hInv.initData
        sound := hInv.sound }

theorem Inv.finish
    (hInv : Inv debug s)
    (hFit : Fit debug s (.finish codes)) :
    Inv debug
      (((initables debug).finish codes).run s).2 := by
  by_cases hOne : s.lib.initCounter = 1
  · have hBegun : debug → Begun s.world.calls :=
      fun hDebug => hFit hDebug hOne
    rw [hInv.run_finish hOne, Library.exitObjects_eq]
    exact
      { initData := hInv.initData
        sound :=
          hInv.sound.stopped hBegun fun hAll =>
            not_up_shutdown s.lib.log .mutexAttr
              (hAll .mutexAttr) }
  · rw [run_finish_of_ne_one hOne]
    exact
      { initData := hInv.initData
        sound := hInv.sound }

theorem Inv.construct
    {res : Int32}
    (hInv : Inv debug s)
    (hFit : Fit debug s (.construct res)) :
    Inv debug ((construct debug res).run s).2 := by
  have hProper : Proper
      (.mutexInit
        (if debug then some s.world.attr else none)
        res) := by
    cases debug with
    | false => trivial
    | true =>
        have hBegun := hInv.sound.begun rfl hFit.1
        exact
          (hInv.sound.ready rfl).mpr ⟨hBegun, hFit.2 rfl⟩
  rw [run_construct]
  exact
    { initData := hInv.initData
      sound := hInv.sound.mutexInit hProper }

/- A failing set-up is reported if its type fails. -/
theorem Inv.reported
    (hInv : Inv debug s)
    (hFit : Fit debug s (.init codes))
    (hDebug : debug)
    (hZero : s.lib.initCounter = 0)
    (hFails :
      codes.mutexattrInit ≠ 0 ∨ codes.mutexattrSettype ≠ 0) :
    ∃ exn,
      (((initables debug).init codes).run s).1 =
        .raised exn := by
  have hType :=
    hFails.resolve_left (not_not.mpr (hFit hDebug hZero))
  have hNot : ¬ Works debug codes :=
    fun hWorks => hType (hWorks hDebug)
  rcases hInv.run_init_of_not_works hZero hNot with
    ⟨exn, s', hRun, -⟩
  exact ⟨exn, congrArg Prod.fst hRun⟩

------------------------------------------------------------
-- Operations That Break Them
------------------------------------------------------------

/- A type is set on an attribute that is not initialized. -/
theorem Inv.not_kept_init
    (hInv : Inv debug s)
    (hBad : ¬ Fit debug s (.init codes)) :
    ¬ Kept debug s (.init codes)
      (((initables debug).init codes).run s).2 := by
  rcases Classical.not_imp.mp hBad with ⟨hDebug, hRest⟩
  rcases Classical.not_imp.mp hRest with ⟨hZero, hFails⟩
  intro hKept
  have hProper := hKept.proper
  rw [hInv.calls_init hZero] at hProper
  unfold started at hProper
  rw [if_pos hDebug] at hProper
  have hRaw :
      (s.world.mutexattrInit codes.mutexattrInit).attr =
        .raw :=
    if_neg hFails
  exact hProper _ List.mem_cons_self hRaw

/- An attribute is destroyed that is not initialized. -/
theorem Inv.not_kept_finish
    (hInv : Inv debug s)
    (hBad : ¬ Fit debug s (.finish codes)) :
    ¬ Kept debug s (.finish codes)
      (((initables debug).finish codes).run s).2 := by
  rcases Classical.not_imp.mp hBad with ⟨hDebug, hRest⟩
  rcases Classical.not_imp.mp hRest with ⟨hOne, hEnded⟩
  intro hKept
  have hProper := hKept.proper
  rw [hInv.run_finish hOne] at hProper
  unfold stopped at hProper
  rw [if_pos hDebug] at hProper
  have hRaw := (hInv.sound.raw hDebug).mpr hEnded
  exact hProper _ List.mem_cons_self hRaw

/-
  A mutex is made without the library, or with an attribute
  that has no type.
-/
theorem Inv.not_kept_construct
    {res : Int32}
    (hInv : Inv debug s)
    (hBad : ¬ Fit debug s (.construct res)) :
    ¬ Kept debug s (.construct res)
      ((MutexAttr.construct debug res).run s).2 := by
  intro hKept
  by_cases hNot : Initialized s.lib.log
  · have hType := (not_and.mp hBad) hNot
    rcases Classical.not_imp.mp hType with ⟨hDebug, hUnset⟩
    have hProper := hKept.proper
    rw [run_construct, if_pos hDebug] at hProper
    have hReady : s.world.attr = .ready :=
      hProper _ List.mem_cons_self
    exact hUnset ((hInv.sound.ready hDebug).mp hReady).2
  · have hRefused := hKept.refused res rfl hNot
    have hSame := congrArg (·.2.world.calls) hRefused
    change
      ((MutexAttr.construct debug res).run
        s).2.world.calls = _
      at hSame
    rw [run_construct] at hSame
    exact List.cons_ne_self _ _ hSame

/-
  Whatever the functions of the pthread library return: in a
  sequence of operations the attribute is only used as it
  may be, mutexes are refused without the library and
  failures are reported, just if every operation is fit.
-/
theorem lifetime_along_iff
    (debug : Bool)
    (ops : List Op) :
    (machine debug).Along (Kept debug) start ops ↔
      (machine debug).Along (fun s op _ => Fit debug s op)
        start ops := by
  refine
    Machine.along_iff_of_invariant (Inv debug) ?_ ?_ ops
      start inv_start
      (Machine.legal_of_forall (fun _ _ => trivial) ops _)
  · intro s op hInv _ hFit
    cases op with
    | init codes =>
        have hAfter := hInv.init hFit
        refine
          ⟨hAfter,
            { proper := hAfter.sound.proper
              refused := fun _ hNever => by cases hNever
              reported := ?_ }⟩
        rintro codes' hSame hDebug hZero hFails
        cases hSame
        exact hInv.reported hFit hDebug hZero hFails
    | finish codes =>
        have hAfter := hInv.finish hFit
        exact
          ⟨hAfter,
            { proper := hAfter.sound.proper
              refused := fun _ hNever => by cases hNever
              reported := fun _ hNever => by
                cases hNever }⟩
    | construct res =>
        have hAfter := hInv.construct hFit
        exact
          ⟨hAfter,
            { proper := hAfter.sound.proper
              refused := fun _ _ hNot => absurd hFit.1 hNot
              reported := fun _ hNever => by
                cases hNever }⟩
  · intro s op hInv _ hBad
    cases op with
    | init codes => exact hInv.not_kept_init hBad
    | finish codes => exact hInv.not_kept_finish hBad
    | construct res => exact hInv.not_kept_construct hBad

/- No memory for the attribute, or no stream for errors. -/
def noMemory : Codes where
  mutexattrInit := 12
  mutexattrSettype := 0
  mutexattrDestroy := 0
  getEnvVar _ := none
  isattyOutput := .ok ()
  isattyError := .ok ()

def closedStream : Codes :=
  { noMemory with
    mutexattrInit := 0
    isattyError := .error ⟨9⟩ }

/-
  A mutex before `init()`, in both builds; a mutex after an
  `init()` that threw as the stream for errors is closed; and
  a failing `pthread_mutexattr_init()`, after which the type
  is set all the same and `init()` returns.
-/
theorem not_kept_uninitialized :
    (∀ debug,
      ¬ (machine debug).Along (Kept debug) start
        [.construct 0]) ∧
      (∀ debug,
        ¬ (machine debug).Along (Kept debug) start
          [.init closedStream, .construct 0]) ∧
      ¬ (machine true).Along (Kept true) start
        [.init noMemory] := by
  refine ⟨?_, ?_, ?_⟩
  · intro debug hAlong
    have hNot : ¬ Initialized start.lib.log :=
      fun hAll => not_up_start .mutexAttr (hAll .mutexAttr)
    have hRefused := hAlong.1.refused 0 rfl hNot
    cases debug <;> cases hRefused
  · intro debug hAlong
    have hNot :
        ¬ Initialized
          ((machine debug).step start
            (.init closedStream)).lib.log := by
      intro hAll
      have hUp := hAll .checkStdioTtys
      revert hUp
      cases debug <;> decide
    have hRefused := hAlong.2.1.refused 0 rfl hNot
    cases debug <;> cases hRefused
  · intro hAlong
    have hImproper :=
      hAlong.1.proper (.mutexattrSettype .raw 0)
        (by decide)
    exact hImproper rfl

------------------------------------------------------------
-- Programs That Do Not Let the Counter Wrap
------------------------------------------------------------

/-
  No call of `finish` without one of `init`, and not too many
  of `init` at a time; the first of them initializes the
  attribute, and mutexes are made while the library is
  initialized.
-/
def Ordinary (debug : Bool) (s : State) : Op → Prop
| .init codes =>
    s.lib.initCounter + 1 ≠ 0 ∧
      (debug → s.lib.initCounter = 0 →
        codes.mutexattrInit = 0)
| .finish _ => s.lib.initCounter ≠ 0
| .construct _ => Initialized s.lib.log

/-
  The attribute lives as long as calls of `init` are open,
  and without them no object is initialized.
-/
structure Nested (debug : Bool) (s : State) : Prop where
  inv : Inv debug s
  live :
    debug → s.lib.initCounter ≠ 0 → Begun s.world.calls
  typed :
    debug → Initialized s.lib.log → TypeSet s.world.calls
  closed :
    s.lib.initCounter = 0 → ∀ o, ¬ Up s.lib.log o

theorem Nested.fit
    {op : Op}
    (hNested : Nested debug s)
    (hOrdinary : Ordinary debug s op) : Fit debug s op := by
  cases op with
  | init codes => exact hOrdinary.2
  | finish codes =>
      exact fun hDebug _ => hNested.live hDebug hOrdinary
  | construct res =>
      exact
        ⟨hOrdinary,
          fun hDebug => hNested.typed hDebug hOrdinary⟩

/- After any round, also one that failed. -/
theorem Nested.of_round
    (hNested : Nested debug s)
    (hZero : s.lib.initCounter = 0)
    (hCount : s.lib.initCounter + 1 ≠ 0)
    (hInv : Inv debug s')
    (hRound : Round debug codes s.countInit passed s')
    (hPassed :
      Works debug codes ∨
        passed = [] ∨ passed = entries.take 2) :
    Nested debug s' := by
  have hCounter :
      s'.lib.initCounter = s.lib.initCounter + 1 := by
    rw [hRound.lib, Library.initObjects_eq]
    rfl
  refine
    { inv := hInv
      live := fun hDebug _ => ?_
      typed := fun hDebug hInit => ?_
      closed := fun hNever => ?_ }
  · rw [hRound.calls]
    subst hDebug
    trivial
  · rcases hPassed with hWorks | hPassed
    · rw [hRound.calls]
      have hType := hWorks hDebug
      subst hDebug
      exact hType
    · -- what the round has not reached is not initialized
      have hUp := hInit .checkStdioTtys
      rw [hRound.lib, Library.initObjects_eq] at hUp
      have hBefore := (up_checkStdioTtys _ hPassed).mp hUp
      exact absurd hBefore (hNested.closed hZero _)
  · rw [hCounter] at hNever
    exact absurd hNever hCount

theorem Nested.init
    (hNested : Nested debug s)
    (hOrdinary : Ordinary debug s (.init codes)) :
    Nested debug
      (((initables debug).init codes).run s).2 := by
  have hInv := hNested.inv.init (hNested.fit hOrdinary)
  by_cases hZero : s.lib.initCounter = 0
  · rcases hNested.inv.round_init codes hZero with
      ⟨hWorks, hRound⟩ | ⟨passed, hPassed, hRound⟩
    · exact
        hNested.of_round hZero hOrdinary.1 hInv hRound
          (Or.inl hWorks)
    · exact
        hNested.of_round hZero hOrdinary.1 hInv hRound
          (Or.inr hPassed)
  · rw [Initables.run_init_of_ne codes hZero] at hInv ⊢
    exact
      { inv := hInv
        live := fun hDebug _ => hNested.live hDebug hZero
        typed := hNested.typed
        closed := fun hNever => absurd hNever hOrdinary.1 }

theorem Nested.finish
    (hNested : Nested debug s)
    (hOrdinary : Ordinary debug s (.finish codes)) :
    Nested debug
      (((initables debug).finish codes).run s).2 := by
  have hInv := hNested.inv.finish (hNested.fit hOrdinary)
  by_cases hOne : s.lib.initCounter = 1
  · rw [hNested.inv.run_finish hOne,
      Library.exitObjects_eq] at hInv ⊢
    have hEnded := not_up_shutdown s.lib.log
    refine
      { inv := hInv
        live := fun _ hOpen => absurd ?_ hOpen
        typed := fun _ hInit =>
          absurd (hInit .mutexAttr) (hEnded .mutexAttr)
        closed := fun _ => hEnded }
    change s.lib.initCounter - 1 = 0
    rw [hOne]
    rfl
  · rw [run_finish_of_ne_one hOne] at hInv ⊢
    refine
      { inv := hInv
        live := fun hDebug _ =>
          hNested.live hDebug hOrdinary
        typed := hNested.typed
        closed := fun hZero => absurd ?_ hOne }
    exact (BitVec.sub_eq_iff_eq_add.mp hZero).trans
      (BitVec.zero_add 1)

/- Programs that take care of this keep the promises. -/
theorem fit_along_of_ordinary
    (ops : List Op)
    (hOrdinary :
      (machine debug).Along
        (fun s op _ => Ordinary debug s op) start ops) :
    (machine debug).Along (fun s op _ => Fit debug s op)
      start ops := by
  have hStart : Nested debug start :=
    { inv := inv_start
      live := fun _ hOpen => absurd rfl hOpen
      typed := fun _ hInit =>
        absurd (hInit .mutexAttr) (not_up_start .mutexAttr)
      closed := fun _ => not_up_start }
  refine
    Machine.along_of_invariant (Nested debug) ?_ ops start
      hStart
      (Machine.legal_of_forall (fun _ _ => trivial) ops _)
      hOrdinary
  intro s op hNested _ hFine
  refine ⟨?_, hNested.fit hFine⟩
  cases op with
  | init codes => exact hNested.init hFine
  | finish codes => exact hNested.finish hFine
  | construct res =>
      have hInv := hNested.inv.construct (hNested.fit hFine)
      change Nested debug ((construct debug res).run s).2
      rw [run_construct] at hInv ⊢
      exact
        { inv := hInv
          live := hNested.live
          typed := hNested.typed
          closed := hNested.closed }

end MutexAttr

end Cosmos
