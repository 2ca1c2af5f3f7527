import LibCosmos.Core.Initable
import LibCosmos.Foundation.Machine

/-
  Initialization of the library with objects that can fail
  (`src/cosmos.cxx`).

  `P` are the priorities and `O` the objects, `σ` is what
  the objects work on. `E` is what a call of `init` or
  `finish` meets there, for instance the results of system
  calls.

  Main declarations:
    * `Initables`, `Initables.init`, `Initables.finish`
    * `Initables.machine`, `Initables.Kept`
    * `Initables.Fit`
    * `Initables.restored_along_iff`
-/

namespace Cosmos

open Library (Event)

------------------------------------------------------------
-- Objects and the State
------------------------------------------------------------

/-
  The virtual functions of the objects. They return or
  throw; a process that ends has no further calls.
-/
structure Initables (E σ O : Type) where
  libInit : E → O → Command σ Empty Exn Unit
  libExit : E → O → Command σ Empty Exn Unit

/- What static objects have registered, each of them once. -/
structure Registry (P O : Type) where
  initData : Option (List (P × O))
  nodup : ((initData.getD []).map Prod.snd).Nodup

namespace Initables

variable {E P σ O : Type} [DecidableEq O]

/-
  The library and what its objects work on. The log has the
  calls of `libInit` that returned and all of `libExit`.
  `balance` are the calls of `init` less those of `finish`;
  the code does not know it.
-/
structure State (P σ O : Type) where
  lib : Library P O
  world : σ
  balance : Int

/- A process before its first call. -/
def start (registry : Registry P O) (world : σ) :
    State P σ O where
  lib := { initData := registry.initData }
  world := world
  balance := 0

namespace State

def setWorld (world : σ) (s : State P σ O) : State P σ O :=
  { s with world := world }

/- `libInit` returned, and `m_lib_initialized` is set. -/
def initialized (o : O) (s : State P σ O) : State P σ O :=
  { s with
    lib :=
      { s.lib with
        log := s.lib.log ++ [.libInit o]
        libInitialized :=
          Function.update s.lib.libInitialized o true } }

/- `libExit` is called. -/
def exiting (o : O) (s : State P σ O) : State P σ O :=
  { s with
    lib := { s.lib with log := s.lib.log ++ [.libExit o] } }

/- `libExit` returned, and `m_lib_initialized` is reset. -/
def exited (o : O) (s : State P σ O) : State P σ O :=
  { s with
    lib :=
      { s.lib with
        libInitialized :=
          Function.update s.lib.libInitialized o false } }

/- `init_counter++` and `--init_counter`. -/
def countInit (s : State P σ O) : State P σ O where
  lib := { s.lib with initCounter := s.lib.initCounter + 1 }
  world := s.world
  balance := s.balance + 1

def countFinish (s : State P σ O) : State P σ O where
  lib := { s.lib with initCounter := s.lib.initCounter - 1 }
  world := s.world
  balance := s.balance - 1

/- The objects in the order of their priorities. -/
def objects (s : State P σ O) : List O :=
  s.lib.createInitData.map Prod.snd

end State

------------------------------------------------------------
-- Calls
------------------------------------------------------------

/- Code that works on the state. -/
abbrev Code (P σ O α : Type) : Type :=
  Command (State P σ O) Empty Exn α

variable (I : Initables E σ O)

/- The loop of `InitData::init`. -/
def initLoop (e : E) :
    List (P × O) → Code P σ O Unit
| [] => pure ()
| (_, initable) :: rest => do
    (I.libInit e initable).focus State.world State.setWorld
    .modify (State.initialized initable)
    initLoop e rest

/- The loop of `InitData::finish`. -/
def exitLoop (e : E) :
    List (P × O) → Code P σ O Unit
| [] => pure ()
| (_, initable) :: rest => do
    .modify (State.exiting initable)
    (I.libExit e initable).focus State.world State.setWorld
    .modify (State.exited initable)
    exitLoop e rest

def init (e : E) : Code P σ O Unit := do
  let s ← .get
  .modify State.countInit
  if s.lib.initCounter ≠ 0 then pure ()
  else
    match s.lib.initData with
    | none => pure ()
    | some initables => I.initLoop e initables

def finish (e : E) : Code P σ O Unit := do
  .modify State.countFinish
  let s ← .get
  if s.lib.initCounter ≠ 0 then pure ()
  else
    match s.lib.initData with
    | none => pure ()
    | some initables => I.exitLoop e initables.reverse

inductive Call (E : Type) where
| init (e : E)
| finish (e : E)
deriving DecidableEq, Repr

def call : Call E → Code P σ O Unit
| .init e => I.init e
| .finish e => I.finish e

/- A process that goes on after an exception. -/
def machine : Machine (State P σ O) (Call E) where
  legal _ _ := True
  step s c := ((I.call c).run s).2

------------------------------------------------------------
-- What Calls Are For
------------------------------------------------------------

/-
  A call of `init` that failed has left nothing: what it
  initialized is undone, and another call does it all.
-/
structure Restored (s s' : State P σ O) : Prop where
  counter : s'.lib.initCounter = s.lib.initCounter
  flags : s'.lib.libInitialized = s.lib.libInitialized
  undone :
    ∃ round, s'.lib.log = s.lib.log ++ round ∧
      ∀ o, round.count (.libInit o) =
        round.count (.libExit o)
  again :
    ∀ e s'', (I.init e).run s' = (.returned (), s'') →
      s''.lib.log = s'.lib.log ++ s.objects.map .libInit

/- Every `libExit` has a `libInit` that succeeded before. -/
def Backed (log : List (Event O)) : Prop :=
  ∀ before, before <+: log →
    ∀ o, before.count (.libExit o) ≤
      before.count (.libInit o)

structure Kept
    (s : State P σ O) (c : Call E)
    (s' : State P σ O) : Prop where
  restored :
    ∀ e exn, c = .init e →
      ((I.init e).run s).1 = .raised exn →
      I.Restored s s'
  backed : Backed s'.lib.log

/- No `libInit` of a round throws. -/
def Passes (e : E) : List O → σ → Prop
| [], _ => True
| o :: os, w =>
    ∃ w', (I.libInit e o).run w = (.returned (), w') ∧
      Passes e os w'

/-
  The calls that keep the promises: a first call of `init`
  that does not fail, and calls of `finish` as long as
  nearly `2 ^ 64` of them have no call of `init`.
-/
def Fit (s : State P σ O) : Call E → Prop
| .init e =>
    s.lib.initCounter = 0 → I.Passes e s.objects s.world
| .finish _ => s.objects = [] ∨ -2 ^ 64 + 1 < s.balance

------------------------------------------------------------
-- The Loops
------------------------------------------------------------

variable {I : Initables E σ O}

/- A round without exceptions. -/
theorem run_initLoop_of_passes
    {e : E} :
    ∀ {objs : List (P × O)} {s : State P σ O},
      I.Passes e (objs.map Prod.snd) s.world →
      ∃ w,
        (I.initLoop e objs).run s =
          (.returned (),
            { s with
              lib := Library.initObjects objs s.lib
              world := w })
| [], s, _ => ⟨s.world, rfl⟩
| (_, o) :: rest, s, hPasses => by
    rcases hPasses with ⟨w₁, hRun, hRest⟩
    have hFocus :
        ((I.libInit e o).focus State.world
            State.setWorld).run s =
          (.returned (), s.setWorld w₁) := by
      rw [Command.run_focus, hRun]
    rcases run_initLoop_of_passes
        (s := State.initialized o (s.setWorld w₁)) hRest with
      ⟨w, hLoop⟩
    refine ⟨w, ?_⟩
    unfold initLoop
    rw [Command.run_bind_returned hFocus, Command.run_bind,
      Command.run_modify]
    exact hLoop

/-
  An exception leaves the objects in front initialized and
  is passed on.
-/
theorem run_initLoop_of_not_passes
    {e : E} :
    ∀ {objs : List (P × O)} {s : State P σ O},
      ¬ I.Passes e (objs.map Prod.snd) s.world →
      ∃ passed o rest exn w,
        objs = passed ++ o :: rest ∧
        (I.initLoop e objs).run s =
          (.raised exn,
            { s with
              lib := Library.initObjects passed s.lib
              world := w })
| [], _, hFails => absurd trivial hFails
| (p, o) :: rest, s, hFails => by
    cases hRun : (I.libInit e o).run s.world with
    | mk outcome w₁ =>
        cases outcome with
        | halted h => exact h.elim
        | raised exn =>
            refine
              ⟨[], (p, o), rest, exn, w₁, rfl, ?_⟩
            unfold initLoop
            rw [Command.run_bind, Command.run_focus, hRun]
            rfl
        | returned _ =>
            have hRest : ¬ I.Passes e (rest.map Prod.snd)
                (State.initialized o
                  (s.setWorld w₁)).world :=
              fun hPasses => hFails ⟨w₁, hRun, hPasses⟩
            rcases run_initLoop_of_not_passes hRest with
              ⟨passed, o', rest', exn, w, hParts, hLoop⟩
            refine
              ⟨(p, o) :: passed, o', rest', exn, w,
                congrArg ((p, o) :: ·) hParts, ?_⟩
            unfold initLoop
            rw [Command.run_bind, Command.run_focus, hRun]
            exact hLoop

/- What a round of `libExit` does to the library. -/
structure Exiting
    (order : List O) (s s' : State P σ O) : Prop where
  counter : s'.lib.initCounter = s.lib.initCounter
  initData : s'.lib.initData = s.lib.initData
  balance : s'.balance = s.balance
  log :
    ∃ called, called <+: order ∧
      (order ≠ [] → called ≠ []) ∧
      s'.lib.log = s.lib.log ++ called.map .libExit

/- Where `libExit` throws, objects behind keep their state. -/
theorem exiting_exitLoop
    (e : E) :
    ∀ (objs : List (P × O)) (s : State P σ O),
      Exiting (objs.map Prod.snd) s
        ((I.exitLoop e objs).run s).2
| [], s =>
    { counter := rfl
      initData := rfl
      balance := rfl
      log :=
        ⟨[], List.prefix_rfl, id, by simp [exitLoop]⟩ }
| (p, o) :: rest, s => by
    unfold exitLoop
    rw [Command.run_bind, Command.run_modify]
    simp only
    rw [Command.run_bind, Command.run_focus]
    cases hRun : (I.libExit e o).run
        (State.exiting o s).world with
    | mk outcome w₁ =>
        cases outcome with
        | halted h => exact h.elim
        | raised exn =>
            exact
              { counter := rfl
                initData := rfl
                balance := rfl
                log :=
                  ⟨[o], ⟨rest.map Prod.snd, rfl⟩,
                    fun _ => List.cons_ne_nil _ _, rfl⟩ }
        | returned _ =>
            have hRest :=
              exiting_exitLoop e rest
                (State.exited o
                  ((State.exiting o s).setWorld w₁))
            rcases hRest.log with ⟨called, hCalled, -, hLog⟩
            exact
              { counter := hRest.counter
                initData := hRest.initData
                balance := hRest.balance
                log :=
                  ⟨o :: called,
                    (List.prefix_cons_inj o).mpr hCalled,
                    fun _ => List.cons_ne_nil _ _,
                    hLog.trans (by
                      simp [State.exited, State.exiting,
                        State.setWorld])⟩ }

/- A round of `libExit` without exceptions. -/
theorem lib_exitLoop_of_returned
    {e : E} :
    ∀ {objs : List (P × O)} {s s' : State P σ O},
      (I.exitLoop e objs).run s = (.returned (), s') →
      s'.lib = Library.exitObjects objs s.lib
| [], s, s', hRun => by
    cases hRun
    rfl
| (p, o) :: rest, s, s', hRun => by
    unfold exitLoop at hRun
    rw [Command.run_bind, Command.run_modify] at hRun
    simp only at hRun
    rw [Command.run_bind, Command.run_focus] at hRun
    cases hExit : (I.libExit e o).run
        (State.exiting o s).world with
    | mk outcome w₁ =>
        rw [hExit] at hRun
        cases outcome with
        | halted h => exact h.elim
        | raised exn => cases hRun
        | returned _ =>
            have hRest :
                (I.exitLoop e rest).run
                    (State.exited o
                      ((State.exiting o s).setWorld w₁)) =
                  (.returned (), s') := hRun
            have hLater := lib_exitLoop_of_returned hRest
            exact hLater

------------------------------------------------------------
-- Single Calls
------------------------------------------------------------

omit [DecidableEq O] in
theorem objects_eq (s : State P σ O) :
    s.objects = (s.lib.initData.getD []).map Prod.snd := by
  unfold State.objects
  rw [Library.createInitData_eq]

/- A further call of `init` only counts. -/
theorem run_init_of_ne
    {s : State P σ O}
    (e : E) (hNe : s.lib.initCounter ≠ 0) :
    (I.init e).run s = (.returned (), s.countInit) := by
  unfold init
  rw [Command.run_bind, Command.run_get]
  simp only
  rw [Command.run_bind, Command.run_modify, if_pos hNe]
  rfl

/- The first call of `init` works on all objects. -/
theorem run_init_of_eq
    {s : State P σ O}
    (e : E) (hZero : s.lib.initCounter = 0) :
    (I.init e).run s =
      (I.initLoop e (s.lib.initData.getD [])).run
        s.countInit := by
  have hNot : ¬ s.lib.initCounter ≠ 0 := not_not.mpr hZero
  unfold init
  rw [Command.run_bind, Command.run_get]
  simp only
  rw [Command.run_bind, Command.run_modify, if_neg hNot]
  cases s.lib.initData <;> rfl

theorem run_finish_of_ne
    {s : State P σ O}
    (e : E) (hNe : s.lib.initCounter - 1 ≠ 0) :
    (I.finish e).run s = (.returned (), s.countFinish) := by
  unfold finish
  rw [Command.run_bind, Command.run_modify]
  simp only
  rw [Command.run_bind, Command.run_get]
  simp only
  have hCounted : s.countFinish.lib.initCounter ≠ 0 := hNe
  rw [if_pos hCounted]
  rfl

/- The call of `finish` that closes the first of `init`. -/
theorem run_finish_of_eq
    {s : State P σ O}
    (e : E) (hZero : s.lib.initCounter - 1 = 0) :
    (I.finish e).run s =
      (I.exitLoop e (s.lib.initData.getD []).reverse).run
        s.countFinish := by
  have hNot : ¬ s.countFinish.lib.initCounter ≠ 0 :=
    not_not.mpr hZero
  unfold finish
  rw [Command.run_bind, Command.run_modify]
  simp only
  rw [Command.run_bind, Command.run_get]
  simp only
  rw [if_neg hNot]
  show (match s.lib.initData with
      | none => (pure () : Code P σ O Unit)
      | some initables =>
          I.exitLoop e initables.reverse).run _ = _
  cases s.lib.initData <;> rfl

/- Without exceptions, `init` does what it is modelled as. -/
theorem lib_init_of_passes
    {s : State P σ O}
    {e : E}
    (hPasses :
      s.lib.initCounter = 0 → I.Passes e s.objects s.world) :
    ((I.init e).run s).1 = .returned () ∧
      ((I.init e).run s).2.lib = s.lib.init ∧
      ((I.init e).run s).2.balance = s.balance + 1 := by
  by_cases hZero : s.lib.initCounter = 0
  · have hObjects := hPasses hZero
    rw [objects_eq] at hObjects
    rcases run_initLoop_of_passes (s := s.countInit)
        hObjects with
      ⟨w, hLoop⟩
    rw [run_init_of_eq e hZero, hLoop]
    refine ⟨rfl, ?_, rfl⟩
    unfold Library.init
    rw [if_pos hZero]
    simp only [State.countInit]
    cases s.lib.initData <;> rfl
  · rw [run_init_of_ne e hZero]
    refine ⟨rfl, ?_, rfl⟩
    rw [Library.init_of_ne hZero]
    rfl

/-
  A call of `init` that fails has advanced the counter, and
  the objects in front of the failing one are initialized.
-/
theorem init_raised_of_not_passes
    {s : State P σ O}
    {e : E}
    (hZero : s.lib.initCounter = 0)
    (hFails : ¬ I.Passes e s.objects s.world) :
    ∃ passed o rest exn w,
      s.lib.initData.getD [] = passed ++ o :: rest ∧
      (I.init e).run s =
        (.raised exn,
          { s.countInit with
            lib :=
              Library.initObjects passed s.countInit.lib
            world := w }) := by
  rw [objects_eq] at hFails
  rw [run_init_of_eq e hZero]
  exact run_initLoop_of_not_passes (s := s.countInit) hFails

/- So does `finish`. -/
theorem lib_finish_of_returned
    {s s' : State P σ O}
    {e : E}
    (hRun : (I.finish e).run s = (.returned (), s')) :
    s'.lib = s.lib.finish := by
  unfold Library.finish
  by_cases hZero : s.lib.initCounter - 1 = 0
  · rw [run_finish_of_eq e hZero] at hRun
    rw [if_pos hZero, lib_exitLoop_of_returned hRun]
    simp only [State.countFinish]
    cases s.lib.initData <;> rfl
  · rw [run_finish_of_ne e hZero] at hRun
    cases hRun
    rw [if_neg hZero]
    rfl

------------------------------------------------------------
-- Histories
------------------------------------------------------------

/- The rounds that calls with this balance have begun. -/
def turns (balance : Int) : Int :=
  (balance + (2 ^ 64 - 1)) / 2 ^ 64

/- The state between calls that keep the promises. -/
structure Inv (s : State P σ O) : Prop where
  nodup : s.objects.Nodup
  counter : s.lib.initCounter = BitVec.ofInt 64 s.balance
  above : s.objects = [] ∨ -2 ^ 64 < s.balance
  covered :
    ∀ o ∈ s.objects,
      (s.lib.log.count (.libExit o) : Int) +
          turns s.balance ≤
        s.lib.log.count (.libInit o)
  /- Every round of `libExit` reaches the last object. -/
  last :
    ∀ o ∈ s.objects.getLast?,
      (s.lib.log.count (.libExit o) : Int) +
          turns s.balance =
        s.lib.log.count (.libInit o)
  backed : Backed s.lib.log

theorem counter_eq_zero_iff (balance : Int) :
    BitVec.ofInt 64 balance = 0 ↔ balance % 2 ^ 64 = 0 := by
  have hZero : (0 : BitVec 64).toNat = 0 := rfl
  rw [← BitVec.toNat_inj, BitVec.toNat_ofInt, hZero]
  omega

theorem turns_add_one (balance : Int) :
    turns (balance + 1) =
      turns balance +
        (if balance % 2 ^ 64 = 0 then 1 else 0) := by
  unfold turns
  split <;> omega

/- Calls of `libExit` that are all backed by older ones. -/
theorem backed_append
    {log round : List (Event O)}
    (hBacked : Backed log)
    (hEnough :
      ∀ o, log.count (.libExit o) +
          round.count (.libExit o) ≤
        log.count (.libInit o)) :
    Backed (log ++ round) := by
  intro before hBefore o
  rcases List.prefix_or_prefix_of_prefix hBefore
      (List.prefix_append log round) with hOld | ⟨part, rfl⟩
  · exact hBacked before hOld o
  · have hPart : part <+: round :=
      (List.prefix_append_right_inj log).mp hBefore
    have hFew := hPart.sublist.count_le (.libExit o)
    have hEnough := hEnough o
    rw [List.count_append, List.count_append]
    omega

theorem count_map_libInit (objs : List O) (o : O) :
    (objs.map Event.libInit).count (.libInit o) =
        objs.count o ∧
      (objs.map Event.libInit).count (.libExit o) = 0 := by
  constructor
  · apply List.count_map_of_injective
    intro p q hSame
    exact Event.libInit.inj hSame
  · simp [List.count_eq_zero]

theorem count_map_libExit (objs : List O) (o : O) :
    (objs.map Event.libExit).count (.libExit o) =
        objs.count o ∧
      (objs.map Event.libExit).count (.libInit o) = 0 := by
  constructor
  · apply List.count_map_of_injective
    intro p q hSame
    exact Event.libExit.inj hSame
  · simp [List.count_eq_zero]

variable {s : State P σ O} {e : E}

theorem Inv.counter_eq_zero_iff
    (hInv : Inv s) :
    s.lib.initCounter = 0 ↔ s.balance % 2 ^ 64 = 0 := by
  rw [hInv.counter]
  exact Initables.counter_eq_zero_iff s.balance

/- The next state from what the call has added to the log. -/
theorem Inv.after
    {s' : State P σ O} {round : List (Event O)}
    (hInv : Inv s)
    (hLog : s'.lib.log = s.lib.log ++ round)
    (hData : s'.lib.initData = s.lib.initData)
    (hCounter :
      s'.lib.initCounter = BitVec.ofInt 64 s'.balance)
    (hAbove : s.objects = [] ∨ -2 ^ 64 < s'.balance)
    (hCovered :
      ∀ o ∈ s.objects,
        (round.count (.libExit o) : Int) +
            turns s'.balance ≤
          round.count (.libInit o) + turns s.balance)
    (hLast :
      ∀ o ∈ s.objects.getLast?,
        (round.count (.libExit o) : Int) +
            turns s'.balance =
          round.count (.libInit o) + turns s.balance)
    (hEnough :
      ∀ o, s.lib.log.count (.libExit o) +
          round.count (.libExit o) ≤
        s.lib.log.count (.libInit o)) :
    Inv s' := by
  have hObjects : s'.objects = s.objects := by
    rw [objects_eq, objects_eq, hData]
  refine
    { nodup := hObjects ▸ hInv.nodup
      counter := hCounter
      above := hObjects ▸ hAbove
      covered := ?_
      last := ?_
      backed := hLog ▸ backed_append hInv.backed hEnough }
  · rw [hObjects, hLog]
    intro o hMem
    have hBefore := hInv.covered o hMem
    have hMore := hCovered o hMem
    rw [List.count_append, List.count_append]
    omega
  · rw [hObjects, hLog]
    intro o hMem
    have hBefore := hInv.last o hMem
    have hMore := hLast o hMem
    rw [List.count_append, List.count_append]
    omega

/- What a call of `init` that cannot fail logs. -/
theorem log_init
    (hPasses :
      s.lib.initCounter = 0 → I.Passes e s.objects s.world) :
    ((I.init e).run s).2.lib.log =
      s.lib.log ++
        (if s.lib.initCounter = 0 then
          s.objects.map .libInit
        else []) := by
  rcases lib_init_of_passes hPasses with ⟨-, hLib, -⟩
  rw [hLib]
  by_cases hZero : s.lib.initCounter = 0
  · rw [Library.log_init_of_eq hZero, if_pos hZero]
    rfl
  · rw [Library.init_of_ne hZero, if_neg hZero,
      List.append_nil]

theorem Inv.init
    (hInv : Inv s) (hFit : I.Fit s (.init e)) :
    Inv ((I.init e).run s).2 := by
  have hPasses :
      s.lib.initCounter = 0 → I.Passes e s.objects s.world :=
    hFit
  rcases lib_init_of_passes hPasses with ⟨-, hLib, hBalance⟩
  have hFrame := Library.frame_init s.lib
  have hLog := log_init hPasses
  have hCounter := hInv.counter_eq_zero_iff
  have hTurns := turns_add_one s.balance
  generalize hRound :
    (if s.lib.initCounter = 0 then s.objects.map Event.libInit
    else []) = round at hLog
  have hExits : ∀ o, round.count (.libExit o) = 0 := by
    intro o
    rw [← hRound]
    split
    · exact (count_map_libInit s.objects o).2
    · rfl
  have hInits : ∀ o ∈ s.objects,
      (round.count (.libInit o) : Int) + turns s.balance =
        turns (s.balance + 1) := by
    intro o hMem
    rw [← hRound, hTurns]
    by_cases hZero : s.lib.initCounter = 0
    · rw [if_pos hZero, if_pos (hCounter.mp hZero),
        (count_map_libInit s.objects o).1,
        List.count_eq_one_of_mem hInv.nodup hMem]
      omega
    · rw [if_neg hZero, if_neg (mt hCounter.mpr hZero),
        List.count_nil]
      omega
  apply hInv.after hLog
  · rw [hLib, hFrame.2]
  · rw [hLib, hFrame.1, hInv.counter, hBalance,
      BitVec.ofInt_add]
    rfl
  · rw [hBalance]
    exact hInv.above.imp id (by omega)
  · intro o hMem
    have hOne := hInits o hMem
    rw [hExits, hBalance]
    omega
  · intro o hLast
    have hOne := hInits o (List.mem_of_getLast? hLast)
    rw [hExits, hBalance]
    omega
  · intro o
    rw [hExits]
    exact hInv.backed _ List.prefix_rfl o

/- A call of `finish` runs one round or none. -/
theorem exiting_finish
    (e : E) (s : State P σ O) :
    Exiting
      (if s.lib.initCounter - 1 = 0 then s.objects.reverse
      else [])
      s.countFinish ((I.finish e).run s).2 := by
  by_cases hZero : s.lib.initCounter - 1 = 0
  · have hRound :=
      exiting_exitLoop (I := I) e
        (s.lib.initData.getD []).reverse s.countFinish
    rw [List.map_reverse, ← objects_eq] at hRound
    rw [run_finish_of_eq e hZero, if_pos hZero]
    exact hRound
  · rw [run_finish_of_ne e hZero, if_neg hZero]
    exact
      { counter := rfl
        initData := rfl
        balance := rfl
        log := ⟨[], List.prefix_rfl, id, by simp⟩ }

theorem Inv.counter_sub_one
    (hInv : Inv s) :
    s.lib.initCounter - 1 =
      BitVec.ofInt 64 (s.balance - 1) := by
  have hAdd := BitVec.ofInt_add (n := 64) (s.balance - 1) 1
  rw [Int.sub_add_cancel] at hAdd
  rw [hInv.counter, hAdd]
  exact BitVec.add_sub_cancel _ _

theorem Inv.counter_sub_one_eq_zero_iff
    (hInv : Inv s) :
    s.lib.initCounter - 1 = 0 ↔
      (s.balance - 1) % 2 ^ 64 = 0 := by
  rw [hInv.counter_sub_one]
  exact Initables.counter_eq_zero_iff (s.balance - 1)

/- A part of a list without duplicates. -/
theorem count_le_one_of_called
    {order called : List O}
    (hNodup : order.Nodup)
    (hCalled : called <+: order.reverse)
    (o : O) :
    called.count o ≤ 1 :=
  (hCalled.sublist.count_le o).trans
    (List.nodup_iff_count_le_one.mp
      (List.nodup_reverse.mpr hNodup) o)

/- A part of the round that has begun has the last object. -/
theorem count_last_of_called
    {order called : List O}
    (hNodup : order.Nodup)
    (hCalled : called <+: order.reverse)
    (hSome : called ≠ [])
    {o : O} (hLast : o ∈ order.getLast?) :
    called.count o = 1 := by
  have hMem : o ∈ called := by
    cases called with
    | nil => exact absurd rfl hSome
    | cons p called =>
        rcases hCalled with ⟨rest, hRest⟩
        have hHead := congrArg List.head? hRest
        rw [List.head?_reverse, hLast] at hHead
        rw [List.cons_append, List.head?_cons] at hHead
        exact Option.some.inj hHead ▸ List.mem_cons_self
  have hFew := count_le_one_of_called hNodup hCalled o
  have hSome := List.count_pos_iff.mpr hMem
  omega

/- The calls of `libExit` in a call of `finish`. -/
theorem log_finish
    (e : E) (s : State P σ O) :
    ∃ called, called <+: s.objects.reverse ∧
      (s.lib.initCounter - 1 ≠ 0 → called = []) ∧
      (s.lib.initCounter - 1 = 0 → s.objects ≠ [] →
        called ≠ []) ∧
      ((I.finish e).run s).2.lib.log =
        s.lib.log ++ called.map .libExit := by
  have hExiting := exiting_finish (I := I) e s
  rcases hExiting.log with ⟨called, hCalled, hSome, hLog⟩
  by_cases hZero : s.lib.initCounter - 1 = 0
  · rw [if_pos hZero] at hCalled hSome
    refine
      ⟨called, hCalled, fun hNe => absurd hZero hNe,
        fun _ hObjects => hSome ?_, hLog⟩
    simpa using hObjects
  · rw [if_neg hZero] at hCalled
    have hNil := List.prefix_nil.mp hCalled
    exact
      ⟨called, hNil ▸ List.nil_prefix, fun _ => hNil,
        fun h => absurd h hZero, hLog⟩

/- What is shut down has been initialized. -/
theorem Inv.enough_of_fit
    {called : List O}
    (hInv : Inv s)
    (hFit : I.Fit s (.finish e))
    (hCalled : called <+: s.objects.reverse)
    (hNone : s.lib.initCounter - 1 ≠ 0 → called = [])
    (o : O) :
    s.lib.log.count (.libExit o) + called.count o ≤
      s.lib.log.count (.libInit o) := by
  have hOld := hInv.backed _ List.prefix_rfl o
  have hFew := count_le_one_of_called hInv.nodup hCalled o
  by_cases hMem : o ∈ called
  · have hObject : o ∈ s.objects :=
      List.mem_reverse.mp (hCalled.subset hMem)
    have hCovered := hInv.covered o hObject
    have hZero : s.lib.initCounter - 1 = 0 :=
      not_not.mp (mt hNone (List.ne_nil_of_mem hMem))
    have hMany : -2 ^ 64 + 1 < s.balance :=
      hFit.resolve_left (List.ne_nil_of_mem hObject)
    have hMod :=
      hInv.counter_sub_one_eq_zero_iff.mp hZero
    have hBegun : 1 ≤ turns s.balance := by
      unfold turns
      omega
    omega
  · rw [List.count_eq_zero.mpr hMem]
    omega

theorem Inv.finish
    (hInv : Inv s) (hFit : I.Fit s (.finish e)) :
    Inv ((I.finish e).run s).2 := by
  have hExiting := exiting_finish (I := I) e s
  rcases log_finish (I := I) e s with
    ⟨called, hCalled, hNone, hSome, hLog⟩
  have hRound := hInv.counter_sub_one_eq_zero_iff
  have hTurns := turns_add_one (s.balance - 1)
  have hOnce := count_le_one_of_called hInv.nodup hCalled
  rw [Int.sub_add_cancel] at hTurns
  have hBalance :
      ((I.finish e).run s).2.balance = s.balance - 1 :=
    hExiting.balance
  have hCounter :
      ((I.finish e).run s).2.lib.initCounter =
        s.lib.initCounter - 1 :=
    hExiting.counter
  have hExits : ∀ o,
      (called.map Event.libExit).count (.libExit o) =
        called.count o :=
    fun o => (count_map_libExit called o).1
  have hInits : ∀ o,
      (called.map Event.libExit).count (.libInit o) = 0 :=
    fun o => (count_map_libExit called o).2
  apply hInv.after hLog
  · exact hExiting.initData
  · rw [hCounter, hBalance]
    exact hInv.counter_sub_one
  · rw [hBalance]
    exact hFit.imp id (by omega)
  · intro o hMem
    have hFew := hOnce o
    rw [hExits, hInits, hBalance]
    by_cases hZero : s.lib.initCounter - 1 = 0
    · rw [if_pos (hRound.mp hZero)] at hTurns
      omega
    · rw [if_neg (mt hRound.mpr hZero)] at hTurns
      rw [hNone hZero, List.count_nil]
      omega
  · intro o hLast
    rw [hExits, hInits, hBalance]
    by_cases hZero : s.lib.initCounter - 1 = 0
    · rw [if_pos (hRound.mp hZero)] at hTurns
      have hNonempty : s.objects ≠ [] :=
        List.ne_nil_of_mem (List.mem_of_getLast? hLast)
      rw [count_last_of_called hInv.nodup hCalled
        (hSome hZero hNonempty) hLast]
      omega
    · rw [if_neg (mt hRound.mpr hZero)] at hTurns
      rw [hNone hZero, List.count_nil]
      omega
  · intro o
    rw [hExits]
    exact hInv.enough_of_fit hFit hCalled hNone o

/- A round too many runs `libExit` of the last object. -/
theorem Inv.not_backed_finish
    (hInv : Inv s) (hBad : ¬ I.Fit s (.finish e)) :
    ¬ Backed ((I.finish e).run s).2.lib.log := by
  rcases not_or.mp hBad with ⟨hObjects, hFew⟩
  have hAbove := hInv.above.resolve_left hObjects
  have hBalance : s.balance = -2 ^ 64 + 1 := by omega
  have hZero : s.lib.initCounter - 1 = 0 := by
    rw [hInv.counter_sub_one_eq_zero_iff, hBalance]
    rfl
  rcases log_finish (I := I) e s with
    ⟨called, hCalled, -, hSome, hLog⟩
  have hSomeLast : ∃ o, o ∈ s.objects.getLast? :=
    ⟨_, List.getLast?_eq_some_getLast hObjects⟩
  rcases hSomeLast with ⟨o, hLast⟩
  have hBefore := hInv.last o hLast
  have hNone : turns s.balance = 0 := by
    rw [hBalance]
    rfl
  intro hBacked
  have hCount := hBacked _ List.prefix_rfl o
  rw [hLog, List.count_append, List.count_append,
    (count_map_libExit called o).1,
    (count_map_libExit called o).2,
    count_last_of_called hInv.nodup hCalled
      (hSome hZero hObjects) hLast] at hCount
  omega

/- An exception leaves the counter advanced. -/
theorem not_restored_of_not_fit
    (hBad : ¬ I.Fit s (.init e)) :
    ¬ I.Kept s (.init e) ((I.init e).run s).2 := by
  rcases Classical.not_imp.mp hBad with ⟨hZero, hFails⟩
  rcases init_raised_of_not_passes hZero hFails with
    ⟨passed, o, rest, exn, w, -, hRun⟩
  intro hKept
  have hRestored :=
    hKept.restored e exn rfl (congrArg Prod.fst hRun)
  have hSame := hRestored.counter
  rw [hRun, Library.initObjects_eq] at hSame
  change s.lib.initCounter + 1 = s.lib.initCounter at hSame
  rw [hZero] at hSame
  exact absurd hSame (by decide)

theorem inv_start
    (registry : Registry P O) (world : σ) :
    Inv (start registry world) :=
  { nodup := by
      rw [objects_eq]
      exact registry.nodup
    counter := rfl
    above := .inr (by simp [start])
    covered := by simp [start, turns]
    last := by simp [start, turns]
    backed := by
      intro before hBefore o
      rw [List.prefix_nil.mp hBefore]
      exact Nat.zero_le _ }

/-
  Whatever objects there are and whatever they do: a process
  never sees a failed call of `init` that has left something,
  and no `libExit` without a `libInit`, just if no first call
  of `init` fails and `finish` is not called nearly `2 ^ 64`
  times too often.
-/
theorem restored_along_iff
    (I : Initables E σ O)
    (registry : Registry P O)
    (world : σ)
    (calls : List (Call E)) :
    I.machine.Along I.Kept (start registry world) calls ↔
      I.machine.Along (fun s c _ => I.Fit s c)
        (start registry world) calls := by
  refine
    Machine.along_iff_of_invariant Inv ?_ ?_ calls
      (start registry world) (inv_start registry world)
      (Machine.legal_of_forall (fun _ _ => trivial) calls _)
  · intro s c hInv _ hFit
    cases c with
    | init e =>
        have hAfter := hInv.init hFit
        have hReturned := (lib_init_of_passes hFit).1
        refine
          ⟨hAfter,
            { restored := ?_, backed := hAfter.backed }⟩
        rintro e' exn hSame hRaised
        cases hSame
        rw [hReturned] at hRaised
        cases hRaised
    | finish e =>
        have hAfter := hInv.finish hFit
        refine
          ⟨hAfter,
            { restored := ?_, backed := hAfter.backed }⟩
        rintro e' exn hSame
        cases hSame
  · intro s c hInv _ hBad
    cases c with
    | init e => exact not_restored_of_not_fit hBad
    | finish e =>
        exact fun hKept =>
          hInv.not_backed_finish hBad hKept.backed

/- Two objects, the second of which fails when told to. -/
def failingSecond : Initables Bool Unit Bool where
  libInit fails o :=
    if fails && o then .raise (.apiError .invalidArg [])
    else pure ()
  libExit _ _ := pure ()

def twoObjects : Registry Nat Bool where
  initData := some [(0, false), (1, true)]
  nodup := by decide

/-
  After a failed call of `init` the next one returns at once,
  and two calls of `finish` run both `libExit`.
-/
theorem failed_init_sticks :
    ¬ failingSecond.machine.Along failingSecond.Kept
        (start twoObjects ())
        [.init true, .init false, .finish false,
          .finish false] ∧
      (failingSecond.machine.run (start twoObjects ())
          [.init true, .init false, .finish false,
            .finish false]).lib.log =
        [.libInit false, .libExit true, .libExit false] := by
  constructor
  · intro hAlong
    have hRestored :=
      hAlong.1.restored true (.apiError .invalidArg [])
        rfl rfl
    exact absurd hRestored.counter (by decide)
  · rfl

end Initables

end Cosmos
