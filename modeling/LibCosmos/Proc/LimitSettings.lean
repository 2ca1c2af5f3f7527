import LibCosmos.Core.Types
import LibCosmos.FS.FileDescriptor
import LibCosmos.Foundation.Machine
import Mathlib.Logic.Function.Basic

/-
  Resource limits of a process (`include/proc/limits.hxx`,
  `src/proc/limits.cxx`, `include/proc/LimitSettings.hxx`).

  The kernel has a pair of limits for every resource. Each
  member function of `LimitSettings` is `get` or `set` for
  one resource.

  Main declarations:
    * `LimitSettings.get`, `LimitSettings.set`
    * `LimitSettings.getter_eq`, `LimitSettings.setter_eq`
    * `LimitSettings.Op.Faulty`, `LimitSettings.Kept`
    * `LimitSettings.limits_along_iff`
-/

namespace Cosmos

------------------------------------------------------------
-- System Calls
------------------------------------------------------------

inductive LimitType where
| addressSpace
| core
| cpu
| data
| fileSize
| locks
| memLock
| msgQueue
| nice
| numFiles
| numProcs
| residentSet
| rtPrio
| rtTime
| sigPending
| stack
deriving DecidableEq, Repr

/- The `RLIMIT_*` constants. -/
def LimitType.raw : LimitType → Int32
| .addressSpace => 9
| .core => 4
| .cpu => 0
| .data => 2
| .fileSize => 1
| .locks => 10
| .memLock => 8
| .msgQueue => 12
| .nice => 13
| .numFiles => 7
| .numProcs => 6
| .residentSet => 5
| .rtPrio => 14
| .rtTime => 15
| .sigPending => 11
| .stack => 3

theorem LimitType.raw_injective :
    Function.Injective LimitType.raw := by
  intro a b
  cases a <;> cases b <;> decide

structure LimitSpec where
  rlimCur : UInt64
  rlimMax : UInt64
deriving DecidableEq, Repr

/- The limits of a process by resource. -/
abbrev Limits := Int32 → LimitSpec

namespace Proc

/- `prlimit` may fail, and then changes nothing. -/
def prlimit
    (resource : Int32) (new : Option LimitSpec)
    (answer : Sys Unit) :
    Method Limits (Sys LimitSpec) := do
  let limits ← Command.get
  match answer with
  | .error e => pure (.error e)
  | .ok () => do
      match new with
      | none => pure ()
      | some spec =>
          Command.modify fun limits =>
            Function.update limits resource spec
      pure (.ok (limits resource))

def getLimit (type : LimitType) (answer : Sys Unit) :
    Method Limits LimitSpec := do
  match ← prlimit type.raw none answer with
  | .ok ret => pure ret
  | .error e => throwApi e "prlimit()"

def setLimit
    (type : LimitType) (spec : LimitSpec)
    (answer : Sys Unit) :
    Method Limits LimitSpec := do
  match ← prlimit type.raw (some spec) answer with
  | .ok ret => pure ret
  | .error e => throwApi e "prlimit()"

end Proc

------------------------------------------------------------
-- LimitSettings
------------------------------------------------------------

namespace LimitSettings

def get (limit : LimitType) (answer : Sys Unit) :
    Method Limits LimitSpec :=
  Proc.getLimit limit answer

def set
    (limit : LimitType) (spec : LimitSpec)
    (answer : Sys Unit) :
    Method Limits LimitSpec :=
  Proc.setLimit limit spec answer

def getAddressSpaceLimit := get .addressSpace
def setAddressSpaceLimit := set .addressSpace
def getDataLimit := get .data
def setDataLimit := set .data
def getCoreDumpLimit := get .core
def setCoreDumpLimit := set .core
def getCpuTimeLimit := get .cpu
def setCpuTimeLimit := set .cpu
def getFileSizeLimit := get .fileSize
def setFileSizeLimit := set .fileSize
def getLocksLimit := get .locks
def setLocksLimit := set .locks
-- the limit of these two is LOCKS, not MEMLOCK
def getMemLockLimit := get .locks
def setMemLockLimit := set .locks
def getMsgQueueLimit := get .msgQueue
def setMsgQueueLimit := set .msgQueue
def getNiceLimit := get .nice
def setNiceLimit := set .nice
def getFileLimit := get .numFiles
def setFileLimit := set .numFiles
def getProcLimit := get .numProcs
def setProcLimit := set .numProcs
def getRealtimePrioLimit := get .rtPrio
def setRealtimePrioLimit := set .rtPrio
def getRealtimeTimeLimit := get .rtTime
def setRealtimeTimeLimit := set .rtTime
def getSigPendingLimit := get .sigPending
def setSigPendingLimit := set .sigPending
def getStackLimit := get .stack
def setStackLimit := set .stack

def setDisableCoreDumps (answer : Sys Unit) :
    Method Limits Unit := do
  let _ ← set .core ⟨0, 0⟩ answer
  pure ()

/- A pair of member functions. -/
inductive Limit where
| addressSpace
| data
| coreDump
| cpuTime
| fileSize
| locks
| memLock
| msgQueue
| nice
| file
| proc
| realtimePrio
| realtimeTime
| sigPending
| stack
deriving DecidableEq, Repr

/- The limit that the two functions are documented for. -/
def Limit.type : Limit → LimitType
| .addressSpace => .addressSpace
| .data => .data
| .coreDump => .core
| .cpuTime => .cpu
| .fileSize => .fileSize
| .locks => .locks
| .memLock => .memLock
| .msgQueue => .msgQueue
| .nice => .nice
| .file => .numFiles
| .proc => .numProcs
| .realtimePrio => .rtPrio
| .realtimeTime => .rtTime
| .sigPending => .sigPending
| .stack => .stack

def getter : Limit → Sys Unit → Method Limits LimitSpec
| .addressSpace => getAddressSpaceLimit
| .data => getDataLimit
| .coreDump => getCoreDumpLimit
| .cpuTime => getCpuTimeLimit
| .fileSize => getFileSizeLimit
| .locks => getLocksLimit
| .memLock => getMemLockLimit
| .msgQueue => getMsgQueueLimit
| .nice => getNiceLimit
| .file => getFileLimit
| .proc => getProcLimit
| .realtimePrio => getRealtimePrioLimit
| .realtimeTime => getRealtimeTimeLimit
| .sigPending => getSigPendingLimit
| .stack => getStackLimit

def setter :
    Limit → LimitSpec → Sys Unit → Method Limits LimitSpec
| .addressSpace => setAddressSpaceLimit
| .data => setDataLimit
| .coreDump => setCoreDumpLimit
| .cpuTime => setCpuTimeLimit
| .fileSize => setFileSizeLimit
| .locks => setLocksLimit
| .memLock => setMemLockLimit
| .msgQueue => setMsgQueueLimit
| .nice => setNiceLimit
| .file => setFileLimit
| .proc => setProcLimit
| .realtimePrio => setRealtimePrioLimit
| .realtimeTime => setRealtimeTimeLimit
| .sigPending => setSigPendingLimit
| .stack => setStackLimit

/- The limit that the two functions work on. -/
def Limit.used (limit : Limit) : LimitType :=
  if limit = .memLock then .locks else limit.type

theorem getter_eq (limit : Limit) :
    getter limit = get limit.used := by
  cases limit <;> rfl

theorem setter_eq (limit : Limit) :
    setter limit = set limit.used := by
  cases limit <;> rfl

------------------------------------------------------------
-- Calls
------------------------------------------------------------

/-
  A call on the limits of a process, with the answer of the
  system call in it.
-/
inductive Op where
| get (limit : Limit) (answer : Sys Unit)
| set (limit : Limit) (spec : LimitSpec) (answer : Sys Unit)
| setDisableCoreDumps (answer : Sys Unit)

def Op.limit : Op → Limit
| .get limit _ => limit
| .set limit _ _ => limit
| .setDisableCoreDumps _ => .coreDump

/- What a successful call was to set. -/
def Op.value : Op → Option LimitSpec
| .set _ spec (.ok _) => some spec
| .setDisableCoreDumps (.ok _) => some ⟨0, 0⟩
| _ => none

/-
  The limits of the process, and what the last successful
  setter of each pair was given, or what there was before.
-/
structure World where
  limits : Limits
  last : Limit → LimitSpec

def Op.after (limits : Limits) : Op → Limits
| .get limit answer => ((getter limit answer).run limits).2
| .set limit spec answer =>
    ((setter limit spec answer).run limits).2
| .setDisableCoreDumps answer =>
    ((LimitSettings.setDisableCoreDumps answer).run limits).2

def World.step (w : World) (op : Op) : World where
  limits := op.after w.limits
  last :=
    match op.value with
    | none => w.last
    | some spec => Function.update w.last op.limit spec

def start (limits : Limits) : World where
  limits := limits
  last limit := limits limit.type.raw

def machine : Machine World Op where
  legal _ _ := True
  step := World.step

/-
  A getter returns what was set last, and no call changes
  a limit that it is not documented for.
-/
structure Kept (w : World) (op : Op) (w' : World) :
    Prop where
  returns :
    ∀ limit, op = .get limit (.ok ()) →
      ((getter limit (.ok ())).run w.limits).1 =
        .returned (w.last limit)
  others :
    ∀ resource, resource ≠ op.limit.type.raw →
      w'.limits resource = w.limits resource

/-
  The memory lock limit is read while the file lock limit is
  not the same, or is set to something else than that.
-/
def Op.Faulty (w : World) : Op → Prop
| .get .memLock (.ok _) =>
    w.limits LimitType.locks.raw ≠ w.last .memLock
| .set .memLock spec (.ok _) =>
    spec ≠ w.limits LimitType.locks.raw
| _ => False

------------------------------------------------------------
-- One Call
------------------------------------------------------------

theorem run_get
    (limit : LimitType) (answer : Sys Unit)
    (limits : Limits) :
    (get limit answer).run limits =
      match answer with
      | .ok () => (.returned (limits limit.raw), limits)
      | .error e =>
          (.raised (.apiError e (str "prlimit()")),
            limits) := by
  cases answer <;> rfl

theorem run_set
    (limit : LimitType) (spec : LimitSpec)
    (answer : Sys Unit) (limits : Limits) :
    (set limit spec answer).run limits =
      match answer with
      | .ok () =>
          (.returned (limits limit.raw),
            Function.update limits limit.raw spec)
      | .error e =>
          (.raised (.apiError e (str "prlimit()")),
            limits) := by
  cases answer <;> rfl

theorem run_setDisableCoreDumps
    (answer : Sys Unit) (limits : Limits) :
    ((LimitSettings.setDisableCoreDumps answer).run
        limits).2 =
      ((set .core ⟨0, 0⟩ answer).run limits).2 := by
  cases answer <;> rfl

/- The limits after a call. -/
theorem after_eq (op : Op) (limits : Limits) :
    op.after limits =
      match op.value with
      | none => limits
      | some spec =>
          Function.update limits op.limit.used.raw spec := by
  cases op with
  | get limit answer =>
      simp only [Op.after, getter_eq, run_get]
      cases answer <;> rfl
  | set limit spec answer =>
      simp only [Op.after, setter_eq, run_set]
      cases answer <;> rfl
  | setDisableCoreDumps answer =>
      simp only [Op.after, run_setDisableCoreDumps, run_set]
      cases answer <;> rfl

/- All limits but the one of memory locks are in place. -/
def Matching (w : World) : Prop :=
  ∀ limit, limit ≠ .memLock →
    w.last limit = w.limits limit.type.raw

theorem used_of_ne
    {limit : Limit} (hNe : limit ≠ .memLock) :
    limit.used = limit.type := by
  simp [Limit.used, hNe]

/- Documented limits of different pairs differ. -/
theorem type_raw_injective
    {limit other : Limit}
    (hSame : limit.type.raw = other.type.raw) :
    limit = other := by
  have hType := LimitType.raw_injective hSame
  cases limit <;> cases other <;>
    first | rfl | cases hType

theorem matching_update
    {w : World} (hMatching : Matching w)
    (limit : Limit) (spec : LimitSpec) :
    Matching
      { limits :=
          Function.update w.limits limit.type.raw spec
        last := Function.update w.last limit spec } := by
  intro other hOther
  by_cases hSame : other = limit
  · subst hSame
    simp
  · have hRaw : other.type.raw ≠ limit.type.raw :=
      fun hEq => hSame (type_raw_injective hEq)
    simp only [Function.update_of_ne hSame,
      Function.update_of_ne hRaw]
    exact hMatching other hOther

/- What is recorded of a pair does not matter to others. -/
theorem matching_last
    {w : World} (hMatching : Matching w)
    (spec : LimitSpec) :
    Matching
      { w with
        last := Function.update w.last .memLock spec } := by
  intro other hOther
  simp only [Function.update_of_ne hOther]
  exact hMatching other hOther

theorem step_of_none
    (w : World) {op : Op} (hNone : op.value = none) :
    w.step op = w := by
  unfold World.step
  rw [after_eq, hNone]

theorem step_of_some
    (w : World) {op : Op} {spec : LimitSpec}
    (hSome : op.value = some spec) :
    w.step op =
      { limits :=
          Function.update w.limits op.limit.used.raw spec
        last := Function.update w.last op.limit spec } := by
  unfold World.step
  rw [after_eq, hSome]

/- Setting the file lock limit to what it is. -/
theorem eq_of_good_set
    {w : World} {op : Op} {spec : LimitSpec}
    (hGood : ¬ op.Faulty w)
    (hLimit : op.limit = .memLock)
    (hSome : op.value = some spec) :
    spec = w.limits LimitType.locks.raw := by
  cases op with
  | get limit answer => cases hSome
  | set limit spec' answer =>
      cases hLimit
      cases answer with
      | error e => cases hSome
      | ok _ =>
          cases hSome
          exact Classical.not_not.mp hGood
  | setDisableCoreDumps answer => cases hLimit

theorem matching_step
    {w : World} (hMatching : Matching w)
    {op : Op} (hGood : ¬ op.Faulty w) :
    Matching (w.step op) ∧
      ∀ resource, resource ≠ op.limit.type.raw →
        (w.step op).limits resource = w.limits resource := by
  cases hValue : op.value with
  | none =>
      rw [step_of_none w hValue]
      exact ⟨hMatching, fun _ _ => rfl⟩
  | some spec =>
      rw [step_of_some w hValue]
      by_cases hLimit : op.limit = .memLock
      · have hSpec := eq_of_good_set hGood hLimit hValue
        have hSame :
            Function.update w.limits op.limit.used.raw spec =
              w.limits := by
          rw [hLimit, hSpec]
          exact Function.update_eq_self _ _
        rw [hSame, hLimit]
        exact ⟨matching_last hMatching spec, fun _ _ => rfl⟩
      · rw [used_of_ne hLimit]
        refine ⟨matching_update hMatching _ spec, ?_⟩
        intro resource hOther
        exact Function.update_of_ne hOther _ _

/- A getter returns the limit that it works on. -/
theorem returns_iff (limit : Limit) (w : World) :
    ((getter limit (.ok ())).run w.limits).1 =
        .returned (w.last limit) ↔
      w.limits limit.used.raw = w.last limit := by
  rw [getter_eq, run_get]
  simp

theorem kept_of_matching
    {w : World} (hMatching : Matching w)
    {op : Op} (hGood : ¬ op.Faulty w) :
    Kept w op (w.step op) := by
  refine
    { returns := ?_
      others := (matching_step hMatching hGood).2 }
  rintro limit rfl
  rw [returns_iff]
  by_cases hLimit : limit = .memLock
  · subst hLimit
    exact Classical.not_not.mp hGood
  · rw [used_of_ne hLimit]
    exact (hMatching limit hLimit).symm

theorem locks_ne_memLock :
    LimitType.locks.raw ≠ LimitType.memLock.raw := by
  decide

theorem not_kept_of_faulty
    {w : World} {op : Op} (hFaulty : op.Faulty w) :
    ¬ Kept w op (w.step op) := by
  intro hKept
  cases op with
  | get limit answer =>
      cases limit <;> cases answer <;>
        first
        | exact hFaulty
        | exact
            hFaulty
              ((returns_iff _ w).mp (hKept.returns _ rfl))
  | set limit spec answer =>
      have hMemLock :
          limit = .memLock ∧ answer = .ok () ∧
            spec ≠ w.limits LimitType.locks.raw := by
        cases limit <;> cases answer <;>
          first
          | exact hFaulty.elim
          | exact ⟨rfl, rfl, hFaulty⟩
      rcases hMemLock with ⟨rfl, rfl, hDiffers⟩
      have hOther := hKept.others _ locks_ne_memLock
      have hSet :
          (w.step (.set .memLock spec (.ok ()))).limits
              LimitType.locks.raw = spec := by
        rw [step_of_some w rfl]
        simp [Op.limit, Limit.used]
      exact hDiffers (hSet.symm.trans hOther)
  | setDisableCoreDumps answer => exact hFaulty

/-
  In a sequence of calls the pairs of member functions are
  independent exactly as long as no call is faulty.
-/
theorem limits_along_iff
    (limits : Limits) (ops : List Op) :
    machine.Along Kept (start limits) ops ↔
      machine.Along (fun w op _ => ¬ op.Faulty w)
        (start limits) ops := by
  have hLegal : machine.Legal (start limits) ops :=
    Machine.legal_of_forall (fun _ _ => trivial) ops _
  refine
    Machine.along_iff_of_invariant Matching ?_ ?_ ops
      (start limits) (fun _ _ => rfl) hLegal
  · intro w op hMatching _ hGood
    exact
      ⟨(matching_step hMatching hGood).1,
        kept_of_matching hMatching hGood⟩
  · intro w op _ _ hFaulty
    exact not_kept_of_faulty (Classical.not_not.mp hFaulty)

/-
  Setting the memory lock limit to 1 sets the one of file
  locks, and the memory lock limit of the process is still
  what it was.
-/
theorem setMemLockLimit_changes_locks :
    ((getLocksLimit (.ok ())).run
        ((setMemLockLimit ⟨1, 1⟩ (.ok ())).run
          fun _ => ⟨0, 0⟩).2).1 =
        .returned ⟨1, 1⟩ ∧
      ((setMemLockLimit ⟨1, 1⟩ (.ok ())).run
          fun _ => ⟨0, 0⟩).2 LimitType.memLock.raw =
        ⟨0, 0⟩ ∧
      ¬ machine.Along Kept (start fun _ => ⟨0, 0⟩)
        [.set .memLock ⟨1, 1⟩ (.ok ()),
          .get .locks (.ok ())] := by
  refine ⟨rfl, rfl, ?_⟩
  rintro ⟨hKept, -⟩
  have hOther := hKept.others _ locks_ne_memLock
  exact absurd hOther (by decide)

end LimitSettings

end Cosmos
