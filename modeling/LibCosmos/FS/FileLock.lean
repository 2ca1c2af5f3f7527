import LibCosmos.FS.FileDescriptor
import LibCosmos.Foundation.Holdings
import LibCosmos.Foundation.Machine

/-
  Byte range locks of an open file description and the guard
  objects for them (`include/fs/FileLock.hxx`,
  `src/fs/FileLock.cxx`, `src/fs/FileDescriptor.cxx`).

  The region of a lock is found when `fcntl()` is called, so
  for most locks it depends on the file offset or the size.

  Main declarations:
    * `FileLock`, `LockedFile.resolve`
    * `FileLockGuard.construct`, `FileLockGuard.destruct`
    * `FileLockGuard.Released`, `FileLockGuard.Same`
    * `FileLockGuard.released_along_iff`
-/

namespace Cosmos

------------------------------------------------------------
-- Locks
------------------------------------------------------------

/- `FileLock::Type`. -/
inductive LockType where
| readLock
| writeLock
| unlock
deriving DecidableEq, Repr

/- `FileLock::SeekDir`. -/
inductive SeekDir where
| set
| cur
| fromEnd
deriving DecidableEq, Repr

/- `FileLock`, a `struct flock`. -/
structure FileLock where
  type : LockType
  whence : SeekDir := .set
  start : Int64 := 0
  length : Int64 := 0
  pid : Int32 := 0
deriving DecidableEq, Repr

namespace FileLock

def setType (type : LockType) (lock : FileLock) : FileLock :=
  { lock with type := type }

end FileLock

/- The bytes from the first one to the last one. -/
structure Region where
  first : Nat
  last : Nat
deriving DecidableEq, Repr

def Region.has (r : Region) (b : Nat) : Bool :=
  r.first ≤ b && b ≤ r.last

------------------------------------------------------------
-- The Kernel
------------------------------------------------------------

/-
  An open file description with the locks that it holds, and
  the size of its file.
-/
structure LockedFile where
  offset : Nat
  size : Nat
  locks : Nat → Option LockType

namespace LockedFile

def overflow : Errno := ⟨75⟩

/- `OFFSET_MAX`. -/
def offsetMax : Int := 2 ^ 63 - 1

/- What `l_start` counts from. -/
def origin (file : LockedFile) : SeekDir → Int
| .set => 0
| .cur => file.offset
| .fromEnd => file.size

/- The region from a first byte on. -/
def regionAt (first len : Int) : Sys Region :=
  if first < 0 then .error .invalidArg
  else if 0 < len then
    if len - 1 > offsetMax - first then .error overflow
    else .ok ⟨first.toNat, (first + len - 1).toNat⟩
  else if len < 0 then
    -- the bytes in front of it
    if first + len < 0 then .error .invalidArg
    else .ok ⟨(first + len).toNat, (first - 1).toNat⟩
  else .ok ⟨first.toNat, offsetMax.toNat⟩

/- The region of a lock, as things are now. -/
def resolve (file : LockedFile) (lock : FileLock) :
    Sys Region :=
  let origin := file.origin lock.whence
  if lock.start.toInt > offsetMax - origin then
    .error overflow
  else
    regionAt (origin + lock.start.toInt) lock.length.toInt

/- The mark that a lock of this type puts on its bytes. -/
def mark : LockType → Option LockType
| .unlock => none
| type => some type

/-
  `fcntl(F_OFD_SETLKW)`. Other reasons to fail than a bad
  region are up to the kernel.
-/
def setLockWait (lock : FileLock) (answer : Sys Unit) :
    Method LockedFile (Sys Unit) where
  run file :=
    match file.resolve lock, answer with
    | .error e, _ => (.returned (.error e), file)
    | .ok _, .error e => (.returned (.error e), file)
    | .ok region, .ok () =>
        (.returned (.ok ()),
          { file with
            locks :=
              Holdings.assign file.locks region.has
                (mark lock.type) })

end LockedFile

/- `FileDescriptor::setOFDLockWait`. -/
def setOFDLockWait (lock : FileLock) (answer : Sys Unit) :
    Method LockedFile Unit :=
  if lock.pid ≠ 0 then
    Command.raise
      (.usageError
        (str "attempt to set OFD lock with l_pid != 0"))
  else do
    let res ← LockedFile.setLockWait lock answer
    check "fcntl(F_OFD_SETLKW)" res

------------------------------------------------------------
-- Guards
------------------------------------------------------------

/-
  The guard keeps the lock. What it acquired, what the locks
  were before that, and who held them is for the record.
-/
structure FileLockGuard where
  mLock : FileLock
  acquired : Region
  locksBefore : Nat → Option LockType
  before : List (Holding Nat LockType)

namespace FileLockGuard

/- The constructor. -/
def construct (lock : FileLock) (answer : Sys Unit) :
    Method LockedFile Unit :=
  if lock.type = .unlock then
    Command.raise
      (.usageError
        (str (
          "Cannot combine UNLOCK operation " ++
          "with FileLockGuard")))
  else setOFDLockWait lock answer

/- The destructor, which must not throw. -/
def destruct (guard : FileLockGuard) :
    Method LockedFile Unit :=
  (setOFDLockWait (guard.mLock.setType .unlock)
      (.ok ())).handle
    fun _ => Command.halt .terminate

/- What a guard holds. -/
def holding (guard : FileLockGuard) :
    Holding Nat LockType where
  keys := guard.acquired.has
  mark := guard.mLock.type

------------------------------------------------------------
-- Runs
------------------------------------------------------------

/- What is done with a file while guards are alive. -/
inductive Op where
| construct (lock : FileLock) (answer : Sys Unit)
| destruct (i : Nat)
| read (bytes : Nat)
| write (bytes : Nat)
| append (bytes : Nat)
| seek (offset : Nat)
| truncate (size : Nat)

/- The guards that are alive, and the locks at first. -/
structure Session extends LockedFile where
  guards : List FileLockGuard
  base : Nat → Option LockType

def start (file : LockedFile) : Session where
  toLockedFile := file
  guards := []
  base := file.locks

def Session.parties (s : Session) :
    List (Holding Nat LockType) :=
  s.guards.map holding

/- There is a guard if the constructor returned. -/
def constructed (s : Session) (lock : FileLock) :
    Outcome Halt Exn Unit × LockedFile → Session
| (.returned _, file) =>
    match s.resolve lock with
    | .error _ => { s with toLockedFile := file }
    | .ok region =>
        { s with
          toLockedFile := file
          guards :=
            { mLock := lock
              acquired := region
              locksBefore := s.locks
              before := s.parties } :: s.guards }
| (_, file) => { s with toLockedFile := file }

/- The file offset and the size after an operation. -/
def moved (s : Session) (offset size : Nat) : Session :=
  { s with
    offset := offset
    size := size }

def step (s : Session) : Op → Session
| .construct lock answer =>
    constructed s lock
      ((construct lock answer).run s.toLockedFile)
| .destruct i =>
    match s.guards[i]? with
    | none => s
    | some guard =>
        { s with
          toLockedFile :=
            (guard.destruct.run s.toLockedFile).2
          guards := s.guards.eraseIdx i }
| .read bytes => moved s (s.offset + bytes) s.size
| .write bytes =>
    moved s (s.offset + bytes)
      (max s.size (s.offset + bytes))
| .append bytes =>
    moved s (s.size + bytes) (s.size + bytes)
| .seek offset => moved s offset s.size
| .truncate size => moved s s.offset size

/- New guards take bytes that are not locked yet. -/
def legal (s : Session) : Op → Prop
| .construct lock _ =>
    ∀ region, s.resolve lock = .ok region →
      ∀ b, region.has b = true → s.locks b = none
| .destruct i => i < s.guards.length
| _ => True

def machine : Machine Session Op where
  legal := legal
  step := step

/-
  What the end of a guard has to be: the other guards and
  the locks there were at first are left, and if these other
  guards are those from before its construction, the locks
  are as before.
-/
structure Gone
    (s : Session) (guard : FileLockGuard) (s' : Session) :
    Prop where
  returned :
    (guard.destruct.run s.toLockedFile).1 = .returned ()
  exact : Holdings.Exact s'.base s'.parties s'.locks
  restored :
    s'.parties = guard.before →
      s'.locks = guard.locksBefore

/- What is claimed of one operation. -/
def Released (s : Session) (op : Op) (s' : Session) :
    Prop :=
  ∀ i guard, op = .destruct i → s.guards[i]? = some guard →
    Gone s guard s'

/-
  The region of the lock still has all bytes that the guard
  acquired, and no other byte that is locked.
-/
def Same (s : Session) (op : Op) : Prop :=
  ∀ i guard, op = .destruct i → s.guards[i]? = some guard →
    ∃ region,
      s.resolve guard.mLock = .ok region ∧
      (∀ b, guard.acquired.has b = true →
        region.has b = true) ∧
      ∀ b, region.has b = true →
        guard.acquired.has b = false → s.locks b = none

------------------------------------------------------------
-- Single Operations
------------------------------------------------------------

/- Without a process ID it is one call of `fcntl()`. -/
theorem run_setOFDLockWait
    {lock : FileLock} (hPid : lock.pid = 0)
    (answer : Sys Unit) (file : LockedFile) :
    (setOFDLockWait lock answer).run file =
      match file.resolve lock, answer with
      | .error e, _ =>
          (.raised
            (.apiError e (str "fcntl(F_OFD_SETLKW)")), file)
      | .ok _, .error e =>
          (.raised
            (.apiError e (str "fcntl(F_OFD_SETLKW)")), file)
      | .ok region, .ok () =>
          (.returned (),
            { file with
              locks :=
                Holdings.assign file.locks region.has
                  (LockedFile.mark lock.type) }) := by
  unfold setOFDLockWait
  rw [if_neg (not_not.mpr hPid), Command.run_bind]
  unfold LockedFile.setLockWait
  cases hResolve : file.resolve lock with
  | error e =>
      simp only [hResolve]
      rfl
  | ok region =>
      cases answer with
      | error e =>
          simp only [hResolve]
          rfl
      | ok u =>
          simp only [hResolve]
          rfl

theorem run_destruct
    {guard : FileLockGuard} (hPid : guard.mLock.pid = 0)
    (file : LockedFile) :
    guard.destruct.run file =
      match file.resolve guard.mLock with
      | .error _ => (.halted .terminate, file)
      | .ok region =>
          (.returned (),
            { file with
              locks :=
                Holdings.assign file.locks region.has
                  none }) := by
  have hResolve :
      file.resolve (guard.mLock.setType .unlock) =
        file.resolve guard.mLock := rfl
  have hRun :=
    @run_setOFDLockWait (guard.mLock.setType .unlock) hPid
      (.ok ()) file
  unfold destruct
  rw [Command.run_handle, hRun, hResolve]
  cases file.resolve guard.mLock with
  | error e => rfl
  | ok region => rfl

/- A constructor takes its region or does nothing. -/
theorem construct_cases
    (lock : FileLock) (answer : Sys Unit) (s : Session) :
    step s (.construct lock answer) = s ∨
      ∃ region,
        s.resolve lock = .ok region ∧ lock.pid = 0 ∧
        step s (.construct lock answer) =
          { s with
            locks :=
              Holdings.assign s.locks region.has
                (some lock.type)
            guards :=
              { mLock := lock
                acquired := region
                locksBefore := s.locks
                before := s.parties } :: s.guards } := by
  have hRun :
      step s (.construct lock answer) =
        constructed s lock
          ((construct lock answer).run s.toLockedFile) := rfl
  rw [hRun]
  unfold construct
  by_cases hUnlock : lock.type = .unlock
  · left
    rw [if_pos hUnlock]
    rfl
  · rw [if_neg hUnlock]
    by_cases hPid : lock.pid = 0
    · rw [run_setOFDLockWait hPid]
      cases hResolve : s.resolve lock with
      | error e =>
          left
          rfl
      | ok region =>
          cases answer with
          | error e =>
              left
              rfl
          | ok u =>
              right
              have hMark :
                  LockedFile.mark lock.type =
                    some lock.type := by
                cases hType : lock.type with
                | readLock => rfl
                | writeLock => rfl
                | unlock => exact absurd hType hUnlock
              refine ⟨region, rfl, hPid, ?_⟩
              unfold constructed
              simp only [hResolve, hMark]
    · left
      unfold setOFDLockWait
      rw [if_pos hPid]
      rfl

------------------------------------------------------------
-- The Invariant
------------------------------------------------------------

/-
  All locked bytes are those of the guards and those from
  before, now and when each guard was constructed.
-/
structure Inv (s : Session) : Prop where
  exact : Holdings.Exact s.base s.parties s.locks
  separate : Holdings.Separate s.base s.parties
  pids : ∀ guard ∈ s.guards, guard.mLock.pid = 0
  history :
    ∀ guard ∈ s.guards,
      Holdings.Exact s.base guard.before guard.locksBefore

theorem inv_start (file : LockedFile) :
    Inv (start file) where
  exact := Holdings.exact_nil _
  separate := Holdings.separate_nil _
  pids := nofun
  history := nofun

theorem inv_moved
    {s : Session} (hInv : Inv s) (offset size : Nat) :
    Inv (moved s offset size) where
  exact := hInv.exact
  separate := hInv.separate
  pids := hInv.pids
  history := hInv.history

theorem inv_construct
    {s : Session} {lock : FileLock} (answer : Sys Unit)
    (hInv : Inv s)
    (hLegal : legal s (.construct lock answer)) :
    Inv (step s (.construct lock answer)) := by
  rcases construct_cases lock answer s with
    hSame | ⟨region, hResolve, hPid, hStep⟩
  · rw [hSame]
    exact hInv
  · have hTaken :=
      Holdings.exact_take (p := ⟨region.has, lock.type⟩)
        hInv.exact hInv.separate (hLegal region hResolve)
    rw [hStep]
    exact
      { exact := hTaken.1
        separate := hTaken.2
        pids := by
          intro guard hMem
          rcases List.mem_cons.mp hMem with rfl | hOld
          · exact hPid
          · exact hInv.pids guard hOld
        history := by
          intro guard hMem
          rcases List.mem_cons.mp hMem with rfl | hOld
          · exact hInv.exact
          · exact hInv.history guard hOld }

/- A guard and the others. -/
theorem parties_perm
    {s : Session} {i : Nat} {guard : FileLockGuard}
    (hGuard : s.guards[i]? = some guard) :
    s.parties.Perm
      (guard.holding ::
        (s.guards.eraseIdx i).map holding) := by
  rcases List.getElem?_eq_some_iff.mp hGuard with
    ⟨hLess, hSame⟩
  have hPerm := List.getElem_cons_eraseIdx_perm hLess
  rw [hSame] at hPerm
  exact (hPerm.map holding).symm

/- What the end of a guard comes to. -/
theorem step_destruct
    {s : Session} {i : Nat} {guard : FileLockGuard}
    (hInv : Inv s) (hGuard : s.guards[i]? = some guard) :
    step s (.destruct i) =
      match s.resolve guard.mLock with
      | .error _ =>
          { s with guards := s.guards.eraseIdx i }
      | .ok region =>
          { s with
            locks :=
              Holdings.assign s.locks region.has none
            guards := s.guards.eraseIdx i } := by
  have hPid :=
    hInv.pids guard (List.mem_of_getElem? hGuard)
  have hRun := run_destruct hPid s.toLockedFile
  unfold step
  simp only [hGuard, hRun]
  cases s.resolve guard.mLock with
  | error e => rfl
  | ok region => rfl

/- The end of a guard with the region that it still has. -/
theorem exact_destruct_iff
    {s : Session} {i : Nat} {guard : FileLockGuard}
    (hInv : Inv s) (hGuard : s.guards[i]? = some guard)
    (region : Region) :
    Holdings.Exact s.base
        ((s.guards.eraseIdx i).map holding)
        (Holdings.assign s.locks region.has none) ↔
      (∀ b, guard.acquired.has b = true →
        region.has b = true) ∧
        ∀ b, region.has b = true →
          guard.acquired.has b = false →
          s.locks b = none := by
  have hPerm := parties_perm hGuard
  exact
    Holdings.exact_release_iff (hInv.exact.perm hPerm)
      (hInv.separate.perm hPerm)

theorem released_destruct
    {s : Session} {i : Nat}
    (hInv : Inv s) (hLegal : i < s.guards.length)
    (hSame : Same s (.destruct i)) :
    Inv (step s (.destruct i)) ∧
      Released s (.destruct i) (step s (.destruct i)) := by
  have hGuard :
      s.guards[i]? = some s.guards[i] :=
    List.getElem?_eq_getElem hLegal
  have hStep := step_destruct hInv hGuard
  rcases hSame i _ rfl hGuard with
    ⟨region, hResolve, hCovers, hElse⟩
  rw [hResolve] at hStep
  have hExact :=
    (exact_destruct_iff hInv hGuard region).mpr
      ⟨hCovers, hElse⟩
  have hSeparate :=
    (hInv.separate.perm (parties_perm hGuard)).tail
  have hOld : ∀ guard ∈ s.guards.eraseIdx i,
      guard ∈ s.guards :=
    fun guard hMem => List.mem_of_mem_eraseIdx hMem
  constructor
  · rw [hStep]
    exact
      { exact := hExact
        separate := hSeparate
        pids := fun guard hMem =>
          hInv.pids guard (hOld guard hMem)
        history := fun guard hMem =>
          hInv.history guard (hOld guard hMem) }
  · intro j guard hOp hFound
    injection hOp with hIndex
    rw [← hIndex] at hFound
    have hMem := List.mem_of_getElem? hFound
    have hRun :=
      run_destruct (hInv.pids guard hMem) s.toLockedFile
    rw [hGuard] at hFound
    injection hFound with hFound
    rw [hFound] at hResolve
    rw [hResolve] at hRun
    rw [hStep]
    exact
      { returned := by rw [hRun]
        exact := hExact
        restored := by
          intro hParties
          have hBefore := hInv.history guard hMem
          rw [← hParties] at hBefore
          exact hExact.unique hBefore }

theorem same_of_gone
    {s : Session} {i : Nat} {guard : FileLockGuard}
    (hInv : Inv s) (hGuard : s.guards[i]? = some guard)
    (hGone : Gone s guard (step s (.destruct i))) :
    Same s (.destruct i) := by
  have hMem := List.mem_of_getElem? hGuard
  have hRun :=
    run_destruct (hInv.pids guard hMem) s.toLockedFile
  have hStep := step_destruct hInv hGuard
  have hReturned := hGone.returned
  have hExact := hGone.exact
  intro j other hOp hOther
  injection hOp with hIndex
  rw [← hIndex, hGuard] at hOther
  injection hOther with hOther
  rw [← hOther]
  cases hResolve : s.resolve guard.mLock with
  | error e =>
      rw [hRun, hResolve] at hReturned
      cases hReturned
  | ok region =>
      rw [hStep, hResolve] at hExact
      exact
        ⟨region, rfl,
          (exact_destruct_iff hInv hGuard region).mp hExact⟩

------------------------------------------------------------
-- Whole Runs
------------------------------------------------------------

theorem released_of_same
    {s : Session} {op : Op} (hInv : Inv s)
    (hLegal : legal s op) (hSame : Same s op) :
    Inv (step s op) ∧ Released s op (step s op) := by
  cases op with
  | construct lock answer =>
      exact ⟨inv_construct answer hInv hLegal, nofun⟩
  | destruct i => exact released_destruct hInv hLegal hSame
  | read bytes => exact ⟨inv_moved hInv _ _, nofun⟩
  | write bytes => exact ⟨inv_moved hInv _ _, nofun⟩
  | append bytes => exact ⟨inv_moved hInv _ _, nofun⟩
  | seek offset => exact ⟨inv_moved hInv _ _, nofun⟩
  | truncate size => exact ⟨inv_moved hInv _ _, nofun⟩

theorem not_released_of_moved
    {s : Session} {op : Op} (hInv : Inv s)
    (hMoved : ¬ Same s op) :
    ¬ Released s op (step s op) := by
  intro hReleased
  apply hMoved
  intro i guard hOp hGuard
  have hGone := hReleased i guard hOp hGuard
  rw [hOp] at hGone
  exact same_of_gone hInv hGuard hGone i guard rfl hGuard

/-
  Guards release what they acquired along exactly the runs
  in which, at the end of each of them, its lock still means
  the bytes that it acquired and no other locked ones.
-/
theorem released_along_iff
    (file : LockedFile) (ops : List Op)
    (hLegal : machine.Legal (start file) ops) :
    machine.Along Released (start file) ops ↔
      machine.Along (fun s op _ => Same s op) (start file)
        ops :=
  Machine.along_iff_of_invariant Inv
    (fun _ _ hInv hOp hSame =>
      released_of_same hInv hOp hSame)
    (fun _ _ hInv _ hMoved =>
      not_released_of_moved hInv hMoved)
    ops (start file) (inv_start file) hLegal

/- A file of 200 bytes without locks. -/
def unlocked : LockedFile where
  offset := 0
  size := 200
  locks := fun _ => none

/- A guard, a seek, and the end of the guard. -/
def aroundSeek (whence : SeekDir) : List Op :=
  [.construct
      { type := .readLock
        whence := whence
        length := 10 }
      (.ok ()),
    .seek 100, .destruct 0]

theorem legal_aroundSeek (whence : SeekDir) :
    machine.Legal (start unlocked) (aroundSeek whence) := by
  refine ⟨fun _ _ _ _ => rfl, trivial, ?_, trivial⟩
  cases whence with
  | set => exact Nat.one_pos
  | cur => exact Nat.one_pos
  | fromEnd => exact Nat.one_pos

theorem released_along_seek :
    machine.Along Released (start unlocked)
      (aroundSeek .set) := by
  refine
    (released_along_iff unlocked (aroundSeek .set)
      (legal_aroundSeek .set)).mpr ⟨nofun, nofun, ?_, trivial⟩
  intro i guard hOp hGuard
  injection hOp with hIndex
  rw [← hIndex] at hGuard
  injection hGuard with hGuard
  rw [← hGuard]
  refine ⟨⟨0, 9⟩, rfl, fun _ hIn => hIn, ?_⟩
  intro b hIn hOut
  exact absurd (hIn.symm.trans hOut) nofun

/- The bytes stay locked after the end of the guard. -/
theorem not_released_seek :
    machine.Legal (start unlocked) (aroundSeek .cur) ∧
      ¬ machine.Along Released (start unlocked)
        (aroundSeek .cur) := by
  refine ⟨legal_aroundSeek .cur, ?_⟩
  rintro ⟨-, -, hReleased, -⟩
  have hGone := hReleased 0 _ rfl rfl
  have hFree := hGone.exact.free 5 nofun
  exact absurd hFree (by decide)

end FileLockGuard

end Cosmos
