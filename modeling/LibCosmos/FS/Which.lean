import LibCosmos.Core.BitMask
import LibCosmos.Core.Split
import LibCosmos.Error.CosmosError
import LibCosmos.FS.FileDescriptor

/-
  The search for the file of a program (`include/fs/types.hxx`
  and `src/fs/filesystem.cxx`).

  A file is seen by one caller here. `open()` of a regular
  file for reading fails for a lack of permission only, and
  `fstat()` of what was opened works.

  Main declarations:
    * `Which.File`, `Which.FileSystem`
    * `Which.checkExecutable`, `Which.which`
    * `Which.executable`, `Which.candidates`
    * `Which.Judged`, `Which.Fit`
    * `Which.found_iff`
-/

namespace Cosmos

namespace Which

open Pieces

------------------------------------------------------------
-- Files
------------------------------------------------------------

/- Whose permissions the caller has on a file. -/
inductive UserClass where
| owner
| group
| other
| privileged
deriving DecidableEq, Repr

/-
  A file. `openSpecial` is the result of `open()` for reading
  if it is no regular file; there is none as long as a FIFO
  has no writer.
-/
structure File where
  stMode : BitVec 32
  user : UserClass
  openSpecial : Option (Sys Unit)

/- What is found at a path, symbolic links followed. -/
abbrev FileSystem : Type := Str → Option File

namespace File

/- `status.type().isRegular()`. -/
def isRegular (f : File) : Bool :=
  f.stMode &&& 0o170000#32 == 0o100000#32

/- `status.mode()`. -/
def mode (f : File) : BitMask 32 :=
  ⟨f.stMode &&& ~~~0o170000#32⟩

/- `FileMode::canAnyExec`. -/
def canAnyExec (f : File) : Except Exn Bool :=
  f.mode.anyOfList [0o100#32, 0o010#32, 0o001#32]

/- The permissions of the owner, the group and the others. -/
def permits (f : File) (owner group other : Nat) : Bool :=
  match f.user with
  | .owner => f.stMode.getLsbD owner
  | .group => f.stMode.getLsbD group
  | .other => f.stMode.getLsbD other
  | .privileged =>
      f.stMode.getLsbD owner || f.stMode.getLsbD group ||
        f.stMode.getLsbD other

def mayRead (f : File) : Bool :=
  f.user = .privileged || f.permits 8 5 2

/- Privileges do not replace all execute bits. -/
def mayExec (f : File) : Bool :=
  f.permits 6 3 0

/- Somebody may execute the file. -/
def anyExec (f : File) : Bool :=
  f.stMode.getLsbD 6 || f.stMode.getLsbD 3 ||
    f.stMode.getLsbD 0

end File

------------------------------------------------------------
-- The Code
------------------------------------------------------------

variable (fs : FileSystem)

/- `open(O_RDONLY)` and what is opened, if it returns. -/
def openReadOnly (path : Str) : Option (Sys File) :=
  match fs (CosmosError.cStr path) with
  | none => some (.error .noEntry)
  | some f =>
      if f.isRegular then
        some (if f.mayRead then .ok f else .error .access)
      else f.openSpecial.map (·.map fun _ => f)

/- `checkExecutable`. There is no result if `open` blocks. -/
def checkExecutable (path : Str) : Option Bool :=
  match openReadOnly fs path with
  | none => none
  | some (.error _) => some false
  | some (.ok f) =>
      if ¬ f.isRegular then some false
      else
        match f.canAnyExec with
        | .ok res => some res
        -- the outer `catch (...)`
        | .error _ => some false

def slash : Byte := 47

def colon : Split.Separator where
  chars := str ":"
  nonempty := by decide

/- `dir + "/" + std::string{exec_base}`. -/
def join (exec_base dir : Str) : Str :=
  dir ++ [slash] ++ exec_base

/- The loop over the directories. -/
def search (exec_base : Str) :
    List Str → Option (Option Str)
| [] => some none
| dir :: paths =>
    let path := join exec_base dir
    match checkExecutable fs path with
    | none => none
    | some true => some (some path)
    | some false => search exec_base paths

/- `which`, with the variable `PATH`. -/
def which (isspace : Byte → Bool)
    (pathvar : Option Split.View) (exec_base : Str) :
    Option (Option Str) :=
  if exec_base = [] then some none
  else if slash ∈ exec_base then
    (checkExecutable fs exec_base).map fun res =>
      if res then some exec_base else none
  else
    match pathvar with
    | none => some none
    | some pathvar =>
        match
          Split.split isspace pathvar colon
            ⟨false, false⟩ 0 with
        -- nothing may leave a `noexcept` function
        | .error _ => none
        | .ok paths => search fs exec_base paths

------------------------------------------------------------
-- What Is Wanted
------------------------------------------------------------

/-
  A regular file that the caller may execute. No path of a
  file has a terminator in it.
-/
def executable (path : Str) : Bool :=
  0 ∉ path &&
    (fs path).any fun f => f.isRegular && f.mayExec

/- Empty entries of `PATH` list no directory. -/
def listed : Option Split.View → List Str
| none => []
| some pathvar =>
    (pieces colon.chars pathvar.chars.length
      pathvar.chars).filter (· ≠ [])

/- The paths that a name stands for, in their order. -/
def candidates
    (pathvar : Option Split.View) (exec_base : Str) :
    List Str :=
  if exec_base = [] then []
  else if slash ∈ exec_base then [exec_base]
  else (listed pathvar).map (join exec_base)

/- The first candidate that is executable. -/
def expected
    (pathvar : Option Split.View) (exec_base : Str) :
    Option Str :=
  (candidates pathvar exec_base).find? (executable fs)

/-
  What is at a path does not block, and a regular file has
  an execute bit and may be read just if the caller may
  execute it.
-/
def Judged (path : Str) : Prop :=
  match fs (CosmosError.cStr path) with
  | none => True
  | some f =>
      if f.isRegular then
        (f.mayRead = true ∧ f.anyExec = true ↔
          0 ∉ path ∧ f.mayExec = true)
      else f.openSpecial ≠ none

/- This is so up to the first path that is executable. -/
def Fit (paths : List Str) : Prop :=
  ∀ before path after,
    paths = before ++ path :: after →
    (∀ p ∈ before, executable fs p = false) →
    Judged fs path

------------------------------------------------------------
-- One Path
------------------------------------------------------------

/- The type is not in the bits of the permissions. -/
theorem getLsbD_mode
    (f : File) {i : Nat} (hi : i < 12) :
    f.mode.mFlags.getLsbD i = f.stMode.getLsbD i := by
  have hBit : (~~~0o170000#32).getLsbD i = true := by
    interval_cases i <;> rfl
  rw [File.mode, BitVec.getLsbD_and, hBit, Bool.and_true]

/- `FileMode` looks at the bits of all classes. -/
theorem canAnyExec_eq (f : File) :
    f.canAnyExec = .ok f.anyExec := by
  have hTest :
      ∀ i, i < 12 →
        f.mode.test (1#32 <<< i) =
          .ok (f.stMode.getLsbD i) := by
    intro i hi
    rw [BitMask.test_one_shiftLeft f.mode (by omega),
      getLsbD_mode f hi]
  have hFlags :
      f.canAnyExec =
        f.mode.anyOfList
          [1#32 <<< 6, 1#32 <<< 3, 1#32 <<< 0] := rfl
  rw [hFlags]
  simp only [BitMask.anyOfList, File.anyExec,
    hTest 6 (by decide), hTest 3 (by decide),
    hTest 0 (by decide)]
  cases f.stMode.getLsbD 6
  · cases f.stMode.getLsbD 3
    · cases f.stMode.getLsbD 0 <;> rfl
    · rfl
  · rfl

theorem checkExecutable_of_none
    {path : Str}
    (hNone : fs (CosmosError.cStr path) = none) :
    checkExecutable fs path = some false := by
  unfold checkExecutable openReadOnly
  rw [hNone]

/- The caller has to read what others may execute. -/
theorem checkExecutable_regular
    {path : Str} {f : File}
    (hFile : fs (CosmosError.cStr path) = some f)
    (hRegular : f.isRegular = true) :
    checkExecutable fs path =
      some (f.mayRead && f.anyExec) := by
  unfold checkExecutable openReadOnly
  rw [hFile]
  cases hRead : f.mayRead <;>
    simp [hRegular, hRead, canAnyExec_eq]

theorem checkExecutable_special
    {path : Str} {f : File}
    (hFile : fs (CosmosError.cStr path) = some f)
    (hSpecial : ¬ f.isRegular = true) :
    checkExecutable fs path =
      f.openSpecial.map fun _ => false := by
  unfold checkExecutable openReadOnly
  rw [hFile]
  cases hOpen : f.openSpecial with
  | none => simp [hSpecial, hOpen]
  | some res =>
      cases res <;> simp [hSpecial, hOpen, Except.map]

theorem executable_of_none
    {path : Str}
    (hNone : fs (CosmosError.cStr path) = none) :
    executable fs path = false := by
  by_cases hZero : 0 ∈ path
  · simp [executable, hZero]
  · rw [CosmosError.cStr_eq_self hZero] at hNone
    simp [executable, hNone]

theorem executable_of_some
    {path : Str} {f : File}
    (hFile : fs (CosmosError.cStr path) = some f) :
    executable fs path =
      (f.isRegular && (0 ∉ path && f.mayExec)) := by
  by_cases hZero : 0 ∈ path
  · simp [executable, hZero]
  · rw [CosmosError.cStr_eq_self hZero] at hFile
    simp [executable, hZero, hFile]

/- The test is right for just the files that are judged. -/
theorem checkExecutable_iff (path : Str) :
    checkExecutable fs path = some (executable fs path) ↔
      Judged fs path := by
  unfold Judged
  cases hFile : fs (CosmosError.cStr path) with
  | none =>
      rw [checkExecutable_of_none fs hFile,
        executable_of_none fs hFile]
      exact iff_of_true rfl trivial
  | some f =>
      rw [executable_of_some fs hFile]
      by_cases hRegular : f.isRegular = true
      · rw [checkExecutable_regular fs hFile hRegular,
          Option.some_inj, Bool.eq_iff_iff]
        simp [hRegular]
      · rw [checkExecutable_special fs hFile hRegular]
        cases hOpen : f.openSpecial <;>
          simp [hRegular, hOpen]

------------------------------------------------------------
-- The Search
------------------------------------------------------------

theorem fit_nil : Fit fs [] := by
  intro before path after hPaths
  cases before <;> cases hPaths

theorem fit_cons (path : Str) (paths : List Str) :
    Fit fs (path :: paths) ↔
      Judged fs path ∧
        (executable fs path = false → Fit fs paths) := by
  constructor
  · intro hFit
    refine ⟨hFit [] path paths rfl (by simp), ?_⟩
    intro hNot before p after hPaths hBefore
    refine hFit (path :: before) p after ?_ ?_
    · rw [hPaths]
      rfl
    · intro q hMem
      rcases List.mem_cons.mp hMem with hHead | hTail
      · rw [hHead]
        exact hNot
      · exact hBefore q hTail
  · rintro ⟨hHead, hTail⟩ before p after hPaths hBefore
    cases before with
    | nil =>
        injection hPaths with hPath
        rw [← hPath]
        exact hHead
    | cons first before =>
        injection hPaths with hFirst hRest
        refine hTail ?_ before p after hRest ?_
        · rw [hFirst]
          exact hBefore first List.mem_cons_self
        · intro q hMem
          exact hBefore q (List.mem_cons_of_mem _ hMem)

section Rounds

variable {exec_base dir : Str} (dirs : List Str)

theorem search_blocked
    (hCheck :
      checkExecutable fs (join exec_base dir) = none) :
    search fs exec_base (dir :: dirs) = none := by
  simp only [search, hCheck]

theorem search_passed
    (hCheck :
      checkExecutable fs (join exec_base dir) = some true) :
    search fs exec_base (dir :: dirs) =
      some (some (join exec_base dir)) := by
  simp only [search, hCheck]

theorem search_failed
    (hCheck :
      checkExecutable fs (join exec_base dir) =
        some false) :
    search fs exec_base (dir :: dirs) =
      search fs exec_base dirs := by
  simp only [search, hCheck]

end Rounds

/- A path that is found has passed the test. -/
theorem checkExecutable_of_search
    {exec_base path : Str} {dirs : List Str}
    (hFound : search fs exec_base dirs = some (some path)) :
    checkExecutable fs path = some true := by
  induction dirs with
  | nil => cases hFound
  | cons dir dirs ih =>
      cases hCheck :
          checkExecutable fs (join exec_base dir) with
      | none =>
          rw [search_blocked fs dirs hCheck] at hFound
          cases hFound
      | some res =>
          cases res with
          | false =>
              rw [search_failed fs dirs hCheck] at hFound
              exact ih hFound
          | true =>
              rw [search_passed fs dirs hCheck] at hFound
              injection hFound with hSome
              injection hSome with hPath
              rw [← hPath]
              exact hCheck

/-
  By induction on the directories: a wrong result of the test
  for the first one cannot be made good by a later one.
-/
theorem search_iff (exec_base : Str) (dirs : List Str) :
    search fs exec_base dirs =
        some ((dirs.map (join exec_base)).find?
          (executable fs)) ↔
      Fit fs (dirs.map (join exec_base)) := by
  induction dirs with
  | nil => exact iff_of_true rfl (fit_nil fs)
  | cons dir dirs ih =>
      rw [List.map_cons, fit_cons, ← checkExecutable_iff,
        ← ih]
      cases hCheck :
          checkExecutable fs (join exec_base dir) with
      | none =>
          rw [search_blocked fs dirs hCheck]
          simp
      | some res =>
          cases hExec :
              executable fs (join exec_base dir) with
          | false =>
              rw [List.find?_cons_of_neg (by simp [hExec])]
              cases res with
              | false =>
                  rw [search_failed fs dirs hCheck]
                  simp
              | true =>
                  rw [search_passed fs dirs hCheck]
                  refine iff_of_false ?_ (by simp)
                  intro hFound
                  injection hFound with hSome
                  have hYes := List.find?_some hSome.symm
                  rw [hExec] at hYes
                  cases hYes
          | true =>
              rw [List.find?_cons_of_pos hExec]
              cases res with
              | true =>
                  rw [search_passed fs dirs hCheck]
                  simp
              | false =>
                  refine iff_of_false ?_ (by simp)
                  intro hFound
                  rw [search_failed fs dirs hCheck]
                    at hFound
                  have hYes :=
                    checkExecutable_of_search fs hFound
                  rw [hCheck] at hYes
                  cases hYes

/- A name without a slash is searched for. -/
theorem which_search
    (isspace : Byte → Bool) (pathvar : Option Split.View)
    {exec_base : Str} (hName : exec_base ≠ [])
    (hPlain : slash ∉ exec_base) :
    which fs isspace pathvar exec_base =
      search fs exec_base (listed pathvar) := by
  unfold which
  rw [if_neg hName, if_neg hPlain]
  cases pathvar with
  | none => rfl
  | some pathvar =>
      have hSplit :=
        Split.split_visible isspace pathvar colon
          ⟨false, false⟩ (by decide)
      have hPart :
          Split.part isspace ⟨false, false⟩ = id := rfl
      rw [Split.visible, hPart, List.map_id] at hSplit
      simp only [hSplit]
      rfl

/-
  The first file that the caller may execute is returned if
  and only if no wrong judgement is made in front of it.
-/
theorem found_iff
    (isspace : Byte → Bool) (pathvar : Option Split.View)
    (exec_base : Str) :
    which fs isspace pathvar exec_base =
        some (expected fs pathvar exec_base) ↔
      Fit fs (candidates pathvar exec_base) := by
  unfold expected candidates
  by_cases hName : exec_base = []
  · rw [if_pos hName]
    refine iff_of_true ?_ (fit_nil fs)
    unfold which
    rw [if_pos hName]
    rfl
  · rw [if_neg hName]
    by_cases hSlash : slash ∈ exec_base
    · rw [if_pos hSlash, fit_cons, ← checkExecutable_iff]
      unfold which
      rw [if_neg hName, if_pos hSlash]
      cases checkExecutable fs exec_base with
      | none => simp
      | some res =>
          cases hExec : executable fs exec_base <;>
            cases res <;> simp [hExec, fit_nil]
    · rw [if_neg hSlash,
        which_search fs isspace pathvar hName hSlash]
      exact search_iff fs exec_base (listed pathvar)

/- A program that its owner may only execute is not found. -/
theorem not_found_unreadable :
    ∃ (fs : FileSystem) (pathvar : Split.View),
      which fs Split.isspaceC (some pathvar) (str "ls") ≠
        some (expected fs (some pathvar) (str "ls")) ∧
      which fs Split.isspaceC none (str "/bin/ls") ≠
        some (expected fs none (str "/bin/ls")) := by
  refine
    ⟨fun path =>
        if path = str "/bin/ls" then
          some ⟨0o100111#32, .owner, none⟩
        else none,
      ⟨str ":/bin", by decide⟩, ?_, by decide⟩
  rw [which_search _ _ _ (by decide) (by decide)]
  decide

end Which

end Cosmos
