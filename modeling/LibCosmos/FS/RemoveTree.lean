import LibCosmos.FS.FileSystem
import LibCosmos.Foundation.Triple

/-
  Removing a directory with all its content (`remove_tree`
  in `src/fs/filesystem.cxx`, with `DirStream::open` and
  `FileStatus::updateFrom`).

  Every system call can fail at will, besides the failures
  that the tree dictates. Nothing else is at work in the file
  system.

  Main declarations:
    * `RemoveTree.Volume`, `RemoveTree.World`
    * `RemoveTree.removeStream`, `RemoveTree.removeTree`
    * `RemoveTree.Kept`, `RemoveTree.Works`
    * `RemoveTree.removeStream_works`
    * `RemoveTree.treeAt`, `RemoveTree.LeadsThrough`
    * `RemoveTree.Removed`
    * `RemoveTree.removeTree_removed_iff`
-/

namespace Cosmos

namespace RemoveTree

open FileTree PathStack FS

------------------------------------------------------------
-- Directory Entries
------------------------------------------------------------

/- `DirEntry::Type`. -/
inductive EntryType where
| blockDevice
| charDevice
| directory
| fifo
| symlink
| regular
| unixSocket
| unknown
deriving DecidableEq, Repr

def typeOf : FsEntry → EntryType
| .directory _ => .directory
| .symlink _ => .symlink
| .file .regular => .regular
| .file .blockDevice => .blockDevice
| .file .charDevice => .charDevice
| .file .fifo => .fifo
| .file .unixSocket => .unixSocket

/- `DirEntry`. -/
structure DirEntry where
  name : Str
  type : EntryType
deriving DecidableEq, Repr

/- `isDotEntry`, character by character. -/
def DirEntry.isDotEntry (entry : DirEntry) : Bool :=
  match entry.name with
  | [] => false
  | first :: rest =>
      if first ≠ dot then false
      else
        match rest with
        | [] => true
        | second :: rest =>
            if second ≠ dot then false else rest.isEmpty

theorem isDotEntry_eq_false
    {entry : DirEntry}
    (hName : IsName slash dot entry.name) :
    entry.isDotEntry = false := by
  rcases hName with ⟨hNonempty, -, hDot, hDotDot⟩
  unfold DirEntry.isDotEntry
  rcases hEq : entry.name with _ | ⟨first, _ | ⟨second, rest⟩⟩
  · exact absurd hEq hNonempty
  · rw [hEq] at hDot
    have hFirst : first ≠ dot := fun h => hDot (by rw [h])
    simp only [if_pos hFirst]
  · rw [hEq] at hDotDot
    by_cases hFirst : first = dot
    · by_cases hSecond : second = dot
      · cases rest with
        | nil => exact absurd (by rw [hFirst, hSecond]) hDotDot
        | cons third rest => simp [hFirst, hSecond]
      · simp [hFirst, hSecond]
    · simp [hFirst]

------------------------------------------------------------
-- The File System
------------------------------------------------------------

/-
  A file system and what `readdir` tells of its directories:
  all entries in some order, with their types or without, and
  dot entries anywhere between them. The tree is finite.
-/
structure Volume where
  kernel : Kernel
  listing : Location Str → List DirEntry
  depth : Nat
  closed : Closed kernel.tree
  named :
    ∀ name loc, kernel.tree (name :: loc) ≠ none →
      IsName slash dot name
  listed :
    ∀ name loc, kernel.tree (name :: loc) ≠ none →
      ∃ entry ∈ listing loc, entry.name = name
  typed :
    ∀ loc, ∀ entry ∈ listing loc,
      entry.type = .unknown ∨
        ∀ e, kernel.tree (entry.name :: loc) = some e →
          entry.type = typeOf e
  bounded :
    ∀ loc, kernel.tree loc ≠ none → loc.length ≤ depth

/-
  The state while the function runs: how many system calls
  were made and how many failed, the directory streams that
  are open, and the links at the end of a path through which
  a system call got to another directory.
-/
structure World where
  kernel : Kernel
  calls : Nat
  failures : Nat
  streams : List (Location Str)
  followed : List (Location Str)

namespace World

def called (w : World) : World :=
  { w with calls := w.calls + 1 }

def failed (w : World) : World :=
  { w with
    calls := w.calls + 1
    failures := w.failures + 1 }

end World

/- The recursion was cut off. -/
inductive Stop where
| outOfFuel
deriving DecidableEq, Repr

abbrev Routine (α : Type) : Type :=
  Command World Stop Exn α

------------------------------------------------------------
-- System Calls
------------------------------------------------------------

/- What is at a location, if it is a directory. -/
def directoryAt (k : Kernel) (loc : Location Str) :
    Except Errno (Location Str) :=
  match k.tree loc with
  | none => .error .noEntry
  | some (.directory _) => .ok loc
  | some _ => .error .notADir

/-
  The root of the tree at a path: the last component as it
  is, behind leading components that may be links. Slashes at
  the end do not count.
-/
def treeAt (k : Kernel) (path : Str) :
    Option (Location Str) :=
  let route := parse path
  match route.steps.getLast? with
  | none =>
      if path = [] then none else some (k.origin route)
  | some last =>
      match k.resolve (k.origin route) route.steps.dropLast
      with
      | .error _ => none
      | .ok (_, parent) => some (last.leads parent)

/- The location, if there is a link. -/
def linksAt (k : Kernel) (loc : Location Str) :
    List (Location Str) :=
  match k.tree loc with
  | some (.symlink _) => [loc]
  | _ => []

/-
  `::open` with O_DIRECTORY and O_NOFOLLOW, with the links at
  the end of the path that it goes through. A slash at the
  end makes the last component a leading one.
-/
def openDirectory (k : Kernel) (path : Str) :
    Except Errno (Location Str × List (Location Str)) :=
  let route := parse path
  if path.getLast? = some slash then
    match k.resolve (k.origin route) route.steps with
    | .error e => .error (errnoOf e)
    | .ok (_, loc) =>
        (directoryAt k loc).map fun loc =>
          (loc, (treeAt k path).toList.flatMap (linksAt k))
  else
    match route.steps.getLast? with
    | none => .error .noEntry
    | some last =>
        match k.resolve (k.origin route) route.steps.dropLast
        with
        | .error e => .error (errnoOf e)
        | .ok (_, parent) =>
            match turn Access.searchable k.tree parent last
            with
            | .error e => .error (errnoOf e)
            | .ok (.place loc) =>
                (directoryAt k loc).map fun loc => (loc, [])
            | .ok (.link _ _) => .error .notADir

section Code

variable
    (listing : Location Str → List DirEntry)
    (fault : Nat → Option Errno)

/- Remove a directory that is empty. -/
def removeDirIn
    (k : Kernel) (parent : Location Str) (name : Str) :
    Except Errno Kernel :=
  match k.tree (name :: parent) with
  | none => .error .noEntry
  | some (.directory _) =>
      if (listing (name :: parent)).any fun entry =>
          (k.tree (entry.name :: name :: parent)).isSome then
        .error .notEmpty
      else
        .ok
          { k with
            tree :=
              Function.update k.tree (name :: parent) none }
  | some _ => .error .notADir

/- `::rmdir`. -/
def rmdir (k : Kernel) (path : Str) : Except Errno Kernel :=
  let route := parse path
  match route.steps.getLast? with
  | none => .error (if path = [] then .noEntry else .busy)
  | some .here => .error .invalidArg
  | some .up => .error .notEmpty
  | some (.into name) =>
      match k.resolve (k.origin route) route.steps.dropLast
      with
      | .error e => .error (errnoOf e)
      | .ok (_, parent) => removeDirIn listing k parent name

/- `::unlinkat` without flags. -/
def unlinkIn
    (k : Kernel) (dir : Location Str) (name : Str) :
    Except Errno Kernel :=
  match k.tree (name :: dir) with
  | none => .error .noEntry
  | some (.directory _) => .error .isADir
  | some _ =>
      .ok
        { k with
          tree := Function.update k.tree (name :: dir) none }

/- `::openat` with O_DIRECTORY, which follows links. -/
def openatDirectory
    (w : World) (dir : Location Str) (name : Str) :
    Except Errno (Location Str × World) :=
  match
    turn Access.searchable w.kernel.tree dir (.into name) with
  | .error e => .error (errnoOf e)
  | .ok (.place loc) =>
      (directoryAt w.kernel loc).map fun loc => (loc, w)
  | .ok (.link _ _) =>
      match w.kernel.resolve dir [.into name] with
      | .error e => .error (errnoOf e)
      | .ok (_, loc) =>
          (directoryAt w.kernel loc).map fun loc =>
            (loc,
              { w with
                followed := (name :: dir) :: w.followed })

/- A system call fails at will or as the kernel decides. -/
def syscall {α : Type}
    (ex : Errno → Exn)
    (act : World → Except Errno (α × World)) :
    Routine α where
  run w :=
    match fault w.calls with
    | some e => (.raised (ex e), w.failed)
    | none =>
        match act w with
        | .error e => (.raised (ex e), w.failed)
        | .ok (a, w') => (.returned a, w'.called)

/- `ApiError{operation}`. -/
def apiError (operation : String) (e : Errno) : Exn :=
  .apiError e (str operation)

/- `FileError{path, operation}`. -/
def fileError
    (path : Str) (operation : String) (e : Errno) : Exn :=
  .apiError e (path ++ str ": " ++ str operation)

/- A change of the file system. -/
def modifyFs
    (ex : Errno → Exn)
    (act : Kernel → Except Errno Kernel) : Routine Unit :=
  syscall fault ex fun w =>
    (act w.kernel).map fun k => ((), { w with kernel := k })

------------------------------------------------------------
-- The Code
------------------------------------------------------------

/- `::fdopendir`: the stream is open from here on. -/
def fdopendir (loc : Location Str) : Routine Unit :=
  syscall fault (apiError "fdopendir()") fun w =>
    .ok ((), { w with streams := loc :: w.streams })

/-
  `~DirStream`. An error of `closedir` is swallowed, and the
  stream is closed all the same.
-/
def closeStream (w : World) : World :=
  let w' := if (fault w.calls).isSome then w.failed else w.called
  { w' with streams := w.streams.tail }

/- A `::close` whose error is swallowed. -/
def closeIgnored : Routine Unit :=
  Command.modify fun w =>
    if (fault w.calls).isSome then w.failed else w.called

/- The `::open` of a path. -/
def openCall (path : Str) : Routine (Location Str) :=
  syscall fault (apiError "open(O_DIRECTORY)") fun w =>
    (openDirectory w.kernel path).map fun (loc, links) =>
      (loc, { w with followed := links ++ w.followed })

/-
  `DirStream::open(const SysString, const FollowSymlinks)`,
  with the default of not following links.
-/
def openPath (path : Str) : Routine (Location Str) := do
  let loc ← openCall fault path
  (fdopendir fault loc).handle fun ex => do
    closeIgnored fault
    Command.raise ex
  pure loc

/- `DirStream::open(const DirFD, const SysString)`. -/
def openAt (dir : Location Str) (name : Str) :
    Routine (Location Str) := do
  let loc ← syscall fault (fileError name "openat")
    fun w => openatDirectory w dir name
  fdopendir fault loc
  pure loc

/- `DirStream::fd`. -/
def streamFd : Routine Unit :=
  syscall fault (apiError "dirfd()") fun w => .ok ((), w)

/- `DirStream::nextEntry`, as far as it can fail. -/
def nextEntry : Routine Unit :=
  syscall fault (apiError "readdir()") fun w => .ok ((), w)

/- The entries that the stream has when it is rewound. -/
def rewind (dir : Location Str) : Routine (List DirEntry) := do
  let w ← Command.get
  pure
    ((listing dir).filter fun entry =>
      entry.isDotEntry ||
        (w.kernel.tree (entry.name :: dir)).isSome)

/- `FileStatus{dir_fd, name}.type().isDirectory()`. -/
def statIsDirectory (dir : Location Str) (name : Str) :
    Routine Bool :=
  syscall fault (fileError name "fstatat()") fun w =>
    match w.kernel.tree (name :: dir) with
    | none => .error .noEntry
    | some entry => .ok (entry.isDirectory, w)

/- `Directory::unlinkFileAt`. -/
def unlinkFileAt (dir : Location Str) (name : Str) :
    Routine Unit :=
  modifyFs fault (fileError name "unlinkat()") fun k =>
    unlinkIn k dir name

/- `Directory::removeDirAt`. -/
def removeDirAt (dir : Location Str) (name : Str) :
    Routine Unit :=
  modifyFs fault (fileError name "unlinkat(AT_REMOVEDIR)")
    fun k => removeDirIn listing k dir name

/- `remove_dir`. -/
def removeDir (path : Str) : Routine Unit :=
  modifyFs fault (fileError path "rmdir()") fun k =>
    rmdir listing k path

/- `dircase`: get down recursively. -/
def removeDirectory
    (recurse : Location Str → Routine Unit)
    (dir : Location Str) (name : Str) : Routine Unit := do
  let subdir ← openAt fault dir name
  (do
    recurse subdir
    removeDirAt listing fault dir name).ensure
      (closeStream fault)

/- The `switch` on the type of an entry. -/
def removeEntry
    (recurse : Location Str → Routine Unit)
    (dir : Location Str) (entry : DirEntry) :
    Routine Unit :=
  match entry.type with
  | .unknown => do
      let isDirectory ← statIsDirectory fault dir entry.name
      if isDirectory then
        removeDirectory listing fault recurse dir entry.name
      else unlinkFileAt fault dir entry.name
  | .directory =>
      removeDirectory listing fault recurse dir entry.name
  | _ => unlinkFileAt fault dir entry.name

/- The body of the loop over the entries. -/
def visit
    (recurse : Location Str → Routine Unit)
    (dir : Location Str) (entry : DirEntry) :
    Routine Unit := do
  nextEntry fault
  if entry.isDotEntry then pure ()
  else removeEntry listing fault recurse dir entry

/- `remove_tree(DirStream &)` around its recursive calls. -/
def removeContent
    (recurse : Location Str → Routine Unit)
    (dir : Location Str) : Routine Unit := do
  streamFd fault
  let entries ← rewind listing dir
  Command.forEach (visit listing fault recurse dir) entries
  -- the end of the stream
  nextEntry fault

/- `remove_tree(DirStream &)`, so many levels deep. -/
def removeStream : Nat → Location Str → Routine Unit
| 0, _ => Command.halt .outOfFuel
| fuel + 1, dir =>
    removeContent listing fault (removeStream fuel) dir

/- `remove_tree(const SysString)`. -/
def removeTree (fuel : Nat) (path : Str) : Routine Unit := do
  let dir ← openPath fault path
  (do
    removeStream listing fault fuel dir
    removeDir listing fault path).ensure (closeStream fault)

end Code

------------------------------------------------------------
-- What Every Part Keeps
------------------------------------------------------------

/- A file system with part of the entries of the volume. -/
structure Sound (v : Volume) (k : Kernel) : Prop where
  extends_ : Extends k.tree v.kernel.tree
  closed : Closed k.tree
  cwd : k.cwd = v.kernel.cwd

/- What is below a directory, without it and with it. -/
def Below (dir loc : Location Str) : Prop :=
  dir <:+ loc ∧ loc ≠ dir

def Under (dir loc : Location Str) : Prop :=
  dir <:+ loc

instance (dir loc : Location Str) : Decidable (Under dir loc) :=
  inferInstanceAs (Decidable (dir <:+ loc))

theorem below_child (name : Str) (dir : Location Str) :
    Below dir (name :: dir) :=
  ⟨List.suffix_cons name dir, List.cons_ne_self name dir⟩

/- What is below a child is below its directory. -/
theorem below_of_below_child
    {name : Str} {dir loc : Location Str}
    (hBelow : Below (name :: dir) loc) :
    Below dir loc := by
  rcases hBelow with ⟨hUnder, -⟩
  refine ⟨(List.suffix_cons name dir).trans hUnder, ?_⟩
  intro hEq
  have hLength := hUnder.length_le
  rw [hEq, List.length_cons] at hLength
  omega

/-
  From one state to a later one: only entries in `R` went
  away, the same streams are open, and no link was followed.
-/
structure Kept
    (v : Volume) (R : Location Str → Prop) (w w' : World) :
    Prop where
  tree :
    ∀ loc, w'.kernel.tree loc = w.kernel.tree loc ∨
      w'.kernel.tree loc = none ∧ R loc
  streams : w'.streams = w.streams
  followed : w'.followed = w.followed
  failures : w.failures ≤ w'.failures
  sound : Sound v w.kernel → Sound v w'.kernel

theorem Kept.refl
    (v : Volume) (R : Location Str → Prop) (w : World) :
    Kept v R w w where
  tree := fun _ => Or.inl rfl
  streams := rfl
  followed := rfl
  failures := Nat.le_refl _
  sound := id

theorem Kept.trans
    {v : Volume} {R : Location Str → Prop} {w w' w'' : World}
    (hFirst : Kept v R w w') (hSecond : Kept v R w' w'') :
    Kept v R w w'' where
  tree := by
    intro loc
    rcases hSecond.tree loc with hSame | hGone
    · rw [hSame]
      exact hFirst.tree loc
    · exact Or.inr hGone
  streams := hSecond.streams.trans hFirst.streams
  followed := hSecond.followed.trans hFirst.followed
  failures := hFirst.failures.trans hSecond.failures
  sound := fun hSound => hSecond.sound (hFirst.sound hSound)

/- What goes away in a region goes away in a larger one. -/
theorem Kept.widen
    {v : Volume} {R R' : Location Str → Prop} {w w' : World}
    (hKept : Kept v R w w') (hSub : ∀ loc, R loc → R' loc) :
    Kept v R' w w' where
  tree := by
    intro loc
    rcases hKept.tree loc with hSame | ⟨hNone, hIn⟩
    · exact Or.inl hSame
    · exact Or.inr ⟨hNone, hSub loc hIn⟩
  streams := hKept.streams
  followed := hKept.followed
  failures := hKept.failures
  sound := hKept.sound

/- An entry that is gone stays away. -/
theorem Kept.none
    {v : Volume} {R : Location Str → Prop} {w w' : World}
    (hKept : Kept v R w w') {loc : Location Str}
    (hNone : w.kernel.tree loc = none) :
    w'.kernel.tree loc = none := by
  rcases hKept.tree loc with hSame | ⟨hGone, -⟩
  · rw [hSame]
    exact hNone
  · exact hGone

/-
  A command that keeps what it has to keep, and that throws
  only if a system call failed.
-/
def Works {α : Type}
    (v : Volume) (R : Location Str → Prop)
    (c : Routine α) (w : World)
    (Q : α → World → Prop) : Prop :=
  c.Ends w
    (fun a w' => Kept v R w w' ∧ Q a w')
    fun _ w' => Kept v R w w' ∧ w.failures < w'.failures

namespace Works

variable
    {v : Volume} {R : Location Str → Prop} {w : World}
    {α β : Type}

/- The rest of a command, seen from its start. -/
theorem after
    {c : Routine α} {w' : World} {Q : α → World → Prop}
    (hKept : Kept v R w w') (hWorks : Works v R c w' Q) :
    c.Ends w'
      (fun a w'' => Kept v R w w'' ∧ Q a w'')
      fun _ w'' =>
        Kept v R w w'' ∧ w.failures < w''.failures := by
  apply Command.Ends.mono hWorks
  · intro a w'' hBoth
    exact ⟨hKept.trans hBoth.1, hBoth.2⟩
  · intro _ w'' hBoth
    exact
      ⟨hKept.trans hBoth.1,
        lt_of_le_of_lt hKept.failures hBoth.2⟩

theorem pure {a : α} {Q : α → World → Prop} (hQ : Q a w) :
    Works v R (Pure.pure a) w Q :=
  Command.Ends.pure ⟨Kept.refl v R w, hQ⟩

theorem bind
    {c : Routine α} {f : α → Routine β}
    {Q : α → World → Prop} {T : β → World → Prop}
    (hFirst : Works v R c w Q)
    (hSecond :
      ∀ a w', Kept v R w w' → Q a w' →
        Works v R (f a) w' T) :
    Works v R (c >>= f) w T := by
  apply Command.Ends.bind hFirst
  intro a w' hBoth
  exact after hBoth.1 (hSecond a w' hBoth.1 hBoth.2)

theorem mono
    {c : Routine α} {Q Q' : α → World → Prop}
    (hWorks : Works v R c w Q)
    (hQ : ∀ a w', Kept v R w w' → Q a w' → Q' a w') :
    Works v R c w Q' := by
  apply Command.Ends.mono hWorks
  · intro a w' hBoth
    exact ⟨hBoth.1, hQ a w' hBoth.1 hBoth.2⟩
  · intro _ _ hBoth
    exact hBoth

theorem widen
    {R' : Location Str → Prop} {c : Routine α}
    {Q : α → World → Prop}
    (hWorks : Works v R c w Q) (hSub : ∀ loc, R loc → R' loc) :
    Works v R' c w Q := by
  apply Command.Ends.mono hWorks
  · intro a w' hBoth
    exact ⟨hBoth.1.widen hSub, hBoth.2⟩
  · intro _ w' hBoth
    exact ⟨hBoth.1.widen hSub, hBoth.2⟩

end Works

section Proofs

variable (v : Volume) (fault : Nat → Option Errno)

theorem kept_failed
    (R : Location Str → Prop) (w : World) :
    Kept v R w w.failed where
  tree := fun _ => Or.inl rfl
  streams := rfl
  followed := rfl
  failures := Nat.le_succ _
  sound := id

theorem kept_called
    {R : Location Str → Prop} {w w' : World}
    (hKept : Kept v R w w') :
    Kept v R w w'.called where
  tree := hKept.tree
  streams := hKept.streams
  followed := hKept.followed
  failures := hKept.failures
  sound := hKept.sound

/- A system call that fails only counts. -/
theorem syscall_ends
    {α : Type} {ex : Errno → Exn}
    {act : World → Except Errno (α × World)} {w : World}
    {Q : α → World → Prop} {E : Exn → World → Prop}
    (hOk : ∀ a w', act w = .ok (a, w') → Q a w'.called)
    (hFailed : ∀ e, E (ex e) w.failed) :
    (syscall fault ex act).Ends w Q E := by
  cases hFault : fault w.calls with
  | some e =>
      refine Command.Ends.of_raised ?_ (hFailed e)
      unfold syscall
      simp only [hFault]
  | none =>
      cases hAct : act w with
      | error e =>
          refine Command.Ends.of_raised ?_ (hFailed e)
          unfold syscall
          simp only [hFault, hAct]
      | ok p =>
          rcases p with ⟨a, w'⟩
          refine Command.Ends.of_returned ?_ (hOk a w' hAct)
          unfold syscall
          simp only [hFault, hAct]

theorem syscall_works
    {α : Type} {R : Location Str → Prop} {ex : Errno → Exn}
    {act : World → Except Errno (α × World)} {w : World}
    {Q : α → World → Prop}
    (hOk :
      ∀ a w', act w = .ok (a, w') →
        Kept v R w w' ∧ Q a w'.called) :
    Works v R (syscall fault ex act) w Q := by
  apply syscall_ends
  · intro a w' hAct
    rcases hOk a w' hAct with ⟨hKept, hQ⟩
    exact ⟨kept_called v hKept, hQ⟩
  · intro _
    exact ⟨kept_failed v R w, Nat.lt_succ_self _⟩

/- A system call that changes nothing. -/
theorem unchanged_works
    (R : Location Str → Prop) (ex : Errno → Exn) (w : World) :
    Works v R
      (syscall fault ex fun w => .ok ((), w)) w
      fun _ _ => True := by
  apply syscall_works
  intro _ w' hAct
  cases hAct
  exact ⟨Kept.refl v R w, True.intro⟩

theorem tree_erased
    {R : Location Str → Prop} {k : Kernel}
    {entry : Location Str} (hEntry : R entry)
    (loc : Location Str) :
    Function.update k.tree entry none loc = k.tree loc ∨
      Function.update k.tree entry none loc = none ∧
        R loc := by
  by_cases hLoc : loc = entry
  · right
    rw [hLoc, Function.update_self]
    exact ⟨rfl, hEntry⟩
  · left
    rw [Function.update_of_ne hLoc]

/- Removing an entry below which there is nothing. -/
theorem modifyFs_works
    {R : Location Str → Prop} {dir : Location Str}
    {name : Str} (hIn : R (name :: dir)) {ex : Errno → Exn}
    {act : Kernel → Except Errno Kernel} {w : World}
    (hAct :
      ∀ k, act w.kernel = .ok k →
        k =
            { w.kernel with
              tree :=
                Function.update w.kernel.tree (name :: dir)
                  none } ∧
          (Sound v w.kernel →
            ∀ inner,
              w.kernel.tree (inner :: name :: dir) = none)) :
    Works v R (modifyFs fault ex act) w fun _ w' =>
      w'.kernel.tree (name :: dir) = none := by
  apply syscall_works
  intro _ w' hStep
  cases hKernel : act w.kernel with
  | error e =>
      rw [hKernel] at hStep
      cases hStep
  | ok k =>
      rw [hKernel] at hStep
      cases hStep
      rcases hAct k hKernel with ⟨hK, hEmpty⟩
      subst hK
      refine ⟨?_, Function.update_self _ _ _⟩
      exact
        { tree := fun loc => tree_erased hIn loc
          streams := rfl
          followed := rfl
          failures := Nat.le_refl _
          sound := fun hSound =>
            { extends_ :=
                (extends_of_removed fun loc => by
                  rcases
                    tree_erased (k := w.kernel) hIn loc
                    with hSame | ⟨hNone, -⟩
                  · exact Or.inl hSame
                  · exact Or.inr hNone).trans
                  hSound.extends_
              closed := hSound.closed.erase (hEmpty hSound)
              cwd := hSound.cwd } }

theorem unlinkFileAt_works
    (dir : Location Str) (name : Str) (w : World) :
    Works v (Below dir) (unlinkFileAt fault dir name) w fun _ w' =>
      w'.kernel.tree (name :: dir) = none := by
  apply modifyFs_works v fault (below_child name dir)
  intro k hUnlink
  unfold unlinkIn at hUnlink
  cases hEntry : w.kernel.tree (name :: dir) with
  | none =>
      rw [hEntry] at hUnlink
      cases hUnlink
  | some entry =>
      rw [hEntry] at hUnlink
      cases entry with
      | directory access => cases hUnlink
      | symlink target =>
          cases hUnlink
          refine ⟨rfl, ?_⟩
          intro hSound
          apply hSound.closed.none_of_not_directory
          intro access hDirectory
          rw [hEntry] at hDirectory
          cases hDirectory
      | file kind =>
          cases hUnlink
          refine ⟨rfl, ?_⟩
          intro hSound
          apply hSound.closed.none_of_not_directory
          intro access hDirectory
          rw [hEntry] at hDirectory
          cases hDirectory

/- What `::rmdir` and `::unlinkat` find to be empty is. -/
theorem removeDirIn_ok
    {k k' : Kernel} {parent : Location Str} {name : Str}
    (hSound : Sound v k)
    (hRemoved :
      removeDirIn v.listing k parent name = .ok k') :
    k' =
        { k with
          tree :=
            Function.update k.tree (name :: parent) none } ∧
      (∃ access,
        k.tree (name :: parent) =
          some (.directory access)) ∧
      ∀ inner, k.tree (inner :: name :: parent) = none := by
  unfold removeDirIn at hRemoved
  cases hEntry : k.tree (name :: parent) with
  | none =>
      rw [hEntry] at hRemoved
      cases hRemoved
  | some entry =>
      rw [hEntry] at hRemoved
      cases entry with
      | symlink target => cases hRemoved
      | file kind => cases hRemoved
      | directory access =>
          simp only at hRemoved
          split at hRemoved
          · cases hRemoved
          · next hNone =>
              cases hRemoved
              refine ⟨rfl, ⟨access, rfl⟩, ?_⟩
              intro inner
              by_contra hInner
              apply hNone
              have hThere :
                  v.kernel.tree (inner :: name :: parent) ≠
                    none := by
                intro hGone
                cases hFound :
                    k.tree (inner :: name :: parent) with
                | none => exact hInner hFound
                | some found =>
                    have hStill :=
                      hSound.extends_ _ found hFound
                    rw [hGone] at hStill
                    cases hStill
              rcases v.listed inner _ hThere with
                ⟨listed, hMem, hName⟩
              apply List.any_eq_true.mpr
              refine ⟨listed, hMem, ?_⟩
              rw [hName]
              exact Option.isSome_iff_ne_none.mpr hInner

theorem removeDirAt_works
    (dir : Location Str) (name : Str) (w : World)
    (hSound : Sound v w.kernel) :
    Works v (Below dir) (removeDirAt v.listing fault dir name) w
      fun _ w' => w'.kernel.tree (name :: dir) = none := by
  apply modifyFs_works v fault (below_child name dir)
  intro k hRemoved
  rcases removeDirIn_ok v hSound hRemoved with
    ⟨hK, -, hEmpty⟩
  exact ⟨hK, fun _ => hEmpty⟩

------------------------------------------------------------
-- Streams
------------------------------------------------------------

/- The state with one more stream. -/
structure Opened
    (subdir : Location Str) (w w' : World) : Prop where
  kernel : w'.kernel = w.kernel
  streams : w'.streams = subdir :: w.streams
  followed : w'.followed = w.followed
  failures : w.failures ≤ w'.failures

/- What happens until the stream is closed again is kept. -/
theorem kept_closeStream
    {R : Location Str → Prop} {subdir : Location Str} {w w' w'' : World}
    (hOpened : Opened subdir w w')
    (hKept : Kept v R w' w'') :
    Kept v R w (closeStream fault w'') where
  tree := by
    intro loc
    have hLoc := hKept.tree loc
    rw [hOpened.kernel] at hLoc
    unfold closeStream
    split <;> exact hLoc
  streams := by
    have hTail := congrArg List.tail hKept.streams
    rw [hOpened.streams, List.tail_cons] at hTail
    exact hTail
  followed := by
    have hSame :=
      hKept.followed.trans hOpened.followed
    unfold closeStream
    split <;> exact hSame
  failures := by
    have hMore :=
      hOpened.failures.trans hKept.failures
    unfold closeStream
    split
    · exact hMore.trans (Nat.le_succ _)
    · exact hMore
  sound := by
    intro hSound
    rw [← hOpened.kernel] at hSound
    have hLater := hKept.sound hSound
    unfold closeStream
    split <;> exact hLater

theorem failures_closeStream
    (w : World) :
    w.failures ≤ (closeStream fault w).failures := by
  unfold closeStream
  split
  · exact Nat.le_succ _
  · exact Nat.le_refl _

/- The stream is closed, whether the body returns or throws. -/
theorem ensure_works
    {R : Location Str → Prop} {subdir : Location Str} {w w' : World}
    {body : Routine Unit} {Q : World → Prop}
    (hOpened : Opened subdir w w')
    (hBody : Works v R body w' fun _ w'' => Q w'')
    (hStable : ∀ w'', Q w'' → Q (closeStream fault w'')) :
    (body.ensure (closeStream fault)).Ends w'
      (fun _ w'' => Kept v R w w'' ∧ Q w'')
      fun _ w'' =>
        Kept v R w w'' ∧ w.failures < w''.failures := by
  apply Command.Ends.ensure
  apply Command.Ends.mono hBody
  · intro _ w'' hBoth
    exact
      ⟨kept_closeStream v fault hOpened hBoth.1,
        hStable w'' hBoth.2⟩
  · intro _ w'' hBoth
    refine
      ⟨kept_closeStream v fault hOpened hBoth.1, ?_⟩
    exact
      lt_of_lt_of_le
        (lt_of_le_of_lt hOpened.failures hBoth.2)
        (failures_closeStream fault w'')

theorem tree_closeStream
    {loc : Location Str} {w : World}
    (hNone : w.kernel.tree loc = none) :
    (closeStream fault w).kernel.tree loc = none := by
  unfold closeStream
  split <;> exact hNone

/- `fdopendir` behind the call that opened the directory. -/
theorem fdopendir_ends
    (R : Location Str → Prop) (loc : Location Str)
    (w : World) :
    (fdopendir fault loc).Ends w.called
      (fun _ w' => Opened loc w w')
      fun _ w' => Kept v R w w' ∧ w.failures < w'.failures := by
  apply syscall_ends
  · intro _ w' hAct
    cases hAct
    exact
      { kernel := rfl
        streams := rfl
        followed := rfl
        failures := Nat.le_refl _ }
  · intro _
    exact
      ⟨(kept_called v (Kept.refl v R w)).trans
        (kept_failed v R w.called),
        Nat.lt_succ_self _⟩

/- Opening a child that is not a link opens just this child. -/
theorem openatDirectory_ok
    {w w' : World} {dir loc : Location Str} {name : Str}
    (hNoLink :
      ∀ target,
        w.kernel.tree (name :: dir) ≠ some (.symlink target))
    (hOpen : openatDirectory w dir name = .ok (loc, w')) :
    w' = w ∧ loc = name :: dir ∧
      ∃ access, w.kernel.tree loc =
        some (.directory access) := by
  unfold openatDirectory at hOpen
  cases hTurn :
      turn Access.searchable w.kernel.tree dir (.into name)
    with
  | error e =>
      rw [hTurn] at hOpen
      cases hOpen
  | ok next =>
      rw [hTurn] at hOpen
      rcases exists_directory_of_turn _ hTurn with
        ⟨access, hDir, hMay⟩
      unfold turn at hTurn
      simp only [hDir, if_pos hMay] at hTurn
      cases hEntry : w.kernel.tree (name :: dir) with
      | none =>
          rw [hEntry] at hTurn
          cases hTurn
      | some entry =>
          rw [hEntry] at hTurn
          cases entry with
          | symlink target => exact absurd hEntry (hNoLink target)
          | file kind =>
              cases hTurn
              unfold directoryAt at hOpen
              simp only [hEntry] at hOpen
              cases hOpen
          | directory inner =>
              cases hTurn
              unfold directoryAt at hOpen
              simp only [hEntry] at hOpen
              cases hOpen
              exact ⟨rfl, rfl, inner, hEntry⟩

theorem openAt_ends
    {w : World} {dir : Location Str} {name : Str}
    (hNoLink :
      ∀ target,
        w.kernel.tree (name :: dir) ≠
          some (.symlink target)) :
    (openAt fault dir name).Ends w
      (fun loc w' =>
        loc = name :: dir ∧ Opened loc w w' ∧
          ∃ access, w'.kernel.tree loc =
            some (.directory access))
      fun _ w' =>
        Kept v (Below dir) w w' ∧ w.failures < w'.failures := by
  unfold openAt
  refine
    Command.Ends.bind
      (Q := fun loc w' =>
        loc = name :: dir ∧ w' = w.called ∧
          ∃ access, w.kernel.tree loc =
            some (.directory access))
      ?_ ?_
  · apply syscall_ends
    · intro loc w' hOpen
      rcases openatDirectory_ok hNoLink hOpen with
        ⟨hSame, hLoc, hDirectory⟩
      rw [hSame]
      exact ⟨hLoc, rfl, hDirectory⟩
    · intro _
      exact ⟨kept_failed v (Below dir) w, Nat.lt_succ_self _⟩
  · intro loc w' hOpen
    rcases hOpen with ⟨hLoc, hCalled, hDirectory⟩
    subst hCalled
    refine
      Command.Ends.bind
        (Q := fun _ w'' => Opened loc w w'') ?_ ?_
    · exact fdopendir_ends v fault (Below dir) loc w
    · intro _ w'' hOpened
      apply Command.Ends.pure
      refine ⟨hLoc, hOpened, ?_⟩
      rw [hOpened.kernel]
      exact hDirectory

------------------------------------------------------------
-- The Recursion
------------------------------------------------------------

/-
  What a recursive call has to do for a directory of the
  volume: all that is in it is gone if it returns.
-/
def Removes
    (recurse : Location Str → Routine Unit)
    (dir : Location Str) : Prop :=
  ∀ w, Sound v w.kernel →
    Works v (Below dir) (recurse dir) w fun _ w' =>
      ∀ name, w'.kernel.tree (name :: dir) = none

theorem removeDirectory_works
    {recurse : Location Str → Routine Unit}
    {dir : Location Str} {name : Str} {w : World}
    (hSound : Sound v w.kernel)
    (hNoLink :
      ∀ target,
        w.kernel.tree (name :: dir) ≠ some (.symlink target))
    (hRecurse :
      (∃ access,
        v.kernel.tree (name :: dir) =
          some (.directory access)) →
      Removes v recurse (name :: dir)) :
    Works v (Below dir)
      (removeDirectory v.listing fault recurse dir name) w
      fun _ w' => w'.kernel.tree (name :: dir) = none := by
  unfold removeDirectory
  refine Command.Ends.bind (openAt_ends v fault hNoLink) ?_
  intro subdir w' hOpen
  rcases hOpen with ⟨hSubdir, hOpened, access, hDirectory⟩
  subst hSubdir
  have hSound' : Sound v w'.kernel := by
    rw [hOpened.kernel]
    exact hSound
  have hThere :
      ∃ access,
        v.kernel.tree (name :: dir) =
          some (.directory access) :=
    ⟨access, hSound'.extends_ _ _ hDirectory⟩
  apply ensure_works v fault hOpened
  · refine Works.bind 
      ((hRecurse hThere w' hSound').widen
        fun _ => below_of_below_child)
      ?_
    intro _ w'' hKept _
    exact
      removeDirAt_works v fault dir name w''
        (hKept.sound hSound')
  · intro w'' hNone
    exact tree_closeStream fault hNone

/- A link is not taken for a directory. -/
theorem no_link_of_directory
    {k : Kernel} {loc : Location Str} {entry : FsEntry}
    (hEntry : k.tree loc = some entry)
    (hDirectory : entry.isDirectory = true) :
    ∀ target, k.tree loc ≠ some (.symlink target) := by
  intro target hLink
  rw [hEntry] at hLink
  cases hLink
  cases hDirectory

theorem removeEntry_works
    {recurse : Location Str → Routine Unit}
    {dir : Location Str} {entry : DirEntry} {w : World}
    (hSound : Sound v w.kernel)
    (hMem : entry ∈ v.listing dir)
    (hRecurse :
      (∃ access,
        v.kernel.tree (entry.name :: dir) =
          some (.directory access)) →
      Removes v recurse (entry.name :: dir)) :
    Works v (Below dir)
      (removeEntry v.listing fault recurse dir entry) w
      fun _ w' =>
        w'.kernel.tree (entry.name :: dir) = none := by
  have hType := v.typed dir entry hMem
  unfold removeEntry
  cases hCase : entry.type with
  | unknown =>
      refine
        Works.bind
          (Q := fun isDirectory w' =>
            isDirectory = true →
              ∀ target,
                w'.kernel.tree (entry.name :: dir) ≠
                  some (.symlink target))
          ?_ ?_
      · apply syscall_works
        intro isDirectory w' hStat
        cases hEntry : w.kernel.tree (entry.name :: dir) with
        | none =>
            rw [hEntry] at hStat
            cases hStat
        | some found =>
            rw [hEntry] at hStat
            cases hStat
            refine ⟨Kept.refl v (Below dir) w, ?_⟩
            intro hDirectory
            exact no_link_of_directory hEntry hDirectory
      · intro isDirectory w' hKept hNoLink
        by_cases hDirectory : isDirectory = true
        · rw [if_pos hDirectory]
          exact
            removeDirectory_works v fault
              (hKept.sound hSound) (hNoLink hDirectory)
              hRecurse
        · rw [if_neg hDirectory]
          exact unlinkFileAt_works v fault dir entry.name w'
  | directory =>
      apply removeDirectory_works v fault hSound ?_ hRecurse
      intro target hLink
      rcases hType with hUnknown | hKnown
      · rw [hCase] at hUnknown
        cases hUnknown
      · have hEq :=
          hKnown _ (hSound.extends_ _ _ hLink)
        rw [hCase] at hEq
        cases hEq
  | blockDevice =>
      exact unlinkFileAt_works v fault dir entry.name w
  | charDevice =>
      exact unlinkFileAt_works v fault dir entry.name w
  | fifo =>
      exact unlinkFileAt_works v fault dir entry.name w
  | symlink =>
      exact unlinkFileAt_works v fault dir entry.name w
  | regular =>
      exact unlinkFileAt_works v fault dir entry.name w
  | unixSocket =>
      exact unlinkFileAt_works v fault dir entry.name w

/- The entries of the stream are listed for the directory. -/
theorem visit_works
    {recurse : Location Str → Routine Unit}
    {dir : Location Str} {entry : DirEntry} {w : World}
    (hSound : Sound v w.kernel)
    (hMem : entry ∈ v.listing dir)
    (hRecurse :
      ∀ name,
        (∃ access,
          v.kernel.tree (name :: dir) =
            some (.directory access)) →
        Removes v recurse (name :: dir)) :
    Works v (Below dir) (visit v.listing fault recurse dir entry) w
      fun _ w' =>
        entry.isDotEntry = false →
          w'.kernel.tree (entry.name :: dir) = none := by
  unfold visit
  refine Works.bind (unchanged_works v fault (Below dir) _ w) ?_
  intro _ w' hKept _
  cases hDot : entry.isDotEntry with
  | true =>
      rw [if_pos rfl]
      apply Works.pure
      intro hFalse
      cases hFalse
  | false =>
      rw [if_neg Bool.false_ne_true]
      apply
        Works.mono
          (removeEntry_works v fault (hKept.sound hSound)
            hMem (hRecurse entry.name))
      intro _ w'' _ hNone _
      exact hNone

/- The entries of the stream when it is rewound. -/
def snapshot (dir : Location Str) (w : World) :
    List DirEntry :=
  (v.listing dir).filter fun entry =>
    entry.isDotEntry ||
      (w.kernel.tree (entry.name :: dir)).isSome

/- The loop removes all that it was told of. -/
theorem visits_work
    {recurse : Location Str → Routine Unit}
    {dir : Location Str} {w : World}
    (hSound : Sound v w.kernel)
    (hRecurse :
      ∀ name,
        (∃ access,
          v.kernel.tree (name :: dir) =
            some (.directory access)) →
        Removes v recurse (name :: dir)) :
    Works v (Below dir)
      (Command.forEach
        (visit v.listing fault recurse dir)
        (snapshot v dir w))
      w fun _ w' =>
        ∀ entry ∈ snapshot v dir w,
          entry.isDotEntry = false →
            w'.kernel.tree (entry.name :: dir) = none := by
  have hStart :
      Kept v (Below dir) w w ∧
        ∀ entry ∈ ([] : List DirEntry),
          entry.isDotEntry = false →
            w.kernel.tree (entry.name :: dir) = none := by
    refine ⟨Kept.refl v (Below dir) w, ?_⟩
    intro entry hMem
    exact absurd hMem List.not_mem_nil
  refine
    Command.Ends.forEach
      (I := fun done w' =>
        Kept v (Below dir) w w' ∧
          ∀ entry ∈ done, entry.isDotEntry = false →
            w'.kernel.tree (entry.name :: dir) = none)
      (snapshot v dir w) hStart ?_
  · intro before entry rest w' hSplit hInvariant
    rcases hInvariant with ⟨hKept, hDone⟩
    have hIn : entry ∈ snapshot v dir w := by
      rw [List.nil_append] at hSplit
      rw [hSplit]
      simp
    have hListed : entry ∈ v.listing dir :=
      List.mem_of_mem_filter hIn
    apply
      Command.Ends.mono
        (Works.after hKept
          (visit_works v fault (hKept.sound hSound) hListed
            hRecurse |>.mono fun _ w'' hStep hNone =>
              (⟨hStep, hNone⟩ :
                Kept v (Below dir) w' w'' ∧
                  (entry.isDotEntry = false →
                    w''.kernel.tree (entry.name :: dir) =
                      none))))
    · intro _ w'' hBoth
      rcases hBoth with ⟨hAll, hStep, hNone⟩
      refine ⟨hAll, ?_⟩
      intro other hMem hDot
      rcases List.mem_append.mp hMem with hBefore | hHere
      · exact hStep.none (hDone other hBefore hDot)
      · rw [List.mem_singleton.mp hHere] at hDot ⊢
        exact hNone hDot
    · intro _ _ hBoth
      exact hBoth

/- A directory whose listed entries are gone is empty. -/
theorem empty_of_snapshot
    {dir : Location Str} {w w' : World}
    (hSound : Sound v w.kernel) (hKept : Kept v (Below dir) w w')
    (hGone :
      ∀ entry ∈ snapshot v dir w,
        entry.isDotEntry = false →
          w'.kernel.tree (entry.name :: dir) = none) :
    ∀ name, w'.kernel.tree (name :: dir) = none := by
  intro name
  by_contra hLeft
  have hThen : w.kernel.tree (name :: dir) ≠ none := by
    intro hNone
    exact hLeft (hKept.none hNone)
  have hFirst : v.kernel.tree (name :: dir) ≠ none := by
    rcases Option.ne_none_iff_exists'.mp hThen with
      ⟨found, hFound⟩
    rw [hSound.extends_ _ found hFound]
    exact Option.some_ne_none found
  rcases v.listed name dir hFirst with
    ⟨entry, hMem, hName⟩
  have hSome :
      (w.kernel.tree (entry.name :: dir)).isSome = true := by
    rw [hName]
    exact Option.isSome_iff_ne_none.mpr hThen
  have hIn : entry ∈ snapshot v dir w := by
    apply List.mem_filter.mpr
    refine ⟨hMem, ?_⟩
    rw [hSome, Bool.or_true]
  have hDot : entry.isDotEntry = false := by
    apply isDotEntry_eq_false
    rw [hName]
    exact v.named name dir hFirst
  apply hLeft
  rw [← hName]
  exact hGone entry hIn hDot

theorem removeContent_removes
    {recurse : Location Str → Routine Unit}
    {dir : Location Str}
    (hRecurse :
      ∀ name,
        (∃ access,
          v.kernel.tree (name :: dir) =
            some (.directory access)) →
        Removes v recurse (name :: dir)) :
    Removes v (removeContent v.listing fault recurse)
      dir := by
  intro w hSound
  unfold removeContent
  refine Works.bind (unchanged_works v fault (Below dir) _ w) ?_
  intro _ w₁ hFd _
  have hSound₁ := hFd.sound hSound
  refine
    Works.bind
      (Q := fun entries w' =>
        w' = w₁ ∧ entries = snapshot v dir w₁)
      ?_ ?_
  · exact
      Command.Ends.of_returned rfl
        ⟨Kept.refl v (Below dir) w₁, rfl, rfl⟩
  · intro entries w' _ hRewound
    rcases hRewound with ⟨hSame, hEntries⟩
    subst hSame hEntries
    refine
      Works.bind
        (visits_work v fault hSound₁ hRecurse |>.mono
          fun _ w'' hKept hGone =>
            empty_of_snapshot v hSound₁ hKept hGone)
        ?_
    intro _ w'' _ hEmpty
    apply
      Works.mono (unchanged_works v fault (Below dir) _ w'')
    intro _ w''' hKept _ name
    exact hKept.none (hEmpty name)

/-
  Enough fuel for the depth of the tree is never used up, so
  the recursion ends.
-/
theorem removeStream_removes (fuel : Nat) :
    ∀ {dir : Location Str},
      (∃ access,
        v.kernel.tree dir = some (.directory access)) →
      v.depth < fuel + dir.length →
      Removes v (removeStream v.listing fault fuel) dir := by
  induction fuel with
  | zero =>
      intro dir hDirectory hFuel
      rcases hDirectory with ⟨access, hDir⟩
      have hBound :=
        v.bounded dir (by rw [hDir]; exact Option.some_ne_none _)
      omega
  | succ fuel ih =>
      intro dir _ hFuel
      apply removeContent_removes v fault
      intro name hChild
      apply ih hChild
      rw [List.length_cons]
      omega

------------------------------------------------------------
-- The Path
------------------------------------------------------------

theorem directoryAt_ok
    {k : Kernel} {loc root : Location Str}
    (hOk : directoryAt k loc = .ok root) :
    root = loc ∧
      ∃ access, k.tree root = some (.directory access) := by
  unfold directoryAt at hOk
  cases hEntry : k.tree loc with
  | none =>
      rw [hEntry] at hOk
      cases hOk
  | some entry =>
      rw [hEntry] at hOk
      cases entry with
      | symlink target => cases hOk
      | file kind => cases hOk
      | directory access =>
          cases hOk
          exact ⟨rfl, access, hEntry⟩

theorem map_directoryAt_ok
    {k : Kernel} {loc root : Location Str}
    {links links' : List (Location Str)}
    (hOk :
      ((directoryAt k loc).map fun loc => (loc, links)) =
        .ok (root, links')) :
    root = loc ∧ links' = links ∧
      ∃ access, k.tree root = some (.directory access) := by
  cases hEntry : directoryAt k loc with
  | error e =>
      rw [hEntry] at hOk
      cases hOk
  | ok there =>
      rw [hEntry] at hOk
      cases hOk
      rcases directoryAt_ok hEntry with ⟨hLoc, hDirectory⟩
      exact ⟨hLoc, rfl, hDirectory⟩

/-
  What `::open` opens: with a slash at the end all components
  are followed, else it is what the last one names.
-/
theorem openDirectory_ok
    {k : Kernel} {path : Str} {root : Location Str}
    {links : List (Location Str)}
    (hOpen : openDirectory k path = .ok (root, links)) :
    (∃ access, k.tree root = some (.directory access)) ∧
      ((path.getLast? = some slash ∧
          (∃ left,
            k.resolve (k.origin (parse path))
                (parse path).steps =
              .ok (left, root)) ∧
          links =
            (treeAt k path).toList.flatMap (linksAt k)) ∨
        (path.getLast? ≠ some slash ∧ links = [] ∧
          ∃ last left parent,
            (parse path).steps.getLast? = some last ∧
            k.resolve (k.origin (parse path))
                (parse path).steps.dropLast =
              .ok (left, parent) ∧
            turn Access.searchable k.tree parent last =
              .ok (.place root))) := by
  unfold openDirectory at hOpen
  simp only at hOpen
  split at hOpen
  · next hSlash =>
      split at hOpen
      · cases hOpen
      · next left loc hWalk =>
          rcases map_directoryAt_ok hOpen with
            ⟨hLoc, hLinks, hDirectory⟩
          subst hLoc
          exact
            ⟨hDirectory, Or.inl ⟨hSlash, ⟨left, hWalk⟩, hLinks⟩⟩
  · next hSlash =>
      split at hOpen
      · cases hOpen
      · next last hLast =>
          split at hOpen
          · cases hOpen
          · next left parent hParent =>
              split at hOpen
              · cases hOpen
              · next loc hTurn =>
                  rcases map_directoryAt_ok hOpen with
                    ⟨hLoc, hLinks, hDirectory⟩
                  subst hLoc
                  exact
                    ⟨hDirectory,
                      Or.inr
                        ⟨hSlash, hLinks, last, left, parent,
                          hLast, hParent, hTurn⟩⟩
              · cases hOpen

/- What `::open` opens is a directory. -/
theorem openDirectory_directory
    {k : Kernel} {path : Str} {root : Location Str}
    {links : List (Location Str)}
    (hOpen : openDirectory k path = .ok (root, links)) :
    ∃ access, k.tree root = some (.directory access) :=
  (openDirectory_ok hOpen).1

/- The tree at a path with a last component. -/
theorem treeAt_eq
    {k : Kernel} {path : Str} {last : Step Str} {left : Nat}
    {parent : Location Str}
    (hLast : (parse path).steps.getLast? = some last)
    (hParent :
      k.resolve (k.origin (parse path))
          (parse path).steps.dropLast =
        .ok (left, parent)) :
    treeAt k path = some (last.leads parent) := by
  unfold treeAt
  simp only [hLast, hParent]

/-
  `::open` opens the root of the tree at the path, or what a
  link there leads to.
-/
theorem openDirectory_root
    {k : Kernel} {path : Str} {root : Location Str}
    {links : List (Location Str)}
    (hOpen : openDirectory k path = .ok (root, links)) :
    (links = [] ∧ treeAt k path = some root) ∨
      ∃ link target,
        links = [link] ∧ path.getLast? = some slash ∧
        treeAt k path = some link ∧
        k.tree link = some (.symlink target) := by
  rcases openDirectory_ok hOpen with
    ⟨⟨access, hDirectory⟩,
      ⟨hSlash, ⟨left, hWalk⟩, hLinks⟩ |
      ⟨-, hLinks, last, left, parent, hLast, hParent, hTurn⟩⟩
  · cases hLast : (parse path).steps.getLast? with
    | none =>
        have hSteps := List.getLast?_eq_none_iff.mp hLast
        rw [hSteps] at hWalk
        unfold Kernel.resolve at hWalk
        rw [walk_nil] at hWalk
        cases hWalk
        have hPath : path ≠ [] := by
          rintro rfl
          cases hSlash
        have hTree :
            treeAt k path = some (k.origin (parse path)) := by
          unfold treeAt
          simp only [hLast, if_neg hPath]
        left
        refine ⟨?_, hTree⟩
        rw [hLinks, hTree]
        unfold linksAt
        simp [hDirectory]
    | some last =>
        have hSteps :
            (parse path).steps =
              (parse path).steps.dropLast ++ [last] :=
          (List.dropLast_append_getLast? last hLast).symm
        unfold Kernel.resolve at hWalk
        rw [hSteps] at hWalk
        rcases exists_walk_of_append _ hWalk with
          ⟨⟨more, parent⟩, hParent, hEnd⟩
        have hTree := treeAt_eq hLast hParent
        rcases walk_singleton_leads _ hEnd with
          hRoot | ⟨target, hLink⟩
        · have hSame : root = last.leads parent := hRoot
          rw [← hSame] at hTree
          left
          refine ⟨?_, hTree⟩
          rw [hLinks, hTree]
          unfold linksAt
          simp [hDirectory]
        · right
          refine
            ⟨last.leads parent, target, ?_, hSlash, hTree,
              hLink⟩
          rw [hLinks, hTree]
          unfold linksAt
          simp [hLink]
  · left
    refine ⟨hLinks, ?_⟩
    rw [treeAt_eq hLast hParent,
      eq_leads_of_turn_place _ hTurn]

/-
  If the last component names a directory then `::open` opens
  this directory, with a slash at the end or without.
-/
theorem openDirectory_eq
    {k : Kernel} {path name : Str} {left : Nat}
    {parent root : Location Str} {access : Access}
    {links : List (Location Str)}
    (hLast : (parse path).steps.getLast? = some (.into name))
    (hParent :
      k.resolve (k.origin (parse path))
          (parse path).steps.dropLast =
        .ok (left, parent))
    (hDirectory :
      k.tree (name :: parent) = some (.directory access))
    (hOpen : openDirectory k path = .ok (root, links)) :
    root = name :: parent := by
  have hTree :
      treeAt k path = some (name :: parent) :=
    treeAt_eq hLast hParent
  rcases openDirectory_root hOpen with
    ⟨-, hRoot⟩ | ⟨link, target, -, -, hLink, hEntry⟩
  · rw [hTree] at hRoot
    injection hRoot with hSame
    exact hSame.symm
  · rw [hTree] at hLink
    cases hLink
    rw [hDirectory] at hEntry
    cases hEntry

/- What `::rmdir` removes is what `::open` opened. -/
theorem rmdir_ok
    {k k' : Kernel} {path : Str} {root : Location Str}
    {links : List (Location Str)}
    (hSound : Sound v k)
    (hOpen : openDirectory v.kernel path = .ok (root, links))
    (hRemoved : rmdir v.listing k path = .ok k') :
    ∃ name parent, root = name :: parent ∧
      k' =
        { k with
          tree :=
            Function.update k.tree (name :: parent) none } ∧
      ∀ inner, k.tree (inner :: name :: parent) = none := by
  unfold rmdir at hRemoved
  simp only at hRemoved
  split at hRemoved
  · cases hRemoved
  · cases hRemoved
  · cases hRemoved
  · next name hLast =>
      split at hRemoved
      · cases hRemoved
      · next left parent hParent =>
          rcases removeDirIn_ok v hSound hRemoved with
            ⟨hK, ⟨access, hDirectory⟩, hEmpty⟩
          have hOrigin :
              k.origin (parse path) =
                v.kernel.origin (parse path) := by
            unfold Kernel.origin
            rw [hSound.cwd]
          unfold Kernel.resolve at hParent
          rw [hOrigin] at hParent
          have hFirst :=
            walk_mono _ hSound.extends_ hParent
          exact
            ⟨name, parent,
              openDirectory_eq hLast hFirst
                (hSound.extends_ _ _ hDirectory) hOpen,
              hK, hEmpty⟩

theorem removeDir_works
    {path : Str} {root : Location Str}
    {links : List (Location Str)} {w : World}
    (hSound : Sound v w.kernel)
    (hOpen : openDirectory v.kernel path = .ok (root, links)) :
    Works v (Under root) (removeDir v.listing fault path) w
      fun _ w' => w'.kernel.tree root = none := by
  cases root with
  | nil =>
      apply syscall_works
      intro _ w' hStep
      cases hRemoved : rmdir v.listing w.kernel path with
      | error e =>
          simp only [hRemoved] at hStep
          cases hStep
      | ok k =>
          rcases rmdir_ok v hSound hOpen hRemoved with
            ⟨name, parent, hRoot, -⟩
          cases hRoot
  | cons name parent =>
      apply
        modifyFs_works v fault
          (R := Under (name :: parent))
          (List.suffix_refl (name :: parent))
      intro k hRemoved
      rcases rmdir_ok v hSound hOpen hRemoved with
        ⟨other, loc, hRoot, hK, hEmpty⟩
      cases hRoot
      exact ⟨hK, fun _ => hEmpty⟩

------------------------------------------------------------
-- The Whole Function
------------------------------------------------------------

/- The state before the call. -/
def start : World where
  kernel := v.kernel
  calls := 0
  failures := 0
  streams := []
  followed := []

theorem sound_start : Sound v (start v).kernel where
  extends_ := Extends.refl _
  closed := v.closed
  cwd := rfl

theorem closeIgnored_ends
    {R : Location Str → Prop} {ex : Exn} {w w' : World}
    (hKept : Kept v R w w')
    (hFailed : w.failures < w'.failures)
    {Q : Unit → World → Prop} :
    (do
      closeIgnored fault
      Command.raise ex : Routine Unit).Ends w' Q
      fun _ w'' =>
        Kept v R w w'' ∧ w.failures < w''.failures := by
  have hClosed :
      (closeIgnored fault).Ends w'
        (fun _ w'' =>
          Kept v R w w'' ∧ w.failures < w''.failures)
        fun _ w'' =>
          Kept v R w w'' ∧ w.failures < w''.failures := by
    refine Command.Ends.of_returned rfl ?_
    simp only
    split
    · exact
        ⟨hKept.trans (kept_failed v R w'),
          lt_trans hFailed (Nat.lt_succ_self _)⟩
    · exact ⟨kept_called v hKept, hFailed⟩
  apply Command.Ends.bind hClosed
  intro _ w'' hBoth
  exact Command.Ends.raise hBoth

/- The `::open` of a path does not fail. -/
def Opens
    (path : Str) (w : World) (root : Location Str)
    (links : List (Location Str)) : Prop :=
  fault w.calls = none ∧
    openDirectory w.kernel path = .ok (root, links)

/- The links that `::open` gets through. -/
def linksThrough (path : Str) (w : World) :
    List (Location Str) :=
  match fault w.calls, openDirectory w.kernel path with
  | none, .ok (_, links) => links
  | _, _ => []

theorem linksThrough_eq
    {path : Str} {w : World} {root : Location Str}
    {links : List (Location Str)}
    (hOpens : Opens fault path w root links) :
    linksThrough fault path w = links := by
  rcases hOpens with ⟨hFault, hOpen⟩
  unfold linksThrough
  simp only [hFault, hOpen]

/- The state with the links that `::open` gets through. -/
def reached (path : Str) (w : World) : World :=
  { w with followed := linksThrough fault path w ++ w.followed }

/- `::open` itself, which can fail before it gets anywhere. -/
theorem openCall_ends
    {R : Location Str → Prop} (path : Str) (w : World) :
    (openCall fault path).Ends w
      (fun loc w' =>
        (∃ links, Opens fault path w loc links) ∧
          w' = (reached fault path w).called)
      fun _ w' =>
        Kept v R (reached fault path w) w' ∧
          w.failures < w'.failures := by
  cases hFault : fault w.calls with
  | some e =>
      have hSame : reached fault path w = w := by
        unfold reached linksThrough
        simp only [hFault, List.nil_append]
      have hFailed :
          Kept v R (reached fault path w) w.failed ∧
            w.failures < w.failed.failures := by
        rw [hSame]
        exact ⟨kept_failed v R w, Nat.lt_succ_self _⟩
      have hRun :
          (openCall fault path).run w =
            (.raised (apiError "open(O_DIRECTORY)" e),
              w.failed) := by
        unfold openCall syscall
        simp only [hFault]
      exact Command.Ends.of_raised hRun hFailed
  | none =>
      cases hOpen : openDirectory w.kernel path with
      | error e =>
          have hSame : reached fault path w = w := by
            unfold reached linksThrough
            simp only [hFault, hOpen, List.nil_append]
          apply syscall_ends
          · intro loc w' hAct
            rw [hOpen] at hAct
            cases hAct
          · intro _
            rw [hSame]
            exact ⟨kept_failed v R w, Nat.lt_succ_self _⟩
      | ok opened =>
          rcases opened with ⟨root, links⟩
          have hOpens : Opens fault path w root links :=
            ⟨hFault, hOpen⟩
          have hRun :
              (openCall fault path).run w =
                (.returned root,
                  (reached fault path w).called) := by
            unfold openCall syscall reached
            simp only [hFault, hOpen, Except.map,
              linksThrough_eq fault hOpens]
          exact
            Command.Ends.of_returned hRun
              ⟨⟨links, hOpens⟩, rfl⟩

theorem openPath_ends
    {R : Location Str → Prop} (path : Str) (w : World) :
    (openPath fault path).Ends w
      (fun loc w' =>
        (∃ links, Opens fault path w loc links) ∧
          Opened loc (reached fault path w) w')
      fun _ w' =>
        Kept v R (reached fault path w) w' ∧
          w.failures < w'.failures := by
  unfold openPath
  refine
    Command.Ends.bind (openCall_ends v fault path w) ?_
  intro loc w' hOpen
  rcases hOpen with ⟨hOpen, hCalled⟩
  subst hCalled
  refine
    Command.Ends.bind
      (Q := fun _ w'' =>
        Opened loc (reached fault path w) w'') ?_ ?_
  · refine
      Command.Ends.handle
        (E := fun _ w'' =>
          Kept v R (reached fault path w) w'' ∧
            w.failures < w''.failures)
        ?_ ?_
    · exact
        fdopendir_ends v fault R loc (reached fault path w)
    · intro ex w'' hBoth
      exact closeIgnored_ends v fault hBoth.1 hBoth.2
  · intro _ w'' hOpened
    exact Command.Ends.pure ⟨hOpen, hOpened⟩

/- What is in the directory that `::open` opens at the start. -/
def InOpened (path : Str) (loc : Location Str) : Prop :=
  ∃ root links,
    Opens fault path (start v) root links ∧ Under root loc

/-
  From the start to the end only entries of the directory
  that was opened go away, and itself if the call returns.
  The links followed are those of the first `::open`.
-/
theorem removeTree_ends (extra : Nat) (path : Str) :
    (removeTree v.listing fault (v.depth + 1 + extra)
      path).Ends (start v)
      (fun _ w' =>
        Kept v (InOpened v fault path)
            (reached fault path (start v)) w' ∧
          ∃ root links,
            Opens fault path (start v) root links ∧
              w'.kernel.tree root = none)
      fun _ w' =>
        Kept v (InOpened v fault path)
            (reached fault path (start v)) w' ∧
          0 < w'.failures := by
  unfold removeTree
  refine
    Command.Ends.bind (openPath_ends v fault path (start v))
      ?_
  intro root w' hBoth
  rcases hBoth with ⟨⟨links, hOpens⟩, hOpened⟩
  have hOpen :
      openDirectory v.kernel path = .ok (root, links) :=
    hOpens.2
  have hSound : Sound v w'.kernel := by
    rw [hOpened.kernel]
    exact sound_start v
  have hIn :
      ∀ loc, Under root loc → InOpened v fault path loc :=
    fun loc hUnder => ⟨root, links, hOpens, hUnder⟩
  have hBody :
      Works v (Under root)
        (do
          removeStream v.listing fault
            (v.depth + 1 + extra) root
          removeDir v.listing fault path)
        w' fun _ w'' => w''.kernel.tree root = none := by
    have hContent :=
      removeStream_removes v fault (v.depth + 1 + extra)
        (openDirectory_directory hOpen) (by omega) w' hSound
    refine
      Works.bind
        (hContent.widen fun loc hBelow => hBelow.1) ?_
    intro _ w'' hKept _
    exact
      removeDir_works v fault (hKept.sound hSound) hOpen
  apply
    Command.Ends.mono
      (ensure_works v fault hOpened hBody fun w'' hGone =>
        tree_closeStream fault hGone)
  · intro _ w'' hAll
    exact
      ⟨hAll.1.widen hIn, root, links, hOpens, hAll.2⟩
  · intro _ w'' hAll
    exact ⟨hAll.1.widen hIn, hAll.2⟩

/-
  All that is below the root is gone before the root itself
  is removed.
-/
theorem removeStream_empties
    {extra : Nat} {path : Str} {root : Location Str}
    {w₁ w₂ : World}
    (hOpen :
      (openPath fault path).run (start v) =
        (.returned root, w₁))
    (hRun :
      (removeStream v.listing fault (v.depth + 1 + extra)
        root).run w₁ =
        (.returned (), w₂)) :
    (∃ links, Opens fault path (start v) root links) ∧
      ∀ loc, Below root loc → w₂.kernel.tree loc = none := by
  have hOpened :
      (∃ links, Opens fault path (start v) root links) ∧
        Opened root (reached fault path (start v)) w₁ := by
    have hEnds :=
      openPath_ends v fault (R := Under root) path (start v)
    unfold Command.Ends at hEnds
    rw [hOpen] at hEnds
    exact hEnds
  rcases hOpened with ⟨⟨links, hOpens⟩, hOpened⟩
  refine ⟨⟨links, hOpens⟩, ?_⟩
  intro loc hBelow
  have hSound : Sound v w₁.kernel := by
    rw [hOpened.kernel]
    exact sound_start v
  have hEnds :=
    removeStream_removes v fault (v.depth + 1 + extra)
      (openDirectory_directory hOpens.2) (by omega) w₁
      hSound
  unfold Works Command.Ends at hEnds
  rw [hRun] at hEnds
  rcases hEnds with ⟨hKept, hEmpty⟩
  rcases hBelow with ⟨⟨names, hNames⟩, hNe⟩
  rcases List.eq_nil_or_concat names with
    hNil | ⟨inner, name, hConcat⟩
  · rw [hNil] at hNames
    exact absurd hNames.symm hNe
  · have hUnder : name :: root <:+ loc := by
      refine ⟨inner, ?_⟩
      rw [← hNames, hConcat, List.concat_eq_append,
        List.append_assoc]
      rfl
    exact
      (hKept.sound hSound).closed.none_under (hEmpty name)
        hUnder

/-
  The last component of a path with a slash at its end is a
  link to a directory, so that `::open` gets through it.
-/
structure LeadsThrough (k : Kernel) (path : Str) : Prop where
  slash_at_end : path.getLast? = some slash
  link :
    ∃ loc target, treeAt k path = some loc ∧
      k.tree loc = some (.symlink target)
  directory :
    ∃ left loc access,
      k.resolve (k.origin (parse path)) (parse path).steps =
          .ok (left, loc) ∧
        k.tree loc = some (.directory access)

/- No link is followed, or the first system call follows it. -/
theorem linksThrough_eq_nil_iff (path : Str) (w : World) :
    linksThrough fault path w = [] ↔
      ¬ (fault w.calls = none ∧
        LeadsThrough w.kernel path) := by
  constructor
  · rintro hNone
      ⟨hFault, hSlash, ⟨link, target, hTree, hLink⟩,
        ⟨left, loc, access, hWalk, hDirectory⟩⟩
    have hLinks : linksAt w.kernel link = [link] := by
      unfold linksAt
      rw [hLink]
    have hOpen :
        openDirectory w.kernel path = .ok (loc, [link]) := by
      unfold openDirectory directoryAt
      simp only [if_pos hSlash, hWalk, hDirectory, hTree,
        Except.map, Option.toList_some,
        List.flatMap_singleton, hLinks]
    rw [linksThrough_eq fault ⟨hFault, hOpen⟩] at hNone
    cases hNone
  · intro hNot
    cases hFault : fault w.calls with
    | some e =>
        unfold linksThrough
        simp only [hFault]
    | none =>
        cases hOpen : openDirectory w.kernel path with
        | error e =>
            unfold linksThrough
            simp only [hFault, hOpen]
        | ok opened =>
            rcases opened with ⟨root, links⟩
            rw [linksThrough_eq fault ⟨hFault, hOpen⟩]
            rcases openDirectory_root hOpen with
              ⟨hNone, -⟩ |
              ⟨link, target, hLinks, hSlash, hTree, hLink⟩
            · exact hNone
            · exfalso
              apply hNot
              refine
                ⟨hFault, hSlash, ⟨link, target, hTree, hLink⟩,
                  ?_⟩
              rcases openDirectory_ok hOpen with
                ⟨⟨access, hDirectory⟩,
                  ⟨-, ⟨left, hWalk⟩, -⟩ | ⟨hNo, -⟩⟩
              · exact
                  ⟨left, root, access, hWalk, hDirectory⟩
              · exact absurd hSlash hNo

/- Without a link the tree at the path is opened. -/
theorem treeAt_of_opens
    {path : Str} {w : World} {root : Location Str}
    {links : List (Location Str)}
    (hOpens : Opens fault path w root links)
    (hNone : linksThrough fault path w = []) :
    treeAt w.kernel path = some root := by
  rw [linksThrough_eq fault hOpens] at hNone
  rcases openDirectory_root hOpens.2 with
    ⟨-, hTree⟩ | ⟨link, target, hLinks, -⟩
  · exact hTree
  · rw [hNone] at hLinks
    cases hLinks

end Proofs

/-
  What `remove_tree` is for, told by its outcome and by the
  state afterwards.
-/
structure Removed
    (v : Volume) (fault : Nat → Option Errno)
    (fuel : Nat) (path : Str)
    (result : Outcome Stop Exn Unit × World) : Prop where
  terminates : ∀ stop, result.1 ≠ .halted stop
  closed : result.2.streams = []
  followed : result.2.followed = []
  frame :
    ∀ loc,
      (∀ root, treeAt v.kernel path = some root →
        ¬ Under root loc) →
      result.2.kernel.tree loc = v.kernel.tree loc
  only_removed :
    ∀ loc,
      result.2.kernel.tree loc = v.kernel.tree loc ∨
        result.2.kernel.tree loc = none
  complete :
    result.1 = .returned () →
      ∃ root, treeAt v.kernel path = some root ∧
        ∀ loc, Under root loc →
          result.2.kernel.tree loc = none
  emptied :
    ∀ root w₁ w₂,
      (openPath fault path).run (start v) =
          (.returned root, w₁) →
      (removeStream v.listing fault fuel root).run w₁ =
          (.returned (), w₂) →
      treeAt v.kernel path = some root ∧
        ∀ loc, Below root loc → w₂.kernel.tree loc = none
  returns :
    result.2.failures = 0 → result.1 = .returned ()

section Outcomes

variable
    {v : Volume} {fault : Nat → Option Errno}
    {path : Str} {w : World}

/- What is kept from the start, as the purpose says it. -/
theorem Kept.frame
    (hKept :
      Kept v (InOpened v fault path)
        (reached fault path (start v)) w)
    (hNone : linksThrough fault path (start v) = [])
    (loc : Location Str)
    (hOutside :
      ∀ root, treeAt v.kernel path = some root →
        ¬ Under root loc) :
    w.kernel.tree loc = v.kernel.tree loc := by
  rcases hKept.tree loc with
    hSame | ⟨-, root, links, hOpens, hUnder⟩
  · exact hSame
  · have hTree := treeAt_of_opens fault hOpens hNone
    exact absurd hUnder (hOutside root hTree)

theorem Kept.only_removed
    (hKept :
      Kept v (InOpened v fault path)
        (reached fault path (start v)) w)
    (loc : Location Str) :
    w.kernel.tree loc = v.kernel.tree loc ∨
      w.kernel.tree loc = Option.none := by
  rcases hKept.tree loc with hSame | ⟨hGone, -⟩
  · exact Or.inl hSame
  · exact Or.inr hGone

theorem Kept.followed_start
    (hKept :
      Kept v (InOpened v fault path)
        (reached fault path (start v)) w) :
    w.followed = linksThrough fault path (start v) :=
  hKept.followed.trans (List.append_nil _)

end Outcomes

/- The links followed are those of the first `::open`. -/
theorem followed_removeTree
    (v : Volume) (fault : Nat → Option Errno)
    (extra : Nat) (path : Str) :
    ((removeTree v.listing fault (v.depth + 1 + extra)
        path).run (start v)).2.followed =
      linksThrough fault path (start v) := by
  rcases (removeTree_ends v fault extra path).cases with
    ⟨_, w', hRun, hKept, -⟩ | ⟨ex, w', hRun, hKept, -⟩
  · rw [hRun]
    exact hKept.followed_start
  · rw [hRun]
    exact hKept.followed_start

/- All holds if no link is followed. -/
theorem removed_of_linksThrough
    {v : Volume} {fault : Nat → Option Errno} {path : Str}
    (extra : Nat)
    (hNone : linksThrough fault path (start v) = []) :
    Removed v fault (v.depth + 1 + extra) path
      ((removeTree v.listing fault (v.depth + 1 + extra)
        path).run (start v)) := by
  have hEmptied :
      ∀ root w₁ w₂,
        (openPath fault path).run (start v) =
            (.returned root, w₁) →
        (removeStream v.listing fault
            (v.depth + 1 + extra) root).run w₁ =
            (.returned (), w₂) →
        treeAt v.kernel path = some root ∧
          ∀ loc, Below root loc →
            w₂.kernel.tree loc = none := by
    intro root w₁ w₂ hOpen hRun
    rcases removeStream_empties v fault hOpen hRun with
      ⟨⟨links, hOpens⟩, hEmpty⟩
    exact ⟨treeAt_of_opens fault hOpens hNone, hEmpty⟩
  rcases (removeTree_ends v fault extra path).cases with
    ⟨_, w', hRun, hKept, root, links, hOpens, hGone⟩ |
    ⟨ex, w', hRun, hKept, hFailed⟩
  · rw [hRun]
    refine
      { terminates := ?_
        closed := hKept.streams
        followed := hKept.followed_start.trans hNone
        frame := hKept.frame hNone
        only_removed := hKept.only_removed
        complete := ?_
        emptied := hEmptied
        returns := fun _ => rfl }
    · intro stop hHalted
      cases hHalted
    · intro _
      refine ⟨root, treeAt_of_opens fault hOpens hNone, ?_⟩
      intro loc hUnder
      have hClosed :=
        (hKept.sound (sound_start v)).closed
      exact hClosed.none_under hGone hUnder
  · rw [hRun]
    refine
      { terminates := ?_
        closed := hKept.streams
        followed := hKept.followed_start.trans hNone
        frame := hKept.frame hNone
        only_removed := hKept.only_removed
        complete := ?_
        emptied := hEmptied
        returns := ?_ }
    · intro stop hHalted
      cases hHalted
    · intro hReturned
      cases hReturned
    · intro hZero
      have hLeft : w'.failures = 0 := hZero
      omega

/-
  For every file system, every path and every pattern of
  failing system calls, with any fuel above the depth of the
  file system.
-/
theorem removeTree_removed_iff
    (v : Volume) (fault : Nat → Option Errno)
    (extra : Nat) (path : Str) :
    Removed v fault (v.depth + 1 + extra) path
        ((removeTree v.listing fault (v.depth + 1 + extra)
          path).run (start v)) ↔
      ¬ (fault 0 = none ∧ LeadsThrough v.kernel path) := by
  rw [show fault 0 = fault (start v).calls from rfl,
    show v.kernel = (start v).kernel from rfl,
    ← linksThrough_eq_nil_iff]
  constructor
  · intro hRemoved
    rw [← followed_removeTree v fault extra path]
    exact hRemoved.followed
  · intro hNone
    exact removed_of_linksThrough extra hNone

/- A directory `d` with a file `f`, and a link `l` to it. -/
def linkedTree : FsTree
| [] => some (.directory ⟨true, true, false⟩)
| [name] =>
    if name = str "d" then
      some (.directory ⟨true, true, false⟩)
    else if name = str "l" then
      some (.symlink ⟨false, [.into (str "d")]⟩)
    else none
| [name, parent] =>
    if name = str "f" ∧ parent = str "d" then
      some (.file .regular)
    else none
| _ => none

def linkedListing : Location Str → List DirEntry
| [] => [⟨str "d", .directory⟩, ⟨str "l", .symlink⟩]
| [name] =>
    if name = str "d" then [⟨str "f", .regular⟩] else []
| _ => []

theorem linkedTree_cases
    {name : Str} {loc : Location Str}
    (hThere : linkedTree (name :: loc) ≠ none) :
    (name = str "d" ∧ loc = []) ∨
      (name = str "l" ∧ loc = []) ∨
        (name = str "f" ∧ loc = [str "d"]) := by
  match loc, hThere with
  | [], hThere =>
      unfold linkedTree at hThere
      by_cases hDir : name = str "d"
      · exact Or.inl ⟨hDir, rfl⟩
      · by_cases hLink : name = str "l"
        · exact Or.inr (Or.inl ⟨hLink, rfl⟩)
        · simp [hDir, hLink] at hThere
  | [parent], hThere =>
      unfold linkedTree at hThere
      by_cases hFile : name = str "f" ∧ parent = str "d"
      · right
        right
        rw [hFile.1, hFile.2]
        exact ⟨rfl, rfl⟩
      · simp [hFile] at hThere
  | _ :: _ :: _, hThere => exact absurd rfl hThere

/- The file system of these entries. -/
def linked : Volume where
  kernel := { tree := linkedTree, cwd := [] }
  listing := linkedListing
  depth := 2
  closed :=
    { root := ⟨_, rfl⟩
      parent := by
        intro name loc hThere
        rcases linkedTree_cases hThere with
          ⟨-, hLoc⟩ | ⟨-, hLoc⟩ | ⟨-, hLoc⟩
        all_goals
          rw [hLoc]
          exact ⟨_, rfl⟩ }
  named := by
    intro name loc hThere
    rcases linkedTree_cases hThere with
      ⟨hName, -⟩ | ⟨hName, -⟩ | ⟨hName, -⟩
    all_goals
      rw [hName]
      decide
  listed := by
    intro name loc hThere
    rcases linkedTree_cases hThere with
      ⟨hName, hLoc⟩ | ⟨hName, hLoc⟩ | ⟨hName, hLoc⟩
    all_goals
      rw [hName, hLoc]
      decide
  typed := by
    intro loc entry hMem
    right
    intro e hEntry
    have hThere : linkedTree (entry.name :: loc) ≠ none := by
      intro hNone
      cases hNone.symm.trans hEntry
    rcases linkedTree_cases hThere with
      ⟨hName, hLoc⟩ | ⟨hName, hLoc⟩ | ⟨hName, hLoc⟩
    all_goals
      subst hLoc
      rw [hName] at hEntry
      cases hEntry
      simp only [linkedListing, List.mem_cons,
        List.not_mem_nil, or_false, if_true] at hMem
    · rcases hMem with rfl | rfl
      · rfl
      · exact absurd hName (by decide)
    · rcases hMem with rfl | rfl
      · exact absurd hName (by decide)
      · rfl
    · rw [hMem]
      rfl
  bounded := by
    intro loc hThere
    cases loc with
    | nil => decide
    | cons name loc =>
        rcases linkedTree_cases hThere with
          ⟨-, hLoc⟩ | ⟨-, hLoc⟩ | ⟨-, hLoc⟩
        all_goals
          rw [hLoc, List.length_cons]
          decide

theorem parse_link :
    parse (str "l/") = ⟨false, [.into (str "l")]⟩ := by
  decide

/- The tree at the path of the link is the link. -/
theorem treeAt_link :
    treeAt linked.kernel (str "l/") = some [str "l"] := by
  have hLast :
      (parse (str "l/")).steps.getLast? =
        some (.into (str "l")) := by
    rw [parse_link]
    rfl
  have hParent :
      linked.kernel.resolve
          (linked.kernel.origin (parse (str "l/")))
          (parse (str "l/")).steps.dropLast =
        .ok (maxLinks, []) := by
    rw [parse_link]
    exact walk_nil _ _ _ _
  exact treeAt_eq hLast hParent

/- `::open` gets through the link to the directory. -/
theorem openDirectory_link :
    openDirectory linked.kernel (str "l/") =
      .ok ([str "d"], [[str "l"]]) := by
  have hLink :
      turn Access.searchable linkedTree [] (.into (str "l")) =
        .ok (.link [] [.into (str "d")]) := by
    decide
  have hDirectory :
      turn Access.searchable linkedTree [] (.into (str "d")) =
        .ok (.place [str "d"]) := by
    decide
  have hWalk :
      linked.kernel.resolve
          (linked.kernel.origin (parse (str "l/")))
          (parse (str "l/")).steps =
        .ok (39, [str "d"]) := by
    rw [parse_link]
    show walk _ linkedTree (39 + 1) [] [.into (str "l")] = _
    rw [walk_cons_link _ hLink, List.append_nil,
      walk_cons_place _ hDirectory, walk_nil]
  have hSlash : (str "l/").getLast? = some slash := by decide
  unfold openDirectory
  simp only [if_pos hSlash, hWalk, treeAt_link]
  rfl

/- The states of a run on the path of the link. -/
def linkOpened : World where
  kernel := linked.kernel
  calls := 2
  failures := 0
  streams := [[str "d"]]
  followed := [[str "l"]]

def linkEmptied : World where
  kernel :=
    { tree :=
        Function.update linkedTree [str "f", str "d"] none
      cwd := [] }
  calls := 6
  failures := 0
  streams := [[str "d"]]
  followed := [[str "l"]]

theorem openPath_link :
    (openPath (fun _ => none) (str "l/")).run (start linked) =
      (.returned [str "d"], linkOpened) := by
  have hCall :
      (openCall (fun _ => none) (str "l/")).run
          (start linked) =
        (.returned [str "d"],
          { linkOpened with calls := 1, streams := [] }) := by
    unfold openCall syscall start
    simp only [openDirectory_link]
    rfl
  unfold openPath
  rw [Command.run_bind_returned hCall]
  rfl

theorem removeStream_link :
    (removeStream linked.listing (fun _ => none) 3
        [str "d"]).run linkOpened =
      (.returned (), linkEmptied) := by
  rfl

/- The link itself is not a directory. -/
theorem removeDir_link :
    (removeDir linked.listing (fun _ => none) (str "l/")).run
        linkEmptied =
      (.raised (fileError (str "l/") "rmdir()" .notADir),
        linkEmptied.failed) := by
  have hRmdir :
      rmdir linked.listing linkEmptied.kernel (str "l/") =
        .error .notADir := by
    unfold rmdir Kernel.resolve
    simp only [parse_link, List.getLast?_singleton,
      List.dropLast_singleton, walk_nil]
    rfl
  unfold removeDir modifyFs syscall
  simp only [hRmdir]
  rfl

/-
  Given a link with a slash the directory behind it is
  emptied before the call fails.
-/
theorem not_removed_link :
    (removeTree linked.listing (fun _ => none) 3
        (str "l/")).run (start linked) =
      (.raised (fileError (str "l/") "rmdir()" .notADir),
        closeStream (fun _ => none) linkEmptied.failed) ∧
      ¬ Removed linked (fun _ => none) 3 (str "l/")
        ((removeTree linked.listing (fun _ => none) 3
          (str "l/")).run (start linked)) := by
  have hRun :
      (removeTree linked.listing (fun _ => none) 3
          (str "l/")).run (start linked) =
        (.raised (fileError (str "l/") "rmdir()" .notADir),
          closeStream (fun _ => none) linkEmptied.failed) := by
    unfold removeTree
    rw [Command.run_bind_returned openPath_link,
      Command.run_ensure,
      Command.run_bind_returned removeStream_link,
      removeDir_link]
  refine ⟨hRun, ?_⟩
  intro hRemoved
  rw [hRun] at hRemoved
  have hOutside :
      ∀ root, treeAt linked.kernel (str "l/") = some root →
        ¬ Under root [str "f", str "d"] := by
    intro root hRoot
    rw [treeAt_link] at hRoot
    cases hRoot
    decide
  have hSame := hRemoved.frame _ hOutside
  cases hSame

end RemoveTree

end Cosmos
