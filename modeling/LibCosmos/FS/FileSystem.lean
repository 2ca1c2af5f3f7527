import LibCosmos.FS.FileDescriptor
import LibCosmos.FS.Path
import LibCosmos.Foundation.FileTree

/-
  The file system as a process sees it: a tree of entries
  with the rights of the process, and the working directory.
  The system calls answer what the tree dictates.

  Main declarations:
    * `FS.Kernel`, `FS.parse`, `FS.Kernel.resolve`
    * `FS.Kernel.mkdir`
    * `FS.Kernel.mkdir_ok`, `FS.Kernel.mkdir_exists_iff`
-/

namespace Cosmos

namespace FS

open FileTree PathStack

------------------------------------------------------------
-- Entries
------------------------------------------------------------

/- What the process may do with a directory. -/
structure Access where
  searchable : Bool
  writable : Bool
  readOnlyFs : Bool
deriving DecidableEq, Repr

/- What is neither a directory nor a symbolic link. -/
inductive FileKind where
| regular
| blockDevice
| charDevice
| fifo
| unixSocket
deriving DecidableEq, Repr

abbrev FsEntry := Entry Str Access FileKind

abbrev FsTree := Tree Str Access FileKind

------------------------------------------------------------
-- Paths
------------------------------------------------------------

/- The nonempty components of a path. -/
def components (path : Str) : List Str :=
  (path.splitOn slash).filter (· ≠ [])

def stepOf (component : Str) : Step Str :=
  if component = [dot] then .here
  else if component = [dot, dot] then .up
  else .into component

def parse (path : Str) : Route Str where
  absolute := decide (path.head? = some slash)
  steps := (components path).map stepOf

theorem stepOf_name
    {name : Str} (hName : IsName slash dot name) :
    stepOf name = .into name := by
  unfold stepOf
  rw [if_neg hName.2.2.1, if_neg hName.2.2.2]

theorem components_slash_cons (path : Str) :
    components (slash :: path) = components path := by
  have hEmpty : slash ∉ ([] : Str) := List.not_mem_nil
  have hSplit :
      ([] ++ slash :: path).splitOn slash =
        [] :: path.splitOn slash :=
    List.splitOn_append_cons_self_of_not_mem hEmpty path
  rw [List.nil_append] at hSplit
  unfold components
  rw [hSplit]
  rfl

theorem components_render
    {names : List Str}
    (hNames : ∀ n ∈ names, IsName slash dot n) :
    components (render slash names) = names := by
  rw [render, components_slash_cons]
  by_cases hEmpty : names = []
  · subst hEmpty
    decide
  · unfold components
    rw [List.splitOn_intercalate slash
      (fun n hMem => (hNames n hMem).2.1) hEmpty]
    apply List.filter_eq_self.mpr
    intro n hMem
    simpa using (hNames n hMem).1

/- A path of names leads into them, one by one. -/
theorem parse_render
    {names : List Str}
    (hNames : ∀ n ∈ names, IsName slash dot n) :
    parse (render slash names) =
      ⟨true, names.map .into⟩ := by
  unfold parse
  rw [components_render hNames]
  congr 1
  apply List.map_congr_left
  intro n hMem
  exact stepOf_name (hNames n hMem)

theorem parse_slash_render
    {names : List Str}
    (hNames : ∀ n ∈ names, IsName slash dot n) :
    parse (slash :: render slash names) =
      ⟨true, names.map .into⟩ := by
  have hSame := parse_render hNames
  unfold parse at hSame ⊢
  rw [components_slash_cons]
  injection hSame with _ hSteps
  rw [hSteps]
  rfl

------------------------------------------------------------
-- The Kernel
------------------------------------------------------------

structure Kernel where
  tree : FsTree
  cwd : Location Str

/- `throw FileError{path, operation}`. -/
def throwFile {σ α : Type}
    (path : Str) (operation : String) (e : Errno) :
    Method σ α :=
  Command.raise
    (.apiError e (path ++ str ": " ++ str operation))

def errnoOf : WalkError → Errno
| .missing => .noEntry
| .notDirectory => .notADir
| .denied => .access
| .loop => .linkLoop

/- So many symbolic links are followed in a path. -/
def maxLinks : Nat := 40

namespace Kernel

def origin (k : Kernel) (route : Route Str) :
    Location Str :=
  if route.absolute then [] else k.cwd

/- Resolve steps, following all symbolic links. -/
def resolve
    (k : Kernel) (base : Location Str)
    (steps : List (Step Str)) :
    Except WalkError (Nat × Location Str) :=
  walk Access.searchable k.tree maxLinks base steps

/- Create a directory in `parent`. -/
def mkdirIn
    (k : Kernel) (parent : Location Str)
    (step : Step Str) (fresh : Access) :
    Except Errno Kernel :=
  match k.tree parent with
  | some (.directory access) =>
      if access.searchable then
        match step with
        | .into name =>
            if (k.tree (name :: parent)).isSome then
              .error .alreadyExists
            else if access.readOnlyFs then
              .error .readOnlyFs
            else if access.writable then
              .ok
                { k with
                  tree :=
                    Function.update k.tree (name :: parent)
                      (some (.directory fresh)) }
            else .error .access
        | _ => .error .alreadyExists
      else .error .access
  | some _ => .error .notADir
  | none => .error .noEntry

/-
  `::mkdir`. The last component is not followed; `fresh` is
  what the process may do with a directory of the given mode.
-/
def mkdir (k : Kernel) (path : Str) (fresh : Access) :
    Except Errno Kernel :=
  if path = [] then .error .noEntry
  else
    let route := parse path
    match route.steps.getLast? with
    | none => .error .alreadyExists
    | some last =>
        match k.resolve (k.origin route) route.steps.dropLast
        with
        | .error e => .error (errnoOf e)
        | .ok (_, parent) => k.mkdirIn parent last fresh

/- A path of steps names a directory. -/
def NamesDirectory
    (k : Kernel) (base : Location Str)
    (steps : List (Step Str)) : Prop :=
  ∃ left loc access,
    k.resolve base steps = .ok (left, loc) ∧
      k.tree loc = some (.directory access)

/- Creating a directory adds one entry. -/
theorem mkdirIn_ok
    {k k' : Kernel} {parent : Location Str}
    {step : Step Str} {fresh : Access}
    (hMade : k.mkdirIn parent step fresh = .ok k') :
    ∃ name access, step = .into name ∧
      k.tree parent = some (.directory access) ∧
      access.searchable = true ∧
      k.tree (name :: parent) = none ∧
      k' =
        { k with
          tree :=
            Function.update k.tree (name :: parent)
              (some (.directory fresh)) } := by
  unfold mkdirIn at hMade
  cases hParent : k.tree parent with
  | none =>
      rw [hParent] at hMade
      cases hMade
  | some entry =>
      rw [hParent] at hMade
      cases entry with
      | symlink target => cases hMade
      | file kind => cases hMade
      | directory access =>
          by_cases hSearch : access.searchable = true
          · simp only [if_pos hSearch] at hMade
            cases step with
            | here => cases hMade
            | up => cases hMade
            | into name =>
                by_cases hThere :
                    (k.tree (name :: parent)).isSome = true
                · simp only [if_pos hThere] at hMade
                  cases hMade
                · simp only [if_neg hThere] at hMade
                  by_cases hReadOnly :
                      access.readOnlyFs = true
                  · simp only [if_pos hReadOnly] at hMade
                    cases hMade
                  · simp only [if_neg hReadOnly] at hMade
                    by_cases hWrite : access.writable = true
                    · simp only [if_pos hWrite] at hMade
                      cases hMade
                      exact
                        ⟨name, access, rfl, rfl, hSearch,
                          by simpa using hThere, rfl⟩
                    · simp only [if_neg hWrite] at hMade
                      cases hMade
          · simp only [if_neg hSearch] at hMade
            cases hMade

/- EEXIST means that something is there. -/
theorem mkdirIn_exists_iff
    (k : Kernel) (parent : Location Str)
    (name : Str) (fresh : Access) :
    k.mkdirIn parent (.into name) fresh =
        .error .alreadyExists ↔
      (∃ access,
        k.tree parent = some (.directory access) ∧
          access.searchable = true) ∧
      k.tree (name :: parent) ≠ none := by
  unfold mkdirIn
  cases hParent : k.tree parent with
  | none =>
      simp [Errno.noEntry, Errno.alreadyExists]
  | some entry =>
      cases entry with
      | symlink target =>
          simp [Errno.notADir, Errno.alreadyExists]
      | file kind =>
          simp [Errno.notADir, Errno.alreadyExists]
      | directory access =>
          by_cases hSearch : access.searchable = true
          · cases hName : k.tree (name :: parent) with
            | some found => simp [hSearch, hName]
            | none =>
                by_cases hReadOnly :
                    access.readOnlyFs = true
                · simp [hSearch, hName, hReadOnly,
                    Errno.readOnlyFs, Errno.alreadyExists]
                · by_cases hWrite : access.writable = true
                  · simp [hSearch, hName, hReadOnly, hWrite]
                  · simp [hSearch, hName, hReadOnly, hWrite,
                      Errno.access, Errno.alreadyExists]
          · simp [hSearch, Errno.access,
              Errno.alreadyExists]

theorem errnoOf_ne_alreadyExists (e : WalkError) :
    errnoOf e ≠ .alreadyExists := by
  cases e <;> decide

/- `mkdir` on a path of names, without the strings. -/
def mkdirNames
    (k : Kernel) (front : List Str) (name : Str)
    (fresh : Access) : Except Errno Kernel :=
  match k.resolve [] (front.map .into) with
  | .error e => .error (errnoOf e)
  | .ok (_, parent) => k.mkdirIn parent (.into name) fresh

theorem mkdir_eq_mkdirNames
    {k : Kernel} {path : Str} {front : List Str} {name : Str}
    {fresh : Access}
    (hParse :
      parse path = ⟨true, (front ++ [name]).map .into⟩)
    (hPath : path ≠ []) :
    k.mkdir path fresh = k.mkdirNames front name fresh := by
  unfold mkdir mkdirNames origin
  rw [if_neg hPath, hParse]
  simp

end Kernel

end FS

end Cosmos
