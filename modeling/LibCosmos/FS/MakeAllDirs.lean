import LibCosmos.FS.FileSystem

/-
  Creating a directory with its parents
  (`make_all_dirs` in `src/fs/filesystem.cxx`).

  Main declarations:
    * `FS.makeAllDirs`
    * `FS.Grown`, `FS.Progress`
    * `FS.MadeAll`, `FS.Blocked`
    * `FS.makeAllDirs_correct_iff`
-/

namespace Cosmos

namespace FS

open FileTree PathStack

section Code

variable (fresh : Access)

------------------------------------------------------------
-- The Code
------------------------------------------------------------

/- What the loop makes of the answer of `::mkdir`. -/
def report (path : Str) (ret : Errno) :
    Except Errno Kernel → Method Kernel Errno
| .ok k => do
    Command.modify fun _ => k
    -- at least one directory was created
    pure .noError
| .error e =>
    if e = .alreadyExists then pure ret
    else throwFile path "mkdir()" e

/- One round of the loop, for the given prefix. -/
def makeRound (path : Str) (ret : Errno) :
    Method Kernel Errno :=
  if path.getLast? = some slash then
    -- root directory or a trailing or duplicate slash
    pure ret
  else if path = [dot] then
    pure ret
  else do
    let k ← Command.get
    report path ret (k.mkdir path fresh)

/- The loop of `make_all_dirs`. -/
def makeLoop (normpath : Str) (sepPos : Nat) (ret : Errno) :
    Method Kernel Errno :=
  match _h : Str.find normpath slash (sepPos + 1) with
  | none =>
      makeRound fresh (Str.substr normpath 0 none) ret
  | some next => do
      let ret ←
        makeRound fresh (Str.substr normpath 0 (some next))
          ret
      makeLoop normpath next ret
termination_by normpath.length - sepPos
decreasing_by
  have hAfter := Str.pos_le_of_find _h
  have hInside := Str.lt_length_of_find _h
  omega

/-
  `make_all_dirs`. The mode only matters for what the
  process may do with the new directories.
-/
def makeAllDirs
    (getWorkingDir : Except Exn Str) (path : Str) :
    Method Kernel Errno :=
  match normalizePath getWorkingDir path with
  | .error e => Command.raise e
  | .ok normpath =>
      if path = [] then
        Command.raise
          (.usageError (str "empty string passed in"))
      else
        makeLoop fresh normpath 0 .alreadyExists

------------------------------------------------------------
-- The Loop on Names
------------------------------------------------------------

/-
  The loop without the strings: create the names one after
  the other. `base` only shows in error messages.
-/
def makeNames (base : Str) :
    List Str → List Str → Errno → Method Kernel Errno
| _, [], ret => pure ret
| front, name :: rest, ret => do
    let k ← Command.get
    let ret ←
      report (base ++ trail slash (front ++ [name])) ret
        (k.mkdirNames front name fresh)
    makeNames base (front ++ [name]) rest ret

/- What stands in front of the names in a path. -/
def IsBase (base : Str) : Prop :=
  base = [] ∨ base = [slash]

theorem parse_trail
    {base : Str} (hBase : IsBase base)
    {names : List Str} (hNonempty : names ≠ [])
    (hNames : ∀ n ∈ names, IsName slash dot n) :
    parse (base ++ trail slash names) =
      ⟨true, names.map .into⟩ := by
  rw [← render_eq_trail hNonempty]
  rcases hBase with hBase | hBase
  · rw [hBase, List.nil_append]
    exact parse_render hNames
  · rw [hBase]
    exact parse_slash_render hNames

/- A prefix that ends with a name is created. -/
theorem makeRound_name
    {base : Str} (hBase : IsBase base)
    {front : List Str} {name : Str}
    (hNames : ∀ n ∈ front ++ [name], IsName slash dot n)
    (ret : Errno) :
    makeRound fresh (base ++ trail slash (front ++ [name]))
        ret =
      (do
        let k ← Command.get
        report (base ++ trail slash (front ++ [name])) ret
          (k.mkdirNames front name fresh)) := by
  have hName : IsName slash dot name :=
    hNames name (by simp)
  have hLast :
      (base ++ trail slash (front ++ [name])).getLast? ≠
        some slash := by
    rw [trail_append_singleton, ← List.append_assoc,
      List.getLast?_append]
    cases hGet : name.getLast? with
    | none => exact absurd (by simpa using hGet) hName.1
    | some x =>
        have hIn := List.mem_of_getLast? hGet
        simp only [List.getLast?_cons, hGet,
          Option.getD_some, Option.some_or, ne_eq,
          Option.some.injEq]
        intro hEq
        exact hName.2.1 (hEq ▸ hIn)
  have hSlash :
      slash ∈ base ++ trail slash (front ++ [name]) := by
    rw [trail_append_singleton]
    simp
  have hDot :
      base ++ trail slash (front ++ [name]) ≠ [dot] := by
    intro hEq
    rw [hEq] at hSlash
    exact absurd hSlash (by decide)
  have hNonempty :
      base ++ trail slash (front ++ [name]) ≠ [] :=
    List.ne_nil_of_mem hSlash
  have hParse := parse_trail hBase (by simp) hNames
  unfold makeRound
  rw [if_neg hLast, if_neg hDot]
  congr 1
  funext k
  rw [Kernel.mkdir_eq_mkdirNames hParse hNonempty]

theorem makeLoop_last
    {normpath : Str} {sepPos : Nat}
    (hFind :
      Str.find normpath slash (sepPos + 1) = none)
    (ret : Errno) :
    makeLoop fresh normpath sepPos ret =
      makeRound fresh normpath ret := by
  rw [makeLoop]
  split
  · rfl
  · next next hSome =>
      rw [hFind] at hSome
      cases hSome

theorem makeLoop_next
    {normpath : Str} {sepPos next : Nat}
    (hFind :
      Str.find normpath slash (sepPos + 1) = some next)
    (ret : Errno) :
    makeLoop fresh normpath sepPos ret =
      (do
        let ret ←
          makeRound fresh (normpath.take next) ret
        makeLoop fresh normpath next ret) := by
  rw [makeLoop]
  split
  · next hNone =>
      rw [hFind] at hNone
      cases hNone
  · next other hSome =>
      rw [hFind] at hSome
      cases hSome
      rfl

/- What follows the separator in front of a name. -/
theorem drop_trail
    (base : Str) (front : List Str)
    (name : Str) (rest : List Str) :
    (base ++ trail slash (front ++ name :: rest)).drop
        ((base ++ trail slash front).length + 1) =
      name ++ trail slash rest := by
  have hText :
      base ++ trail slash (front ++ name :: rest) =
        (base ++ trail slash front) ++
          slash :: (name ++ trail slash rest) := by
    simp [trail]
  rw [hText, List.drop_append]
  simp

/- There is no separator behind the last name. -/
theorem find_last
    (base : Str) (front : List Str) {name : Str}
    (hName : slash ∉ name) :
    Str.find (base ++ trail slash (front ++ [name])) slash
        ((base ++ trail slash front).length + 1) = none := by
  apply Str.find_eq_none
  rw [drop_trail]
  simpa [trail] using hName

/- The next separator is the one behind the name. -/
theorem find_next
    (base : Str) (front : List Str) {name : Str}
    (second : Str) (rest : List Str)
    (hName : slash ∉ name) :
    Str.find
        (base ++
          trail slash (front ++ name :: second :: rest))
        slash ((base ++ trail slash front).length + 1) =
      some (base ++ trail slash (front ++ [name])).length := by
  have hNext :
      (base ++
        trail slash (front ++ name :: second :: rest)).drop
          ((base ++ trail slash front).length + 1) =
        name ++ slash :: (second ++ trail slash rest) :=
    drop_trail base front name (second :: rest)
  rw [Str.find_eq_some hNext hName, trail_append_singleton]
  congr 1
  simp only [List.length_append, List.length_cons]
  omega

theorem take_trail
    (base : Str) (front rest : List Str) :
    (base ++ trail slash (front ++ rest)).take
        (base ++ trail slash front).length =
      base ++ trail slash front := by
  have hEnd :
      base ++ trail slash (front ++ rest) =
        (base ++ trail slash front) ++ trail slash rest := by
    simp [trail]
  rw [hEnd, List.take_left]

/-
  The loop on the string, from the separator in front of the
  next name on, is the loop on the names.
-/
theorem makeLoop_eq
    {base : Str} (hBase : IsBase base)
    (front : List Str) (name : Str) (rest : List Str)
    (hNames :
      ∀ n ∈ front ++ name :: rest, IsName slash dot n)
    (ret : Errno) :
    makeLoop fresh
        (base ++ trail slash (front ++ name :: rest))
        (base ++ trail slash front).length ret =
      makeNames fresh base front (name :: rest) ret := by
  have hName : IsName slash dot name :=
    hNames name (by simp)
  induction rest generalizing front name ret with
  | nil =>
      rw [makeLoop_last fresh
          (find_last base front hName.2.1),
        makeRound_name fresh hBase hNames]
      simp only [makeNames, Command.bind_pure_self]
  | cons second rest ih =>
      have hSame :
          front ++ name :: second :: rest =
            (front ++ [name]) ++ second :: rest := by
        simp
      have hFront :
          ∀ n ∈ front ++ [name], IsName slash dot n := by
        intro n hMem
        apply hNames
        rw [hSame]
        exact List.mem_append_left _ hMem
      have hRest :
          ∀ ret, makeLoop fresh
              (base ++
                trail slash (front ++ name :: second :: rest))
              (base ++
                trail slash (front ++ [name])).length ret =
            makeNames fresh base (front ++ [name])
              (second :: rest) ret := by
        intro ret
        rw [hSame] at hNames ⊢
        exact
          ih (front ++ [name]) second hNames ret
            (hNames second (by simp))
      have hTake :
          (base ++
            trail slash
              (front ++ name :: second :: rest)).take
              (base ++
                trail slash (front ++ [name])).length =
            base ++ trail slash (front ++ [name]) := by
        rw [hSame]
        exact take_trail base (front ++ [name]) _
      rw [makeLoop_next fresh
          (find_next base front second rest hName.2.1),
        hTake, makeRound_name fresh hBase hFront]
      simp only [hRest, Command.bind_bind]
      rfl

theorem isBase_leftoverSlash
    (cwd : NormalPath) (path : Str) :
    IsBase (leftoverSlash cwd path) := by
  unfold leftoverSlash IsBase
  split
  · right
    rfl
  · left
    rfl

/- A slash that was left over is skipped. -/
theorem makeLoop_start
    {base : Str} (hBase : IsBase base)
    (name : Str) (rest : List Str)
    (hNames : ∀ n ∈ name :: rest, IsName slash dot n)
    (ret : Errno) :
    makeLoop fresh (base ++ trail slash (name :: rest)) 0
        ret =
      makeNames fresh base [] (name :: rest) ret := by
  have hLoop :=
    makeLoop_eq fresh hBase [] name rest hNames ret
  rcases hBase with hBase | hBase
  · rw [hBase] at hLoop ⊢
    exact hLoop
  · rw [hBase] at hLoop ⊢
    have hFind :
        Str.find ([slash] ++ trail slash (name :: rest))
            slash 1 =
          some 1 :=
      Str.find_eq_some
        (rfl : ([slash] ++ trail slash (name :: rest)).drop
            1 =
          [] ++ slash :: (name ++ trail slash rest))
        List.not_mem_nil
    rw [makeLoop_next fresh hFind]
    exact hLoop

/- The whole function, on the names of the path. -/
theorem makeAllDirs_eq
    (cwd : NormalPath) {path : Str} (hPath : path ≠ []) :
    makeAllDirs fresh (.ok cwd.path) path =
      makeNames fresh (leftoverSlash cwd path) []
        (resolvedNames cwd path) .alreadyExists := by
  have hNames := names_resolvedNames cwd path
  unfold makeAllDirs
  rw [normalizePath_eq cwd hPath]
  simp only [if_neg hPath]
  cases hResolved : resolvedNames cwd path with
  | nil =>
      rw [if_pos rfl]
      rw [makeLoop_last fresh (by decide)]
      rfl
  | cons name rest =>
      rw [hResolved] at hNames
      rw [if_neg (List.cons_ne_nil name rest),
        render_eq_trail (List.cons_ne_nil name rest)]
      exact
        makeLoop_start fresh (isBase_leftoverSlash cwd path)
          name rest hNames _

end Code

------------------------------------------------------------
-- Specification
------------------------------------------------------------

/- The walk of an absolute path of names. -/
def Kernel.walkNames (k : Kernel) (names : List Str) :
    Except WalkError (Nat × Location Str) :=
  k.resolve [] (names.map .into)

def Kernel.IsDirectory (k : Kernel) (names : List Str) :
    Prop :=
  k.NamesDirectory [] (names.map .into)

/-
  Nothing was modified or removed, and what is new are
  directories at prefixes of the names.
-/
structure Grown
    (fresh : Access) (start now : Kernel)
    (names : List Str) : Prop where
  extends_ : Extends start.tree now.tree
  created :
    ∀ loc, now.tree loc ≠ start.tree loc →
      start.tree loc = none ∧
      now.tree loc = some (.directory fresh) ∧
      ∃ before name after left parent,
        names = before ++ name :: after ∧
        now.walkNames before = .ok (left, parent) ∧
        loc = name :: parent

/- The last name is an entry that was not there before. -/
def CreatedLast
    (start now : Kernel) (names : List Str) : Prop :=
  ∃ before name left parent,
    names = before ++ [name] ∧
    now.walkNames before = .ok (left, parent) ∧
    start.tree (name :: parent) = none ∧
    now.tree (name :: parent) ≠ none

/-
  What `make_all_dirs` is for, told by the outcome and the
  file system afterwards.
-/
structure MadeAll
    (fresh : Access) (start : Kernel) (names : List Str)
    (result : Outcome Halt Exn Errno × Kernel) :
    Prop where
  grown : Grown fresh start result.2 names
  directories :
    ∀ ret, result.1 = .returned ret →
      ∀ before after, names = before ++ after →
        result.2.IsDirectory before
  created_iff :
    ∀ ret, result.1 = .returned ret →
      (ret = .noError ↔ CreatedLast start result.2 names)
  exists_iff :
    ∀ ret, result.1 = .returned ret →
      (ret = .alreadyExists ↔ start.IsDirectory names)
  otherwise :
    (∀ ret, result.1 ≠ .returned ret) →
      ∃ e path,
        result.1 =
          .raised (.apiError e (path ++ str ": mkdir()"))

/-
  There is something at the path, in a directory that can be
  searched, and it does not lead to a directory.
-/
def Blocked (k : Kernel) (names : List Str) : Prop :=
  ∃ before name left parent access,
    names = before ++ [name] ∧
    k.walkNames before = .ok (left, parent) ∧
    k.tree parent = some (.directory access) ∧
    access.searchable = true ∧
    k.tree (name :: parent) ≠ none ∧
    ¬ k.IsDirectory names

------------------------------------------------------------
-- One Name
------------------------------------------------------------

/-
  `::mkdir` finds an entry at the name, in a directory that
  can be searched.
-/
def Kernel.Stands
    (k : Kernel) (before : List Str) (name : Str) : Prop :=
  ∃ left parent access,
    k.walkNames before = .ok (left, parent) ∧
    k.tree parent = some (.directory access) ∧
    access.searchable = true ∧
    k.tree (name :: parent) ≠ none

theorem mkdirNames_exists_iff
    (fresh : Access) (k : Kernel) (front : List Str)
    (name : Str) :
    k.mkdirNames front name fresh = .error .alreadyExists ↔
      k.Stands front name := by
  unfold Kernel.mkdirNames Kernel.Stands Kernel.walkNames
  cases hWalk : k.resolve [] (front.map .into) with
  | error e =>
      constructor
      · intro hError
        exact
          absurd (Except.error.inj hError)
            (Kernel.errnoOf_ne_alreadyExists e)
      · intro hStands
        rcases hStands with ⟨left, parent, access, hOk, -⟩
        cases hOk
  | ok p =>
      rcases p with ⟨left, parent⟩
      constructor
      · intro hError
        rcases
          (Kernel.mkdirIn_exists_iff k parent name fresh).mp
            hError with
          ⟨⟨access, hParent, hSearch⟩, hEntry⟩
        exact
          ⟨left, parent, access, rfl, hParent, hSearch,
            hEntry⟩
      · intro hStands
        rcases hStands with
          ⟨left', parent', access, hOk, hParent, hSearch,
            hEntry⟩
        cases hOk
        exact
          (Kernel.mkdirIn_exists_iff k parent name fresh).mpr
            ⟨⟨access, hParent, hSearch⟩, hEntry⟩

theorem mkdirNames_ok
    {fresh : Access} {k k' : Kernel} {front : List Str}
    {name : Str}
    (hMade : k.mkdirNames front name fresh = .ok k') :
    ∃ left parent access,
      k.walkNames front = .ok (left, parent) ∧
      k.tree parent = some (.directory access) ∧
      access.searchable = true ∧
      k.tree (name :: parent) = none ∧
      k' =
        { k with
          tree :=
            Function.update k.tree (name :: parent)
              (some (.directory fresh)) } := by
  unfold Kernel.mkdirNames at hMade
  unfold Kernel.walkNames
  cases hWalk : k.resolve [] (front.map .into) with
  | error e =>
      rw [hWalk] at hMade
      cases hMade
  | ok p =>
      rcases p with ⟨left, parent⟩
      rw [hWalk] at hMade
      rcases Kernel.mkdirIn_ok hMade with
        ⟨found, access, hStep, hParent, hSearch, hNew, hK⟩
      cases hStep
      exact
        ⟨left, parent, access, rfl, hParent, hSearch, hNew,
          hK⟩

theorem walkNames_mono
    {k k' : Kernel} (hExtends : Extends k.tree k'.tree)
    {names : List Str} {r : Nat × Location Str}
    (hWalk : k.walkNames names = .ok r) :
    k'.walkNames names = .ok r :=
  walk_mono Access.searchable hExtends hWalk

theorem isDirectory_mono
    {k k' : Kernel} (hExtends : Extends k.tree k'.tree)
    {names : List Str} (hNames : k.IsDirectory names) :
    k'.IsDirectory names := by
  rcases hNames with ⟨left, loc, access, hWalk, hLoc⟩
  exact
    ⟨left, loc, access, walkNames_mono hExtends hWalk,
      hExtends loc _ hLoc⟩

/- A walk of one name more. -/
theorem walkNames_concat
    {k : Kernel} {front : List Str} {name : Str}
    {left : Nat} {parent : Location Str}
    {access inner : Access}
    (hWalk : k.walkNames front = .ok (left, parent))
    (hParent : k.tree parent = some (.directory access))
    (hSearch : access.searchable = true)
    (hName :
      k.tree (name :: parent) = some (.directory inner)) :
    k.walkNames (front ++ [name]) =
      .ok (left, name :: parent) := by
  unfold Kernel.walkNames Kernel.resolve
  rw [List.map_append]
  refine
    (walk_append_singleton Access.searchable hWalk
      (.into name)).trans ?_
  exact
    walk_into_directory Access.searchable hParent hSearch
      hName left

/- A name on the way of a walk stands. -/
theorem stands_of_walkNames
    {k : Kernel} {before after : List Str} {name : Str}
    {r : Nat × Location Str}
    (hWalk :
      k.walkNames (before ++ name :: after) = .ok r) :
    k.Stands before name := by
  unfold Kernel.walkNames Kernel.resolve at hWalk
  rw [List.map_append] at hWalk
  rcases exists_walk_of_append Access.searchable hWalk with
    ⟨p, hBefore, hAfter⟩
  rcases p with ⟨left, parent⟩
  rcases exists_turn_of_walk Access.searchable hAfter with
    ⟨next, hTurn⟩
  rcases exists_directory_of_turn Access.searchable hTurn
    with ⟨access, hParent, hSearch⟩
  rcases exists_entry_of_turn_into Access.searchable hTurn
    with ⟨entry, hEntry⟩
  refine
    ⟨left, parent, access, hBefore, hParent, hSearch, ?_⟩
  rw [hEntry]
  exact Option.some_ne_none entry

------------------------------------------------------------
-- Progress of the Loop
------------------------------------------------------------

theorem Grown.longer
    {fresh : Access} {start now : Kernel}
    {names : List Str}
    (hGrown : Grown fresh start now names)
    (rest : List Str) :
    Grown fresh start now (names ++ rest) where
  extends_ := hGrown.extends_
  created := by
    intro loc hChanged
    rcases hGrown.created loc hChanged with
      ⟨hBefore, hNow, before, name, after, left, parent,
        hNames, hWalk, hLoc⟩
    refine
      ⟨hBefore, hNow, before, name, after ++ rest, left,
        parent, ?_, hWalk, hLoc⟩
    rw [hNames]
    simp

/-
  The last name was created and is an empty directory.
-/
def FreshLast
    (fresh : Access) (start now : Kernel)
    (front : List Str) : Prop :=
  ∃ before name left parent,
    front = before ++ [name] ∧
    now.walkNames before = .ok (left, parent) ∧
    now.walkNames front = .ok (left, name :: parent) ∧
    now.tree (name :: parent) = some (.directory fresh) ∧
    start.tree (name :: parent) = none ∧
    ∀ inner, now.tree (inner :: name :: parent) = none

/- The loop came as far as the names in `front`. -/
structure Progress
    (fresh : Access) (start now : Kernel)
    (front : List Str) (ret : Errno) : Prop where
  closed : Closed now.tree
  grown : Grown fresh start now front
  directories :
    ∀ before, before <+: front → before ≠ front →
      now.IsDirectory before
  status :
    (ret = .alreadyExists ∧ now = start ∧
      ∀ before name, front = before ++ [name] →
        start.Stands before name) ∨
    (ret = .noError ∧ FreshLast fresh start now front)

theorem progress_start
    (fresh : Access) {start : Kernel}
    (hClosed : Closed start.tree) :
    Progress fresh start start [] .alreadyExists where
  closed := hClosed
  grown :=
    { extends_ := Extends.refl start.tree
      created := fun _ hChanged => absurd rfl hChanged }
  directories := by
    intro before hPrefix hNe
    exact absurd (List.prefix_nil.mp hPrefix) hNe
  status := by
    left
    refine ⟨rfl, rfl, ?_⟩
    intro before name hFront
    exact absurd hFront (by simp)

/- A directory that was created is new all the way. -/
theorem progress_created
    {fresh : Access} {start now k' : Kernel}
    {front : List Str} {name : Str} {ret : Errno}
    (hProgress : Progress fresh start now front ret)
    (hMade : now.mkdirNames front name fresh = .ok k') :
    Progress fresh start k' (front ++ [name]) .noError := by
  rcases mkdirNames_ok hMade with
    ⟨left, parent, access, hWalk, hParent, hSearch, hNew,
      hK⟩
  have hTree :
      k'.tree =
        Function.update now.tree (name :: parent)
          (some (.directory fresh)) := by
    rw [hK]
  have hExtends : Extends now.tree k'.tree := by
    rw [hTree]
    exact extends_update hNew _
  have hStart : start.tree (name :: parent) = none := by
    cases hEntry : start.tree (name :: parent) with
    | none => rfl
    | some entry =>
        have hStill :=
          hProgress.grown.extends_ _ entry hEntry
        rw [hNew] at hStill
        cases hStill
  have hName :
      k'.tree (name :: parent) =
        some (.directory fresh) := by
    rw [hTree, Function.update_self]
  have hWalk' := walkNames_mono hExtends hWalk
  have hParent' := hExtends parent _ hParent
  refine
    { closed := ?_
      grown := ?_
      directories := ?_
      status := ?_ }
  · rw [hTree]
    exact hProgress.closed.insert hParent
  · refine
      { extends_ := hProgress.grown.extends_.trans hExtends
        created := ?_ }
    intro loc hChanged
    by_cases hLoc : loc = name :: parent
    · rw [hLoc]
      exact
        ⟨hStart, hName, front, name, [], left, parent, rfl,
          hWalk', rfl⟩
    · rw [hTree, Function.update_of_ne hLoc] at hChanged ⊢
      rcases
        (hProgress.grown.longer [name]).created loc hChanged
        with
        ⟨hBefore, hNow, before, other, after, left', parent',
          hNames, hOther, hEq⟩
      exact
        ⟨hBefore, hNow, before, other, after, left', parent',
          hNames, walkNames_mono hExtends hOther, hEq⟩
  · intro before hPrefix hNe
    rcases List.prefix_concat_iff.mp hPrefix with
      hEq | hShorter
    · exact absurd hEq hNe
    · by_cases hFront : before = front
      · rw [hFront]
        exact ⟨left, parent, access, hWalk', hParent'⟩
      · exact
          isDirectory_mono hExtends
            (hProgress.directories before hShorter hFront)
  · right
    refine
      ⟨rfl, front, name, left, parent, rfl, hWalk', ?_,
        hName, hStart, ?_⟩
    · exact walkNames_concat hWalk' hParent' hSearch hName
    · intro inner
      have hNe : inner :: name :: parent ≠ name :: parent := by
        intro hEq
        have hLength := congrArg List.length hEq
        simp at hLength
      rw [hTree, Function.update_of_ne hNe]
      exact hProgress.closed.none_below hNew inner

/-
  An entry that stands in the way stood there at the start:
  below a directory that was created there is nothing.
-/
theorem progress_stands
    {fresh : Access} {start now : Kernel}
    {front : List Str} {name : Str} {ret : Errno}
    (hProgress : Progress fresh start now front ret)
    (hStands : now.Stands front name) :
    Progress fresh start now (front ++ [name]) ret := by
  rcases hStands with
    ⟨left, parent, access, hWalk, hParent, hSearch, hEntry⟩
  refine
    { closed := hProgress.closed
      grown := hProgress.grown.longer [name]
      directories := ?_
      status := ?_ }
  · intro before hPrefix hNe
    rcases List.prefix_concat_iff.mp hPrefix with
      hEq | hShorter
    · exact absurd hEq hNe
    · by_cases hFront : before = front
      · rw [hFront]
        exact ⟨left, parent, access, hWalk, hParent⟩
      · exact hProgress.directories before hShorter hFront
  · rcases hProgress.status with
      ⟨hRet, hSame, -⟩ |
      ⟨-, before, last, left', parent', -, -, hFront, -, -,
        hNothing⟩
    · left
      refine ⟨hRet, hSame, ?_⟩
      intro before last hConcat
      have hBoth := List.append_inj' hConcat rfl
      rw [← hBoth.1, ← List.head_eq_of_cons_eq hBoth.2]
      rw [hSame] at hWalk hParent hEntry
      exact
        ⟨left, parent, access, hWalk, hParent, hSearch,
          hEntry⟩
    · rw [hWalk] at hFront
      cases hFront
      exact absurd (hNothing name) hEntry

/- The loop makes progress to the end, or throws. -/
theorem makeNames_progress
    {fresh : Access} {start : Kernel} (base : Str)
    (rest : List Str) :
    ∀ {front : List Str} {now : Kernel} {ret : Errno},
      Progress fresh start now front ret →
      (∃ ret' k',
        (makeNames fresh base front rest ret).run now =
            (.returned ret', k') ∧
          Progress fresh start k' (front ++ rest) ret') ∨
      ∃ e path k',
        (makeNames fresh base front rest ret).run now =
            (.raised (.apiError e (path ++ str ": mkdir()")),
              k') ∧
          Grown fresh start k' (front ++ rest) := by
  induction rest with
  | nil =>
      intro front now ret hProgress
      left
      refine ⟨ret, now, rfl, ?_⟩
      rw [List.append_nil]
      exact hProgress
  | cons name rest ih =>
      intro front now ret hProgress
      have hList :
          front ++ name :: rest =
            (front ++ [name]) ++ rest := by
        simp
      rw [hList]
      unfold makeNames
      simp only [Command.run_bind, Command.run_get]
      cases hMkdir : now.mkdirNames front name fresh with
      | ok k' =>
          simp only [report, Command.run_bind,
            Command.run_modify, Command.run_pure]
          exact ih (progress_created hProgress hMkdir)
      | error e =>
          by_cases hExists : e = .alreadyExists
          · rw [hExists] at hMkdir
            simp only [report, if_pos hExists,
              Command.run_pure]
            exact
              ih
                (progress_stands hProgress
                  ((mkdirNames_exists_iff fresh now front
                    name).mp hMkdir))
          · right
            simp only [report, if_neg hExists, throwFile,
              Command.run_raise]
            refine
              ⟨e, base ++ trail slash (front ++ [name]), now,
                ?_, (hProgress.grown.longer [name]).longer
                  rest⟩
            rw [List.append_assoc]
            rfl

------------------------------------------------------------
-- Correctness
------------------------------------------------------------

/- The root of a closed tree is a directory. -/
theorem isDirectory_nil
    {k : Kernel} (hClosed : Closed k.tree) :
    k.IsDirectory [] := by
  rcases hClosed.root with ⟨access, hRoot⟩
  exact ⟨maxLinks, [], access, walk_nil _ _ _ _, hRoot⟩

/- The last of the directories, if nothing is in the way. -/
theorem Progress.last
    {fresh : Access} {start now : Kernel}
    {names : List Str} {ret : Errno}
    (hClosed : Closed start.tree)
    (hProgress : Progress fresh start now names ret)
    (hFree : ¬ Blocked start names) :
    now.IsDirectory names ∧
      (ret = .noError ↔ CreatedLast start now names) ∧
      (ret = .alreadyExists ↔ start.IsDirectory names) := by
  rcases hProgress.status with
    ⟨hRet, hSame, hStands⟩ |
    ⟨hRet, before, name, left, parent, hNames, hWalk,
      hFront, hName, hStart, -⟩
  · have hDirectory : start.IsDirectory names := by
      rcases List.eq_nil_or_concat names with
        hNil | ⟨before, name, hConcat⟩
      · rw [hNil]
        exact isDirectory_nil hClosed
      · have hNames : names = before ++ [name] := by
          rw [hConcat, List.concat_eq_append]
        by_contra hNot
        rcases hStands before name hNames with
          ⟨left, parent, access, hWalk, hParent, hSearch,
            hEntry⟩
        exact
          hFree
            ⟨before, name, left, parent, access, hNames,
              hWalk, hParent, hSearch, hEntry, hNot⟩
    subst hSame hRet
    refine ⟨hDirectory, ?_, ?_⟩
    · constructor
      · intro hNo
        exact absurd hNo (by decide)
      · intro hCreated
        rcases hCreated with
          ⟨before, name, left, parent, -, -, hNone, hSome⟩
        exact absurd hNone hSome
    · exact ⟨fun _ => hDirectory, fun _ => rfl⟩
  · subst hRet
    refine
      ⟨⟨left, name :: parent, fresh, hFront, hName⟩,
        ?_, ?_⟩
    · constructor
      · intro _
        refine
          ⟨before, name, left, parent, hNames, hWalk,
            hStart, ?_⟩
        rw [hName]
        exact Option.some_ne_none _
      · intro _
        rfl
    · constructor
      · intro hNo
        exact absurd hNo (by decide)
      · intro hDirectory
        rcases hDirectory with
          ⟨left', loc, access, hThere, hLoc⟩
        have hLater :=
          walkNames_mono hProgress.grown.extends_ hThere
        rw [hFront] at hLater
        cases hLater
        rw [hStart] at hLoc
        cases hLoc

/- What progress to the end says, if nothing is in the way. -/
theorem madeAll_of_progress
    {fresh : Access} {start now : Kernel}
    {names : List Str} {ret : Errno}
    (hClosed : Closed start.tree)
    (hProgress : Progress fresh start now names ret)
    (hFree : ¬ Blocked start names) :
    MadeAll fresh start names (.returned ret, now) := by
  have hLast := Progress.last hClosed hProgress hFree
  refine
    { grown := hProgress.grown
      directories := ?_
      created_iff := ?_
      exists_iff := ?_
      otherwise := ?_ }
  · intro ret' _ before after hNames
    by_cases hAll : before = names
    · rw [hAll]
      exact hLast.1
    · exact
        hProgress.directories before ⟨after, hNames.symm⟩
          hAll
  · intro ret' hRet
    cases hRet
    exact hLast.2.1
  · intro ret' hRet
    cases hRet
    exact hLast.2.2
  · intro hNot
    exact absurd rfl (hNot ret)

/- Where everything stands, nothing happens. -/
theorem makeNames_stands
    {fresh : Access} {k : Kernel} (base : Str)
    (rest : List Str) :
    ∀ {front : List Str},
      (∀ before name after, rest = before ++ name :: after →
        k.Stands (front ++ before) name) →
      (makeNames fresh base front rest .alreadyExists).run
          k =
        (.returned .alreadyExists, k) := by
  induction rest with
  | nil =>
      intro front _
      rfl
  | cons name rest ih =>
      intro front hStands
      have hFirst : k.Stands front name := by
        have hHead := hStands [] name rest rfl
        rw [List.append_nil] at hHead
        exact hHead
      have hMkdir :=
        (mkdirNames_exists_iff fresh k front name).mpr hFirst
      unfold makeNames
      simp only [Command.run_bind, Command.run_get, hMkdir,
        report, if_true, Command.run_pure]
      apply ih
      intro before other after hRest
      have hNext :=
        hStands (name :: before) other after (by simp [hRest])
      rw [List.append_assoc]
      exact hNext

/- A path that is blocked is reported as a directory. -/
theorem not_madeAll_of_blocked
    {fresh : Access} {k : Kernel} {base : Str}
    {names : List Str} (hBlocked : Blocked k names) :
    ¬ MadeAll fresh k names
      ((makeNames fresh base [] names .alreadyExists).run
        k) := by
  rcases hBlocked with
    ⟨front, last, left, parent, access, hNames, hWalk,
      hParent, hSearch, hEntry, hNot⟩
  have hRun :
      (makeNames fresh base [] names .alreadyExists).run k =
        (.returned .alreadyExists, k) := by
    apply makeNames_stands
    intro before name after hSplit
    rw [List.nil_append]
    rcases List.eq_nil_or_concat after with
      hNil | ⟨after', other, hAfter⟩
    · rw [hNil, hNames] at hSplit
      have hBoth := List.append_inj' hSplit rfl
      rw [← hBoth.1, ← List.head_eq_of_cons_eq hBoth.2]
      exact
        ⟨left, parent, access, hWalk, hParent, hSearch,
          hEntry⟩
    · have hFront : front = before ++ name :: after' := by
        have hLong :
            front ++ [last] =
              (before ++ name :: after') ++ [other] := by
          rw [← hNames, hSplit, hAfter]
          simp
        exact (List.append_inj' hLong rfl).1
      rw [hFront] at hWalk
      exact stands_of_walkNames hWalk
  intro hMade
  rw [hRun] at hMade
  exact
    hNot
      (hMade.directories .alreadyExists rfl names []
        (List.append_nil names).symm)

/-
  For every path and every file system `make_all_dirs` keeps
  what is there, creates only prefixes of the normalized
  path, and on return has made it a directory and told
  whether it is new, or else throws a `FileError`. This is
  so unless something that is not and does not lead to a
  directory is at the path.
-/
theorem makeAllDirs_correct_iff
    (fresh : Access) (cwd : NormalPath) (path : Str)
    (hPath : path ≠ [])
    (k : Kernel) (hClosed : Closed k.tree) :
    MadeAll fresh k (resolvedNames cwd path)
        ((makeAllDirs fresh (.ok cwd.path) path).run k) ↔
      ¬ Blocked k (resolvedNames cwd path) := by
  rw [makeAllDirs_eq fresh cwd hPath]
  constructor
  · intro hMade hBlocked
    exact not_madeAll_of_blocked hBlocked hMade
  · intro hFree
    rcases
      makeNames_progress (leftoverSlash cwd path)
        (resolvedNames cwd path)
        (progress_start fresh hClosed) with
      ⟨ret, k', hRun, hProgress⟩ |
      ⟨e, text, k', hRun, hGrown⟩
    · rw [hRun]
      rw [List.nil_append] at hProgress
      exact madeAll_of_progress hClosed hProgress hFree
    · rw [hRun]
      rw [List.nil_append] at hGrown
      refine
        { grown := hGrown
          directories := ?_
          created_iff := ?_
          exists_iff := ?_
          otherwise := fun _ => ⟨e, text, rfl⟩ }
      · intro ret hRet
        cases hRet
      · intro ret hRet
        cases hRet
      · intro ret hRet
        cases hRet

/- A file system with a file "f" in the root directory. -/
def smallKernel : Kernel where
  tree := fun loc =>
    if loc = [] then some (.directory ⟨true, true, false⟩)
    else if loc = [str "f"] then some (.file .regular)
    else none
  cwd := []

theorem smallKernel_root :
    smallKernel.tree [] =
      some (.directory ⟨true, true, false⟩) := by
  unfold smallKernel
  simp

theorem smallKernel_file :
    smallKernel.tree [str "f"] = some (.file .regular) := by
  unfold smallKernel
  simp

theorem closed_smallKernel : Closed smallKernel.tree where
  root := ⟨_, smallKernel_root⟩
  parent := by
    intro name loc hEntry
    refine ⟨⟨true, true, false⟩, ?_⟩
    by_cases hLoc : name :: loc = [str "f"]
    · injection hLoc with _ hRoot
      rw [hRoot]
      exact smallKernel_root
    · unfold smallKernel at hEntry
      simp [hLoc] at hEntry

theorem makeAllDirs_correct_new :
    MadeAll ⟨true, true, false⟩ smallKernel
        (resolvedNames NormalPath.root (str "/a/b"))
        ((makeAllDirs ⟨true, true, false⟩
          (.ok NormalPath.root.path)
          (str "/a/b")).run smallKernel) ↔
      ¬ Blocked smallKernel
        (resolvedNames NormalPath.root (str "/a/b")) :=
  makeAllDirs_correct_iff ⟨true, true, false⟩
    NormalPath.root (str "/a/b") (by decide) smallKernel
    closed_smallKernel

/- A regular file is reported as an existing directory. -/
theorem makeAllDirs_reports_file :
    (makeAllDirs ⟨true, true, false⟩
        (.ok NormalPath.root.path)
        (str "/f")).run smallKernel =
      (.returned .alreadyExists, smallKernel) ∧
    ¬ smallKernel.IsDirectory
      (resolvedNames NormalPath.root (str "/f")) ∧
    ¬ MadeAll ⟨true, true, false⟩ smallKernel
      (resolvedNames NormalPath.root (str "/f"))
      ((makeAllDirs ⟨true, true, false⟩
        (.ok NormalPath.root.path)
        (str "/f")).run smallKernel) := by
  have hNames :
      resolvedNames NormalPath.root (str "/f") =
        [str "f"] := by
    decide
  have hTurn :
      turn Access.searchable smallKernel.tree []
          (.into (str "f")) =
        .ok (.place [str "f"]) := by
    unfold turn
    simp only [smallKernel_root, smallKernel_file, if_true]
  have hStands : smallKernel.Stands [] (str "f") := by
    refine
      ⟨maxLinks, [], _, walk_nil _ _ _ _, smallKernel_root,
        rfl, ?_⟩
    rw [smallKernel_file]
    exact Option.some_ne_none _
  have hNot : ¬ smallKernel.IsDirectory [str "f"] := by
    intro hDirectory
    rcases hDirectory with ⟨left, loc, access, hWalk, hLoc⟩
    have hThere :
        smallKernel.resolve [] [.into (str "f")] =
          .ok (maxLinks, [str "f"]) := by
      unfold Kernel.resolve
      rw [walk_cons_place _ hTurn, walk_nil]
    rw [List.map_singleton, hThere] at hWalk
    cases hWalk
    rw [smallKernel_file] at hLoc
    cases hLoc
  have hRun :
      (makeAllDirs ⟨true, true, false⟩
          (.ok NormalPath.root.path)
          (str "/f")).run smallKernel =
        (.returned .alreadyExists, smallKernel) := by
    rw [makeAllDirs_eq _ _ (by decide), hNames]
    apply makeNames_stands
    intro before name after hSplit
    cases before with
    | nil =>
        injection hSplit with hName
        rw [← hName]
        exact hStands
    | cons first before =>
        injection hSplit with _ hRest
        exact absurd hRest (by simp)
  rw [hNames]
  refine ⟨hRun, hNot, ?_⟩
  intro hMade
  rw [hRun] at hMade
  exact
    hNot
      (hMade.directories .alreadyExists rfl [str "f"] []
        rfl)

end FS

end Cosmos
