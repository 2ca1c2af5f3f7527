import LibCosmos.Core.Types
import LibCosmos.Foundation.Terminated

/-
  Argument and environment vectors for new programs
  (`include/string.hxx`, `include/proc/process.hxx`,
  `src/proc/process.cxx`).

  A pointer is a position in a block of memory. The kernel
  has no result if it reads outside of a block or of a
  vector.

  Main declarations:
    * `toCStringVector`, `StringView`, `StdString`
    * `Exec.execWrapper`, `Exec.Variant.call`
    * `Exec.readVector`, what the kernel reads
    * `Exec.Arguments`
    * `Exec.agree_iff`
-/

namespace Cosmos

------------------------------------------------------------
-- Strings in Memory
------------------------------------------------------------

/- A `const char*` that is not null. -/
structure CharPtr where
  block : Nat
  offset : Nat
deriving DecidableEq, Repr

/- A `const char*`. -/
abbrev CString := Option CharPtr

/- A `std::string_view`; a default view has no data. -/
structure StringView where
  data : CString
  size : Nat
deriving DecidableEq, Repr

/- A `std::string`; its buffer begins with the data. -/
structure StdString where
  block : Nat
  size : Nat
deriving DecidableEq, Repr

def StdString.data (s : StdString) : CString :=
  some ⟨s.block, 0⟩

/- The bytes of all blocks. -/
abbrev Image := Nat → Option (List Byte)

/- `to_cstring_vector`; both string types have a `data`. -/
def toCStringVector
    {S : Type} (data : S → CString) (inVector : List S) :
    List CString :=
  inVector.map data ++ [none]

namespace Exec

------------------------------------------------------------
-- System Calls
------------------------------------------------------------

/- The system call to start a program. -/
inductive ExecFunc where
| execvpe
| execveat (fd : FileNum) (flags : Int32)
deriving DecidableEq, Repr

/- What it is given. -/
structure ExecCall where
  func : ExecFunc
  pathname : CharPtr
  argv : List CString
  envp : List CString
deriving DecidableEq, Repr

/-
  `exec_wrapper`, up to the system call. There is no result
  for a vector without a last element.
-/
def execWrapper
    (environ : List CString) (func : ExecFunc)
    (path : CharPtr) (args env : Option (List CString)) :
    Option (Except Exn ExecCall) :=
  let defargs : List CString := [some path, none]
  let call : ExecCall :=
    { func := func
      pathname := path
      argv := args.getD defargs
      envp := env.getD environ }
  match (args.getD defargs).getLast? with
  | none => none
  | some (some _) =>
      some
        (.error
          (.usageError
            (str
              ("argument vector without nullptr " ++
                "terminator encountered"))))
  | some none =>
      match (env.getD [none]).getLast? with
      | none => none
      | some (some _) =>
          some
            (.error
              (.usageError
                (str
                  ("environment vector without nullptr " ++
                    "terminator encountered"))))
      | some none => some (.ok call)

/- `proc::exec`, `exec_at` and `fexec`. -/
inductive Variant where
| exec (path : CharPtr)
| execAt
    (dirFd : FileNum) (path : CharPtr)
    (followSymlinks : Bool)
| fexec (fd : FileNum) (emptyPath : CharPtr)
deriving DecidableEq, Repr

def Variant.call
    (environ : List CString) (args env : Option (List CString)) :
    Variant → Option (Except Exn ExecCall)
| exec path => execWrapper environ .execvpe path args env
| execAt dirFd path followSymlinks =>
    execWrapper environ
      (.execveat dirFd
        (if followSymlinks then 0 else 0x100))
      path args env
| fexec fd emptyPath =>
    execWrapper environ (.execveat fd 0x1000) emptyPath args
      env

/- A vector that ends with a null pointer is passed on. -/
theorem call_of_terminated
    (variant : Variant) (environ : List CString)
    (args : List CString) (env : Option (List CString)) :
    ∃ call,
      variant.call environ (some (args ++ [none]))
          (env.map (· ++ [none])) = some (.ok call) ∧
        call.argv = args ++ [none] ∧
        call.envp = (env.map (· ++ [none])).getD environ := by
  have hWrapper : ∀ func path,
      execWrapper environ func path (some (args ++ [none]))
          (env.map (· ++ [none])) =
        some
          (.ok
            { func := func
              pathname := path
              argv := args ++ [none]
              envp :=
                (env.map (· ++ [none])).getD environ }) := by
    intro func path
    have hEnv :
        ((env.map (· ++ [none])).getD [none]).getLast? =
          some none := by
      cases env with
      | none => rfl
      | some env => simp
    unfold execWrapper
    simp only [Option.getD_some, List.getLast?_concat, hEnv]
  cases variant with
  | exec path => exact ⟨_, hWrapper _ _, rfl, rfl⟩
  | execAt dirFd path followSymlinks =>
      exact ⟨_, hWrapper _ _, rfl, rfl⟩
  | fexec fd emptyPath => exact ⟨_, hWrapper _ _, rfl, rfl⟩

------------------------------------------------------------
-- The Kernel
------------------------------------------------------------

section Kernel

variable (image : Image)

/- The string that a pointer shows. -/
def readString (p : CharPtr) : Option Str :=
  (image p.block).bind fun cells =>
    Terminated.scan 0 (cells.drop p.offset)

/- The strings up to the first null pointer. -/
def readVector : List CString → Option (List Str)
| [] => none
| none :: _ => some []
| some p :: rest =>
    (readString image p).bind fun s =>
      (readVector rest).map (s :: ·)

/- The bytes of a view; without data there are none. -/
def viewContent (v : StringView) : Option Str :=
  match v.data with
  | none => if v.size = 0 then some [] else none
  | some p =>
      (image p.block).bind fun cells =>
        if p.offset + v.size ≤ cells.length then
          some ((cells.drop p.offset).take v.size)
        else none

/- A NUL character follows the view in its buffer. -/
def ViewTerminated (v : StringView) : Prop :=
  ∃ p cells,
    v.data = some p ∧ image p.block = some cells ∧
      cells[p.offset + v.size]? = some 0

/-
  Views and strings with the same contents, which have no
  NUL characters. The buffer of a string ends with one.
-/
structure Arguments where
  views : List StringView
  strings : List StdString
  contents : List Str
  viewed :
    views.map (viewContent image) = contents.map some
  copied :
    strings.map (fun s => image s.block) =
      contents.map fun content => some (content ++ [0])
  free : ∀ content ∈ contents, 0 ∉ content

/-
  The kernel reads the same strings from both vectors, and
  they have a null pointer at their end only.
-/
structure Alike (fromViews fromStrings : List CString) :
    Prop where
  same :
    readVector image fromViews =
      readVector image fromStrings
  complete : readVector image fromStrings ≠ none
  oneNull :
    fromViews.count none = 1 ∧ fromStrings.count none = 1

end Kernel

variable {image : Image}

theorem toCStringVector_cons
    {S : Type} (data : S → CString) (v : S)
    (inVector : List S) :
    toCStringVector data (v :: inVector) =
      data v :: toCStringVector data inVector := rfl

theorem count_none_pos
    {S : Type} (data : S → CString) (inVector : List S) :
    0 < (toCStringVector data inVector).count none := by
  rw [List.count_pos_iff]
  exact
    List.mem_append_right _ (List.mem_singleton.mpr rfl)

theorem readVector_cons_iff
    {p : CharPtr} {rest : List CString} {content : Str}
    {contents : List Str} :
    readVector image (some p :: rest) =
        some (content :: contents) ↔
      readString image p = some content ∧
        readVector image rest = some contents := by
  simp only [readVector]
  constructor
  · intro hAll
    rcases Option.bind_eq_some_iff.mp hAll with
      ⟨s, hString, hMap⟩
    rcases Option.map_eq_some_iff.mp hMap with
      ⟨others, hOthers, hEq⟩
    rcases List.cons.inj hEq with ⟨rfl, rfl⟩
    exact ⟨hString, hOthers⟩
  · rintro ⟨hString, hOthers⟩
    simp only [hString, hOthers, Option.bind_some,
      Option.map_some]

/- A string is read as it is. -/
theorem readVector_strings
    {strings : List StdString} :
    ∀ {contents : List Str},
      strings.map (fun s => image s.block) =
        contents.map (fun content => some (content ++ [0])) →
      (∀ content ∈ contents, 0 ∉ content) →
      readVector image
          (toCStringVector StdString.data strings) =
        some contents := by
  induction strings with
  | nil =>
      intro contents hCopied _
      cases contents with
      | nil => rfl
      | cons content contents => cases hCopied
  | cons s strings ih =>
      intro contents hCopied hFree
      cases contents with
      | nil => cases hCopied
      | cons content contents =>
          rw [List.map_cons, List.map_cons] at hCopied
          rcases List.cons.inj hCopied with ⟨hHead, hTail⟩
          have hRest :=
            ih hTail fun other hMem =>
              hFree other (List.mem_cons_of_mem _ hMem)
          have hString :
              readString image ⟨s.block, 0⟩ =
                some content := by
            unfold readString
            rw [hHead]
            exact
              Terminated.scan_append_cons 0
                (hFree content List.mem_cons_self) []
          exact readVector_cons_iff.mpr ⟨hString, hRest⟩

/-
  What the kernel reads from the data of a view is the view
  itself exactly if a NUL character follows it.
-/
theorem readString_view_iff
    {p : CharPtr} {size : Nat} {content : Str}
    (hContent :
      viewContent image ⟨some p, size⟩ = some content)
    (hFree : 0 ∉ content) :
    readString image p = some content ↔
      ViewTerminated image ⟨some p, size⟩ := by
  unfold viewContent at hContent
  simp only at hContent
  rcases Option.bind_eq_some_iff.mp hContent with
    ⟨cells, hCells, hInside⟩
  by_cases hRoom : p.offset + size ≤ cells.length
  · rw [if_pos hRoom] at hInside
    have hTake :
        (cells.drop p.offset).take size = content :=
      Option.some.inj hInside
    have hLength : content.length = size := by
      rw [← hTake, List.length_take, List.length_drop]
      omega
    have hSplit :
        cells.drop p.offset =
          content ++ cells.drop (p.offset + size) := by
      rw [← hTake, ← List.drop_drop,
        List.take_append_drop]
    have hRead :
        readString image p =
          Terminated.scan 0
            (content ++ cells.drop (p.offset + size)) := by
      unfold readString
      rw [hCells, Option.bind_some, hSplit]
    have hNul :
        cells[p.offset + size]? =
          (cells.drop (p.offset + size))[0]? := by
      rw [List.getElem?_drop, Nat.add_zero]
    rw [hRead, Terminated.scan_eq_some_iff]
    constructor
    · rintro ⟨-, rest, hEq⟩
      have hDrop := List.append_cancel_left hEq
      refine ⟨p, cells, rfl, hCells, ?_⟩
      rw [hNul, hDrop]
      rfl
    · rintro ⟨p', cells', hData, hCells', hEnd⟩
      cases hData
      rw [hCells] at hCells'
      cases hCells'
      simp only at hEnd
      rw [hNul] at hEnd
      refine ⟨hFree, ?_⟩
      cases hDrop : cells.drop (p.offset + size) with
      | nil =>
          rw [hDrop] at hEnd
          cases hEnd
      | cons c rest =>
          rw [hDrop] at hEnd
          cases hEnd
          exact ⟨rest, rfl⟩
  · rw [if_neg hRoom] at hInside
    cases hInside

/- The same for whole lists of views. -/
theorem readVector_views_iff
    {views : List StringView} :
    ∀ {contents : List Str},
      views.map (viewContent image) = contents.map some →
      (∀ content ∈ contents, 0 ∉ content) →
      ((readVector image
            (toCStringVector StringView.data views) =
          some contents ∧
        (toCStringVector StringView.data views).count none =
          1) ↔
        ∀ v ∈ views, ViewTerminated image v) := by
  induction views with
  | nil =>
      intro contents hViewed _
      cases contents with
      | nil => simp [toCStringVector, readVector]
      | cons content contents => cases hViewed
  | cons v views ih =>
      intro contents hViewed hFree
      cases contents with
      | nil => cases hViewed
      | cons content contents =>
          rw [List.map_cons, List.map_cons] at hViewed
          rcases List.cons.inj hViewed with ⟨hHead, hTail⟩
          have hRest :=
            ih hTail fun other hMem =>
              hFree other (List.mem_cons_of_mem _ hMem)
          rcases v with ⟨data, size⟩
          cases data with
          | none =>
              have hNever :
                  ¬ ViewTerminated image ⟨none, size⟩ := by
                rintro ⟨p, cells, hData, -⟩
                cases hData
              have hLast :=
                count_none_pos StringView.data views
              constructor
              · rintro ⟨-, hCount⟩
                rw [toCStringVector_cons,
                  List.count_cons_self] at hCount
                omega
              · intro hAll
                exact
                  absurd (hAll _ List.mem_cons_self) hNever
          | some p =>
              have hRead :=
                readString_view_iff hHead
                  (hFree content List.mem_cons_self)
              rw [toCStringVector_cons, List.forall_mem_cons,
                ← hRead, ← hRest, readVector_cons_iff,
                List.count_cons_of_ne
                  (Option.some_ne_none p),
                and_assoc]

/- The vectors of views and of strings. -/
def Arguments.fromViews (a : Arguments image) :
    List CString :=
  toCStringVector StringView.data a.views

def Arguments.fromStrings (a : Arguments image) :
    List CString :=
  toCStringVector StdString.data a.strings

theorem alike_iff (a : Arguments image) :
    Alike image a.fromViews a.fromStrings ↔
      ∀ v ∈ a.views, ViewTerminated image v := by
  have hStrings := readVector_strings a.copied a.free
  have hNulls :
      a.fromStrings.count none = 1 := by
    have hData :
        (a.strings.map StdString.data).count none = 0 := by
      rw [List.count_eq_zero]
      intro hMem
      rcases List.mem_map.mp hMem with ⟨s, -, hNone⟩
      cases hNone
    unfold Arguments.fromStrings toCStringVector
    rw [List.count_append, hData]
    rfl
  rw [← readVector_views_iff a.viewed a.free]
  constructor
  · intro hAlike
    exact
      ⟨hAlike.same.trans hStrings, hAlike.oneNull.1⟩
  · rintro ⟨hViews, hOne⟩
    exact
      { same := hViews.trans hStrings.symm
        complete := by
          unfold Arguments.fromStrings
          rw [hStrings]
          exact nofun
        oneNull := ⟨hOne, hNulls⟩ }

------------------------------------------------------------
-- Views and Strings
------------------------------------------------------------

/-
  With views the kernel is given the vectors that it is
  given with strings.
-/
def Agree
    (image : Image) (environ : List CString)
    (variant : Variant)
    (args : Arguments image) (env : Option (Arguments image)) :
    Prop :=
  ∃ viewCall stringCall,
    variant.call environ (some args.fromViews)
        (env.map Arguments.fromViews) =
      some (.ok viewCall) ∧
    variant.call environ (some args.fromStrings)
        (env.map Arguments.fromStrings) =
      some (.ok stringCall) ∧
    Alike image viewCall.argv stringCall.argv ∧
    (env ≠ none →
      Alike image viewCall.envp stringCall.envp)

/-
  All variants agree exactly if a NUL character follows
  every view.
-/
theorem agree_iff
    (image : Image) (environ : List CString)
    (variant : Variant)
    (args : Arguments image)
    (env : Option (Arguments image)) :
    Agree image environ variant args env ↔
      (∀ v ∈ args.views, ViewTerminated image v) ∧
        ∀ e ∈ env, ∀ v ∈ e.views, ViewTerminated image v := by
  rcases call_of_terminated variant environ
      (args.views.map StringView.data)
      (env.map fun e => e.views.map StringView.data) with
    ⟨viewCall, hViews, hViewArgs, hViewEnv⟩
  rcases call_of_terminated variant environ
      (args.strings.map StdString.data)
      (env.map fun e => e.strings.map StdString.data) with
    ⟨stringCall, hStrings, hStringArgs, hStringEnv⟩
  rw [Option.map_map] at hViews hViewEnv hStrings hStringEnv
  have hArgs := alike_iff args
  constructor
  · rintro ⟨viewCall', stringCall', hViews', hStrings',
      hAlikeArgs, hAlikeEnv⟩
    cases hViews'.symm.trans hViews
    cases hStrings'.symm.trans hStrings
    rw [hViewArgs, hStringArgs] at hAlikeArgs
    refine ⟨hArgs.mp hAlikeArgs, ?_⟩
    intro e hSome
    cases env with
    | none => cases hSome
    | some e' =>
        cases hSome
        have hBoth := hAlikeEnv nofun
        rw [hViewEnv, hStringEnv] at hBoth
        exact (alike_iff _).mp hBoth
  · rintro ⟨hAllArgs, hAllEnv⟩
    refine
      ⟨viewCall, stringCall, hViews, hStrings, ?_, ?_⟩
    · rw [hViewArgs, hStringArgs]
      exact hArgs.mpr hAllArgs
    · intro hSome
      cases env with
      | none => exact absurd rfl hSome
      | some e =>
          rw [hViewEnv, hStringEnv]
          exact (alike_iff e).mpr (hAllEnv e rfl)

/- A view of the first word of a line, and a copy of it. -/
def lineImage : Image := fun b =>
  if b = 1 then some (str "ls -l" ++ [0])
  else if b = 2 then some (str "ls" ++ [0])
  else none

def firstWord : Arguments lineImage where
  views := [⟨some ⟨1, 0⟩, 2⟩]
  strings := [⟨2, 2⟩]
  contents := [str "ls"]
  viewed := rfl
  copied := rfl
  free := by
    intro content hMem
    rw [List.mem_singleton.mp hMem]
    decide

/- The kernel reads the whole line. -/
theorem not_agree_firstWord :
    ¬ Agree lineImage [none] (.exec ⟨2, 0⟩) firstWord none ∧
      readVector lineImage firstWord.fromViews =
        some [str "ls -l"] ∧
      readVector lineImage firstWord.fromStrings =
        some [str "ls"] := by
  have hViews :
      readVector lineImage firstWord.fromViews =
        some [str "ls -l"] :=
    rfl
  have hStrings :
      readVector lineImage firstWord.fromStrings =
        some [str "ls"] :=
    rfl
  refine ⟨?_, hViews, hStrings⟩
  rintro ⟨viewCall, stringCall, hViewCall, hStringCall,
    hAlike, -⟩
  cases hViewCall
  cases hStringCall
  have hSame := hAlike.same
  exact absurd (hViews.symm.trans (hSame.trans hStrings))
    (by decide)

end Exec

end Cosmos
