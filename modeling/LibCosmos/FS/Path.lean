import LibCosmos.Core.Str
import LibCosmos.Foundation.PathStack

/-
  Lexical normalization of paths (`src/fs/path.cxx`).

  Main declarations:
    * `Cosmos.FS.normalizePath`
    * `Cosmos.FS.normalizeLoop_sim`
    * `Cosmos.FS.normalizePath_eq`
    * `Cosmos.FS.normalizePath_correct_iff`
-/

namespace Cosmos

namespace FS

open PathStack

------------------------------------------------------------
-- The Scanner
------------------------------------------------------------

def slash : Byte := 0x2f
def dot : Byte := 0x2e

/- The local variables `ret` and `slashes`. -/
structure Scan where
  ret : Str
  slashes : Nat
deriving DecidableEq, Repr

/-
  One round of the loop for the given component.
  `getWorkingDir` is what the call of that name yields.
-/
def normalizeComponent
    (getWorkingDir : Except Exn Str)
    (component : Str)
    (s : Scan) : Except Exn Scan := do
  if component.length > 0 then
    -- a path without leading slash is relative to the CWD
    let ret ←
      if s.slashes = 0 ∧ s.ret = [] then do
        let cwd ← getWorkingDir
        pure (s.ret ++ cwd)
      else
        pure s.ret
    if component = [dot, dot] then
      -- don't remove the root directory
      if ret.length > 1 then
        let ret ← Str.erase ret (Str.rfind ret slash)
        pure { ret := ret, slashes := s.slashes + 1 }
      else
        pure { ret := ret, slashes := s.slashes + 1 }
    else if component = [dot] then
      pure { ret := ret, slashes := s.slashes + 1 }
    else
      pure
        { ret := ret ++ [slash] ++ component
          slashes := s.slashes }
  else
    pure { ret := s.ret, slashes := s.slashes + 1 }

/-
  The loop of `normalize_path`. In every round `end` is the
  next slash from `start` on; without one `start` becomes
  `npos` and the loop is over.
-/
def normalizeLoop
    (getWorkingDir : Except Exn Str)
    (path : Str)
    (start : Nat)
    (s : Scan) : Except Exn Scan :=
  if start < path.length then
    match hFind : Str.find path slash start with
    | some last => do
        let component := Str.substr path start (some last)
        let s ←
          normalizeComponent getWorkingDir component s
        normalizeLoop getWorkingDir path (last + 1) s
    | none =>
        normalizeComponent getWorkingDir
          (Str.substr path start none) s
  else
    .ok s
termination_by path.length - start
decreasing_by
  have hLe := Str.pos_le_of_find hFind
  omega

/- `fs::normalize_path`. -/
def normalizePath
    (getWorkingDir : Except Exn Str)
    (path : Str) : Except Exn Str := do
  let s ←
    normalizeLoop getWorkingDir path 0
      { ret := [], slashes := 0 }
  if s.slashes > 0 ∧ s.ret = [] then
    pure [slash]
  else
    pure s.ret

------------------------------------------------------------
-- Rounds of the Loop
------------------------------------------------------------

variable {getWorkingDir : Except Exn Str}

theorem normalizeLoop_done
    {path : Str} {start : Nat}
    (hDrop : path.drop start = [])
    (s : Scan) :
    normalizeLoop getWorkingDir path start s = .ok s := by
  have hLength := List.drop_eq_nil_iff.mp hDrop
  rw [normalizeLoop, if_neg (by omega)]

theorem normalizeLoop_last
    {path : Str} {start : Nat}
    (hDrop : path.drop start ≠ [])
    (hSlash : slash ∉ path.drop start)
    (s : Scan) :
    normalizeLoop getWorkingDir path start s =
      normalizeComponent getWorkingDir
        (path.drop start) s := by
  have hLength : start < path.length := by
    by_contra hNot
    exact hDrop (List.drop_eq_nil_iff.mpr (by omega))
  rw [normalizeLoop, if_pos hLength]
  split
  · next hFind =>
      rw [Str.find_eq_none hSlash] at hFind
      cases hFind
  · rfl

theorem normalizeLoop_slash
    {path : Str} {start : Nat} {component rest : Str}
    (hDrop :
      path.drop start = component ++ slash :: rest)
    (hSlash : slash ∉ component)
    (s : Scan) :
    normalizeLoop getWorkingDir path start s =
      (normalizeComponent getWorkingDir component s).bind
        (normalizeLoop getWorkingDir path
          (start + component.length + 1)) := by
  have hLength : start < path.length := by
    by_contra hNot
    rw [List.drop_eq_nil_iff.mpr (by omega)] at hDrop
    simp at hDrop
  have hFound := Str.find_eq_some hDrop hSlash
  rw [normalizeLoop, if_pos hLength]
  split
  · next last hFind =>
      rw [hFound] at hFind
      cases hFind
      simp [Str.substr, hDrop, bind]
  · next hFind =>
      rw [hFound] at hFind
      cases hFind

theorem drop_next
    {path : Str} {start : Nat} {component rest : Str}
    (hDrop :
      path.drop start = component ++ slash :: rest) :
    path.drop (start + component.length + 1) = rest := by
  rw [Nat.add_assoc, ← List.drop_drop, hDrop]
  simp

------------------------------------------------------------
-- The Scanner Follows the Stack
------------------------------------------------------------

/-
  The scanner holds a stack of names behind `base`. The base
  is what the CWD leaves in front of the names: nothing, or
  a slash when the CWD is the root directory.
-/
structure Sim
    (base : Str) (s : Scan) (stack : List Str) : Prop where
  base_length : base.length ≤ 1
  ret_eq : s.ret = base ++ trail slash stack
  names : ∀ n ∈ stack, IsName slash dot n
  started : 0 < s.slashes ∨ s.ret ≠ []

/- Leaving a directory erases the last name. -/
theorem erase_last_name
    (base : Str) (stack : List Str) {name : Str}
    (hName : slash ∉ name) :
    Str.erase (base ++ trail slash (stack ++ [name]))
        (Str.rfind
          (base ++ trail slash (stack ++ [name])) slash) =
      .ok (base ++ trail slash stack) := by
  have hSplit :
      base ++ trail slash (stack ++ [name]) =
        (base ++ trail slash stack) ++ slash :: name := by
    rw [trail_append_singleton, List.append_assoc]
  rw [hSplit, Str.rfind_append_cons _ _ hName, Str.erase,
    List.take_left']
  rfl

theorem Sim.not_initial
    {base : Str} {s : Scan} {stack : List Str}
    (hSim : Sim base s stack) :
    ¬ (s.slashes = 0 ∧ s.ret = []) := by
  rintro ⟨hSlashes, hRet⟩
  rcases hSim.started with hPos | hRet'
  · omega
  · exact hRet' hRet

/- A component that names nothing. -/
theorem Sim.skip
    {base : Str} {s : Scan} {stack : List Str}
    (hSim : Sim base s stack) :
    Sim base { ret := s.ret, slashes := s.slashes + 1 }
      stack where
  base_length := hSim.base_length
  ret_eq := hSim.ret_eq
  names := hSim.names
  started := Or.inl (Nat.succ_pos _)

/- The parent directory, if there is a last name to erase. -/
theorem normalizeComponent_parent
    (getWorkingDir : Except Exn Str)
    {base : Str} {s : Scan} {stack : List Str}
    (hSim : Sim base s stack) :
    ∃ s',
      normalizeComponent getWorkingDir [dot, dot] s =
        .ok s' ∧
      Sim base s' stack.dropLast := by
  have hStarted := hSim.not_initial
  rcases List.eq_nil_or_concat stack with
    hNone | ⟨front, name, hSnoc⟩
  · subst hNone
    have hShort : ¬ s.ret.length > 1 := by
      have hBase := hSim.base_length
      rw [hSim.ret_eq]
      simp [trail]
      omega
    refine ⟨_, ?_, hSim.skip⟩
    simp [normalizeComponent, hStarted, hShort, bind,
      Except.bind, pure, Except.pure]
  · rw [List.concat_eq_append] at hSnoc
    subst hSnoc
    have hName : IsName slash dot name :=
      hSim.names name (by simp)
    have hLong : s.ret.length > 1 := by
      have hPos := List.length_pos_iff.mpr hName.1
      rw [hSim.ret_eq, trail_append_singleton]
      simp only [List.length_append, List.length_cons]
      omega
    refine
      ⟨{ ret := base ++ trail slash front
         slashes := s.slashes + 1 }, ?_, ?_⟩
    · have hErase :=
        erase_last_name base front hName.2.1
      rw [← hSim.ret_eq] at hErase
      simp [normalizeComponent, hStarted, hLong,
        hErase, bind, Except.bind, pure, Except.pure]
    · exact
        { base_length := hSim.base_length
          ret_eq := by simp
          names := fun n hMem =>
            hSim.names n (List.dropLast_subset _ hMem)
          started := Or.inl (Nat.succ_pos _) }

/- One round does to the scanner what `enter` does to the stack. -/
theorem normalizeComponent_sim
    (getWorkingDir : Except Exn Str)
    {base : Str} {s : Scan} {stack : List Str}
    (hSim : Sim base s stack)
    {component : Str}
    (hSlash : slash ∉ component) :
    ∃ s',
      normalizeComponent getWorkingDir component s =
        .ok s' ∧
      Sim base s' (enter dot stack component) := by
  have hStarted := hSim.not_initial
  by_cases hParent : component = [dot, dot]
  · have hEnter :
        enter dot stack [dot, dot] = stack.dropLast := by
      simp [enter]
    rw [hParent, hEnter]
    exact normalizeComponent_parent getWorkingDir hSim
  · by_cases hNothing : component = [] ∨ component = [dot]
    · have hEnter : enter dot stack component = stack := by
        rcases hNothing with rfl | rfl <;> simp [enter]
      rw [hEnter]
      refine ⟨_, ?_, hSim.skip⟩
      rcases hNothing with rfl | rfl
      · simp [normalizeComponent, pure, Except.pure]
      · simp [normalizeComponent, hStarted, bind,
          Except.bind, pure, Except.pure]
    · rw [not_or] at hNothing
      rcases hNothing with ⟨hEmpty, hHere⟩
      have hLength : component.length > 0 :=
        List.length_pos_iff.mpr hEmpty
      have hEnter :
          enter dot stack component =
            stack ++ [component] := by
        simp [enter, hEmpty, hHere, hParent]
      refine
        ⟨{ ret := s.ret ++ [slash] ++ component
           slashes := s.slashes }, ?_, ?_⟩
      · simp [normalizeComponent, hStarted, hLength,
          hParent, hHere, bind, Except.bind, pure,
          Except.pure]
      · exact
          { base_length := hSim.base_length
            ret_eq := by
              rw [hEnter, trail_append_singleton,
                hSim.ret_eq]
              simp
            names := names_enter hSim.names hSlash
            started := Or.inr (by simp) }

/-
  The loop does to the scanner what resolving the rest of
  the path does to the stack; by induction on the length of
  that rest.
-/
theorem normalizeLoop_sim
    (getWorkingDir : Except Exn Str)
    {base : Str} (path : Str) :
    ∀ (start : Nat) {s : Scan} {stack : List Str},
      Sim base s stack →
      ∃ s',
        normalizeLoop getWorkingDir path start s = .ok s' ∧
        Sim base s'
          (resolve slash dot stack (path.drop start)) := by
  intro start
  induction hRest : (path.drop start).length using
    Nat.strongRecOn generalizing start with
  | ind n ih =>
      intro s stack hSim
      by_cases hDone : path.drop start = []
      · refine ⟨s, normalizeLoop_done hDone s, ?_⟩
        simpa [hDone] using hSim
      · by_cases hSlash : slash ∈ path.drop start
        · rcases List.eq_append_cons_of_mem hSlash with
            ⟨component, rest, hDrop, hNotMem⟩
          have hNext := drop_next hDrop
          have hShorter :
              (path.drop
                (start + component.length + 1)).length <
                n := by
            rw [hNext, ← hRest, hDrop]
            simp only [List.length_append,
              List.length_cons]
            omega
          rcases normalizeComponent_sim getWorkingDir hSim
              hNotMem with
            ⟨s', hRound, hSim'⟩
          rcases ih _ hShorter _ rfl hSim' with
            ⟨s'', hTail, hSim''⟩
          refine ⟨s'', ?_, ?_⟩
          · rw [normalizeLoop_slash hDrop hNotMem, hRound]
            exact hTail
          · rw [hDrop,
              resolve_component_append stack hNotMem,
              ← hNext]
            exact hSim''
        · rw [normalizeLoop_last hDone hSlash,
            resolve_component stack hSlash]
          exact normalizeComponent_sim getWorkingDir hSim hSlash

------------------------------------------------------------
-- Working Directories
------------------------------------------------------------

/-
  A normalized absolute path, as the kernel reports the
  current working directory: its stack of names.
-/
structure NormalPath where
  names : List Str
  valid : ∀ n ∈ names, IsName slash dot n

namespace NormalPath

/- The string for the directory. -/
def path (cwd : NormalPath) : Str :=
  render slash cwd.names

/- The root directory "/". -/
def root : NormalPath where
  names := []
  valid := by simp

end NormalPath

/- A path that the CWD is put in front of. -/
def IsRelative (path : Str) : Prop :=
  path.head? ≠ some slash

instance (path : Str) : Decidable (IsRelative path) := by
  unfold IsRelative
  infer_instance

/-
  The component-stack reference: start from the names of the
  CWD for a relative path and from nothing for an absolute
  one, go through the components, join what is left.
-/
def resolvedNames
    (cwd : NormalPath) (path : Str) : List Str :=
  if IsRelative path then
    resolve slash dot cwd.names path
  else
    resolve slash dot [] path

theorem names_resolvedNames
    (cwd : NormalPath) (path : Str) :
    ∀ n ∈ resolvedNames cwd path, IsName slash dot n := by
  unfold resolvedNames
  split
  · exact names_resolve cwd.valid path
  · exact names_resolve (by simp) path

------------------------------------------------------------
-- What the Function Returns
------------------------------------------------------------

/-
  What the scanner holds in front of the names: the slash of
  the root directory, when a relative path was put behind it.
-/
def leftoverSlash
    (cwd : NormalPath) (path : Str) : Str :=
  if IsRelative path ∧ cwd.names = [] then [slash] else []

theorem sim_workingDir
    (cwd : NormalPath) {path : Str}
    (hRelative : IsRelative path) :
    Sim (leftoverSlash cwd path)
      { ret := cwd.path, slashes := 0 } cwd.names := by
  by_cases hRoot : cwd.names = []
  · have hBase : leftoverSlash cwd path = [slash] := by
      rw [leftoverSlash, if_pos ⟨hRelative, hRoot⟩]
    exact
      { base_length := by simp [hBase]
        ret_eq := by
          simp [hBase, NormalPath.path, hRoot, render,
            trail]
        names := cwd.valid
        started :=
          Or.inr (by simp [NormalPath.path, render]) }
  · have hBase : leftoverSlash cwd path = [] := by
      rw [leftoverSlash, if_neg]
      exact fun hBoth => hRoot hBoth.2
    exact
      { base_length := by simp [hBase]
        ret_eq := by
          simp [hBase, NormalPath.path,
            render_eq_trail hRoot]
        names := cwd.valid
        started :=
          Or.inr (by simp [NormalPath.path, render]) }

/- The first component of a relative path finds the CWD. -/
theorem normalizeComponent_start
    (cwd : NormalPath) {component : Str}
    (hNonempty : component ≠ []) :
    normalizeComponent (.ok cwd.path) component
        { ret := [], slashes := 0 } =
      normalizeComponent (.ok cwd.path) component
        { ret := cwd.path, slashes := 0 } := by
  have hPath : cwd.path ≠ [] := by
    simp [NormalPath.path, render]
  have hLength : component.length > 0 :=
    List.length_pos_iff.mpr hNonempty
  simp [normalizeComponent, hLength, hPath, bind,
    Except.bind, pure, Except.pure]

/- The loop leaves the names of the reference. -/
theorem normalizeLoop_resolved
    (cwd : NormalPath) {path : Str} (hPath : path ≠ []) :
    ∃ s,
      normalizeLoop (.ok cwd.path) path 0
        { ret := [], slashes := 0 } = .ok s ∧
      Sim (leftoverSlash cwd path) s
        (resolvedNames cwd path) := by
  by_cases hRelative : IsRelative path
  · have hStart :
        normalizeLoop (.ok cwd.path) path 0
            { ret := [], slashes := 0 } =
          normalizeLoop (.ok cwd.path) path 0
            { ret := cwd.path, slashes := 0 } := by
      by_cases hSlash : slash ∈ path
      · rcases List.eq_append_cons_of_mem hSlash with
          ⟨component, rest, hSplit, hNotMem⟩
        have hNonempty : component ≠ [] := by
          rintro rfl
          exact hRelative (by simp [hSplit])
        have hDrop :
            path.drop 0 = component ++ slash :: rest := by
          simpa using hSplit
        rw [normalizeLoop_slash hDrop hNotMem,
          normalizeLoop_slash hDrop hNotMem,
          normalizeComponent_start cwd hNonempty]
      · have hDrop : path.drop 0 ≠ [] := by
          simpa using hPath
        have hNotMem : slash ∉ path.drop 0 := by
          simpa using hSlash
        rw [normalizeLoop_last hDrop hNotMem,
          normalizeLoop_last hDrop hNotMem,
          normalizeComponent_start cwd hDrop]
    rw [hStart, resolvedNames, if_pos hRelative]
    have hLoop :=
      normalizeLoop_sim (.ok cwd.path) path 0
        (sim_workingDir cwd hRelative)
    simpa using hLoop
  · have hBase : leftoverSlash cwd path = [] := by
      rw [leftoverSlash, if_neg]
      exact fun hBoth => hRelative hBoth.1
    have hAbsolute : ∃ rest, path = slash :: rest := by
      cases path with
      | nil => exact absurd rfl hPath
      | cons c rest =>
          refine ⟨rest, ?_⟩
          simpa [IsRelative] using hRelative
    rcases hAbsolute with ⟨rest, rfl⟩
    have hDrop :
        (slash :: rest).drop 0 = [] ++ slash :: rest := by
      simp
    have hFirst :
        normalizeComponent (.ok cwd.path) []
            { ret := [], slashes := 0 } =
          .ok { ret := [], slashes := 1 } := by
      simp [normalizeComponent, pure, Except.pure]
    have hRoot :
        Sim [] { ret := [], slashes := 1 } [] :=
      { base_length := by simp
        ret_eq := by simp [trail]
        names := by simp
        started := Or.inl (by simp) }
    rw [normalizeLoop_slash hDrop (by simp), hFirst, hBase,
      resolvedNames, if_neg hRelative, resolve_sep_cons]
    have hLoop :=
      normalizeLoop_sim (.ok cwd.path) (slash :: rest) 1
        hRoot
    simpa [Except.bind] using hLoop

/-
  The result in every case: the joined names of the
  reference, behind one more slash for a relative path in
  the root directory that leaves a name.
-/
theorem normalizePath_eq
    (cwd : NormalPath) {path : Str} (hPath : path ≠ []) :
    normalizePath (.ok cwd.path) path =
      .ok
        (if resolvedNames cwd path = [] then
          render slash []
        else
          leftoverSlash cwd path ++
            render slash (resolvedNames cwd path)) := by
  rcases normalizeLoop_resolved cwd hPath with
    ⟨s, hLoop, hSim⟩
  have hResult :
      normalizePath (.ok cwd.path) path =
        .ok
          (if s.slashes > 0 ∧ s.ret = [] then
            [slash]
          else
            s.ret) := by
    simp only [normalizePath, hLoop, bind, Except.bind,
      pure, Except.pure]
    split <;> rfl
  rw [hResult]
  by_cases hNames : resolvedNames cwd path = []
  · rw [if_pos hNames]
    have hRet := hSim.ret_eq
    have hStarted := hSim.started
    rw [hNames] at hRet
    unfold leftoverSlash at hRet
    split at hRet
    · simp [hRet, trail, render]
    · have hEmpty : s.ret = [] := by
        simpa [trail] using hRet
      have hSlashes : s.slashes > 0 := by
        rcases hStarted with hPos | hRet'
        · exact hPos
        · exact absurd hEmpty hRet'
      simp [hEmpty, hSlashes, render]
  · rw [if_neg hNames, render_eq_trail hNames,
      ← hSim.ret_eq]
    have hRet : s.ret ≠ [] := by
      rw [hSim.ret_eq, ← render_eq_trail hNames]
      simp [render]
    simp [hRet]

------------------------------------------------------------
-- Correctness
------------------------------------------------------------

/-
  What `normalize_path` is for: it returns the path of the
  reference, which is in normal form, and normalizing the
  result again changes nothing.
-/
structure NormalizesTo
    (cwd : NormalPath) (path : Str) : Prop where
  reference :
    normalizePath (.ok cwd.path) path =
      .ok (render slash (resolvedNames cwd path))
  normal :
    ∀ result,
      normalizePath (.ok cwd.path) path = .ok result →
        NormalForm slash dot result
  idempotent :
    ∀ result,
      normalizePath (.ok cwd.path) path = .ok result →
        normalizePath (.ok cwd.path) result = .ok result

/- The reference path of names is left as it is. -/
theorem normalizePath_render
    (cwd : NormalPath) {names : List Str}
    (hNames : ∀ n ∈ names, IsName slash dot n) :
    normalizePath (.ok cwd.path) (render slash names) =
      .ok (render slash names) := by
  have hAbsolute : ¬ IsRelative (render slash names) := by
    simp [IsRelative, render]
  have hResolved :
      resolvedNames cwd (render slash names) = names := by
    rw [resolvedNames, if_neg hAbsolute,
      resolve_render hNames]
  have hBase :
      leftoverSlash cwd (render slash names) = [] := by
    rw [leftoverSlash, if_neg]
    exact fun hBoth => hAbsolute hBoth.1
  rw [normalizePath_eq cwd (by simp [render]), hResolved,
    hBase]
  split
  · next hEmpty => rw [hEmpty]
  · rfl

theorem normalizesTo_of_reference
    {cwd : NormalPath} {path : Str}
    (hReference :
      normalizePath (.ok cwd.path) path =
        .ok (render slash (resolvedNames cwd path))) :
    NormalizesTo cwd path := by
  have hNames := names_resolvedNames cwd path
  refine ⟨hReference, ?_, ?_⟩
  · intro result hResult
    rw [hReference] at hResult
    cases hResult
    exact normalForm_render hNames
  · intro result hResult
    rw [hReference] at hResult
    cases hResult
    exact normalizePath_render cwd hNames

/-
  `normalize_path` does its job for every path and working
  directory, except for a relative path in the root
  directory with a named component that no later ".."
  cancels.
-/
theorem normalizePath_correct_iff
    (cwd : NormalPath) (path : Str) (hPath : path ≠ []) :
    NormalizesTo cwd path ↔
      ¬ (cwd.names = [] ∧ IsRelative path ∧
        0 < depth dot 0 (path.splitOn slash)) := by
  have hEq := normalizePath_eq cwd hPath
  constructor
  · rintro hCorrect ⟨hRoot, hRelative, hDepth⟩
    have hLength :
        (resolvedNames cwd path).length =
          depth dot 0 (path.splitOn slash) := by
      rw [resolvedNames, if_pos hRelative, length_resolve,
        hRoot]
      rfl
    have hNames : resolvedNames cwd path ≠ [] := by
      intro hEmpty
      rw [hEmpty] at hLength
      simp only [List.length_nil] at hLength
      omega
    have hBase : leftoverSlash cwd path = [slash] := by
      rw [leftoverSlash, if_pos ⟨hRelative, hRoot⟩]
    rw [if_neg hNames, hBase, hCorrect.reference] at hEq
    have hString := congrArg List.length (Except.ok.inj hEq)
    simp at hString
  · intro hGood
    apply normalizesTo_of_reference
    rw [hEq]
    by_cases hNames : resolvedNames cwd path = []
    · rw [if_pos hNames, hNames]
    · have hBase : leftoverSlash cwd path = [] := by
        rw [leftoverSlash, if_neg]
        rintro ⟨hRelative, hRoot⟩
        apply hGood
        refine ⟨hRoot, hRelative, ?_⟩
        have hLength :
            (resolvedNames cwd path).length =
              depth dot 0 (path.splitOn slash) := by
          rw [resolvedNames, if_pos hRelative,
            length_resolve, hRoot]
          rfl
        have hPos := List.length_pos_iff.mpr hNames
        omega
      rw [if_neg hNames, hBase, List.nil_append]

theorem normalizePath_correct_home :
    NormalizesTo
        { names := [str "home"], valid := by decide }
        (str "../a/./b/..//") ↔
      ¬ (([str "home"] : List Str) = [] ∧
        IsRelative (str "../a/./b/..//") ∧
        0 < depth dot 0
          ((str "../a/./b/..//").splitOn slash)) :=
  normalizePath_correct_iff _ _ (by decide)

/- In the root directory "a" becomes "//a". -/
theorem normalizePath_root_doubles_slash :
    normalizePath (.ok NormalPath.root.path) (str "a") =
        .ok (str "//a") ∧
      ¬ NormalizesTo NormalPath.root (str "a") := by
  have hResult :
      normalizePath (.ok NormalPath.root.path) (str "a") =
        .ok (str "//a") := by
    rw [normalizePath_eq NormalPath.root (by decide)]
    decide
  refine ⟨hResult, fun hCorrect => ?_⟩
  have hReference := hCorrect.reference
  rw [hResult] at hReference
  revert hReference
  decide

end FS

end Cosmos
