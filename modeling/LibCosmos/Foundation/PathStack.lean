import Mathlib.Data.List.Basic

/-
  Paths as stacks of names, over any alphabet with a
  separator and a dot: a path is split at its separators,
  empty components and single dots are ignored, two dots
  leave the last name and every other component is entered.

  Main declarations:
    * `PathStack.IsName`, `PathStack.enter`
    * `PathStack.resolve`, `PathStack.render`
    * `PathStack.names_resolve`
    * `PathStack.length_resolve`
    * `PathStack.resolve_render`
-/

------------------------------------------------------------
-- Names, Stacks and Paths
------------------------------------------------------------

namespace PathStack

variable {χ : Type} [DecidableEq χ]

/- A component that names something. -/
def IsName (sep dot : χ) (c : List χ) : Prop :=
  c ≠ [] ∧ sep ∉ c ∧ c ≠ [dot] ∧ c ≠ [dot, dot]

instance (sep dot : χ) (c : List χ) :
    Decidable (IsName sep dot c) := by
  unfold IsName
  infer_instance

/- The effect of one component on the stack. -/
def enter
    (dot : χ)
    (stack : List (List χ))
    (c : List χ) : List (List χ) :=
  if c = [] ∨ c = [dot] then
    stack
  else if c = [dot, dot] then
    stack.dropLast
  else
    stack ++ [c]

/- The effect of a whole path on the stack. -/
def resolve
    (sep dot : χ)
    (stack : List (List χ))
    (path : List χ) : List (List χ) :=
  (path.splitOn sep).foldl (enter dot) stack

/- The absolute path of a stack. -/
def render
    (sep : χ)
    (stack : List (List χ)) : List χ :=
  sep :: [sep].intercalate stack

/- Every name of the stack with a separator in front. -/
def trail
    (sep : χ)
    (stack : List (List χ)) : List χ :=
  stack.flatMap fun c => sep :: c

/-
  The number of names that a list of components leaves on a
  stack of `level` names.
-/
def depth (dot : χ) : Nat → List (List χ) → Nat
| level, [] => level
| level, c :: cs =>
    if c = [] ∨ c = [dot] then
      depth dot level cs
    else if c = [dot, dot] then
      depth dot (level - 1) cs
    else
      depth dot (level + 1) cs

------------------------------------------------------------
-- Resolving
------------------------------------------------------------

variable {sep dot : χ}

theorem names_enter
    {stack : List (List χ)} {c : List χ}
    (hStack : ∀ n ∈ stack, IsName sep dot n)
    (hSep : sep ∉ c) :
    ∀ n ∈ enter dot stack c, IsName sep dot n := by
  intro n hMember
  unfold enter at hMember
  split at hMember
  · exact hStack n hMember
  · next hIgnored =>
      split at hMember
      · exact
          hStack n
            ((List.dropLast_sublist stack).subset hMember)
      · next hParent =>
          rcases List.mem_append.mp hMember with
            hOld | hNew
          · exact hStack n hOld
          · rw [List.mem_singleton] at hNew
            subst hNew
            rw [not_or] at hIgnored
            exact
              ⟨hIgnored.1, hSep, hIgnored.2, hParent⟩

theorem names_foldl
    {cs : List (List χ)} {stack : List (List χ)}
    (hStack : ∀ n ∈ stack, IsName sep dot n)
    (hSep : ∀ c ∈ cs, sep ∉ c) :
    ∀ n ∈ cs.foldl (enter dot) stack,
      IsName sep dot n := by
  induction cs generalizing stack with
  | nil => exact hStack
  | cons c cs ih =>
      rw [List.foldl_cons]
      apply ih
      · exact names_enter hStack (hSep c (by simp))
      · intro c' hMember
        exact hSep c' (by simp [hMember])

theorem sep_not_mem_of_mem_splitOn
    {path c : List χ}
    (hMember : c ∈ path.splitOn sep) :
    sep ∉ c := by
  induction path generalizing c with
  | nil =>
      rw [List.splitOn_nil, List.mem_singleton] at hMember
      simp [hMember]
  | cons x path ih =>
      rw [List.splitOn_cons_eq_if_modifyHead] at hMember
      by_cases hSep : x = sep
      · rw [if_pos (by simp [hSep])] at hMember
        rcases List.mem_cons.mp hMember with hHead | hTail
        · simp [hHead]
        · exact ih hTail
      · rw [if_neg (by simp [hSep])] at hMember
        cases hSplit : path.splitOn sep with
        | nil =>
            rw [hSplit] at hMember
            cases hMember
        | cons head tail =>
            rw [hSplit] at hMember ih
            rcases List.mem_cons.mp hMember with
              hHead | hTail
            · subst hHead
              have hRest := ih (List.mem_cons_self ..)
              rw [List.mem_cons, not_or]
              exact ⟨fun hEq => hSep hEq.symm, hRest⟩
            · exact ih (List.mem_cons_of_mem _ hTail)

/- Resolving a path keeps the names of a stack names. -/
theorem names_resolve
    {stack : List (List χ)}
    (hStack : ∀ n ∈ stack, IsName sep dot n)
    (path : List χ) :
    ∀ n ∈ resolve sep dot stack path,
      IsName sep dot n :=
  names_foldl hStack fun _ => sep_not_mem_of_mem_splitOn

@[simp] theorem resolve_nil (stack : List (List χ)) :
    resolve sep dot stack [] = stack := by
  simp [resolve, enter]

theorem resolve_component
    (stack : List (List χ))
    {c : List χ}
    (hSep : sep ∉ c) :
    resolve sep dot stack c = enter dot stack c := by
  rw [resolve, List.splitOn_eq_singleton hSep]
  rfl

theorem resolve_component_append
    (stack : List (List χ))
    {c : List χ}
    (hSep : sep ∉ c)
    (rest : List χ) :
    resolve sep dot stack (c ++ sep :: rest) =
      resolve sep dot (enter dot stack c) rest := by
  rw [resolve,
    List.splitOn_append_cons_self_of_not_mem hSep]
  rfl

theorem resolve_sep_cons
    (stack : List (List χ))
    (rest : List χ) :
    resolve sep dot stack (sep :: rest) =
      resolve sep dot stack rest := by
  have hEmpty : sep ∉ ([] : List χ) := by
    simp
  have hSplit :
      resolve sep dot stack ([] ++ sep :: rest) =
        resolve sep dot (enter dot stack []) rest :=
    resolve_component_append stack hEmpty rest
  simpa [enter] using hSplit

theorem length_foldl
    (cs : List (List χ)) (stack : List (List χ)) :
    (cs.foldl (enter dot) stack).length =
      depth dot stack.length cs := by
  induction cs generalizing stack with
  | nil => rfl
  | cons c cs ih =>
      rw [List.foldl_cons, ih, depth]
      unfold enter
      split
      · rfl
      · split
        · rw [List.length_dropLast]
        · rw [List.length_append, List.length_singleton]

/- The depth counts the names that are left in the end. -/
theorem length_resolve
    (stack : List (List χ)) (path : List χ) :
    (resolve sep dot stack path).length =
      depth dot stack.length (path.splitOn sep) :=
  length_foldl _ _

------------------------------------------------------------
-- Rendering
------------------------------------------------------------

omit [DecidableEq χ] in
theorem intercalate_eq_trail
    (c : List χ) (cs : List (List χ)) :
    [sep].intercalate (c :: cs) = c ++ trail sep cs := by
  induction cs generalizing c with
  | nil => simp [trail]
  | cons c' cs ih =>
      simp only [List.intercalate_cons_cons, ih]
      simp [trail]

/- A stack with a name is rendered name by name. -/
omit [DecidableEq χ] in
theorem render_eq_trail
    {stack : List (List χ)}
    (hStack : stack ≠ []) :
    render sep stack = trail sep stack := by
  cases stack with
  | nil => exact absurd rfl hStack
  | cons c cs =>
      rw [render, intercalate_eq_trail]
      simp [trail]

omit [DecidableEq χ] in
theorem trail_append_singleton
    (stack : List (List χ)) (c : List χ) :
    trail sep (stack ++ [c]) =
      trail sep stack ++ sep :: c := by
  simp [trail]

theorem foldl_enter_names
    {cs : List (List χ)}
    (hNames : ∀ c ∈ cs, IsName sep dot c)
    (stack : List (List χ)) :
    cs.foldl (enter dot) stack = stack ++ cs := by
  induction cs generalizing stack with
  | nil => simp
  | cons c cs ih =>
      have hName := hNames c (by simp)
      have hEnter : enter dot stack c = stack ++ [c] := by
        rw [enter, if_neg, if_neg hName.2.2.2]
        rw [not_or]
        exact ⟨hName.1, hName.2.2.1⟩
      rw [List.foldl_cons, hEnter, ih]
      · simp
      · intro c' hMember
        exact hNames c' (by simp [hMember])

/- A rendered stack resolves to itself. -/
theorem resolve_render
    {stack : List (List χ)}
    (hStack : ∀ n ∈ stack, IsName sep dot n) :
    resolve sep dot [] (render sep stack) = stack := by
  rw [render, resolve_sep_cons]
  by_cases hEmpty : stack = []
  · subst hEmpty
    simp
  · rw [resolve,
      List.splitOn_intercalate sep
        (fun n hMember => (hStack n hMember).2.1) hEmpty,
      foldl_enter_names hStack, List.nil_append]

------------------------------------------------------------
-- Normal Forms
------------------------------------------------------------

/-
  What a path in normal form looks like: one leading
  separator, names between separators, none at the end.
-/
structure NormalForm
    (sep dot : χ) (path : List χ) : Prop where
  leading :
    ∃ rest, path = sep :: rest ∧ rest.head? ≠ some sep
  names :
    path ≠ [sep] →
      ∀ c ∈ path.tail.splitOn sep, IsName sep dot c
  trailing :
    path ≠ [sep] → path.getLast? ≠ some sep

/- A rendered stack of names is in normal form. -/
theorem normalForm_render
    {stack : List (List χ)}
    (hStack : ∀ n ∈ stack, IsName sep dot n) :
    NormalForm sep dot (render sep stack) := by
  cases hCases : stack.reverse with
  | nil =>
      have hEmpty : stack = [] := by
        simpa using hCases
      subst hEmpty
      exact
        ⟨⟨[], rfl, by simp⟩,
          fun hNotRoot => absurd rfl hNotRoot,
          fun hNotRoot => absurd rfl hNotRoot⟩
  | cons last front =>
      have hSnoc : stack = front.reverse ++ [last] := by
        simpa using congrArg List.reverse hCases
      have hNonempty : stack ≠ [] := by
        simp [hSnoc]
      have hLast : IsName sep dot last :=
        hStack last (by simp [hSnoc])
      refine ⟨?_, ?_, ?_⟩
      · refine ⟨_, rfl, ?_⟩
        cases stack with
        | nil => exact absurd rfl hNonempty
        | cons first rest =>
            have hFirst := hStack first (by simp)
            rw [intercalate_eq_trail]
            cases first with
            | nil => exact absurd rfl hFirst.1
            | cons x xs =>
                simp only [List.cons_append,
                  List.head?_cons, ne_eq, Option.some.injEq]
                intro hEq
                exact hFirst.2.1 (by simp [hEq])
      · intro _ c hMember
        rw [render, List.tail_cons,
          List.splitOn_intercalate sep
            (fun n hIn => (hStack n hIn).2.1) hNonempty]
          at hMember
        exact hStack c hMember
      · intro _
        rw [render_eq_trail hNonempty, hSnoc,
          trail_append_singleton, List.getLast?_append]
        cases hGet : last.getLast? with
        | none =>
            exact absurd (by simpa using hGet) hLast.1
        | some x =>
            have hIn := List.mem_of_getLast? hGet
            simp only [List.getLast?_cons, hGet,
              Option.getD_some, Option.some_or, ne_eq,
              Option.some.injEq]
            intro hEq
            exact hLast.2.1 (hEq ▸ hIn)

end PathStack
