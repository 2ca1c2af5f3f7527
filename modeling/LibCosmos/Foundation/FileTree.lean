import Mathlib.Logic.Function.Basic
import Mathlib.Data.List.Basic

/-
  Trees of directories, symbolic links and other files, as
  maps from locations to entries, and the walk of a path
  through such a tree.

  A location is a list of names, the innermost one first;
  the root is the empty list. `N` are the names, `A` what is
  known about a directory, `K` about another file.

  Main declarations:
    * `FileTree.Entry`, `FileTree.Tree`, `FileTree.Closed`
    * `FileTree.walk`
    * `FileTree.walk_append`, `FileTree.walk_mono`
    * `FileTree.Closed.insert`, `FileTree.Closed.erase`
-/

namespace FileTree

------------------------------------------------------------
-- Entries and Trees
------------------------------------------------------------

/- One step of a path. -/
inductive Step (N : Type) where
| here
| up
| into (name : N)
deriving DecidableEq, Repr

/- What a path or a symbolic link says. -/
structure Route (N : Type) where
  absolute : Bool
  steps : List (Step N)
deriving DecidableEq, Repr

abbrev Location (N : Type) : Type := List N

inductive Entry (N A K : Type) where
| directory (attributes : A)
| symlink (target : Route N)
| file (kind : K)
deriving DecidableEq, Repr

abbrev Tree (N A K : Type) : Type :=
  Location N → Option (Entry N A K)

variable {N A K : Type}

def Entry.isDirectory : Entry N A K → Bool
| .directory _ => true
| _ => false

/-
  The root is a directory, and so is whatever has an entry
  below it.
-/
structure Closed (t : Tree N A K) : Prop where
  root : ∃ attributes, t [] = some (.directory attributes)
  parent :
    ∀ name loc, t (name :: loc) ≠ none →
      ∃ attributes, t loc = some (.directory attributes)

/- Every entry of the first tree is in the second. -/
def Extends (t t' : Tree N A K) : Prop :=
  ∀ loc entry, t loc = some entry → t' loc = some entry

theorem Extends.refl (t : Tree N A K) : Extends t t :=
  fun _ _ hEntry => hEntry

theorem Extends.trans
    {t t' t'' : Tree N A K}
    (hFirst : Extends t t') (hSecond : Extends t' t'') :
    Extends t t'' :=
  fun loc entry hEntry =>
    hSecond loc entry (hFirst loc entry hEntry)

theorem extends_update [DecidableEq N]
    {t : Tree N A K} {loc : Location N}
    (hNew : t loc = none) (entry : Option (Entry N A K)) :
    Extends t (Function.update t loc entry) := by
  intro other old hOld
  have hNe : other ≠ loc := by
    intro hEq
    rw [hEq, hNew] at hOld
    cases hOld
  rw [Function.update_of_ne hNe]
  exact hOld

/- A new directory in a directory keeps a tree closed. -/
theorem Closed.insert [DecidableEq N]
    {t : Tree N A K} (hClosed : Closed t)
    {name : N} {parent : Location N} {attributes inner : A}
    (hParent : t parent = some (.directory attributes)) :
    Closed
      (Function.update t (name :: parent)
        (some (.directory inner))) where
  root := by
    rw [Function.update_of_ne (List.cons_ne_nil name parent).symm]
    exact hClosed.root
  parent := by
    intro other loc hEntry
    by_cases hLoc : loc = name :: parent
    · rw [hLoc, Function.update_self]
      exact ⟨inner, rfl⟩
    · rw [Function.update_of_ne hLoc]
      by_cases hSame : other :: loc = name :: parent
      · injection hSame with _ hTail
        rw [hTail]
        exact ⟨attributes, hParent⟩
      · rw [Function.update_of_ne hSame] at hEntry
        exact hClosed.parent other loc hEntry

/- There is nothing below what is not there. -/
theorem Closed.none_below
    {t : Tree N A K} (hClosed : Closed t)
    {loc : Location N} (hNone : t loc = none) (name : N) :
    t (name :: loc) = none := by
  by_contra hEntry
  rcases hClosed.parent name loc hEntry with
    ⟨attributes, hLoc⟩
  rw [hNone] at hLoc
  cases hLoc

theorem Closed.none_under
    {t : Tree N A K} (hClosed : Closed t)
    {loc below : Location N} (hNone : t loc = none)
    (hUnder : loc <:+ below) :
    t below = none := by
  rcases hUnder with ⟨names, rfl⟩
  induction names with
  | nil => exact hNone
  | cons name names ih => exact hClosed.none_below ih name

/- Nothing is below what is not a directory. -/
theorem Closed.none_of_not_directory
    {t : Tree N A K} (hClosed : Closed t)
    {loc : Location N}
    (hNot : ∀ attributes,
      t loc ≠ some (.directory attributes))
    (name : N) :
    t (name :: loc) = none := by
  by_contra hEntry
  rcases hClosed.parent name loc hEntry with
    ⟨attributes, hLoc⟩
  exact hNot attributes hLoc

/- An entry with nothing below it can go. -/
theorem Closed.erase [DecidableEq N]
    {t : Tree N A K} (hClosed : Closed t)
    {name : N} {parent : Location N}
    (hEmpty : ∀ inner, t (inner :: name :: parent) = none) :
    Closed (Function.update t (name :: parent) none) where
  root := by
    rw [Function.update_of_ne (List.cons_ne_nil name parent).symm]
    exact hClosed.root
  parent := by
    intro other loc hEntry
    by_cases hSame : other :: loc = name :: parent
    · rw [hSame, Function.update_self] at hEntry
      exact absurd rfl hEntry
    · rw [Function.update_of_ne hSame] at hEntry
      by_cases hLoc : loc = name :: parent
      · rw [hLoc] at hEntry
        exact absurd (hEmpty other) hEntry
      · rw [Function.update_of_ne hLoc]
        exact hClosed.parent other loc hEntry

/- A tree with fewer entries. -/
theorem extends_of_removed
    {t t' : Tree N A K}
    (hRemoved : ∀ loc, t' loc = t loc ∨ t' loc = none) :
    Extends t' t := by
  intro loc entry hEntry
  rcases hRemoved loc with hSame | hNone
  · rw [← hSame]
    exact hEntry
  · rw [hNone] at hEntry
    cases hEntry

------------------------------------------------------------
-- Walking
------------------------------------------------------------

inductive WalkError where
| missing
| notDirectory
| denied
| loop
deriving DecidableEq, Repr

/- Where a single step leads: a place, or a link to follow. -/
inductive Turn (N : Type) where
| place (loc : Location N)
| link (base : Location N) (steps : List (Step N))
deriving DecidableEq, Repr

/- Where a step leads as long as it follows no link. -/
def Step.leads (loc : Location N) : Step N → Location N
| .here => loc
| .up => loc.tail
| .into name => name :: loc

section Walking

variable (may : A → Bool)

/-
  One step from a location, which must be a directory that
  may be searched.
-/
def turn
    (t : Tree N A K) (loc : Location N) (step : Step N) :
    Except WalkError (Turn N) :=
  match t loc with
  | none => .error .missing
  | some (.directory attributes) =>
      if may attributes then
        match step with
        | .here => .ok (.place loc)
        | .up => .ok (.place loc.tail)
        | .into name =>
            match t (name :: loc) with
            | none => .error .missing
            | some (.symlink target) =>
                .ok
                  (.link (if target.absolute then [] else loc)
                    target.steps)
            | some _ => .ok (.place (name :: loc))
      else .error .denied
  | some _ => .error .notDirectory

/-
  Follow the steps from a location. `links` symbolic links
  may still be followed; the result tells how many are left.
-/
def walk
    (t : Tree N A K)
    (links : Nat)
    (loc : Location N) :
    List (Step N) → Except WalkError (Nat × Location N)
| [] => .ok (links, loc)
| step :: rest =>
    match turn may t loc step with
    | .error e => .error e
    | .ok (.place next) => walk t links next rest
    | .ok (.link base steps) =>
        match links with
        | 0 => .error .loop
        | links + 1 => walk t links base (steps ++ rest)
termination_by steps => (links, steps.length)

@[simp] theorem walk_nil
    (t : Tree N A K) (links : Nat) (loc : Location N) :
    walk may t links loc [] = .ok (links, loc) := by
  rw [walk]

theorem walk_cons_error
    {t : Tree N A K} {loc : Location N} {step : Step N}
    {e : WalkError}
    (hTurn : turn may t loc step = .error e)
    (links : Nat) (rest : List (Step N)) :
    walk may t links loc (step :: rest) = .error e := by
  rw [walk, hTurn]

theorem walk_cons_place
    {t : Tree N A K} {loc next : Location N} {step : Step N}
    (hTurn : turn may t loc step = .ok (.place next))
    (links : Nat) (rest : List (Step N)) :
    walk may t links loc (step :: rest) =
      walk may t links next rest := by
  rw [walk, hTurn]

theorem walk_cons_link
    {t : Tree N A K} {loc base : Location N} {step : Step N}
    {steps : List (Step N)}
    (hTurn : turn may t loc step = .ok (.link base steps))
    (links : Nat) (rest : List (Step N)) :
    walk may t (links + 1) loc (step :: rest) =
      walk may t links base (steps ++ rest) := by
  rw [walk, hTurn]

theorem walk_cons_loop
    {t : Tree N A K} {loc base : Location N} {step : Step N}
    {steps : List (Step N)}
    (hTurn : turn may t loc step = .ok (.link base steps))
    (rest : List (Step N)) :
    walk may t 0 loc (step :: rest) = .error .loop := by
  rw [walk, hTurn]

/- A walk goes on where its first part ends. -/
theorem walk_append
    (t : Tree N A K) (links : Nat) (loc : Location N)
    (first second : List (Step N)) :
    walk may t links loc (first ++ second) =
      (walk may t links loc first).bind fun p =>
        walk may t p.1 p.2 second := by
  induction links, loc, first using walk.induct may t with
  | case1 links loc =>
      rw [walk_nil]
      rfl
  | case2 links loc step rest e hTurn =>
      rw [List.cons_append, walk_cons_error may hTurn,
        walk_cons_error may hTurn]
      rfl
  | case3 links loc step rest next hTurn ih =>
      rw [List.cons_append, walk_cons_place may hTurn,
        walk_cons_place may hTurn]
      exact ih
  | case4 loc step rest base steps hTurn =>
      rw [List.cons_append, walk_cons_loop may hTurn,
        walk_cons_loop may hTurn]
      rfl
  | case5 loc step rest base steps hTurn links ih =>
      rw [List.cons_append, walk_cons_link may hTurn,
        walk_cons_link may hTurn, ← List.append_assoc]
      exact ih

/- The walk to the parent of the last step. -/
theorem walk_append_singleton
    {t : Tree N A K} {links left : Nat}
    {loc parent : Location N} {first : List (Step N)}
    (hFirst : walk may t links loc first = .ok (left, parent))
    (step : Step N) :
    walk may t links loc (first ++ [step]) =
      walk may t left parent [step] := by
  rw [walk_append, hFirst]
  rfl

theorem exists_walk_of_append
    {t : Tree N A K} {links : Nat} {loc : Location N}
    {first second : List (Step N)} {r : Nat × Location N}
    (hWalk :
      walk may t links loc (first ++ second) = .ok r) :
    ∃ p, walk may t links loc first = .ok p ∧
      walk may t p.1 p.2 second = .ok r := by
  rw [walk_append] at hWalk
  cases hFirst : walk may t links loc first with
  | error e =>
      rw [hFirst] at hWalk
      cases hWalk
  | ok p =>
      rw [hFirst] at hWalk
      exact ⟨p, rfl, hWalk⟩

/- What a step found is found in a larger tree. -/
theorem turn_mono
    {t t' : Tree N A K} (hExtends : Extends t t')
    {loc : Location N} {step : Step N} {r : Turn N}
    (hTurn : turn may t loc step = .ok r) :
    turn may t' loc step = .ok r := by
  unfold turn at hTurn ⊢
  cases hLoc : t loc with
  | none =>
      rw [hLoc] at hTurn
      cases hTurn
  | some entry =>
      rw [hLoc] at hTurn
      rw [hExtends loc entry hLoc]
      cases entry with
      | symlink target => cases hTurn
      | file kind => cases hTurn
      | directory attributes =>
          by_cases hMay : may attributes = true
          · simp only [if_pos hMay] at hTurn ⊢
            cases step with
            | here => exact hTurn
            | up => exact hTurn
            | into name =>
                cases hName : t (name :: loc) with
                | none =>
                    simp only [hName] at hTurn
                    cases hTurn
                | some found =>
                    simp only [hName] at hTurn
                    simp only [hExtends _ found hName]
                    exact hTurn
          · simp only [if_neg hMay] at hTurn
            cases hTurn

/- A walk that arrives also arrives in a larger tree. -/
theorem walk_mono
    {t t' : Tree N A K} (hExtends : Extends t t')
    {links : Nat} {loc : Location N} {steps : List (Step N)}
    {r : Nat × Location N}
    (hWalk : walk may t links loc steps = .ok r) :
    walk may t' links loc steps = .ok r := by
  induction links, loc, steps using walk.induct may t with
  | case1 links loc =>
      rw [walk_nil] at hWalk ⊢
      exact hWalk
  | case2 links loc step rest e hTurn =>
      rw [walk_cons_error may hTurn] at hWalk
      cases hWalk
  | case3 links loc step rest next hTurn ih =>
      rw [walk_cons_place may hTurn] at hWalk
      rw [walk_cons_place may (turn_mono may hExtends hTurn)]
      exact ih hWalk
  | case4 loc step rest base steps hTurn =>
      rw [walk_cons_loop may hTurn] at hWalk
      cases hWalk
  | case5 loc step rest base steps hTurn links ih =>
      rw [walk_cons_link may hTurn] at hWalk
      rw [walk_cons_link may (turn_mono may hExtends hTurn)]
      exact ih hWalk

/- A single step into a directory that is there. -/
theorem walk_into_directory
    {t : Tree N A K} {loc : Location N} {name : N}
    {attributes inner : A}
    (hLoc : t loc = some (.directory attributes))
    (hMay : may attributes = true)
    (hName : t (name :: loc) = some (.directory inner))
    (links : Nat) :
    walk may t links loc [.into name] =
      .ok (links, name :: loc) := by
  have hTurn :
      turn may t loc (.into name) =
        .ok (.place (name :: loc)) := by
    unfold turn
    simp only [hLoc, if_pos hMay, hName]
  rw [walk_cons_place may hTurn, walk_nil]

/- A step that leads somewhere starts in a directory. -/
theorem exists_directory_of_turn
    {t : Tree N A K} {loc : Location N} {step : Step N}
    {r : Turn N}
    (hTurn : turn may t loc step = .ok r) :
    ∃ attributes, t loc = some (.directory attributes) ∧
      may attributes = true := by
  unfold turn at hTurn
  cases hLoc : t loc with
  | none =>
      rw [hLoc] at hTurn
      cases hTurn
  | some entry =>
      rw [hLoc] at hTurn
      cases entry with
      | symlink target => cases hTurn
      | file kind => cases hTurn
      | directory attributes =>
          by_cases hMay : may attributes = true
          · exact ⟨attributes, rfl, hMay⟩
          · simp only [if_neg hMay] at hTurn
            cases hTurn

/- A step into a name that leads somewhere finds an entry. -/
theorem exists_entry_of_turn_into
    {t : Tree N A K} {loc : Location N} {name : N}
    {r : Turn N}
    (hTurn : turn may t loc (.into name) = .ok r) :
    ∃ entry, t (name :: loc) = some entry := by
  rcases exists_directory_of_turn may hTurn with
    ⟨attributes, hLoc, hMay⟩
  unfold turn at hTurn
  simp only [hLoc, if_pos hMay] at hTurn
  cases hName : t (name :: loc) with
  | none =>
      simp only [hName] at hTurn
      cases hTurn
  | some entry => exact ⟨entry, rfl⟩

/- The place that a single step reaches. -/
theorem eq_leads_of_turn_place
    {t : Tree N A K} {loc next : Location N} {step : Step N}
    (hTurn : turn may t loc step = .ok (.place next)) :
    next = step.leads loc := by
  rcases exists_directory_of_turn may hTurn with
    ⟨attributes, hLoc, hMay⟩
  unfold turn at hTurn
  simp only [hLoc, if_pos hMay] at hTurn
  cases step with
  | here =>
      cases hTurn
      rfl
  | up =>
      cases hTurn
      rfl
  | into name =>
      cases hName : t (name :: loc) with
      | none =>
          simp only [hName] at hTurn
          cases hTurn
      | some entry =>
          cases entry <;> simp only [hName] at hTurn <;>
            cases hTurn <;> rfl

/- A step that has to follow a link has it before it. -/
theorem exists_symlink_of_turn_link
    {t : Tree N A K} {loc base : Location N} {step : Step N}
    {steps : List (Step N)}
    (hTurn : turn may t loc step = .ok (.link base steps)) :
    ∃ target, t (step.leads loc) = some (.symlink target) := by
  rcases exists_directory_of_turn may hTurn with
    ⟨attributes, hLoc, hMay⟩
  unfold turn at hTurn
  simp only [hLoc, if_pos hMay] at hTurn
  cases step with
  | here => cases hTurn
  | up => cases hTurn
  | into name =>
      cases hName : t (name :: loc) with
      | none =>
          simp only [hName] at hTurn
          cases hTurn
      | some entry =>
          cases entry with
          | symlink target => exact ⟨target, hName⟩
          | directory inner =>
              simp only [hName] at hTurn
              cases hTurn
          | file kind =>
              simp only [hName] at hTurn
              cases hTurn

/- A walk of one step ends where it leads or behind a link. -/
theorem walk_singleton_leads
    {t : Tree N A K} {links : Nat} {loc : Location N}
    {step : Step N} {r : Nat × Location N}
    (hWalk : walk may t links loc [step] = .ok r) :
    r.2 = step.leads loc ∨
      ∃ target, t (step.leads loc) = some (.symlink target) := by
  cases hTurn : turn may t loc step with
  | error e =>
      rw [walk_cons_error may hTurn] at hWalk
      cases hWalk
  | ok next =>
      cases next with
      | place next =>
          rw [walk_cons_place may hTurn, walk_nil] at hWalk
          cases hWalk
          exact Or.inl (eq_leads_of_turn_place may hTurn)
      | link base steps =>
          exact
            Or.inr (exists_symlink_of_turn_link may hTurn)

/- A walk of at least one step took its first step. -/
theorem exists_turn_of_walk
    {t : Tree N A K} {links : Nat} {loc : Location N}
    {step : Step N} {rest : List (Step N)}
    {r : Nat × Location N}
    (hWalk : walk may t links loc (step :: rest) = .ok r) :
    ∃ next, turn may t loc step = .ok next := by
  cases hTurn : turn may t loc step with
  | error e =>
      rw [walk_cons_error may hTurn] at hWalk
      cases hWalk
  | ok next => exact ⟨next, rfl⟩

end Walking

end FileTree
