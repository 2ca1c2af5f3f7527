import Mathlib.Logic.Function.Basic

/-
  Jobs that copy cells of a memory to other cells, each job
  its cells in order and some at a time. The jobs take turns
  as they like.

  If no job writes what another one reads or writes then the
  memory depends on nothing but how far every job came.

  Main declarations:
    * `Copies.Plan`, `Copies.Plan.Independent`
    * `Copies.Copied`, `Copies.Copied.advance`
    * `Copies.Copied.unique`
-/

namespace Copies

variable {J A V : Type}

------------------------------------------------------------
-- Plans
------------------------------------------------------------

/- What every job copies from where to where. -/
structure Plan (J A : Type) where
  size : J → Nat
  source : J → Nat → A
  target : J → Nat → A

namespace Plan

variable (plan : Plan J A)

/- Every cell is written at most once, and none is read. -/
structure Independent : Prop where
  apart :
    ∀ {j k j' k'}, k < plan.size j → k' < plan.size j' →
      plan.target j k = plan.target j' k' → j = j' ∧ k = k'
  unread :
    ∀ {j k j' k'}, k < plan.size j → k' < plan.size j' →
      plan.target j k ≠ plan.source j' k'

end Plan

------------------------------------------------------------
-- Progress
------------------------------------------------------------

/-
  The memory `m'` is what `m` becomes once the first
  `done j` cells of every job `j` are copied.
-/
structure Copied
    (plan : Plan J A) (done : J → Nat)
    (m m' : A → V) : Prop where
  bound : ∀ j, done j ≤ plan.size j
  moved :
    ∀ j k, k < done j →
      m' (plan.target j k) = m (plan.source j k)
  frame :
    ∀ a, (∀ j k, k < done j → plan.target j k ≠ a) →
      m' a = m a

namespace Copied

variable {plan : Plan J A} {done : J → Nat}
  {m m' m'' : A → V}

theorem start : Copied plan (fun _ => 0) m m where
  bound _ := Nat.zero_le _
  moved _ k hLt := absurd hLt (Nat.not_lt_zero k)
  frame _ _ := rfl

/- What is still to be read is as it was. -/
theorem source_eq
    (hCopied : Copied plan done m m')
    (hIndep : plan.Independent)
    {j : J} {k : Nat} (hLt : k < plan.size j) :
    m' (plan.source j k) = m (plan.source j k) := by
  apply hCopied.frame
  intro j' k' hLt'
  exact
    hIndep.unread
      (Nat.lt_of_lt_of_le hLt' (hCopied.bound j')) hLt

/- One job copies its next `n` cells. -/
theorem advance [DecidableEq J]
    (hCopied : Copied plan done m m')
    (hIndep : plan.Independent)
    {j : J} {n : Nat} (hFits : done j + n ≤ plan.size j)
    (hMoved :
      ∀ i, i < n →
        m'' (plan.target j (done j + i)) =
          m' (plan.source j (done j + i)))
    (hFrame :
      ∀ a,
        (∀ i, i < n → plan.target j (done j + i) ≠ a) →
          m'' a = m' a) :
    Copied plan (Function.update done j (done j + n))
      m m'' where
  bound j' := by
    by_cases hSame : j' = j
    · subst hSame
      rw [Function.update_self]
      exact hFits
    · rw [Function.update_of_ne hSame]
      exact hCopied.bound j'
  moved j' k hLt := by
    have hSize : k < plan.size j' := by
      by_cases hSame : j' = j
      · subst hSame
        rw [Function.update_self] at hLt
        omega
      · rw [Function.update_of_ne hSame] at hLt
        exact Nat.lt_of_lt_of_le hLt (hCopied.bound j')
    by_cases hNew : j' = j ∧ done j ≤ k
    · rcases hNew with ⟨hSame, hLe⟩
      subst hSame
      rw [Function.update_self] at hLt
      have hStep := hMoved (k - done j') (by omega)
      rw [Nat.add_sub_cancel' hLe] at hStep
      rw [hStep]
      exact hCopied.source_eq hIndep hSize
    · -- the cell was copied before
      have hOld : k < done j' := by
        by_cases hSame : j' = j
        · subst hSame
          exact Nat.lt_of_not_le fun hLe => hNew ⟨rfl, hLe⟩
        · rw [Function.update_of_ne hSame] at hLt
          exact hLt
      rw [← hCopied.moved j' k hOld]
      apply hFrame
      intro i hLtN hEq
      rcases hIndep.apart (by omega) hSize hEq with
        ⟨hJob, hCell⟩
      exact hNew ⟨hJob.symm, by omega⟩
  frame a hNone := by
    have hStep : m'' a = m' a := by
      apply hFrame
      intro i hLtN
      apply hNone j
      rw [Function.update_self]
      omega
    rw [hStep]
    apply hCopied.frame
    intro j' k hLt
    apply hNone j'
    by_cases hSame : j' = j
    · subst hSame
      rw [Function.update_self]
      omega
    · rw [Function.update_of_ne hSame]
      exact hLt

/- The order of the turns makes no difference. -/
theorem unique
    (hCopied : Copied plan done m m')
    (hOther : Copied plan done m m'') : m' = m'' := by
  funext a
  by_cases hTarget : ∃ j k, k < done j ∧ plan.target j k = a
  · rcases hTarget with ⟨j, k, hLt, hEq⟩
    subst hEq
    rw [hCopied.moved j k hLt, hOther.moved j k hLt]
  · have hNone :
        ∀ j k, k < done j → plan.target j k ≠ a :=
      fun j k hLt hEq => hTarget ⟨j, k, hLt, hEq⟩
    rw [hCopied.frame a hNone, hOther.frame a hNone]

end Copied

end Copies
