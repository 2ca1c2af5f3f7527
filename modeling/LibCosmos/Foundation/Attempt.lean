import LibCosmos.Foundation.Command

/-
  Commands that are mere attempts: they leave the state as
  it is and only tell, by an exception, whether something
  failed. The rules say when a program of attempts fails.

  Main declarations:
    * `Command.Attempt`
    * `Command.Attempt.seq`, `Command.Attempt.ite`,
      `Command.Attempt.forEach`
-/

namespace Command

variable {σ η ε α : Type}

/- The state stays, and there is an exception on `fails`. -/
structure Attempt
    (c : Command σ η ε Unit) (fails : Prop) : Prop where
  returns : ∀ s, ¬ fails → c.run s = (.returned (), s)
  raises : ∀ s, fails → ∃ e, c.run s = (.raised e, s)

namespace Attempt

variable {c d : Command σ η ε Unit} {P Q : Prop}

theorem congr
    (hAttempt : Attempt c P) (hIff : P ↔ Q) :
    Attempt c Q where
  returns s hNot := hAttempt.returns s (mt hIff.mp hNot)
  raises s hFails := hAttempt.raises s (hIff.mpr hFails)

theorem pure :
    Attempt (Pure.pure () : Command σ η ε Unit) False where
  returns _ _ := rfl
  raises _ hFalse := hFalse.elim

theorem raise (e : ε) :
    Attempt (Command.raise e : Command σ η ε Unit)
      True where
  returns _ hNot := absurd trivial hNot
  raises _ _ := ⟨e, rfl⟩

/- One attempt after another. -/
theorem seq
    (hFirst : Attempt c P) (hSecond : Attempt d Q) :
    Attempt (c >>= fun _ => d) (P ∨ Q) where
  returns := by
    intro s hNot
    rw [not_or] at hNot
    rw [run_bind_returned (hFirst.returns s hNot.1)]
    exact hSecond.returns s hNot.2
  raises := by
    intro s hFails
    by_cases hEarly : P
    · rcases hFirst.raises s hEarly with ⟨e, hRun⟩
      exact ⟨e, run_bind_raised hRun _⟩
    · rcases hFails with hP | hQ
      · exact absurd hP hEarly
      · rw [run_bind_returned (hFirst.returns s hEarly)]
        exact hSecond.raises s hQ

theorem ite
    {p : Prop} [Decidable p]
    (hThen : p → Attempt c P) (hElse : ¬ p → Attempt d Q) :
    Attempt (if p then c else d) (p ∧ P ∨ ¬ p ∧ Q) := by
  by_cases hp : p
  · rw [if_pos hp]
    exact (hThen hp).congr (by simp [hp])
  · rw [if_neg hp]
    exact (hElse hp).congr (by simp [hp])

/- A loop fails if one of its rounds does. -/
theorem forEach
    {f : α → Command σ η ε Unit} {R : α → Prop}
    (hBody : ∀ a, Attempt (f a) (R a)) (as : List α) :
    Attempt (Command.forEach f as) (∃ a ∈ as, R a) := by
  induction as with
  | nil =>
      exact pure.congr (by simp)
  | cons a as ih =>
      exact ((hBody a).seq ih).congr (by simp)

end Attempt

end Command
