import LibCosmos.Foundation.Command

/-
  Rules of pre- and postconditions for commands: a command
  that starts in a given state does not end the process, and
  one condition holds if it returns, another if it throws.

  Main declarations:
    * `Command.Ends`
    * `Command.Ends.bind`, `Command.Ends.handle`,
      `Command.Ends.ensure`, `Command.Ends.forEach`
-/

namespace Command

variable {σ η ε α β : Type}

/-
  The command goes on, in a state with `Q` if it returns and
  in a state with `E` if it throws.
-/
def Ends
    (c : Command σ η ε α) (s : σ)
    (Q : α → σ → Prop) (E : ε → σ → Prop) : Prop :=
  match c.run s with
  | (.returned a, s') => Q a s'
  | (.raised e, s') => E e s'
  | (.halted _, _) => False

namespace Ends

variable
    {c : Command σ η ε α} {s : σ}
    {Q Q' : α → σ → Prop} {E E' : ε → σ → Prop}

theorem of_returned
    {a : α} {s' : σ} (hRun : c.run s = (.returned a, s'))
    (hQ : Q a s') :
    Ends c s Q E := by
  unfold Ends
  rw [hRun]
  exact hQ

theorem of_raised
    {e : ε} {s' : σ} (hRun : c.run s = (.raised e, s'))
    (hE : E e s') :
    Ends c s Q E := by
  unfold Ends
  rw [hRun]
  exact hE

/- What a command that goes on comes to. -/
theorem cases
    (hEnds : Ends c s Q E) :
    (∃ a s', c.run s = (.returned a, s') ∧ Q a s') ∨
      ∃ e s', c.run s = (.raised e, s') ∧ E e s' := by
  unfold Ends at hEnds
  rcases hRun : c.run s with ⟨⟨a⟩ | ⟨e⟩ | ⟨h⟩, s'⟩
  · rw [hRun] at hEnds
    exact Or.inl ⟨a, s', rfl, hEnds⟩
  · rw [hRun] at hEnds
    exact Or.inr ⟨e, s', rfl, hEnds⟩
  · rw [hRun] at hEnds
    exact hEnds.elim

theorem mono
    (hEnds : Ends c s Q E)
    (hQ : ∀ a s', Q a s' → Q' a s')
    (hE : ∀ e s', E e s' → E' e s') :
    Ends c s Q' E' := by
  rcases hEnds.cases with
    ⟨a, s', hRun, hHolds⟩ | ⟨e, s', hRun, hHolds⟩
  · exact of_returned hRun (hQ a s' hHolds)
  · exact of_raised hRun (hE e s' hHolds)

theorem pure {a : α} (hQ : Q a s) :
    Ends (Pure.pure a : Command σ η ε α) s Q E :=
  hQ

theorem raise {e : ε} (hE : E e s) :
    Ends (Command.raise e : Command σ η ε α) s Q E :=
  hE

theorem bind
    {f : α → Command σ η ε β} {R : β → σ → Prop}
    (hFirst : Ends c s Q E)
    (hSecond : ∀ a s', Q a s' → Ends (f a) s' R E) :
    Ends (c >>= f) s R E := by
  unfold Ends
  rw [run_bind]
  rcases hFirst.cases with
    ⟨a, s', hRun, hHolds⟩ | ⟨e, s', hRun, hHolds⟩
  · rw [hRun]
    exact hSecond a s' hHolds
  · rw [hRun]
    exact hHolds

theorem handle
    {f : ε → Command σ η ε α}
    (hBody : Ends c s Q E)
    (hHandler : ∀ e s', E e s' → Ends (f e) s' Q E') :
    Ends (c.handle f) s Q E' := by
  unfold Ends
  rw [run_handle]
  rcases hBody.cases with
    ⟨a, s', hRun, hHolds⟩ | ⟨e, s', hRun, hHolds⟩
  · rw [hRun]
    exact hHolds
  · rw [hRun]
    exact hHandler e s' hHolds

theorem ensure
    {cleanup : σ → σ}
    (hBody :
      Ends c s (fun a s' => Q a (cleanup s'))
        fun e s' => E e (cleanup s')) :
    Ends (c.ensure cleanup) s Q E := by
  unfold Ends
  rw [run_ensure]
  rcases hBody.cases with
    ⟨a, s', hRun, hHolds⟩ | ⟨e, s', hRun, hHolds⟩
  · rw [hRun]
    exact hHolds
  · rw [hRun]
    exact hHolds

/-
  A loop over a list keeps an invariant that may speak of
  the elements that are done.
-/
theorem forEach
    {f : α → Command σ η ε Unit} {I : List α → σ → Prop}
    (as : List α) :
    ∀ {done : List α} {s : σ},
      I done s →
      (∀ before a after s',
        done ++ as = before ++ a :: after →
        I before s' →
        Ends (f a) s' (fun _ => I (before ++ [a])) E) →
      Ends (Command.forEach f as) s
        (fun _ => I (done ++ as)) E := by
  induction as with
  | nil =>
      intro done s hStart _
      rw [List.append_nil]
      exact hStart
  | cons a as ih =>
      intro done s hStart hStep
      have hList : done ++ a :: as = (done ++ [a]) ++ as := by
        rw [List.append_assoc]
        rfl
      unfold Command.forEach
      refine bind (hStep done a as s rfl hStart) ?_
      intro _ s' hNext
      rw [hList] at hStep ⊢
      exact ih hNext hStep

end Ends

end Command
