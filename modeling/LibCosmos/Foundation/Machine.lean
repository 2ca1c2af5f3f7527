import Mathlib.Logic.Relation

/-
  Machines that are driven by a list of inputs, and the
  rules that carry a fact along every run.

  An input holds the operation that is performed and what
  the environment answers to it. `legal` says which inputs
  the environment can produce in a state; nothing is said
  about a run with an illegal input.

  Main declarations:
    * `Machine.Legal`, `Machine.Along`, `Machine.run`
    * `Machine.along_of_invariant`, `Machine.along_of_step`
    * `Machine.good_of_along`
    * `Machine.along_iff_of_invariant`
    * `Machine.run_of_invariant`, `Machine.legal_append`
    * `Relation.ReflTransGen.invariant`
-/

------------------------------------------------------------
-- Machines and Their Runs
------------------------------------------------------------

/- A deterministic machine together with its environment. -/
structure Machine (S I : Type) where
  legal : S → I → Prop
  step : S → I → S

namespace Machine

variable {S I : Type} (M : Machine S I)

/- The state after a list of inputs. -/
def run : S → List I → S
| s, [] => s
| s, i :: is => run (M.step s i) is

/- Every input of the run is legal in the state it meets. -/
def Legal : S → List I → Prop
| _, [] => True
| s, i :: is => M.legal s i ∧ Legal (M.step s i) is

/- Every transition of the run is related by `T`. -/
def Along (T : S → I → S → Prop) : S → List I → Prop
| _, [] => True
| s, i :: is =>
    T s i (M.step s i) ∧ Along T (M.step s i) is

@[simp] theorem legal_nil (s : S) :
    M.Legal s [] ↔ True :=
  Iff.rfl

@[simp] theorem legal_cons
    (s : S) (i : I) (is : List I) :
    M.Legal s (i :: is) ↔
      M.legal s i ∧ M.Legal (M.step s i) is :=
  Iff.rfl

@[simp] theorem along_nil
    (T : S → I → S → Prop) (s : S) :
    M.Along T s [] ↔ True :=
  Iff.rfl

@[simp] theorem along_cons
    (T : S → I → S → Prop)
    (s : S) (i : I) (is : List I) :
    M.Along T s (i :: is) ↔
      T s i (M.step s i) ∧ M.Along T (M.step s i) is :=
  Iff.rfl

variable {M}

/- An environment that can produce every input. -/
theorem legal_of_forall
    (hAll : ∀ s i, M.legal s i) :
    ∀ (is : List I) (s : S), M.Legal s is
| [], _ => trivial
| i :: is, s =>
    ⟨hAll s i, legal_of_forall hAll is (M.step s i)⟩

------------------------------------------------------------
-- Invariants of Runs
------------------------------------------------------------

/-
  What an invariant gives for one good step, it gives for
  every step of a run whose steps are all good.
-/
theorem along_of_invariant
    (Inv : S → Prop)
    {Good : S → I → Prop}
    {T : S → I → S → Prop}
    (hStep :
      ∀ s i, Inv s → M.legal s i → Good s i →
        Inv (M.step s i) ∧ T s i (M.step s i)) :
    ∀ (is : List I) (s : S), Inv s → M.Legal s is →
      M.Along (fun s i _ => Good s i) s is →
      M.Along T s is
| [], _, _, _, _ => trivial
| i :: is, s, hInv, hLegal, hGood => by
    have hHead := hStep s i hInv hLegal.1 hGood.1
    exact
      ⟨hHead.2,
        along_of_invariant Inv hStep is (M.step s i) hHead.1
          hLegal.2 hGood.2⟩

/- What every step gives, every run gives. -/
theorem along_of_step
    (Inv : S → Prop)
    {T : S → I → S → Prop}
    (hStep :
      ∀ s i, Inv s → M.legal s i →
        Inv (M.step s i) ∧ T s i (M.step s i)) :
    ∀ (is : List I) (s : S), Inv s → M.Legal s is →
      M.Along T s is
| [], _, _, _ => trivial
| i :: is, s, hInv, hLegal => by
    have hHead := hStep s i hInv hLegal.1
    exact
      ⟨hHead.2,
        along_of_step Inv hStep is (M.step s i) hHead.1
          hLegal.2⟩

/- If bad steps break `T`, a run along `T` has none. -/
theorem good_of_along
    (Inv : S → Prop)
    {Good : S → I → Prop}
    {T : S → I → S → Prop}
    (hStep :
      ∀ s i, Inv s → M.legal s i → Good s i →
        Inv (M.step s i) ∧ T s i (M.step s i))
    (hBreak :
      ∀ s i, Inv s → M.legal s i → ¬ Good s i →
        ¬ T s i (M.step s i)) :
    ∀ (is : List I) (s : S), Inv s → M.Legal s is →
      M.Along T s is →
      M.Along (fun s i _ => Good s i) s is
| [], _, _, _, _ => trivial
| i :: is, s, hInv, hLegal, hAlong => by
    have hGood : Good s i := by
      apply Classical.byContradiction
      intro hBad
      exact hBreak s i hInv hLegal.1 hBad hAlong.1
    have hHead := hStep s i hInv hLegal.1 hGood
    exact
      ⟨hGood,
        good_of_along Inv hStep hBreak is (M.step s i)
          hHead.1 hLegal.2 hAlong.2⟩

/-
  Then `T` holds along exactly the runs whose steps are all
  good.
-/
theorem along_iff_of_invariant
    (Inv : S → Prop)
    {Good : S → I → Prop}
    {T : S → I → S → Prop}
    (hStep :
      ∀ s i, Inv s → M.legal s i → Good s i →
        Inv (M.step s i) ∧ T s i (M.step s i))
    (hBreak :
      ∀ s i, Inv s → M.legal s i → ¬ Good s i →
        ¬ T s i (M.step s i))
    (is : List I) (s : S)
    (hInv : Inv s) (hLegal : M.Legal s is) :
    M.Along T s is ↔
      M.Along (fun s i _ => Good s i) s is :=
  ⟨good_of_along Inv hStep hBreak is s hInv hLegal,
    along_of_invariant Inv hStep is s hInv hLegal⟩

------------------------------------------------------------
-- The End of a Run
------------------------------------------------------------

/- What every step keeps, the end of a run still has. -/
theorem run_of_invariant
    (Inv : S → Prop) (Good : I → Prop)
    (hStep :
      ∀ s i, Inv s → M.legal s i → Good i →
        Inv (M.step s i)) :
    ∀ (is : List I) (s : S), Inv s → M.Legal s is →
      (∀ i ∈ is, Good i) → Inv (M.run s is)
| [], _, hInv, _, _ => hInv
| i :: is, s, hInv, hLegal, hGood => by
    have hHead :=
      hStep s i hInv hLegal.1 (hGood i List.mem_cons_self)
    refine
      run_of_invariant Inv Good hStep is (M.step s i) hHead
        hLegal.2 ?_
    intro j hMem
    exact hGood j (List.mem_cons_of_mem _ hMem)

theorem run_append :
    ∀ (before after : List I) (s : S),
      M.run s (before ++ after) = M.run (M.run s before) after
| [], _, _ => rfl
| i :: before, after, s =>
    run_append before after (M.step s i)

theorem legal_append :
    ∀ (before after : List I) (s : S),
      M.Legal s (before ++ after) ↔
        M.Legal s before ∧ M.Legal (M.run s before) after
| [], _, _ => (iff_of_eq (true_and _)).symm
| i :: before, after, s =>
    (and_congr_right fun _ =>
      legal_append before after (M.step s i)).trans
      and_assoc.symm

end Machine

------------------------------------------------------------
-- Invariants of Transition Relations
------------------------------------------------------------

/-
  A property that every transition keeps holds in every
  state that can be reached from a state that has it.
-/
theorem Relation.ReflTransGen.invariant
    {S : Type}
    {Step : S → S → Prop}
    {Inv : S → Prop}
    {s t : S}
    (hReach : Relation.ReflTransGen Step s t)
    (hStart : Inv s)
    (hStep : ∀ x y, Inv x → Step x y → Inv y) :
    Inv t := by
  induction hReach with
  | refl => exact hStart
  | tail _ hLast ih => exact hStep _ _ ih hLast
