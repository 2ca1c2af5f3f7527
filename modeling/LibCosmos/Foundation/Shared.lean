import Mathlib.Algebra.BigOperators.Group.List.Basic
import Mathlib.Logic.Function.Basic

/-
  An object that several parties call at the same time.

  A call is a loop around attempts. The object answers an
  attempt, and the code of the caller makes the attempt
  again or returns. Between two attempts of a party the
  object can do anything for the others.

  Main declarations:
    * `Shared.Object`, `Shared.Step`, `Shared.Run`
    * `Shared.Run.along`, the rule for invariants that
      speak of the object and of what happened so far
    * `Shared.Run.returned`, what every returned call meets
    * `Shared.Run.balance`, what comes in and what goes out
-/

namespace Shared

------------------------------------------------------------
-- Objects and Their Runs
------------------------------------------------------------

/-
  `answers` is how the object can treat an attempt, `react`
  what the caller makes of the answer (`none` is another
  attempt) and `happens` what the object does by itself.
-/
structure Object (K C A R E : Type) where
  answers : K → C → A → K → Prop
  react : C → A → Option R
  happens : K → E → K → Prop

/- What can be seen of a run. -/
inductive Event (P C R E : Type) where
| enter (p : P) (c : C)
| again (p : P) (c : C)
| leave (p : P) (c : C) (r : R)
| outside (e : E)

/- The object and the calls that have not returned. -/
structure State (P C K : Type) where
  object : K
  calls : P → Option C

variable {P C K A R E : Type}

/- Nobody is in a call. -/
def State.idle (k : K) : State P C K where
  object := k
  calls := fun _ => none

------------------------------------------------------------
-- Sums over the Events
------------------------------------------------------------

section Total

variable {M : Type} [AddCommMonoid M]

/- A weight for the returned calls and the outside events. -/
def Event.weigh (f : C → R → M) (g : E → M) :
    Event P C R E → M
| .enter _ _ => 0
| .again _ _ => 0
| .leave _ c r => f c r
| .outside e => g e

def total
    (f : C → R → M) (g : E → M)
    (trace : List (Event P C R E)) : M :=
  (trace.map (Event.weigh f g)).sum

@[simp] theorem total_nil (f : C → R → M) (g : E → M) :
    total f g ([] : List (Event P C R E)) = 0 :=
  rfl

theorem total_append
    (f : C → R → M) (g : E → M)
    (xs ys : List (Event P C R E)) :
    total f g (xs ++ ys) = total f g xs + total f g ys := by
  unfold total
  rw [List.map_append, List.sum_append]

@[simp] theorem total_snoc
    (f : C → R → M) (g : E → M)
    (xs : List (Event P C R E)) (e : Event P C R E) :
    total f g (xs ++ [e]) = total f g xs + e.weigh f g := by
  rw [total_append]
  simp [total]

end Total

------------------------------------------------------------
-- Steps
------------------------------------------------------------

variable [DecidableEq P]
variable (O : Object K C A R E)

inductive Step :
    State P C K → Event P C R E → State P C K → Prop
| enter {s : State P C K} {p : P} (c : C)
    (hFree : s.calls p = none) :
    Step s (.enter p c)
      { s with calls := Function.update s.calls p (some c) }
| again {s : State P C K} {p : P} {c : C} {a : A} {k : K}
    (hCall : s.calls p = some c)
    (hAnswer : O.answers s.object c a k)
    (hReact : O.react c a = none) :
    Step s (.again p c) { s with object := k }
| leave {s : State P C K} {p : P} {c : C} {a : A} {k : K}
    {r : R}
    (hCall : s.calls p = some c)
    (hAnswer : O.answers s.object c a k)
    (hReact : O.react c a = some r) :
    Step s (.leave p c r)
      ⟨k, Function.update s.calls p none⟩
| outside {s : State P C K} {e : E} {k : K}
    (hHappens : O.happens s.object e k) :
    Step s (.outside e) { s with object := k }

/- The events of a run, the first one first. -/
inductive Run (s : State P C K) :
    List (Event P C R E) → State P C K → Prop
| nil : Run s [] s
| snoc {trace : List (Event P C R E)} {e : Event P C R E}
    {t u : State P C K}
    (hRun : Run s trace t) (hStep : Step O t e u) :
    Run s (trace ++ [e]) u

------------------------------------------------------------
-- Invariants
------------------------------------------------------------

/-
  How a fact about the object and the events so far is kept
  by each kind of event.
-/
structure Kept
    (Inv : K → List (Event P C R E) → Prop) : Prop where
  enter :
    ∀ k trace p c, Inv k trace →
      Inv k (trace ++ [.enter p c])
  again :
    ∀ k trace p c a k', Inv k trace →
      O.answers k c a k' → O.react c a = none →
        Inv k' (trace ++ [.again p c])
  leave :
    ∀ k trace p c a k' r, Inv k trace →
      O.answers k c a k' → O.react c a = some r →
        Inv k' (trace ++ [.leave p c r])
  outside :
    ∀ k trace e k', Inv k trace → O.happens k e k' →
      Inv k' (trace ++ [.outside e])

variable {O}

theorem Run.along
    (Inv : K → List (Event P C R E) → Prop)
    {s t : State P C K} {trace : List (Event P C R E)}
    (hRun : Run O s trace t)
    (hKept : Kept O Inv)
    (hStart : Inv s.object []) :
    Inv t.object trace := by
  induction hRun with
  | nil => exact hStart
  | snoc hBefore hStep ih =>
      cases hStep with
      | enter c hFree =>
          exact hKept.enter _ _ _ _ ih
      | again hCall hAnswer hReact =>
          exact hKept.again _ _ _ _ _ _ ih hAnswer hReact
      | leave hCall hAnswer hReact =>
          exact hKept.leave _ _ _ _ _ _ _ ih hAnswer hReact
      | outside hHappens =>
          exact hKept.outside _ _ _ _ ih hHappens

/- What every call that returned in a run satisfies. -/
theorem Run.returned
    (Inv : K → Prop) (Q : C → R → Prop)
    (hAgain :
      ∀ k c a k', Inv k → O.answers k c a k' →
        O.react c a = none → Inv k')
    (hLeave :
      ∀ k c a k' r, Inv k → O.answers k c a k' →
        O.react c a = some r → Inv k' ∧ Q c r)
    (hOutside :
      ∀ k e k', Inv k → O.happens k e k' → Inv k')
    {s t : State P C K} {trace : List (Event P C R E)}
    (hRun : Run O s trace t)
    (hStart : Inv s.object) :
    Inv t.object ∧
      ∀ p c r, Event.leave p c r ∈ trace → Q c r := by
  have hSkip
      {trace : List (Event P C R E)} {e : Event P C R E}
      (hAll : ∀ p c r, Event.leave p c r ∈ trace → Q c r)
      (hNew : ∀ p c r, Event.leave p c r = e → Q c r) :
      ∀ p c r, Event.leave p c r ∈ trace ++ [e] → Q c r := by
    intro p c r hMem
    rcases List.mem_append.mp hMem with hOld | hLast
    · exact hAll p c r hOld
    · exact hNew p c r (List.mem_singleton.mp hLast)
  refine Run.along
    (fun k trace =>
      Inv k ∧ ∀ p c r, Event.leave p c r ∈ trace → Q c r)
    hRun ?_ ⟨hStart, by simp⟩
  constructor
  case enter =>
    intro k trace p c hInv
    exact ⟨hInv.1, hSkip hInv.2 (by simp)⟩
  case again =>
    intro k trace p c a k' hInv hAnswer hReact
    have hKeep := hAgain k c a k' hInv.1 hAnswer hReact
    exact ⟨hKeep, hSkip hInv.2 (by simp)⟩
  case leave =>
    intro k trace p c a k' r hInv hAnswer hReact
    rcases hLeave k c a k' r hInv.1 hAnswer hReact with
      ⟨hKeep, hGood⟩
    refine ⟨hKeep, hSkip hInv.2 ?_⟩
    intro p' c' r' hEq
    cases hEq
    exact hGood
  case outside =>
    intro k trace e k' hInv hHappens
    have hKeep := hOutside k e k' hInv.1 hHappens
    exact ⟨hKeep, hSkip hInv.2 (by simp)⟩

/- A run goes through the states of its parts. -/
theorem Run.split
    {s u : State P C K}
    {before after : List (Event P C R E)}
    (hRun : Run O s (before ++ after) u) :
    ∃ t, Run O s before t ∧ Run O t after u := by
  generalize hTrace : before ++ after = trace at hRun
  induction hRun generalizing after with
  | nil =>
      rcases List.append_eq_nil_iff.mp hTrace with
        ⟨rfl, rfl⟩
      exact ⟨s, .nil, .nil⟩
  | @snoc trace e t u hBefore hStep ih =>
      rcases List.eq_nil_or_concat' after with
        rfl | ⟨front, last, rfl⟩
      · rw [List.append_nil] at hTrace
        rw [hTrace]
        exact ⟨u, hBefore.snoc hStep, .nil⟩
      · rw [← List.append_assoc] at hTrace
        rcases List.append_inj' hTrace rfl with
          ⟨hFront, hLast⟩
        rcases ih hFront with ⟨m, hFirst, hSecond⟩
        rw [List.singleton_inj.mp hLast]
        exact ⟨m, hFirst, hSecond.snoc hStep⟩

theorem Run.last
    {s u : State P C K} {trace : List (Event P C R E)}
    {e : Event P C R E}
    (hRun : Run O s (trace ++ [e]) u) :
    ∃ t, Run O s trace t ∧ Step O t e u := by
  generalize hTrace : trace ++ [e] = whole at hRun
  cases hRun with
  | nil => simp at hTrace
  | snoc hBefore hStep =>
      rcases List.append_inj' hTrace rfl with
        ⟨rfl, hLast⟩
      cases List.singleton_inj.mp hLast
      exact ⟨_, hBefore, hStep⟩

------------------------------------------------------------
-- Sums over a Run
------------------------------------------------------------

section Balance

variable {M : Type} [AddCommMonoid M]

/-
  If what each returned call and each outside event gains is
  what the value of the object rises by and what it loses,
  this holds of the sums over a run.
-/
theorem Run.balance
    (Inv : K → Prop) (value : K → M)
    (gain loss : C → R → M) (income expense : E → M)
    (hAgain :
      ∀ k c a k', Inv k → O.answers k c a k' →
        O.react c a = none → Inv k' ∧ value k' = value k)
    (hLeave :
      ∀ k c a k' r, Inv k → O.answers k c a k' →
        O.react c a = some r →
          Inv k' ∧
            value k + gain c r = value k' + loss c r)
    (hOutside :
      ∀ k e k', Inv k → O.happens k e k' →
        Inv k' ∧
          value k + income e = value k' + expense e)
    {s t : State P C K} {trace : List (Event P C R E)}
    (hRun : Run O s trace t)
    (hStart : Inv s.object) :
    Inv t.object ∧
      value s.object + total gain income trace =
        value t.object + total loss expense trace := by
  have hCarry
      {v v' a g l b : M} {x : M}
      (hSum : x + a = v + b) (hStep : v + g = v' + l) :
      x + (a + g) = v' + (b + l) := by
    calc x + (a + g)
        = v + b + g := by rw [← add_assoc, hSum]
      _ = v + g + b := by rw [add_right_comm]
      _ = v' + (b + l) := by
          rw [hStep, add_assoc, add_comm l b]
  refine Run.along
    (fun k trace =>
      Inv k ∧
        value s.object + total gain income trace =
          value k + total loss expense trace)
    hRun ?_ ⟨hStart, by simp⟩
  constructor
  case enter =>
    intro k trace p c hInv
    simpa [Event.weigh] using hInv
  case again =>
    intro k trace p c a k' hInv hAnswer hReact
    rcases hAgain k c a k' hInv.1 hAnswer hReact with
      ⟨hKeep, hSame⟩
    refine ⟨hKeep, ?_⟩
    simpa [Event.weigh, hSame] using hInv.2
  case leave =>
    intro k trace p c a k' r hInv hAnswer hReact
    rcases hLeave k c a k' r hInv.1 hAnswer hReact with
      ⟨hKeep, hMove⟩
    refine ⟨hKeep, ?_⟩
    rw [total_snoc, total_snoc]
    exact hCarry hInv.2 hMove
  case outside =>
    intro k trace e k' hInv hHappens
    rcases hOutside k e k' hInv.1 hHappens with
      ⟨hKeep, hMove⟩
    refine ⟨hKeep, ?_⟩
    rw [total_snoc, total_snoc]
    exact hCarry hInv.2 hMove

end Balance

end Shared
