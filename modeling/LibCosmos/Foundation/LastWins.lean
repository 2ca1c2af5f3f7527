import Mathlib.Logic.Function.Basic

/-
  Settings that a list of entries assigns one after the
  other. An entry means at most one assignment; one that
  means none is rejected, and the whole list with it.

  Main declarations:
    * `LastWins.Understood`, `LastWins.Assigned`
    * `LastWins.foldlM_cases`
-/

namespace LastWins

variable {E K V ε : Type} [DecidableEq K]

/- A step assigns what its entry means, or fails. -/
structure Understood
    (means : E → K → V → Prop)
    (step : (K → V) → E → Except ε (K → V)) : Prop where
  assigns :
    ∀ {f f' : K → V} {e : E}, step f e = .ok f' →
      ∃ k v, means e k v ∧ f' = Function.update f k v
  rejects :
    ∀ {f : K → V} {e : E} {x : ε}, step f e = .error x →
      ∀ k v, ¬ means e k v
  one :
    ∀ {e : E} {k k' : K} {v v' : V},
      means e k v → means e k' v' → k = k' ∧ v = v'

/-
  Every key has the value of the last entry about it, or its
  old value if there is none.
-/
structure Assigned
    (means : E → K → V → Prop)
    (es : List E) (f f' : K → V) : Prop where
  last :
    ∀ {before after : List E} {e : E} {k : K} {v : V},
      es = before ++ e :: after → means e k v →
      (∀ e' ∈ after, ∀ w, ¬ means e' k w) → f' k = v
  kept :
    ∀ {k : K}, (∀ e ∈ es, ∀ v, ¬ means e k v) → f' k = f k

variable {means : E → K → V → Prop}
variable {step : (K → V) → E → Except ε (K → V)}

omit [DecidableEq K] in
theorem assigned_nil (f : K → V) :
    Assigned means [] f f where
  last := by
    intro before after e k v hEntries
    simp at hEntries
  kept := fun _ => rfl

/- One more entry in front. -/
theorem Assigned.cons
    (hStep : Understood means step)
    {e : E} {es : List E} {f f' : K → V} {k : K} {v : V}
    (hMeans : means e k v)
    (hRest :
      Assigned means es (Function.update f k v) f') :
    Assigned means (e :: es) f f' where
  last := by
    intro before after e' k' v' hEntries hLast hNoMore
    cases before with
    | nil =>
        injection hEntries with hHead hTail
        rw [← hHead] at hLast
        rcases hStep.one hMeans hLast with ⟨hKey, hValue⟩
        rw [← hTail, ← hKey] at hNoMore
        rw [← hKey, ← hValue, hRest.kept hNoMore,
          Function.update_self]
    | cons x before =>
        injection hEntries with _ hTail
        exact hRest.last hTail hLast hNoMore
  kept := by
    intro k' hNone
    have hOther : k' ≠ k := by
      intro hSame
      rw [hSame] at hNone
      exact hNone e List.mem_cons_self v hMeans
    rw [hRest.kept fun e' hMem =>
        hNone e' (List.mem_cons_of_mem e hMem),
      Function.update_of_ne hOther]

/-
  Either all entries mean something and are assigned, or
  there is one that means nothing, and the list fails.
-/
theorem foldlM_cases
    (hStep : Understood means step) (es : List E) :
    ∀ f : K → V,
      (∃ f', es.foldlM step f = .ok f' ∧
        (∀ e ∈ es, ∃ k v, means e k v) ∧
        Assigned means es f f') ∨
      ∃ e ∈ es, ∃ g x, es.foldlM step f = .error x ∧
        step g e = .error x ∧ ∀ k v, ¬ means e k v := by
  induction es with
  | nil =>
      intro f
      left
      refine ⟨f, rfl, ?_, assigned_nil f⟩
      exact fun e hMem => absurd hMem List.not_mem_nil
  | cons e es ih =>
      intro f
      cases hFirst : step f e with
      | error x =>
          right
          refine
            ⟨e, List.mem_cons_self, f, x, ?_, hFirst,
              hStep.rejects hFirst⟩
          rw [List.foldlM_cons, hFirst]
          rfl
      | ok g =>
          have hFold :
              (e :: es).foldlM step f = es.foldlM step g := by
            rw [List.foldlM_cons, hFirst]
            rfl
          rcases hStep.assigns hFirst with
            ⟨k, v, hMeans, hUpdate⟩
          rw [hFold]
          rcases ih g with
            ⟨f', hOk, hAll, hAssigned⟩ |
            ⟨e', hMem, g', x, hError, hBad, hNothing⟩
          · left
            refine ⟨f', hOk, ?_, ?_⟩
            · intro e' hMem
              rcases List.mem_cons.mp hMem with hHead | hTail
              · rw [hHead]
                exact ⟨k, v, hMeans⟩
              · exact hAll e' hTail
            · rw [hUpdate] at hAssigned
              exact hAssigned.cons hStep hMeans
          · right
            exact
              ⟨e', List.mem_cons_of_mem e hMem, g', x,
                hError, hBad, hNothing⟩

end LastWins
