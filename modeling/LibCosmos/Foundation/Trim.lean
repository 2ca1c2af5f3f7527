import Mathlib.Data.List.DropRight

/-
  Trimming a list at both ends: taking off the longest
  prefix and the longest suffix of elements in a set.

  Main declarations:
    * `Trim.trim`, `Trim.Trimmed`
    * `Trim.trimmed_iff`, `Trim.trim_trim`
    * `Trim.Alike`, `Trim.trimmed_trim_iff`
-/

namespace Trim

variable {χ : Type}

------------------------------------------------------------
-- The Operation and Its Meaning
------------------------------------------------------------

/- First from the front, then from the back. -/
def trim (p : χ → Bool) (s : List χ) : List χ :=
  (s.dropWhile p).rdropWhile p

/-
  `t` is what remains of `s`: only elements of the set went,
  and no more of them can go.
-/
structure Trimmed (p : χ → Bool) (s t : List χ) : Prop where
  cut :
    ∃ front back, s = front ++ t ++ back ∧
      (∀ x ∈ front, p x = true) ∧
      ∀ x ∈ back, p x = true
  head : ∀ x, t.head? = some x → p x = false
  last : ∀ x, t.getLast? = some x → p x = false

theorem Trimmed.reverse
    {p : χ → Bool} {s t : List χ}
    (hTrimmed : Trimmed p s t) :
    Trimmed p s.reverse t.reverse where
  cut := by
    rcases hTrimmed.cut with
      ⟨front, back, hCut, hFront, hBack⟩
    refine ⟨back.reverse, front.reverse, ?_, ?_, ?_⟩
    · rw [hCut]
      simp
    · simpa using hBack
    · simpa using hFront
  head := by
    rw [List.head?_reverse]
    exact hTrimmed.last
  last := by
    rw [List.getLast?_reverse]
    exact hTrimmed.head

/- Nothing is taken off where the first element stays. -/
theorem dropWhile_of_head
    {p : χ → Bool} {s : List χ}
    (hHead : ∀ x, s.head? = some x → p x = false) :
    s.dropWhile p = s := by
  cases s with
  | nil => rfl
  | cons x s =>
      have hStays := hHead x rfl
      exact
        List.dropWhile_cons_of_neg (by rw [hStays]; simp)

theorem trimmed_trim (p : χ → Bool) (s : List χ) :
    Trimmed p s (trim p s) where
  cut := by
    refine
      ⟨s.takeWhile p, (s.dropWhile p).rtakeWhile p, ?_,
        ?_, ?_⟩
    · unfold trim
      rw [List.append_assoc, List.rdropWhile_append_rtakeWhile,
        List.takeWhile_append_dropWhile]
    · exact fun x => List.mem_takeWhile_imp
    · exact fun x => List.mem_rtakeWhile_imp
  head := by
    intro x hHead
    have hPrefix : trim p s <+: s.dropWhile p :=
      List.rdropWhile_prefix _ _
    rcases hPrefix with ⟨rest, hRest⟩
    have hFirst := List.head?_dropWhile_not p s
    rw [← hRest, List.head?_append, hHead] at hFirst
    simpa using hFirst
  last := by
    intro x hLast
    have hFirst :=
      List.head?_dropWhile_not p (s.dropWhile p).reverse
    unfold trim List.rdropWhile at hLast
    rw [List.getLast?_reverse] at hLast
    rw [hLast] at hFirst
    simpa using hFirst

/- Trimming has one result. -/
theorem trimmed_iff
    (p : χ → Bool) (s t : List χ) :
    Trimmed p s t ↔ t = trim p s := by
  constructor
  · intro hTrimmed
    rcases hTrimmed.cut with
      ⟨front, back, hCut, hFront, hBack⟩
    have hBack' : ∀ x ∈ back.reverse, p x = true := by
      simpa using hBack
    unfold trim
    rw [hCut, List.append_assoc,
      List.dropWhile_append_of_pos hFront]
    by_cases hEmpty : t = []
    · have hGone : back.dropWhile p = [] :=
        List.dropWhile_eq_nil_iff.mpr hBack
      rw [hEmpty, List.nil_append, hGone,
        List.rdropWhile_nil]
    · have hStays : (t ++ back).dropWhile p = t ++ back := by
        apply dropWhile_of_head
        intro x hHead
        apply hTrimmed.head x
        rwa [List.head?_append_of_ne_nil _ hEmpty] at hHead
      have hLast : t.reverse.dropWhile p = t.reverse :=
        dropWhile_of_head hTrimmed.reverse.head
      rw [hStays, List.rdropWhile, List.reverse_append,
        List.dropWhile_append_of_pos hBack', hLast,
        List.reverse_reverse]
  · intro hEq
    rw [hEq]
    exact trimmed_trim p s

/- What is trimmed stays as it is. -/
theorem trim_trim (p : χ → Bool) (s : List χ) :
    trim p (trim p s) = trim p s := by
  have hTrimmed := trimmed_trim p s
  have hSelf : Trimmed p (trim p s) (trim p s) :=
    { cut := ⟨[], [], by simp⟩
      head := hTrimmed.head
      last := hTrimmed.last }
  exact ((trimmed_iff p _ _).mp hSelf).symm

------------------------------------------------------------
-- Two Sets
------------------------------------------------------------

/-
  Both sets tell alike of the elements up to the first one
  that is in none of them.
-/
def Alike (p q : χ → Bool) : List χ → Prop
| [] => True
| x :: xs => p x = q x ∧ (p x = true → Alike p q xs)

theorem alike_of_forall
    {p q : χ → Bool} {s : List χ}
    (hAll : ∀ x ∈ s, p x = q x) : Alike p q s := by
  induction s with
  | nil => trivial
  | cons x s ih =>
      refine
        ⟨hAll x List.mem_cons_self, fun _ => ih ?_⟩
      exact fun y hMem =>
        hAll y (List.mem_cons_of_mem x hMem)

theorem alike_of_append
    {p q : χ → Bool} {s t : List χ}
    (hAlike : Alike p q (s ++ t)) : Alike p q s := by
  induction s with
  | nil => trivial
  | cons x s ih =>
      exact ⟨hAlike.1, fun hIn => ih (hAlike.2 hIn)⟩

theorem dropWhile_of_alike
    {p q : χ → Bool} {s : List χ}
    (hAlike : Alike p q s) :
    s.dropWhile p = s.dropWhile q := by
  induction s with
  | nil => rfl
  | cons x s ih =>
      rcases hAlike with ⟨hSame, hRest⟩
      rw [List.dropWhile_cons, List.dropWhile_cons, ← hSame]
      by_cases hIn : p x = true
      · rw [if_pos hIn, if_pos hIn]
        exact ih (hRest hIn)
      · rw [if_neg hIn, if_neg hIn]

/- An element that stays is met by both after one front. -/
theorem alike_of_fronts
    {p q : χ → Bool} {x : χ} {rest rest' : List χ}
    (hOutP : p x = false) (hOutQ : q x = false) :
    ∀ {front front' : List χ},
      (∀ y ∈ front, p y = true) →
      (∀ y ∈ front', q y = true) →
      front ++ x :: rest = front' ++ x :: rest' →
      Alike p q (front ++ x :: rest) := by
  intro front
  induction front with
  | nil =>
      intro front' _ _ _
      refine ⟨hOutP.trans hOutQ.symm, fun hIn => ?_⟩
      rw [hOutP] at hIn
      cases hIn
  | cons y front ih =>
      intro front' hFront hFront' hSame
      have hInP := hFront y List.mem_cons_self
      cases front' with
      | nil =>
          injection hSame with hHead _
          rw [hHead, hOutP] at hInP
          cases hInP
      | cons y' front' =>
          injection hSame with hHead hTail
          have hInQ := hFront' y' List.mem_cons_self
          rw [← hHead] at hInQ
          refine ⟨hInP.trans hInQ.symm, fun _ => ?_⟩
          exact
            ih
              (fun z hMem =>
                hFront z (List.mem_cons_of_mem y hMem))
              (fun z hMem =>
                hFront' z (List.mem_cons_of_mem y' hMem))
              hTail

theorem alike_of_trimmed
    {p q : χ → Bool} {s t : List χ}
    (hP : Trimmed p s t) (hQ : Trimmed q s t) :
    Alike p q s := by
  rcases hP.cut with ⟨front, back, hCut, hFront, hBack⟩
  rcases hQ.cut with ⟨front', back', hCut', hFront', hBack'⟩
  cases t with
  | nil =>
      apply alike_of_forall
      intro x hMem
      have hInP : p x = true := by
        rw [hCut] at hMem
        simp only [List.append_nil, List.mem_append] at hMem
        exact hMem.elim (hFront x) (hBack x)
      have hInQ : q x = true := by
        rw [hCut'] at hMem
        simp only [List.append_nil, List.mem_append] at hMem
        exact hMem.elim (hFront' x) (hBack' x)
      rw [hInP, hInQ]
  | cons x t =>
      have hSame := hCut.symm.trans hCut'
      rw [List.append_assoc, List.append_assoc,
        List.cons_append, List.cons_append] at hSame
      rw [hCut, List.append_assoc, List.cons_append]
      exact
        alike_of_fronts (hP.head x rfl) (hQ.head x rfl)
          hFront hFront' hSame

/-
  Trimming by another set is right exactly if both sets tell
  alike of the elements that trimming looks at, from either
  end.
-/
theorem trimmed_trim_iff
    (p q : χ → Bool) (s : List χ) :
    Trimmed p s (trim q s) ↔
      Alike p q s ∧ Alike p q s.reverse := by
  constructor
  · intro hTrimmed
    have hOwn := trimmed_trim q s
    exact
      ⟨alike_of_trimmed hTrimmed hOwn,
        alike_of_trimmed hTrimmed.reverse hOwn.reverse⟩
  · rintro ⟨hFront, hBack⟩
    have hDrop := dropWhile_of_alike hFront
    have hRest : Alike p q (s.dropWhile p).reverse := by
      apply alike_of_append (t := (s.takeWhile p).reverse)
      rw [← List.reverse_append,
        List.takeWhile_append_dropWhile]
      exact hBack
    have hRDrop := dropWhile_of_alike hRest
    rw [trimmed_iff]
    unfold trim List.rdropWhile
    rw [← hDrop, hRDrop]

end Trim
