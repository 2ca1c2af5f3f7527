import Mathlib.Data.List.Basic

/-
  Cutting a list at the leftmost occurrences of a separator
  that is a list itself. Occurrences do not overlap.

  Main declarations:
    * `Pieces.firstIndex`, `Pieces.pieces`
    * `Pieces.firstIndex_append`
    * `Pieces.intercalate_pieces`
    * `Pieces.not_infix_of_mem_pieces`
    * `Pieces.pieces_intercalate`
-/

namespace Pieces

variable {χ : Type} [DecidableEq χ]

------------------------------------------------------------
-- The First Occurrence
------------------------------------------------------------

/- Where the separator occurs first. -/
def firstIndex (sep : List χ) : List χ → Option Nat
| [] => if sep = [] then some 0 else none
| x :: xs =>
    if sep <+: x :: xs then some 0
    else (firstIndex sep xs).map (· + 1)

/- A separator at the start is found at once. -/
theorem firstIndex_of_prefix
    {sep xs : List χ} (hStart : sep <+: xs) :
    firstIndex sep xs = some 0 := by
  cases xs with
  | nil => exact if_pos (List.prefix_nil.mp hStart)
  | cons x xs => exact if_pos hStart

theorem not_infix_of_firstIndex_eq_none
    {sep xs : List χ} (hNone : firstIndex sep xs = none) :
    ¬ sep <:+: xs := by
  induction xs with
  | nil =>
      intro hInfix
      unfold firstIndex at hNone
      rw [if_pos (List.infix_nil.mp hInfix)] at hNone
      cases hNone
  | cons x xs ih =>
      unfold firstIndex at hNone
      by_cases hStart : sep <+: x :: xs
      · rw [if_pos hStart] at hNone
        cases hNone
      · rw [if_neg hStart] at hNone
        intro hInfix
        rcases List.infix_cons_iff.mp hInfix with
          hHere | hLater
        · exact hStart hHere
        · exact ih (Option.map_eq_none_iff.mp hNone) hLater

/- The list around the first occurrence. -/
theorem split_of_firstIndex
    {sep xs : List χ} {i : Nat}
    (hFound : firstIndex sep xs = some i) :
    xs = xs.take i ++ (sep ++ xs.drop (i + sep.length)) := by
  induction xs generalizing i with
  | nil =>
      unfold firstIndex at hFound
      split at hFound
      · next hEmpty =>
          cases hFound
          rw [hEmpty]
          rfl
      · cases hFound
  | cons x xs ih =>
      unfold firstIndex at hFound
      by_cases hStart : sep <+: x :: xs
      · rw [if_pos hStart] at hFound
        cases hFound
        rcases hStart with ⟨rest, hEq⟩
        rw [List.take_zero, List.nil_append, Nat.zero_add,
          ← hEq, List.drop_left]
      · rw [if_neg hStart] at hFound
        rcases Option.map_eq_some_iff.mp hFound with
          ⟨j, hRest, rfl⟩
        have hTail := ih hRest
        rw [List.take_succ_cons, List.cons_append,
          Nat.add_right_comm, List.drop_succ_cons]
        congr 1

/- Nothing in front of the first occurrence is one. -/
theorem not_infix_of_firstIndex
    {sep xs : List χ} (hSep : sep ≠ []) {i : Nat}
    (hFound : firstIndex sep xs = some i) :
    ¬ sep <:+: xs.take i := by
  induction xs generalizing i with
  | nil =>
      intro hInfix
      rw [List.take_nil] at hInfix
      exact hSep (List.infix_nil.mp hInfix)
  | cons x xs ih =>
      unfold firstIndex at hFound
      by_cases hStart : sep <+: x :: xs
      · rw [if_pos hStart] at hFound
        cases hFound
        intro hInfix
        rw [List.take_zero] at hInfix
        exact hSep (List.infix_nil.mp hInfix)
      · rw [if_neg hStart] at hFound
        rcases Option.map_eq_some_iff.mp hFound with
          ⟨j, hRest, rfl⟩
        intro hInfix
        rw [List.take_succ_cons] at hInfix
        rcases List.infix_cons_iff.mp hInfix with
          hHere | hLater
        · apply hStart
          apply hHere.trans
          exact
            List.cons_prefix_cons.mpr
              ⟨rfl, List.take_prefix j xs⟩
        · exact ih hRest hLater

theorem add_le_of_firstIndex
    {sep xs : List χ} {i : Nat}
    (hFound : firstIndex sep xs = some i) :
    i + sep.length ≤ xs.length := by
  induction xs generalizing i with
  | nil =>
      unfold firstIndex at hFound
      split at hFound
      · next hEmpty =>
          cases hFound
          rw [hEmpty]
          exact Nat.le_refl 0
      · cases hFound
  | cons x xs ih =>
      unfold firstIndex at hFound
      by_cases hStart : sep <+: x :: xs
      · rw [if_pos hStart] at hFound
        cases hFound
        rw [Nat.zero_add]
        exact hStart.length_le
      · rw [if_neg hStart] at hFound
        rcases Option.map_eq_some_iff.mp hFound with
          ⟨j, hRest, rfl⟩
        have hTail := ih hRest
        rw [List.length_cons]
        omega

/-
  More elements behind do not change the first occurrence,
  as an earlier one would end in front of it.
-/
theorem firstIndex_append
    {sep xs : List χ} {i : Nat}
    (hFound : firstIndex sep xs = some i)
    (ys : List χ) :
    firstIndex sep (xs ++ ys) = some i := by
  induction xs generalizing i with
  | nil =>
      unfold firstIndex at hFound
      by_cases hEmpty : sep = []
      · rw [if_pos hEmpty] at hFound
        cases hFound
        subst hEmpty
        exact firstIndex_of_prefix (List.nil_prefix)
      · rw [if_neg hEmpty] at hFound
        cases hFound
  | cons x xs ih =>
      unfold firstIndex at hFound
      by_cases hStart : sep <+: x :: xs
      · rw [if_pos hStart] at hFound
        cases hFound
        exact
          firstIndex_of_prefix
            (hStart.trans (List.prefix_append _ ys))
      · rw [if_neg hStart] at hFound
        rcases Option.map_eq_some_iff.mp hFound with
          ⟨j, hRest, rfl⟩
        have hShort := add_le_of_firstIndex hRest
        have hNot : ¬ sep <+: x :: (xs ++ ys) := by
          intro hEarly
          refine hStart ?_
          refine
            List.prefix_of_prefix_length_le hEarly
              (List.prefix_append (x :: xs) ys) ?_
          rw [List.length_cons]
          omega
        rw [List.cons_append, firstIndex, if_neg hNot,
          ih hRest]
        rfl

------------------------------------------------------------
-- The Pieces
------------------------------------------------------------

/- The pieces after at most so many cuts. -/
def pieces (sep : List χ) :
    Nat → List χ → List (List χ)
| 0, xs => [xs]
| n + 1, xs =>
    match firstIndex sep xs with
    | none => [xs]
    | some i =>
        xs.take i :: pieces sep n (xs.drop (i + sep.length))

theorem pieces_of_none
    {sep xs : List χ} (hNone : firstIndex sep xs = none)
    (n : Nat) :
    pieces sep n xs = [xs] := by
  cases n with
  | zero => rfl
  | succ n =>
      unfold pieces
      rw [hNone]

theorem pieces_of_some
    {sep xs : List χ} {i : Nat}
    (hFound : firstIndex sep xs = some i) (n : Nat) :
    pieces sep (n + 1) xs =
      xs.take i ::
        pieces sep n (xs.drop (i + sep.length)) := by
  rw [pieces, hFound]

theorem pieces_ne_nil
    (sep : List χ) (n : Nat) (xs : List χ) :
    pieces sep n xs ≠ [] := by
  cases n with
  | zero => exact List.cons_ne_nil xs []
  | succ n =>
      cases hFirst : firstIndex sep xs with
      | none =>
          rw [pieces_of_none hFirst]
          exact List.cons_ne_nil xs []
      | some i =>
          rw [pieces_of_some hFirst]
          exact List.cons_ne_nil _ _

/- The pieces are the list again. -/
theorem intercalate_pieces
    (sep : List χ) (n : Nat) (xs : List χ) :
    sep.intercalate (pieces sep n xs) = xs := by
  induction n generalizing xs with
  | zero => exact List.intercalate_singleton
  | succ n ih =>
      cases hFirst : firstIndex sep xs with
      | none =>
          rw [pieces_of_none hFirst]
          exact List.intercalate_singleton
      | some i =>
          rw [pieces_of_some hFirst,
            List.intercalate_cons_of_ne_nil
              (pieces_ne_nil sep n _), ih,
            List.append_assoc]
          exact (split_of_firstIndex hFirst).symm

/- Enough cuts leave no separator. -/
theorem not_infix_of_mem_pieces
    {sep : List χ} (hSep : sep ≠ []) {n : Nat}
    {xs : List χ} (hEnough : xs.length ≤ n) :
    ∀ p ∈ pieces sep n xs, ¬ sep <:+: p := by
  have hPos := List.length_pos_iff.mpr hSep
  induction n generalizing xs with
  | zero =>
      intro p hMem hInfix
      have hEmpty : xs = [] :=
        List.length_eq_zero_iff.mp (by omega)
      rw [List.mem_singleton.mp hMem, hEmpty] at hInfix
      exact hSep (List.infix_nil.mp hInfix)
  | succ n ih =>
      cases hFirst : firstIndex sep xs with
      | none =>
          rw [pieces_of_none hFirst]
          intro p hMem
          rw [List.mem_singleton.mp hMem]
          exact not_infix_of_firstIndex_eq_none hFirst
      | some i =>
          have hInside := add_le_of_firstIndex hFirst
          rw [pieces_of_some hFirst]
          intro p hMem
          rcases List.mem_cons.mp hMem with hHead | hTail
          · rw [hHead]
            exact not_infix_of_firstIndex hSep hFirst
          · refine ih ?_ p hTail
            rw [List.length_drop]
            omega

/- A separator at the start cuts off an empty piece. -/
theorem pieces_append
    (sep : List χ) (n : Nat) (xs : List χ) :
    pieces sep (n + 1) (sep ++ xs) =
      [] :: pieces sep n xs := by
  have hFirst :=
    firstIndex_of_prefix (List.prefix_append sep xs)
  rw [pieces_of_some hFirst, List.take_zero, Nat.zero_add,
    List.drop_left]

omit [DecidableEq χ] in
theorem le_length_flatten
    {sep : List χ} (hSep : sep ≠ []) (k : Nat) :
    k ≤ (List.replicate k sep).flatten.length := by
  have hPos := List.length_pos_iff.mpr hSep
  induction k with
  | zero => exact Nat.zero_le _
  | succ k ih =>
      rw [List.replicate_succ, List.flatten_cons,
        List.length_append]
      omega

theorem pieces_flatten
    (sep : List χ) (k n : Nat) (xs : List χ) :
    pieces sep (k + n)
        ((List.replicate k sep).flatten ++ xs) =
      List.replicate k [] ++ pieces sep n xs := by
  induction k with
  | zero => rw [Nat.zero_add]; rfl
  | succ k ih =>
      rw [List.replicate_succ, List.flatten_cons,
        List.append_assoc, Nat.add_right_comm,
        pieces_append, ih]
      rfl

------------------------------------------------------------
-- Joined Pieces
------------------------------------------------------------

theorem firstIndex_singleton
    {c : χ} {p : List χ} (hFree : c ∉ p) (rest : List χ) :
    firstIndex [c] (p ++ c :: rest) = some p.length := by
  induction p with
  | nil =>
      apply firstIndex_of_prefix
      exact List.prefix_append [c] rest
  | cons x p ih =>
      have hHead : ¬ [c] <+: x :: (p ++ c :: rest) := by
        intro hStart
        have hSame := (List.cons_prefix_cons.mp hStart).1
        exact hFree (hSame ▸ List.mem_cons_self)
      rw [List.cons_append, firstIndex, if_neg hHead,
        ih fun hMem => hFree (List.mem_cons_of_mem x hMem)]
      rfl

theorem firstIndex_singleton_none
    {c : χ} {p : List χ} (hFree : c ∉ p) :
    firstIndex [c] p = none := by
  induction p with
  | nil => rfl
  | cons x p ih =>
      have hHead : ¬ [c] <+: x :: p := by
        intro hStart
        have hSame := (List.cons_prefix_cons.mp hStart).1
        exact hFree (hSame ▸ List.mem_cons_self)
      rw [firstIndex, if_neg hHead,
        ih fun hMem => hFree (List.mem_cons_of_mem x hMem)]
      rfl

/- Parts without the separator are found again. -/
theorem pieces_intercalate
    {c : χ} {parts : List (List χ)} (hSome : parts ≠ [])
    (hFree : ∀ p ∈ parts, c ∉ p) {n : Nat}
    (hEnough : parts.length ≤ n + 1) :
    pieces [c] n ([c].intercalate parts) = parts := by
  induction parts generalizing n with
  | nil => exact absurd rfl hSome
  | cons p parts ih =>
      have hHead : c ∉ p := hFree p List.mem_cons_self
      cases parts with
      | nil =>
          rw [List.intercalate_singleton]
          cases n with
          | zero => rfl
          | succ n =>
              exact
                pieces_of_none
                  (firstIndex_singleton_none hHead) (n + 1)
      | cons q parts =>
          cases n with
          | zero => simp at hEnough
          | succ n =>
              have hRest : q :: parts ≠ [] :=
                List.cons_ne_nil q parts
              have hJoin :
                  [c].intercalate (p :: q :: parts) =
                    p ++ c :: [c].intercalate (q :: parts) := by
                rw [List.intercalate_cons_of_ne_nil hRest,
                  List.append_assoc, List.singleton_append]
              have hDrop :
                  (p ++ c :: [c].intercalate (q :: parts)).drop
                      (p.length + 1) =
                    [c].intercalate (q :: parts) := by
                rw [← List.drop_drop, List.drop_left]
                rfl
              rw [hJoin,
                pieces_of_some (firstIndex_singleton hHead _),
                List.take_left, List.length_singleton, hDrop,
                ih hRest
                  (fun r hMem =>
                    hFree r (List.mem_cons_of_mem p hMem))
                  (Nat.le_of_succ_le_succ hEnough)]

omit [DecidableEq χ] in
theorem length_le_intercalate
    (c : χ) (parts : List (List χ)) :
    parts.length ≤ ([c].intercalate parts).length + 1 := by
  induction parts with
  | nil => exact Nat.zero_le _
  | cons p parts ih =>
      cases parts with
      | nil => simp
      | cons q parts =>
          rw [List.intercalate_cons_of_ne_nil
            (List.cons_ne_nil q parts)]
          simp only [List.length_append, List.length_cons,
            List.length_nil] at ih ⊢
          omega

end Pieces
