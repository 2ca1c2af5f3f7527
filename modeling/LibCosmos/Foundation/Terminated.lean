import Mathlib.Data.List.Basic

/-
  Strings in memory that end with a terminator. A reader
  goes on from cell to cell until it meets the terminator;
  behind the last cell there is nothing to read.

  Main declarations:
    * `Terminated.scan`, the string at the start of a list
      of cells
    * `Terminated.scan_append_cons`
    * `Terminated.scan_eq_some_iff`
    * `Terminated.search`, the first terminator in a range
    * `Terminated.search_eq`
-/

namespace Terminated

variable {α : Type} [DecidableEq α] (nul : α)

------------------------------------------------------------
-- Whole Strings
------------------------------------------------------------

/- The string, if it ends inside the cells. -/
def scan : List α → Option (List α)
| [] => none
| c :: cells =>
    if c = nul then some []
    else (scan cells).map (c :: ·)

theorem scan_append_cons
    {s : List α} (hFree : nul ∉ s) (rest : List α) :
    scan nul (s ++ nul :: rest) = some s := by
  induction s with
  | nil => exact if_pos rfl
  | cons c s ih =>
      rw [List.mem_cons, not_or] at hFree
      have hNe : c ≠ nul := fun hEq => hFree.1 hEq.symm
      simp only [List.cons_append, scan, if_neg hNe,
        ih hFree.2, Option.map_some]

/- What is read ends in front of the first terminator. -/
theorem scan_eq_some_iff
    {cells s : List α} :
    scan nul cells = some s ↔
      nul ∉ s ∧ ∃ rest, cells = s ++ nul :: rest := by
  constructor
  · intro hScan
    induction cells generalizing s with
    | nil => cases hScan
    | cons c cells ih =>
        unfold scan at hScan
        by_cases hEnd : c = nul
        · rw [if_pos hEnd] at hScan
          cases hScan
          exact ⟨List.not_mem_nil, cells, by rw [hEnd]; rfl⟩
        · rw [if_neg hEnd, Option.map_eq_some_iff] at hScan
          rcases hScan with ⟨t, hTail, rfl⟩
          rcases ih hTail with ⟨hFree, rest, hCells⟩
          refine ⟨?_, rest, by rw [hCells]; rfl⟩
          rw [List.mem_cons, not_or]
          exact ⟨fun hEq => hEnd hEq.symm, hFree⟩
  · rintro ⟨hFree, rest, rfl⟩
    exact scan_append_cons nul hFree rest

------------------------------------------------------------
-- Ranges
------------------------------------------------------------

/-
  The position of the first terminator in the `n` cells from
  `pos` on, or none of it. Only cells up to that one are
  read, and without them there is no result at all.
-/
def search (cells : List α) : Nat → Nat → Option (Option Nat)
| 0, _ => some none
| n + 1, pos =>
    match cells[pos]? with
    | none => none
    | some c =>
        if c = nul then some (some pos)
        else search cells n (pos + 1)

/-
  In a string with its terminator the search tells where
  this is, if the range goes so far.
-/
theorem search_eq
    {s : List α} (hFree : nul ∉ s) (rest : List α) :
    ∀ (n pos : Nat), pos ≤ s.length →
      search nul (s ++ nul :: rest) n pos =
        some (if s.length < pos + n then some s.length
          else none)
| 0, pos, hLe => by
    have hShort : ¬ s.length < pos + 0 := by omega
    rw [if_neg hShort]
    rfl
| n + 1, pos, hLe => by
    unfold search
    by_cases hEnd : pos = s.length
    · subst hEnd
      have hCell :
          (s ++ nul :: rest)[s.length]? = some nul := by
        simp
      have hInside :
          s.length < s.length + (n + 1) := by omega
      simp only [hCell, if_true, if_pos hInside]
    · have hLt : pos < s.length := by omega
      have hCell :
          (s ++ nul :: rest)[pos]? = some s[pos] := by
        rw [List.getElem?_append_left hLt,
          List.getElem?_eq_getElem hLt]
      have hNe : s[pos] ≠ nul := by
        intro hEq
        exact hFree (hEq ▸ List.getElem_mem hLt)
      have hRange :
          pos + 1 + n = pos + (n + 1) := by omega
      simp only [hCell, if_neg hNe,
        search_eq hFree rest n (pos + 1) hLt, hRange]

end Terminated
