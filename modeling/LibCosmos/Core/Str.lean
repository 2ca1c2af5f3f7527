import LibCosmos.Core.Types
import Mathlib.Data.List.Basic

/-
  The operations of `std::string` and `std::string_view`
  that the modelled code uses. A position that can be `npos`
  is an optional number, with `none` for `npos`.

  Main declarations:
    * `Cosmos.Str.find`, `Cosmos.Str.substr`
    * `Cosmos.Str.rfind`, `Cosmos.Str.erase`
    * `Cosmos.Str.findLastNotOf`
-/

namespace Cosmos

namespace Str

------------------------------------------------------------
-- Searching Forward
------------------------------------------------------------

/- `find(c, pos)`. -/
def find (s : Str) (c : Byte) (pos : Nat) : Option Nat :=
  if c ∈ s.drop pos then
    some (pos + (s.drop pos).idxOf c)
  else
    none

/- `substr(pos, last - pos)`. -/
def substr
    (s : Str) (pos : Nat) (last : Option Nat) : Str :=
  match last with
  | some last => (s.drop pos).take (last - pos)
  | none => s.drop pos

theorem pos_le_of_find
    {s : Str} {c : Byte} {pos found : Nat}
    (hFind : find s c pos = some found) :
    pos ≤ found := by
  unfold find at hFind
  split at hFind
  · have hEq := Option.some.inj hFind
    omega
  · cases hFind

theorem lt_length_of_find
    {s : Str} {c : Byte} {pos found : Nat}
    (hFind : find s c pos = some found) :
    found < s.length := by
  unfold find at hFind
  split at hFind
  · next hMem =>
      have hEq := Option.some.inj hFind
      have hIndex := List.idxOf_lt_length_of_mem hMem
      rw [List.length_drop] at hIndex
      omega
  · cases hFind

theorem find_eq_none
    {s : Str} {c : Byte} {pos : Nat}
    (hNotMem : c ∉ s.drop pos) :
    find s c pos = none := by
  rw [find, if_neg hNotMem]

theorem find_eq_some
    {s : Str} {c : Byte} {pos : Nat} {before after : Str}
    (hDrop : s.drop pos = before ++ c :: after)
    (hBefore : c ∉ before) :
    find s c pos = some (pos + before.length) := by
  have hMem : c ∈ s.drop pos := by
    simp [hDrop]
  rw [find, if_pos hMem, hDrop,
    List.idxOf_append_of_notMem hBefore,
    List.idxOf_cons_self, Nat.add_zero]

------------------------------------------------------------
-- Searching Backward
------------------------------------------------------------

/- `rfind(c)`. -/
def rfind (s : Str) (c : Byte) : Option Nat :=
  if c ∈ s then
    some (s.length - 1 - s.reverse.idxOf c)
  else
    none

/- `erase(pos)`, which throws for `npos`. -/
def erase (s : Str) (pos : Option Nat) : Except Exn Str :=
  match pos with
  | some pos => .ok (s.take pos)
  | none =>
      .error (.stdException (str "basic_string::erase"))

theorem rfind_append_cons
    (before after : Str) {c : Byte}
    (hAfter : c ∉ after) :
    rfind (before ++ c :: after) c =
      some before.length := by
  have hMem : c ∈ before ++ c :: after := by
    simp
  have hReverse :
      (before ++ c :: after).reverse =
        after.reverse ++ c :: before.reverse := by
    simp
  have hNotMem : c ∉ after.reverse := by
    simpa using hAfter
  rw [rfind, if_pos hMem, hReverse,
    List.idxOf_append_of_notMem hNotMem,
    List.idxOf_cons_self, List.length_reverse]
  congr 1
  simp only [List.length_append, List.length_cons]
  omega

/- `find_last_not_of(c)`. -/
def findLastNotOf (s : Str) (c : Byte) : Option Nat :=
  (s.reverse.findIdx? (· ≠ c)).map fun i => s.length - 1 - i

/- `pos + 1`, which is zero for `npos`. -/
def next : Option Nat → Nat
| none => 0
| some pos => pos + 1

/- The part up to the last other character is the rest. -/
theorem take_next_findLastNotOf
    (s : Str) (c : Byte) (n : Nat)
    (hLast : s.getLast? ≠ some c) :
    (s ++ List.replicate n c).take
        (next
          (findLastNotOf (s ++ List.replicate n c) c)) =
      s := by
  rcases List.eq_nil_or_concat s with hNil | ⟨t, d, hConcat⟩
  · have hNone :
        findLastNotOf (s ++ List.replicate n c) c = none := by
      unfold findLastNotOf
      simp [hNil]
    rw [hNone, hNil]
    rfl
  · have hEnd : s = t ++ [d] := by
      rw [hConcat, List.concat_eq_append]
    have hOther : d ≠ c := by
      intro hEq
      apply hLast
      rw [hEnd, hEq, List.getLast?_concat]
    have hFind :
        (s ++ List.replicate n c).reverse.findIdx?
            (· ≠ c) =
          some n := by
      rw [hEnd]
      simp [List.findIdx?_append, List.findIdx?_cons, hOther]
    have hLength : s.length = t.length + 1 := by
      simp [hEnd]
    unfold findLastNotOf
    rw [hFind, Option.map_some, next, List.length_append,
      List.length_replicate]
    have hPos : s.length + n - 1 - n + 1 = s.length := by
      omega
    rw [hPos, List.take_left]

end Str

end Cosmos
