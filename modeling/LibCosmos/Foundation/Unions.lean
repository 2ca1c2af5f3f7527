import Mathlib.Data.Finset.Lattice.Fold

/-
  Values that are unions of named values: of a value, only
  the part that the names inside it make up can be told in
  terms of the names.

  Main declarations:
    * `Unions.named`
    * `Unions.named_eq_self_iff`
-/

namespace Unions

variable {α : Type} [SemilatticeSup α] [OrderBot α]
variable [DecidableLE α]

/- The union of the names that a value contains. -/
def named (table : Finset α) (x : α) : α :=
  (table.filter fun name => name ≤ x).sup id

theorem named_le (table : Finset α) (x : α) :
    named table x ≤ x := by
  refine Finset.sup_le ?_
  intro name hName
  exact (Finset.mem_filter.mp hName).2

theorem le_named
    {table : Finset α} {name x : α}
    (hMem : name ∈ table) (hLe : name ≤ x) :
    name ≤ named table x :=
  Finset.le_sup (f := id)
    (Finset.mem_filter.mpr ⟨hMem, hLe⟩)

/- Nothing is lost of exactly the unions of names. -/
theorem named_eq_self_iff (table : Finset α) (x : α) :
    named table x = x ↔
      ∃ names ⊆ table, names.sup id = x := by
  constructor
  · intro hSame
    exact ⟨_, Finset.filter_subset _ _, hSame⟩
  · rintro ⟨names, hNames, rfl⟩
    apply le_antisymm (named_le table _)
    refine Finset.sup_le ?_
    intro name hName
    exact
      le_named (hNames hName) (Finset.le_sup (f := id) hName)

end Unions
