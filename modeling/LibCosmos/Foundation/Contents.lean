import LibCosmos.Foundation.Buffer

/-
  Contents that grow when they are written behind their end,
  like those of a file: the gap is filled with a blank.

  Main declarations:
    * `Contents.cell`, `Contents.store`
    * `Contents.length_store`, `Contents.cell_store`
    * `Contents.ext`
-/

namespace Contents

variable {α : Type} (blank : α)

/- The cell at a position; behind the end it is blank. -/
def cell (xs : List α) (pos : Nat) : α :=
  xs.getD pos blank

/- Write at a position, which may be behind the end. -/
def store (xs : List α) (pos : Nat) (src : List α) :
    List α :=
  if src.isEmpty then xs
  else
    Buffer.write
      (Buffer.resize blank xs
        (max xs.length (pos + src.length)))
      pos src

@[simp] theorem store_nil (xs : List α) (pos : Nat) :
    store blank xs pos [] = xs :=
  rfl

theorem store_of_pos
    (xs : List α) (pos : Nat) {src : List α}
    (hSome : 0 < src.length) :
    store blank xs pos src =
      Buffer.write
        (Buffer.resize blank xs
          (max xs.length (pos + src.length)))
        pos src := by
  unfold store
  rw [if_neg]
  intro hNone
  rw [List.isEmpty_iff.mp hNone] at hSome
  exact Nat.lt_irrefl 0 hSome

theorem length_store
    (xs : List α) (pos : Nat) (src : List α) :
    (store blank xs pos src).length =
      if 0 < src.length then
        max xs.length (pos + src.length)
      else xs.length := by
  by_cases hSome : 0 < src.length
  · rw [if_pos hSome, store_of_pos blank xs pos hSome,
      Buffer.length_write, Buffer.length_resize]
    rw [Buffer.length_resize]
    exact Nat.le_max_right _ _
  · have hNone : src = [] :=
      List.length_eq_zero_iff.mp (by omega)
    rw [if_neg hSome, hNone, store_nil]

/- More room shows nothing new. -/
theorem cell_resize
    {xs : List α} {n : Nat} (hLe : xs.length ≤ n)
    (i : Nat) :
    cell blank (Buffer.resize blank xs n) i =
      cell blank xs i := by
  unfold cell Buffer.resize
  rw [List.take_of_length_le hLe,
    List.getD_eq_getElem?_getD, List.getD_eq_getElem?_getD,
    List.getElem?_append]
  by_cases hInside : i < xs.length
  · rw [if_pos hInside]
  · rw [if_neg hInside,
      List.getElem?_eq_none (Nat.le_of_not_lt hInside),
      List.getElem?_replicate]
    split <;> rfl

theorem cell_store
    (xs : List α) (pos : Nat) (src : List α) (i : Nat) :
    cell blank (store blank xs pos src) i =
      if pos ≤ i ∧ i < pos + src.length then
        cell blank src (i - pos)
      else cell blank xs i := by
  by_cases hSome : 0 < src.length
  · have hFits :
        pos + src.length ≤
          (Buffer.resize blank xs
            (max xs.length (pos + src.length))).length := by
      rw [Buffer.length_resize]
      exact Nat.le_max_right _ _
    rw [store_of_pos blank xs pos hSome]
    by_cases hInside : pos ≤ i ∧ i < pos + src.length
    · rw [if_pos hInside]
      unfold cell
      rw [List.getD_eq_getElem?_getD,
        List.getD_eq_getElem?_getD,
        Buffer.getElem?_write hFits,
        if_neg (by omega), if_pos hInside.2]
    · rw [if_neg hInside,
        ← cell_resize blank (Nat.le_max_left xs.length _) i]
      unfold cell
      rw [List.getD_eq_getElem?_getD,
        List.getD_eq_getElem?_getD,
        Buffer.getElem?_write hFits]
      by_cases hBefore : i < pos
      · rw [if_pos hBefore]
      · rw [if_neg hBefore, if_neg (by omega)]
  · have hNone : src = [] :=
      List.length_eq_zero_iff.mp (by omega)
    rw [hNone, store_nil, if_neg]
    rw [List.length_nil]
    omega

/- What was read from contents, cell by cell. -/
theorem cell_read
    (xs : List α) (pos : Nat) {n i : Nat} (hLt : i < n) :
    cell blank (Buffer.read xs pos n) i =
      cell blank xs (pos + i) := by
  unfold cell
  rw [List.getD_eq_getElem?_getD, Buffer.getElem?_read,
    if_pos hLt, List.getD_eq_getElem?_getD]

/- Contents of one length with the same cells are equal. -/
theorem ext
    {xs ys : List α} (hLength : xs.length = ys.length)
    (hCells : ∀ i, cell blank xs i = cell blank ys i) :
    xs = ys := by
  apply List.ext_getElem hLength
  intro i hLeft hRight
  have hCell := hCells i
  unfold cell at hCell
  rw [List.getD_eq_getElem?_getD, List.getD_eq_getElem?_getD,
    List.getElem?_eq_getElem hLeft,
    List.getElem?_eq_getElem hRight] at hCell
  exact hCell

end Contents
