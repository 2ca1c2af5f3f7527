import Mathlib.Algebra.Order.Ring.Nat
import Mathlib.Data.List.Basic
import Mathlib.Data.Nat.Basic

/-
  Buffers of a fixed size: reading a range, overwriting a
  range, and numbers in little-endian bytes.

  Main declarations:
    * `Buffer.read`, `Buffer.write`
    * `Buffer.getElem?_write`, `Buffer.read_write` and its
      companions for disjoint and for adjacent ranges
    * `Buffer.resize`, `Buffer.resize_write`
    * `Buffer.leBytes`, `Buffer.leValue`
    * `Buffer.leValue_leBytes`
-/

namespace Buffer

variable {α : Type}

------------------------------------------------------------
-- Ranges
------------------------------------------------------------

/- The `n` cells from position `pos` on. -/
def read (xs : List α) (pos n : Nat) : List α :=
  (xs.drop pos).take n

/- Overwrite the cells from position `pos` on. -/
def write (xs : List α) (pos : Nat) (src : List α) :
    List α :=
  xs.take pos ++ src ++ xs.drop (pos + src.length)

theorem length_write
    {xs : List α} {pos : Nat} {src : List α}
    (hFits : pos + src.length ≤ xs.length) :
    (write xs pos src).length = xs.length := by
  unfold write
  simp only [List.length_append, List.length_take,
    List.length_drop]
  omega

theorem getElem?_read
    (xs : List α) (pos n i : Nat) :
    (read xs pos n)[i]? =
      if i < n then xs[pos + i]? else none := by
  unfold read
  rw [List.getElem?_take, List.getElem?_drop]

/- The cells after overwriting a range. -/
theorem getElem?_write
    {xs : List α} {pos : Nat} {src : List α}
    (hFits : pos + src.length ≤ xs.length)
    (i : Nat) :
    (write xs pos src)[i]? =
      if i < pos then xs[i]?
      else if i < pos + src.length then src[i - pos]?
      else xs[i]? := by
  have hTake : (xs.take pos).length = pos := by
    rw [List.length_take]
    omega
  unfold write
  rw [List.append_assoc, List.getElem?_append, hTake]
  by_cases hBefore : i < pos
  · rw [if_pos hBefore, if_pos hBefore,
      List.getElem?_take, if_pos hBefore]
  · rw [if_neg hBefore, if_neg hBefore,
      List.getElem?_append]
    by_cases hInside : i < pos + src.length
    · rw [if_pos (by omega), if_pos hInside]
    · rw [if_neg (by omega), if_neg hInside,
        List.getElem?_drop]
      congr 1
      omega

/- What was written is read back. -/
theorem read_write
    {xs : List α} {pos : Nat} {src : List α}
    (hFits : pos + src.length ≤ xs.length) :
    read (write xs pos src) pos src.length = src := by
  apply List.ext_getElem?
  intro i
  rw [getElem?_read, getElem?_write hFits]
  by_cases hInside : i < src.length
  · rw [if_pos hInside, if_neg (by omega),
      if_pos (by omega)]
    congr 1
    omega
  · rw [if_neg hInside, List.getElem?_eq_none (by omega)]

/- A range before the overwritten one is untouched. -/
theorem read_write_before
    {xs : List α} {pos q n : Nat} {src : List α}
    (hFits : pos + src.length ≤ xs.length)
    (hBefore : q + n ≤ pos) :
    read (write xs pos src) q n = read xs q n := by
  apply List.ext_getElem?
  intro i
  rw [getElem?_read, getElem?_read, getElem?_write hFits]
  by_cases hInside : i < n
  · rw [if_pos hInside, if_pos hInside, if_pos (by omega)]
  · rw [if_neg hInside, if_neg hInside]

/- A range behind the overwritten one is untouched. -/
theorem read_write_behind
    {xs : List α} {pos q n : Nat} {src : List α}
    (hFits : pos + src.length ≤ xs.length)
    (hBehind : pos + src.length ≤ q) :
    read (write xs pos src) q n = read xs q n := by
  apply List.ext_getElem?
  intro i
  rw [getElem?_read, getElem?_read, getElem?_write hFits]
  by_cases hInside : i < n
  · rw [if_pos hInside, if_pos hInside,
      if_neg (by omega), if_neg (by omega)]
  · rw [if_neg hInside, if_neg hInside]

/- The rest of the buffer from the written range on. -/
theorem drop_write
    {xs : List α} {pos : Nat} {src : List α}
    (hFits : pos + src.length ≤ xs.length) :
    (write xs pos src).drop pos =
      src ++ xs.drop (pos + src.length) := by
  have hTake : (xs.take pos).length = pos := by
    rw [List.length_take]
    omega
  unfold write
  rw [List.append_assoc, List.drop_left' hTake]

theorem drop_write_behind
    {xs : List α} {pos q : Nat} {src : List α}
    (hFits : pos + src.length ≤ xs.length)
    (hBehind : pos + src.length ≤ q) :
    (write xs pos src).drop q = xs.drop q := by
  apply List.ext_getElem?
  intro i
  rw [List.getElem?_drop, List.getElem?_drop,
    getElem?_write hFits, if_neg (by omega),
    if_neg (by omega)]

/- Two adjacent writes are one. -/
theorem write_write_behind
    {xs : List α} {pos : Nat} {src more : List α}
    (hFits :
      pos + src.length + more.length ≤ xs.length) :
    write (write xs pos src) (pos + src.length) more =
      write xs pos (src ++ more) := by
  have hSrc : pos + src.length ≤ xs.length := by omega
  have hLength := length_write hSrc
  apply List.ext_getElem?
  intro i
  rw [getElem?_write (by omega), getElem?_write hSrc,
    getElem?_write (by rw [List.length_append]; omega),
    List.length_append, List.getElem?_append]
  by_cases hBefore : i < pos
  · simp [hBefore, Nat.lt_add_right src.length hBefore]
  · by_cases hInside : i < pos + src.length
    · have hSource : i - pos < src.length := by omega
      have hWhole :
          i < pos + (src.length + more.length) := by
        omega
      simp [hBefore, hInside, hSource, hWhole]
    · have hSource : ¬ i - pos < src.length := by omega
      have hIndex :
          i - (pos + src.length) = i - pos - src.length := by
        omega
      simp [hBefore, hInside, hSource, hIndex,
        Nat.add_assoc]

/- The start and the end of a range. -/
theorem take_read
    (xs : List α) (pos : Nat) {m n : Nat} (hLe : m ≤ n) :
    (read xs pos n).take m = read xs pos m := by
  unfold read
  rw [List.take_take, Nat.min_eq_left hLe]

theorem drop_read
    (xs : List α) (pos m n : Nat) :
    (read xs pos (m + n)).drop m = read xs (pos + m) n := by
  unfold read
  rw [List.drop_take, List.drop_drop, Nat.add_sub_cancel_left]

/- Adjacent ranges are one range. -/
theorem read_append_read
    (xs : List α) (pos m n : Nat) :
    read xs pos m ++ read xs (pos + m) n =
      read xs pos (m + n) := by
  unfold read
  rw [← List.drop_drop, ← List.take_add]

/- A range inside a part of the buffer. -/
theorem read_of_drop
    {xs front back : List α} {pos k n : Nat}
    (hDrop : xs.drop pos = front ++ back)
    (hFits : k + n ≤ front.length) :
    read xs (pos + k) n = read front k n := by
  unfold read
  rw [← List.drop_drop, hDrop,
    List.drop_append_of_le_length (by omega),
    List.take_append_of_le_length]
  rw [List.length_drop]
  omega

theorem read_append_left
    (xs ys : List α) {n : Nat} (hLength : xs.length = n) :
    read (xs ++ ys) 0 n = xs := by
  unfold read
  rw [List.drop_zero, List.take_left' hLength]

theorem read_append_right
    (xs ys : List α) {m : Nat} (hLength : xs.length = m)
    (k n : Nat) :
    read (xs ++ ys) (m + k) n = read ys k n := by
  unfold read
  rw [← List.drop_drop, List.drop_left' hLength]

------------------------------------------------------------
-- Sizes
------------------------------------------------------------

/- Another size; new cells get the value `fill`. -/
def resize (fill : α) (xs : List α) (n : Nat) : List α :=
  xs.take n ++ List.replicate (n - xs.length) fill

@[simp] theorem length_resize
    (fill : α) (xs : List α) (n : Nat) :
    (resize fill xs n).length = n := by
  unfold resize
  rw [List.length_append, List.length_take,
    List.length_replicate]
  omega

theorem resize_of_le
    (fill : α) {xs : List α} {n : Nat}
    (hLe : n ≤ xs.length) :
    resize fill xs n = xs.take n := by
  unfold resize
  rw [Nat.sub_eq_zero_of_le hLe, List.replicate_zero,
    List.append_nil]

/- What was written is left if the rest is cut off. -/
theorem resize_write
    (fill : α) {xs src : List α}
    (hFits : src.length ≤ xs.length) :
    resize fill (write xs 0 src) src.length = src := by
  have hRoom : 0 + src.length ≤ xs.length := by omega
  have hLength := length_write hRoom
  rw [resize_of_le fill (by omega)]
  exact read_write hRoom

------------------------------------------------------------
-- Little-Endian Numbers
------------------------------------------------------------

/- The lowest bytes of a number, the lowest one first. -/
def leBytes : Nat → Nat → List UInt8
| 0, _ => []
| width + 1, value =>
    UInt8.ofNat value :: leBytes width (value / 256)

/- The number that little-endian bytes stand for. -/
def leValue : List UInt8 → Nat
| [] => 0
| b :: rest => b.toNat + 256 * leValue rest

@[simp] theorem length_leBytes (width value : Nat) :
    (leBytes width value).length = width := by
  induction width generalizing value with
  | zero => rfl
  | succ width ih =>
      unfold leBytes
      rw [List.length_cons, ih]

/- Decoding gives the number back, as far as it fits. -/
theorem leValue_leBytes (width value : Nat) :
    leValue (leBytes width value) = value % 256 ^ width := by
  induction width generalizing value with
  | zero =>
      unfold leBytes leValue
      rw [Nat.pow_zero, Nat.mod_one]
  | succ width ih =>
      unfold leBytes leValue
      rw [ih, Nat.pow_succ, Nat.mul_comm (256 ^ width),
        Nat.mod_mul]
      simp

theorem leValue_leBytes_of_lt
    {width value : Nat} (hFits : value < 256 ^ width) :
    leValue (leBytes width value) = value := by
  rw [leValue_leBytes, Nat.mod_eq_of_lt hFits]

end Buffer
