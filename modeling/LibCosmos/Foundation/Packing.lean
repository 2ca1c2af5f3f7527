import LibCosmos.Foundation.Buffer

/-
  Lists of values in a buffer, each of them in the same
  number of bytes: a writer that advances by one value at a
  time and a reader that goes on while a whole value is
  left.

  Main declarations:
    * `Packing`, `Packing.bytes`
    * `Packing.store`, `Packing.store_eq_write`
    * `Packing.load`, `Packing.load_eq`
-/

/- Values of one size and how they look in memory. -/
structure Packing (V : Type) where
  size : Nat
  encode : V → List UInt8
  decode : List UInt8 → V
  size_pos : 0 < size
  size_encode : ∀ v, (encode v).length = size
  decode_encode : ∀ v, decode (encode v) = v

namespace Packing

variable {V : Type} (P : Packing V)

------------------------------------------------------------
-- Writing
------------------------------------------------------------

/- The values, one behind the other. -/
def bytes (vs : List V) : List UInt8 :=
  vs.flatMap P.encode

@[simp] theorem bytes_cons (v : V) (vs : List V) :
    P.bytes (v :: vs) = P.encode v ++ P.bytes vs := by
  simp [bytes]

@[simp] theorem length_bytes (vs : List V) :
    (P.bytes vs).length = P.size * vs.length := by
  induction vs with
  | nil => simp [bytes]
  | cons v vs ih =>
      rw [bytes_cons, List.length_append, P.size_encode, ih,
        List.length_cons, Nat.mul_succ, Nat.add_comm]

/- Write one value after another. -/
def store : List UInt8 → Nat → List V → List UInt8
| xs, _, [] => xs
| xs, pos, v :: vs =>
    store (Buffer.write xs pos (P.encode v)) (pos + P.size)
      vs

/- Together this is one write. -/
theorem store_eq_write
    (vs : List V) (xs : List UInt8) (pos : Nat)
    (hFits : pos + P.size * vs.length ≤ xs.length) :
    P.store xs pos vs =
      Buffer.write xs pos (P.bytes vs) := by
  induction vs generalizing xs pos with
  | nil => simp [store, bytes, Buffer.write]
  | cons v vs ih =>
      rw [List.length_cons, Nat.mul_succ] at hFits
      have hSize := P.size_encode v
      have hHead :
          (Buffer.write xs pos (P.encode v)).length =
            xs.length :=
        Buffer.length_write (by omega)
      have hRest := P.length_bytes vs
      unfold store
      rw [ih _ _ (by omega), bytes_cons, ← hSize,
        Buffer.write_write_behind (by omega)]

------------------------------------------------------------
-- Reading
------------------------------------------------------------

/-
  Read values from a position on, while `left` bytes still
  hold one.
-/
def load (xs : List UInt8) (pos left : Nat) : List V :=
  if _h : P.size ≤ left then
    P.decode (Buffer.read xs pos P.size) ::
      load xs (pos + P.size) (left - P.size)
  else []
termination_by left
decreasing_by
  have hPos := P.size_pos
  omega

/-
  From a range that holds values exactly these are read; a
  rest that is too short for a value is not.
-/
theorem load_eq
    (vs : List V) {xs rest : List UInt8} {pos : Nat}
    (hHolds : xs.drop pos = P.bytes vs ++ rest)
    {k : Nat} (hShort : k < P.size) :
    P.load xs pos (P.size * vs.length + k) = vs := by
  induction vs generalizing pos with
  | nil =>
      unfold load
      simp [hShort]
  | cons v vs ih =>
      have hSize := P.size_encode v
      rw [bytes_cons, List.append_assoc] at hHolds
      have hHead :
          Buffer.read xs pos P.size = P.encode v := by
        unfold Buffer.read
        rw [hHolds, List.take_left' hSize]
      have hTail :
          xs.drop (pos + P.size) = P.bytes vs ++ rest := by
        rw [← List.drop_drop, hHolds,
          List.drop_left' hSize]
      have hLeft :
          P.size * (v :: vs).length + k =
            P.size * vs.length + k + P.size := by
        rw [List.length_cons, Nat.mul_succ]
        omega
      unfold load
      rw [hLeft, dif_pos (Nat.le_add_left _ _),
        Nat.add_sub_cancel, ih hTail, hHead,
        P.decode_encode]

end Packing
