import LibCosmos.Core.Types
import Mathlib.Data.List.Forall2
import Mathlib.Algebra.BigOperators.Group.List.Basic

/-
  Scatter/gather vectors and their update after a partial
  transfer (`include/io/iovector.hxx`,
  `src/io/iovector.cxx`).

  A `size_t` is a `UInt64`, so lengths and their sum wrap
  around as in the source. `IOVector.leftTotal` is the
  exact sum.

  Main declarations:
    * `IOVector.update`, `IOVector.leftBytes`
    * `IOVector.updateLoop_spec`
    * `IOVector.update_drops_bytes`
-/

namespace Cosmos

------------------------------------------------------------
-- Memory Regions
------------------------------------------------------------

/-
  `IOMemoryRegion`: a base pointer, as an address, and a
  length. Input and output regions have the same code.
-/
@[ext] structure IOMemoryRegion where
  iovBase : UInt64
  iovLen : UInt64
deriving DecidableEq, Repr

namespace IOMemoryRegion

def getLength (r : IOMemoryRegion) : UInt64 :=
  r.iovLen

def finished (r : IOMemoryRegion) : Bool :=
  r.getLength == 0

/-
  `IOMemoryRegion::update`: the bytes that account to this
  region and the region that is left.
-/
def update
    (processedBytes : UInt64)
    (r : IOMemoryRegion) : UInt64 × IOMemoryRegion :=
  let toReduce := min processedBytes r.getLength
  (toReduce,
    { iovBase := r.iovBase + toReduce
      iovLen := r.getLength - toReduce })

/- The addresses of the bytes of the region, in order. -/
def bytes (r : IOMemoryRegion) : List UInt64 :=
  (List.range r.iovLen.toNat).map
    fun k => r.iovBase + UInt64.ofNat k

@[simp] theorem length_bytes (r : IOMemoryRegion) :
    r.bytes.length = r.iovLen.toNat := by
  simp [bytes]

theorem finished_iff (r : IOMemoryRegion) :
    r.finished = true ↔ r.iovLen.toNat = 0 := by
  simp [finished, getLength, ← UInt64.toNat_inj]

private theorem toNat_min (m n : UInt64) :
    (min m n).toNat = min m.toNat n.toNat := by
  rw [UInt64.min_def]
  split
  · next hLe =>
      rw [UInt64.le_iff_toNat_le] at hLe
      omega
  · next hLe =>
      rw [UInt64.le_iff_toNat_le] at hLe
      omega

/- A region accounts for at most its own length. -/
theorem toNat_update_fst
    (n : UInt64) (r : IOMemoryRegion) :
    (r.update n).1.toNat =
      min n.toNat r.iovLen.toNat := by
  simp [update, getLength, toNat_min]

theorem toNat_update_len
    (n : UInt64) (r : IOMemoryRegion) :
    (r.update n).2.iovLen.toNat =
      r.iovLen.toNat - n.toNat := by
  have hLe : min n r.iovLen ≤ r.iovLen := by
    rw [UInt64.le_iff_toNat_le, toNat_min]
    exact Nat.min_le_right _ _
  simp only [update, getLength]
  rw [UInt64.toNat_sub_of_le _ _ hLe, toNat_min]
  omega

/- Updating a region drops the processed bytes from it. -/
theorem bytes_update
    (n : UInt64) (r : IOMemoryRegion) :
    (r.update n).2.bytes = r.bytes.drop n.toNat := by
  apply List.ext_getElem
  · simp [toNat_update_len]
  · intro k hLeft hRight
    have hBound : n.toNat ≤ r.iovLen.toNat := by
      simp only [length_bytes, toNat_update_len] at hLeft
      omega
    have hReduced : min n r.iovLen = n := by
      apply UInt64.toNat_inj.mp
      rw [toNat_min]
      omega
    simp only [bytes, List.getElem_map,
      List.getElem_range, List.getElem_drop, update,
      getLength, hReduced]
    simp [UInt64.ofNat_add, UInt64.add_assoc]

/- The bytes behind the first ones of a region. -/
theorem bytes_advance
    (buf : UInt64) {n length : UInt64}
    (hLe : n.toNat ≤ length.toNat) :
    bytes ⟨buf + n, length - n⟩ =
      (bytes ⟨buf, length⟩).drop n.toNat := by
  have hMin : min n length = n := by
    rw [UInt64.min_def, if_pos]
    exact UInt64.le_iff_toNat_le.mpr hLe
  have hBytes := bytes_update n ⟨buf, length⟩
  simp only [update, getLength, hMin] at hBytes
  exact hBytes

/- What a region leaves of the processed bytes. -/
theorem toNat_sub_update_fst
    (n : UInt64) (r : IOMemoryRegion) :
    (n - (r.update n).1).toNat =
      n.toNat - r.iovLen.toNat := by
  have hLe : (r.update n).1 ≤ n := by
    rw [UInt64.le_iff_toNat_le, toNat_update_fst]
    exact Nat.min_le_left _ _
  rw [UInt64.toNat_sub_of_le _ _ hLe, toNat_update_fst]
  omega

theorem update_zero (r : IOMemoryRegion) :
    (r.update 0).2 = r := by
  have hReduced : (r.update 0).1 = 0 := by
    apply UInt64.toNat_inj.mp
    rw [toNat_update_fst, UInt64.toNat_zero, Nat.zero_min]
  apply IOMemoryRegion.ext
  · change r.iovBase + (r.update 0).1 = r.iovBase
    rw [hReduced, UInt64.add_zero]
  · change r.iovLen - (r.update 0).1 = r.iovLen
    rw [hReduced, UInt64.sub_zero]

/- Two updates of a region are one update by the sum. -/
theorem update_update
    (r : IOMemoryRegion) (a b : UInt64)
    (hSum : a.toNat + b.toNat < 2 ^ 64) :
    ((r.update a).2.update b).2 = (r.update (a + b)).2 := by
  have hAdd : (a + b).toNat = a.toNat + b.toNat := by
    rw [UInt64.toNat_add, Nat.mod_eq_of_lt hSum]
  have hFst := toNat_update_fst a r
  have hFst' := toNat_update_fst b (r.update a).2
  have hFstSum := toNat_update_fst (a + b) r
  have hLen := toNat_update_len a r
  have hLen' := toNat_update_len b (r.update a).2
  have hLenSum := toNat_update_len (a + b) r
  have hReduced :
      (r.update a).1 + ((r.update a).2.update b).1 =
        (r.update (a + b)).1 := by
    apply UInt64.toNat_inj.mp
    rw [UInt64.toNat_add, hFst, hFst', hFstSum, hLen, hAdd]
    have hBound := r.iovLen.toNat_lt
    omega
  apply IOMemoryRegion.ext
  · have hAssoc :
        ((r.update a).2.update b).2.iovBase =
          r.iovBase + ((r.update a).1 +
            ((r.update a).2.update b).1) := by
      rw [← UInt64.add_assoc]
      rfl
    rw [hAssoc, hReduced]
    rfl
  · apply UInt64.toNat_inj.mp
    omega

end IOMemoryRegion

------------------------------------------------------------
-- The Vector
------------------------------------------------------------

/- `IOVector`, a `std::vector` of memory regions. -/
abbrev IOVector := List IOMemoryRegion

namespace IOVector

open IOMemoryRegion

/- `IOVector::leftBytes`. -/
def leftBytes (v : IOVector) : UInt64 :=
  v.foldl (fun ret entry => ret + entry.getLength) 0

/-
  The loop of `IOVector::update`: the processed bytes that
  are left over, `vec_finished` and the updated entries.
-/
def updateLoop :
    UInt64 → IOVector → UInt64 × Bool × IOVector
| processedBytes, [] => (processedBytes, true, [])
| processedBytes, entry :: rest =>
    let reduced := entry.update processedBytes
    let processedBytes := processedBytes - reduced.1
    if reduced.2.finished then
      let tail := updateLoop processedBytes rest
      (tail.1, tail.2.1, reduced.2 :: tail.2.2)
    else
      -- break: the remaining entries are not visited
      (processedBytes, false, reduced.2 :: rest)

/- `IOVector::update`. The vector is updated even on throw. -/
def update (processedBytes : UInt64) :
    Method IOVector Bool := do
  let v ← Command.get
  let result := updateLoop processedBytes v
  Command.modify fun _ => result.2.2
  if result.1 ≠ 0 then
    Command.raise (.runtimeError
      (str "inconsistency while updating IOVector"))
  pure result.2.1

/- The concatenated byte sequence that a vector describes. -/
def bytes (v : IOVector) : List UInt64 :=
  v.flatMap IOMemoryRegion.bytes

/- The exact number of bytes that are left. -/
def leftTotal (v : IOVector) : Nat :=
  (v.map fun entry => entry.iovLen.toNat).sum

@[simp] theorem leftTotal_nil :
    leftTotal [] = 0 :=
  rfl

@[simp] theorem leftTotal_cons
    (r : IOMemoryRegion) (v : IOVector) :
    leftTotal (r :: v) = r.iovLen.toNat + leftTotal v := by
  simp [leftTotal]

@[simp] theorem bytes_nil :
    bytes [] = [] :=
  rfl

@[simp] theorem bytes_cons
    (r : IOMemoryRegion) (v : IOVector) :
    bytes (r :: v) = r.bytes ++ bytes v := by
  simp [bytes]

@[simp] theorem length_bytes (v : IOVector) :
    (bytes v).length = leftTotal v := by
  induction v with
  | nil => rfl
  | cons r v ih => simp [ih]

/- `leftBytes` is the exact sum as far as `size_t` goes. -/
theorem toNat_leftBytes (v : IOVector) :
    (leftBytes v).toNat = leftTotal v % 2 ^ 64 := by
  have hFold :
      ∀ (v : IOVector) (ret : UInt64),
        (v.foldl (fun ret entry =>
          ret + entry.getLength) ret).toNat =
            (ret.toNat + leftTotal v) % 2 ^ 64 := by
    intro v
    induction v with
    | nil =>
        intro ret
        simp [Nat.mod_eq_of_lt ret.toNat_lt]
    | cons r v ih =>
        intro ret
        rw [List.foldl_cons, ih, leftTotal_cons]
        simp only [getLength, UInt64.toNat_add]
        omega
  simpa [leftBytes] using hFold v 0

------------------------------------------------------------
-- The Update Loop
------------------------------------------------------------

/- Regions that lie inside the region they came from. -/
def Within (after before : IOVector) : Prop :=
  List.Forall₂
    (fun r' r => r'.bytes <:+ r.bytes) after before

theorem Within.refl (v : IOVector) :
    Within v v :=
  List.forall₂_same.mpr fun _ _ => List.suffix_refl _

/- What the loop leaves of the processed bytes. -/
theorem toNat_updateLoop_fst
    (v : IOVector) (n : UInt64) :
    (updateLoop n v).1.toNat = n.toNat - leftTotal v := by
  induction v generalizing n with
  | nil => simp [updateLoop]
  | cons r v ih =>
      have hSub := toNat_sub_update_fst n r
      have hLen := toNat_update_len n r
      by_cases hFinished :
          (r.update n).2.finished = true
      · rw [updateLoop, if_pos hFinished, leftTotal_cons]
        rw [ih, hSub]
        omega
      · rw [updateLoop, if_neg hFinished, leftTotal_cons]
        rw [finished_iff] at hFinished
        rw [hSub]
        omega

/- The loop drops the processed bytes from the sequence. -/
theorem bytes_updateLoop
    (v : IOVector) (n : UInt64) :
    bytes (updateLoop n v).2.2 =
      (bytes v).drop n.toNat := by
  induction v generalizing n with
  | nil => simp [updateLoop]
  | cons r v ih =>
      have hSub := toNat_sub_update_fst n r
      have hLen := toNat_update_len n r
      have hBytes := bytes_update n r
      by_cases hFinished :
          (r.update n).2.finished = true
      · rw [updateLoop, if_pos hFinished, bytes_cons,
          hBytes, ih, hSub, bytes_cons, List.drop_append,
          IOMemoryRegion.length_bytes]
      · rw [updateLoop, if_neg hFinished, bytes_cons,
          hBytes, bytes_cons, List.drop_append_of_le_length]
        rw [finished_iff] at hFinished
        rw [IOMemoryRegion.length_bytes]
        omega

theorem within_updateLoop
    (v : IOVector) (n : UInt64) :
    Within (updateLoop n v).2.2 v := by
  induction v generalizing n with
  | nil => exact List.Forall₂.nil
  | cons r v ih =>
      have hHead : (r.update n).2.bytes <:+ r.bytes := by
        rw [bytes_update]
        exact List.drop_suffix _ _
      rw [updateLoop]
      split
      · exact List.Forall₂.cons hHead (ih _)
      · exact List.Forall₂.cons hHead (Within.refl v)

/- `vec_finished` tells whether no byte is left. -/
theorem updateLoop_finished_iff
    (v : IOVector) (n : UInt64) :
    (updateLoop n v).2.1 = true ↔
      leftTotal (updateLoop n v).2.2 = 0 := by
  induction v generalizing n with
  | nil => simp [updateLoop]
  | cons r v ih =>
      by_cases hFinished :
          (r.update n).2.finished = true
      · rw [updateLoop, if_pos hFinished, leftTotal_cons]
        rw [finished_iff] at hFinished
        simp [ih, hFinished]
      · rw [updateLoop, if_neg hFinished, leftTotal_cons]
        rw [finished_iff] at hFinished
        simp [hFinished]

theorem updateLoop_zero (v : IOVector) :
    (updateLoop 0 v).2.2 = v := by
  induction v with
  | nil => rfl
  | cons r v ih =>
      have hRest : 0 - (r.update 0).1 = 0 := by
        apply UInt64.toNat_inj.mp
        rw [toNat_sub_update_fst, UInt64.toNat_zero,
          Nat.zero_sub]
      rw [updateLoop, update_zero, hRest]
      split
      · simp only [ih]
      · rfl

/-
  Two updates in a row leave the regions of one update by
  the sum, base pointers included.
-/
theorem updateLoop_add
    (v : IOVector) (a b : UInt64)
    (hSum : a.toNat + b.toNat < 2 ^ 64) :
    (updateLoop b (updateLoop a v).2.2).2.2 =
      (updateLoop (a + b) v).2.2 := by
  induction v generalizing a b with
  | nil => rfl
  | cons r v ih =>
      have hAdd : (a + b).toNat = a.toNat + b.toNat := by
        rw [UInt64.toNat_add, Nat.mod_eq_of_lt hSum]
      have hTwice := update_update r a b hSum
      have hLen := toNat_update_len a r
      have hSubA := toNat_sub_update_fst a r
      have hSubB := toNat_sub_update_fst b (r.update a).2
      have hSubSum := toNat_sub_update_fst (a + b) r
      by_cases hFinished :
          (r.update a).2.finished = true
      · -- the second update passes the finished region
        have hDone : r.iovLen.toNat ≤ a.toNat := by
          rw [finished_iff] at hFinished
          omega
        have hPassed :
            (r.update (a + b)).2.finished = true := by
          rw [finished_iff, toNat_update_len]
          omega
        have hRest :
            b - ((r.update a).2.update b).1 = b := by
          apply UInt64.toNat_inj.mp
          omega
        have hCarry :
            a + b - (r.update (a + b)).1 =
              (a - (r.update a).1) + b := by
          apply UInt64.toNat_inj.mp
          rw [UInt64.toNat_add]
          omega
        rw [updateLoop, if_pos hFinished, updateLoop,
          hTwice, if_pos hPassed, updateLoop,
          if_pos hPassed, hRest, hCarry]
        have hTail :=
          ih (a - (r.update a).1) b (by omega)
        simp only [hTail]
      · -- the second update goes on inside the region
        have hCarry :
            b - ((r.update a).2.update b).1 =
              a + b - (r.update (a + b)).1 := by
          apply UInt64.toNat_inj.mp
          rw [finished_iff] at hFinished
          omega
        rw [updateLoop, if_neg hFinished, updateLoop,
          hTwice, hCarry, updateLoop]

------------------------------------------------------------
-- Updates of a Vector
------------------------------------------------------------

theorem run_update (n : UInt64) (v : IOVector) :
    (update n).run v =
      (if (updateLoop n v).1 ≠ 0 then
          .raised (.runtimeError
            (str "inconsistency while updating IOVector"))
        else .returned (updateLoop n v).2.1,
        (updateLoop n v).2.2) := by
  simp only [update, Command.run_bind, Command.run_get,
    Command.run_modify, Command.run_ite]
  split
  · rfl
  · rfl

theorem run_update_returned
    {n : UInt64} {v : IOVector}
    (hFits : n.toNat ≤ leftTotal v) :
    (update n).run v =
      (.returned (updateLoop n v).2.1,
        (updateLoop n v).2.2) := by
  have hLeft : (updateLoop n v).1 = 0 := by
    apply UInt64.toNat_inj.mp
    rw [toNat_updateLoop_fst, UInt64.toNat_zero]
    omega
  simp [run_update, hLeft]

theorem run_update_raised
    {n : UInt64} {v : IOVector}
    (hExceeds : leftTotal v < n.toNat) :
    (update n).run v =
      (.raised (.runtimeError
        (str "inconsistency while updating IOVector")),
        (updateLoop n v).2.2) := by
  have hLeft : (updateLoop n v).1 ≠ 0 := by
    intro hZero
    have hExact := toNat_updateLoop_fst v n
    rw [hZero, UInt64.toNat_zero] at hExact
    omega
  simp [run_update, hLeft]

theorem leftTotal_updateLoop
    (v : IOVector) (n : UInt64) :
    leftTotal (updateLoop n v).2.2 =
      leftTotal v - n.toNat := by
  rw [← length_bytes, bytes_updateLoop, List.length_drop,
    length_bytes]

/- It does when the bytes were enough for the vector. -/
theorem updateLoop_finished
    (v : IOVector) (n : UInt64) :
    (updateLoop n v).2.1 =
      decide (leftTotal v ≤ n.toNat) := by
  have hDone := updateLoop_finished_iff v n
  rw [leftTotal_updateLoop] at hDone
  apply Bool.eq_iff_iff.mpr
  rw [hDone, decide_eq_true_eq]
  omega

/- Account for the transfers of several system calls. -/
def updateAll (ns : List UInt64) : Method IOVector Unit :=
  Command.forEach (fun n => do let _ ← update n) ns

/-
  However a number of bytes is split over several updates,
  they all succeed and leave the vector of one update.
-/
theorem run_updateAll
    (ns : List UInt64) (n : UInt64) (v : IOVector)
    (hSplit : (ns.map UInt64.toNat).sum = n.toNat)
    (hFits : n.toNat ≤ leftTotal v) :
    (updateAll ns).run v =
      (.returned (), (updateLoop n v).2.2) := by
  induction ns generalizing n v with
  | nil =>
      have hZero : n = 0 := by
        apply UInt64.toNat_inj.mp
        simpa using hSplit.symm
      subst hZero
      rw [updateLoop_zero]
      rfl
  | cons m ns ih =>
      have hHead : m.toNat ≤ n.toNat := by
        simp only [List.map_cons, List.sum_cons] at hSplit
        omega
      have hRest :
          (n - m).toNat = n.toNat - m.toNat :=
        UInt64.toNat_sub_of_le _ _
          (UInt64.le_iff_toNat_le.mpr hHead)
      have hTail :
          (ns.map UInt64.toNat).sum = (n - m).toNat := by
        simp only [List.map_cons, List.sum_cons] at hSplit
        omega
      have hLeft := leftTotal_updateLoop v m
      have hSum : m + (n - m) = n := by
        apply UInt64.toNat_inj.mp
        rw [UInt64.toNat_add, hRest]
        have hBound := n.toNat_lt
        omega
      have hAdd := updateLoop_add v m (n - m) (by
        have hBound := n.toNat_lt
        omega)
      have hIH :=
        ih (n - m) (updateLoop m v).2.2 hTail (by omega)
      rw [hAdd, hSum] at hIH
      change
        (Command.forEach _ (m :: ns)).run v = _
      rw [Command.forEach, Command.run_bind,
        Command.run_bind,
        run_update_returned (by omega : _ ≤ leftTotal v)]
      exact hIH

/-
  `update` drops exactly the processed bytes: for every
  vector and every number of bytes that the vector still
  holds the remaining regions describe the original bytes
  without the processed ones, inside their old memory, and
  the result tells whether no byte is left; a larger number
  throws; a number that is split over several updates
  leaves the same vector. `leftBytes` is the exact number of
  left bytes as a `size_t`.
-/
theorem update_drops_bytes (v : IOVector) :
    (leftBytes v).toNat = leftTotal v % 2 ^ 64 ∧
    (∀ n : UInt64, n.toNat ≤ leftTotal v →
      ∃ done v',
        (update n).run v = (.returned done, v') ∧
        bytes v' = (bytes v).drop n.toNat ∧
        Within v' v ∧
        leftTotal v' = leftTotal v - n.toNat ∧
        leftBytes v' = leftBytes v - n ∧
        (done = true ↔ leftTotal v' = 0) ∧
        ∀ ns : List UInt64,
          (ns.map UInt64.toNat).sum = n.toNat →
            (updateAll ns).run v = (.returned (), v')) ∧
    (∀ n : UInt64, leftTotal v < n.toNat →
      ∃ e v', (update n).run v = (.raised e, v')) := by
  refine ⟨toNat_leftBytes v, ?_, ?_⟩
  · intro n hFits
    have hLeft := leftTotal_updateLoop v n
    refine
      ⟨_, _, run_update_returned hFits,
        bytes_updateLoop v n, within_updateLoop v n,
        hLeft, ?_, updateLoop_finished_iff v n, ?_⟩
    · apply UInt64.toNat_inj.mp
      rw [toNat_leftBytes, hLeft, UInt64.toNat_sub,
        toNat_leftBytes]
      have hBound := n.toNat_lt
      omega
    · intro ns hSplit
      exact run_updateAll ns n v hSplit hFits
  · intro n hExceeds
    exact ⟨_, _, run_update_raised hExceeds⟩

/-
  `leftBytes` itself cannot replace the exact number: for
  two regions of 2^63 bytes it wraps around to zero, and an
  update by zero bytes reports an unfinished vector.
-/
theorem update_result_not_leftBytes :
    ¬ ∀ (v : IOVector) (n : UInt64), n ≤ leftBytes v →
      ∃ done v',
        (update n).run v = (.returned done, v') ∧
        (done = true ↔ leftBytes v' = 0) := by
  intro hClaim
  rcases hClaim
      [⟨0x1000, 0x8000000000000000⟩,
        ⟨0x1000, 0x8000000000000000⟩] 0 (by decide) with
    ⟨done, v', hRun, hDone⟩
  cases hRun
  revert hDone
  decide

end IOVector

end Cosmos
