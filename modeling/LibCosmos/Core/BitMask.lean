import LibCosmos.Core.Types
import Mathlib.Data.Finset.SymmDiff
import Mathlib.Data.Finset.Card
import Mathlib.Data.Finset.Range

/-
  Bit masks over the values of an enumeration
  (`include/BitMask.hxx`).

  `w` is the number of bits of the base type of the
  enumeration. A value of the enumeration is any number of
  this type: several bits, and values that share bits, are
  allowed.

  Main declarations:
    * `BitMask` and its operations
    * `BitMask.positions`
    * `BitMask.anyOfList_eq`
    * `BitMask.power_set`
-/

namespace Cosmos

/- A `BitMask`. -/
structure BitMask (w : Nat) where
  mFlags : BitVec w
deriving DecidableEq, Repr

namespace BitMask

variable {w : Nat}

------------------------------------------------------------
-- Operations
------------------------------------------------------------

/- The constructors. -/
def empty : BitMask w := ⟨0⟩

def ofList (flags : List (BitVec w)) : BitMask w :=
  ⟨flags.foldl (fun mask val => mask ||| val) 0⟩

def raw (this : BitMask w) : BitVec w := this.mFlags

/- The overloads of `set`. -/
def setAll (_ : BitMask w) : BitMask w := ⟨~~~0⟩

def setFlag (this : BitMask w) (val : BitVec w)
    (onOff : Bool) : BitMask w :=
  ⟨if onOff then this.mFlags ||| val
    else this.mFlags &&& ~~~val⟩

def setList (this : BitMask w) (flags : List (BitVec w)) :
    BitMask w :=
  flags.foldl (fun mask flag => mask.setFlag flag true) this

def setMask (this other : BitMask w) : BitMask w :=
  ⟨this.mFlags ||| other.mFlags⟩

/- The overloads of `reset`. -/
def resetAll (_ : BitMask w) : BitMask w := ⟨0⟩

def resetList (this : BitMask w) (flags : List (BitVec w)) :
    BitMask w :=
  flags.foldl (fun mask val => ⟨mask.mFlags &&& ~~~val⟩) this

def resetFlag (this : BitMask w) (val : BitVec w) :
    BitMask w :=
  this.resetList [val]

def resetMask (this other : BitMask w) : BitMask w :=
  ⟨this.mFlags &&& ~~~other.raw⟩

/- The overloads of `limit`. -/
def limitList (this : BitMask w) (flags : List (BitVec w)) :
    BitMask w :=
  let mask := flags.foldl (fun mask val => mask ||| val) 0
  ⟨this.mFlags &&& mask⟩

def limitFlag (this : BitMask w) (flag : BitVec w) :
    BitMask w :=
  this.limitList [flag]

def limitMask (this other : BitMask w) : BitMask w :=
  ⟨this.mFlags &&& other.raw⟩

/- The overloads of `flip`. -/
def flip (this : BitMask w) : BitMask w :=
  ⟨~~~this.mFlags⟩

def flipFlag (this : BitMask w) (val : BitVec w) :
    BitMask w :=
  ⟨this.mFlags ^^^ val⟩

/- `test`; a multi-bit value has to be set as a whole. -/
def test (this : BitMask w) (val : BitVec w) :
    Except Exn Bool :=
  if val = 0 then
    .error (.usageError (str "test for zero"))
  else
    .ok (this.mFlags &&& val == val)

def testAny (this : BitMask w) (val : BitVec w) : Bool :=
  this.mFlags &&& val != 0

def only (this : BitMask w) (val : BitVec w) : Bool :=
  this.mFlags == val

def any (this : BitMask w) : Bool :=
  this.mFlags != 0

def none (this : BitMask w) : Bool :=
  !this.any

/- The loop of `count` from a bit on. -/
def countFrom (this : BitMask w) :
    List Nat → Nat → Except Exn Nat
| [], ret => .ok ret
| bit :: bits, ret =>
    match this.test (1#w <<< bit) with
    | .ok true => countFrom this bits (ret + 1)
    | .ok false => countFrom this bits ret
    | .error e => .error e

def count (this : BitMask w) : Except Exn Nat :=
  this.countFrom (List.range w) 0

/- `steal`: the result and the mask afterwards. -/
def steal (this : BitMask w) (val : BitVec w) :
    Except Exn (Bool × BitMask w) :=
  match this.test val with
  | .ok true => .ok (true, this.resetFlag val)
  | .ok false => .ok (false, this)
  | .error e => .error e

/- The overloads of `allOf` and `anyOf`. -/
def allOfList (this : BitMask w) :
    List (BitVec w) → Except Exn Bool
| [] => .ok true
| val :: flags =>
    match this.test val with
    | .ok true => allOfList this flags
    | .ok false => .ok false
    | .error e => .error e

def allOfMask (this other : BitMask w) : Bool :=
  this.mFlags &&& other.mFlags == other.mFlags

def anyOfList (this : BitMask w) :
    List (BitVec w) → Except Exn Bool
| [] => .ok false
| val :: flags =>
    match this.test val with
    | .ok true => .ok true
    | .ok false => anyOfList this flags
    | .error e => .error e

def anyOfMask (this other : BitMask w) : Bool :=
  this.mFlags &&& other.mFlags != 0

/- The operators. -/
def complement (this : BitMask w) : BitMask w :=
  ⟨~~~this.mFlags⟩

def minus (first second : BitMask w) : BitMask w :=
  first.resetMask second

def minusFlag (first : BitMask w) (val : BitVec w) :
    BitMask w :=
  first.resetFlag val

def plus (first second : BitMask w) : BitMask w :=
  first.setMask second

def plusFlag (first : BitMask w) (val : BitVec w) :
    BitMask w :=
  first.setFlag val true

def union (first second : BitMask w) : BitMask w :=
  ⟨first.mFlags ||| second.mFlags⟩

def common (this other : BitMask w) : BitVec w :=
  other.raw &&& this.raw

------------------------------------------------------------
-- Positions
------------------------------------------------------------

/- The set bits of a number. -/
def bits (val : BitVec w) : Finset Nat :=
  (Finset.range w).filter fun i => val.getLsbD i = true

/- The set bits of a mask. -/
def positions (this : BitMask w) : Finset Nat :=
  bits this.mFlags

@[simp] theorem mem_bits (val : BitVec w) (i : Nat) :
    i ∈ bits val ↔ i < w ∧ val.getLsbD i = true := by
  simp [bits]

theorem bits_zero : bits (0 : BitVec w) = ∅ := by
  ext i
  simp

@[simp] theorem bits_ofNat_zero : bits 0#w = ∅ :=
  bits_zero

theorem bits_or (x y : BitVec w) :
    bits (x ||| y) = bits x ∪ bits y := by
  ext i
  simp only [mem_bits, BitVec.getLsbD_or, Bool.or_eq_true,
    Finset.mem_union]
  tauto

theorem bits_and (x y : BitVec w) :
    bits (x &&& y) = bits x ∩ bits y := by
  ext i
  simp only [mem_bits, BitVec.getLsbD_and, Bool.and_eq_true,
    Finset.mem_inter]
  tauto

theorem bits_not (x : BitVec w) :
    bits (~~~x) = Finset.range w \ bits x := by
  ext i
  simp only [mem_bits, BitVec.getLsbD_not, Bool.and_eq_true,
    decide_eq_true_eq, Bool.not_eq_true', Finset.mem_sdiff,
    Finset.mem_range, ← Bool.not_eq_true]
  tauto

theorem bits_and_not (x y : BitVec w) :
    bits (x &&& ~~~y) = bits x \ bits y := by
  ext i
  rw [bits_and, bits_not]
  simp only [Finset.mem_inter, Finset.mem_sdiff,
    Finset.mem_range, mem_bits]
  tauto

theorem bits_xor (x y : BitVec w) :
    bits (x ^^^ y) = symmDiff (bits x) (bits y) := by
  ext i
  simp only [mem_bits, BitVec.getLsbD_xor,
    Finset.mem_symmDiff]
  cases x.getLsbD i <;> cases y.getLsbD i <;> simp

/- A number is determined by its set bits. -/
theorem bits_inj {x y : BitVec w} :
    bits x = bits y ↔ x = y := by
  constructor
  · intro hBits
    apply BitVec.eq_of_getLsbD_eq
    intro i hi
    have hMem := Finset.ext_iff.mp hBits i
    rw [mem_bits, mem_bits] at hMem
    rw [Bool.eq_iff_iff]
    tauto
  · intro hEq
    rw [hEq]

theorem and_eq_right_iff (x y : BitVec w) :
    x &&& y = y ↔ bits y ⊆ bits x := by
  rw [← bits_inj, bits_and, Finset.inter_eq_right]

theorem and_ne_zero_iff (x y : BitVec w) :
    x &&& y ≠ 0 ↔ (bits x ∩ bits y).Nonempty := by
  rw [Ne, ← bits_inj, bits_and, bits_zero,
    Finset.nonempty_iff_ne_empty]

------------------------------------------------------------
-- Overloads
------------------------------------------------------------

/- The union of the flags of a list, from a start on. -/
theorem bits_foldl
    (flags : List (BitVec w)) (start : BitVec w) :
    bits (flags.foldl (fun mask val => mask ||| val) start) =
      bits start ∪ positions (ofList flags) := by
  induction flags generalizing start with
  | nil => simp [positions, ofList]
  | cons flag flags ih =>
      have hStart := ih (start ||| flag)
      have hZero := ih (0 ||| flag)
      simp only [positions, ofList, List.foldl_cons] at *
      rw [hStart, hZero, bits_or, bits_or, bits_zero,
        Finset.empty_union, Finset.union_assoc]

theorem positions_ofList_cons
    (flag : BitVec w) (flags : List (BitVec w)) :
    positions (ofList (flag :: flags)) =
      bits flag ∪ positions (ofList flags) := by
  have hFold := bits_foldl flags (0 ||| flag)
  rw [bits_or, bits_zero, Finset.empty_union] at hFold
  simpa [positions, ofList] using hFold

theorem setList_eq
    (this : BitMask w) (flags : List (BitVec w)) :
    this.setList flags = this.setMask (ofList flags) := by
  have hFold :
      ∀ (mask : BitMask w),
        (mask.setList flags).mFlags =
          flags.foldl (fun mask val => mask ||| val)
            mask.mFlags := by
    induction flags with
    | nil => simp [setList]
    | cons flag flags ih =>
        intro mask
        simpa [setList, setFlag] using
          ih (mask.setFlag flag true)
  have hBits :
      bits (this.setList flags).mFlags =
        bits (this.setMask (ofList flags)).mFlags := by
    rw [hFold, bits_foldl, setMask, bits_or, positions]
  rw [bits_inj] at hBits
  exact congrArg mk hBits

theorem resetList_eq
    (this : BitMask w) (flags : List (BitVec w)) :
    this.resetList flags = this.resetMask (ofList flags) := by
  have hBits :
      ∀ (mask : BitMask w),
        bits (mask.resetList flags).mFlags =
          bits mask.mFlags \ positions (ofList flags) := by
    induction flags with
    | nil =>
        simp [resetList, positions, ofList]
    | cons flag flags ih =>
        intro mask
        have hRest := ih ⟨mask.mFlags &&& ~~~flag⟩
        rw [bits_and_not, sdiff_sdiff_left] at hRest
        rw [positions_ofList_cons]
        exact hRest
  have hThis := hBits this
  rw [positions, ← bits_and_not, bits_inj] at hThis
  exact congrArg mk hThis

theorem limitList_eq
    (this : BitMask w) (flags : List (BitVec w)) :
    this.limitList flags = this.limitMask (ofList flags) := by
  simp [limitList, limitMask, ofList, raw]

/- The test of a value that has a bit. -/
theorem test_eq
    (this : BitMask w) {val : BitVec w} (hBit : val ≠ 0) :
    this.test val =
      .ok (decide (bits val ⊆ this.positions)) := by
  have hSame :
      (this.mFlags &&& val == val) =
        decide (bits val ⊆ this.positions) := by
    rw [Bool.eq_iff_iff, beq_iff_eq, decide_eq_true_iff,
      and_eq_right_iff, positions]
  rw [test, if_neg hBit, hSame]

theorem allOfMask_iff (this other : BitMask w) :
    this.allOfMask other = true ↔
      other.positions ⊆ this.positions := by
  rw [allOfMask, beq_iff_eq, and_eq_right_iff, positions,
    positions]

theorem anyOfMask_iff (this other : BitMask w) :
    this.anyOfMask other = true ↔
      (this.positions ∩ other.positions).Nonempty := by
  rw [anyOfMask, bne_iff_ne, and_ne_zero_iff, positions,
    positions]

theorem allOfList_eq
    (this : BitMask w) {flags : List (BitVec w)}
    (hBits : ∀ val ∈ flags, val ≠ 0) :
    this.allOfList flags =
      .ok (this.allOfMask (ofList flags)) := by
  have hAll :
      this.allOfList flags =
        .ok (decide
          (positions (ofList flags) ⊆ this.positions)) := by
    induction flags with
    | nil =>
        simp [allOfList, positions, ofList]
    | cons flag flags ih =>
        have hRest :=
          ih fun val hMem =>
            hBits val (List.mem_cons_of_mem _ hMem)
        rw [allOfList,
          test_eq this (hBits flag List.mem_cons_self),
          positions_ofList_cons]
        by_cases hFlag : bits flag ⊆ this.positions
        · simp [hFlag, hRest, Finset.union_subset_iff]
        · simp [hFlag, Finset.union_subset_iff]
  have hSame :
      decide (positions (ofList flags) ⊆ this.positions) =
        this.allOfMask (ofList flags) := by
    rw [Bool.eq_iff_iff, decide_eq_true_iff, allOfMask_iff]
  rw [hAll, hSame]

/- Some flag of the list has to be set as a whole. -/
theorem anyOfList_eq
    (this : BitMask w) {flags : List (BitVec w)}
    (hBits : ∀ val ∈ flags, val ≠ 0) :
    this.anyOfList flags =
      .ok (decide
        (∃ val ∈ flags, bits val ⊆ this.positions)) := by
  induction flags with
  | nil => simp [anyOfList]
  | cons flag flags ih =>
      have hRest :=
        ih fun val hMem =>
          hBits val (List.mem_cons_of_mem _ hMem)
      rw [anyOfList,
        test_eq this (hBits flag List.mem_cons_self)]
      by_cases hFlag : bits flag ⊆ this.positions
      · simp [hFlag]
      · simp [hFlag, hRest]

theorem mem_positions_ofList
    (flags : List (BitVec w)) (i : Nat) :
    i ∈ positions (ofList flags) ↔
      ∃ val ∈ flags, i ∈ bits val := by
  induction flags with
  | nil => simp [positions, ofList]
  | cons flag flags ih =>
      rw [positions_ofList_cons, Finset.mem_union, ih]
      simp

theorem bits_nonempty {val : BitVec w} (hBit : val ≠ 0) :
    (bits val).Nonempty := by
  rw [Finset.nonempty_iff_ne_empty, ← bits_zero, Ne,
    bits_inj]
  exact hBit

/- A flag that is set as a whole is set in part. -/
theorem anyOfMask_of_flag
    {this : BitMask w} {flags : List (BitVec w)}
    (hBits : ∀ val ∈ flags, val ≠ 0)
    (hSome : ∃ val ∈ flags, bits val ⊆ this.positions) :
    this.anyOfMask (ofList flags) = true := by
  rcases hSome with ⟨val, hMem, hSubset⟩
  rcases bits_nonempty (hBits val hMem) with ⟨i, hi⟩
  rw [anyOfMask_iff]
  refine ⟨i, ?_⟩
  rw [Finset.mem_inter, mem_positions_ofList]
  exact ⟨hSubset hi, val, hMem, hi⟩

/- With single bits there is no difference. -/
theorem flag_of_anyOfMask
    {this : BitMask w} {flags : List (BitVec w)}
    (hSingle : ∀ val ∈ flags, (bits val).card = 1)
    (hAny : this.anyOfMask (ofList flags) = true) :
    ∃ val ∈ flags, bits val ⊆ this.positions := by
  rw [anyOfMask_iff] at hAny
  rcases hAny with ⟨i, hi⟩
  rw [Finset.mem_inter, mem_positions_ofList] at hi
  rcases hi with ⟨hThis, val, hMem, hVal⟩
  rcases Finset.card_eq_one.mp (hSingle val hMem) with
    ⟨j, hOne⟩
  refine ⟨val, hMem, ?_⟩
  rw [hOne, Finset.mem_singleton] at hVal
  rw [hOne, Finset.singleton_subset_iff, ← hVal]
  exact hThis

------------------------------------------------------------
-- Counting and Stealing
------------------------------------------------------------

theorem bits_shifted {i : Nat} (hi : i < w) :
    bits (1#w <<< i) = {i} := by
  ext j
  rw [mem_bits, Finset.mem_singleton, ← BitVec.twoPow_eq,
    BitVec.getLsbD_twoPow]
  constructor
  · rintro ⟨_, hBit⟩
    have hBoth : i < w ∧ i = j := by simpa using hBit
    exact hBoth.2.symm
  · intro hEq
    subst hEq
    simp [hi]

theorem test_shifted
    (this : BitMask w) {i : Nat} (hi : i < w) :
    this.test (1#w <<< i) =
      .ok (decide (i ∈ this.positions)) := by
  have hBits := bits_shifted hi
  have hBit : 1#w <<< i ≠ 0 := by
    rw [Ne, ← bits_inj, hBits, bits_zero]
    simp
  rw [test_eq this hBit]
  simp only [hBits, Finset.singleton_subset_iff]

theorem test_one_shiftLeft
    (this : BitMask w) {i : Nat} (hi : i < w) :
    this.test (1#w <<< i) =
      .ok (this.mFlags.getLsbD i) := by
  have hMem :
      i ∈ this.positions ↔
        this.mFlags.getLsbD i = true := by
    rw [positions, mem_bits]
    exact and_iff_right hi
  rw [test_shifted this hi]
  congr 1
  rw [Bool.eq_iff_iff, decide_eq_true_iff, hMem]

/- The loop counts the set bits that it passes. -/
theorem countFrom_eq
    (this : BitMask w) (is : List Nat) (ret : Nat)
    (hInside : ∀ i ∈ is, i < w) :
    this.countFrom is ret =
      .ok (ret +
        (is.filter fun i => i ∈ this.positions).length) := by
  induction is generalizing ret with
  | nil => simp [countFrom]
  | cons i is ih =>
      have hRest :=
        fun ret => ih ret fun j hMem =>
          hInside j (List.mem_cons_of_mem _ hMem)
      rw [countFrom,
        test_shifted this (hInside i List.mem_cons_self)]
      by_cases hMem : i ∈ this.positions
      · simp only [hMem, decide_true, hRest,
          List.filter_cons_of_pos, List.length_cons]
        congr 1
        omega
      · simp [hMem, hRest]

/- The number of set bits. -/
theorem count_eq (this : BitMask w) :
    this.count = .ok this.positions.card := by
  have hList :
      this.positions =
        ((List.range w).filter fun i =>
          i ∈ this.positions).toFinset := by
    ext i
    have hSmall : i ∈ this.positions → i < w := by
      intro hMem
      exact ((mem_bits _ _).mp hMem).1
    simp only [List.mem_toFinset, List.mem_filter,
      List.mem_range, decide_eq_true_eq]
    tauto
  have hCard :=
    congrArg Finset.card hList
  rw [List.toFinset_card_of_nodup
    (List.nodup_range.filter _)] at hCard
  rw [count, countFrom_eq, hCard, Nat.zero_add]
  intro i hMem
  exact List.mem_range.mp hMem

/- `steal` takes all bits of a value or none. -/
theorem steal_eq
    (this : BitMask w) {val : BitVec w} (hBit : val ≠ 0) :
    this.steal val =
      if bits val ⊆ this.positions then
        .ok (true, this.resetFlag val)
      else .ok (false, this) := by
  rw [steal, test_eq this hBit]
  by_cases hSubset : bits val ⊆ this.positions
  · simp [hSubset]
  · simp [hSubset]

theorem resetFlag_eq (this : BitMask w) (val : BitVec w) :
    this.resetFlag val = ⟨this.mFlags &&& ~~~val⟩ := by
  simp [resetFlag, resetList]

------------------------------------------------------------
-- The Power Set
------------------------------------------------------------

/-
  The list overloads of `set`, `reset`, `limit` and `allOf`
  do what the overloads for masks do with the union of the
  list. `anyOf` of a list asks for a flag that is set as a
  whole, which is the same for flags of one bit.
-/
theorem overloads_agree
    (m : BitMask w) {flags : List (BitVec w)}
    (hBits : ∀ val ∈ flags, val ≠ 0) :
    m.setList flags = m.setMask (ofList flags) ∧
    m.resetList flags = m.resetMask (ofList flags) ∧
    m.limitList flags = m.limitMask (ofList flags) ∧
    m.allOfList flags =
      .ok (m.allOfMask (ofList flags)) ∧
    (∃ result,
      m.anyOfList flags = .ok result ∧
      (result = true ↔
        ∃ val ∈ flags, bits val ⊆ m.positions) ∧
      (result = true → m.anyOfMask (ofList flags) = true) ∧
      ((∀ val ∈ flags, (bits val).card = 1) →
        result = m.anyOfMask (ofList flags))) := by
  refine
    ⟨setList_eq m flags, resetList_eq m flags,
      limitList_eq m flags, allOfList_eq m hBits, _,
      anyOfList_eq m hBits, ?_, ?_, ?_⟩
  · rw [decide_eq_true_iff]
  · intro hSome
    rw [decide_eq_true_iff] at hSome
    exact anyOfMask_of_flag hBits hSome
  · intro hSingle
    rw [Bool.eq_iff_iff, decide_eq_true_iff]
    constructor
    · exact anyOfMask_of_flag hBits
    · exact flag_of_anyOfMask hSingle

/-
  A mask is the set of its positions: the operations are
  those of sets, and the tests compare sets.
-/
theorem operations_of_sets
    (m o : BitMask w) (val : BitVec w) :
    (m.setMask o).positions = m.positions ∪ o.positions ∧
    (m.setFlag val true).positions =
      m.positions ∪ bits val ∧
    (m.resetMask o).positions = m.positions \ o.positions ∧
    (m.resetFlag val).positions = m.positions \ bits val ∧
    (m.setFlag val false).positions =
      m.positions \ bits val ∧
    (m.limitMask o).positions = m.positions ∩ o.positions ∧
    (m.limitFlag val).positions = m.positions ∩ bits val ∧
    m.flip.positions = Finset.range w \ m.positions ∧
    (m.flipFlag val).positions =
      symmDiff m.positions (bits val) ∧
    (m.plus o).positions = m.positions ∪ o.positions ∧
    (m.plusFlag val).positions = m.positions ∪ bits val ∧
    (m.minus o).positions = m.positions \ o.positions ∧
    (m.minusFlag val).positions = m.positions \ bits val ∧
    (m.union o).positions = m.positions ∪ o.positions ∧
    m.complement.positions = Finset.range w \ m.positions ∧
    bits (m.common o) = o.positions ∩ m.positions ∧
    m.setAll.positions = Finset.range w ∧
    m.resetAll.positions = ∅ := by
  have hAll : bits (~~~(0 : BitVec w)) = Finset.range w := by
    rw [bits_not, bits_zero, Finset.sdiff_empty]
  have hLimit :
      (m.limitFlag val).mFlags = m.mFlags &&& val := by
    simp [limitFlag, limitList]
  have hWithout :
      ∀ x y : BitVec w,
        bits x ∩ (Finset.range w \ bits y) =
          bits x \ bits y := by
    intro x y
    rw [← bits_not, ← bits_and, bits_and_not]
  simp only [positions, setMask, setFlag, if_true,
    Bool.false_eq_true, if_false, resetMask, raw,
    resetFlag_eq, limitMask, hLimit, flip, flipFlag, plus,
    plusFlag, minus, minusFlag, union, complement, common,
    setAll, resetAll, bits_or, bits_and, bits_not, hWithout,
    bits_xor, bits_zero, Finset.sdiff_empty, and_self]

/-
  The class is the power set of the bit positions, with the
  overloads for lists as stated in `overloads_agree`.
-/
theorem power_set
    (m o : BitMask w) (val : BitVec w)
    (flags : List (BitVec w))
    (hBit : val ≠ 0)
    (hBits : ∀ flag ∈ flags, flag ≠ 0) :
    (m.setList flags = m.setMask (ofList flags) ∧
      m.resetList flags = m.resetMask (ofList flags) ∧
      m.limitList flags = m.limitMask (ofList flags) ∧
      m.allOfList flags =
        .ok (m.allOfMask (ofList flags)) ∧
      (∃ result,
        m.anyOfList flags = .ok result ∧
        (result = true ↔
          ∃ flag ∈ flags, bits flag ⊆ m.positions) ∧
        (result = true →
          m.anyOfMask (ofList flags) = true) ∧
        ((∀ flag ∈ flags, (bits flag).card = 1) →
          result = m.anyOfMask (ofList flags)))) ∧
    ((m.setMask o).positions =
        m.positions ∪ o.positions ∧
      (m.setFlag val true).positions =
        m.positions ∪ bits val ∧
      (m.resetMask o).positions =
        m.positions \ o.positions ∧
      (m.resetFlag val).positions =
        m.positions \ bits val ∧
      (m.setFlag val false).positions =
        m.positions \ bits val ∧
      (m.limitMask o).positions =
        m.positions ∩ o.positions ∧
      (m.limitFlag val).positions =
        m.positions ∩ bits val ∧
      m.flip.positions = Finset.range w \ m.positions ∧
      (m.flipFlag val).positions =
        symmDiff m.positions (bits val) ∧
      (m.plus o).positions = m.positions ∪ o.positions ∧
      (m.plusFlag val).positions =
        m.positions ∪ bits val ∧
      (m.minus o).positions = m.positions \ o.positions ∧
      (m.minusFlag val).positions =
        m.positions \ bits val ∧
      (m.union o).positions = m.positions ∪ o.positions ∧
      m.complement.positions =
        Finset.range w \ m.positions ∧
      bits (m.common o) = o.positions ∩ m.positions ∧
      m.setAll.positions = Finset.range w ∧
      m.resetAll.positions = ∅) ∧
    m.count = .ok m.positions.card ∧
    (m.allOfMask o = true ↔ o.positions ⊆ m.positions) ∧
    (m.anyOfMask o = true ↔
      (m.positions ∩ o.positions).Nonempty) ∧
    m.steal val =
      (if bits val ⊆ m.positions then
        .ok (true, m.resetFlag val)
      else .ok (false, m)) :=
  ⟨overloads_agree m hBits, operations_of_sets m o val,
    count_eq m, allOfMask_iff m o, anyOfMask_iff m o,
    steal_eq m hBit⟩

/- One of two bits of a flag is set and stolen from. -/
theorem power_set_partial :
    (BitMask.mk 1#8).steal 3#8 = .ok (false, ⟨1#8⟩) := by
  have hSteal :=
    (power_set (BitMask.mk 1#8) ⟨0⟩ 3#8 [3#8] (by decide)
      (by decide)).2.2.2.2.2
  have hPart : ¬ bits 3#8 ⊆ (BitMask.mk 1#8).positions := by
    decide
  rwa [if_neg hPart] at hSteal

/-
  Of a flag with two bits one is set. The list overload says
  that no flag is set, the mask overload that a bit is.
-/
theorem anyOf_overloads_differ :
    (BitMask.mk 1#8).anyOfList [3#8] = .ok false ∧
      (BitMask.mk 1#8).anyOfMask (ofList [3#8]) = true := by
  decide

end BitMask

end Cosmos
