import LibCosmos.Core.BitMask
import LibCosmos.Core.Types
import Mathlib.Data.BitVec
import Mathlib.Data.Nat.Bitwise

/-
  The page size in the flags of a memory mapping
  (`MapFlags` in `include/proc/mman.hxx` and
  `src/proc/mman.cxx`).

  The kernel reads the binary logarithm of the page size
  from the six bits at `MAP_HUGE_SHIFT`.

  Main declarations:
    * `MapFlags.setTLBPageSize`
    * `MapFlags.Encodes`, `MapFlags.Promised`
    * `MapFlags.setTLBPageSize_pow`
    * `MapFlags.setTLBPageSize_promised_iff`
-/

namespace Cosmos

/- The base type of `MapFlag` is `int`. -/
abbrev MapFlags := BitMask 32

namespace MapFlags

------------------------------------------------------------
-- The Code
------------------------------------------------------------

/- Constants of `sys/mman.h`. -/
def mapFixed : BitVec 32 := 0x10
def mapAnonymous : BitVec 32 := 0x20
def mapHugetlb : BitVec 32 := 0x40000
def mapHugeShift : Nat := 26

def maxTlbLog2 : BitVec 32 := 0x3F

theorem shifted_ne_zero
    {page_size : BitVec 64}
    (hNe : page_size ≠ 0)
    (hEven : page_size &&& 1 ≠ 1) :
    page_size >>> 1 ≠ 0 ∧
      (page_size >>> 1).toNat < page_size.toNat := by
  have hPos : page_size.toNat ≠ 0 := by
    intro hZero
    exact hNe (BitVec.eq_of_toNat_eq hZero)
  have hMod : page_size.toNat % 2 ≠ 1 := by
    intro hOdd
    apply hEven
    apply BitVec.eq_of_toNat_eq
    rw [BitVec.toNat_and]
    exact (Nat.and_one_is_mod _).trans hOdd
  have hHalf :
      (page_size >>> 1).toNat = page_size.toNat / 2 := by
    simp [BitVec.toNat_ushiftRight, Nat.shiftRight_succ]
  constructor
  · intro hZero
    rw [hZero] at hHalf
    have hNone : page_size.toNat / 2 = 0 := hHalf.symm
    omega
  · omega

/- `while ((page_size & 0x1) != 1)`. -/
def log2Loop
    (page_size : BitVec 64)
    (hNe : page_size ≠ 0)
    (log2 : BitVec 32) : BitVec 32 :=
  if hEven : page_size &&& 1 ≠ 1 then
    log2Loop (page_size >>> 1)
      (shifted_ne_zero hNe hEven).1 (log2 + 1)
  else log2
termination_by page_size.toNat
decreasing_by exact (shifted_ne_zero hNe hEven).2

def setTLBPageSize (page_size : BitVec 64) :
    Method MapFlags Unit :=
  if hNot :
      page_size = 0 ∨
        page_size &&& (page_size - 1) ≠ 0 then
    Command.raise
      (.usageError
        (str "non-log2 TLB page size encountered"))
  else
    let log2 :=
      log2Loop page_size (fun hZero => hNot (Or.inl hZero))
        1
    if maxTlbLog2.slt log2 then
      Command.raise
        (.usageError
          (str "requested TLB page size is too large"))
    else
      Command.modify fun this =>
        -- this mask is not shifted to the field
        (this.resetMask ⟨maxTlbLog2⟩).setMask
          ⟨log2 <<< mapHugeShift⟩

------------------------------------------------------------
-- The Promise
------------------------------------------------------------

/- The field holds `k`, and the rest is as before. -/
structure Encodes
    (before after : MapFlags) (k : Nat) : Prop where
  field :
    ∀ i < 6,
      after.raw.getLsbD (mapHugeShift + i) = k.testBit i
  rest :
    ∀ i < mapHugeShift,
      after.raw.getLsbD i = before.raw.getLsbD i

/-
  The call encodes every power of two, and refuses all other
  sizes without an effect.
-/
structure Promised
    (page_size : BitVec 64) (flags : MapFlags) : Prop where
  encoded :
    ∀ k < 64, page_size.toNat = 2 ^ k →
      ∃ after,
        (setTLBPageSize page_size).run flags =
          (.returned (), after) ∧
        Encodes flags after k
  refused :
    ¬ page_size.toNat.isPowerOfTwo →
      ∃ msg,
        (setTLBPageSize page_size).run flags =
          (.raised (.usageError msg), flags)

------------------------------------------------------------
-- What the Code Does
------------------------------------------------------------

/- The guard is about powers of two. -/
theorem guard_iff (page_size : BitVec 64) :
    (page_size = 0 ∨ page_size &&& (page_size - 1) ≠ 0) ↔
      ¬ page_size.toNat.isPowerOfTwo := by
  rw [← Nat.ne_zero_and_sub_one_eq_zero_iff_isPowerOfTwo]
  by_cases hZero : page_size = 0
  · simp [hZero]
  · have hPos : page_size.toNat ≠ 0 := by
      intro hNone
      exact hZero (BitVec.eq_of_toNat_eq hNone)
    have hLess :
        (page_size - 1).toNat = page_size.toNat - 1 := by
      apply BitVec.toNat_sub_of_le
      exact Nat.one_le_iff_ne_zero.mpr hPos
    have hAnd :
        page_size &&& (page_size - 1) = 0 ↔
          page_size.toNat &&& (page_size.toNat - 1) = 0 := by
      rw [← hLess, ← BitVec.toNat_and]
      constructor
      · intro hEq
        rw [hEq]
        rfl
      · exact fun hEq => BitVec.eq_of_toNat_eq hEq
    rw [Ne, hAnd]
    tauto

/- The loop counts the factors of two. -/
theorem log2Loop_pow
    {k : Nat} :
    ∀ {page_size : BitVec 64} (hNe : page_size ≠ 0)
      (log2 : BitVec 32),
      page_size.toNat = 2 ^ k →
      log2Loop page_size hNe log2 =
        log2 + BitVec.ofNat 32 k := by
  induction k with
  | zero =>
      intro page_size hNe log2 hPow
      have hOne : page_size = 1 :=
        BitVec.eq_of_toNat_eq hPow
      unfold log2Loop
      rw [dif_neg (by simp [hOne])]
      simp
  | succ k ih =>
      intro page_size hNe log2 hPow
      have hEven : page_size &&& 1 ≠ 1 := by
        intro hOdd
        have hNat := congrArg BitVec.toNat hOdd
        rw [BitVec.toNat_and] at hNat
        have hMod : page_size.toNat % 2 = 1 :=
          (Nat.and_one_is_mod _).symm.trans hNat
        rw [hPow, Nat.pow_succ] at hMod
        omega
      have hHalf : (page_size >>> 1).toNat = 2 ^ k := by
        rw [BitVec.toNat_ushiftRight, hPow, Nat.pow_succ,
          Nat.shiftRight_succ, Nat.shiftRight_zero]
        omega
      unfold log2Loop
      rw [dif_pos hEven, ih _ _ hHalf, BitVec.add_assoc]
      apply congrArg (log2 + ·)
      apply BitVec.eq_of_toNat_eq
      simp [Nat.add_comm]

theorem exponent_lt
    {page_size : BitVec 64} {k : Nat}
    (hPow : page_size.toNat = 2 ^ k) : k < 64 := by
  have hLt := page_size.isLt
  rw [hPow] at hLt
  exact (Nat.pow_lt_pow_iff_right (by simp)).mp hLt

/- The logarithm of `2 ^ k` is taken to be `k + 1`. -/
theorem setTLBPageSize_eq
    {page_size : BitVec 64} {k : Nat}
    (hPow : page_size.toNat = 2 ^ k) :
    setTLBPageSize page_size =
      if maxTlbLog2.slt (BitVec.ofNat 32 (k + 1)) then
        Command.raise
          (.usageError
            (str "requested TLB page size is too large"))
      else
        Command.modify fun this =>
          (this.resetMask ⟨maxTlbLog2⟩).setMask
            ⟨BitVec.ofNat 32 (k + 1) <<< mapHugeShift⟩ := by
  have hNot :
      ¬ (page_size = 0 ∨
        page_size &&& (page_size - 1) ≠ 0) := by
    rw [guard_iff, not_not]
    exact ⟨k, hPow⟩
  have hCount :
      (1 : BitVec 32) + BitVec.ofNat 32 k =
        BitVec.ofNat 32 (k + 1) := by
    apply BitVec.eq_of_toNat_eq
    simp [Nat.add_comm]
  unfold setTLBPageSize
  rw [dif_neg hNot]
  simp only [log2Loop_pow _ _ hPow, hCount]

/- A number of six bits has no others. -/
theorem testBit_outside
    {n i : Nat} (hSmall : n < 64) (hOut : 6 ≤ i) :
    n.testBit i = false := by
  apply Nat.testBit_lt_two_pow
  have hPow : 2 ^ 6 ≤ 2 ^ i :=
    Nat.pow_le_pow_right (by omega) hOut
  omega

/- The field gets one more than the logarithm. -/
theorem field_of_pow
    (flags : MapFlags) {k i : Nat} (hField : i < 6) :
    ((flags.resetMask ⟨maxTlbLog2⟩).setMask
        ⟨BitVec.ofNat 32 (k + 1) <<<
          mapHugeShift⟩).raw.getLsbD (mapHugeShift + i) =
      (flags.raw.getLsbD (mapHugeShift + i) ||
        (k + 1).testBit i) := by
  have hHigh :
      maxTlbLog2.getLsbD (mapHugeShift + i) = false := by
    apply testBit_outside
    · simp [maxTlbLog2]
    · unfold mapHugeShift
      omega
  unfold BitMask.setMask BitMask.resetMask BitMask.raw
  rw [BitVec.getLsbD_or, BitVec.getLsbD_and,
    BitVec.getLsbD_not, hHigh, BitVec.getLsbD_shiftLeft,
    BitVec.getLsbD_ofNat]
  have hInside : mapHugeShift + i < 32 := by
    unfold mapHugeShift
    omega
  have hShift : mapHugeShift + i - mapHugeShift = i := by
    omega
  have hSmall : i < 32 := by omega
  have hAbove : ¬ mapHugeShift + i < mapHugeShift := by
    omega
  simp [hInside, hShift, hSmall, hAbove]

/-
  The old field stays in the new one, and so no power of two
  is encoded: `k + 1` is never a part of `k`.
-/
theorem not_encodes
    (flags : MapFlags) {k : Nat} (hSmall : k + 1 < 64) :
    ¬ Encodes flags
      ((flags.resetMask ⟨maxTlbLog2⟩).setMask
        ⟨BitVec.ofNat 32 (k + 1) <<< mapHugeShift⟩) k := by
  intro hEncodes
  have hPart : k + 1 ||| k = k := by
    apply Nat.eq_of_testBit_eq
    intro i
    rw [Nat.testBit_or]
    by_cases hField : i < 6
    · have hBit := hEncodes.field i hField
      rw [field_of_pow flags hField] at hBit
      cases hNext : (k + 1).testBit i with
      | false => simp
      | true =>
          rw [hNext, Bool.or_true] at hBit
          rw [← hBit]
          rfl
    · rw [testBit_outside hSmall (by omega),
        Bool.false_or]
  have hLe : k + 1 ≤ k + 1 ||| k := Nat.left_le_or
  omega

/- The promise is kept just where the call refuses. -/
theorem setTLBPageSize_promised_iff
    (page_size : BitVec 64) (flags : MapFlags) :
    Promised page_size flags ↔
      ¬ page_size.toNat.isPowerOfTwo := by
  constructor
  · intro hPromised ⟨k, hPow⟩
    rcases
      hPromised.encoded k (exponent_lt hPow) hPow with
      ⟨after, hRun, hEncodes⟩
    rw [setTLBPageSize_eq hPow] at hRun
    split at hRun
    · cases hRun
    · next hFits =>
        simp only [Command.run_modify, Prod.mk.injEq,
          true_and] at hRun
        rw [← hRun] at hEncodes
        apply not_encodes flags _ hEncodes
        have hLt := exponent_lt hPow
        by_cases hLast : k = 63
        · rw [hLast] at hFits
          exact absurd (by decide) hFits
        · omega
  · intro hNot
    constructor
    · intro k _ hPow
      exact absurd ⟨k, hPow⟩ hNot
    · intro _
      refine
        ⟨str "non-log2 TLB page size encountered", ?_⟩
      unfold setTLBPageSize
      rw [dif_pos ((guard_iff page_size).mpr hNot)]
      rfl

/-
  2 MiB are told as 4 MiB, and a fixed anonymous mapping is
  no longer one.
-/
theorem two_mib_told_as_four :
    ¬ (∀ page_size flags, Promised page_size flags) ∧
      (setTLBPageSize (2 ^ 21)).run
          ⟨mapFixed ||| mapAnonymous ||| mapHugetlb⟩ =
        (.returned (),
          ⟨mapHugetlb ||| (22 <<< mapHugeShift)⟩) := by
  have hPow : (2 ^ 21 : BitVec 64).toNat = 2 ^ 21 := by
    decide
  have hRun :
      (setTLBPageSize (2 ^ 21)).run
          ⟨mapFixed ||| mapAnonymous ||| mapHugetlb⟩ =
        (.returned (),
          ⟨mapHugetlb ||| (22 <<< mapHugeShift)⟩) := by
    rw [setTLBPageSize_eq hPow]
    decide
  refine ⟨?_, hRun⟩
  intro hAll
  rcases (hAll (2 ^ 21) _).encoded 21 (by decide) hPow with
    ⟨after, hOther, hEncodes⟩
  rw [hRun] at hOther
  cases hOther
  exact
    absurd (hEncodes.rest 4 (by decide)) (by decide)

end MapFlags

end Cosmos
