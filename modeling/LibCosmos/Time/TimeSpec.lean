import Mathlib.Data.Int.Order.Basic
import Mathlib.Tactic.Ring

/-
  Seconds and nanoseconds in signed 64-bit fields
  (`include/time/types.hxx`, `include/time/StopWatch.hxx`).

  Main declarations:
    * `TimeSpec`, `TimeSpec.add`, `TimeSpec.sub` and the
      comparison operators
    * `StopWatch.elapsedMs`
    * `TimeSpec.ns`, `TimeSpec.Normalized`,
      `TimeSpec.AddFits`, `TimeSpec.SubFits`
    * `TimeSpec.add_spec`, `TimeSpec.sub_spec`
    * `TimeSpec.ordered_group`
-/

namespace Cosmos

/- `struct timespec`. -/
structure TimeSpec where
  tvSec : Int64
  tvNsec : Int64
deriving DecidableEq, Repr

namespace TimeSpec

------------------------------------------------------------
-- Operations
------------------------------------------------------------

/- `NANOSECOND_BASE`. -/
def nanosecondBase : Int64 := 1000000000

/- `TimeSpec::reset`, which is also the default value. -/
def zero : TimeSpec := ⟨0, 0⟩

/- `TimeSpec::toMilliseconds`, with a `size_t` result. -/
def toMilliseconds (this : TimeSpec) : UInt64 :=
  let ret := (this.tvSec * 1000).toUInt64
  ret + (this.tvNsec / 1000 / 1000).toUInt64

/- `operator<`. -/
def lt (this other : TimeSpec) : Bool :=
  if this.tvSec < other.tvSec then true
  else if this.tvSec ≠ other.tvSec then false
  else if this.tvNsec < other.tvNsec then true
  else false

/- `operator>=`. -/
def ge (this other : TimeSpec) : Bool :=
  !this.lt other

/- `operator==`. -/
def eq (this other : TimeSpec) : Bool :=
  this.tvSec == other.tvSec && this.tvNsec == other.tvNsec

/- `operator!=`. -/
def ne (this other : TimeSpec) : Bool :=
  !this.eq other

/- `operator<=`. -/
def le (this other : TimeSpec) : Bool :=
  this.lt other || this.eq other

/- `operator-`, borrowing from the seconds. -/
def sub (this other : TimeSpec) : TimeSpec :=
  let ret : TimeSpec :=
    { tvSec := this.tvSec - other.tvSec
      tvNsec := this.tvNsec - other.tvNsec }
  if ret.tvNsec < 0 then
    { tvSec := ret.tvSec - 1
      tvNsec := ret.tvNsec + nanosecondBase }
  else ret

/- `operator+`, carrying to the seconds. -/
def add (this other : TimeSpec) : TimeSpec :=
  let ret : TimeSpec :=
    { tvSec := this.tvSec + other.tvSec
      tvNsec := this.tvNsec + other.tvNsec }
  if nanosecondBase ≤ ret.tvNsec then
    { tvSec := ret.tvSec + 1
      tvNsec := ret.tvNsec - nanosecondBase }
  else ret

end TimeSpec

/- `StopWatch`; the time of the clock is an argument. -/
structure StopWatch where
  mMark : TimeSpec
deriving DecidableEq, Repr

namespace StopWatch

/- `StopWatch::mark`. -/
def mark (_ : StopWatch) (now : TimeSpec) : StopWatch where
  mMark := now

/- `StopWatch::elapsedMs`. -/
def elapsedMs (this : StopWatch) (now : TimeSpec) : UInt64 :=
  (now.sub this.mMark).toMilliseconds

end StopWatch

------------------------------------------------------------
-- Signed 64-bit Numbers
------------------------------------------------------------

/- A number that a signed 64-bit type can hold. -/
def Fits (n : Int) : Prop :=
  -2 ^ 63 ≤ n ∧ n < 2 ^ 63

theorem bmod_eq_of_fits {n : Int} (hFits : Fits n) :
    n.bmod (2 ^ 64) = n := by
  rcases hFits with ⟨hLow, hHigh⟩
  exact Int.bmod_eq_of_le (by omega) (by omega)

theorem toInt_add_of_fits
    {x y : Int64} (hFits : Fits (x.toInt + y.toInt)) :
    (x + y).toInt = x.toInt + y.toInt := by
  rw [Int64.toInt_add, bmod_eq_of_fits hFits]

theorem toInt_sub_of_fits
    {x y : Int64} (hFits : Fits (x.toInt - y.toInt)) :
    (x - y).toInt = x.toInt - y.toInt := by
  rw [Int64.toInt_sub, bmod_eq_of_fits hFits]

theorem toInt_mul_of_fits
    {x y : Int64} (hFits : Fits (x.toInt * y.toInt)) :
    (x * y).toInt = x.toInt * y.toInt := by
  rw [Int64.toInt_mul, bmod_eq_of_fits hFits]

namespace TimeSpec

------------------------------------------------------------
-- Nanoseconds
------------------------------------------------------------

/- The time as one number. -/
def ns (x : TimeSpec) : Int :=
  x.tvSec.toInt * 1000000000 + x.tvNsec.toInt

/- The nanoseconds make less than a second. -/
def Normalized (x : TimeSpec) : Prop :=
  0 ≤ x.tvNsec.toInt ∧ x.tvNsec.toInt < 1000000000

/- No step of `a + b` overflows. -/
def AddFits (a b : TimeSpec) : Prop :=
  Fits (a.tvSec.toInt + b.tvSec.toInt) ∧
    (1000000000 ≤ a.tvNsec.toInt + b.tvNsec.toInt →
      Fits (a.tvSec.toInt + b.tvSec.toInt + 1))

/- No step of `a - b` overflows. -/
def SubFits (a b : TimeSpec) : Prop :=
  Fits (a.tvSec.toInt - b.tvSec.toInt) ∧
    (a.tvNsec.toInt - b.tvNsec.toInt < 0 →
      Fits (a.tvSec.toInt - b.tvSec.toInt - 1))

/- The milliseconds do not overflow. -/
def MillisFit (x : TimeSpec) : Prop :=
  Fits (x.tvSec.toInt * 1000)

theorem toInt_nanosecondBase :
    nanosecondBase.toInt = 1000000000 := by
  decide

/- Normalized values are equal if their times are. -/
theorem eq_of_ns_eq
    {x y : TimeSpec}
    (hX : Normalized x) (hY : Normalized y)
    (hNs : ns x = ns y) :
    x = y := by
  rcases x with ⟨sec, nsec⟩
  rcases y with ⟨sec', nsec'⟩
  simp only [Normalized, ns] at hX hY hNs
  have hSec : sec = sec' := by
    rw [← Int64.toInt_inj]
    omega
  have hNsec : nsec = nsec' := by
    rw [← Int64.toInt_inj]
    omega
  rw [hSec, hNsec]

------------------------------------------------------------
-- Sums and Differences
------------------------------------------------------------

/- Nanoseconds after a second was borrowed. -/
theorem borrowed_bounds
    {m n : Int}
    (hM : 0 ≤ m ∧ m < 1000000000)
    (hN : 0 ≤ n ∧ n < 1000000000)
    (hLess : m - n < 0) :
    0 ≤ m - n + 1000000000 ∧
      m - n + 1000000000 < 1000000000 := by
  omega

theorem add_spec
    {a b : TimeSpec}
    (hA : Normalized a) (hB : Normalized b)
    (hFits : AddFits a b) :
    Normalized (a.add b) ∧ ns (a.add b) = ns a + ns b := by
  rcases hFits with ⟨hSum, hCarry⟩
  have hBase := toInt_nanosecondBase
  simp only [Normalized] at hA hB
  have hSec := toInt_add_of_fits hSum
  have hNsec :
      (a.tvNsec + b.tvNsec).toInt =
        a.tvNsec.toInt + b.tvNsec.toInt :=
    toInt_add_of_fits ⟨by omega, by omega⟩
  simp only [add]
  split
  · next hMore =>
      rw [Int64.le_iff_toInt_le, hBase, hNsec] at hMore
      have hOne : (1 : Int64).toInt = 1 := by decide
      have hSec' :
          (a.tvSec + b.tvSec + 1).toInt =
            a.tvSec.toInt + b.tvSec.toInt + 1 := by
        rw [toInt_add_of_fits, hSec, hOne]
        rw [hSec, hOne]
        exact hCarry hMore
      have hNsec' :
          (a.tvNsec + b.tvNsec - nanosecondBase).toInt =
            a.tvNsec.toInt + b.tvNsec.toInt -
              1000000000 := by
        rw [toInt_sub_of_fits, hNsec, hBase]
        rw [hNsec, hBase]
        exact ⟨by omega, by omega⟩
      simp only [Normalized, ns, hSec', hNsec']
      omega
  · next hLess =>
      rw [Int64.le_iff_toInt_le, hBase, hNsec] at hLess
      simp only [Normalized, ns, hSec, hNsec]
      omega

theorem sub_spec
    {a b : TimeSpec}
    (hA : Normalized a) (hB : Normalized b)
    (hFits : SubFits a b) :
    Normalized (a.sub b) ∧ ns (a.sub b) = ns a - ns b := by
  rcases hFits with ⟨hDiff, hBorrow⟩
  have hBase := toInt_nanosecondBase
  simp only [Normalized] at hA hB
  have hSec := toInt_sub_of_fits hDiff
  have hNsec :
      (a.tvNsec - b.tvNsec).toInt =
        a.tvNsec.toInt - b.tvNsec.toInt :=
    toInt_sub_of_fits ⟨by omega, by omega⟩
  have hZero : (0 : Int64).toInt = 0 := by decide
  simp only [sub]
  split
  · next hLess =>
      rw [Int64.lt_iff_toInt_lt, hZero, hNsec] at hLess
      have hOne : (1 : Int64).toInt = 1 := by decide
      have hSec' :
          (a.tvSec - b.tvSec - 1).toInt =
            a.tvSec.toInt - b.tvSec.toInt - 1 := by
        rw [toInt_sub_of_fits, hSec, hOne]
        rw [hSec, hOne]
        exact hBorrow hLess
      have hNsec' :
          (a.tvNsec - b.tvNsec + nanosecondBase).toInt =
            a.tvNsec.toInt - b.tvNsec.toInt +
              1000000000 := by
        rw [toInt_add_of_fits, hNsec, hBase]
        rw [hNsec, hBase]
        exact ⟨by omega, by omega⟩
      simp only [Normalized, ns, hSec', hNsec']
      constructor
      · exact borrowed_bounds hA hB hLess
      · ring
  · next hMore =>
      rw [Int64.lt_iff_toInt_lt, hZero, hNsec] at hMore
      simp only [Normalized, ns, hSec, hNsec]
      constructor
      · omega
      · ring

/- A difference is undone by the sum. -/
theorem add_sub_cancel
    {a b : TimeSpec}
    (hA : Normalized a) (hB : Normalized b)
    (hFits : SubFits a b) (hBack : AddFits (a.sub b) b) :
    (a.sub b).add b = a := by
  rcases sub_spec hA hB hFits with ⟨hNorm, hNs⟩
  rcases add_spec hNorm hB hBack with ⟨hNorm', hNs'⟩
  apply eq_of_ns_eq hNorm' hA
  omega

theorem add_comm (a b : TimeSpec) : a.add b = b.add a := by
  simp only [add, Int64.add_comm a.tvSec b.tvSec,
    Int64.add_comm a.tvNsec b.tvNsec]

theorem add_assoc
    {a b c : TimeSpec}
    (hA : Normalized a) (hB : Normalized b)
    (hC : Normalized c)
    (hAB : AddFits a b) (hABC : AddFits (a.add b) c)
    (hBC : AddFits b c) (hABC' : AddFits a (b.add c)) :
    (a.add b).add c = a.add (b.add c) := by
  rcases add_spec hA hB hAB with ⟨hNormAB, hNsAB⟩
  rcases add_spec hB hC hBC with ⟨hNormBC, hNsBC⟩
  rcases add_spec hNormAB hC hABC with ⟨hNorm, hNs⟩
  rcases add_spec hA hNormBC hABC' with ⟨hNorm', hNs'⟩
  apply eq_of_ns_eq hNorm hNorm'
  omega

------------------------------------------------------------
-- Comparisons
------------------------------------------------------------

theorem lt_iff
    {a b : TimeSpec}
    (hA : Normalized a) (hB : Normalized b) :
    a.lt b = true ↔ ns a < ns b := by
  have hSec :
      a.tvSec = b.tvSec ↔ a.tvSec.toInt = b.tvSec.toInt :=
    Int64.toInt_inj.symm
  simp only [Normalized] at hA hB
  simp only [lt, ns, Int64.lt_iff_toInt_lt, ne_eq, hSec]
  split
  · simp only [true_iff]
    omega
  · split
    · simp only [Bool.false_eq_true, false_iff]
      omega
    · split
      · simp only [true_iff]
        omega
      · simp only [Bool.false_eq_true, false_iff]
        omega

theorem eq_iff
    {a b : TimeSpec}
    (hA : Normalized a) (hB : Normalized b) :
    a.eq b = true ↔ ns a = ns b := by
  have hSame : a.eq b = true ↔ a = b := by
    rcases a with ⟨sec, nsec⟩
    rcases b with ⟨sec', nsec'⟩
    simp [eq]
  rw [hSame]
  constructor
  · intro hEq
    rw [hEq]
  · exact eq_of_ns_eq hA hB

theorem ge_iff
    {a b : TimeSpec}
    (hA : Normalized a) (hB : Normalized b) :
    a.ge b = true ↔ ns b ≤ ns a := by
  have hLt := lt_iff hA hB
  simp only [ge, Bool.not_eq_true', ← Bool.not_eq_true, hLt]
  omega

theorem ne_iff
    {a b : TimeSpec}
    (hA : Normalized a) (hB : Normalized b) :
    a.ne b = true ↔ ns a ≠ ns b := by
  have hEq := eq_iff hA hB
  simp only [ne, Bool.not_eq_true', ← Bool.not_eq_true, hEq,
    ne_eq]

theorem le_iff
    {a b : TimeSpec}
    (hA : Normalized a) (hB : Normalized b) :
    a.le b = true ↔ ns a ≤ ns b := by
  have hLt := lt_iff hA hB
  have hEq := eq_iff hA hB
  simp only [le, Bool.or_eq_true, hLt, hEq]
  omega

theorem normalized_zero : Normalized zero := by
  simp [Normalized, zero]

/- `a <= b` means that `b - a` is not negative. -/
theorem le_iff_sub_not_negative
    {a b : TimeSpec}
    (hA : Normalized a) (hB : Normalized b)
    (hFits : SubFits b a) :
    a.le b = true ↔ ¬ (b.sub a).lt zero = true := by
  rcases sub_spec hB hA hFits with ⟨hNorm, hNs⟩
  have hZero : ns zero = 0 := by
    simp [ns, zero]
  rw [le_iff hA hB, lt_iff hNorm normalized_zero, hNs,
    hZero]
  omega

------------------------------------------------------------
-- Milliseconds
------------------------------------------------------------

theorem toNat_toUInt64_of_nonneg
    {x : Int64} (hNonneg : 0 ≤ x.toInt) :
    (x.toUInt64.toNat : Int) = x.toInt := by
  have hLe : (0 : Int64) ≤ x := by
    rw [Int64.le_iff_toInt_le]
    simpa using hNonneg
  rw [Int64.toNat_toUInt64_of_le hLe, ← Int64.toNat_toInt,
    Int.toNat_of_nonneg hNonneg]

/- The milliseconds of a time that is not negative. -/
theorem toNat_toMilliseconds
    {x : TimeSpec}
    (hNorm : Normalized x)
    (hNonneg : 0 ≤ ns x)
    (hFits : MillisFit x) :
    (x.toMilliseconds.toNat : Int) = ns x / 1000000 := by
  have hThousand : (1000 : Int64).toInt = 1000 := by decide
  have hOther : (1000 : Int64) ≠ -1 := by decide
  simp only [Normalized, ns] at hNorm hNonneg
  have hSec :
      (x.tvSec * 1000).toInt = x.tvSec.toInt * 1000 := by
    rw [toInt_mul_of_fits, hThousand]
    rw [hThousand]
    exact hFits
  have hNsec :
      (x.tvNsec / 1000 / 1000).toInt =
        x.tvNsec.toInt / 1000 / 1000 := by
    rw [Int64.toInt_div_of_ne_right _ _ hOther,
      Int64.toInt_div_of_ne_right _ _ hOther, hThousand,
      Int.tdiv_eq_ediv_of_nonneg hNorm.1,
      Int.tdiv_eq_ediv_of_nonneg (by omega)]
  have hWhole :
      ((x.tvSec * 1000).toUInt64.toNat : Int) =
        x.tvSec.toInt * 1000 := by
    rw [toNat_toUInt64_of_nonneg, hSec]
    rw [hSec]
    omega
  have hPart :
      ((x.tvNsec / 1000 / 1000).toUInt64.toNat : Int) =
        x.tvNsec.toInt / 1000 / 1000 := by
    rw [toNat_toUInt64_of_nonneg, hNsec]
    rw [hNsec]
    omega
  have hSum :
      (x.tvSec * 1000).toUInt64.toNat +
          (x.tvNsec / 1000 / 1000).toUInt64.toNat <
        2 ^ 64 := by
    have hLimit := hFits.2
    omega
  simp only [toMilliseconds, ns]
  rw [UInt64.toNat_add, Nat.mod_eq_of_lt hSum,
    Int.natCast_add, hWhole, hPart]
  omega

------------------------------------------------------------
-- The Ordered Group
------------------------------------------------------------

/-
  On normalized values and as long as nothing overflows,
  sums, differences and comparisons are those of the times
  in nanoseconds, and a stop watch reports the elapsed time
  in whole milliseconds.
-/
theorem ordered_group
    (a b c : TimeSpec)
    (hA : Normalized a) (hB : Normalized b)
    (hC : Normalized c) :
    (AddFits a b →
      Normalized (a.add b) ∧
        ns (a.add b) = ns a + ns b) ∧
    (SubFits a b →
      Normalized (a.sub b) ∧
        ns (a.sub b) = ns a - ns b) ∧
    (SubFits a b → AddFits (a.sub b) b →
      (a.sub b).add b = a) ∧
    a.add b = b.add a ∧
    (AddFits a b → AddFits (a.add b) c →
      AddFits b c → AddFits a (b.add c) →
      (a.add b).add c = a.add (b.add c)) ∧
    (a.lt b = true ↔ ns a < ns b) ∧
    (a.le b = true ↔ ns a ≤ ns b) ∧
    (a.ge b = true ↔ ns a ≥ ns b) ∧
    (a.eq b = true ↔ ns a = ns b) ∧
    (a.ne b = true ↔ ns a ≠ ns b) ∧
    (SubFits b a →
      (a.le b = true ↔ ¬ (b.sub a).lt zero = true)) ∧
    (a.ge b = true → SubFits a b → MillisFit (a.sub b) →
      (((StopWatch.mk b).elapsedMs a).toNat : Int) =
        (ns a - ns b) / 1000000) := by
  refine
    ⟨add_spec hA hB, sub_spec hA hB, add_sub_cancel hA hB,
      add_comm a b, add_assoc hA hB hC, lt_iff hA hB,
      le_iff hA hB, ge_iff hA hB, eq_iff hA hB,
      ne_iff hA hB, le_iff_sub_not_negative hA hB, ?_⟩
  intro hGe hFits hMillis
  rcases sub_spec hA hB hFits with ⟨hNorm, hNs⟩
  rw [ge_iff hA hB] at hGe
  have hNonneg : 0 ≤ ns (a.sub b) := by omega
  rw [← hNs]
  exact toNat_toMilliseconds hNorm hNonneg hMillis

/- One second less a nanosecond, with a borrow. -/
theorem ordered_group_borrow :
    ns ((TimeSpec.mk 2 0).sub ⟨1, 1⟩) =
      ns ⟨2, 0⟩ - ns ⟨1, 1⟩ := by
  have hFirst : Normalized ⟨2, 0⟩ := by
    simp [Normalized]
  have hSecond : Normalized ⟨1, 1⟩ := by
    simp [Normalized]
  have hFits : SubFits ⟨2, 0⟩ ⟨1, 1⟩ := by
    simp [SubFits, Fits]
  exact
    ((ordered_group ⟨2, 0⟩ ⟨1, 1⟩ zero hFirst hSecond
      normalized_zero).2.1 hFits).2

end TimeSpec

end Cosmos
