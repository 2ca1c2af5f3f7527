import LibCosmos.Time.TimeSpec

/-
  Times made from durations of the standard library
  (`include/time/types.hxx`).

  Division truncates. A negative duration that is no whole
  number of seconds has negative nanoseconds, which the
  operators do not expect.

  Main declarations:
    * `TimeSpec.setMilliseconds`, `TimeSpec.setNanoseconds`
    * `TimeSpec.normalized_ofDuration_iff`
    * `TimeSpec.Faithful`
    * `TimeSpec.faithful_iff`
-/

namespace Cosmos

namespace TimeSpec

/- `TimeSpec::set(std::chrono::milliseconds)`. -/
def setMilliseconds (ms : Int64) : TimeSpec where
  tvSec := ms / 1000
  tvNsec := ms % 1000 * 1000 * 1000

/- `TimeSpec::set(std::chrono::nanoseconds)`. -/
def setNanoseconds (ns : Int64) : TimeSpec where
  tvSec := ns / nanosecondBase
  tvNsec := ns % nanosecondBase

/- The duration types with a constructor. -/
inductive Period where
| milli
| nano
deriving DecidableEq, Repr

namespace Period

/- How many of them are a second. -/
def perSecond : Period → Int
| milli => 1000
| nano => 1000000000

def nanoseconds : Period → Int
| milli => 1000000
| nano => 1

end Period

/- The constructor for a duration of that many units. -/
def ofDuration (period : Period) (count : Int64) : TimeSpec :=
  match period with
  | .milli => setMilliseconds count
  | .nano => setNanoseconds count

------------------------------------------------------------
-- Single Durations
------------------------------------------------------------

theorem fields_ofDuration
    (period : Period) (count : Int64) :
    (ofDuration period count).tvSec.toInt =
        count.toInt.tdiv period.perSecond ∧
      (ofDuration period count).tvNsec.toInt =
        count.toInt.tmod period.perSecond *
          period.nanoseconds := by
  cases period with
  | milli =>
      have hThousand : (1000 : Int64).toInt = 1000 := by
        decide
      have hOther : (1000 : Int64) ≠ -1 := by decide
      have hHigh := Int.tmod_lt_of_pos count.toInt
        (show (0 : Int) < 1000 by decide)
      have hLow := Int.lt_tmod_of_pos count.toInt
        (show (0 : Int) < 1000 by decide)
      have hMicro :
          (count % 1000 * 1000).toInt =
            count.toInt.tmod 1000 * 1000 := by
        rw [toInt_mul_of_fits, Int64.toInt_mod, hThousand]
        rw [Int64.toInt_mod, hThousand]
        exact ⟨by omega, by omega⟩
      simp only [ofDuration, setMilliseconds,
        Period.perSecond, Period.nanoseconds]
      constructor
      · rw [Int64.toInt_div_of_ne_right _ _ hOther,
          hThousand]
      · rw [toInt_mul_of_fits, hMicro, hThousand]
        · omega
        · rw [hMicro, hThousand]
          exact ⟨by omega, by omega⟩
  | nano =>
      have hOther : nanosecondBase ≠ -1 := by decide
      simp only [ofDuration, setNanoseconds,
        Period.perSecond, Period.nanoseconds, Int.mul_one]
      constructor
      · rw [Int64.toInt_div_of_ne_right _ _ hOther,
          toInt_nanosecondBase]
      · rw [Int64.toInt_mod, toInt_nanosecondBase]

/- No time is lost, whatever the sign is. -/
theorem ns_ofDuration
    (period : Period) (count : Int64) :
    ns (ofDuration period count) =
      count.toInt * period.nanoseconds := by
  rcases fields_ofDuration period count with ⟨hSec, hNsec⟩
  have hSplit :=
    Int.mul_tdiv_add_tmod count.toInt period.perSecond
  unfold ns
  rw [hSec, hNsec]
  cases period with
  | milli =>
      simp only [Period.perSecond, Period.nanoseconds]
        at hSplit ⊢
      omega
  | nano =>
      simp only [Period.perSecond, Period.nanoseconds]
        at hSplit ⊢
      omega

/- Not negative, or a whole number of seconds. -/
def Regular (period : Period) (count : Int) : Prop :=
  0 ≤ count ∨ period.perSecond ∣ count

/- The remainder has the sign of the dividend. -/
theorem tmod_nonneg_iff
    (m n : Int) :
    0 ≤ m.tmod n ↔ 0 ≤ m ∨ n ∣ m := by
  rw [Int.dvd_iff_tmod_eq_zero]
  constructor
  · intro hNonneg
    by_cases hSign : 0 ≤ m
    · exact Or.inl hSign
    · have hMirror : 0 ≤ (-m).tmod n :=
        Int.tmod_nonneg n (by omega)
      rw [Int.neg_tmod] at hMirror
      exact Or.inr (by omega)
  · rintro (hSign | hWhole)
    · exact Int.tmod_nonneg n hSign
    · exact le_of_eq hWhole.symm

theorem normalized_ofDuration_iff
    (period : Period) (count : Int64) :
    Normalized (ofDuration period count) ↔
      Regular period count.toInt := by
  rcases fields_ofDuration period count with ⟨-, hNsec⟩
  unfold Normalized Regular
  rw [hNsec, ← tmod_nonneg_iff]
  cases period with
  | milli =>
      have hHigh := Int.tmod_lt_of_pos count.toInt
        (show (0 : Int) < 1000 by decide)
      simp only [Period.perSecond, Period.nanoseconds]
      omega
  | nano =>
      have hHigh := Int.tmod_lt_of_pos count.toInt
        (show (0 : Int) < 1000000000 by decide)
      simp only [Period.perSecond, Period.nanoseconds]
      omega

------------------------------------------------------------
-- Pairs of Durations
------------------------------------------------------------

/-
  The times of two durations are normalized and exact, and
  are added, subtracted and compared like the durations, as
  far as there is a duration for the result.
-/
structure Faithful
    (period : Period) (a b : Int64) : Prop where
  normalized :
    Normalized (ofDuration period a) ∧
      Normalized (ofDuration period b)
  exact :
    ns (ofDuration period a) =
        a.toInt * period.nanoseconds ∧
      ns (ofDuration period b) =
        b.toInt * period.nanoseconds
  add :
    Fits (a.toInt + b.toInt) →
      ((ofDuration period a).add (ofDuration period b)).eq
        (ofDuration period (a + b)) = true
  sub :
    Fits (a.toInt - b.toInt) →
      ((ofDuration period a).sub (ofDuration period b)).eq
        (ofDuration period (a - b)) = true
  lt :
    (ofDuration period a).lt (ofDuration period b) = true ↔
      a.toInt < b.toInt

/- The seconds are too few to overflow. -/
theorem sec_ofDuration_bounds
    (period : Period) (count : Int64) :
    -2 ^ 62 < (ofDuration period count).tvSec.toInt ∧
      (ofDuration period count).tvSec.toInt < 2 ^ 62 := by
  have hNs := ns_ofDuration period count
  rcases fields_ofDuration period count with ⟨-, hNsec⟩
  have hLow := count.le_toInt
  have hHigh := count.toInt_lt
  unfold ns at hNs
  cases period with
  | milli =>
      have hRem := Int.tmod_lt_of_pos count.toInt
        (show (0 : Int) < 1000 by decide)
      have hRem' := Int.lt_tmod_of_pos count.toInt
        (show (0 : Int) < 1000 by decide)
      simp only [Period.perSecond, Period.nanoseconds]
        at hNs hNsec
      constructor <;> omega
  | nano =>
      have hRem := Int.tmod_lt_of_pos count.toInt
        (show (0 : Int) < 1000000000 by decide)
      have hRem' := Int.lt_tmod_of_pos count.toInt
        (show (0 : Int) < 1000000000 by decide)
      simp only [Period.perSecond, Period.nanoseconds]
        at hNs hNsec
      constructor <;> omega

/-
  A normalized result is the time of a duration if this is
  regular and has as many nanoseconds.
-/
theorem eq_ofDuration_iff
    {period : Period} {x : TimeSpec} {count : Int64}
    (hNorm : Normalized x)
    (hNs : ns x = count.toInt * period.nanoseconds) :
    x.eq (ofDuration period count) = true ↔
      Regular period count.toInt := by
  have hSame :
      x.eq (ofDuration period count) = true ↔
        x = ofDuration period count := by
    rcases x with ⟨sec, nsec⟩
    rcases ofDuration period count with ⟨sec', nsec'⟩
    simp [eq]
  rw [hSame, ← normalized_ofDuration_iff]
  constructor
  · intro hEq
    rw [← hEq]
    exact hNorm
  · intro hNorm'
    refine eq_of_ns_eq hNorm hNorm' ?_
    rw [hNs, ns_ofDuration]

/-
  All this holds exactly if both durations, their sum and
  their difference are regular.
-/
theorem faithful_iff
    (period : Period) (a b : Int64) :
    Faithful period a b ↔
      Regular period a.toInt ∧ Regular period b.toInt ∧
        (Fits (a.toInt + b.toInt) →
          Regular period (a.toInt + b.toInt)) ∧
        (Fits (a.toInt - b.toInt) →
          Regular period (a.toInt - b.toInt)) := by
  by_cases hRegular :
      Regular period a.toInt ∧ Regular period b.toInt
  · rcases hRegular with ⟨hA, hB⟩
    have hNormA := (normalized_ofDuration_iff period a).mpr hA
    have hNormB := (normalized_ofDuration_iff period b).mpr hB
    have hNsA := ns_ofDuration period a
    have hNsB := ns_ofDuration period b
    have hSecA := sec_ofDuration_bounds period a
    have hSecB := sec_ofDuration_bounds period b
    have hPos : 0 < period.nanoseconds := by
      cases period with
      | milli => decide
      | nano => decide
    rcases add_spec hNormA hNormB
        ⟨⟨by omega, by omega⟩,
          fun _ => ⟨by omega, by omega⟩⟩ with
      ⟨hNormSum, hNsSum⟩
    rcases sub_spec hNormA hNormB
        ⟨⟨by omega, by omega⟩,
          fun _ => ⟨by omega, by omega⟩⟩ with
      ⟨hNormDiff, hNsDiff⟩
    have hAdd :
        Fits (a.toInt + b.toInt) →
          (((ofDuration period a).add
              (ofDuration period b)).eq
              (ofDuration period (a + b)) = true ↔
            Regular period (a.toInt + b.toInt)) := by
      intro hFits
      rw [← toInt_add_of_fits hFits]
      refine eq_ofDuration_iff hNormSum ?_
      rw [hNsSum, hNsA, hNsB, toInt_add_of_fits hFits,
        Int.add_mul]
    have hSub :
        Fits (a.toInt - b.toInt) →
          (((ofDuration period a).sub
              (ofDuration period b)).eq
              (ofDuration period (a - b)) = true ↔
            Regular period (a.toInt - b.toInt)) := by
      intro hFits
      rw [← toInt_sub_of_fits hFits]
      refine eq_ofDuration_iff hNormDiff ?_
      rw [hNsDiff, hNsA, hNsB, toInt_sub_of_fits hFits,
        Int.sub_mul]
    constructor
    · intro hFaithful
      exact
        ⟨hA, hB,
          fun hFits => (hAdd hFits).mp (hFaithful.add hFits),
          fun hFits => (hSub hFits).mp (hFaithful.sub hFits)⟩
    · rintro ⟨-, -, hSum, hDiff⟩
      exact
        { normalized := ⟨hNormA, hNormB⟩
          exact := ⟨hNsA, hNsB⟩
          add := fun hFits => (hAdd hFits).mpr (hSum hFits)
          sub := fun hFits => (hSub hFits).mpr (hDiff hFits)
          lt := by
            rw [lt_iff hNormA hNormB, hNsA, hNsB]
            exact Int.mul_lt_mul_right hPos }
  · constructor
    · intro hFaithful
      rcases hFaithful.normalized with ⟨hNormA, hNormB⟩
      rw [normalized_ofDuration_iff] at hNormA hNormB
      exact absurd ⟨hNormA, hNormB⟩ hRegular
    · rintro ⟨hA, hB, -⟩
      exact absurd ⟨hA, hB⟩ hRegular

/-
  The time of minus half a second is not normalized, and a
  difference with that value is another time.
-/
theorem not_faithful_negative :
    ¬ Faithful .milli 0 (-500) ∧
      ¬ Faithful .nano 0 500000000 ∧
      ofDuration .milli (-500) = ⟨0, -500000000⟩ ∧
      (ofDuration .nano 0).sub (ofDuration .nano 500000000) =
        ⟨-1, 500000000⟩ ∧
      ofDuration .nano (-500000000) = ⟨0, -500000000⟩ := by
  refine ⟨?_, ?_, by decide, by decide, by decide⟩
  · intro hFaithful
    exact absurd hFaithful.normalized.2.1 (by decide)
  · intro hFaithful
    have hFits :
        Fits ((0 : Int64).toInt - (500000000 : Int64).toInt) :=
      ⟨by decide, by decide⟩
    exact absurd (hFaithful.sub hFits) (by decide)

end TimeSpec

end Cosmos
