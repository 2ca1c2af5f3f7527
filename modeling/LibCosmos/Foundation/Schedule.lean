import Mathlib.Algebra.Order.Ring.Nat
import Mathlib.Data.Nat.Basic
import Mathlib.Tactic.Ring

/-
  Schedules of a first time and a period: how many times are
  due, which one comes next and how far away it is. A period
  of zero means that there is only the first time.

  Main declarations:
    * `Schedule`, `Schedule.due`, `Schedule.following`
    * `Schedule.due_later`, counting in parts
    * `Schedule.following_later`
-/

/- `first` is missing if there is no time at all. -/
structure Schedule where
  first : Option Nat
  period : Nat
deriving DecidableEq, Repr

namespace Schedule

/- The number of times up to `now`, if the first is known. -/
def dueFrom (first period now : Nat) : Nat :=
  if now < first then 0
  else if period = 0 then 1
  else 1 + (now - first) / period

/- The first time behind `now`. -/
def followingFrom (first period now : Nat) : Option Nat :=
  if now < first then some first
  else if period = 0 then none
  else some (first + (1 + (now - first) / period) * period)

def due (s : Schedule) (now : Nat) : Nat :=
  match s.first with
  | none => 0
  | some first => dueFrom first s.period now

/- The times of the schedule that are behind `now`. -/
def following (s : Schedule) (now : Nat) : Schedule where
  first :=
    match s.first with
    | none => none
    | some first => followingFrom first s.period now
  period := s.period

/- How long it takes to the next time, zero if none comes. -/
def remaining (s : Schedule) (now : Nat) : Nat :=
  match (s.following now).first with
  | none => 0
  | some next => next - now

theorem dueFrom_of_lt
    {first period now : Nat} (hEarly : now < first) :
    dueFrom first period now = 0 :=
  if_pos hEarly

theorem followingFrom_of_lt
    {first period now : Nat} (hEarly : now < first) :
    followingFrom first period now = some first :=
  if_pos hEarly

theorem dueFrom_once
    {first now : Nat} (hLate : first ≤ now) :
    dueFrom first 0 now = 1 := by
  unfold dueFrom
  rw [if_neg (Nat.not_lt.mpr hLate), if_pos rfl]

theorem followingFrom_once
    {first now : Nat} (hLate : first ≤ now) :
    followingFrom first 0 now = none := by
  unfold followingFrom
  rw [if_neg (Nat.not_lt.mpr hLate), if_pos rfl]

theorem dueFrom_periodic
    {first period now : Nat} (hPeriod : period ≠ 0)
    (hLate : first ≤ now) :
    dueFrom first period now =
      1 + (now - first) / period := by
  unfold dueFrom
  rw [if_neg (Nat.not_lt.mpr hLate), if_neg hPeriod]

theorem followingFrom_periodic
    {first period now : Nat} (hPeriod : period ≠ 0)
    (hLate : first ≤ now) :
    followingFrom first period now =
      some
        (first + (1 + (now - first) / period) * period) := by
  unfold followingFrom
  rw [if_neg (Nat.not_lt.mpr hLate), if_neg hPeriod]

/-
  From the time behind `now` on, the quotient starts again
  at zero.
-/
theorem div_behind
    {first period now later : Nat} (hPeriod : period ≠ 0)
    (hBehind :
      first + (1 + (now - first) / period) * period ≤
        later) :
    (later - first) / period =
      1 + (now - first) / period +
        (later -
          (first + (1 + (now - first) / period) * period)) /
            period := by
  have hPos := Nat.pos_of_ne_zero hPeriod
  have hSplit :
      later - first =
        (later -
          (first + (1 + (now - first) / period) * period)) +
            (1 + (now - first) / period) * period := by
    omega
  rw [hSplit, Nat.add_mul_div_right _ _ hPos]
  omega

/- Before it, the quotient is the one of `now`. -/
theorem div_before
    {first period now later : Nat} (hPeriod : period ≠ 0)
    (hLate : first ≤ now) (hLe : now ≤ later)
    (hBefore :
      later <
        first + (1 + (now - first) / period) * period) :
    (later - first) / period = (now - first) / period := by
  have hPos := Nat.pos_of_ne_zero hPeriod
  apply Nat.le_antisymm
  · apply Nat.le_of_lt_succ
    rw [Nat.div_lt_iff_lt_mul hPos, Nat.succ_eq_one_add]
    omega
  · exact Nat.div_le_div_right (by omega)

/-
  What is due later is due now or is due of the times behind
  now.
-/
theorem due_later
    (s : Schedule) {now later : Nat} (hLe : now ≤ later) :
    s.due later = s.due now + (s.following now).due later := by
  rcases s with ⟨first, period⟩
  cases first with
  | none => rfl
  | some first =>
      simp only [due, following]
      by_cases hEarly : now < first
      · rw [followingFrom_of_lt hEarly,
          dueFrom_of_lt hEarly, Nat.zero_add]
      · have hLate : first ≤ now := Nat.not_lt.mp hEarly
        have hLater : first ≤ later := by omega
        by_cases hOnce : period = 0
        · rw [hOnce, followingFrom_once hLate,
            dueFrom_once hLate, dueFrom_once hLater]
          rfl
        · rw [followingFrom_periodic hOnce hLate,
            dueFrom_periodic hOnce hLate,
            dueFrom_periodic hOnce hLater]
          simp only
          by_cases hBefore :
              later <
                first +
                  (1 + (now - first) / period) * period
          · rw [dueFrom_of_lt hBefore,
              div_before hOnce hLate hLe hBefore]
            rfl
          · have hBehind := Nat.not_lt.mp hBefore
            rw [dueFrom_periodic hOnce hBehind,
              div_behind hOnce hBehind]
            omega

/- The times behind `later`, by way of `now`. -/
theorem following_later
    (s : Schedule) {now later : Nat} (hLe : now ≤ later) :
    (s.following now).following later =
      s.following later := by
  rcases s with ⟨first, period⟩
  cases first with
  | none => rfl
  | some first =>
      simp only [following, Schedule.mk.injEq, and_true]
      by_cases hEarly : now < first
      · rw [followingFrom_of_lt hEarly]
      · have hLate : first ≤ now := Nat.not_lt.mp hEarly
        have hLater : first ≤ later := by omega
        by_cases hOnce : period = 0
        · rw [hOnce, followingFrom_once hLate,
            followingFrom_once hLater]
        · rw [followingFrom_periodic hOnce hLate,
            followingFrom_periodic hOnce hLater]
          simp only
          by_cases hBefore :
              later <
                first +
                  (1 + (now - first) / period) * period
          · rw [followingFrom_of_lt hBefore,
              div_before hOnce hLate hLe hBefore]
          · have hBehind := Nat.not_lt.mp hBefore
            rw [followingFrom_periodic hOnce hBehind,
              div_behind hOnce hBehind]
            congr 1
            ring

/- A schedule has at most one time in each unit of time. -/
theorem due_le
    (s : Schedule) (now : Nat) :
    s.due now ≤ 1 + now := by
  rcases s with ⟨first, period⟩
  cases first with
  | none => exact Nat.zero_le _
  | some first =>
      simp only [due, dueFrom]
      have hDiv := Nat.div_le_self (now - first) period
      split
      · exact Nat.zero_le _
      · split <;> omega

end Schedule
