import LibCosmos.Core.BitMask
import LibCosmos.Foundation.Buffer
import LibCosmos.Foundation.Schedule
import LibCosmos.Foundation.Shared
import LibCosmos.IO.EventCounter
import LibCosmos.Time.TimeSpec
import Mathlib.Algebra.Order.BigOperators.Group.List

/-
  A timer behind a file descriptor, between any number of
  threads (`include/time/TimerFD.hxx`,
  `src/time/TimerFD.cxx`).

  Times are nanoseconds of the clock of the timer. The clock
  only advances; it is not set to another time. The kernel
  has 63 bits for a time, and the largest one never comes.

  Main declarations:
    * `TimerFD.Call`, `TimerFD.react`, the code
    * `TimerFD.Serve`, the kernel
    * `TimerFD.requested`, the schedule of a setting
    * `TimerFD.no_tick_lost`, `TimerFD.getTime_remaining`
-/

namespace Cosmos

------------------------------------------------------------
-- The Code
------------------------------------------------------------

/- `TimerFD::TimerSpec`, an `itimerspec`. -/
structure TimerSpec where
  initial : TimeSpec
  interval : TimeSpec
deriving DecidableEq, Repr

namespace TimerSpec

/- `TimerSpec::TimerSpec`. -/
def zero : TimerSpec where
  initial := .zero
  interval := .zero

end TimerSpec

namespace TimerFD

open StreamIO

abbrev CreateFlags : Type := BitMask 32
abbrev StartFlags : Type := BitMask 32

namespace CreateFlags

/- `TFD_NONBLOCK`. -/
def nonblock (flags : CreateFlags) : Bool :=
  flags.testAny 0x800

end CreateFlags

namespace StartFlags

/- `TFD_TIMER_ABSTIME`. -/
def abstime (flags : StartFlags) : Bool := flags.testAny 1

end StartFlags

inductive Call where
| setTime (spec : TimerSpec) (flags : StartFlags)
| getTime
| wait
deriving DecidableEq, Repr

/- `TimerFD::disarm`. -/
def disarm : Call := .setTime .zero .empty

/- What a call returned or threw. -/
inductive Result where
| set
| settings (spec : TimerSpec)
| waited (ticks : UInt64)
| thrown (ex : Exn)
deriving DecidableEq, Repr

/- The answers of the three system calls. -/
inductive Reply where
| read (a : Answer)
| settime (res : Sys Unit)
| gettime (res : Sys TimerSpec)
deriving DecidableEq, Repr

/- `TimerFD::wait` after `StreamIO::read` ended. -/
def waitResult
    (data : List Byte) (res : Except Exn UInt64) : Result :=
  match readNumber "Short read on timer fd" data res with
  | .ok ret => .waited ret
  | .error ex => .thrown ex

/- `TimerFD::setTime`. -/
def setTimeResult : Sys Unit → Result
| .ok () => .set
| .error e =>
    .thrown (.apiError e (str "timerfd_settime()"))

/- `TimerFD::getTime`. -/
def getTimeResult : Sys TimerSpec → Result
| .ok ret => .settings ret
| .error e =>
    .thrown (.apiError e (str "timerfd_gettime()"))

/- Only `read` is restarted. -/
def react (autoRestart : Bool) :
    Call → Reply → Option Result
| .wait, .read a =>
    (attempt autoRestart "read()" a.result).map
      (waitResult a.data)
| .setTime _ _, .settime res => some (setTimeResult res)
| .getTime, .gettime res => some (getTimeResult res)
| _, _ => none

------------------------------------------------------------
-- The Kernel
------------------------------------------------------------

/-
  The clock, the expirations that are still to come and the
  number of those that nobody has read.
-/
structure Timer where
  now : Nat
  schedule : Schedule
  ticks : Nat
deriving DecidableEq, Repr

/- After `TimerFD::create`. -/
def created (now : Nat) : Timer where
  now := now
  schedule := ⟨none, 0⟩
  ticks := 0

def ValidTime (t : TimeSpec) : Prop :=
  0 ≤ t.tvSec.toInt ∧ t.Normalized

instance (t : TimeSpec) : Decidable (ValidTime t) :=
  inferInstanceAs (Decidable (_ ∧ _ ∧ _))

/- `timespec` values of a number of nanoseconds. -/
def ofNs (n : Nat) : TimeSpec where
  tvSec := Int64.ofNat (n / 1000000000)
  tvNsec := Int64.ofNat (n % 1000000000)

/- `KTIME_MAX`, and the seconds in it. -/
def ktimeMax : Nat := 2 ^ 63 - 1

def ktimeSecMax : Nat := 9223372036

/- Seconds that have no room become the largest time. -/
def Fits (t : TimeSpec) : Prop :=
  t.tvSec.toInt < ktimeSecMax

instance (t : TimeSpec) : Decidable (Fits t) :=
  inferInstanceAs (Decidable (t.tvSec.toInt < ktimeSecMax))

def ktime (t : TimeSpec) : Nat :=
  if Fits t then t.ns.toNat else ktimeMax

/- What a setting asks for at a time. -/
def requested
    (spec : TimerSpec) (flags : StartFlags) (now : Nat) :
    Schedule where
  first :=
    if spec.initial = .zero then none
    else if flags.abstime then some (ktime spec.initial)
    else some (now + ktime spec.initial)
  period := ktime spec.interval

namespace Timer

/- The expirations up to a time become ticks. -/
def advance (k : Timer) (now : Nat) : Timer where
  now := now
  schedule := k.schedule.following now
  ticks := k.ticks + k.schedule.due now

/- The old setting and its ticks are dropped. -/
def set (k : Timer) (schedule : Schedule) : Timer :=
  advance ⟨k.now, schedule, 0⟩ k.now

/- No expiration is behind the largest time. -/
def get (k : Timer) : TimerSpec where
  initial :=
    ofNs (min (k.schedule.remaining k.now) (ktimeMax - k.now))
  interval := ofNs k.schedule.period

end Timer

/- The answers to the system calls. -/
inductive Serve (flags : CreateFlags) :
    Timer → Call → Reply → Timer → Prop
| set {k : Timer} {spec : TimerSpec} {start : StartFlags}
    (hInitial : ValidTime spec.initial)
    (hInterval : ValidTime spec.interval) :
    Serve flags k (.setTime spec start) (.settime (.ok ()))
      (k.set (requested spec start k.now))
| refuse {k : Timer} {spec : TimerSpec}
    {start : StartFlags} (e : Errno) :
    Serve flags k (.setTime spec start)
      (.settime (.error e)) k
| get {k : Timer} :
    Serve flags k .getTime (.gettime (.ok k.get)) k
| noGet {k : Timer} (e : Errno) :
    Serve flags k .getTime (.gettime (.error e)) k
| take {k : Timer} (hSome : k.ticks ≠ 0) :
    Serve flags k .wait
      (.read ⟨.ok 8, Buffer.leBytes 8 k.ticks⟩)
      { k with ticks := 0 }
| empty {k : Timer}
    (hNone : k.ticks = 0) (hMode : flags.nonblock) :
    Serve flags k .wait (.read ⟨.error .again, []⟩) k
| awaken {k : Timer}
    (hNone : k.ticks = 0) (hMode : ¬ flags.nonblock) :
    Serve flags k .wait
      (.read ⟨.error .interrupted, []⟩) k

/- The clock advances, but never to the largest time. -/
def object (autoRestart : Bool) (flags : CreateFlags) :
    Shared.Object Timer Call Reply Result Nat where
  answers := Serve flags
  react := react autoRestart
  happens k d k' :=
    k.now + d < ktimeMax ∧ k' = k.advance (k.now + d)

------------------------------------------------------------
-- What Can Be Seen of a Run
------------------------------------------------------------

abbrev Trace (P : Type) : Type :=
  List (Shared.Event P Call Result Nat)

/- How much time passed. -/
def elapsed {P : Type} (trace : Trace P) : Nat :=
  Shared.total (fun _ _ => 0) id trace

/- The ticks that a returned call got. -/
def got : Call → Result → Nat
| .wait, .waited ret => ret.toNat
| _, _ => 0

def waited {P : Type} (trace : Trace P) : Nat :=
  Shared.total got (fun _ => 0) trace

/- No other setting is made. -/
def Undisturbed {P : Type} (trace : Trace P) : Prop :=
  ∀ p spec flags,
    Shared.Event.leave p (.setTime spec flags) .set ∉ trace

------------------------------------------------------------
-- One Attempt
------------------------------------------------------------

/- What can be made of an attempt. -/
inductive Attempted (k : Timer) :
    Call → Timer → Option Result → Prop
| again : Attempted k .wait k none
| set {spec : TimerSpec} {start : StartFlags}
    (hInitial : ValidTime spec.initial)
    (hInterval : ValidTime spec.interval) :
    Attempted k (.setTime spec start)
      (k.set (requested spec start k.now)) (some .set)
| settings :
    Attempted k .getTime k (some (.settings k.get))
| waited (hSome : k.ticks ≠ 0) :
    Attempted k .wait { k with ticks := 0 }
      (some (.waited (UInt64.ofNat k.ticks)))
| thrown (c : Call) (ex : Exn) :
    Attempted k c k (some (.thrown ex))

theorem ofNat_leValue (n : Nat) :
    UInt64.ofNat (Buffer.leValue (Buffer.leBytes 8 n)) =
      UInt64.ofNat n := by
  rw [Buffer.leValue_leBytes]
  apply UInt64.toNat_inj.mp
  rw [UInt64.toNat_ofNat', UInt64.toNat_ofNat']
  exact Nat.mod_mod n (256 ^ 8)

theorem attempted
    {autoRestart : Bool} {flags : CreateFlags}
    {k k' : Timer} {c : Call} {a : Reply}
    (hAnswer : Serve flags k c a k') :
    Attempted k c k' (react autoRestart c a) := by
  cases hAnswer with
  | set hInitial hInterval => exact .set hInitial hInterval
  | refuse e => exact .thrown _ _
  | get => exact .settings
  | noGet e => exact .thrown _ _
  | take hSome =>
      simp only [react, attempt, Option.map_some, waitResult,
        readNumber, ne_eq, not_true, if_false, ofNat_leValue]
      exact .waited hSome
  | empty hNone hMode =>
      simp only [react]
      rw [attempt_other (by decide)]
      exact .thrown _ _
  | awaken hNone hMode =>
      simp only [react, attempt_error]
      cases autoRestart with
      | true => exact .again
      | false => exact .thrown _ _

theorem attempted_of_react
    {autoRestart : Bool} {flags : CreateFlags}
    {k k' : Timer} {c : Call} {a : Reply}
    {r : Option Result}
    (hAnswer :
      (object autoRestart flags).answers k c a k')
    (hReact : (object autoRestart flags).react c a = r) :
    Attempted k c k' r := by
  rw [← hReact]
  exact attempted hAnswer

------------------------------------------------------------
-- From One Setting On
------------------------------------------------------------

section Since

variable {P : Type}

theorem elapsed_snoc
    (trace : Trace P)
    (e : Shared.Event P Call Result Nat) :
    elapsed (trace ++ [e]) =
      elapsed trace + e.weigh (fun _ _ => 0) id :=
  Shared.total_snoc _ _ trace e

theorem waited_snoc
    (trace : Trace P)
    (e : Shared.Event P Call Result Nat) :
    waited (trace ++ [e]) =
      waited trace + e.weigh got (fun _ => 0) :=
  Shared.total_snoc _ _ trace e

theorem Undisturbed.front
    {trace : Trace P}
    {e : Shared.Event P Call Result Nat}
    (hTrace : Undisturbed (trace ++ [e])) :
    Undisturbed trace := by
  intro p spec flags hMem
  exact hTrace p spec flags (List.mem_append_left _ hMem)

/-
  The timer after `trace`, if it got the schedule `S` at the
  time `start`.
-/
structure Since (S : Schedule) (start : Nat) (k : Timer)
    (trace : Trace P) : Prop where
  clock : k.now = start + elapsed trace
  small : k.now < 2 ^ 63
  schedule :
    Undisturbed trace → k.schedule = S.following k.now
  ticks :
    Undisturbed trace → waited trace + k.ticks = S.due k.now
  positive :
    Undisturbed trace → ∀ p ret,
      Shared.Event.leave p .wait (.waited ret) ∈ trace →
        ret ≠ 0

variable {S : Schedule} {start : Nat}

theorem Since.positive_snoc
    {k : Timer} {trace : Trace P}
    (hSince : Since S start k trace)
    {e : Shared.Event P Call Result Nat}
    (hNew :
      Undisturbed trace → ∀ p ret,
        .leave p .wait (.waited ret) = e → ret ≠ 0) :
    Undisturbed (trace ++ [e]) → ∀ p ret,
      Shared.Event.leave p .wait (.waited ret) ∈
        trace ++ [e] → ret ≠ 0 := by
  intro hTrace p ret hMem
  rcases List.mem_append.mp hMem with hOld | hLast
  · exact hSince.positive hTrace.front p ret hOld
  · exact
      hNew hTrace.front p ret (List.mem_singleton.mp hLast)

/- An event that nothing can be seen of in the timer. -/
theorem Since.skip
    {k : Timer} {trace : Trace P}
    (hSince : Since S start k trace)
    {e : Shared.Event P Call Result Nat}
    (hElapsed : e.weigh (fun _ _ => 0) id = 0)
    (hGot : e.weigh got (fun _ => 0) = 0)
    (hOther :
      ∀ p ret, .leave p .wait (.waited ret) ≠ e) :
    Since S start k (trace ++ [e]) := by
  constructor
  · rw [elapsed_snoc, hElapsed]
    exact hSince.clock
  · exact hSince.small
  · intro hTrace
    exact hSince.schedule hTrace.front
  · intro hTrace
    rw [waited_snoc, hGot]
    exact hSince.ticks hTrace.front
  · apply hSince.positive_snoc
    intro _ p ret hEq
    exact absurd hEq (hOther p ret)

/- The ticks fit into the number that `wait` returns. -/
theorem Since.ticks_lt
    {k : Timer} {trace : Trace P}
    (hSince : Since S start k trace)
    (hTrace : Undisturbed trace) :
    k.ticks < 2 ^ 64 := by
  have hTicks := hSince.ticks hTrace
  have hDue := S.due_le k.now
  have hSmall := hSince.small
  omega

theorem Since.wait
    {k : Timer} {trace : Trace P} (p : P)
    (hSince : Since S start k trace) (hSome : k.ticks ≠ 0) :
    Since S start { k with ticks := 0 }
      (trace ++
        [.leave p .wait (.waited (UInt64.ofNat k.ticks))]) := by
  constructor
  · rw [elapsed_snoc]
    exact hSince.clock
  · exact hSince.small
  · intro hTrace
    exact hSince.schedule hTrace.front
  · intro hTrace
    have hTicks := hSince.ticks hTrace.front
    have hFits := hSince.ticks_lt hTrace.front
    rw [waited_snoc]
    simp only [Shared.Event.weigh, got, UInt64.toNat_ofNat']
    rw [Nat.mod_eq_of_lt hFits]
    exact hTicks
  · apply hSince.positive_snoc
    intro hTrace q ret hEq
    cases hEq
    have hFits := hSince.ticks_lt hTrace
    intro hZero
    have hNat := congrArg UInt64.toNat hZero
    rw [UInt64.toNat_ofNat', Nat.mod_eq_of_lt hFits] at hNat
    exact hSome hNat

theorem Since.advance
    {k : Timer} {trace : Trace P} {d : Nat}
    (hSince : Since S start k trace)
    (hSmall : k.now + d < 2 ^ 63) :
    Since S start (k.advance (k.now + d))
      (trace ++ [.outside d]) := by
  have hLe : k.now ≤ k.now + d := Nat.le_add_right _ _
  constructor
  · rw [elapsed_snoc]
    have hClock := hSince.clock
    simp only [Timer.advance, Shared.Event.weigh, id]
    omega
  · exact hSmall
  · intro hTrace
    simp only [Timer.advance]
    rw [hSince.schedule hTrace.front,
      S.following_later hLe]
  · intro hTrace
    have hTicks := hSince.ticks hTrace.front
    have hDue := S.due_later hLe
    rw [waited_snoc]
    simp only [Timer.advance, Shared.Event.weigh]
    rw [hSince.schedule hTrace.front]
    omega
  · apply hSince.positive_snoc
    intro _ p ret hEq
    cases hEq

/- Another setting ends the time that is spoken of. -/
theorem Since.set
    {k : Timer} {trace : Trace P} (p : P)
    (spec : TimerSpec) (flags : StartFlags)
    (schedule : Schedule)
    (hSince : Since S start k trace) :
    Since S start (k.set schedule)
      (trace ++ [.leave p (.setTime spec flags) .set]) := by
  have hEnd
      (hTrace :
        Undisturbed
          (trace ++ [.leave p (.setTime spec flags) .set])) :
      False :=
    hTrace p spec flags (by simp)
  constructor
  · rw [elapsed_snoc]
    exact hSince.clock
  · exact hSince.small
  · intro hTrace
    exact (hEnd hTrace).elim
  · intro hTrace
    exact (hEnd hTrace).elim
  · intro hTrace
    exact (hEnd hTrace).elim

variable (S start) in
theorem kept_since
    (autoRestart : Bool) (flags : CreateFlags) :
    Shared.Kept (object autoRestart flags)
      (Since (P := P) S start) := by
  constructor
  case enter =>
    intro k trace p c hSince
    exact hSince.skip rfl rfl (by simp)
  case again =>
    intro k trace p c a k' hSince hAnswer hReact
    cases attempted_of_react hAnswer hReact with
    | again => exact hSince.skip rfl rfl (by simp)
  case leave =>
    intro k trace p c a k' r hSince hAnswer hReact
    cases attempted_of_react hAnswer hReact with
    | set hInitial hInterval => exact hSince.set p _ _ _
    | settings => exact hSince.skip rfl rfl (by simp)
    | waited hSome => exact hSince.wait p hSome
    | thrown c ex =>
        exact hSince.skip rfl (by cases c <;> rfl)
          (by simp)
  case outside =>
    intro k trace d k' hSince hHappens
    rcases hHappens with ⟨hSmall, rfl⟩
    exact hSince.advance (hSmall.trans (by decide))

/- Right after the setting. -/
theorem since_set
    (k : Timer) (hSmall : k.now < 2 ^ 63) :
    Since (P := P) S k.now (k.set S) [] where
  clock := rfl
  small := hSmall
  schedule _ := rfl
  ticks _ := by simp [waited, Timer.set, Timer.advance]
  positive _ := by simp

end Since

------------------------------------------------------------
-- Runs
------------------------------------------------------------

section Runs

variable {P : Type} [DecidableEq P]
variable {autoRestart : Bool} {flags : CreateFlags}
variable {s t : Shared.State P Call Timer}

theorem run_since
    {S : Schedule} {start : Nat} {trace : Trace P}
    (hRun : Shared.Run (object autoRestart flags) s trace t)
    (hStart : Since (P := P) S start s.object []) :
    Since S start t.object trace :=
  hRun.along (Since S start)
    (kept_since S start autoRestart flags) hStart

theorem run_clock
    {now : Nat} (hNow : now < 2 ^ 63) {trace : Trace P}
    (hRun :
      Shared.Run (object autoRestart flags)
        (.idle (created now)) trace t) :
    t.object.now = now + elapsed trace ∧
      t.object.now < 2 ^ 63 := by
  have hSince : Since ⟨none, 0⟩ now t.object trace :=
    run_since hRun
      ⟨rfl, hNow, fun _ => rfl, fun _ => rfl, by simp⟩
  exact ⟨hSince.clock, hSince.small⟩

/- The setting that a returned `setTime` has made. -/
theorem run_setTime
    {now : Nat} (hNow : now < 2 ^ 63)
    {before after : Trace P} {p : P} {spec : TimerSpec}
    {start : StartFlags}
    (hRun :
      Shared.Run (object autoRestart flags)
        (.idle (created now))
        (before ++
          .leave p (.setTime spec start) .set :: after) s) :
    ValidTime spec.initial ∧ ValidTime spec.interval ∧
      Since (requested spec start (now + elapsed before))
        (now + elapsed before) s.object after := by
  rw [List.append_cons] at hRun
  rcases hRun.split with ⟨t, hFirst, hSecond⟩
  rcases hFirst.last with ⟨m, hBefore, hStep⟩
  rcases run_clock hNow hBefore with ⟨hClock, hSmall⟩
  cases hStep with
  | leave hCall hAnswer hReact =>
      cases attempted_of_react hAnswer hReact with
      | set hInitial hInterval =>
          refine ⟨hInitial, hInterval, ?_⟩
          rw [← hClock]
          exact run_since hSecond (since_set m.object hSmall)

theorem ret_le_waited
    {P : Type} {trace : Trace P} {p : P} {ret : UInt64}
    (hMem :
      Shared.Event.leave p .wait (.waited ret) ∈ trace) :
    ret.toNat ≤ waited trace := by
  apply List.le_sum_of_mem
  exact List.mem_map.mpr ⟨_, hMem, rfl⟩

/-
  A period of 2 after 3 nanoseconds: a waiter that looks
  after 8 of them gets 3 ticks at once.
-/
def everyTwo : TimerSpec where
  initial := ⟨0, 3⟩
  interval := ⟨0, 2⟩

def lateWaiter : Trace Bool :=
  [.enter false .wait, .outside 8,
    .leave false .wait (.waited 3), .enter true .getTime]

theorem run_lateWaiter :
    ∃ s,
      Shared.Run (object true .empty) (.idle (created 5))
          ([.enter true (.setTime everyTwo .empty)] ++
            .leave true (.setTime everyTwo .empty) .set ::
              (lateWaiter ++
                [.leave true .getTime
                  (.settings ⟨ofNs 1, ofNs 2⟩)])) s ∧
        s.object.ticks = 0 := by
  have hSet :
      Serve .empty (created 5) (.setTime everyTwo .empty)
        (.settime (.ok ())) ⟨5, ⟨some 8, 2⟩, 0⟩ :=
    .set (by decide) (by decide)
  have hTick :
      (object true .empty).happens ⟨5, ⟨some 8, 2⟩, 0⟩ 8
        ⟨13, ⟨some 14, 2⟩, 3⟩ :=
    ⟨by decide, rfl⟩
  have hTake :
      Serve .empty ⟨13, ⟨some 14, 2⟩, 3⟩ .wait
        (.read ⟨.ok 8, Buffer.leBytes 8 3⟩)
        ⟨13, ⟨some 14, 2⟩, 0⟩ :=
    .take (by decide)
  have hGet :
      Serve .empty ⟨13, ⟨some 14, 2⟩, 0⟩ .getTime
        (.gettime (.ok ⟨ofNs 1, ofNs 2⟩))
        ⟨13, ⟨some 14, 2⟩, 0⟩ :=
    .get
  refine ⟨_, Shared.Run.nil
    |>.snoc (.enter (Call.setTime everyTwo .empty) rfl)
    |>.snoc (.leave rfl hSet rfl)
    |>.snoc (.enter Call.wait rfl)
    |>.snoc (.outside hTick)
    |>.snoc (.leave rfl hTake rfl)
    |>.snoc (.enter Call.getTime rfl)
    |>.snoc (.leave rfl hGet rfl), ?_⟩
  rfl

/-
  From a setting on, until another one is made, every
  expiration of its schedule is in exactly one value that a
  `wait` returned, or nobody has read it yet: this holds for
  any number of waiting threads, interrupted and restarted
  calls, late reads and relative and absolute times. After
  `disarm` no `wait` returns.
-/
theorem no_tick_lost
    {now : Nat} (hNow : now < 2 ^ 63)
    {before after : Trace P} {p : P} {spec : TimerSpec}
    {start : StartFlags}
    (hRun :
      Shared.Run (object autoRestart flags)
        (.idle (created now))
        (before ++
          .leave p (.setTime spec start) .set :: after) s)
    (hAfter : Undisturbed after) :
    waited after + s.object.ticks =
        (requested spec start (now + elapsed before)).due
          (now + elapsed before + elapsed after) ∧
      (∀ q ret,
        Shared.Event.leave q .wait (.waited ret) ∈ after →
          ret ≠ 0) ∧
      (spec.initial = .zero →
        ∀ q ret,
          Shared.Event.leave q .wait (.waited ret) ∉
            after) := by
  rcases run_setTime hNow hRun with ⟨-, -, hSince⟩
  have hTicks := hSince.ticks hAfter
  have hPositive := hSince.positive hAfter
  rw [hSince.clock] at hTicks
  refine ⟨hTicks, hPositive, ?_⟩
  intro hZero q ret hMem
  have hDue :
      (requested spec start (now + elapsed before)).due
        (now + elapsed before + elapsed after) = 0 := by
    simp only [Schedule.due, requested, if_pos hZero]
  have hRet := ret_le_waited hMem
  apply hPositive q ret hMem
  apply UInt64.toNat_inj.mp
  rw [UInt64.toNat_zero]
  omega

theorem no_tick_lost_lateWaiter :
    waited lateWaiter = 3 := by
  rcases run_lateWaiter with ⟨s, hRun, hTicks⟩
  have hAll :=
    no_tick_lost (by decide) hRun
      (by simp [Undisturbed, lateWaiter])
  have hSum := hAll.1
  rw [hTicks] at hSum
  exact hSum

/- Nanoseconds that the seconds have room for. -/
theorem ns_ofNs
    {n : Nat} (hFits : n < 2 ^ 63 * 1000000000) :
    (ofNs n).Normalized ∧ (ofNs n).ns = n := by
  have hSec : n / 1000000000 < 2 ^ 63 := by omega
  have hNsec : n % 1000000000 < 2 ^ 63 := by omega
  have hDiv := Nat.div_add_mod n 1000000000
  simp only [TimeSpec.Normalized, TimeSpec.ns, ofNs]
  rw [Int64.toInt_ofNat_of_lt hSec,
    Int64.toInt_ofNat_of_lt hNsec]
  omega

/- What the kernel tells of an interval. -/
def kept (t : TimeSpec) : TimeSpec :=
  if Fits t then t else ofNs ktimeMax

theorem ofNs_ktime
    {t : TimeSpec} (hValid : ValidTime t) :
    ofNs (ktime t) = kept t := by
  unfold ktime kept
  by_cases hFits : Fits t
  · rw [if_pos hFits, if_pos hFits]
    rcases hValid with ⟨hSec, hLow, hHigh⟩
    unfold Fits ktimeSecMax at hFits
    have hSmall :
        t.ns.toNat < 2 ^ 63 * 1000000000 ∧
          (t.ns.toNat : Int) = t.ns := by
      unfold TimeSpec.ns
      omega
    have hTurn := ns_ofNs hSmall.1
    apply TimeSpec.eq_of_ns_eq hTurn.1 ⟨hLow, hHigh⟩
    exact hTurn.2.trans hSmall.2
  · rw [if_neg hFits, if_neg hFits]

/-
  What `getTime` tells from a setting on: the time to the
  next expiration of the schedule, also for an absolute
  setting and also when ticks were read late or not at all,
  and the interval that was set. What lies behind the largest
  time of the kernel is told as if it were there.
-/
theorem getTime_remaining
    {now : Nat} (hNow : now < 2 ^ 63)
    {before after : Trace P} {p q : P}
    {spec told : TimerSpec} {start : StartFlags}
    (hRun :
      Shared.Run (object autoRestart flags)
        (.idle (created now))
        (before ++ .leave p (.setTime spec start) .set ::
          (after ++ [.leave q .getTime (.settings told)])) s)
    (hAfter : Undisturbed after) :
    told.initial.Normalized ∧
      told.initial.ns =
        min
          ((requested spec start
            (now + elapsed before)).remaining
              (now + elapsed before + elapsed after))
          (ktimeMax -
            (now + elapsed before + elapsed after)) ∧
      told.interval = kept spec.interval := by
  rw [← List.cons_append, ← List.append_assoc] at hRun
  rcases hRun.last with ⟨m, hBefore, hStep⟩
  rcases run_setTime hNow hBefore with
    ⟨-, hInterval, hSince⟩
  cases hStep with
  | leave hCall hAnswer hReact =>
      cases attempted_of_react hAnswer hReact with
      | settings =>
          have hClock := hSince.clock
          have hSchedule := hSince.schedule hAfter
          have hSame :
              m.object.schedule.remaining m.object.now =
                (requested spec start
                  (now + elapsed before)).remaining
                    m.object.now := by
            rw [hSchedule]
            unfold Schedule.remaining
            rw [Schedule.following_later _ (Nat.le_refl _)]
          have hFits :
              min
                  (m.object.schedule.remaining m.object.now)
                  (ktimeMax - m.object.now) <
                2 ^ 63 * 1000000000 := by
            unfold ktimeMax
            omega
          have hTold := ns_ofNs hFits
          refine ⟨hTold.1, ?_, ?_⟩
          · simp only [Timer.get]
            rw [hTold.2, hSame, hClock]
          · simp only [Timer.get]
            rw [hSchedule]
            exact ofNs_ktime hInterval

theorem getTime_remaining_lateWaiter :
    (ofNs 1).ns = 1 ∧ ofNs 2 = everyTwo.interval := by
  rcases run_lateWaiter with ⟨s, hRun, -⟩
  have hAll :=
    getTime_remaining (by decide) hRun
      (by simp [Undisturbed, lateWaiter])
  exact hAll.2

end Runs

end TimerFD

end Cosmos
