import LibCosmos.Core.Types
import LibCosmos.Foundation.Rounds
import Mathlib.Data.Nat.Find

/-
  Entries of the user and group databases
  (`cosmos/private/InfoBase.hxx`, `src/PasswdInfo.cxx`,
  `src/GroupInfo.cxx`).

  A lookup calls a function like `getpwnam_r` in rounds. The
  answers of the function are arbitrary, and of the buffer
  only its size is told.

  Main declarations:
    * `InfoBase.getInfo`, `InfoBase.construct`
    * `InfoBase.Promised`, `InfoBase.Settled`
    * `InfoBase.lookup_promised_iff`
-/

namespace Cosmos

------------------------------------------------------------
-- The Code
------------------------------------------------------------

/- A `PasswdInfo` or `GroupInfo`. -/
structure InfoBase (DB : Type) where
  valid : Bool
  info : DB
  bufSize : Nat
deriving DecidableEq, Repr

namespace InfoBase

def bufInitSize : Nat := 512
def bufMaxSize : Nat := 65535

/-
  What one call answers: the error code, what it wrote to
  `m_info`, and whether `res` is not null.
-/
structure Answer (DB : Type) where
  err : Errno
  info : DB
  found : Bool
deriving DecidableEq, Repr

section Lookup

variable {DB : Type}

/- One round of `getInfo`. -/
def getInfo (errlabel : String) :
    Rounds (Answer DB) (InfoBase DB)
      (Except Exn Bool × InfoBase DB) where
  round answer this :=
    let this := { this with info := answer.info }
    if answer.err = .noError then
      .stop (.ok answer.found, this)
    else
      let this :=
        if answer.err = .range then
          { this with bufSize := this.bufSize <<< 1 }
        else
          -- the error object is made, but not thrown
          let _error : Exn :=
            .apiError answer.err (str errlabel)
          this
      if this.bufSize > bufMaxSize then
        .stop
          (.error
            (.runtimeError
              (str "buffer size limit reached")), this)
      else .next this

variable (zero : DB)

/- `reset`; `zero` is the zeroed entry. -/
def reset (_ : InfoBase DB) : InfoBase DB :=
  ⟨false, zero, 0⟩

/- The constructors, after `getInfo`. -/
def finish :
    Except Exn Bool × InfoBase DB → Except Exn (InfoBase DB)
| (.error e, _) => .error e
| (.ok valid, this) =>
    let this := { this with valid := valid }
    if this.valid then .ok this else .ok (this.reset zero)

def construct (errlabel : String) :
    Rounds (Answer DB) (InfoBase DB)
      (Except Exn (InfoBase DB)) :=
  (getInfo errlabel).andThen (finish zero)

/- The four constructors. -/
def passwdInfoByName := construct zero "getpwnam_r()"
def passwdInfoByUid := construct zero "getpwuid_r()"
def groupInfoByName := construct zero "getgrnam_r()"
def groupInfoByGid := construct zero "getgrgid_r()"

/- The object at the first call; `m_info` is not set yet. -/
def start (info : DB) : InfoBase DB :=
  ⟨false, info, bufInitSize⟩

------------------------------------------------------------
-- The Promise
------------------------------------------------------------

/- What an answer that asks for no more space comes to. -/
def verdict
    (errlabel : String) (retries : Nat)
    (answer : Answer DB) : Except Exn (InfoBase DB) :=
  if answer.err = .noError then
    if answer.found then
      .ok ⟨true, answer.info, bufInitSize * 2 ^ retries⟩
    else .ok ⟨false, zero, 0⟩
  else .error (.apiError answer.err (str errlabel))

variable (errlabel : String) (info : DB)
variable (answers : Nat → Answer DB)

/- The first answers only ask for more space. -/
def Small (n : Nat) : Prop :=
  ∀ i < n, (answers i).err = .range

/- What a lookup promises. -/
structure Promised : Prop where
  terminates :
    ∃ n r,
      (construct zero errlabel).Ends answers (start info)
        n r
  ends :
    ∀ n, Small answers n →
      bufInitSize * 2 ^ n ≤ bufMaxSize →
      (answers n).err ≠ .range →
      (construct zero errlabel).Ends answers (start info)
        (n + 1) (verdict zero errlabel n (answers n))
  limited :
    ∀ n, Small answers (n + 1) →
      bufInitSize * 2 ^ n ≤ bufMaxSize →
      bufMaxSize < bufInitSize * 2 ^ (n + 1) →
      (construct zero errlabel).Ends answers (start info)
        (n + 1)
        (.error
          (.runtimeError (str "buffer size limit reached")))
  retried :
    ∀ n this,
      (construct zero errlabel).Waits answers (start info)
        n this →
      Small answers n
  grows :
    ∀ n this this',
      (construct zero errlabel).Waits answers (start info)
        n this →
      (construct zero errlabel).Waits answers (start info)
        (n + 1) this' →
      this.bufSize < this'.bufSize

/-
  Among the answers that the lookup can get to, the first
  one that does not ask for more space is no error.
-/
def Settled : Prop :=
  ∀ n, Small answers n →
    bufInitSize * 2 ^ n ≤ bufMaxSize →
    (answers n).err = .range ∨ (answers n).err = .noError

------------------------------------------------------------
-- Rounds
------------------------------------------------------------

theorem noError_ne_range : Errno.noError ≠ Errno.range := by
  decide

theorem round_noError
    {answer : Answer DB} (this : InfoBase DB)
    (hOk : answer.err = .noError) :
    (construct zero errlabel).round answer this =
      .stop
        (if answer.found then
          .ok ⟨true, answer.info, this.bufSize⟩
        else .ok ⟨false, zero, 0⟩) := by
  cases hFound : answer.found <;>
    simp [construct, Rounds.andThen, getInfo, finish, reset,
      hOk, hFound]

/- More space is made unless this is too much. -/
theorem round_range
    {answer : Answer DB} (this : InfoBase DB)
    (hRange : answer.err = .range) :
    (construct zero errlabel).round answer this =
      if this.bufSize * 2 > bufMaxSize then
        .stop
          (.error
            (.runtimeError
              (str "buffer size limit reached")))
      else
        .next ⟨this.valid, answer.info,
          this.bufSize * 2⟩ := by
  have hDouble : this.bufSize <<< 1 = this.bufSize * 2 := by
    simp [Nat.shiftLeft_succ, Nat.mul_comm]
  by_cases hLarge : this.bufSize * 2 > bufMaxSize <;>
    simp [construct, Rounds.andThen, getInfo, finish,
      hRange, noError_ne_range.symm, hDouble, hLarge]

/- Any other error is passed over. -/
theorem round_error
    {answer : Answer DB} {this : InfoBase DB}
    (hSize : this.bufSize ≤ bufMaxSize)
    (hError : answer.err ≠ .noError)
    (hOther : answer.err ≠ .range) :
    (construct zero errlabel).round answer this =
      .next { this with info := answer.info } := by
  have hFits : ¬ this.bufSize > bufMaxSize := by omega
  simp [construct, Rounds.andThen, getInfo, hError, hOther,
    hFits]

------------------------------------------------------------
-- Lookups
------------------------------------------------------------

/- While the lookup asks for space it gets it. -/
theorem waits_of_small
    {n : Nat} (hSmall : Small answers n)
    (hRoom : bufInitSize * 2 ^ n ≤ bufMaxSize) :
    ∃ this,
      (construct zero errlabel).Waits answers (start info)
        n this ∧
      this.bufSize = bufInitSize * 2 ^ n := by
  induction n with
  | zero =>
      refine ⟨start info, ?_, ?_⟩
      · rw [Rounds.waits_zero_iff]
      · unfold start
        simp
  | succ n ih =>
      rw [Nat.pow_succ, ← Nat.mul_assoc] at hRoom ⊢
      rcases
        ih (fun i hi => hSmall i (Nat.lt_succ_of_lt hi))
          (by omega) with
        ⟨this, hWaits, hSize⟩
      have hRound :=
        round_range zero errlabel this
          (hSmall n (Nat.lt_succ_self n))
      rw [hSize, if_neg (Nat.not_lt.mpr hRoom)] at hRound
      refine
        ⟨⟨this.valid, (answers n).info,
          bufInitSize * 2 ^ n * 2⟩, ?_, rfl⟩
      rw [Rounds.waits_succ_iff]
      exact ⟨this, hWaits, hRound⟩

/- A lookup that goes on was asked for more space only. -/
theorem small_of_waits
    (hSettled : Settled answers)
    {n : Nat} {this : InfoBase DB}
    (hWaits :
      (construct zero errlabel).Waits answers (start info)
        n this) :
    Small answers n ∧
      this.bufSize = bufInitSize * 2 ^ n ∧
      bufInitSize * 2 ^ n ≤ bufMaxSize := by
  apply
    Rounds.waits_invariant (construct zero errlabel) answers
      (fun n this =>
        Small answers n ∧
          this.bufSize = bufInitSize * 2 ^ n ∧
          bufInitSize * 2 ^ n ≤ bufMaxSize)
      ?_ ?_ hWaits
  · refine ⟨fun i hi => absurd hi (Nat.not_lt_zero i), ?_, ?_⟩
    · unfold start
      simp
    · unfold bufInitSize bufMaxSize
      simp
  · intro k t t' hInv hNext
    rcases hInv with ⟨hSmall, hSize, hRoom⟩
    rcases hSettled k hSmall hRoom with hRange | hOk
    · rw [round_range zero errlabel t hRange] at hNext
      split at hNext
      · cases hNext
      · next hFits =>
          injection hNext with hState
          rw [← hState]
          rw [Nat.pow_succ, ← Nat.mul_assoc, ← hSize]
          refine ⟨?_, rfl, by omega⟩
          intro i hi
          rcases Nat.lt_succ_iff_lt_or_eq.mp hi with
            hBefore | hLast
          · exact hSmall i hBefore
          · rw [hLast]
            exact hRange
    · rw [round_noError zero errlabel t hOk] at hNext
      cases hNext

/- An error that is passed over keeps the lookup going. -/
theorem waits_after_error
    {n : Nat} (hSmall : Small answers n)
    (hRoom : bufInitSize * 2 ^ n ≤ bufMaxSize)
    (hOther : (answers n).err ≠ .range)
    (hError : (answers n).err ≠ .noError) :
    ∃ this,
      (construct zero errlabel).Waits answers (start info)
        (n + 1) this := by
  rcases
    waits_of_small zero errlabel info answers hSmall hRoom
    with ⟨this, hWaits, hSize⟩
  have hFits : this.bufSize ≤ bufMaxSize := by
    rw [hSize]
    exact hRoom
  have hRound :=
    round_error zero errlabel hFits hError hOther
  refine ⟨{ this with info := (answers n).info }, ?_⟩
  rw [Rounds.waits_succ_iff]
  exact ⟨this, hWaits, hRound⟩

theorem ends_of_settled
    (hSettled : Settled answers)
    {n : Nat} (hSmall : Small answers n)
    (hRoom : bufInitSize * 2 ^ n ≤ bufMaxSize)
    (hOther : (answers n).err ≠ .range) :
    (construct zero errlabel).Ends answers (start info)
      (n + 1) (verdict zero errlabel n (answers n)) := by
  have hOk :=
    (hSettled n hSmall hRoom).resolve_left hOther
  rcases
    waits_of_small zero errlabel info answers hSmall hRoom
    with ⟨this, hWaits, hSize⟩
  rw [Rounds.ends_succ_iff]
  refine ⟨this, hWaits, ?_⟩
  rw [round_noError zero errlabel this hOk, verdict,
    if_pos hOk, hSize]

theorem ends_of_limit
    {n : Nat} (hSmall : Small answers (n + 1))
    (hRoom : bufInitSize * 2 ^ n ≤ bufMaxSize)
    (hLimit : bufMaxSize < bufInitSize * 2 ^ (n + 1)) :
    (construct zero errlabel).Ends answers (start info)
      (n + 1)
      (.error
        (.runtimeError
          (str "buffer size limit reached"))) := by
  rcases
    waits_of_small zero errlabel info answers
      (fun i hi => hSmall i (Nat.lt_succ_of_lt hi)) hRoom
    with ⟨this, hWaits, hSize⟩
  rw [Rounds.ends_succ_iff]
  refine ⟨this, hWaits, ?_⟩
  rw [Nat.pow_succ, ← Nat.mul_assoc, ← hSize] at hLimit
  rw [round_range zero errlabel this
    (hSmall n (Nat.lt_succ_self n)), if_pos hLimit]

/- Seven requests for space are too many. -/
theorem room_iff (n : Nat) :
    bufInitSize * 2 ^ n ≤ bufMaxSize ↔ n ≤ 6 := by
  constructor
  · intro hRoom
    by_contra hMany
    have hPow : 2 ^ 7 ≤ 2 ^ n :=
      Nat.pow_le_pow_right (by omega) (by omega)
    unfold bufInitSize bufMaxSize at hRoom
    omega
  · intro hFew
    have hPow : 2 ^ n ≤ 2 ^ 6 :=
      Nat.pow_le_pow_right (by omega) hFew
    unfold bufInitSize bufMaxSize
    omega

/- Either some answer ends the lookup, or the limit. -/
theorem terminates_of_settled
    (hSettled : Settled answers) :
    ∃ n r,
      (construct zero errlabel).Ends answers (start info)
        n r := by
  by_cases hAll : Small answers 7
  · exact
      ⟨7, _,
        ends_of_limit zero errlabel info answers hAll
          ((room_iff 6).mpr le_rfl)
          (Nat.lt_of_not_le fun hRoom =>
            absurd ((room_iff 7).mp hRoom) (by omega))⟩
  · have hSome : ∃ i, (answers i).err ≠ .range := by
      by_contra hNone
      apply hAll
      intro i _
      by_contra hOther
      exact hNone ⟨i, hOther⟩
    have hSmall : Small answers (Nat.find hSome) := by
      intro i hi
      by_contra hOther
      exact Nat.find_min hSome hi hOther
    have hFew : Nat.find hSome ≤ 6 := by
      by_contra hMany
      exact hAll fun i hi => hSmall i (by omega)
    exact
      ⟨_, _,
        ends_of_settled zero errlabel info answers hSettled
          hSmall ((room_iff _).mpr hFew)
          (Nat.find_spec hSome)⟩

/-
  The promise is kept exactly if no error other than a
  request for space is the first one to be passed over.
-/
theorem lookup_promised_iff :
    Promised zero errlabel info answers ↔
      Settled answers := by
  constructor
  · intro hPromised n hSmall hRoom
    by_contra hNot
    rw [not_or] at hNot
    rcases hNot with ⟨hOther, hError⟩
    rcases
      waits_after_error zero errlabel info answers hSmall
        hRoom hOther hError with
      ⟨this, hWaits⟩
    exact
      Rounds.not_waits_of_ends _ _
        (hPromised.ends n hSmall hRoom hOther) le_rfl hWaits
  · intro hSettled
    refine
      ⟨terminates_of_settled zero errlabel info answers
          hSettled,
        fun n =>
          ends_of_settled zero errlabel info answers
            hSettled,
        fun n => ends_of_limit zero errlabel info answers,
        ?_, ?_⟩
    · intro n this hWaits
      exact
        (small_of_waits zero errlabel info answers hSettled
          hWaits).1
    · intro n this this' hWaits hMore
      rcases
        small_of_waits zero errlabel info answers hSettled
          hWaits with
        ⟨-, hSize, -⟩
      rcases
        small_of_waits zero errlabel info answers hSettled
          hMore with
        ⟨-, hSize', -⟩
      rw [hSize, hSize', Nat.pow_succ, ← Nat.mul_assoc]
      have hPos : 0 < bufInitSize * 2 ^ n :=
        Nat.mul_pos (by simp [bufInitSize])
          (Nat.two_pow_pos n)
      omega

/- With an error every time the lookup never ends. -/
theorem never_ends
    (hErrors :
      ∀ k, (answers k).err ≠ .noError ∧
        (answers k).err ≠ .range)
    (n : Nat) (r : Except Exn (InfoBase DB)) :
    ¬ (construct zero errlabel).Ends answers (start info)
      n r := by
  have hWaits :
      ∃ this,
        (construct zero errlabel).Waits answers (start info)
          n this ∧
        this.bufSize = bufInitSize := by
    induction n with
    | zero =>
        refine ⟨start info, ?_, rfl⟩
        rw [Rounds.waits_zero_iff]
    | succ n ih =>
        rcases ih with ⟨this, hWaits, hSize⟩
        have hFits : this.bufSize ≤ bufMaxSize := by
          rw [hSize]
          simp [bufInitSize, bufMaxSize]
        refine
          ⟨{ this with info := (answers n).info }, ?_,
            hSize⟩
        rw [Rounds.waits_succ_iff]
        exact
          ⟨this, hWaits,
            round_error zero errlabel hFits (hErrors n).1
              (hErrors n).2⟩
  intro hEnds
  rcases hWaits with ⟨this, hWaits, -⟩
  exact
    Rounds.not_waits_of_ends _ _ hEnds le_rfl hWaits

end Lookup

/- `EIO` at every call: the lookup goes on for ever. -/
theorem lookup_never_ends :
    (∀ n r,
      ¬ (passwdInfoByName 0).Ends
        (fun _ => ⟨⟨5⟩, 0, false⟩) (start 0) n r) ∧
      ¬ Promised (0 : Nat) "getpwnam_r()" 0
        fun _ => ⟨⟨5⟩, 0, false⟩ := by
  have hNever :=
    never_ends 0 "getpwnam_r()" 0
      (fun _ => (⟨⟨5⟩, 0, false⟩ : Answer Nat))
      fun _ => by decide
  refine ⟨hNever, ?_⟩
  intro hPromised
  exact
    hNever 1 _
      (hPromised.ends 0
        (fun i hi => absurd hi (Nat.not_lt_zero i))
        (by decide) (by decide))

end InfoBase

end Cosmos
