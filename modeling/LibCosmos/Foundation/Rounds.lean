import Mathlib.Data.List.Range

/-
  Loops in rounds: a round stops with a result or goes on
  with a new state.

  In a loop of the first kind every round reads one answer
  of an outside party. The answers are an endless sequence;
  whether the loop ends may depend on all of them. A loop of
  the second kind reads nothing.

  Main declarations:
    * `Turn`, `Rounds`, `Turn.Halts`
    * `Rounds.Waits`, `Rounds.Ends`
    * `Rounds.ends_succ_iff`, `Rounds.not_waits_of_ends`
    * `Rounds.waits_invariant`, `Rounds.exists_ends`
    * `Rounds.Settles`, `Rounds.settles_of_round`
    * `Turn.Halts.unique`, `Turn.not_halts_of_invariant`
-/

------------------------------------------------------------
-- Loops
------------------------------------------------------------

/- What a round comes to. -/
inductive Turn (σ ρ : Type) where
| stop (r : ρ)
| next (s : σ)
deriving DecidableEq, Repr

/- A loop by its round. -/
structure Rounds (α σ ρ : Type) where
  round : α → σ → Turn σ ρ

namespace Rounds

variable {α σ ρ : Type} (loop : Rounds α σ ρ)

/-
  The loop on the answers of a list: it stops with a result
  and unread answers, or it waits for more in some state.
-/
def run : List α → σ → Turn σ (ρ × List α)
| [], s => .next s
| a :: as, s =>
    match loop.round a s with
    | .stop r => .stop (r, as)
    | .next s' => run as s'

/- The first `n` of the answers. -/
def first (answers : Nat → α) (n : Nat) : List α :=
  (List.range n).map answers

/- The loop with something done to its result. -/
def andThen {τ : Type} (f : ρ → τ) : Rounds α σ τ where
  round a s :=
    match loop.round a s with
    | .stop r => .stop (f r)
    | .next s' => .next s'

variable (answers : Nat → α)

/- After `n` answers the loop goes on in the state `s'`. -/
def Waits (s : σ) (n : Nat) (s' : σ) : Prop :=
  loop.run (first answers n) s = .next s'

/- The loop stops in round `n`, counted from one. -/
def Ends (s : σ) (n : Nat) (r : ρ) : Prop :=
  loop.run (first answers n) s = .stop (r, [])

------------------------------------------------------------
-- One More Answer
------------------------------------------------------------

theorem first_succ (n : Nat) :
    first answers (n + 1) =
      first answers n ++ [answers n] := by
  unfold first
  rw [List.range_succ, List.map_append]
  rfl

theorem run_append
    (before after : List α) (s : σ) :
    loop.run (before ++ after) s =
      match loop.run before s with
      | .stop (r, rest) => .stop (r, rest ++ after)
      | .next s' => loop.run after s' := by
  induction before generalizing s with
  | nil => rfl
  | cons a before ih =>
      simp only [List.cons_append, run]
      cases loop.round a s with
      | stop r => rfl
      | next s' => exact ih s'

@[simp] theorem waits_zero_iff (s s' : σ) :
    loop.Waits answers s 0 s' ↔ s = s' := by
  simp [Waits, first, run]

theorem waits_succ_iff (s s' : σ) (n : Nat) :
    loop.Waits answers s (n + 1) s' ↔
      ∃ t, loop.Waits answers s n t ∧
        loop.round (answers n) t = .next s' := by
  unfold Waits
  rw [first_succ, run_append]
  cases hRun : loop.run (first answers n) s with
  | stop r => simp
  | next t =>
      cases hRound : loop.round (answers n) t with
      | stop r => simp [run, hRound]
      | next t' => simp [run, hRound]

/- The loop stops in the round it was waiting for. -/
theorem ends_succ_iff (s : σ) (n : Nat) (r : ρ) :
    loop.Ends answers s (n + 1) r ↔
      ∃ t, loop.Waits answers s n t ∧
        loop.round (answers n) t = .stop r := by
  unfold Ends Waits
  rw [first_succ, run_append]
  cases hRun : loop.run (first answers n) s with
  | stop r' => simp
  | next t =>
      cases hRound : loop.round (answers n) t with
      | stop r' => simp [run, hRound]
      | next t' => simp [run, hRound]

------------------------------------------------------------
-- Whole Runs
------------------------------------------------------------

theorem waits_of_le
    {s t : σ} {n m : Nat}
    (hWaits : loop.Waits answers s n t) (hLe : m ≤ n) :
    ∃ t', loop.Waits answers s m t' := by
  induction n generalizing t with
  | zero =>
      have hZero : m = 0 := by omega
      rw [hZero]
      exact ⟨t, hWaits⟩
  | succ n ih =>
      by_cases hLast : m = n + 1
      · rw [hLast]
        exact ⟨t, hWaits⟩
      · rcases (waits_succ_iff loop answers s t n).mp hWaits
          with ⟨t', hBefore, -⟩
        exact ih hBefore (by omega)

/- A loop that stopped does not go on. -/
theorem not_waits_of_ends
    {s t : σ} {n m : Nat} {r : ρ}
    (hEnds : loop.Ends answers s n r) (hLe : n ≤ m) :
    ¬ loop.Waits answers s m t := by
  intro hWaits
  rcases waits_of_le loop answers hWaits hLe with
    ⟨t', hThere⟩
  have hSame := hEnds.symm.trans hThere
  cases hSame

/- A loop that stops in the first round stops there. -/
theorem eq_of_stop_first
    {s : σ} {n : Nat} {r r' : ρ}
    (hStop : loop.round (answers 0) s = .stop r)
    (hEnds : loop.Ends answers s (n + 1) r') : r' = r := by
  have hFirst : loop.Ends answers s 1 r := by
    rw [ends_succ_iff]
    refine ⟨s, ?_, hStop⟩
    rw [waits_zero_iff]
  rcases (ends_succ_iff loop answers s n r').mp hEnds with
    ⟨t, hWaits, -⟩
  have hNone : n = 0 := by
    by_contra hLater
    exact
      not_waits_of_ends loop answers hFirst
        (Nat.one_le_iff_ne_zero.mpr hLater) hWaits
  rw [hNone] at hEnds
  have hSame := hEnds.symm.trans hFirst
  injection hSame with hPair
  exact (Prod.mk.inj hPair).1

/- What every round keeps is true while the loop waits. -/
theorem waits_invariant
    (Inv : Nat → σ → Prop) {s s' : σ} {n : Nat}
    (hStart : Inv 0 s)
    (hRound :
      ∀ k t t', Inv k t →
        loop.round (answers k) t = .next t' →
        Inv (k + 1) t')
    (hWaits : loop.Waits answers s n s') : Inv n s' := by
  induction n generalizing s' with
  | zero =>
      rw [waits_zero_iff] at hWaits
      rw [← hWaits]
      exact hStart
  | succ n ih =>
      rcases (waits_succ_iff loop answers s s' n).mp hWaits
        with ⟨t, hBefore, hNext⟩
      exact hRound n t s' (ih hBefore) hNext

/-
  A loop whose rounds stop as they should or make a measure
  smaller stops as it should.
-/
theorem exists_ends
    (Inv : Nat → σ → Prop) (measure : σ → Nat)
    (Post : Nat → ρ → Prop) {s : σ}
    (hStart : Inv 0 s)
    (hRound :
      ∀ k t, Inv k t →
        (∃ r, loop.round (answers k) t = .stop r ∧
          Post k r) ∨
        ∃ t', loop.round (answers k) t = .next t' ∧
          Inv (k + 1) t' ∧ measure t' < measure t) :
    ∃ n r, loop.Ends answers s (n + 1) r ∧ Post n r := by
  have hLater :
      ∀ (m k : Nat) (t : σ), measure t ≤ m →
        loop.Waits answers s k t → Inv k t →
        ∃ n r, loop.Ends answers s (n + 1) r ∧ Post n r := by
    intro m
    induction m with
    | zero =>
        intro k t hMeasure hWaits hInv
        rcases hRound k t hInv with
          ⟨r, hStop, hPost⟩ | ⟨t', -, -, hLess⟩
        · refine ⟨k, r, ?_, hPost⟩
          rw [ends_succ_iff]
          exact ⟨t, hWaits, hStop⟩
        · omega
    | succ m ih =>
        intro k t hMeasure hWaits hInv
        rcases hRound k t hInv with
          ⟨r, hStop, hPost⟩ | ⟨t', hNext, hInv', hLess⟩
        · refine ⟨k, r, ?_, hPost⟩
          rw [ends_succ_iff]
          exact ⟨t, hWaits, hStop⟩
        · refine ih (k + 1) t' (by omega) ?_ hInv'
          rw [waits_succ_iff]
          exact ⟨t, hWaits, hNext⟩
  refine hLater (measure s) 0 s (Nat.le_refl _) ?_ hStart
  rw [waits_zero_iff]

------------------------------------------------------------
-- Calls That Are Repeated
------------------------------------------------------------

section Calls

variable {ε V : Type} (calls : Rounds (Except ε V) σ ρ)

/-
  Each answer is a value, always the same one, or an error.
  The loop ends with what the last answer says, and no
  answer before it was an error.
-/
def Settles
    (s : σ) (value : V) (Fails : ε → Prop)
    (result : Except ε V → ρ) : Prop :=
  ∀ answers : Nat → Except ε V,
    (∀ i, answers i = .ok value ∨
      ∃ e, Fails e ∧ answers i = .error e) →
    ∃ n,
      calls.Ends answers s (n + 1) (result (answers n)) ∧
        ∀ i < n, answers i = .ok value

/- It does if all rounds decide or make a measure smaller. -/
theorem settles_of_round
    {s : σ} {value : V} {Fails : ε → Prop}
    {result : Except ε V → ρ}
    (Inv : σ → Prop) (measure : σ → Nat)
    (hStart : Inv s)
    (hValue :
      ∀ t, Inv t →
        calls.round (.ok value) t =
            .stop (result (.ok value)) ∨
          ∃ t', calls.round (.ok value) t = .next t' ∧
            Inv t' ∧ measure t' < measure t)
    (hFails :
      ∀ t e, Fails e →
        calls.round (.error e) t =
          .stop (result (.error e))) :
    calls.Settles s value Fails result := by
  intro answers hAnswers
  have hEnds : ∃ n r,
      calls.Ends answers s (n + 1) r ∧
        r = result (answers n) ∧
        ∀ i < n, answers i = .ok value := by
    apply
      calls.exists_ends answers
        (fun k t => Inv t ∧ ∀ i < k, answers i = .ok value)
        measure
        (fun k r =>
          r = result (answers k) ∧
            ∀ i < k, answers i = .ok value)
    · exact ⟨hStart, fun i hi => absurd hi (Nat.not_lt_zero i)⟩
    · intro k t hInv
      rcases hInv with ⟨hInv, hBefore⟩
      rcases hAnswers k with hOk | ⟨e, hFail, hError⟩
      · rw [hOk]
        rcases hValue t hInv with
          hStop | ⟨t', hNext, hInv', hLess⟩
        · exact Or.inl ⟨_, hStop, rfl, hBefore⟩
        · refine Or.inr ⟨t', hNext, ⟨hInv', ?_⟩, hLess⟩
          intro i hi
          rcases Nat.lt_succ_iff_lt_or_eq.mp hi with
            hOld | hLast
          · exact hBefore i hOld
          · rw [hLast, hOk]
      · rw [hError]
        exact Or.inl ⟨_, hFails t e hFail, rfl, hBefore⟩
  rcases hEnds with ⟨n, r, hEnds, rfl, hBefore⟩
  exact ⟨n, hEnds, hBefore⟩

end Calls

end Rounds

------------------------------------------------------------
-- Loops without Answers
------------------------------------------------------------

namespace Turn

variable {σ ρ : Type} {step : σ → Turn σ ρ}

/- The loop stops with this result after some rounds. -/
inductive Halts (step : σ → Turn σ ρ) : σ → ρ → Prop where
| stop {s : σ} {r : ρ} :
    step s = .stop r → Halts step s r
| next {s s' : σ} {r : ρ} :
    step s = .next s' → Halts step s' r → Halts step s r

theorem Halts.unique
    {s : σ} {r r' : ρ}
    (hHalts : Halts step s r)
    (hOther : Halts step s r') : r = r' := by
  induction hHalts with
  | stop hStop =>
      cases hOther with
      | stop hStop' =>
          rw [hStop] at hStop'
          injection hStop'
      | next hNext =>
          rw [hStop] at hNext
          cases hNext
  | next hNext _ ih =>
      cases hOther with
      | stop hStop =>
          rw [hNext] at hStop
          cases hStop
      | next hNext' hLater =>
          rw [hNext] at hNext'
          injection hNext' with hSame
          rw [← hSame] at hLater
          exact ih hLater

/- A loop that always goes on has no result. -/
theorem not_halts_of_invariant
    (Inv : σ → Prop)
    (hRound :
      ∀ s, Inv s → ∃ s', step s = .next s' ∧ Inv s')
    {s : σ} (hStart : Inv s) (r : ρ) :
    ¬ Halts step s r := by
  intro hHalts
  induction hHalts with
  | stop hStop =>
      rcases hRound _ hStart with ⟨t, hNext, -⟩
      rw [hStop] at hNext
      cases hNext
  | next hNext' _ ih =>
      rcases hRound _ hStart with ⟨t, hNext, hInv⟩
      rw [hNext'] at hNext
      injection hNext with hSame
      rw [← hSame] at hInv
      exact ih hInv

end Turn
