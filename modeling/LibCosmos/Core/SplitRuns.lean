import LibCosmos.Core.Split
import LibCosmos.Foundation.Rounds

/-
  Runs of `split` with any separator (`src/string.cxx`).

  The two loops are one machine here, whose states are the
  heads of the loops. With a separator that is not empty it
  computes `Split.split`; with the empty one it need not
  come to an end.

  Main declarations:
    * `Split.At`, `Split.step`, `Split.Returns`
    * `Split.halts_splitLoop`, `Split.splitLoop_length`
    * `Split.split_returns_iff`
-/

namespace Cosmos

namespace Split

open Pieces

------------------------------------------------------------
-- The Machine
------------------------------------------------------------

/- At the head of the outer or of the inner loop. -/
inductive At where
| outer (parts : List Str) (pos2 : Nat)
| skipping (parts : List Str) (pos1 : Nat)
deriving DecidableEq, Repr

section Runs

variable (isspace : Byte → Bool)
variable (str : View)

/- `str.find(sep, pos)` for any separator. -/
def findAny (sep : Str) (pos : Nat) : Nat :=
  if str.chars.length < pos then npos
  else
    match firstIndex sep (str.chars.drop pos) with
    | some i => pos + i
    | none => npos

variable (sep : Str)
variable (flags : SplitFlags)
variable (max_splits : Nat)

/- The outer loop behind the inner one. -/
def body (parts : List Str) (pos1 : Nat) :
    Turn At (Except Exn (List Str)) :=
  let max_reached :=
    max_splits ≠ 0 ∧ parts.length = max_splits
  let pos2 :=
    if max_reached then npos else findAny str sep pos1
  match takeToken isspace str flags pos1 (pos2 - pos1) with
  | .error e => .stop (.error e)
  | .ok token =>
      let parts := push flags parts token
      if pos2 = npos then .stop (.ok parts)
      else .next (.outer parts (pos2 + sep.length))

def step : At → Turn At (Except Exn (List Str))
| .outer parts pos2 =>
    if flags.keepEmpty then
      body isspace str sep flags max_splits parts pos2
    else .next (.skipping parts pos2)
| .skipping parts pos1 =>
    match substr str pos1 sep.length with
    | .error e => .stop (.error e)
    | .ok front =>
        if front = sep then
          .next (.skipping parts (pos1 + sep.length))
        else
          body isspace str sep flags max_splits parts pos1

/- The call returns these parts. -/
def Returns (parts : List Str) : Prop :=
  Turn.Halts (step isspace str sep flags max_splits)
    (.outer [] 0) (.ok parts)

end Runs

------------------------------------------------------------
-- Separators That Are Not Empty
------------------------------------------------------------

section Separated

variable (isspace : Byte → Bool)
variable (str : View) (sep : Separator)
variable (flags : SplitFlags) (max_splits : Nat)

theorem findAny_eq (pos : Nat) :
    findAny str sep.chars pos = find str sep pos := by
  unfold findAny find
  split
  · next hOut =>
      rw [List.drop_eq_nil_of_le (Nat.le_of_lt hOut)]
      simp [firstIndex, sep.nonempty]
  · rfl

/- The machine does a round of the loop. -/
theorem body_of_round
    {parts parts' : List Str} {pos2 pos1 pos : Nat}
    (hStart :
      (if flags.keepEmpty then .ok pos2
        else skip str sep pos2 : Except Exn Nat) =
          .ok pos1)
    (hRound :
      round isspace str sep flags max_splits parts pos2 =
        .ok (parts', pos)) :
    body isspace str sep.chars flags max_splits parts pos1 =
      if pos = npos then .stop (.ok parts')
      else .next (.outer parts' (pos + sep.chars.length)) := by
  unfold round at hRound
  rw [hStart] at hRound
  simp only [tokenEnd, ← findAny_eq] at hRound
  unfold body
  simp only
  generalize
    (if max_splits ≠ 0 ∧ parts.length = max_splits then npos
    else findAny str sep.chars pos1) = pos2' at hRound ⊢
  cases hToken :
      takeToken isspace str flags pos1 (pos2' - pos1) with
  | error e =>
      rw [hToken] at hRound
      cases hRound
  | ok token =>
      rw [hToken] at hRound
      injection hRound with hPair
      injection hPair with hParts hPos
      rw [← hParts, ← hPos]

/- The inner loop comes to where `skip` does. -/
theorem halts_skipping
    {parts : List Str} {pos pos1 : Nat}
    {r : Except Exn (List Str)}
    (hLe : pos ≤ str.chars.length)
    (hSkip : skip str sep pos = .ok pos1)
    (hBody :
      ∀ s,
        step isspace str sep.chars flags max_splits s =
          body isspace str sep.chars flags max_splits parts
            pos1 →
        Turn.Halts
          (step isspace str sep.chars flags max_splits) s
          r) :
    Turn.Halts
      (step isspace str sep.chars flags max_splits)
      (.skipping parts pos) r := by
  induction hLeft : str.chars.length - pos
    using Nat.strong_induction_on generalizing pos with
  | _ left ih =>
      have hSubstr := substr_of_le str hLe sep.chars.length
      by_cases hFront : sep.chars <+: str.chars.drop pos
      · have hPos := List.length_pos_iff.mpr sep.nonempty
        have hInside := hFront.length_le
        rw [List.length_drop] at hInside
        rw [skip_more str sep hLe hFront] at hSkip
        have hNext :
            step isspace str sep.chars flags max_splits
                (.skipping parts pos) =
              .next
                (.skipping parts (pos + sep.chars.length))
            := by
          simp only [step, hSubstr]
          rw [if_pos
            (List.prefix_iff_eq_take.mp hFront).symm]
        exact
          Turn.Halts.next hNext
            (ih _ (by omega) (by omega) hSkip rfl)
      · rw [skip_stop str sep hLe hFront] at hSkip
        injection hSkip with hHere
        apply hBody
        simp only [step, hSubstr]
        rw [if_neg, hHere]
        intro hEq
        apply hFront
        rw [← hEq]
        exact List.take_prefix _ _

/- A round of the machine, from the head of the loop. -/
theorem halts_outer
    {parts parts' : List Str} {pos2 pos : Nat}
    {r : Except Exn (List Str)}
    (hLe : pos2 ≤ str.chars.length)
    (hRound :
      round isspace str sep flags max_splits parts pos2 =
        .ok (parts', pos))
    (hLater :
      if pos = npos then r = .ok parts'
      else
        Turn.Halts
          (step isspace str sep.chars flags max_splits)
          (.outer parts' (pos + sep.chars.length)) r) :
    Turn.Halts
      (step isspace str sep.chars flags max_splits)
      (.outer parts pos2) r := by
  rcases start_spec str sep flags hLe with
    ⟨k, pos1, hStart, -, -, -⟩
  have hBody :=
    body_of_round isspace str sep flags max_splits hStart
      hRound
  have hHalts :
      ∀ s,
        step isspace str sep.chars flags max_splits s =
          body isspace str sep.chars flags max_splits parts
            pos1 →
        Turn.Halts
          (step isspace str sep.chars flags max_splits) s
          r := by
    intro s hStep
    rw [hBody] at hStep
    split at hLater
    · next hEnd =>
        rw [if_pos hEnd] at hStep
        rw [hLater]
        exact Turn.Halts.stop hStep
    · next hMore =>
        rw [if_neg hMore] at hStep
        exact Turn.Halts.next hStep hLater
  by_cases hKeep : flags.keepEmpty = true
  · rw [if_pos hKeep] at hStart
    injection hStart with hHere
    rw [← hHere] at hHalts
    apply hHalts
    simp only [step, hKeep, if_true]
  · rw [if_neg hKeep] at hStart
    have hNext :
        step isspace str sep.chars flags max_splits
            (.outer parts pos2) =
          .next (.skipping parts pos2) := by
      simp only [step, hKeep]
      rfl
    exact
      Turn.Halts.next hNext
        (halts_skipping isspace str sep flags max_splits hLe
          hStart hHalts)

/- With such a separator the machine computes `splitLoop`. -/
theorem halts_splitLoop
    (parts : List Str) {pos2 : Nat}
    (hLe : pos2 ≤ str.chars.length) :
    Turn.Halts
      (step isspace str sep.chars flags max_splits)
      (.outer parts pos2)
      (splitLoop isspace str sep flags max_splits parts
        pos2) := by
  apply
    rounds_induction isspace str sep flags max_splits
      (P := fun parts pos2 =>
        Turn.Halts
          (step isspace str sep.chars flags max_splits)
          (.outer parts pos2)
          (splitLoop isspace str sep flags max_splits parts
            pos2))
      ?_ ?_ parts hLe
  · intro parts pos2 pos1 hLe hRound
    apply
      halts_outer isspace str sep flags max_splits hLe hRound
    rw [if_pos rfl]
    exact
      splitLoop_end isspace str sep flags max_splits hRound
  · intro parts pos2 pos1 i hLe _ _ hInside _ hRound ih
    have hMore := add_ne_npos str sep hInside
    apply
      halts_outer isspace str sep flags max_splits hLe hRound
    rw [if_neg hMore,
      splitLoop_more isspace str sep flags max_splits
        hRound hMore]
    exact ih

/- Every part but the last one uses up a separator. -/
theorem splitLoop_length
    (parts : List Str) {pos2 : Nat}
    (hLe : pos2 ≤ str.chars.length) :
    ∃ result,
      splitLoop isspace str sep flags max_splits parts
          pos2 = .ok result ∧
      result.length ≤
        parts.length + (str.chars.length - pos2) + 1 := by
  have hPos := List.length_pos_iff.mpr sep.nonempty
  have hPush :
      ∀ (parts : List Str) (token : Str),
        (push flags parts token).length ≤
          parts.length + 1 := by
    intro parts token
    rcases push_cases flags parts token with hMore | hSame
    · rw [hMore, List.length_append, List.length_singleton]
    · rw [hSame]
      omega
  apply
    rounds_induction isspace str sep flags max_splits
      (P := fun parts pos2 =>
        ∃ result,
          splitLoop isspace str sep flags max_splits parts
              pos2 = .ok result ∧
          result.length ≤
            parts.length + (str.chars.length - pos2) + 1)
      ?_ ?_ parts hLe
  · intro parts pos2 pos1 hLe hRound
    rw [splitLoop_end isspace str sep flags max_splits
      hRound]
    have hOne :=
      hPush parts
        (part isspace flags (str.chars.drop pos1))
    exact ⟨_, rfl, by omega⟩
  · intro parts pos2 pos1 i hLe _ _ hInside hLater hRound
      ih
    rw [splitLoop_more isspace str sep flags max_splits
      hRound (add_ne_npos str sep hInside)]
    have hOne :=
      hPush parts
        (part isspace flags ((str.chars.drop pos1).take i))
    rcases ih with ⟨result, hLoop, hCount⟩
    exact ⟨result, hLoop, by omega⟩

theorem returns_of_separator :
    ∃ parts,
      Returns isspace str sep.chars flags max_splits
        parts ∧
      split isspace str sep flags max_splits = .ok parts ∧
      parts.length ≤ str.chars.length + 1 := by
  have hHalts :=
    halts_splitLoop isspace str sep flags max_splits []
      (Nat.zero_le _)
  rcases
    splitLoop_length isspace str sep flags max_splits []
      (Nat.zero_le _) with
    ⟨result, hLoop, hCount⟩
  rw [hLoop] at hHalts
  refine ⟨result, hHalts, hLoop, ?_⟩
  rw [List.length_nil] at hCount
  omega

end Separated

------------------------------------------------------------
-- The Empty Separator
------------------------------------------------------------

section Empty

variable (isspace : Byte → Bool)
variable (str : View)
variable (flags : SplitFlags) (max_splits : Nat)

theorem findAny_nil : findAny str [] 0 = 0 := by
  unfold findAny
  rw [if_neg (Nat.not_lt_zero _),
    firstIndex_of_prefix List.nil_prefix]

/- An empty part is taken, and nothing else changes. -/
theorem body_nil_more
    (hKeep : flags.keepEmpty = true)
    {parts : List Str}
    (hLimit :
      ¬ (max_splits ≠ 0 ∧ parts.length = max_splits)) :
    body isspace str [] flags max_splits parts 0 =
      .next (.outer (parts ++ [[]]) 0) := by
  have hToken :
      takeToken isspace str flags 0 (0 - 0) = .ok [] := rfl
  have hEnd : 0 ≠ npos := by decide
  unfold body
  simp only [hLimit, if_false, findAny_nil, hToken,
    push_keep flags hKeep, hEnd]
  rfl

theorem body_nil_last
    (hKeep : flags.keepEmpty = true)
    {parts : List Str}
    (hLimit : max_splits ≠ 0 ∧ parts.length = max_splits) :
    body isspace str [] flags max_splits parts 0 =
      .stop
        (.ok (parts ++ [part isspace flags str.chars])) := by
  have hToken :=
    takeToken_eq isspace str flags (Nat.zero_le _) (npos - 0)
  rw [take_npos, List.drop_zero] at hToken
  have hEnd :
      (if max_splits ≠ 0 ∧ parts.length = max_splits then
        npos
      else findAny str [] 0) = npos :=
    if_pos hLimit
  unfold body
  simp only [hEnd, hToken, push_keep flags hKeep, if_true]

/- Empty parts are not kept: separators are skipped. -/
theorem not_returns_skipping
    (hKeep : ¬ flags.keepEmpty = true)
    (r : Except Exn (List Str)) :
    ¬ Turn.Halts (step isspace str [] flags max_splits)
      (.outer [] 0) r := by
  apply Turn.not_halts_of_invariant
    fun s => s = .outer [] 0 ∨ s = .skipping [] 0
  · intro s hInv
    refine ⟨.skipping [] 0, ?_, Or.inr rfl⟩
    rcases hInv with hOuter | hSkipping
    · simp [hOuter, step, hKeep]
    · simp [hSkipping, step, substr]
  · exact Or.inl rfl

/- Without a limit there is one empty part after another. -/
theorem not_returns_unlimited
    (hKeep : flags.keepEmpty = true)
    (r : Except Exn (List Str)) :
    ¬ Turn.Halts (step isspace str [] flags 0)
      (.outer [] 0) r := by
  apply Turn.not_halts_of_invariant
    fun s => ∃ parts, s = .outer parts 0
  · rintro s ⟨parts, hState⟩
    refine ⟨.outer (parts ++ [[]]) 0, ?_, _, rfl⟩
    have hLimit : ¬ (0 ≠ 0 ∧ parts.length = 0) := by simp
    simp only [hState, step, hKeep, if_true,
      body_nil_more isspace str flags 0 hKeep hLimit]
  · exact ⟨[], rfl⟩

/- With a limit there are as many as it permits. -/
theorem halts_limited
    (hKeep : flags.keepEmpty = true)
    (hMax : max_splits ≠ 0) {n : Nat} :
    ∀ parts : List Str,
      parts.length + n = max_splits →
      Turn.Halts (step isspace str [] flags max_splits)
        (.outer parts 0)
        (.ok
          (parts ++ List.replicate n [] ++
            [part isspace flags str.chars])) := by
  induction n with
  | zero =>
      intro parts hFull
      apply Turn.Halts.stop
      simp only [step, hKeep, if_true]
      rw [body_nil_last isspace str flags max_splits hKeep
        ⟨hMax, hFull⟩]
      simp
  | succ n ih =>
      intro parts hCount
      have hLimit :
          ¬ (max_splits ≠ 0 ∧
            parts.length = max_splits) := by
        omega
      have hNext :
          step isspace str [] flags max_splits
              (.outer parts 0) =
            .next (.outer (parts ++ [[]]) 0) := by
        simp only [step, hKeep, if_true]
        exact
          body_nil_more isspace str flags max_splits hKeep
            hLimit
      have hLater :=
        ih (parts ++ [[]]) (by
          rw [List.length_append, List.length_singleton]
          omega)
      rw [List.append_assoc parts [[]],
        ← List.replicate_one, ← List.replicate_add,
        Nat.add_comm 1 n] at hLater
      exact Turn.Halts.next hNext hLater

end Empty

------------------------------------------------------------
-- Termination
------------------------------------------------------------

/-
  `split` returns with so few parts exactly if the separator
  is not empty or a limit stops it early enough.
-/
theorem split_returns_iff
    (isspace : Byte → Bool) (str : View) (sep : Str)
    (flags : SplitFlags) (max_splits : Nat) :
    (∃ parts,
        Returns isspace str sep flags max_splits parts ∧
        parts.length ≤ str.chars.length + 1) ↔
      sep ≠ [] ∨
        flags.keepEmpty = true ∧ max_splits ≠ 0 ∧
          max_splits ≤ str.chars.length := by
  by_cases hSep : sep = []
  · rw [hSep]
    by_cases hKeep : flags.keepEmpty = true
    · by_cases hMax : max_splits = 0
      · rw [hMax]
        constructor
        · rintro ⟨parts, hReturns, -⟩
          exact
            absurd hReturns
              (not_returns_unlimited isspace str flags hKeep
                _)
        · rintro (hNot | ⟨-, hNot, -⟩)
          · exact absurd rfl hNot
          · exact absurd rfl hNot
      · have hHalts :=
          halts_limited isspace str flags max_splits hKeep
            hMax [] (Nat.zero_add max_splits)
        constructor
        · rintro ⟨parts, hReturns, hCount⟩
          have hParts := hReturns.unique hHalts
          injection hParts with hParts
          rw [hParts] at hCount
          right
          refine ⟨hKeep, hMax, ?_⟩
          simpa using hCount
        · rintro (hNot | ⟨-, -, hFew⟩)
          · exact absurd rfl hNot
          · refine ⟨_, hHalts, ?_⟩
            simpa using hFew
    · constructor
      · rintro ⟨parts, hReturns, -⟩
        exact
          absurd hReturns
            (not_returns_skipping isspace str flags
              max_splits hKeep _)
      · rintro (hNot | ⟨hNot, -⟩)
        · exact absurd rfl hNot
        · exact absurd hNot hKeep
  · constructor
    · intro _
      exact Or.inl hSep
    · intro _
      rcases
        returns_of_separator isspace str ⟨sep, hSep⟩ flags
          max_splits with
        ⟨parts, hReturns, -, hCount⟩
      exact ⟨parts, hReturns, hCount⟩

/- Splitting "a" at the empty separator goes on for ever. -/
theorem empty_separator_never_returns :
    ¬ ∃ r,
      Turn.Halts
        (step isspaceC ⟨Cosmos.str "a", by decide⟩ []
          ⟨false, false⟩ 0)
        (.outer [] 0) r := by
  rintro ⟨r, hHalts⟩
  exact
    not_returns_skipping isspaceC _ ⟨false, false⟩ 0
      (by simp) r hHalts

end Split

end Cosmos
